import Nexus.Tools.ApprovalRules
import Mathlib

/-!
# Which approval rule decides

The sort of `findBestMatchingRule` orders the rules by scope priority and priority, so the loop over
them ends at the first of the highest rank among the rules in scope that match or whose patterns
cannot be tested. The selection is a maximal matching rule exactly when no rule that cannot be
tested stands before every matching one (`selection_maximal_iff`). Before a call no pattern is
tested: what the preflight denies every call is denied, and it never allows what every call is
denied.
-/

set_option autoImplicit false

namespace Nexus

open RankedChoice

namespace ToolApprovalRuleService

/-! ## Ranks -/

/-- What the sort compares: the scope priority, then the priority. -/
def rank (rule : ToolApprovalRule) : Rat ×ₗ Int :=
  toLex (scopePriority rule.scopeType, rule.priority)

theorem compareRules_le_iff {a b : ToolApprovalRule} :
    compareRules a b ≤ 0 ↔ rank b ≤ rank a := by
  rw [rank, rank, Prod.Lex.toLex_le_toLex]
  simp only [compareRules]
  split
  · rename_i hne
    rw [sub_nonpos]
    constructor
    · intro h
      exact .inl (lt_of_le_of_ne h fun heq => hne (sub_eq_zero.2 heq))
    · rintro (h | ⟨heq, -⟩)
      · exact h.le
      · exact heq.le
  · rename_i heq
    rw [not_not, sub_eq_zero] at heq
    rw [Int.cast_nonpos, sub_nonpos]
    constructor
    · intro h
      exact .inr ⟨heq, h⟩
    · rintro (h | ⟨-, h⟩)
      · exact absurd heq h.ne
      · exact h

theorem sortRules_eq (rules : List ToolApprovalRule) :
    sortRules rules = sortByRank rank rules := by
  simp only [sortRules, sortByRank, compareRules_le_iff]

/-! ## The rules of a call -/

section Selection

variable (regExp : RegExpTest) (getAncestorIds : String → List String)
  (rules : List ToolApprovalRule) (context : RuleContext) (payload : Payload)

/-- The rule is in scope for the context. -/
def InScope (rule : ToolApprovalRule) : Prop :=
  ruleMatchesScope rule context (resolveAncestorIds getAncestorIds rules context) = true

/-- The patterns of the rule match the payload. -/
def MatchesCall (rule : ToolApprovalRule) : Prop := matchesPayload regExp payload rule = .ok true

/-- A pattern of the rule that the payload leads to is no regular expression. -/
def FailsOnCall (rule : ToolApprovalRule) : Prop :=
  ∃ e, matchesPayload regExp payload rule = .error e

/-- The loop comes to the first rule before the second: it is of a higher rank, or of the same and
before it in the list. -/
def Precedes (rule rule' : ToolApprovalRule) : Prop :=
  rank rule' < rank rule ∨ rank rule = rank rule' ∧ rules.idxOf rule < rules.idxOf rule'

/-- The selection as promised: nothing exactly when no rule in scope matches, and otherwise the
effect of a matching rule that no matching rule exceeds. -/
def SelectsMaximal : Prop :=
  ∃ result, resolveToolEffectExecution regExp getAncestorIds rules context payload = .ok result ∧
    (result = none ↔ ∀ rule ∈ rules, InScope getAncestorIds rules context rule →
      ¬ MatchesCall regExp payload rule) ∧
    ∀ effect, result = some effect → ∃ rule ∈ rules, InScope getAncestorIds rules context rule ∧
      MatchesCall regExp payload rule ∧ rule.effect = effect ∧
      ∀ other ∈ rules, InScope getAncestorIds rules context other →
        MatchesCall regExp payload other → rank other ≤ rank rule

/-- Every rule in scope that cannot be tested stands behind a rule in scope that matches. -/
def FailuresStandBehind : Prop :=
  ∀ rule ∈ rules, InScope getAncestorIds rules context rule → FailsOnCall regExp payload rule →
    ∃ earlier ∈ rules, InScope getAncestorIds rules context earlier ∧
      MatchesCall regExp payload earlier ∧ Precedes rules earlier rule

variable {regExp getAncestorIds rules context payload}

/-- A filtered list keeps the order. -/
theorem idxOf_filter_le_iff {p : ToolApprovalRule → Bool} {a b : ToolApprovalRule}
    (ha : p a = true) (hb : p b = true) (hmem : b ∈ rules) :
    (rules.filter p).idxOf a ≤ (rules.filter p).idxOf b ↔ rules.idxOf a ≤ rules.idxOf b := by
  induction rules with
  | nil => cases hmem
  | cons x xs ih =>
      by_cases hxa : x = a
      · subst hxa
        rw [List.filter_cons_of_pos ha, List.idxOf_cons_self, List.idxOf_cons_self]
        exact iff_of_true (Nat.zero_le _) (Nat.zero_le _)
      · by_cases hxb : x = b
        · subst hxb
          rw [List.filter_cons_of_pos hb, List.idxOf_cons_self, List.idxOf_cons_self,
            List.idxOf_cons_ne _ hxa, List.idxOf_cons_ne _ hxa]
          exact iff_of_false (Nat.not_succ_le_zero _) (Nat.not_succ_le_zero _)
        · have ih := ih ((List.mem_cons.1 hmem).resolve_left (Ne.symm hxb))
          rw [List.idxOf_cons_ne _ hxa, List.idxOf_cons_ne _ hxb, Nat.succ_le_succ_iff, ← ih]
          cases hx : p x with
          | true =>
              rw [List.filter_cons_of_pos hx, List.idxOf_cons_ne _ hxa, List.idxOf_cons_ne _ hxb,
                Nat.succ_le_succ_iff]
          | false => rw [List.filter_cons_of_neg (by simp [hx])]

/-- The rules in scope on which the loop would end. -/
def decidingRules (regExp : RegExpTest) (getAncestorIds : String → List String)
    (rules : List ToolApprovalRule) (context : RuleContext) (payload : Payload) :
    List ToolApprovalRule :=
  rules.filter fun rule =>
    ruleMatchesScope rule context (resolveAncestorIds getAncestorIds rules context) &&
      decides (matchesPayload regExp payload) rule

variable {rule : ToolApprovalRule}

theorem mem_decidingRules :
    rule ∈ decidingRules regExp getAncestorIds rules context payload ↔
      rule ∈ rules ∧ InScope getAncestorIds rules context rule ∧
        (MatchesCall regExp payload rule ∨ FailsOnCall regExp payload rule) := by
  rw [decidingRules, List.mem_filter, Bool.and_eq_true, decides_eq_true_iff]
  rfl

/-- The first deciding rule of the highest rank is the outcome of the loop. -/
theorem resolveToolEffectExecution_eq :
    resolveToolEffectExecution regExp getAncestorIds rules context payload =
      match (decidingRules regExp getAncestorIds rules context payload).argmax
        rank with
      | none => .ok none
      | some rule => (matchesPayload regExp payload rule).map fun _ => some rule.effect := by
  simp only [resolveToolEffectExecution, findBestMatchingRule]
  rw [firstMatch_eq, sortRules_eq, find?_sortByRank, List.filter_filter]
  simp only [decidingRules, Bool.and_comm]
  cases List.argmax rank _ with
  | none => rfl
  | some rule =>
      simp only [Except.map]
      cases matchesPayload regExp payload rule with
      | error e => rfl
      | ok found => rfl

/-- The deciding rule of the outcome precedes every other one. -/
theorem precedes_of_argmax {rule' : ToolApprovalRule}
    (h : rule ∈ (decidingRules regExp getAncestorIds rules context payload).argmax rank)
    (hmem : rule' ∈ decidingRules regExp getAncestorIds rules context payload)
    (hne : rule ≠ rule') : Precedes rules rule rule' := by
  obtain ⟨hrule, hmax, hfirst⟩ := List.mem_argmax_iff.1 h
  rcases (hmax rule' hmem).lt_or_eq with hlt | heq
  · exact .inl hlt
  · refine .inr ⟨heq.symm, ?_⟩
    have hle := hfirst rule' hmem heq.ge
    rw [decidingRules, idxOf_filter_le_iff (List.mem_filter.1 hrule).2 (List.mem_filter.1 hmem).2
      (List.mem_filter.1 hmem).1] at hle
    refine lt_of_le_of_ne hle fun hidx => hne ?_
    exact (List.idxOf_inj (List.mem_filter.1 hrule).1).1 hidx

theorem not_precedes_symm {rule' : ToolApprovalRule} (h : Precedes rules rule rule') :
    ¬ Precedes rules rule' rule := by
  rintro (hlt | ⟨heq, hidx⟩)
  · rcases h with hlt' | ⟨heq', -⟩
    · exact lt_asymm hlt hlt'
    · exact hlt.ne heq'
  · rcases h with hlt' | ⟨-, hidx'⟩
    · exact hlt'.ne heq
    · exact lt_asymm hidx hidx'

theorem not_fails_of_matches (h : MatchesCall regExp payload rule) :
    ¬ FailsOnCall regExp payload rule := by
  rintro ⟨e, he⟩
  rw [MatchesCall, he] at h
  cases h

/-- **The selection is maximal exactly when failures stand behind.** -/
theorem selectsMaximal_iff : SelectsMaximal regExp getAncestorIds rules context payload ↔
    FailuresStandBehind regExp getAncestorIds rules context payload := by
  unfold SelectsMaximal
  rw [resolveToolEffectExecution_eq]
  cases hbest : (decidingRules regExp getAncestorIds rules context payload).argmax
    rank with
  | none =>
      -- no rule in scope matches or fails
      have hnone : ∀ rule ∈ rules, InScope getAncestorIds rules context rule →
          ¬ (MatchesCall regExp payload rule ∨ FailsOnCall regExp payload rule) := by
        intro rule hrule hscope hdecides
        rw [List.argmax_eq_none] at hbest
        have hmem : rule ∈ decidingRules regExp getAncestorIds rules context payload :=
          mem_decidingRules.2 ⟨hrule, hscope, hdecides⟩
        rw [hbest] at hmem
        cases hmem
      refine iff_of_true ⟨none, rfl, ?_, ?_⟩ ?_
      · exact iff_of_true rfl fun rule hrule hscope h => hnone rule hrule hscope (.inl h)
      · rintro effect ⟨⟩
      · intro rule hrule hscope h
        exact absurd (.inr h) (hnone rule hrule hscope)
  | some best =>
      have hbest' := List.mem_argmax_iff.1 (Option.mem_def.2 hbest)
      obtain ⟨hmem, hscope, hdecides⟩ := mem_decidingRules.1 hbest'.1
      rcases hdecides with hmatches | hfails
      · -- the best deciding rule matches
        rw [MatchesCall] at hmatches
        refine iff_of_true ⟨some best.effect, by simp only [hmatches, Except.map], ?_, ?_⟩ ?_
        · refine iff_of_false (by rintro ⟨⟩) fun hnone => ?_
          exact hnone best hmem hscope hmatches
        · rintro effect ⟨⟩
          refine ⟨best, hmem, hscope, hmatches, rfl, fun other hother hoscope homatches => ?_⟩
          exact hbest'.2.1 other (mem_decidingRules.2 ⟨hother, hoscope, .inl homatches⟩)
        · intro rule hrule hrscope hrfails
          refine ⟨best, hmem, hscope, hmatches, ?_⟩
          apply precedes_of_argmax (Option.mem_def.2 hbest)
            (mem_decidingRules.2 ⟨hrule, hrscope, .inr hrfails⟩)
          rintro rfl
          exact not_fails_of_matches hmatches hrfails
      · -- the best deciding rule cannot be tested
        obtain ⟨e, he⟩ := hfails
        refine iff_of_false ?_ ?_
        · rintro ⟨result, hresult, -⟩
          simp only [he, Except.map] at hresult
          cases hresult
        · intro hbehind
          obtain ⟨earlier, hearlier, hescope, hematches, hprecedes⟩ :=
            hbehind best hmem hscope ⟨e, he⟩
          refine not_precedes_symm hprecedes ?_
          apply precedes_of_argmax (Option.mem_def.2 hbest)
            (mem_decidingRules.2 ⟨hearlier, hescope, .inl hematches⟩)
          rintro rfl
          exact not_fails_of_matches hematches ⟨e, he⟩

/-! ## Preflight -/

/-- Without a payload only rules without patterns match. -/
theorem matchesPayload_nil (rule : ToolApprovalRule) :
    matchesPayload regExp [] rule = .ok (hasNoPatterns rule) := by
  unfold matchesPayload
  cases hpatterns : hasNoPatterns rule with
  | true => rfl
  | false =>
      rw [if_neg (by decide)]
      rw [hasNoPatterns, List.isEmpty_eq_false_iff] at hpatterns
      cases hlist : rule.argumentPatterns.getD [] with
      | nil => exact absurd hlist hpatterns
      | cons pattern patterns => rfl

theorem firstMatch_nil (inScope : List ToolApprovalRule) :
    firstMatch (matchesPayload regExp []) inScope =
      .ok (inScope.find? hasNoPatterns) := by
  induction inScope with
  | nil => rfl
  | cons rule inScope ih =>
      rw [firstMatch, matchesPayload_nil, List.find?_cons]
      cases hasNoPatterns rule with
      | true => rfl
      | false => exact ih

/-- Rules without patterns are decided by the first of them, whatever the payload. -/
theorem firstMatch_of_noPatterns {inScope : List ToolApprovalRule} (payload : Payload)
    (h : inScope.any (fun rule => !hasNoPatterns rule) = false) :
    firstMatch (matchesPayload regExp payload) inScope =
      .ok (inScope.find? hasNoPatterns) := by
  cases inScope with
  | nil => rfl
  | cons rule inScope =>
      rw [List.any_cons, Bool.or_eq_false_iff, Bool.not_eq_false'] at h
      rw [firstMatch, matchesPayload, if_pos h.1, List.find?_cons, h.1]

/-- What the preflight denies is denied with every payload. -/
theorem execution_denies_of_preflight
    (h : resolveToolEffectPreflight regExp getAncestorIds rules context = .ok (some .deny))
    (payload : Payload) :
    resolveToolEffectExecution regExp getAncestorIds rules context payload =
      .ok (some .deny) := by
  simp only [resolveToolEffectPreflight, resolveToolEffectExecution, findBestMatchingRule,
    findPreflightRule] at h ⊢
  split at h
  · cases h
  · rename_i first hfirst
    split at h
    · cases h
    · rename_i hnot
      have hdeny : first.effect = .deny := Option.some.inj (Except.ok.inj h)
      have hpatterns := Bool.eq_false_iff.2 fun hany => hnot ⟨hdeny, hany⟩
      rw [firstMatch_of_noPatterns payload hpatterns, hfirst]
      exact h

/-- What is denied with every payload, the empty one included, the preflight does not allow. -/
theorem preflight_not_allow
    (h : ∀ payload, resolveToolEffectExecution regExp getAncestorIds rules context payload =
      .ok (some .deny)) :
    resolveToolEffectPreflight regExp getAncestorIds rules context ≠ .ok (some .allow) := by
  have hempty := h []
  simp only [resolveToolEffectPreflight, resolveToolEffectExecution, findBestMatchingRule,
    findPreflightRule, firstMatch_nil] at hempty ⊢
  split
  · rintro ⟨⟩
  · rename_i first hfirst
    rw [hfirst] at hempty
    have hdeny : first.effect = .deny := Option.some.inj (Except.ok.inj hempty)
    split
    · rintro ⟨⟩
    · intro hallow
      have heffect : first.effect = .allow := Option.some.inj (Except.ok.inj hallow)
      rw [hdeny] at heffect
      cases heffect

end Selection

/-- **Approval rules.** The selection is maximal exactly when every rule in scope that cannot be
tested stands behind a matching one; a denial of the preflight is one of every execution, and the
preflight does not allow what every execution denies. -/
theorem selection_maximal_iff (regExp : RegExpTest) (getAncestorIds : String → List String)
    (rules : List ToolApprovalRule) (context : RuleContext) :
    (∀ payload, SelectsMaximal regExp getAncestorIds rules context payload ↔
      FailuresStandBehind regExp getAncestorIds rules context payload) ∧
    (resolveToolEffectPreflight regExp getAncestorIds rules context = .ok (some .deny) →
      ∀ payload, resolveToolEffectExecution regExp getAncestorIds rules context payload =
        .ok (some .deny)) ∧
    ((∀ payload, resolveToolEffectExecution regExp getAncestorIds rules context payload =
        .ok (some .deny)) →
      resolveToolEffectPreflight regExp getAncestorIds rules context ≠ .ok (some .allow)) :=
  ⟨fun _ => selectsMaximal_iff, execution_denies_of_preflight, preflight_not_allow⟩

/-- A rule with an unbalanced bracket in its glob, before one that denies everything. -/
def unbalancedRules : List ToolApprovalRule := [
  { id := "f", scopeType := .global, effect := .allow, priority := 1,
    argumentPatterns := some [⟨"command", .glob, "f(*"⟩] },
  { id := "all", scopeType := .global, effect := .deny }]

/-- The denial is lost on a call with a command. -/
theorem unbalanced_glob_loses_denial :
    ¬ ∀ (regExp : RegExpTest) (getAncestorIds : String → List String)
      (rules : List ToolApprovalRule) (context : RuleContext) (payload : Payload),
      SelectsMaximal regExp getAncestorIds rules context payload := by
  intro h
  obtain ⟨result, hresult, -⟩ := h (fun _ _ => none) (fun _ => []) unbalancedRules {}
    [("command", .str "ls")]
  have herror : resolveToolEffectExecution (fun _ _ => none) (fun _ => []) unbalancedRules {}
      [("command", .str "ls")] = .error (.invalidRegExp "^f(.*$") := by
    decide +kernel
  rw [herror] at hresult
  cases hresult

end ToolApprovalRuleService

end Nexus
