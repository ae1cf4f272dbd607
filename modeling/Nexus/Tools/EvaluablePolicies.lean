import Nexus.Tools.OfferedTools
import Mathlib.Data.List.TakeDrop

/-!
# Accepted policies that the evaluator cannot evaluate

`validateSingleRule` looks for two words in a rule, `parseStringRule` also for a known effect and
for a command on one line, and nothing looks at the patterns, which become regular expressions as
they stand. A call of an accepted policy is evaluated exactly when no rule that it reaches is
broken in one of these ways (`accepted_policy_evaluates_iff`).
-/

set_option autoImplicit false

namespace Nexus

/-! ## Rules as texts -/

/-- The first word of a rule, in small letters. -/
def effectWord (ruleStr : String) : String :=
  lowerCase ((trimChars ruleStr.toList).takeWhile fun c => !isJsWhitespace c)

/-- What follows the second word of a rule. -/
def commandPart (ruleStr : String) : List Char :=
  let rest := (trimChars ruleStr.toList).dropWhile fun c => !isJsWhitespace c
  ((rest.dropWhile isJsWhitespace).dropWhile fun c => !isJsWhitespace c).dropWhile isJsWhitespace

/-- The text names no effect, or its command goes over several lines. -/
def BrokenText (ruleStr : String) : Prop :=
  ToolPolicyEffect.ofText? (effectWord ruleStr) = none ∨
    ∃ c ∈ commandPart ruleStr, isDotExcluded c = true

/-- The validator's pattern: two words. -/
def HasTwoWords (ruleStr : String) : Prop :=
  (trimChars ruleStr.toList).takeWhile (fun c => !isJsWhitespace c) ≠ [] ∧
    ((trimChars ruleStr.toList).dropWhile fun c => !isJsWhitespace c).dropWhile isJsWhitespace ≠ []

variable {ruleStr : String}

theorem validateSingleRule_text_iff {label : String} {i : Nat} :
    validateSingleRule label i (.str ruleStr) = [] ↔ HasTwoWords ruleStr := by
  rw [HasTwoWords]
  simp only [validateSingleRule]
  split
  · rename_i hwords
    exact ⟨fun _ => hwords, fun _ => rfl⟩
  · rename_i hwords
    constructor
    · rintro ⟨⟩
    · intro h
      exact absurd h hwords

/-- After the blanks comes a word. -/
theorem takeWhile_dropWhile_ne_nil {cs : List Char} (h : cs.dropWhile isJsWhitespace ≠ []) :
    (cs.dropWhile isJsWhitespace).takeWhile (fun c => !isJsWhitespace c) ≠ [] := by
  induction cs with
  | nil => exact absurd rfl h
  | cons c cs ih =>
      cases hc : isJsWhitespace c with
      | true =>
          rw [List.dropWhile_cons_of_pos hc] at h ⊢
          exact ih h
      | false => simp [hc]

/-- The groups of a text with two words, unless the command goes over several lines. -/
theorem ruleGroups_none_iff (h : HasTwoWords ruleStr) :
    ruleGroups (trimChars ruleStr.toList) = none ↔
      ∃ c ∈ commandPart ruleStr, isDotExcluded c = true := by
  have htool := takeWhile_dropWhile_ne_nil h.2
  simp only [ruleGroups, List.span_eq_takeWhile_dropWhile, commandPart]
  rw [if_neg (not_or.mpr ⟨h.1, htool⟩)]
  split
  · rename_i hrest
    simp [hrest]
  · rw [← List.any_eq_true]
    split
    · rename_i hany
      simp [hany]
    · rename_i hany
      simp [hany]

theorem ruleGroups_effect {trimmed effect tool : List Char} {args : Option (List Char)}
    (h : ruleGroups trimmed = some (effect, tool, args)) :
    effect = trimmed.takeWhile fun c => !isJsWhitespace c := by
  simp only [ruleGroups, List.span_eq_takeWhile_dropWhile] at h
  split at h
  · cases h
  · split at h
    · cases h
      rfl
    · split at h
      · cases h
      · cases h
        rfl

/-- An accepted text is a rule unless it is broken. -/
theorem parseStringRule_error_iff (h : HasTwoWords ruleStr) :
    (∃ e, parseStringRule ruleStr = .error e) ↔ BrokenText ruleStr := by
  rw [BrokenText, ← ruleGroups_none_iff h]
  unfold parseStringRule
  cases hgroups : ruleGroups (trimChars ruleStr.toList) with
  | none => simp
  | some groups =>
      rcases groups with ⟨effect, tool, args⟩
      have hword : effectWord ruleStr = lowerCase effect := by
        rw [effectWord, ruleGroups_effect hgroups]
      rw [hword]
      cases heffect : ToolPolicyEffect.ofText? (lowerCase effect) with
      | none => simp [heffect]
      | some effect' => simp [heffect]

/-! ## Patterns -/

section Patterns

variable (regExp : RegExpTest)

/-- A pattern with a star whose regular expression is none. -/
def BrokenPattern (actual pattern : String) : Prop :=
  pattern ≠ "*" ∧ '*' ∈ pattern.toList ∧ regExp (globSource pattern) actual = none

/-- A broken pattern for a text that the call passes. -/
def BrokenArgument (args : OrderedMap String Json) (argument : String × Json) : Prop :=
  ∃ pattern actual, argument.2 = .str pattern ∧
    OrderedMap.get? args argument.1 = some (.str actual) ∧ BrokenPattern regExp actual pattern

/-- The patterns of the rule for arguments; none for a value that counts as no arguments. -/
def ToolPolicyRule.argumentPatterns (rule : ToolPolicyRule) : List (String × Json) :=
  match rule.arguments with
  | none => []
  | some ruleVals => if isTruthyValue (some ruleVals) then argumentEntries ruleVals else []

/-- The pattern for the tool is broken, or the tool matches, and the first argument that does not
match has a broken pattern. -/
def BrokenRule (tool : String) (args : OrderedMap String Json) (rule : ToolPolicyRule) : Prop :=
  BrokenPattern regExp tool rule.tool ∨
    matchesTool regExp tool rule.tool = .ok true ∧
      ∃ before argument after, rule.argumentPatterns = before ++ argument :: after ∧
        (∀ earlier ∈ before, matchesArgument regExp args earlier.1 earlier.2 = .ok true) ∧
        BrokenArgument regExp args argument

/-- An entry that the call cannot be tested on: a broken text, or a rule with a broken pattern. -/
def BrokenEntry (tool : String) (args : OrderedMap String Json) (entry : ToolPolicyEntry) : Prop :=
  (∃ ruleStr, entry = .text ruleStr ∧ BrokenText ruleStr) ∨
    ∃ rule, entry.parse = .ok rule ∧ BrokenRule regExp tool args rule

/-- The call passes over the rules before a broken one. -/
def ReachesBroken (tool : String) (args : OrderedMap String Json)
    (entries : List ToolPolicyEntry) : Prop :=
  ∃ before entry after, entries = before ++ entry :: after ∧
    PassesOver regExp tool args before ∧ BrokenEntry regExp tool args entry

variable {regExp} {tool : String} {args : OrderedMap String Json}

theorem matchesTool_error_iff {actual pattern : String} :
    (∃ e, matchesTool regExp actual pattern = .error e) ↔ BrokenPattern regExp actual pattern := by
  rw [BrokenPattern]
  unfold matchesTool
  by_cases hstar : pattern = "*"
  · simp [hstar]
  · rw [if_neg hstar]
    by_cases hmem : '*' ∈ pattern.toList
    · rw [if_pos hmem]
      cases regExp (globSource pattern) actual with
      | none => simp [hstar, hmem]
      | some found => simp
    · simp [hmem]

theorem matchesArgument_error_iff (argument : String × Json) :
    (∃ e, matchesArgument regExp args argument.1 argument.2 = .error e) ↔
      BrokenArgument regExp args argument := by
  rcases argument with ⟨key, ruleVal⟩
  simp only [BrokenArgument]
  unfold matchesArgument
  by_cases habsent : isAbsentMatcher ruleVal = true
  · rw [if_pos habsent]
    constructor
    · rintro ⟨e, ⟨⟩⟩
    · rintro ⟨pattern, actual, rfl, -⟩
      cases habsent
  · rw [if_neg habsent]
    split
    · constructor
      · rintro ⟨e, ⟨⟩⟩
      · rintro ⟨pattern, actual, hpattern, -, hne, -⟩
        cases hpattern
        exact absurd rfl hne
    · rename_i pattern actual _ hget
      rw [matchesTool_error_iff]
      constructor
      · intro hbroken
        exact ⟨pattern, actual, rfl, hget, hbroken⟩
      · rintro ⟨pattern', actual', hpattern, hactual, hbroken⟩
        cases hpattern
        rw [hget] at hactual
        cases hactual
        exact hbroken
    · rename_i actual _ hnotText hget
      constructor
      · rintro ⟨e, ⟨⟩⟩
      · rintro ⟨pattern, text, rfl, hactual, -⟩
        rw [hget] at hactual
        cases hactual
        exact absurd rfl (hnotText pattern text rfl)
    · rename_i hget
      constructor
      · rintro ⟨e, ⟨⟩⟩
      · rintro ⟨pattern, actual, -, hactual, -⟩
        rw [hget] at hactual
        cases hactual

/-- The loop over the arguments throws at a broken pattern that all earlier arguments lead to. -/
theorem matchesEntries_error_iff {entries : List (String × Json)} :
    (∃ e, matchesEntries regExp args entries = .error e) ↔
      ∃ before argument after, entries = before ++ argument :: after ∧
        (∀ earlier ∈ before, matchesArgument regExp args earlier.1 earlier.2 = .ok true) ∧
        BrokenArgument regExp args argument := by
  induction entries with
  | nil => simp [matchesEntries]
  | cons argument entries ih =>
      rcases argument with ⟨key, ruleVal⟩
      have hbroken : (∃ e, matchesArgument regExp args key ruleVal = .error e) ↔
          BrokenArgument regExp args (key, ruleVal) := matchesArgument_error_iff (key, ruleVal)
      rw [matchesEntries]
      cases hmatch : matchesArgument regExp args key ruleVal with
      | error e =>
          rw [hmatch] at hbroken
          exact iff_of_true ⟨e, rfl⟩
            ⟨[], (key, ruleVal), entries, rfl, by simp, hbroken.1 ⟨e, rfl⟩⟩
      | ok found =>
          have hnot : ¬ BrokenArgument regExp args (key, ruleVal) := by
            intro h
            obtain ⟨e, he⟩ := hbroken.2 h
            rw [hmatch] at he
            cases he
          cases found with
          | false =>
              constructor
              · rintro ⟨e, ⟨⟩⟩
              · rintro ⟨before, argument, after, heq, hbefore, hargument⟩
                cases before with
                | nil =>
                    obtain ⟨rfl, rfl⟩ := List.cons.inj heq
                    exact absurd hargument hnot
                | cons first before =>
                    obtain ⟨rfl, rfl⟩ := List.cons.inj heq
                    have hfirst := hbefore _ List.mem_cons_self
                    rw [hmatch] at hfirst
                    cases hfirst
          | true =>
              rw [ih]
              constructor
              · rintro ⟨before, argument, after, rfl, hbefore, hargument⟩
                refine ⟨(key, ruleVal) :: before, argument, after, rfl, ?_, hargument⟩
                exact List.forall_mem_cons.2 ⟨hmatch, hbefore⟩
              · rintro ⟨before, argument, after, heq, hbefore, hargument⟩
                cases before with
                | nil =>
                    obtain ⟨rfl, rfl⟩ := List.cons.inj heq
                    exact absurd hargument hnot
                | cons first before =>
                    obtain ⟨rfl, rfl⟩ := List.cons.inj heq
                    exact ⟨before, argument, after, rfl, (List.forall_mem_cons.1 hbefore).2,
                      hargument⟩

theorem matchesArguments_eq (rule : ToolPolicyRule) :
    matchesArguments regExp args rule.arguments =
      matchesEntries regExp args rule.argumentPatterns := by
  unfold matchesArguments ToolPolicyRule.argumentPatterns
  cases rule.arguments with
  | none => rfl
  | some ruleVals =>
      cases htruthy : isTruthyValue (some ruleVals) with
      | false => simp [matchesEntries, htruthy]
      | true => simp [htruthy]

theorem matchesCall_error_iff {rule : ToolPolicyRule} :
    (∃ e, matchesCall regExp tool args rule = .error e) ↔ BrokenRule regExp tool args rule := by
  rw [BrokenRule, ← matchesTool_error_iff, ← matchesEntries_error_iff, ← matchesArguments_eq]
  unfold matchesCall
  cases matchesTool regExp tool rule.tool with
  | error e => simp
  | ok found =>
      cases found with
      | false => simp
      | true => simp

/-! ## Evaluation -/

/-- An accepted entry fails on a call exactly when it is broken. -/
theorem failsAt_iff_broken {entry : ToolPolicyEntry}
    (hentry : ∀ ruleStr, entry = .text ruleStr → HasTwoWords ruleStr) :
    FailsAt regExp tool args entry ↔ BrokenEntry regExp tool args entry := by
  unfold FailsAt BrokenEntry
  apply or_congr
  · cases entry with
    | rule rule =>
        constructor
        · rintro ⟨e, ⟨⟩⟩
        · rintro ⟨ruleStr, ⟨⟩, -⟩
    | text ruleStr =>
        refine (parseStringRule_error_iff (hentry ruleStr rfl)).trans ?_
        constructor
        · intro h
          exact ⟨ruleStr, rfl, h⟩
        · rintro ⟨_, ⟨⟩, h⟩
          exact h
  · apply exists_congr
    intro rule
    rw [exists_and_left, matchesCall_error_iff]

/-- A call is evaluated exactly when it reaches no broken rule. -/
theorem evaluateRules_ok_iff {default : ToolPolicyEffect} {entries : List ToolPolicyEntry}
    (hentries : ∀ ruleStr, .text ruleStr ∈ entries → HasTwoWords ruleStr) :
    (∃ d, evaluateRules regExp tool args default entries = .ok d) ↔
      ¬ ReachesBroken regExp tool args entries := by
  induction entries with
  | nil =>
      refine iff_of_true ⟨_, rfl⟩ ?_
      rintro ⟨before, entry, after, heq, -⟩
      cases before <;> cases heq
  | cons entry entries ih =>
      have hfails : FailsAt regExp tool args entry ↔ BrokenEntry regExp tool args entry :=
        failsAt_iff_broken fun ruleStr h => hentries ruleStr (h ▸ List.mem_cons_self)
      have ih := ih fun ruleStr h => hentries ruleStr (List.mem_cons_of_mem _ h)
      rcases entry_outcome regExp tool args entry with hpass | ⟨rule, hstop⟩ | hfail
      · rw [evaluateRules_of_pass hpass, ih, not_iff_not]
        constructor
        · rintro ⟨before, broken, after, rfl, hbefore, hbroken⟩
          exact ⟨entry :: before, broken, after, rfl, passesOver_cons.2 ⟨hpass, hbefore⟩, hbroken⟩
        · rintro ⟨before, broken, after, heq, hbefore, hbroken⟩
          cases before with
          | nil =>
              obtain ⟨rfl, rfl⟩ := List.cons.inj heq
              exact absurd hpass (failsAt_not_pass (hfails.2 hbroken))
          | cons first before =>
              obtain ⟨rfl, rfl⟩ := List.cons.inj heq
              exact ⟨before, broken, after, rfl, (passesOver_cons.1 hbefore).2, hbroken⟩
      · refine iff_of_true ⟨_, evaluateRules_of_stop hstop⟩ ?_
        rintro ⟨before, broken, after, heq, hbefore, hbroken⟩
        cases before with
        | nil =>
            obtain ⟨rfl, rfl⟩ := List.cons.inj heq
            rcases hfails.2 hbroken with ⟨e, hparse⟩ | ⟨rule', e, hparse, hmatch⟩
            · rw [hstop.1] at hparse
              cases hparse
            · rw [hstop.1] at hparse
              cases hparse
              rw [hstop.2] at hmatch
              cases hmatch
        | cons first before =>
            obtain ⟨rfl, rfl⟩ := List.cons.inj heq
            exact stopsAt_not_pass hstop (passesOver_cons.1 hbefore).1
      · refine iff_of_false ?_ (not_not.mpr
          ⟨[], entry, entries, rfl, passesOver_nil, hfails.1 hfail⟩)
        rintro ⟨d, hd⟩
        obtain ⟨e, he⟩ := evaluateRules_of_fail default entries hfail
        rw [hd] at he
        cases he

end Patterns

/-! ## Accepted documents -/

section Accepted

variable {label : String} {permissions : Json} {doc : ToolPolicyDocument}

theorem readEntry_text {rule : Json} (h : readEntry rule = some (.text ruleStr)) :
    rule = .str ruleStr := by
  unfold readEntry at h
  split at h
  · cases h
    rfl
  · split at h
    · cases h
    · cases h

/-- Every entry is read from a rule. -/
theorem exists_of_mem_mapM {rules : List Json} :
    ∀ {entries : List ToolPolicyEntry} {entry : ToolPolicyEntry},
      rules.mapM readEntry = some entries → entry ∈ entries →
      ∃ rule ∈ rules, readEntry rule = some entry := by
  induction rules with
  | nil =>
      intro entries entry hentries hmem
      cases hentries
      cases hmem
  | cons rule rules ih =>
      intro entries entry hentries hmem
      rw [List.mapM_cons] at hentries
      obtain ⟨first, hfirst, hentries⟩ := Option.bind_eq_some_iff.1 hentries
      obtain ⟨others, hothers, hentries⟩ := Option.bind_eq_some_iff.1 hentries
      cases hentries
      rcases List.mem_cons.1 hmem with rfl | hmem
      · exact ⟨rule, List.mem_cons_self, hfirst⟩
      · obtain ⟨rule', hrule', hread⟩ := ih hothers hmem
        exact ⟨rule', List.mem_cons_of_mem _ hrule', hread⟩

/-- The entries of a document come from the rules of the permissions. -/
theorem readToolPolicy_rules (hdoc : readToolPolicy permissions = some doc) :
    ∃ policy rules, permissions.field? "tool_policy" = some policy ∧
      policy.field? "rules" = some (.arr rules) ∧
      rules.mapM readEntry = some doc.rules := by
  unfold readToolPolicy at hdoc
  obtain ⟨policy, hpolicy, hdoc⟩ := Option.bind_eq_some_iff.1 hdoc
  obtain ⟨default, -, hdoc⟩ := Option.bind_eq_some_iff.1 hdoc
  split at hdoc
  · rename_i rules hrules
    obtain ⟨entries, hentries, hdoc⟩ := Option.bind_eq_some_iff.1 hdoc
    cases hdoc
    exact ⟨policy, rules, hpolicy, hrules, hentries⟩
  · cases hdoc

/-- Every text of an accepted document has two words. -/
theorem hasTwoWords_of_valid (h : validateToolPolicyShape label permissions = [])
    (hdoc : readToolPolicy permissions = some doc) (hmem : .text ruleStr ∈ doc.rules) :
    HasTwoWords ruleStr := by
  obtain ⟨policy, rules, hpolicy, hrules, hentries⟩ := readToolPolicy_rules hdoc
  rw [validateToolPolicyShape, hpolicy] at h
  simp only [hrules, List.append_eq_nil_iff, List.flatten_eq_nil_iff] at h
  obtain ⟨rule, hrule, hread⟩ := exists_of_mem_mapM hentries hmem
  obtain ⟨i, hi, rfl⟩ := List.getElem_of_mem hrule
  have hvalid := h.2 _ (List.mem_mapIdx.2 ⟨i, hi, rfl⟩)
  rw [readEntry_text hread] at hvalid
  exact validateSingleRule_text_iff.1 hvalid

end Accepted

/-- **Which accepted policies can be evaluated.** A text of an accepted document is a rule unless it
is broken, and a call is evaluated exactly when it reaches no broken rule. -/
theorem accepted_policy_evaluates_iff (regExp : RegExpTest) (label : String) {permissions : Json}
    (hvalid : validateToolPolicyShape label permissions = [])
    (hpolicy : (permissions.field? "tool_policy").isSome = true) :
    ∃ doc, readToolPolicy permissions = some doc ∧
      (∀ ruleStr, .text ruleStr ∈ doc.rules →
        ((∃ rule, parseStringRule ruleStr = .ok rule) ↔ ¬ BrokenText ruleStr)) ∧
      ∀ (tool : String) (args : OrderedMap String Json),
        (∃ d, evaluateToolPolicy regExp tool args doc = .ok d) ↔
          ¬ ReachesBroken regExp tool args doc.rules := by
  obtain ⟨doc, hdoc⟩ := readToolPolicy_of_valid hvalid hpolicy
  refine ⟨doc, hdoc, fun ruleStr hmem => ?_, fun tool args => ?_⟩
  · rw [← parseStringRule_error_iff (hasTwoWords_of_valid hvalid hdoc hmem)]
    cases parseStringRule ruleStr with
    | error e => simp
    | ok rule => simp
  · exact evaluateRules_ok_iff fun ruleStr => hasTwoWords_of_valid hvalid hdoc

theorem accepted_policy_evaluates_iff_one_rule :
    ∃ doc, readToolPolicy (oneRulePolicy "deny" "allow git_status") = some doc ∧
      (∀ ruleStr, .text ruleStr ∈ doc.rules →
        ((∃ rule, parseStringRule ruleStr = .ok rule) ↔ ¬ BrokenText ruleStr)) ∧
      ∀ (tool : String) (args : OrderedMap String Json),
        (∃ d, evaluateToolPolicy withoutGlobs tool args doc = .ok d) ↔
          ¬ ReachesBroken withoutGlobs tool args doc.rules :=
  accepted_policy_evaluates_iff withoutGlobs "permissions" (by decide +kernel) (by decide +kernel)

/-- An accepted rule whose first word is no effect stops every call. -/
theorem unknown_effect_is_accepted :
    ¬ ∀ (permissions : Json) (doc : ToolPolicyDocument),
      validateToolPolicyShape "permissions" permissions = [] →
      readToolPolicy permissions = some doc →
      ∀ (tool : String) (args : OrderedMap String Json),
        ∃ d, evaluateToolPolicy withoutGlobs tool args doc = .ok d := by
  intro h
  obtain ⟨d, hd⟩ := h (oneRulePolicy "allow" "permit bash") ⟨.allow, [.text "permit bash"]⟩
    (by decide +kernel) rfl "bash" []
  have hparse : parseStringRule "permit bash" = .error (.unknownEffect "permit") := by
    rfl
  rw [evaluateToolPolicy, evaluateRules, ToolPolicyEntry.parse, hparse] at hd
  cases hd

end Nexus
