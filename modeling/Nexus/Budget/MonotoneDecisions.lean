import Nexus.Budget.HardLimits

/-!
# Monotone decisions

How the outcome of an action moves with the policies and with the three figures it is decided by:
the expected tokens, the estimated cost and the spend of the day. The loop keeps the worst outcome,
so neither the order of the policies nor a further policy makes it milder. A policy that denies on
its hard limit makes it milder when more tokens are expected, since its token limit is looked at
first and answers by the mode of the policy.
-/

set_option autoImplicit false

namespace Nexus

/-! ## The outcome by its figures -/

/-- The outcome of the loop of `evaluateAction` for a list of policies, an estimate and a spend. -/
def outcomeOf (policies : List BudgetPolicy) (input : EvaluateActionInput)
    (estimatedCents : Option Int) (currentSpendCents : Int) : BudgetDecisionOutcome :=
  (worstDecision (fun policy => evaluatePolicy input policy estimatedCents currentSpendCents)
    policies {}).worstOutcome

/-- The action with another number of expected tokens. -/
def EvaluateActionInput.withTokens (input : EvaluateActionInput) (tokens : Int) :
    EvaluateActionInput :=
  { input with expectedTokens := some tokens }

theorem evaluateAction_decision (host : BudgetHost) (db : CostTables)
    (input : EvaluateActionInput) :
    (evaluateAction host db input).1.decision =
      outcomeOf (loadRelevantPolicies db input) input (actionEstimate host db input)
        (spendSince host db input .daily) := rfl

variable {policies : List BudgetPolicy}

/-- The worst outcome is at most as bad as a bound exactly when the outcome of every policy is. -/
theorem rank_outcomeOf_le_iff {input : EvaluateActionInput} {estimatedCents : Option Int}
    {currentSpendCents : Int} {bound : Nat} :
    decisionRank (outcomeOf policies input estimatedCents currentSpendCents) ≤ bound ↔
      ∀ policy ∈ policies,
        decisionRank (evaluatePolicy input policy estimatedCents currentSpendCents).outcome ≤
          bound := by
  constructor
  · intro h policy hp
    exact Nat.le_trans (rank_decision_le_worstDecision
      (fun policy => evaluatePolicy input policy estimatedCents currentSpendCents) hp {}) h
  · intro h
    rcases worstDecision_outcome
      (fun policy => evaluatePolicy input policy estimatedCents currentSpendCents)
      policies {} with hinit | ⟨policy, hp, hd⟩
    · unfold outcomeOf
      rw [hinit]
      exact Nat.zero_le bound
    · unfold outcomeOf
      rw [hd]
      exact h policy hp

/-- More policies, in whatever order, do not make the outcome milder. -/
theorem rank_outcomeOf_le_of_subset {more : List BudgetPolicy} (h : policies ⊆ more)
    (input : EvaluateActionInput) (estimatedCents : Option Int) (currentSpendCents : Int) :
    decisionRank (outcomeOf policies input estimatedCents currentSpendCents) ≤
      decisionRank (outcomeOf more input estimatedCents currentSpendCents) := by
  rw [rank_outcomeOf_le_iff]
  intro policy hp
  exact rank_outcomeOf_le_iff.mp (Nat.le_refl _) policy (h hp)

/-- The filter of an action keeps what is there. -/
theorem loadRelevantPolicies_subset (db : CostTables) (h : db.policies ⊆ policies)
    (input : EvaluateActionInput) :
    loadRelevantPolicies db input ⊆
      loadRelevantPolicies { db with policies := policies } input := by
  intro policy hp
  simp only [loadRelevantPolicies, List.mem_filter] at hp ⊢
  exact ⟨⟨h hp.1.1, hp.1.2⟩, hp.2⟩

/-! ## One policy -/

section Policy

variable {input : EvaluateActionInput} {policy : BudgetPolicy} {estimatedCents : Option Int}
  {currentSpendCents : Int}

/-- What the chain of checks denies on. -/
theorem evaluatePolicy_deny_iff :
    (evaluatePolicy input policy estimatedCents currentSpendCents).outcome = .deny ↔
      if tokenLimitExceeded input policy then policy.enforcement_mode = .block
      else hardLimitExceeded policy estimatedCents currentSpendCents = true ∨
        (softLimitExceeded policy estimatedCents = true ∧ policy.enforcement_mode = .block) := by
  unfold evaluatePolicy
  by_cases htoken : tokenLimitExceeded input policy = true
  · simp [htoken, mapEnforcement_eq_deny]
  · by_cases hhard : hardLimitExceeded policy estimatedCents currentSpendCents = true
    · simp [htoken, hhard]
    · by_cases hsoft : softLimitExceeded policy estimatedCents = true
      · simp [htoken, hhard, hsoft, mapEnforcement_eq_deny]
      · simp [htoken, hhard, hsoft]

/-- The outcome of a list of policies is a denial exactly when one of them denies. -/
theorem outcomeOf_eq_deny :
    outcomeOf policies input estimatedCents currentSpendCents = .deny ↔
      ∃ policy ∈ policies,
        (evaluatePolicy input policy estimatedCents currentSpendCents).outcome = .deny := by
  constructor
  · intro h
    by_contra hnone
    have hle : decisionRank (outcomeOf policies input estimatedCents currentSpendCents) ≤ 3 := by
      rw [rank_outcomeOf_le_iff]
      intro policy hp
      by_contra hrank
      exact hnone ⟨policy, hp, eq_deny_of_rank_le (Nat.not_le.mp hrank)⟩
    rw [h] at hle
    exact absurd hle (by decide)
  · rintro ⟨policy, hp, hdeny⟩
    have hrank := rank_outcomeOf_le_iff.mp (Nat.le_refl
      (decisionRank (outcomeOf policies input estimatedCents currentSpendCents))) policy hp
    rw [hdeny] at hrank
    exact eq_deny_of_rank_le hrank

theorem decisionRank_le_deny (outcome : BudgetDecisionOutcome) :
    decisionRank outcome ≤ decisionRank .deny := by
  cases outcome with
  | allow => decide
  | warn => decide
  | approvalRequired => decide
  | throttle => decide
  | deny => decide

/-- A larger number of tokens exceeds the limits that a smaller one exceeds. -/
theorem tokenLimitExceeded_of_le {larger : EvaluateActionInput}
    (htokens : input.expectedTokens.getD 0 ≤ larger.expectedTokens.getD 0)
    (h : tokenLimitExceeded input policy = true) : tokenLimitExceeded larger policy = true := by
  simp only [tokenLimitExceeded, Option.any_eq_true, decide_eq_true_eq] at h ⊢
  obtain ⟨limit, hlimit, hlt⟩ := h
  exact ⟨limit, hlimit, Int.lt_of_lt_of_le hlt htokens⟩

variable {largerCents : Option Int}

theorem hardLimitExceeded_of_le {largerSpend : Int}
    (hcents : ∀ cents ∈ estimatedCents, ∃ larger ∈ largerCents, cents ≤ larger)
    (hspend : currentSpendCents ≤ largerSpend)
    (h : hardLimitExceeded policy estimatedCents currentSpendCents = true) :
    hardLimitExceeded policy largerCents largerSpend = true := by
  simp only [hardLimitExceeded, Option.any_eq_true, decide_eq_true_eq] at h ⊢
  obtain ⟨limit, hlimit, cents, hc, hlt⟩ := h
  obtain ⟨larger, hl, hle⟩ := hcents cents hc
  exact ⟨limit, hlimit, larger, hl, by omega⟩

theorem softLimitExceeded_of_le
    (hcents : ∀ cents ∈ estimatedCents, ∃ larger ∈ largerCents, cents ≤ larger)
    (h : softLimitExceeded policy estimatedCents = true) :
    softLimitExceeded policy largerCents = true := by
  simp only [softLimitExceeded, Option.any_eq_true, decide_eq_true_eq] at h ⊢
  obtain ⟨limit, hlimit, cents, hc, hlt⟩ := h
  obtain ⟨larger, hl, hle⟩ := hcents cents hc
  exact ⟨limit, hlimit, larger, hl, Int.lt_of_lt_of_le hlt hle⟩

/-- The outcome of one policy does not get milder with larger figures, unless its hard limit
denied and its token limit is exceeded only now. -/
theorem rank_evaluatePolicy_le {larger : EvaluateActionInput} {largerSpend : Int}
    (htokens : input.expectedTokens.getD 0 ≤ larger.expectedTokens.getD 0)
    (hcents : ∀ cents ∈ estimatedCents, ∃ larger ∈ largerCents, cents ≤ larger)
    (hspend : currentSpendCents ≤ largerSpend)
    (hkept : hardLimitExceeded policy estimatedCents currentSpendCents = true →
      tokenLimitExceeded larger policy = true → tokenLimitExceeded input policy = true) :
    decisionRank (evaluatePolicy input policy estimatedCents currentSpendCents).outcome ≤
      decisionRank (evaluatePolicy larger policy largerCents largerSpend).outcome := by
  unfold evaluatePolicy
  by_cases htoken : tokenLimitExceeded input policy = true
  · simp [htoken, tokenLimitExceeded_of_le htokens htoken]
  by_cases hhard : hardLimitExceeded policy estimatedCents currentSpendCents = true
  · have hnot : tokenLimitExceeded larger policy = false :=
      Bool.eq_false_iff.mpr fun hl => htoken (hkept hhard hl)
    simp [htoken, hnot, hhard, hardLimitExceeded_of_le hcents hspend hhard]
  by_cases hsoft : softLimitExceeded policy estimatedCents = true
  -- the mode answers in the first and the third check alike, and a denial is the worst between them
  · have hsoft' := softLimitExceeded_of_le hcents hsoft
    simp only [htoken, hhard, hsoft, hsoft', if_true, Bool.false_eq_true, if_false]
    split
    · exact Nat.le_refl _
    · split
      · exact decisionRank_le_deny _
      · exact Nat.le_refl _
  · simp only [htoken, hhard, hsoft, Bool.false_eq_true, if_false]
    exact Nat.zero_le _

end Policy

/-! ## One action -/

section Action

variable (host : BudgetHost) (db : CostTables) (input : EvaluateActionInput)

/-- The outcome of an action keeps its rank in every order of the policies, and it does not get
milder with further policies, nor when one of its three figures grows alone. -/
structure OutcomeMonotone : Prop where
  order : ∀ policies, policies.Perm db.policies →
    decisionRank (evaluateAction host { db with policies := policies } input).1.decision =
      decisionRank (evaluateAction host db input).1.decision
  added : ∀ policies, db.policies.Sublist policies →
    decisionRank (evaluateAction host db input).1.decision ≤
      decisionRank (evaluateAction host { db with policies := policies } input).1.decision
  spend : ∀ spendCents, spendSince host db input .daily ≤ spendCents →
    decisionRank (evaluateAction host db input).1.decision ≤
      decisionRank (outcomeOf (loadRelevantPolicies db input) input
        (actionEstimate host db input) spendCents)
  estimate : ∀ cents, (∀ known ∈ actionEstimate host db input, known ≤ cents) →
    decisionRank (evaluateAction host db input).1.decision ≤
      decisionRank (outcomeOf (loadRelevantPolicies db input) input (some cents)
        (spendSince host db input .daily))
  tokens : ∀ tokens, input.expectedTokens.getD 0 ≤ tokens →
    decisionRank (evaluateAction host db input).1.decision ≤
      decisionRank (outcomeOf (loadRelevantPolicies db input) (input.withTokens tokens)
        (actionEstimate host db input) (spendSince host db input .daily))

/-- The hard limit of the policy is exceeded by the spend of the day and the estimate. -/
def overToday (policy : BudgetPolicy) : Bool :=
  hardLimitExceeded policy (actionEstimate host db input) (spendSince host db input .daily)

/-- The policy denies the action with one token more than `limit`: by its mode, when its token
limit or its soft limit is exceeded then, or by its hard limit, when its token limit is not. -/
def deniesPast (limit : Int) (policy : BudgetPolicy) : Bool :=
  (policy.enforcement_mode = .block &&
      (policy.token_limit.any (fun own => own ≤ limit) ||
        softLimitExceeded policy (actionEstimate host db input))) ||
    (overToday host db input policy && policy.token_limit.all fun own => limit < own)

/-- Whenever a policy that does not block is over its hard limit and under its token limit, some
policy denies past that token limit. -/
def HardDenialsKept : Prop :=
  ∀ policy ∈ loadRelevantPolicies db input, overToday host db input policy = true →
    tokenLimitExceeded input policy = false → policy.enforcement_mode ≠ .block →
    ∀ limit ∈ policy.token_limit,
      ∃ other ∈ loadRelevantPolicies db input, deniesPast host db input limit other = true

variable {host db input}

variable {limit tokens : Int}

theorem withTokens_exceeded {policy : BudgetPolicy} :
    tokenLimitExceeded (input.withTokens tokens) policy = true ↔
      ∃ limit ∈ policy.token_limit, limit < tokens := by
  simp only [tokenLimitExceeded, Option.any_eq_true, decide_eq_true_eq]
  exact Iff.rfl

/-- A policy that is under its token limit for an action is over it only for more tokens. -/
theorem tokens_le_of_not_exceeded {policy : BudgetPolicy} (hlimit : limit ∈ policy.token_limit)
    (h : tokenLimitExceeded input policy = false) :
    input.expectedTokens.getD 0 ≤ limit := by
  rw [Option.mem_def] at hlimit
  simpa [tokenLimitExceeded, hlimit] using h

theorem deniesPast_cases {policy : BudgetPolicy}
    (h : deniesPast host db input limit policy = true) :
    (policy.enforcement_mode = .block ∧
        ((∃ own ∈ policy.token_limit, own ≤ limit) ∨
          softLimitExceeded policy (actionEstimate host db input) = true)) ∨
      (overToday host db input policy = true ∧ ∀ own ∈ policy.token_limit, limit < own) := by
  simpa only [deniesPast, Bool.or_eq_true, Bool.and_eq_true, decide_eq_true_eq,
    Option.any_eq_true, Option.all_eq_true, Option.mem_def] using h

/-- With one token more than the limit, the policies that deny are those that `deniesPast` says. -/
theorem deniesPast_iff {policy : BudgetPolicy} :
    deniesPast host db input limit policy = true ↔
      (evaluatePolicy (input.withTokens (limit + 1)) policy (actionEstimate host db input)
        (spendSince host db input .daily)).outcome = .deny := by
  rw [evaluatePolicy_deny_iff]
  cases hown : policy.token_limit with
  | none => simp [deniesPast, overToday, tokenLimitExceeded, hown, or_comm, and_comm]
  | some own =>
      by_cases hle : own ≤ limit
      · have hlt : own < limit + 1 := by omega
        have hnot : ¬ limit < own := by omega
        simp [deniesPast, overToday, tokenLimitExceeded, EvaluateActionInput.withTokens, hown, hle,
          hlt, hnot]
      · have hlt : ¬ own < limit + 1 := by omega
        have hnot : limit < own := by omega
        simp [deniesPast, overToday, tokenLimitExceeded, EvaluateActionInput.withTokens, hown, hle,
          hlt, hnot, or_comm, and_comm]

/-- A policy that blocks keeps denying when its soft limit is exceeded or its token limit gets
exceeded. -/
theorem blocking_denies {policy : BudgetPolicy} (hblock : policy.enforcement_mode = .block)
    (hpast : limit < tokens)
    (h : (∃ own ∈ policy.token_limit, own ≤ limit) ∨ softLimitExceeded policy (actionEstimate
      host db input) = true) :
    (evaluatePolicy (input.withTokens tokens) policy (actionEstimate host db input)
      (spendSince host db input .daily)).outcome = .deny := by
  rw [evaluatePolicy_deny_iff]
  split
  · exact hblock
  · rename_i hunder
    rcases h with ⟨own, hown, hle⟩ | hsoft
    · exact absurd (withTokens_exceeded.mpr ⟨own, hown, Int.lt_of_le_of_lt hle hpast⟩) hunder
    · exact .inr ⟨hsoft, hblock⟩

/-- A denial is kept with more tokens than the limit of any policy that gave it up. -/
theorem denial_kept (hkept : HardDenialsKept host db input) (tokens : Int) (gap : Nat) :
    ∀ policy ∈ loadRelevantPolicies db input, ∀ limit ∈ policy.token_limit,
      tokens - limit = gap → overToday host db input policy = true →
      tokenLimitExceeded input policy = false →
      ∃ other ∈ loadRelevantPolicies db input,
        (evaluatePolicy (input.withTokens tokens) other (actionEstimate host db input)
          (spendSince host db input .daily)).outcome = .deny := by
  -- the next policy that still denies has a larger token limit, so the gap to it is smaller
  induction gap using Nat.strongRecOn with
  | _ gap ih =>
      intro policy hp limit hlimit hgap hover hunder
      by_cases hblock : policy.enforcement_mode = .block
      · refine ⟨policy, hp, evaluatePolicy_deny_iff.mpr ?_⟩
        split
        · exact hblock
        · exact .inl hover
      by_cases hpast : limit < tokens
      · obtain ⟨other, ho, hdenies⟩ := hkept policy hp hover hunder hblock limit hlimit
        rcases deniesPast_cases hdenies with ⟨hb, hreach⟩ | ⟨hover', hbeyond⟩
        · exact ⟨other, ho, blocking_denies hb hpast hreach⟩
        · by_cases hexceeded : tokenLimitExceeded (input.withTokens tokens) other = true
          · obtain ⟨own, hown, hlt⟩ := withTokens_exceeded.mp hexceeded
            have hlarger := hbeyond own hown
            have htokens := tokens_le_of_not_exceeded hlimit hunder
            have hunder' : tokenLimitExceeded input other = false := by
              rw [Option.mem_def] at hown
              simp only [tokenLimitExceeded, hown, Option.any_some, decide_eq_false_iff_not]
              omega
            exact ih (tokens - own).toNat (by omega) other ho own hown (by omega) hover' hunder'
          · exact ⟨other, ho, evaluatePolicy_deny_iff.mpr
              (by rw [if_neg hexceeded]; exact .inl hover')⟩
      · refine ⟨policy, hp, evaluatePolicy_deny_iff.mpr ?_⟩
        rw [if_neg]
        · exact .inl hover
        · rw [withTokens_exceeded]
          rintro ⟨own, hown, hlt⟩
          cases (Option.some.inj (hown.symm.trans hlimit) : own = limit)
          exact hpast hlt

/-- More tokens do not make the outcome milder when hard denials are kept. -/
theorem rank_le_withTokens (hkept : HardDenialsKept host db input)
    (htokens : input.expectedTokens.getD 0 ≤ tokens) :
    decisionRank (evaluateAction host db input).1.decision ≤
      decisionRank (outcomeOf (loadRelevantPolicies db input) (input.withTokens tokens)
        (actionEstimate host db input) (spendSince host db input .daily)) := by
  rw [evaluateAction_decision, rank_outcomeOf_le_iff]
  intro policy hp
  by_cases hgivenUp : overToday host db input policy = true ∧
      tokenLimitExceeded input policy = false ∧
      tokenLimitExceeded (input.withTokens tokens) policy = true
  · obtain ⟨hover, hunder, hexceeded⟩ := hgivenUp
    obtain ⟨limit, hlimit, hlt⟩ := withTokens_exceeded.mp hexceeded
    have hdeny := denial_kept hkept tokens (tokens - limit).toNat policy hp limit hlimit
      (by omega) hover hunder
    rw [outcomeOf_eq_deny.mpr hdeny]
    exact decisionRank_le_deny _
  · calc decisionRank (evaluatePolicy input policy (actionEstimate host db input)
            (spendSince host db input .daily)).outcome
        ≤ decisionRank (evaluatePolicy (input.withTokens tokens) policy
            (actionEstimate host db input) (spendSince host db input .daily)).outcome := by
          refine rank_evaluatePolicy_le htokens (fun cents hc => ⟨cents, hc, Int.le_refl _⟩)
            (Int.le_refl _) ?_
          intro hhard hexceeded
          by_contra hunder
          exact hgivenUp ⟨hhard, Bool.eq_false_iff.mpr hunder, hexceeded⟩
      _ ≤ _ := rank_outcomeOf_le_iff.mp (Nat.le_refl _) policy hp

end Action

/-! ## Order, further policies and larger figures -/

/-- **Monotone decisions.** The rank of an outcome does not depend on the order of the policies,
and neither a further policy nor a larger spend, estimate or number of tokens lowers it, exactly
when every hard denial that a token limit takes over is kept by some policy. -/
theorem outcome_monotone_iff (host : BudgetHost) (db : CostTables) (input : EvaluateActionInput) :
    OutcomeMonotone host db input ↔ HardDenialsKept host db input := by
  constructor
  · intro hmono policy hp hover hunder hblock limit hlimit
    have hdeny : (evaluateAction host db input).1.decision = .deny := by
      refine outcomeOf_eq_deny.mpr ⟨policy, hp, evaluatePolicy_deny_iff.mpr ?_⟩
      rw [if_neg (by rw [hunder]; decide)]
      exact .inl hover
    -- one token more than the limit is enough
    have htokens := tokens_le_of_not_exceeded hlimit hunder
    have hrank := hmono.tokens (limit + 1) (by omega)
    rw [hdeny] at hrank
    obtain ⟨other, ho, hother⟩ := outcomeOf_eq_deny.mp (eq_deny_of_rank_le hrank)
    exact ⟨other, ho, deniesPast_iff.mpr hother⟩
  · intro hkept
    constructor
    · intro policies hperm
      refine Nat.le_antisymm ?_ ?_
      · exact rank_outcomeOf_le_of_subset
          (loadRelevantPolicies_subset { db with policies := policies } hperm.subset input)
          input _ _
      · exact rank_outcomeOf_le_of_subset
          (loadRelevantPolicies_subset db hperm.symm.subset input) input _ _
    · intro policies hsub
      exact rank_outcomeOf_le_of_subset (loadRelevantPolicies_subset db hsub.subset input) input _ _
    · intro spendCents hspend
      rw [evaluateAction_decision, rank_outcomeOf_le_iff]
      intro policy hp
      calc _ ≤ decisionRank (evaluatePolicy input policy (actionEstimate host db input)
              spendCents).outcome :=
            rank_evaluatePolicy_le (Int.le_refl _) (fun cents hc => ⟨cents, hc, Int.le_refl _⟩)
              hspend fun _ hexceeded => hexceeded
        _ ≤ _ := rank_outcomeOf_le_iff.mp (Nat.le_refl _) policy hp
    · intro cents hcents
      rw [evaluateAction_decision, rank_outcomeOf_le_iff]
      intro policy hp
      calc _ ≤ decisionRank (evaluatePolicy input policy (some cents)
              (spendSince host db input .daily)).outcome :=
            rank_evaluatePolicy_le (Int.le_refl _) (fun known hk => ⟨cents, rfl, hcents known hk⟩)
              (Int.le_refl _) fun _ hexceeded => hexceeded
        _ ≤ _ := rank_outcomeOf_le_iff.mp (Nat.le_refl _) policy hp
    · intro tokens htokens
      exact rank_le_withTokens hkept htokens

/-! ## A token limit that warns -/

/-- A run that spent 600 cents of a day's 500, whose policy warns beyond 150 tokens, on a model
without charges. -/
def warnedTokensTables : CostTables where
  policies := [{
    id := "daily", hard_limit_cents := some 500, token_limit := some 150, window := .daily,
    enforcement_mode := .warn }]
  usageEvents := [⟨none, "run-1", some 600, 1718452800000⟩]
  models := [⟨"m", "local", some "ollama", true, some 0, some 0⟩]

/-- An action of that run. -/
def localTokens (tokens : Int) : EvaluateActionInput :=
  ⟨none, "workflow_run", "run-1", "step_execution", some "ollama", some "local", some tokens, "c"⟩

/-- A hundred tokens are denied and two hundred, at the same estimate and spend, only warned of. -/
theorem more_tokens_milder :
    actionEstimate noonHost warnedTokensTables (localTokens 100) = some 0 ∧
      actionEstimate noonHost warnedTokensTables (localTokens 200) = some 0 ∧
      (evaluateAction noonHost warnedTokensTables (localTokens 100)).1.decision = .deny ∧
      (evaluateAction noonHost warnedTokensTables (localTokens 200)).1.decision = .warn ∧
      ¬ OutcomeMonotone noonHost warnedTokensTables (localTokens 100) := by
  refine ⟨by decide +kernel, by decide +kernel, by decide +kernel, by decide +kernel, ?_⟩
  intro hmono
  exact absurd (hmono.tokens 200 (by decide)) (by decide +kernel)

end Nexus
