import Nexus.Budget.BudgetDecision

/-!
# Hard limits

When a hard limit of a policy blocks an action. The spend of an action is compared with every limit
as the spend of the day, so a limit of a longer window is reached too late, and a token limit that
does not block hides the hard limit of its policy.
-/

set_option autoImplicit false

namespace Nexus

section Decision

variable (host : BudgetHost) (db : CostTables) (input : EvaluateActionInput)

/-- The hard limit of a policy is exceeded by the spend of the policy's own window and the
estimate. -/
def overHardLimit (policy : BudgetPolicy) : Bool :=
  hardLimitExceeded policy (actionEstimate host db input) (spendSince host db input policy.window)

/-- A policy denies the action on the spend of the day: its token limit or its soft limit is
exceeded and it blocks, or its hard limit is exceeded and its token limit is not. -/
def deniesToday (policy : BudgetPolicy) : Bool :=
  if tokenLimitExceeded input policy then policy.enforcement_mode = .block
  else hardLimitExceeded policy (actionEstimate host db input) (spendSince host db input .daily) ||
    (softLimitExceeded policy (actionEstimate host db input) &&
      policy.enforcement_mode = .block)

variable {host db input}

theorem evaluatePolicy_eq_deny {policy : BudgetPolicy} :
    (evaluatePolicy input policy (actionEstimate host db input)
        (spendSince host db input .daily)).outcome = .deny ↔
      deniesToday host db input policy = true := by
  unfold evaluatePolicy deniesToday
  by_cases htoken : tokenLimitExceeded input policy = true
  · simp [htoken, mapEnforcement_eq_deny]
  · by_cases hhard : hardLimitExceeded policy (actionEstimate host db input)
        (spendSince host db input .daily) = true
    · simp [htoken, hhard]
    · by_cases hsoft : softLimitExceeded policy (actionEstimate host db input) = true
      · simp [htoken, hhard, hsoft, mapEnforcement_eq_deny]
      · simp [htoken, hhard, hsoft]

/-- An action is denied exactly when some policy that applies denies it on the spend of the day. -/
theorem evaluateAction_eq_deny :
    (evaluateAction host db input).1.decision = .deny ↔
      ∃ policy ∈ loadRelevantPolicies db input, deniesToday host db input policy = true := by
  constructor
  · intro h
    rcases worstDecision_outcome (fun policy => evaluatePolicy input policy
        (actionEstimate host db input) (spendSince host db input .daily))
      (loadRelevantPolicies db input) {} with hinit | ⟨policy, hp, hd⟩
    · exact absurd (hinit.symm.trans h) (by decide)
    · exact ⟨policy, hp, evaluatePolicy_eq_deny.mp (hd.symm.trans h)⟩
  · rintro ⟨policy, hp, hdeny⟩
    have hrank := rank_decision_le_worstDecision (fun policy => evaluatePolicy input policy
      (actionEstimate host db input) (spendSince host db input .daily)) hp {}
    simp only [evaluatePolicy_eq_deny.mpr hdeny] at hrank
    exact eq_deny_of_rank_le hrank

end Decision

/-- When the hard limits block an action: no policy that applies is over its hard limit in its own
window, or one of the policies that apply denies on the spend of the day. -/
def HardLimitsSeen (host : BudgetHost) (db : CostTables) (input : EvaluateActionInput) : Prop :=
  (∀ policy ∈ loadRelevantPolicies db input, overHardLimit host db input policy = false) ∨
    ∃ policy ∈ loadRelevantPolicies db input, deniesToday host db input policy = true

/-- **Hard limits.** That some applying policy is over its hard limit, by the spend of its own
window, denies the action exactly when the spend of the day and the policies' chains of checks let
one of them see it. -/
theorem hard_limit_denies_iff (host : BudgetHost) (db : CostTables) (input : EvaluateActionInput) :
    ((∃ policy ∈ loadRelevantPolicies db input, overHardLimit host db input policy = true) →
      (evaluateAction host db input).1.decision = .deny) ↔ HardLimitsSeen host db input := by
  rw [evaluateAction_eq_deny]
  constructor
  · intro h
    by_cases hover : ∃ policy ∈ loadRelevantPolicies db input,
        overHardLimit host db input policy = true
    · exact .inr (h hover)
    · refine .inl fun policy hp => ?_
      rw [← Bool.not_eq_true]
      exact fun ho => hover ⟨policy, hp, ho⟩
  · rintro (hnone | hdeny) ⟨policy, hp, hover⟩
    · rw [hnone policy hp] at hover
      exact absurd hover (by decide)
    · exact hdeny

/-! ## A limit of a month -/

/-- The day `y-m-d` of the Gregorian calendar, counted from 1970-01-01; months from `1`. -/
def daysFromCivil (y m d : Int) : Int :=
  let year := if m ≤ 2 then y - 1 else y
  let yearOfEra := year - year / 400 * 400
  let dayOfYear := (153 * ((m + 9) % 12) + 2) / 5 + d - 1
  year / 400 * 146097 + (yearOfEra * 365 + yearOfEra / 4 - yearOfEra / 100 + dayOfYear) - 719468

/-- The year, the month from `1` and the day of a number of days since 1970-01-01. -/
def civilFromDays (days : Int) : Int × Int × Int :=
  let z := days + 719468
  let dayOfEra := z - z / 146097 * 146097
  let yearOfEra :=
    (dayOfEra - dayOfEra / 1460 + dayOfEra / 36524 - dayOfEra / 146096) / 365
  let dayOfYear := dayOfEra - (365 * yearOfEra + yearOfEra / 4 - yearOfEra / 100)
  let shifted := (5 * dayOfYear + 2) / 153
  let month := if shifted < 10 then shifted + 3 else shifted - 9
  (yearOfEra + z / 146097 * 400 + (if month ≤ 2 then 1 else 0), month,
    dayOfYear - (153 * shifted + 2) / 5 + 1)

/-- The calendar of a server whose time zone is UTC. -/
def utcCalendar : LocalCalendar where
  getFullYear t := (civilFromDays (t / 86400000)).1
  getMonth t := (civilFromDays (t / 86400000)).2.1 - 1
  getDate t := (civilFromDays (t / 86400000)).2.2
  getDay t := (t / 86400000 + 4) % 7
  newDate y month date := (daysFromCivil (y + month / 12) (month % 12 + 1) 1 + date - 1) * 86400000

example : civilFromDays (daysFromCivil 2024 2 29) = (2024, 2, 29) := by decide

example : resolveWindowStart utcCalendar 1718409600000 .weekly = 1717977600000 := by decide

/-- A run that spent 450 cents the day before, under a limit of 500 cents a month, at noon of
2024-06-15, with a model of 100 cents a million tokens. -/
def monthlyLimitTables : CostTables where
  policies := [{
    id := "monthly", context_id := some "run-1", hard_limit_cents := some 500, window := .monthly,
    enforcement_mode := .block }]
  usageEvents := [⟨none, "run-1", some 450, 1718323200000⟩]
  models := [⟨"m", "claude", some "anthropic", true, some 100, some 500⟩]

def noonHost : BudgetHost := ⟨1718452800000, utcCalendar, String.toLower⟩

def millionTokens : EvaluateActionInput :=
  ⟨none, "workflow_run", "run-1", "step_execution", some "anthropic", some "claude", some 1000000,
    "c"⟩

/-- The month's 450 cents and an estimate of 100 exceed the limit of 500, but the action is
allowed. -/
theorem monthly_hard_limit_allows :
    (∃ policy ∈ loadRelevantPolicies monthlyLimitTables millionTokens,
        overHardLimit noonHost monthlyLimitTables millionTokens policy = true) ∧
      (evaluateAction noonHost monthlyLimitTables millionTokens).1.decision = .allow := by
  decide +kernel

end Nexus
