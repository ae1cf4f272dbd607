import Mathlib

/-!
# Budget decisions

`BudgetDecisionService.evaluateAction` over the tables of the cost governance: the active policies
that apply to an action are evaluated one after the other against one figure of the recorded spend,
and the worst outcome is the decision. Instants are milliseconds since the epoch.
-/

set_option autoImplicit false

namespace Nexus

/-! ## The clock -/

/-- `Date` in the time zone of the server: the calendar fields of an instant (months from `0`, days
of the week from Sunday), and `new Date(year, month, date)`, where a date may lie outside its
month. -/
structure LocalCalendar where
  getFullYear : Int → Int
  getMonth : Int → Int
  getDate : Int → Int
  getDay : Int → Int
  newDate : Int → Int → Int → Int

/-- `ResetWindow`; the column admits other texts. -/
inductive ResetWindow where
  | perRun
  | daily
  | weekly
  | monthly
  | rolling
  | unknown
  deriving DecidableEq, Repr

def resolveWindowStart (calendar : LocalCalendar) (now : Int) : ResetWindow → Int
  | .daily => calendar.newDate (calendar.getFullYear now) (calendar.getMonth now)
      (calendar.getDate now)
  | .weekly =>
      let day := calendar.getDay now
      let diff := calendar.getDate now - day + (if day = 0 then -6 else 1)
      calendar.newDate (calendar.getFullYear now) (calendar.getMonth now) diff
  | .monthly => calendar.newDate (calendar.getFullYear now) (calendar.getMonth now) 1
  | .perRun => 0
  | .rolling => now - 24 * 60 * 60 * 1000
  | .unknown => 0

/-! ## Rows -/

/-- `BudgetDecisionOutcome`. -/
inductive BudgetDecisionOutcome where
  | allow
  | warn
  | approvalRequired
  | throttle
  | deny
  deriving DecidableEq, Repr

/-- `DECISION_RANK`. -/
def decisionRank : BudgetDecisionOutcome → Nat
  | .allow => 0
  | .warn => 1
  | .approvalRequired => 2
  | .throttle => 3
  | .deny => 4

/-- `EnforcementMode`; the column admits other texts. -/
inductive EnforcementMode where
  | observe
  | warn
  | approvalRequired
  | block
  | unknown
  deriving DecidableEq, Repr

/-- A row of `budget_policies`. -/
structure BudgetPolicy where
  id : String
  scope_id : Option String := none
  context_type : Option String := none
  context_id : Option String := none
  provider_name : Option String := none
  model_name : Option String := none
  soft_limit_cents : Option Int := none
  hard_limit_cents : Option Int := none
  token_limit : Option Int := none
  window : ResetWindow
  enforcement_mode : EnforcementMode
  is_active : Bool := true

/-- A row of `budget_usage_events`. -/
structure BudgetUsageEvent where
  scope_id : Option String
  context_id : String
  estimated_cost_cents : Option Int
  created_at : Int

/-- A row of `llm_models`. -/
structure LlmModel where
  id : String
  name : String
  provider_name : Option String
  is_active : Bool := true
  input_token_cents_per_million : Option Int
  output_token_cents_per_million : Option Int

/-- The tables a decision reads: the policies with the newest first, the models with the oldest
first. -/
structure CostTables where
  policies : List BudgetPolicy
  usageEvents : List BudgetUsageEvent
  models : List LlmModel

/-- What a decision takes from the server: the clock, the calendar, and `LOWER` of the database. -/
structure BudgetHost where
  now : Int
  calendar : LocalCalendar
  lower : String → String

structure EvaluateActionInput where
  scopeId : Option String
  contextType : String
  contextId : String
  actionType : String
  providerName : Option String
  modelName : Option String
  expectedTokens : Option Int
  correlationId : String

/-- A row of `budget_decision_events`. -/
structure BudgetDecisionEvent where
  correlation_id : String
  policy_id : Option String
  scope_id : Option String
  context_type : String
  context_id : String
  action_type : String
  decision : BudgetDecisionOutcome
  reason_code : String
  estimated_cost_cents : Option Int
  remaining_budget_cents : Option Int

structure EvaluateActionResult where
  decision : BudgetDecisionOutcome
  reasonCode : String
  matchingPolicyId : Option String
  estimatedCostCents : Option Int
  remainingBudgetCents : Option Int
  approvalRequired : Bool

/-! ## The estimate -/

structure RateInfo where
  input_token_cents_per_million : Int
  output_token_cents_per_million : Int

structure CostEstimateResult where
  estimatedCents : Option Int
  rateMatched : Option RateInfo
  modelId : Option String

/-- `findActiveByProviderAndName`. -/
def findActiveByProviderAndName (host : BudgetHost) (models : List LlmModel)
    (providerName name : String) : Option LlmModel :=
  models.find? fun model => model.is_active &&
    (model.provider_name.map host.lower == some (host.lower providerName)) &&
    (host.lower model.name == host.lower name)

/-- `findByName`. -/
def findModelByName (models : List LlmModel) (name : String) : Option LlmModel :=
  models.find? fun model => (model.name == name) && model.is_active

def resolveModel (host : BudgetHost) (models : List LlmModel) (providerName modelName : String) :
    Option LlmModel :=
  if providerName ≠ "" then
    match findActiveByProviderAndName host models providerName modelName with
    | some byPair => some byPair
    | none => findModelByName models modelName
  else findModelByName models modelName

def extractRate (model : Option LlmModel) : Option RateInfo :=
  model.bind fun m =>
    match m.input_token_cents_per_million, m.output_token_cents_per_million with
    | some inputRate, some outputRate => some ⟨inputRate, outputRate⟩
    | _, _ => none

/-- `Math.ceil(cost / 1_000_000)` of a cost in millionths of a cent. -/
def ceilCents (millionths : Int) : Int := -(-millionths / 1000000)

/-- `CostEstimatorService.estimate`. -/
def estimate (host : BudgetHost) (models : List LlmModel) (providerName modelName : String)
    (expectedInputTokens expectedOutputTokens expectedTotalTokens : Option Int) :
    CostEstimateResult :=
  let model := resolveModel host models providerName modelName
  let modelId := model.map fun m => m.id
  match extractRate model with
  | none => ⟨none, none, modelId⟩
  | some rateInfo =>
      if expectedInputTokens.isNone && expectedOutputTokens.isNone then
        ⟨expectedTotalTokens.map fun total =>
            ceilCents (total * rateInfo.input_token_cents_per_million), some rateInfo, modelId⟩
      else
        ⟨some (ceilCents (expectedInputTokens.getD 0 * rateInfo.input_token_cents_per_million +
          expectedOutputTokens.getD 0 * rateInfo.output_token_cents_per_million)),
          some rateInfo, modelId⟩

/-! ## The decision -/

/-- `getSpendInWindow`, the cents. A filter of an empty text is not set. -/
def getSpendInWindow (events : List BudgetUsageEvent) (scopeId : Option String)
    (contextId : String) (windowStart : Int) : Int :=
  ((events.filter fun e => decide (windowStart ≤ e.created_at) &&
      (!scopeId.any (fun s => s ≠ "") || e.scope_id == scopeId) &&
      (contextId == "" || e.context_id == contextId)).map
    fun e => e.estimated_cost_cents.getD 0).sum

/-- `!(column && column !== value)`. -/
def matchesFilter (column value : Option String) : Bool :=
  !(column.any (fun text => text ≠ "") && column != value)

/-- The filter of `loadRelevantPolicies`. -/
def policyApplies (input : EvaluateActionInput) (p : BudgetPolicy) : Bool :=
  matchesFilter p.scope_id input.scopeId && matchesFilter p.context_type (some input.contextType) &&
    matchesFilter p.context_id (some input.contextId) &&
    matchesFilter p.provider_name input.providerName && matchesFilter p.model_name input.modelName

def loadRelevantPolicies (db : CostTables) (input : EvaluateActionInput) : List BudgetPolicy :=
  (db.policies.filter fun p => p.is_active).filter (policyApplies input)

def mapEnforcement : EnforcementMode → BudgetDecisionOutcome
  | .observe => .allow
  | .warn => .warn
  | .approvalRequired => .approvalRequired
  | .block => .deny
  | .unknown => .allow

def tokenLimitExceeded (input : EvaluateActionInput) (policy : BudgetPolicy) : Bool :=
  policy.token_limit.any fun limit => limit < input.expectedTokens.getD 0

def hardLimitExceeded (policy : BudgetPolicy) (estimatedCents : Option Int)
    (currentSpendCents : Int) : Bool :=
  policy.hard_limit_cents.any fun limit =>
    estimatedCents.any fun cents => limit < currentSpendCents + cents

def softLimitExceeded (policy : BudgetPolicy) (estimatedCents : Option Int) : Bool :=
  policy.soft_limit_cents.any fun limit => estimatedCents.any fun cents => limit < cents

structure PolicyDecision where
  outcome : BudgetDecisionOutcome
  reasonCode : String

def evaluatePolicy (input : EvaluateActionInput) (policy : BudgetPolicy)
    (estimatedCents : Option Int) (currentSpendCents : Int) : PolicyDecision :=
  if tokenLimitExceeded input policy then
    ⟨mapEnforcement policy.enforcement_mode, "token_limit_exceeded"⟩
  else if hardLimitExceeded policy estimatedCents currentSpendCents then
    ⟨.deny, "hard_limit_exceeded"⟩
  else if softLimitExceeded policy estimatedCents then
    ⟨mapEnforcement policy.enforcement_mode, "soft_limit_exceeded"⟩
  else ⟨.allow, "within_budget"⟩

/-- The variables of the loop over the policies. -/
structure WorstDecision where
  worstOutcome : BudgetDecisionOutcome := .allow
  matchingPolicyId : Option String := none
  reasonCode : String := "no_active_policy"

/-- The body of the loop: a decision replaces one of a lower rank. -/
def WorstDecision.consider (worst : WorstDecision) (policy : BudgetPolicy)
    (decision : PolicyDecision) : WorstDecision :=
  if decisionRank worst.worstOutcome < decisionRank decision.outcome then
    ⟨decision.outcome, some policy.id, decision.reasonCode⟩
  else worst

/-- The loop of `evaluateAction`. -/
def worstDecision (decisionOf : BudgetPolicy → PolicyDecision) (policies : List BudgetPolicy)
    (worst : WorstDecision) : WorstDecision :=
  policies.foldl (fun (worst : WorstDecision) policy =>
    worst.consider policy (decisionOf policy)) worst

def computeRemainingBudget (estimatedCents : Option Int) (currentSpendCents : Int) : Option Int :=
  estimatedCents.map fun cents => max 0 (currentSpendCents - cents)

/-- The estimate of an action. -/
def actionEstimate (host : BudgetHost) (db : CostTables) (input : EvaluateActionInput) :
    Option Int :=
  (estimate host db.models (input.providerName.getD "") (input.modelName.getD "")
    input.expectedTokens none none).estimatedCents

/-- What is spent in the scope and the context of an action since the start of a window. -/
def spendSince (host : BudgetHost) (db : CostTables) (input : EvaluateActionInput)
    (window : ResetWindow) : Int :=
  getSpendInWindow db.usageEvents input.scopeId input.contextId
    (resolveWindowStart host.calendar host.now window)

/-- `evaluateAction`: the result and the recorded decision. -/
def evaluateAction (host : BudgetHost) (db : CostTables) (input : EvaluateActionInput) :
    EvaluateActionResult × BudgetDecisionEvent :=
  let activePolicies := loadRelevantPolicies db input
  let estimatedCents := actionEstimate host db input
  let currentSpend := spendSince host db input .daily
  let worst := worstDecision (fun policy =>
    evaluatePolicy input policy estimatedCents currentSpend) activePolicies {}
  let remainingBudget := computeRemainingBudget estimatedCents currentSpend
  ({ decision := worst.worstOutcome
     reasonCode := worst.reasonCode
     matchingPolicyId := worst.matchingPolicyId
     estimatedCostCents := estimatedCents
     remainingBudgetCents := remainingBudget
     approvalRequired := worst.worstOutcome = .approvalRequired || worst.worstOutcome = .deny },
   { correlation_id := input.correlationId
     policy_id := worst.matchingPolicyId
     scope_id := input.scopeId
     context_type := input.contextType
     context_id := input.contextId
     action_type := input.actionType
     decision := worst.worstOutcome
     reason_code := worst.reasonCode
     estimated_cost_cents := estimatedCents
     remaining_budget_cents := remainingBudget })

/-! ## The worst decision -/

theorem mapEnforcement_eq_deny {mode : EnforcementMode} :
    mapEnforcement mode = .deny ↔ mode = .block := by
  cases mode with
  | observe => simp [mapEnforcement]
  | warn => simp [mapEnforcement]
  | approvalRequired => simp [mapEnforcement]
  | block => simp [mapEnforcement]
  | unknown => simp [mapEnforcement]

/-- A decision of the highest rank is a denial. -/
theorem eq_deny_of_rank_le {outcome : BudgetDecisionOutcome}
    (h : decisionRank .deny ≤ decisionRank outcome) : outcome = .deny := by
  cases outcome with
  | deny => rfl
  | allow => exact absurd h (by decide)
  | warn => exact absurd h (by decide)
  | approvalRequired => exact absurd h (by decide)
  | throttle => exact absurd h (by decide)

namespace WorstDecision

variable (worst : WorstDecision) (policy : BudgetPolicy) (decision : PolicyDecision)

/-- The worst decision never gets better. -/
theorem rank_le_consider :
    decisionRank worst.worstOutcome ≤
      decisionRank (worst.consider policy decision).worstOutcome := by
  unfold consider
  split
  · rename_i h
    exact Nat.le_of_lt h
  · exact Nat.le_refl _

/-- It is at least as bad as the decision that was considered last. -/
theorem rank_decision_le_consider :
    decisionRank decision.outcome ≤
      decisionRank (worst.consider policy decision).worstOutcome := by
  unfold consider
  split
  · exact Nat.le_refl _
  · rename_i h
    exact Nat.le_of_not_lt h

theorem consider_outcome :
    (worst.consider policy decision).worstOutcome = worst.worstOutcome ∨
      (worst.consider policy decision).worstOutcome = decision.outcome := by
  unfold consider
  split
  · exact .inr rfl
  · exact .inl rfl

end WorstDecision

section Worst

variable (decisionOf : BudgetPolicy → PolicyDecision)

theorem rank_le_worstDecision (policies : List BudgetPolicy) (worst : WorstDecision) :
    decisionRank worst.worstOutcome ≤
      decisionRank (worstDecision decisionOf policies worst).worstOutcome := by
  induction policies generalizing worst with
  | nil => exact Nat.le_refl _
  | cons policy rest ih =>
      calc decisionRank worst.worstOutcome
          ≤ decisionRank (worst.consider policy (decisionOf policy)).worstOutcome :=
            worst.rank_le_consider policy _
        _ ≤ _ := ih _

/-- The loop ends with a decision at least as bad as that of every policy. -/
theorem rank_decision_le_worstDecision {policies : List BudgetPolicy} {policy : BudgetPolicy}
    (h : policy ∈ policies) (worst : WorstDecision) :
    decisionRank (decisionOf policy).outcome ≤
      decisionRank (worstDecision decisionOf policies worst).worstOutcome := by
  induction policies generalizing worst with
  | nil => exact absurd h List.not_mem_nil
  | cons first rest ih =>
      rcases List.mem_cons.mp h with rfl | hrest
      · exact Nat.le_trans (worst.rank_decision_le_consider policy _)
          (rank_le_worstDecision decisionOf rest _)
      · exact ih hrest _

/-- It ends with the decision it started with or with that of some policy. -/
theorem worstDecision_outcome (policies : List BudgetPolicy) (worst : WorstDecision) :
    (worstDecision decisionOf policies worst).worstOutcome = worst.worstOutcome ∨
      ∃ policy ∈ policies,
        (worstDecision decisionOf policies worst).worstOutcome = (decisionOf policy).outcome := by
  induction policies generalizing worst with
  | nil => exact .inl rfl
  | cons first rest ih =>
      rcases ih (worst.consider first (decisionOf first)) with h | ⟨policy, hp, h⟩
      · rcases worst.consider_outcome first (decisionOf first) with hw | hd
        · exact .inl (h.trans hw)
        · exact .inr ⟨first, List.mem_cons_self, h.trans hd⟩
      · exact .inr ⟨policy, List.mem_cons_of_mem _ hp, h⟩

end Worst

end Nexus
