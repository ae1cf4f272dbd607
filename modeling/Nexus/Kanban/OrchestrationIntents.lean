import Nexus.Kanban.ConflictKeys
import Nexus.Lib.Json
import Nexus.Lib.TableRows
import Nexus.Lib.Pool
import Mathlib

/-!
# Orchestration intents

`createIntent` of the intent repository and the calls of the control-plane scheduler on an intent.
The idempotency key is a unique column; an intent that is saved after the first one of its key has
ended gets the key with the time as a suffix.
-/

set_option autoImplicit false

namespace Nexus

inductive OrchestrationIntentStatus where
  | pending
  | launchable
  | running
  | completed
  | blocked
  | suppressed
  | failed
  | cancelled
  | superseded
  deriving DecidableEq, Repr

/-- `isTerminal`. -/
def OrchestrationIntentStatus.isTerminal (status : OrchestrationIntentStatus) : Bool :=
  status ∈ [.completed, .blocked, .suppressed, .failed, .cancelled, .superseded]

/-- `ACTIVE_INTENT_STATUSES`. -/
def activeIntentStatuses : List OrchestrationIntentStatus := [.pending, .launchable, .running]

structure CreateOrchestrationIntentInput where
  projectId : String
  lane : OrchestrationLane
  type : OrchestrationIntentType
  requester : String
  reason : String
  priority : Option Int := none
  evidence : Option (List Json) := none
  resources : Option (List Json) := none
  conflictKeys : Option (List OrchestrationConflictKey) := none
  /-- The id and the scope of `workflow`. -/
  workflow : Option (String × Option String) := none
  idempotencyKey : Option String := none
  supersedesIntentId : Option Nat := none
  freshnessRequirements : Option (List (String × Json)) := none
  metadata : Option (List (String × Json)) := none

/-- A row of `kanban_orchestration_intents`. `base_key` is no column: it is the key that the call
which saved the row resolved. -/
structure OrchestrationIntent where
  id : Nat
  project_id : String
  lane : OrchestrationLane
  type : OrchestrationIntentType
  status : OrchestrationIntentStatus
  requester : String
  reason : String
  priority : Int
  evidence : List Json
  resource_refs : List Json
  conflict_keys : List OrchestrationConflictKey
  workflow_id : Option String
  workflow_scope : Option String
  idempotency_key : String
  supersedes_intent_id : Option Nat
  freshness_requirements : List (String × Json)
  terminal_outcome : Option String
  metadata : Option (List (String × Json))
  created_at : Int
  base_key : String

/-- The columns of a fact that the scheduler reads. -/
structure OrchestrationFact where
  project_id : String
  fact_type : String
  subject_kind : String
  subject_id : String
  freshness_status : String
  observed_at : Int
  expires_at : Option Int
  invalidated_at : Option Int

inductive SchedulerOutcomeStatus where
  | launchable
  | blocked
  | suppressed
  | deferred
  | completed
  | failed
  deriving DecidableEq, Repr

inductive SchedulerOutcomeReason where
  | noConflicts
  | conflictKeyActive
  | laneCapacityReached
  | missingFreshFact
  | staleFact
  | supersededIntent
  | manualSuppression
  | workflowScopeActive
  | workflowLaunched
  | directMutationCompleted
  | directMutationFailed
  | directMutationStarted
  | staleDirectMutationConflict
  deriving DecidableEq, Repr

structure FreshFactRequirement where
  factType : String
  subjectKind : String
  subjectIds : List String

structure SchedulerPolicyInput where
  maxActivePerLane : Option Nat := none
  now : Option Int := none
  requireFreshFactTypes : Option (List String) := none
  requireFreshFacts : Option (List FreshFactRequirement) := none
  metadata : Option (List (String × Json)) := none

structure RecordSchedulerOutcomeInput where
  intentId : Nat
  projectId : String
  status : SchedulerOutcomeStatus
  reason : SchedulerOutcomeReason
  conflictKeys : List OrchestrationConflictKey
  activeConflicts : List OrchestrationConflictKey
  evaluatedAt : Int
  policySnapshot : List (String × Json)
  metadata : Option (List (String × Json))

structure SchedulerDecision where
  intentId : Nat
  /-- The id of the recorded outcome; a call that records none answers with an empty id. -/
  outcomeId : Option Nat
  status : SchedulerOutcomeStatus
  reason : SchedulerOutcomeReason
  conflictKeys : List OrchestrationConflictKey
  activeConflicts : List OrchestrationConflictKey
  metadata : Option (List (String × Json))

/-! ## The tables -/

/-- The intents, with their unique key, the recorded outcomes, and what the calls read from around
them: the number of steps taken, the clock, and the facts at every step. A row is named by its
place. -/
structure IntentStore where
  intents : List OrchestrationIntent := []
  ids : ∀ (i : Nat) (row : OrchestrationIntent), intents[i]? = some row → row.id = i
  keys : (intents.map fun row => row.idempotency_key).Nodup
  outcomes : List RecordSchedulerOutcomeInput := []
  steps : Nat := 0
  clock : Nat → Int
  clock_mono : StrictMono clock
  facts : Nat → List OrchestrationFact

/-- The row that `saveNewIntent` builds. -/
def CreateOrchestrationIntentInput.entity (input : CreateOrchestrationIntentInput)
    (baseKey idempotencyKey : String) (id : Nat) (now : Int) : OrchestrationIntent where
  id := id
  project_id := input.projectId
  lane := input.lane
  type := input.type
  status := .pending
  requester := input.requester
  reason := input.reason
  priority := input.priority.getD 0
  evidence := input.evidence.getD []
  resource_refs := input.resources.getD []
  conflict_keys := input.conflictKeys.getD []
  workflow_id := input.workflow.map fun workflow => workflow.1
  workflow_scope := input.workflow.bind fun workflow => workflow.2
  idempotency_key := idempotencyKey
  supersedes_intent_id := input.supersedesIntentId
  freshness_requirements := input.freshnessRequirements.getD []
  terminal_outcome := none
  metadata := input.metadata
  created_at := now
  base_key := baseKey

namespace IntentStore

theorem ids_nil (i : Nat) (row : OrchestrationIntent)
    (hrow : ([] : List OrchestrationIntent)[i]? = some row) : row.id = i := by
  cases hrow

/-- The store before the first row. -/
def withoutRows (w : IntentStore) : IntentStore :=
  { w with intents := [], ids := ids_nil, keys := List.nodup_nil }

def findById (w : IntentStore) (id : Nat) : Option OrchestrationIntent := w.intents[id]?

def findByIdempotencyKey (w : IntentStore) (key : String) : Option OrchestrationIntent :=
  w.intents.find? fun row => row.idempotency_key = key

theorem findByIdempotencyKey_eq_none {w : IntentStore} {key : String} :
    w.findByIdempotencyKey key = none ↔ key ∉ w.intents.map fun row => row.idempotency_key := by
  simp [findByIdempotencyKey]

/-- `listActiveByLane`, the highest priority first and then the oldest. -/
def listActiveByLane (w : IntentStore) (projectId : String) (lane : OrchestrationLane) :
    List OrchestrationIntent :=
  (w.intents.filter fun row =>
      row.project_id = projectId && row.lane = lane && row.status ∈ activeIntentStatuses)
    |>.insertionSort fun row row' => row'.priority < row.priority ∨
      (row.priority = row'.priority ∧ row.created_at ≤ row'.created_at)

/-- The insert of a row whose key is not taken. -/
def insert (w : IntentStore) (input : CreateOrchestrationIntentInput)
    (baseKey idempotencyKey : String) (h : w.findByIdempotencyKey idempotencyKey = none) :
    IntentStore :=
  { w with
    intents := w.intents ++
      [input.entity baseKey idempotencyKey w.intents.length (w.clock w.steps)]
    ids := TableRows.append w.ids rfl
    keys := by
      rw [List.map_append, List.map_singleton, ← List.concat_eq_append]
      exact w.keys.concat (findByIdempotencyKey_eq_none.1 h) }

/-- `updateStatus`: one statement, whatever the row has. -/
def updateStatus (w : IntentStore) (id : Nat) (status : OrchestrationIntentStatus)
    (terminalOutcome : Option String) : IntentStore :=
  { w with
    intents := w.intents.map fun row =>
      if row.id = id then { row with status := status, terminal_outcome := terminalOutcome }
      else row
    ids := TableRows.map w.ids fun row => by split <;> rfl
    keys := by
      have hkeys : (w.intents.map fun row =>
          if row.id = id then { row with status := status, terminal_outcome := terminalOutcome }
          else row).map (fun row => row.idempotency_key) =
          w.intents.map fun row => row.idempotency_key := by
        rw [List.map_map]
        apply List.map_congr_left
        intro row _
        simp only [Function.comp]
        split <;> rfl
      rw [hkeys]
      exact w.keys }

/-- `listFreshByTypesAndSubjects`, the newest first. -/
def listFreshByTypesAndSubjects (w : IntentStore) (projectId : String)
    (requirements : List FreshFactRequirement) (now : Int) : List OrchestrationFact :=
  ((w.facts w.steps).filter fun fact =>
      fact.project_id = projectId && fact.invalidated_at.isNone &&
        fact.freshness_status = "fresh" &&
        (match fact.expires_at with
          | none => true
          | some expiresAt => decide (now < expiresAt)) &&
        requirements.any fun req =>
          if req.subjectIds = [] then fact.fact_type = req.factType
          else fact.fact_type = req.factType && fact.subject_kind = req.subjectKind &&
            fact.subject_id ∈ req.subjectIds)
    |>.insertionSort fun fact fact' => fact'.observed_at ≤ fact.observed_at

end IntentStore

/-! ## Operations -/

inductive IntentOp where
  /-- `Date.now()`. -/
  | newDate
  | findById (id : Nat)
  | findByIdempotencyKey (key : String)
  /-- `repository.save` of a new row; `baseKey` is the key the call resolved. -/
  | save (input : CreateOrchestrationIntentInput) (baseKey idempotencyKey : String)
  | updateStatus (id : Nat) (status : OrchestrationIntentStatus) (terminalOutcome : Option String)
  | listActiveByLane (projectId : String) (lane : OrchestrationLane)
  | listFreshFacts (projectId : String) (requirements : List FreshFactRequirement) (time : Int)
  | recordOutcome (input : RecordSchedulerOutcomeInput)

/-- A save is answered with `none` when the key is taken. -/
abbrev IntentOp.Ans : IntentOp → Type
  | .newDate => Int
  | .findById _ => Option OrchestrationIntent
  | .findByIdempotencyKey _ => Option OrchestrationIntent
  | .save _ _ _ => Option OrchestrationIntent
  | .updateStatus _ _ _ => Unit
  | .listActiveByLane _ _ => List OrchestrationIntent
  | .listFreshFacts _ _ _ => List OrchestrationFact
  | .recordOutcome _ => Nat

/-- The tables after an operation. -/
def IntentOp.write (w : IntentStore) : IntentOp → IntentStore
  | .save input baseKey idempotencyKey =>
      match h : w.findByIdempotencyKey idempotencyKey with
      | none => w.insert input baseKey idempotencyKey h
      | some _ => w
  | .updateStatus id status terminalOutcome => w.updateStatus id status terminalOutcome
  | .recordOutcome input => { w with outcomes := w.outcomes ++ [input] }
  | .newDate | .findById _ | .findByIdempotencyKey _ | .listActiveByLane _ _
  | .listFreshFacts _ _ _ => w

def IntentOp.answer (w : IntentStore) : (o : IntentOp) → o.Ans
  | .newDate => w.clock w.steps
  | .findById id => w.findById id
  | .findByIdempotencyKey key => w.findByIdempotencyKey key
  | .save input baseKey idempotencyKey =>
      match w.findByIdempotencyKey idempotencyKey with
      | none => some (input.entity baseKey idempotencyKey w.intents.length (w.clock w.steps))
      | some _ => none
  | .updateStatus _ _ _ => ()
  | .listActiveByLane projectId lane => w.listActiveByLane projectId lane
  | .listFreshFacts projectId requirements time =>
      w.listFreshByTypesAndSubjects projectId requirements time
  | .recordOutcome _ => w.outcomes.length

def IntentOp.exec (w : IntentStore) (o : IntentOp) : IntentStore × o.Ans :=
  ({ o.write w with steps := w.steps + 1 }, o.answer w)

/-- The machine of the intents; every operation is one statement. -/
def intentMachine : Machine IntentOp IntentOp.Ans IntentStore := ⟨IntentOp.exec, fun _ _ => True⟩

instance (w : IntentStore) (o : IntentOp) : Decidable (intentMachine.enabled w o) :=
  inferInstanceAs (Decidable True)

/-- The errors of the calls. -/
inductive IntentError where
  | uniqueViolation
  | notFound (message : String)
  deriving DecidableEq, Repr

abbrev IntentProg (α : Type) := Prog IntentOp IntentOp.Ans IntentError α

def awaitIntent (o : IntentOp) : IntentProg o.Ans := Prog.op o

/-! ## The repository -/

/-- The text of the hash of a project, lane, type, requester and reason: `sha256`, in hexadecimal
digits, of their `JSON.stringify`. -/
abbrev IntentDigest := String → OrchestrationLane → OrchestrationIntentType → String → String →
  String

namespace KanbanOrchestrationIntentRepository

section Repository

variable (digest : IntentDigest)

def buildIdempotencyKey (input : CreateOrchestrationIntentInput) : String :=
  "orchestration-intent:" ++
    digest input.projectId input.lane input.type input.requester input.reason

def resolveIdempotencyKey (input : CreateOrchestrationIntentInput) : String :=
  input.idempotencyKey.getD (buildIdempotencyKey digest input)

end Repository

def handleCreateIntentError (idempotencyKey : String) : IntentProg OrchestrationIntent := do
  match ← awaitIntent (.findByIdempotencyKey idempotencyKey) with
  | some existingAfterRace =>
      if existingAfterRace.status.isTerminal then .fail .uniqueViolation
      else pure existingAfterRace
  | none => .fail .uniqueViolation

def saveNewIntent (input : CreateOrchestrationIntentInput) (baseKey idempotencyKey : String) :
    IntentProg OrchestrationIntent := do
  match ← awaitIntent (.save input baseKey idempotencyKey) with
  | some intent => pure intent
  | none => handleCreateIntentError idempotencyKey

def createIntent (digest : IntentDigest) (input : CreateOrchestrationIntentInput) :
    IntentProg OrchestrationIntent := do
  let idempotencyKey := resolveIdempotencyKey digest input
  match ← awaitIntent (.findByIdempotencyKey idempotencyKey) with
  | none => saveNewIntent input idempotencyKey idempotencyKey
  | some existing =>
      if existing.status.isTerminal then do
        let now ← awaitIntent .newDate
        saveNewIntent input idempotencyKey (idempotencyKey ++ ":" ++ toString now)
      else pure existing

end KanbanOrchestrationIntentRepository

/-! ## The scheduler -/

namespace OrchestrationControlPlaneScheduler

/-- The decision that a call records. -/
structure DecisionInput where
  status : SchedulerOutcomeStatus
  reason : SchedulerOutcomeReason
  activeConflicts : List OrchestrationConflictKey := []
  now : Int
  policy : SchedulerPolicyInput := {}
  metadata : Option (List (String × Json)) := none

def requireIntent (intentId : Nat) : IntentProg OrchestrationIntent := do
  match ← awaitIntent (.findById intentId) with
  | some intent => pure intent
  | none => .fail (.notFound s!"Orchestration intent {intentId} not found")

def toIntentStatus : SchedulerOutcomeStatus → OrchestrationIntentStatus
  | .deferred => .pending
  | .launchable => .launchable
  | .blocked => .blocked
  | .suppressed => .suppressed
  | .completed => .completed
  | .failed => .failed

def policySnapshot (policy : SchedulerPolicyInput) : List (String × Json) :=
  [("maxActivePerLane", (policy.maxActivePerLane.map fun n => .num n).getD .null),
   ("requireFreshFactTypes", .arr ((policy.requireFreshFactTypes.getD []).map .str)),
   ("metadata", (policy.metadata.map .obj).getD .null)]

def recordDecision (intent : OrchestrationIntent) (input : DecisionInput) :
    IntentProg SchedulerDecision := do
  let outcomeId ← awaitIntent (.recordOutcome
    { intentId := intent.id
      projectId := intent.project_id
      status := input.status
      reason := input.reason
      conflictKeys := intent.conflict_keys
      activeConflicts := input.activeConflicts
      evaluatedAt := input.now
      policySnapshot := policySnapshot input.policy
      metadata := input.metadata })
  awaitIntent (.updateStatus intent.id (toIntentStatus input.status) none)
  pure
    { intentId := intent.id
      outcomeId := some outcomeId
      status := input.status
      reason := input.reason
      conflictKeys := intent.conflict_keys
      activeConflicts := input.activeConflicts
      metadata := input.metadata }

def isLaneCapacityReached (intent : OrchestrationIntent) (policy : SchedulerPolicyInput) :
    IntentProg Bool :=
  match policy.maxActivePerLane with
  | none => pure false
  | some maxActivePerLane => do
      let activeLaneIntents ← awaitIntent (.listActiveByLane intent.project_id intent.lane)
      let otherActiveIntents := activeLaneIntents.filter fun active => active.id ≠ intent.id
      pure (decide (maxActivePerLane ≤ otherActiveIntents.length))

def resolveFreshFactRequirements (policy : SchedulerPolicyInput) : List FreshFactRequirement :=
  match policy.requireFreshFacts.getD [] with
  | requirement :: requirements => requirement :: requirements
  | [] =>
      (policy.requireFreshFactTypes.getD []).map fun factType =>
        { factType := factType, subjectKind := "project", subjectIds := [] }

/-- The requirements without a fresh fact, or without one for each of their subjects. -/
def missingRequirements (freshFacts : List OrchestrationFact)
    (requirements : List FreshFactRequirement) : List FreshFactRequirement :=
  requirements.filter fun req =>
    if req.subjectIds = [] then !freshFacts.any fun fact => fact.fact_type = req.factType
    else !req.subjectIds.all fun id => freshFacts.any fun fact =>
      fact.fact_type = req.factType && fact.subject_kind = req.subjectKind &&
        fact.subject_id = id

def findMissingFreshFacts (projectId : String) (requirements : List FreshFactRequirement)
    (now : Int) : IntentProg (List FreshFactRequirement) :=
  if requirements.isEmpty then pure []
  else do
    let freshFacts ← awaitIntent (.listFreshFacts projectId requirements now)
    pure (missingRequirements freshFacts requirements)

/-- `policy.now ?? new Date()`. -/
def evaluationTime (policy : SchedulerPolicyInput) : IntentProg Int :=
  match policy.now with
  | some now => pure now
  | none => awaitIntent .newDate

def requirementJson (req : FreshFactRequirement) : Json :=
  .obj [("factType", .str req.factType), ("subjectKind", .str req.subjectKind),
    ("subjectIds", .arr (req.subjectIds.map .str))]

/-- What an evaluation decides on the facts that it found missing. -/
def factDecision (policy : SchedulerPolicyInput) (now : Int)
    (missingFacts : List FreshFactRequirement) : DecisionInput :=
  if missingFacts.isEmpty then
    { status := .launchable, reason := .noConflicts, now := now, policy := policy }
  else
    { status := .deferred, reason := .missingFreshFact, now := now, policy := policy
      metadata := some
        [("missingFreshFactTypes", .arr (missingFacts.map fun req => .str req.factType)),
         ("missingFreshFacts", .arr (missingFacts.map requirementJson))] }

def evaluateIntent (intentId : Nat) (policy : SchedulerPolicyInput) :
    IntentProg SchedulerDecision := do
  let intent ← requireIntent intentId
  let now ← evaluationTime policy
  let laneCapacityReached ← isLaneCapacityReached intent policy
  if laneCapacityReached then
    recordDecision intent
      { status := .deferred, reason := .laneCapacityReached, now := now, policy := policy }
  else do
    let missingFacts ← findMissingFreshFacts intent.project_id
      (resolveFreshFactRequirements policy) now
    recordDecision intent (factDecision policy now missingFacts)

/-- The outcomes `terminalizeIntent` takes. -/
inductive TerminalOutcome where
  | blocked
  | suppressed
  | failed
  deriving DecidableEq, Repr

def TerminalOutcome.status : TerminalOutcome → SchedulerOutcomeStatus
  | .blocked => .blocked
  | .suppressed => .suppressed
  | .failed => .failed

def terminalizeIntent (intentId : Nat) (terminalOutcome : TerminalOutcome)
    (reason : SchedulerOutcomeReason) (metadata : Option (List (String × Json))) :
    IntentProg SchedulerDecision := do
  let intent ← requireIntent intentId
  let now ← awaitIntent .newDate
  recordDecision intent
    { status := terminalOutcome.status, reason := reason, now := now, metadata := metadata }

def markIntentRunning (intentId : Nat) (metadata : Option (List (String × Json))) :
    IntentProg SchedulerDecision := do
  let intent ← requireIntent intentId
  awaitIntent (.updateStatus intent.id .running none)
  pure
    { intentId := intent.id
      outcomeId := none
      status := .launchable
      reason := .directMutationStarted
      conflictKeys := intent.conflict_keys
      activeConflicts := []
      metadata := metadata }

def completeIntent (intentId : Nat) (reason : SchedulerOutcomeReason)
    (metadata : Option (List (String × Json))) : IntentProg SchedulerDecision := do
  let intent ← requireIntent intentId
  let now ← awaitIntent .newDate
  recordDecision intent
    { status := .completed, reason := reason, now := now, metadata := metadata }

end OrchestrationControlPlaneScheduler

/-! ## Systems of calls -/

/-- The calls on the intents. -/
inductive IntentCall where
  | createIntent (input : CreateOrchestrationIntentInput)
  | evaluateIntent (intentId : Nat) (policy : SchedulerPolicyInput)
  | markIntentRunning (intentId : Nat) (metadata : Option (List (String × Json)))
  | completeIntent (intentId : Nat) (reason : SchedulerOutcomeReason)
      (metadata : Option (List (String × Json)))
  | terminalizeIntent (intentId : Nat)
      (terminalOutcome : OrchestrationControlPlaneScheduler.TerminalOutcome)
      (reason : SchedulerOutcomeReason) (metadata : Option (List (String × Json)))

open KanbanOrchestrationIntentRepository OrchestrationControlPlaneScheduler in
def IntentCall.program (digest : IntentDigest) : IntentCall → IntentProg Unit
  | .createIntent input => do
      let _ ← KanbanOrchestrationIntentRepository.createIntent digest input
      pure ()
  | .evaluateIntent intentId policy => do
      let _ ← OrchestrationControlPlaneScheduler.evaluateIntent intentId policy
      pure ()
  | .markIntentRunning intentId metadata => do
      let _ ← OrchestrationControlPlaneScheduler.markIntentRunning intentId metadata
      pure ()
  | .completeIntent intentId reason metadata => do
      let _ ← OrchestrationControlPlaneScheduler.completeIntent intentId reason metadata
      pure ()
  | .terminalizeIntent intentId terminalOutcome reason metadata => do
      let _ ← OrchestrationControlPlaneScheduler.terminalizeIntent intentId terminalOutcome reason
        metadata
      pure ()

abbrev IntentSystem := Config Nat IntentOp IntentOp.Ans IntentError Unit IntentStore

/-- The configuration before the first step; no intent has been saved yet. -/
def IntentSystem.init (digest : IntentDigest) (w : IntentStore) (calls : Nat → IntentCall) :
    IntentSystem :=
  Pool.start w.withoutRows fun t => (calls t).program digest

/-! ## Rows under the operations -/

namespace IntentStore

variable {w : IntentStore} {id : Nat}

theorem mem_of_findById {row : OrchestrationIntent} (h : w.findById id = some row) :
    row ∈ w.intents ∧ row.id = id := ⟨List.mem_of_getElem? h, w.ids id row h⟩

theorem findById_of_mem {row : OrchestrationIntent} (h : row ∈ w.intents) :
    w.findById row.id = some row := by
  obtain ⟨i, hi⟩ := List.mem_iff_getElem?.1 h
  rw [w.ids i row hi]
  exact hi

theorem findById_length : w.findById w.intents.length = none :=
  List.getElem?_eq_none (Nat.le_refl _)

theorem findByIdempotencyKey_ne_none {key : String} :
    w.findByIdempotencyKey key ≠ none ↔ key ∈ w.intents.map fun row => row.idempotency_key := by
  rw [Ne, findByIdempotencyKey_eq_none, not_not]

theorem findById_insert {input : CreateOrchestrationIntentInput} {baseKey key : String}
    (h : w.findByIdempotencyKey key = none) :
    (w.insert input baseKey key h).findById id =
      if id = w.intents.length then some (input.entity baseKey key id (w.clock w.steps))
      else w.findById id := by
  refine (TableRows.getElem?_append id).trans (ite_congr rfl (fun hid => ?_) fun _ => rfl)
  rw [hid]

theorem findById_updateStatus (id' : Nat) (status : OrchestrationIntentStatus)
    (terminalOutcome : Option String) :
    (w.updateStatus id' status terminalOutcome).findById id =
      if id = id' then
        (w.findById id).map fun row =>
          { row with status := status, terminal_outcome := terminalOutcome }
      else w.findById id := by
  simp only [updateStatus, findById, List.getElem?_map]
  cases hrow : w.intents[id]? with
  | none => simp
  | some row =>
      obtain rfl := w.ids id row hrow
      rw [Option.map_some, Option.map_some]
      split <;> rfl

end IntentStore

/-- A save inserts the row, or finds the key taken. -/
theorem IntentOp.write_save (w : IntentStore) (input : CreateOrchestrationIntentInput)
    (baseKey key : String) :
    (∃ h, (IntentOp.save input baseKey key).write w = w.insert input baseKey key h) ∨
      (w.findByIdempotencyKey key ≠ none ∧ (IntentOp.save input baseKey key).write w = w) := by
  rw [IntentOp.write]
  split
  · rename_i h
    exact .inl ⟨h, rfl⟩
  · rename_i existing h
    exact .inr ⟨by simp [h], rfl⟩

/-- A key that is taken stays taken. -/
theorem IntentOp.write_keeps_key {w : IntentStore} {key : String}
    (h : w.findByIdempotencyKey key ≠ none) (o : IntentOp) :
    (o.write w).findByIdempotencyKey key ≠ none := by
  rw [IntentStore.findByIdempotencyKey_ne_none] at h ⊢
  cases o with
  | save input baseKey key' =>
      rcases IntentOp.write_save w input baseKey key' with ⟨hfree, hwrite⟩ | ⟨-, hwrite⟩
      · rw [hwrite, IntentStore.insert, List.map_append]
        exact List.mem_append_left _ h
      · rw [hwrite]
        exact h
  | updateStatus id status terminalOutcome =>
      obtain ⟨row, hrow, rfl⟩ := List.mem_map.1 h
      refine List.mem_map.2 ⟨_, List.mem_map.2 ⟨row, hrow, rfl⟩, ?_⟩
      split <;> rfl
  | newDate | findById id | findByIdempotencyKey key' | listActiveByLane projectId lane
  | listFreshFacts projectId requirements time | recordOutcome input => exact h

end Nexus
