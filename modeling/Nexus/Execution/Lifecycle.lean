import Nexus.Lib.Pool
import Nexus.Lib.TableRows

/-!
# The life of an execution

The rows of `executions` and everything that writes their state: `ExecutionRepository`, the
projector of the lifecycle events (`ExecutionProjector`), the dispatch that creates a row
(`ExecutionDispatchService`), the supervisor (`ExecutionSupervisorService`), and the two services
that apply a transition themselves. A publish runs the projector in the thread of the publisher, and
an event may be delivered again at any time, so every delivery is a call of its own.

`save` writes the columns that differ from a copy. The copy is the one the caller read, or the one
`save` loads itself, which comes to writing every column; `SaveMode` keeps both readings.
-/

set_option autoImplicit false

namespace Nexus

inductive ExecutionState where
  | pending
  | provisioning
  | running
  | awaitingInput
  | completing
  | completed
  | failed
  | reaped
  | cancelled
  | retryScheduled
  deriving DecidableEq, Repr

inductive ExecutionKind where
  | workflowStep
  | workflowChat
  | adhocChat
  | subagent
  deriving DecidableEq, Repr

inductive ExecutionFailureReason where
  | provisionFailed
  | spawnTimeout
  | neverDispatched
  | idleTimeout
  | maxRuntimeExceeded
  | containerLost
  | agentError
  | stepFailed
  | cancelledByUser
  | parentTerminated
  | superseded
  deriving DecidableEq, Repr

/-! ## Transitions -/

/-- `TERMINAL_EXECUTION_STATES`. -/
def terminalExecutionStates : List ExecutionState := [.completed, .failed, .reaped, .cancelled]

def isTerminalState (state : ExecutionState) : Bool := state ∈ terminalExecutionStates

/-- `LEGAL_EDGES`. -/
def legalEdges : ExecutionState → List ExecutionState
  | .pending => [.provisioning, .reaped, .cancelled, .retryScheduled]
  | .provisioning => [.running, .failed, .reaped, .cancelled]
  | .running => [.running, .awaitingInput, .completing, .failed, .reaped, .cancelled]
  | .awaitingInput => [.running, .completing, .failed, .reaped, .cancelled]
  | .completing => [.completed, .failed, .reaped]
  | .retryScheduled => [.pending, .provisioning, .cancelled, .reaped]
  | .completed => []
  | .failed => []
  | .reaped => []
  | .cancelled => []

def isLegalTransition (current target : ExecutionState) : Bool := target ∈ legalEdges current

/-- No edge leaves a terminal state. -/
theorem isTerminalState_of_legal {s target : ExecutionState}
    (h : isLegalTransition s target = true) :
    isTerminalState s = false := by
  cases s <;> first | rfl | simp [isLegalTransition, legalEdges] at h

/-! ## Rows -/

/-- A row of `executions`. -/
structure Execution where
  id : String
  kind : ExecutionKind
  parent_execution_id : Option String := none
  workflow_run_id : Option String := none
  chat_session_id : Option String := none
  context_id : Option String := none
  container_id : Option String := none
  container_tier : Nat := 2
  provider : Option String := none
  model : Option String := none
  state : ExecutionState := .pending
  failure_reason : Option ExecutionFailureReason := none
  error_message : Option String := none
  last_heartbeat_at : Option Nat := none
  terminal_at : Option Nat := none
  frozen : Bool := false
  deriving DecidableEq, Repr

/-- The columns a save writes; `none` leaves a column alone. -/
structure ExecutionColumns where
  kind : Option ExecutionKind := none
  parent_execution_id : Option (Option String) := none
  workflow_run_id : Option (Option String) := none
  chat_session_id : Option (Option String) := none
  context_id : Option (Option String) := none
  container_id : Option (Option String) := none
  container_tier : Option Nat := none
  provider : Option (Option String) := none
  model : Option (Option String) := none
  state : Option ExecutionState := none
  failure_reason : Option (Option ExecutionFailureReason) := none
  error_message : Option (Option String) := none
  last_heartbeat_at : Option (Option Nat) := none
  terminal_at : Option (Option Nat) := none
  deriving DecidableEq, Repr

/-- The row after its columns were written. -/
def Execution.write (row : Execution) (c : ExecutionColumns) : Execution where
  id := row.id
  kind := c.kind.getD row.kind
  parent_execution_id := c.parent_execution_id.getD row.parent_execution_id
  workflow_run_id := c.workflow_run_id.getD row.workflow_run_id
  chat_session_id := c.chat_session_id.getD row.chat_session_id
  context_id := c.context_id.getD row.context_id
  container_id := c.container_id.getD row.container_id
  container_tier := c.container_tier.getD row.container_tier
  provider := c.provider.getD row.provider
  model := c.model.getD row.model
  state := c.state.getD row.state
  failure_reason := c.failure_reason.getD row.failure_reason
  error_message := c.error_message.getD row.error_message
  last_heartbeat_at := c.last_heartbeat_at.getD row.last_heartbeat_at
  terminal_at := c.terminal_at.getD row.terminal_at
  frozen := row.frozen

/-- Which copy `save` compares the entity with. -/
inductive SaveMode where
  /-- The copy the caller read: only what the caller changed is written. -/
  | changedColumns
  /-- The row `save` loads: every column of the entity is written. -/
  | allColumns
  deriving DecidableEq, Repr

/-- A column is written when it differs from the copy, or in any case. -/
def SaveMode.column {α : Type} [DecidableEq α] (mode : SaveMode) (copy entity : α) : Option α :=
  match mode with
  | .changedColumns => if entity = copy then none else some entity
  | .allColumns => some entity

/-- The columns the save of an entity writes. -/
def SaveMode.columns (mode : SaveMode) (copy entity : Execution) : ExecutionColumns where
  kind := mode.column copy.kind entity.kind
  parent_execution_id := mode.column copy.parent_execution_id entity.parent_execution_id
  workflow_run_id := mode.column copy.workflow_run_id entity.workflow_run_id
  chat_session_id := mode.column copy.chat_session_id entity.chat_session_id
  context_id := mode.column copy.context_id entity.context_id
  container_id := mode.column copy.container_id entity.container_id
  container_tier := mode.column copy.container_tier entity.container_tier
  provider := mode.column copy.provider entity.provider
  model := mode.column copy.model entity.model
  state := mode.column copy.state entity.state
  failure_reason := mode.column copy.failure_reason entity.failure_reason
  error_message := mode.column copy.error_message entity.error_message
  last_heartbeat_at := mode.column copy.last_heartbeat_at entity.last_heartbeat_at
  terminal_at := mode.column copy.terminal_at entity.terminal_at

/-! ## Operations -/

/-- The table of executions and the clock. -/
structure ExecutionTable where
  rows : List Execution := []
  clock : Nat := 0

def ExecutionTable.find (w : ExecutionTable) (id : String) : Option Execution :=
  w.rows.find? fun row => row.id = id

/-- A save with an id: an update of the row that has it, or an insert. -/
def ExecutionTable.upsert (w : ExecutionTable) (id : String) (c : ExecutionColumns) :
    ExecutionTable :=
  match w.find id with
  | some _ => { w with rows := w.rows.map fun row => if row.id = id then row.write c else row }
  | none =>
      { w with rows := w.rows ++
        [({ id := id, kind := c.kind.getD .workflowStep } : Execution).write c] }

inductive ExecutionOp where
  | findById (id : String)
  | findNonTerminal
  /-- The save of a new entity, with the columns it has. -/
  | create (id : String) (columns : ExecutionColumns)
  /-- The save of an entity that was read. -/
  | save (id : String) (columns : ExecutionColumns)
  | now

abbrev ExecutionOp.Ans : ExecutionOp → Type
  | .findById _ => Option Execution
  | .findNonTerminal => List Execution
  | .create _ _ => Unit
  | .save _ _ => Unit
  | .now => Nat

def ExecutionOp.exec (w : ExecutionTable) : (o : ExecutionOp) → ExecutionTable × o.Ans
  | .findById id => (w, w.find id)
  | .findNonTerminal => (w, w.rows.filter fun row => !isTerminalState row.state)
  | .create id columns => (w.upsert id columns, ())
  | .save id columns => (w.upsert id columns, ())
  | .now => ({ w with clock := w.clock + 1 }, w.clock)

/-- The machine of the table; every operation is one statement. -/
def executionStore : Machine ExecutionOp ExecutionOp.Ans ExecutionTable :=
  ⟨ExecutionOp.exec, fun _ _ => True⟩

instance (w : ExecutionTable) (o : ExecutionOp) : Decidable (executionStore.enabled w o) :=
  inferInstanceAs (Decidable True)

/-- The programs over the table; none of them throws. -/
abbrev ExecutionProg (α : Type) := Prog ExecutionOp ExecutionOp.Ans Empty α

/-- Awaits one operation. -/
def awaitExecution (o : ExecutionOp) : ExecutionProg o.Ans := Prog.op o

namespace ExecutionRepository

def findById (id : String) : ExecutionProg (Option Execution) := awaitExecution (.findById id)

def create (id : String) (columns : ExecutionColumns) : ExecutionProg Unit :=
  awaitExecution (.create id columns)

/-- `TransitionPatch`; `none` is `undefined`. -/
structure TransitionPatch where
  failure_reason : Option (Option ExecutionFailureReason) := none
  error_message : Option (Option String) := none
  container_id : Option (Option String) := none
  last_heartbeat_at : Option (Option Nat) := none

/-- The entity with the transition and its patch. -/
def transitioned (row : Execution) (target : ExecutionState) (patch : TransitionPatch) : Execution :=
  { row with
    state := target
    failure_reason := patch.failure_reason.getD row.failure_reason
    error_message := patch.error_message.getD row.error_message
    container_id := patch.container_id.getD row.container_id
    last_heartbeat_at := patch.last_heartbeat_at.getD row.last_heartbeat_at }

/-- `applyTransition`: a missing row and an illegal edge are dropped with a warning. -/
def applyTransition (mode : SaveMode) (id : String) (target : ExecutionState)
    (patch : TransitionPatch) : ExecutionProg Unit := do
  match ← findById id with
  | none => pure ()
  | some row =>
      if !isLegalTransition row.state target then
        pure ()
      else if isTerminalState target then
        let terminalAt ← awaitExecution .now
        awaitExecution (.save id (mode.columns row
          { transitioned row target patch with terminal_at := some terminalAt }))
      else
        awaitExecution (.save id (mode.columns row (transitioned row target patch)))

end ExecutionRepository

/-! ## The projector -/

/-- The payload of `execution.created`. -/
structure CreatedPayload where
  kind : ExecutionKind
  parent_execution_id : Option String := none
  workflow_run_id : Option String := none
  chat_session_id : Option String := none
  container_tier : Option Nat := none

/-- The payload of a failure; `none` of the reason is `undefined`. -/
structure FailurePayload where
  failure_reason : Option ExecutionFailureReason
  error_message : Option String := none

/-- The lifecycle events the projector listens to, with the execution they are about. -/
inductive LifecycleEvent where
  | created (id : String) (payload : CreatedPayload)
  | provisioning (id : String)
  | provisioned (id : String) (containerId : Option String)
  | running (id : String)
  | heartbeat (id : String)
  | completed (id : String)
  | failed (id : String) (payload : FailurePayload)
  | reaped (id : String) (payload : FailurePayload)
  | cancelled (id : String) (payload : FailurePayload)

namespace ExecutionProjector

open ExecutionRepository

variable (mode : SaveMode)

def onCreated (id : String) (payload : CreatedPayload) : ExecutionProg Unit :=
  create id
    { kind := some payload.kind
      parent_execution_id := some payload.parent_execution_id
      workflow_run_id := some payload.workflow_run_id
      chat_session_id := some payload.chat_session_id
      container_tier := some (payload.container_tier.getD 2)
      state := some .pending }

def onProvisioned (id : String) (containerId : Option String) : ExecutionProg Unit :=
  applyTransition mode id .running { container_id := some containerId }

def onHeartbeat (id : String) : ExecutionProg Unit := do
  let now ← awaitExecution .now
  applyTransition mode id .running { last_heartbeat_at := some (some now) }

def onTerminalFailure (id : String) (payload : FailurePayload)
    (target : ExecutionState) : ExecutionProg Unit :=
  applyTransition mode id target
    { failure_reason := payload.failure_reason.map some
      error_message := some payload.error_message }

/-- `onCompleted`: a completed event is projected as two transitions. -/
def onCompleted (id : String) : ExecutionProg Unit := do
  applyTransition mode id .completing {}
  applyTransition mode id .completed {}

/-- The handler of an event. -/
def handle : LifecycleEvent → ExecutionProg Unit
  | .created id payload => onCreated id payload
  | .provisioning id => applyTransition mode id .provisioning {}
  | .provisioned id containerId => onProvisioned mode id containerId
  | .running id => applyTransition mode id .running {}
  | .heartbeat id => onHeartbeat mode id
  | .completed id => onCompleted mode id
  | .failed id payload => onTerminalFailure mode id payload .failed
  | .reaped id payload => onTerminalFailure mode id payload .reaped
  | .cancelled id payload => onTerminalFailure mode id payload .cancelled

end ExecutionProjector

/-- `ExecutionEventPublisher.emit`, as far as it touches the rows: the projector runs. -/
def publishLifecycle (mode : SaveMode) (event : LifecycleEvent) : ExecutionProg Unit :=
  ExecutionProjector.handle mode event

/-! ## The callers -/

/-- What a dispatch is given. -/
structure DispatchParams where
  kind : ExecutionKind
  chatSessionId : Option String := none
  workflowRunId : Option String := none
  parentExecutionId : Option String := none
  contextId : Option String := none
  containerTier : Nat
  provider : String
  model : String

/-- How the work with the container went. -/
inductive DispatchOutcome where
  | provisionFailed (message : String)
  | kickoffFailed (containerId message : String)
  | kickedOff (containerId : String)

namespace ExecutionDispatchService

variable (mode : SaveMode)

/-- `runDispatch`, with `handleDispatchFailure`. -/
def runDispatch (executionId : String) : DispatchOutcome → ExecutionProg Unit
  | .provisionFailed message => do
      publishLifecycle mode (.provisioning executionId)
      publishLifecycle mode (.failed executionId ⟨some .provisionFailed, some message⟩)
  | .kickoffFailed containerId message => do
      publishLifecycle mode (.provisioning executionId)
      publishLifecycle mode (.provisioned executionId (some containerId))
      publishLifecycle mode (.failed executionId ⟨some .provisionFailed, some message⟩)
  | .kickedOff containerId => do
      publishLifecycle mode (.provisioning executionId)
      publishLifecycle mode (.provisioned executionId (some containerId))
      publishLifecycle mode (.running executionId)

/-- `dispatch`, for the id that was drawn. -/
def dispatch (executionId : String) (params : DispatchParams) (outcome : DispatchOutcome) :
    ExecutionProg Unit := do
  ExecutionRepository.create executionId
    { kind := some params.kind
      state := some .pending
      chat_session_id := some params.chatSessionId
      workflow_run_id := some params.workflowRunId
      parent_execution_id := some params.parentExecutionId
      context_id := some params.contextId
      container_tier := some params.containerTier
      provider := some (some params.provider)
      model := some (some params.model) }
  publishLifecycle mode (.created executionId
    { kind := params.kind
      chat_session_id := params.chatSessionId
      workflow_run_id := params.workflowRunId
      parent_execution_id := params.parentExecutionId
      container_tier := some params.containerTier })
  runDispatch mode executionId outcome

end ExecutionDispatchService

/-- `ReapDecision`. -/
inductive ReapDecision where
  | reap (reason : ExecutionFailureReason)
  | reconcileCompleted
  | reconcileFailed

/-- `REASON_MESSAGES`. -/
def reasonMessage : ExecutionFailureReason → String
  | .provisionFailed => "Container failed to provision"
  | .spawnTimeout => "Execution did not reach running state within the spawn window"
  | .neverDispatched => "Execution was created but never dispatched"
  | .idleTimeout => "No activity heartbeat within the idle timeout window"
  | .maxRuntimeExceeded => "Execution exceeded the maximum allowed runtime"
  | .containerLost => "Execution container exited or was lost"
  | .agentError => "Agent reported a terminal error"
  | .stepFailed => "Step execution failed"
  | .cancelledByUser => "Cancelled by user"
  | .parentTerminated => "Parent execution terminated"
  | .superseded => "Execution was replaced by a newer attempt for the same job"

namespace ExecutionSupervisorService

variable (mode : SaveMode)

/-- `dispatchDecision`. -/
def dispatchDecision (row : Execution) : Option ReapDecision → ExecutionProg Unit
  | none => pure ()
  | some .reconcileCompleted => publishLifecycle mode (.completed row.id)
  | some .reconcileFailed =>
      publishLifecycle mode (.failed row.id ⟨some .agentError, some (reasonMessage .agentError)⟩)
  | some (.reap reason) =>
      publishLifecycle mode (.reaped row.id ⟨some reason, some (reasonMessage reason)⟩)

/-- The loop of a sweep over the rows it read; frozen ones are left alone. -/
def processRows (classify : Execution → Option ReapDecision) : List Execution → ExecutionProg Unit
  | [] => pure ()
  | row :: rows => do
      if !row.frozen then
        dispatchDecision mode row (classify row)
      processRows classify rows

/-- `sweepOnce`. `classify` stands for the probes of a row and `classifyExecutionForReaping`. -/
def sweepOnce (classify : Execution → Option ReapDecision) : ExecutionProg Unit := do
  let rows ← awaitExecution .findNonTerminal
  processRows mode classify rows

end ExecutionSupervisorService

/-- The calls on the table. -/
inductive ExecutionCall where
  /-- A first or a repeated delivery of an event. -/
  | deliver (event : LifecycleEvent)
  | dispatch (executionId : String) (params : DispatchParams) (outcome : DispatchOutcome)
  | sweepOnce (classify : Execution → Option ReapDecision)
  /-- A transition by `StartupResumeCoordinator` or `supersedePriorExecutions`. -/
  | applyTransition (id : String) (target : ExecutionState)
      (patch : ExecutionRepository.TransitionPatch)

def ExecutionCall.program (mode : SaveMode) : ExecutionCall → ExecutionProg Unit
  | .deliver event => ExecutionProjector.handle mode event
  | .dispatch executionId params outcome =>
      ExecutionDispatchService.dispatch mode executionId params outcome
  | .sweepOnce classify => ExecutionSupervisorService.sweepOnce mode classify
  | .applyTransition id target patch =>
      ExecutionRepository.applyTransition mode id target patch

/-- Configurations of the calls. -/
abbrev ExecutionSystem := Config Nat ExecutionOp ExecutionOp.Ans Empty Unit ExecutionTable

def ExecutionSystem.init (mode : SaveMode) (w : ExecutionTable) (calls : Nat → ExecutionCall) :
    ExecutionSystem :=
  Pool.start w fun t => (calls t).program mode

/-! ## Rows under saves -/

theorem Execution.write_id {c : ExecutionColumns} {id : String} (row : Execution)
    (h : row.id = id) : (row.write c).id = id :=
  h

namespace ExecutionTable

variable {w : ExecutionTable} {id : String} {c : ExecutionColumns} {row : Execution}

theorem find_id (h : w.find id = some row) : row.id = id := by
  simpa using List.find?_some h

theorem find_upsert_self (h : w.find id = some row) :
    (w.upsert id c).find id = some (row.write c) := by
  rw [upsert, h]
  refine (TableRows.find?_change Execution.write_id id).trans ?_
  rw [if_pos rfl]
  exact congrArg (Option.map _) h

theorem find_upsert_of_ne {id' : String} (hne : id' ≠ id) :
    (w.upsert id c).find id' = w.find id' := by
  unfold upsert
  cases hfind : w.find id with
  | none =>
      simp only [find, List.find?_append]
      cases w.rows.find? fun x => decide (x.id = id') <;> simp [Execution.write_id, Ne.symm hne]
  | some row' =>
      exact (TableRows.find?_change Execution.write_id id').trans (if_neg hne)

end ExecutionTable

end Nexus
