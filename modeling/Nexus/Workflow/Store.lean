import Nexus.Lib.Pool
import Nexus.Workflow.Definition
import Nexus.Workflow.StateVariables

/-!
# The stores behind the engine

The rows of `workflow_runs`, the step queue, the emitted events, the in-process locks and the clock,
and the operations on them that the engine awaits. Every operation is one atomic step
(`Op.exec`): one statement of the repository, one call of the queue, one event.

Rows are kept in the order of their creation, so the oldest row of a query is the first one. A
statement that fails is answered `none`.
-/

set_option autoImplicit false

namespace Nexus

/-- The id of a run; the database draws a new one for every row. -/
abbrev RunId := Nat

inductive WorkflowStatus where
  | pending
  | running
  | completed
  | failed
  | cancelled
  deriving DecidableEq, Repr

/-- `TERMINAL_STATUSES`. -/
def WorkflowStatus.isTerminal : WorkflowStatus → Bool
  | .completed => true
  | .failed => true
  | .cancelled => true
  | .pending => false
  | .running => false

/-- `status IN (PENDING, RUNNING)`. -/
def WorkflowStatus.isActive : WorkflowStatus → Bool
  | .pending => true
  | .running => true
  | .completed => false
  | .failed => false
  | .cancelled => false

/-- A row of `workflow_runs`. -/
structure WorkflowRun where
  id : RunId
  workflow_id : String
  status : WorkflowStatus
  state_variables : Json := .obj []
  current_step_id : Option String := none
  concurrency_scope : Option String := none
  launch_dedupe_key : Option String := none
  awaiting_input : Bool := false
  wait_reason : Option String := none
  started_at : Option Nat := none
  completed_at : Option Nat := none
  updated_at : Nat := 0

/-- The fields of a new row. -/
structure NewRun where
  workflow_id : String
  status : WorkflowStatus
  state_variables : Json
  concurrency_scope : Option String := none
  launch_dedupe_key : Option String := none
  started_at : Option Nat := none

/-- The fields an update changes. -/
structure RunPatch where
  status : Option WorkflowStatus := none
  current_step_id : Option String := none
  started_at : Option Nat := none
  completed_at : Option Nat := none

/-- `buildRunStatusTimestampPatch`: the timestamps a transition sets, none that is set already. -/
def buildRunStatusTimestampPatch (current : WorkflowRun) (nextStatus : WorkflowStatus)
    (now : Nat) : RunPatch where
  started_at := if nextStatus = .running ∧ current.started_at = none then some now else none
  completed_at :=
    if nextStatus.isTerminal ∧ current.completed_at = none then some now else none

/-! ## The step queue -/

/-- The prefix of a queue job's own id. -/
inductive QueueJobKind where
  | workflowStep
  | autoRetry
  deriving DecidableEq, Repr

/-- The queue's own id of a job, `workflow-step-${run}-${job}` or `auto-retry-${run}-${job}`, with
the sanitised id of the job. -/
structure QueueJobId where
  kind : QueueJobKind
  run : RunId
  job : String
  deriving DecidableEq, Repr

/-- The characters `sanitizeIdentitySegment` keeps. -/
def isSafeIdentityChar (c : Char) : Bool := c.isAlphanum || c = '.' || c = '_' || c = '-'

/-- Replaces every run of other characters by one `_`, then every run of `_` by one. -/
def collapseUnsafe : Bool → List Char → List Char
  | _, [] => []
  | afterUnderscore, c :: cs =>
      if isSafeIdentityChar c ∧ c ≠ '_' then c :: collapseUnsafe false cs
      else if afterUnderscore then collapseUnsafe true cs
      else '_' :: collapseUnsafe true cs

/-- `[_-]`. -/
def isEdgeChar (c : Char) : Bool := c = '_' || c = '-'

/-- `normalizeIdentitySegment`. -/
def normalizeIdentitySegment (value : String) : String :=
  let replaced := collapseUnsafe false (trimChars value.toList)
  String.ofList (((replaced.dropWhile isEdgeChar).reverse.dropWhile isEdgeChar).reverse)

/-- `sanitizeIdentitySegment` of a job id, with the fallback `job`. -/
def sanitizeJobId (jobId : String) : String :=
  if normalizeIdentitySegment jobId ≠ "" then normalizeIdentitySegment jobId else "job"

def buildWorkflowStepQueueJobId (workflowRunId : RunId) (jobId : String) : QueueJobId :=
  ⟨.workflowStep, workflowRunId, sanitizeJobId jobId⟩

def buildAutoRetryQueueJobId (workflowRunId : RunId) (jobId : String) : QueueJobId :=
  ⟨.autoRetry, workflowRunId, sanitizeJobId jobId⟩

/-- A job on the step queue. -/
structure QueueJob where
  queueJobId : QueueJobId
  workflowRunId : RunId
  jobId : String
  job : IJob
  autoRetryAttempt : Option Nat := none
  deriving DecidableEq

/-! ## Events -/

/-- The events the engine emits, with the data their listeners get. -/
inductive WorkflowEvent where
  | runStarted (run : RunId) (workflowId : String) (stateVariables triggerData : Json)
  | runCompleted (run : RunId) (workflowId : String) (stateVariables : Json)
  | runFailed (run : RunId) (workflowId : String) (stateVariables : Json)
      (failedJobId reason : String)
  | runCancelled (run : RunId) (workflowId : String) (stateVariables : Json) (reason : String)
  | runPaused (run : RunId) (workflowId : String) (stateVariables : Json)
  | runResumed (run : RunId) (workflowId : String) (stateVariables : Json)
  | runActivatedFromQueue (run : RunId)
  | runRetryScheduled (run : RunId) (workflowId jobId : String) (attempt : Nat) (reason : String)
  | jobQueued (run : RunId) (workflowId jobId : String)
  | jobCompleted (run : RunId) (workflowId jobId : String) (output : Json)

/-- `WORKFLOW_RUN_COMPLETED` of a run. -/
def WorkflowEvent.isRunCompleted (run : RunId) : WorkflowEvent → Bool
  | .runCompleted r _ _ => r = run
  | _ => false

/-! ## The world -/

/-- Everything the engine awaits. `added` and `activations` keep what was put on the step queue and
the runs `tryActivateNextQueuedRun` was called for, the last one first. -/
structure World where
  runs : List WorkflowRun := []
  nextId : RunId := 0
  stepQueue : List QueueJob := []
  added : List QueueJob := []
  events : List WorkflowEvent := []
  activations : List RunId := []
  openAwaits : List RunId := []
  locks : List String := []
  clock : Nat := 0

namespace World

def findRun (w : World) (id : RunId) : Option WorkflowRun := w.runs.find? fun r => r.id = id

/-- Changes the row of an id. -/
def modifyRun (w : World) (id : RunId) (f : WorkflowRun → WorkflowRun) : World :=
  { w with runs := w.runs.map fun r => if r.id = id then { f r with updated_at := w.clock } else r }

end World

/-- The row after an update. -/
def WorkflowRun.patch (r : WorkflowRun) (p : RunPatch) : WorkflowRun :=
  { r with
    status := p.status.getD r.status
    current_step_id := p.current_step_id <|> r.current_step_id
    started_at := p.started_at <|> r.started_at
    completed_at := p.completed_at <|> r.completed_at }

/-- The context of a trigger that launches are deduplicated by. -/
structure TriggerDedupeContext where
  event : String
  scopeId : String
  contextId : String
  status : String
  deriving DecidableEq

/-- `state_variables->'trigger'->>field` for a text. -/
def WorkflowRun.triggerText (r : WorkflowRun) (path : List String) : Option String :=
  match r.state_variables.jsonbGet ("trigger" :: path) with
  | some (.str s) => some s
  | _ => none

/-! ## Operations -/

inductive Op where
  | findById (id : RunId)
  | findByStatus (status : WorkflowStatus)
  | findOldestPendingByScope (workflowId scope : String)
  | findOldestRunningByScope (workflowId scope : String)
  | countActiveByScope (workflowId scope : String)
  | findActiveChildRunsForParentRun (id : RunId)
  | findPendingByScopeAndTrigger (workflowId scope : String) (triggerData : Json)
  | findPendingByScopeAndDedupeKey (workflowId scope dedupeKey : String)
  | findLatestByWorkflowAndDedupeKey (workflowId dedupeKey : String)
  | findActiveByTriggerContext (workflowId : String) (context : TriggerDedupeContext)
  | create (data : NewRun)
  | update (id : RunId) (patch : RunPatch)
  | setAwaitingInput (id : RunId) (awaiting : Bool)
  | claimJobFlag (id : RunId) (group : FlagGroup) (jobId : String)
  | setStateVariableAtomic (id : RunId) (key : String) (value : Json)
  | deleteStateVariableAtomic (id : RunId) (key : String)
  | cancelOpenAwaits (id : RunId)
  | findOpenAwait (id : RunId)
  | stepQueueAdd (job : QueueJob)
  | stepQueueFinish (id : QueueJobId)
  | countAutoRetryJobs
  | removeQueuedJobs (id : RunId)
  | emit (event : WorkflowEvent)
  | activationCall (id : Option RunId)
  | now
  | acquireLock (key : String)
  | releaseLock (key : String)

/-- The answers; `none` of a create, a claim or a write of variables is a failing statement. -/
abbrev Op.Ans : Op → Type
  | .findById _ => Option WorkflowRun
  | .findByStatus _ => List WorkflowRun
  | .findOldestPendingByScope _ _ => Option WorkflowRun
  | .findOldestRunningByScope _ _ => Option WorkflowRun
  | .countActiveByScope _ _ => Nat
  | .findActiveChildRunsForParentRun _ => List WorkflowRun
  | .findPendingByScopeAndTrigger _ _ _ => Option WorkflowRun
  | .findPendingByScopeAndDedupeKey _ _ _ => Option WorkflowRun
  | .findLatestByWorkflowAndDedupeKey _ _ => Option WorkflowRun
  | .findActiveByTriggerContext _ _ => Option WorkflowRun
  | .create _ => Option RunId
  | .update _ _ => Unit
  | .setAwaitingInput _ _ => Unit
  | .claimJobFlag _ _ _ => Option Bool
  | .setStateVariableAtomic _ _ _ => Option Unit
  | .deleteStateVariableAtomic _ _ => Option Unit
  | .cancelOpenAwaits _ => Unit
  | .findOpenAwait _ => Bool
  | .stepQueueAdd _ => Unit
  | .stepQueueFinish _ => Unit
  | .countAutoRetryJobs => Nat
  | .removeQueuedJobs _ => Unit
  | .emit _ => Unit
  | .activationCall _ => Unit
  | .now => Nat
  | .acquireLock _ => Unit
  | .releaseLock _ => Unit

namespace World

/-- The rows of a workflow in a scope. -/
def inScope (workflowId scope : String) (r : WorkflowRun) : Bool :=
  r.workflow_id = workflowId && r.concurrency_scope = some scope

/-- Rows with a launch dedupe key, in its column or in the trigger. -/
def hasDedupeKey (dedupeKey : String) (r : WorkflowRun) : Bool :=
  r.launch_dedupe_key = some dedupeKey || r.triggerText ["dedupeKey"] = some dedupeKey

/-- Rewrites the state variables of a row; `none` is a failing statement. -/
def modifyState (w : World) (id : RunId) (f : Json → Option Json) : World × Option Unit :=
  match w.findRun id with
  | none => (w, some ())
  | some r =>
      match f r.state_variables with
      | none => (w, none)
      | some t => (w.modifyRun id fun r => { r with state_variables := t }, some ())

/-- `tryClaimInternalJobFlag`: sets the flag of a RUNNING run that is not set. -/
def claimJobFlag (w : World) (id : RunId) (group : FlagGroup) (jobId : String) :
    World × Option Bool :=
  match w.findRun id with
  | none => (w, some false)
  | some r =>
      if r.status = .running then
        match claimFlag r.state_variables group jobId with
        | none => (w, none)
        | some none => (w, some false)
        | some (some t) => (w.modifyRun id fun r => { r with state_variables := t }, some true)
      else (w, some false)

/-- A new row. -/
def newRow (w : World) (data : NewRun) : WorkflowRun where
  id := w.nextId
  workflow_id := data.workflow_id
  status := data.status
  state_variables := data.state_variables
  concurrency_scope := data.concurrency_scope
  launch_dedupe_key := data.launch_dedupe_key
  started_at := data.started_at
  updated_at := w.clock

def createRun (w : World) (data : NewRun) : World × Option RunId :=
  ({ w with runs := w.runs ++ [w.newRow data], nextId := w.nextId + 1 }, some w.nextId)

/-- The queue ignores a job whose id it holds already. -/
def addQueueJob (w : World) (job : QueueJob) : World :=
  if w.stepQueue.any fun q => q.queueJobId = job.queueJobId then w
  else { w with stepQueue := w.stepQueue ++ [job], added := job :: w.added }

end World

/-- The execution of an operation. -/
def Op.exec (w : World) : (o : Op) → World × o.Ans
  | .findById id => (w, w.findRun id)
  | .findByStatus status => (w, (w.runs.filter fun r => r.status = status).reverse)
  | .findOldestPendingByScope workflowId scope =>
      (w, w.runs.find? fun r => World.inScope workflowId scope r && r.status = .pending)
  | .findOldestRunningByScope workflowId scope =>
      (w, w.runs.find? fun r => World.inScope workflowId scope r && r.status = .running)
  | .countActiveByScope workflowId scope =>
      (w, w.runs.countP fun r => World.inScope workflowId scope r && r.status.isActive)
  | .findActiveChildRunsForParentRun id =>
      (w, (w.runs.filter fun r => r.status.isActive &&
        r.triggerText ["parentWorkflowRunId"] = some (toString id)).reverse)
  | .findPendingByScopeAndTrigger workflowId scope triggerData =>
      (w, w.runs.find? fun r => World.inScope workflowId scope r && r.status = .pending &&
        ((r.state_variables.field? "trigger").map triggerData.sameValue).getD false)
  | .findPendingByScopeAndDedupeKey workflowId scope dedupeKey =>
      (w, w.runs.find? fun r => World.inScope workflowId scope r && r.status = .pending &&
        World.hasDedupeKey dedupeKey r)
  | .findLatestByWorkflowAndDedupeKey workflowId dedupeKey =>
      (w, w.runs.reverse.find? fun r => r.workflow_id = workflowId &&
        (r.status = .pending || r.status = .running || r.status = .completed) &&
        (World.hasDedupeKey dedupeKey r ||
          r.triggerText ["payload", "dedupeKey"] = some dedupeKey))
  | .findActiveByTriggerContext workflowId context =>
      (w, w.runs.reverse.find? fun r => r.workflow_id = workflowId && r.status.isActive &&
        r.triggerText ["event"] = some context.event &&
        r.triggerText ["scopeId"] = some context.scopeId &&
        r.triggerText ["contextId"] = some context.contextId &&
        r.triggerText ["status"] = some context.status)
  | .create data => w.createRun data
  | .update id patch => (w.modifyRun id fun r => r.patch patch, ())
  | .setAwaitingInput id awaiting =>
      (w.modifyRun id fun r =>
        if r.status = .running then { r with awaiting_input := awaiting } else r, ())
  | .claimJobFlag id group jobId => w.claimJobFlag id group jobId
  | .setStateVariableAtomic id key value =>
      w.modifyState id fun t => setStateVariable t key value
  | .deleteStateVariableAtomic id key => w.modifyState id fun t => deleteStateVariable t key
  | .cancelOpenAwaits id => ({ w with openAwaits := w.openAwaits.filter (· ≠ id) }, ())
  | .findOpenAwait id => (w, decide (id ∈ w.openAwaits))
  | .stepQueueAdd job => (w.addQueueJob job, ())
  | .stepQueueFinish id =>
      ({ w with stepQueue := w.stepQueue.filter fun q => q.queueJobId ≠ id }, ())
  | .countAutoRetryJobs => (w, w.stepQueue.countP fun q => q.queueJobId.kind = .autoRetry)
  | .removeQueuedJobs id =>
      ({ w with stepQueue := w.stepQueue.filter fun q => q.workflowRunId ≠ id }, ())
  | .emit event => ({ w with events := event :: w.events }, ())
  | .activationCall id => ({ w with activations := id.toList ++ w.activations }, ())
  | .now => ({ w with clock := w.clock + 1 }, w.clock)
  | .acquireLock key => ({ w with locks := key :: w.locks }, ())
  | .releaseLock key => ({ w with locks := w.locks.erase key }, ())

/-- A lock can be taken when nobody holds it; every other operation is always enabled. -/
def Op.Enabled (w : World) : Op → Prop
  | .acquireLock key => key ∉ w.locks
  | _ => True

instance (w : World) (o : Op) : Decidable (o.Enabled w) := by
  cases o <;> simp only [Op.Enabled] <;> exact inferInstance

/-- The machine of the stores. -/
def store : Machine Op Op.Ans World := ⟨Op.exec, Op.Enabled⟩

end Nexus
