import Nexus.Workflow.Launch

/-!
# The operations of the engine

The operations on a whole run (`WorkflowEngineService`, `WorkflowCancellationCascadeService`,
`WorkflowRunJobExecutionService`) and the reconciliation of queued runs
(`WorkflowRunReconciliationService`), and the system of all of them: a pool of calls of the engine
over the stores. The breadth-first walk over child runs carries fuel, since other calls may go on
creating children.
-/

set_option autoImplicit false

namespace Nexus

/-! ## Pause and resume -/

/-- The run, or an exception: `persistence.getWorkflowRun`. -/
def getWorkflowRun (runId : RunId) : Engine WorkflowRun := do
  match ← findById runId with
  | none => .fail (.notFound ("Workflow run " ++ toString runId ++ " not found"))
  | some run => pure run

def pauseWorkflow (workflowRunId : RunId) : Engine Unit := do
  let run ← updateRunStatus workflowRunId .pending
  emit (.runPaused workflowRunId run.workflow_id run.state_variables)

def resumeWorkflow (env : Env) (workflowRunId : RunId) : Engine Unit := do
  let run ← getWorkflowRun workflowRunId
  if run.status ≠ .pending then
    pure ()
  else
    let resumedRun ← updateRunStatus workflowRunId .running
    emit (.runResumed workflowRunId resumedRun.workflow_id resumedRun.state_variables)
    match run.current_step_id with
    | none => pure ()
    | some stepId =>
        if stepId = "" then pure ()
        else do
          let definition ← loadWorkflowDefinition env run.workflow_id
          enqueueJob workflowRunId definition stepId

/-! ## Cancellation -/

/-- `cancelSingleRun`: whether the run was cancelled; a run that cannot be loaded or has ended is
skipped. -/
def cancelSingleRun (runId : RunId) (reason : String) : Engine Bool := do
  match ← findById runId with
  | none => pure false
  | some run =>
      if run.status.isTerminal then
        pure false
      else
        let cancelledRun ← updateRunStatus runId .cancelled
        emit (.runCancelled runId run.workflow_id cancelledRun.state_variables reason)
        await (.removeQueuedJobs runId)
        pure true

/-- The loop of `cancelRun` over the queue of runs. -/
def cancelRuns (reason : String) : Nat → List RunId → List RunId → Engine Unit
  | 0, _, _ => .fail .outOfFuel
  | _ + 1, [], _ => pure ()
  | fuel + 1, nextId :: queue, visited =>
      if nextId ∈ visited then
        cancelRuns reason fuel queue visited
      else do
        let cancelled ← cancelSingleRun nextId reason
        if !cancelled then
          cancelRuns reason fuel queue (nextId :: visited)
        else
          let children ← await (.findActiveChildRunsForParentRun nextId)
          cancelRuns reason fuel
            (queue ++ (children.map WorkflowRun.id).filter (· ∉ nextId :: visited))
            (nextId :: visited)

/-- `cancelRun`: the run and its active descendants. -/
def cancelRun (fuel : Nat) (runId : RunId) (reason : String) : Engine Unit :=
  cancelRuns reason fuel [runId] []

/-- `cancelUnactivatablePendingRun`. -/
def cancelUnactivatablePendingRun (runId : RunId) (reason : String) : Engine Unit := do
  match ← findById runId with
  | none => pure ()
  | some run =>
      if run.status ≠ .pending then
        pure ()
      else
        let now ← newDate
        updateRun runId (statusPatch run .cancelled now)
        emit (.runCancelled runId run.workflow_id run.state_variables reason)

/-! ## Reconciliation of queued runs -/

/-- `DEFAULT_STALE_RUN_GRACE_MS`, the grace window of a queued run. -/
def staleRunGraceMs : Nat := 5 * 60 * 1000

/-- `UNACTIVATABLE_PENDING_RUN_REASON`. -/
def unactivatablePendingRunReason : String :=
  "Queued run can never activate: no running scope owner and workflow missing or " ++
    "concurrency policy no longer queues (pending-run watchdog)"

/-- The text of the reason a queued run cannot be activated for. -/
def QueuedRunActivationReason.text : QueuedRunActivationReason → String
  | .noConcurrencyScope => "no_concurrency_scope"
  | .workflowUnresolvable => "workflow_unresolvable"
  | .concurrencyNotQueue => "concurrency_not_queue"
  | .noPendingRun => "no_pending_run"

/-- `isOlderThanGrace`. -/
def isOlderThanGrace (updatedAt now : Nat) : Bool :=
  updatedAt ≠ 0 && staleRunGraceMs ≤ now - updatedAt

/-- A queued run of the scope that is past the grace window is cancelled; an exception is caught. -/
def cancelIfUnactivatable (workflowId concurrencyScope reason : String) (now : Nat)
    (run : WorkflowRun) : Engine Unit := do
  if run.workflow_id = workflowId ∧ run.concurrency_scope = some concurrencyScope ∧
      isOlderThanGrace run.updated_at now then
    (cancelUnactivatablePendingRun run.id
      (unactivatablePendingRunReason ++ " (" ++ reason ++ ")")).handle fun _ => pure ()

/-- `cancelUnactivatableScope`. -/
def cancelUnactivatableScope (workflowId concurrencyScope reason : String) (now : Nat) :
    List WorkflowRun → Engine Unit
  | [] => pure ()
  | run :: rest => do
      cancelIfUnactivatable workflowId concurrencyScope reason now run
      cancelUnactivatableScope workflowId concurrencyScope reason now rest

/-- The loop of `reconcileOrphanedPendingRuns` over the queued runs, one run for every scope. -/
def reconcileScopes (env : Env) (pendingRuns : List WorkflowRun) (now : Nat) :
    List WorkflowRun → List String → Engine Unit
  | [], _ => pure ()
  | run :: rest, processedScopes => do
      match run.concurrency_scope with
      | none => reconcileScopes env pendingRuns now rest processedScopes
      | some concurrencyScope =>
          let scopeKey := run.workflow_id ++ ":" ++ concurrencyScope
          if run.workflow_id = "" ∨ concurrencyScope = "" ∨ scopeKey ∈ processedScopes then
            reconcileScopes env pendingRuns now rest processedScopes
          else do
            let processed := scopeKey :: processedScopes
            let runningRun ← await (.findOldestRunningByScope run.workflow_id concurrencyScope)
            match runningRun with
            | some _ => reconcileScopes env pendingRuns now rest processed
            | none => do
                let outcome ← tryActivateNextQueuedRun env none run.workflow_id
                  (some concurrencyScope)
                match outcome with
                | .activated _ => reconcileScopes env pendingRuns now rest processed
                | .notActivated reason => do
                    if isUnactivatablePendingReason reason then
                      cancelUnactivatableScope run.workflow_id concurrencyScope reason.text now
                        pendingRuns
                    reconcileScopes env pendingRuns now rest processed

/-- `reconcileOrphanedPendingRuns`. -/
def reconcileOrphanedPendingRuns (env : Env) : Engine Unit := do
  let pendingRuns ← await (.findByStatus .pending)
  if pendingRuns.isEmpty then
    pure ()
  else
    let now ← newDate
    reconcileScopes env pendingRuns now pendingRuns []

/-! ## The system of calls -/

/-- The calls of the engine, with the fuel of those that need some. -/
inductive EngineCall where
  | handleJobComplete (depth : Nat) (run : RunId) (jobId : String) (output : JsonRecord)
  | handleJobFailed (depth : Nat) (run : RunId) (jobId reason : String)
  | cancelRun (fuel : Nat) (run : RunId) (reason : String)
  | pauseWorkflow (run : RunId)
  | resumeWorkflow (run : RunId)
  | cancelUnactivatablePendingRun (run : RunId) (reason : String)
  | tryActivateNextQueuedRun (completedRun : Option RunId) (workflowId : String)
      (concurrencyScope : Option String)
  | startWorkflow (fuel : Nat) (workflowId : String) (triggerData : JsonRecord)
  | reconcileOrphanedPendingRuns
  /-- The worker of the step queue is done with a job. -/
  | stepFinished (id : QueueJobId)

/-- Drops the value of a program. -/
def Engine.discard {α : Type} (p : Engine α) : Engine Unit := p.bind fun _ => .pure ()

/-- The program of a call. -/
def EngineCall.program (env : Env) : EngineCall → Engine Unit
  | .handleJobComplete depth run jobId output => Nexus.handleJobComplete env depth run jobId output
  | .handleJobFailed depth run jobId reason =>
      Engine.discard (Nexus.handleJobFailed env depth run jobId reason)
  | .cancelRun fuel run reason => Nexus.cancelRun fuel run reason
  | .pauseWorkflow run => Nexus.pauseWorkflow run
  | .resumeWorkflow run => Nexus.resumeWorkflow env run
  | .cancelUnactivatablePendingRun run reason => Nexus.cancelUnactivatablePendingRun run reason
  | .tryActivateNextQueuedRun completedRun workflowId concurrencyScope =>
      Engine.discard
        (Nexus.tryActivateNextQueuedRun env completedRun workflowId concurrencyScope)
  | .startWorkflow fuel workflowId triggerData =>
      Engine.discard (Nexus.startWorkflow env (Nexus.cancelRun fuel) workflowId triggerData)
  | .reconcileOrphanedPendingRuns => Nexus.reconcileOrphanedPendingRuns env
  | .stepFinished id => await (.stepQueueFinish id)

/-- Configurations of the system: calls are numbered. -/
abbrev System := Config Nat Op Op.Ans EngineError Unit World

/-- The system before the first step of any call. -/
def System.init (env : Env) (w : World) (calls : Nat → EngineCall) : System :=
  Pool.start w fun t => (calls t).program env

/-- Reachability of the system under a condition on the steps. -/
abbrev System.Reach (cond : System → Nat → Op → Prop) : System → System → Prop :=
  Pool.Reach store cond

end Nexus
