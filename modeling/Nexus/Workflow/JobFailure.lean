import Nexus.Workflow.JobCompletion

/-!
# The failure of a job

`JobFailureHandler`: the guards of a failure, the salvage of a persisted output, the retry policy
(`scheduleWorkflowAutoRetry`), and the terminal failure of the run. The service ties the two
handlers to each other: a tripped loop guard is reported as a failure, and a salvaged output
completes the job. The depth of that recursion is the fuel of `handleJobComplete`.
-/

set_option autoImplicit false

namespace Nexus

/-- Whether the text occurs in the characters. -/
def includesChars (pat : List Char) : List Char → Bool
  | [] => pat.isEmpty
  | c :: cs => pat.isPrefixOf (c :: cs) || includesChars pat cs

/-- `s.includes(pat)`. -/
def includesText (s pat : String) : Bool := includesChars pat.toList s.toList

/-- `s.toLowerCase()` of letters `A` to `Z`. -/
def toLowerCase (s : String) : String := String.ofList (s.toList.map Char.toLower)

/-- The alternatives of `AGENT_TRANSPORT_TIMEOUT_PATTERN`, which ignores the case. -/
def transportTimeoutMarkers : List String :=
  ["http post timed out", "socket hang up", "econnreset", "econnrefused", "etimedout",
    "gateway timeout", "504"]

def matchesTransportTimeout (reason : String) : Bool :=
  transportTimeoutMarkers.any (includesText (toLowerCase reason))

/-- `NON_RETRYABLE_FAILURE_MARKERS`. -/
def nonRetryableFailureMarkers : List String :=
  ["missing_subtasks", "missing_plan", "split_pending", "war_room_incomplete",
    "requires subtask_blueprint", "context exit readiness failed", "exit readiness failed",
    "invalid workflow yaml", "workflow validation failed", "workflow definition is invalid",
    "permission denied", "unauthorized", "forbidden", "policy denied", "not allowed",
    "tool is not available", "tool is denied", "tool publication status is",
    "current orchestration mode denies", "denied by a dynamic approval rule",
    "output_contract.required must be", "output contract missing required field(s)",
    "output_contract fields [", "max retries (", "set_job_output is not callable",
    "validation failed", "bad request", "invalid argument", "missing required parameter",
    "requires updates.subtask_id", "invalid status transition",
    "decision is not launchable: conflict_key_active", "author identity unknown",
    "unable to auto-detect email address", "max_loop_iterations",
    "failed at step fail_workflow", "container health check timed out",
    "cannot continue from message role"]

def isNonRetryableWorkflowFailure (reason : String) : Bool :=
  nonRetryableFailureMarkers.any (includesText (toLowerCase reason))

/-! ## The retry policy -/

/-- `toRetryAttemptNumber`. -/
def toRetryAttemptNumber : Option Json → Nat
  | some (.num n) => n.toNat
  | some (.str s) => ((Json.arrayIndex? s).getD 0).toNat
  | _ => 0

/-- `applyHealthCheckCircuitBreaker`: no retry on the second health check timeout. -/
def applyHealthCheckCircuitBreaker (workflowRunId : RunId) (jobId : String) : Engine Bool := do
  let alreadyFailed ← getVariable workflowRunId (StateKey.healthCheckFailed jobId).path
  if isTruthy alreadyFailed then
    pure false
  else
    setVariable workflowRunId (StateKey.healthCheckFailed jobId).path (.bool true)
    pure true

/-- `resolveRetryAttempt`: the attempts so far, unless they or the time are used up. -/
def resolveRetryAttempt (env : Env) (workflowRunId : RunId) (jobId reasonCode : String)
    (firstFailureAt : Option String) : Engine (Option Nat) := do
  let value ← getVariable workflowRunId (StateKey.retryAttempt jobId).path
  let currentAttempt := toRetryAttemptNumber value
  if reasonCode = "provider_rate_limit_429" then
    match firstFailureAt.bind env.parseDate with
    | none => pure (some currentAttempt)
    | some since => do
        let now ← newDate
        pure (if env.retry.maxDurationMs ≤ now - since then none else some currentAttempt)
  else if env.retry.maxAttempts ≤ currentAttempt then
    pure none
  else
    pure (some currentAttempt)

/-- The text of a queue job's id of an automatic retry. -/
def autoRetryQueueJobIdText (id : QueueJobId) : String :=
  "auto-retry-" ++ toString id.run ++ "-" ++ id.job

/-- `enqueueRetryJob`. -/
def enqueueRetryJob (env : Env) (workflowRunId : RunId) (job : IJob)
    (jobId reason reasonCode : String) (nextAttempt now : Nat) (firstFailureAt : String) :
    Engine Unit := do
  let retryQueueJobId := buildAutoRetryQueueJobId workflowRunId jobId
  let delayMs := env.retry.delayMs nextAttempt reason
  setVariable workflowRunId (StateKey.retryAttempt jobId).path (.num nextAttempt)
  setVariable workflowRunId (StateKey.retryFirstFailureAt jobId).path (.str firstFailureAt)
  setVariable workflowRunId (StateKey.retryLastFailure jobId).path
    (.obj [("reason", .str reason), ("message", .str reason), ("reasonCode", .str reasonCode),
      ("delayMs", .num delayMs), ("nextRetryAt", .str (env.toISOString (now + delayMs))),
      ("firstFailureAt", .str firstFailureAt), ("attempt", .num nextAttempt),
      ("retryQueueJobId", .str (autoRetryQueueJobIdText retryQueueJobId))])
  updateRun workflowRunId { current_step_id := some jobId }
  await (.stepQueueAdd
    { queueJobId := retryQueueJobId, workflowRunId := workflowRunId, jobId := jobId, job := job,
      autoRetryAttempt := some nextAttempt })

/-- `scheduleWorkflowAutoRetry`: whether a retry was put on the queue. -/
def scheduleWorkflowAutoRetry (env : Env) (run : WorkflowRun) (jobId reason : String) :
    Engine Bool := do
  let (reasonCode, allowWhenDisabled) := env.retry.decision reason
  if !env.retry.enabled && !allowWhenDisabled then
    pure false
  else
    let firstFailure ← getVariable run.id (StateKey.retryFirstFailureAt jobId).path
    let firstFailureAt := match firstFailure with
      | some (.str s) => some s
      | _ => none
    let definition ← loadWorkflowDefinition env run.workflow_id
    match definition.findJob jobId with
    | none => pure false
    | some job => do
        let attempt ← resolveRetryAttempt env run.id jobId reasonCode firstFailureAt
        match attempt with
        | none => pure false
        | some currentAttempt => do
            let inFlight ← await .countAutoRetryJobs
            if env.retry.maxInFlight ≤ inFlight then
              pure false
            else
              let now ← newDate
              enqueueRetryJob env run.id job jobId reason reasonCode (currentAttempt + 1) now
                (firstFailureAt.getD (env.toISOString now))
              emit (.runRetryScheduled run.id run.workflow_id jobId (currentAttempt + 1) reason)
              pure true

inductive JobFailureOutcome where
  | ignored
  | retryScheduled
  | failed
  | salvaged
  deriving DecidableEq, Repr

namespace JobFailureHandler

/-- `loadRunOrIgnore`: the run, when it is RUNNING. -/
def loadRunOrIgnore (workflowRunId : RunId) : Engine (Option WorkflowRun) := do
  match ← findById workflowRunId with
  | none => pure none
  | some run => if run.status ≠ .running then pure none else pure (some run)

/-- `findSalvageableOutput`: the persisted output of a job whose transport timed out. -/
def findSalvageableOutput (workflowRunId : RunId) (jobId : String) (isTransportTimeout : Bool) :
    Engine (Option JsonRecord) := do
  if !isTransportTimeout then
    pure none
  else
    let output ← getVariable workflowRunId (StateKey.output jobId).path
    if !isTruthy output then
      pure none
    else
      let persisted ← hasPersistedJobOutput workflowRunId jobId
      if !persisted then pure none else pure (output.bind spreadFields?)

/-- `isIdleQuestionTeardownTimeout`. -/
def isIdleQuestionTeardownTimeout (isTransportTimeout : Bool) (run : WorkflowRun) :
    Engine Bool := do
  if !isTransportTimeout || !run.awaiting_input then
    pure false
  else
    await (.findOpenAwait run.id)

/-- `clearOrphanedQuestionStateOnRetry`. -/
def clearOrphanedQuestionStateOnRetry (run : WorkflowRun) : Engine Unit := do
  if run.awaiting_input then
    await (.cancelOpenAwaits run.id)
    await (.setAwaitingInput run.id false)

/-- `hasPendingAutoRetry`: a failure marker with the date of the next retry. -/
def hasPendingAutoRetry (env : Env) (workflowRunId : RunId) (jobId : String) : Engine Bool := do
  let retryMarker ← getVariable workflowRunId (StateKey.retryLastFailure jobId).path
  match (readRecord retryMarker).get? "nextRetryAt" with
  | some (.str nextRetryAt) => pure (env.parseDate nextRetryAt).isSome
  | _ => pure false

def tryScheduleRetry (env : Env) (workflowRunId : RunId) (jobId : String) (run : WorkflowRun)
    (reason : String) : Engine Bool := do
  if isNonRetryableWorkflowFailure reason then
    pure false
  else
    let shouldRetry ←
      if includesText reason "Container health check timed out" then
        applyHealthCheckCircuitBreaker workflowRunId jobId
      else pure true
    if !shouldRetry then
      pure false
    else
      scheduleWorkflowAutoRetry env run jobId reason

/-- The reason a run fails with. -/
def failureReason (reason : String) : String := "job_failed_after_retries: " ++ reason

/-- `failRun`: the terminal write, its event, the purge of the queue, and the hand-over of the
scope. -/
def failRun (env : Env) (workflowRunId : RunId) (jobId : String) (run : WorkflowRun)
    (reason : String) : Engine JobFailureOutcome := do
  deleteVariable workflowRunId (autoRetryEntryPath jobId)
  let now ← newDate
  updateRun workflowRunId (statusPatch run .failed now)
  emit (.runFailed workflowRunId run.workflow_id run.state_variables jobId (failureReason reason))
  await (.removeQueuedJobs workflowRunId)
  let _ ← tryActivateNextQueuedRun env (some workflowRunId) run.workflow_id run.concurrency_scope
  pure .failed

/-- `handle`. -/
def handle (env : Env) (completeJob : RunId → String → JsonRecord → Engine Unit)
    (workflowRunId : RunId) (jobId reason : String) : Engine JobFailureOutcome := do
  match ← loadRunOrIgnore workflowRunId with
  | none => pure .ignored
  | some run => do
      let isTransportTimeout := matchesTransportTimeout reason
      let salvagedOutput ← findSalvageableOutput workflowRunId jobId isTransportTimeout
      match salvagedOutput with
      | some output => do
          completeJob workflowRunId jobId output
          pure .salvaged
      | none => do
          let idle ← isIdleQuestionTeardownTimeout isTransportTimeout run
          if idle then
            pure .ignored
          else
            let pending ← hasPendingAutoRetry env workflowRunId jobId
            if pending then
              pure .retryScheduled
            else
              let retryScheduled ← tryScheduleRetry env workflowRunId jobId run reason
              if retryScheduled then
                clearOrphanedQuestionStateOnRetry run
                pure .retryScheduled
              else
                failRun env workflowRunId jobId run reason

end JobFailureHandler

/-- `reportMaxLoopIterationsInternal`. -/
def reportMaxLoopIterations (env : Env) (completeJob : RunId → String → JsonRecord → Engine Unit)
    (workflowRunId : RunId) (jobId reason : String) : Engine Unit := do
  let _ ← JobFailureHandler.handle env completeJob workflowRunId jobId reason
  pure ()

/-- `handleJobComplete`, with the depth of the recursion through the two handlers. -/
def handleJobComplete (env : Env) : Nat → RunId → String → JsonRecord → Engine Unit
  | 0 => JobCompletionHandler.handle env (reportMaxLoopIterations env fun _ _ _ => .fail .outOfFuel)
  | depth + 1 =>
      JobCompletionHandler.handle env
        (reportMaxLoopIterations env (handleJobComplete env depth))

/-- `handleJobFailed`. -/
def handleJobFailed (env : Env) (depth : Nat) (workflowRunId : RunId) (jobId reason : String) :
    Engine JobFailureOutcome :=
  JobFailureHandler.handle env (handleJobComplete env depth) workflowRunId jobId reason

end Nexus
