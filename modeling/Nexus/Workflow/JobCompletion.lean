import Nexus.Workflow.JobExecution

/-!
# The completion of a job

`JobCompletionHandler`: the guards of a completion, the record of the job, the next job along a
transition or along the levels of the graph, and the end of a run all of whose jobs are completed.
The reaction to a tripped loop guard is a parameter, as in the handler's `deps`.
-/

set_option autoImplicit false

namespace Nexus

/-- What a run parked on a wait does with the end of an agent's turn. -/
inductive ParkedTurnEndAction where
  | suspend
  | complete
  deriving DecidableEq, Repr

/-- `hasPersistedJobOutput`: an object with at least one key. -/
def hasPersistedJobOutput (workflowRunId : RunId) (jobId : String) : Engine Bool := do
  let value ← getVariable workflowRunId (StateKey.output jobId).path
  pure (((value.bind spreadFields?).getD []).length > 0)

/-- `resolveParkedTurnEnd`: a run waiting for a dependency suspends; a run awaiting an answer
completes only when the job has persisted an output, and then clears the stale question. -/
def resolveParkedTurnEnd (run : WorkflowRun) (jobId : String) : Engine ParkedTurnEndAction := do
  if run.wait_reason.getD "" ≠ "" then
    pure .suspend
  else if !run.awaiting_input then
    pure .complete
  else
    let completedWithOutput ← hasPersistedJobOutput run.id jobId
    if !completedWithOutput then
      pure .suspend
    else
      await (.cancelOpenAwaits run.id)
      await (.setAwaitingInput run.id false)
      pure .complete

namespace JobCompletionHandler

/-- `gateCompletion`: the run exists and is RUNNING, the turn is not parked, and the completion is
claimed for the first time. -/
def gateCompletion (workflowRunId : RunId) (jobId : String) : Engine (Option WorkflowRun) := do
  match ← findById workflowRunId with
  | none => pure none
  | some run =>
      if run.status ≠ .running then
        pure none
      else
        let action ← resolveParkedTurnEnd run jobId
        if action = .suspend then
          pure none
        else
          let claimed ← tryMarkJobCompleted workflowRunId jobId
          if !claimed then pure none else pure (some run)

def recordJobCompletion (workflowRunId : RunId) (run : WorkflowRun) (jobId : String)
    (output : JsonRecord) : Engine Unit := do
  markJobCompleted workflowRunId jobId output
  deleteVariable workflowRunId (autoRetryEntryPath jobId)
  emit (.jobCompleted workflowRunId run.workflow_id jobId (.obj output))

/-- The message of a tripped loop guard. -/
def maxLoopMessage (jobId nextJobId : String) : String :=
  "max_loop_iterations: " ++ jobId ++ " -> " ++ nextJobId

/-- `resolveNextJobId`: `none` when the loop guard tripped, else the target of a transition. -/
def resolveNextJobId (env : Env) (reportMaxLoopIterations : RunId → String → String → Engine Unit)
    (workflowRunId : RunId) (job : IJob) (jobId : String) : Engine (Option (Option String)) :=
  ((resolveTransitionTarget env workflowRunId job jobId).bind fun next => .pure (some next)).handle
    fun error =>
      match error with
      | .maxLoopIterations j n => do
          reportMaxLoopIterations workflowRunId jobId (maxLoopMessage j n)
          pure none
      | e => .fail e

/-- `tryAdvanceToNextJob`: whether the job is to be enqueued; a job that its needs or its condition
rule out is skipped. -/
def tryAdvanceToNextJob (env : Env) (workflowRunId : RunId) (definition : IWorkflowDefinition)
    (nextJobId : String) : Engine Bool :=
  match definition.findJob nextJobId with
  | none => pure false
  | some nextDef => do
      let allDependenciesCompleted ← areDependenciesCompleted workflowRunId definition nextDef
      if !allDependenciesCompleted then
        skipStrictJobWhenDependencyResultsBlock workflowRunId definition nextDef
        pure false
      else
        let holds ← conditionHolds env workflowRunId nextDef
        if !holds then
          markJobSkipped workflowRunId nextJobId "condition_false"
          pure false
        else
          pure true

/-- The loop over the jobs of a level; it returns the first job found eligible. -/
def advanceJobs (env : Env) (workflowRunId : RunId) (definition : IWorkflowDefinition) :
    List String → Option String → Engine (Option String)
  | [], firstEligibleNextJob => pure firstEligibleNextJob
  | nextJobId :: rest, firstEligibleNextJob => do
      let selected ← tryAdvanceToNextJob env workflowRunId definition nextJobId
      if !selected then
        advanceJobs env workflowRunId definition rest firstEligibleNextJob
      else
        enqueueJob workflowRunId definition nextJobId
        advanceJobs env workflowRunId definition rest (firstEligibleNextJob <|> some nextJobId)

def enqueueEligibleDagNextJobs (env : Env) (workflowRunId : RunId)
    (definition : IWorkflowDefinition) (nextJobs : List String) : Engine Unit := do
  let firstEligibleNextJob ← advanceJobs env workflowRunId definition nextJobs none
  match firstEligibleNextJob with
  | none => pure ()
  | some jobId => updateRun workflowRunId { current_step_id := some jobId }

/-- The loop over the levels above the completed job. -/
def advanceLevels (env : Env) (workflowRunId : RunId) (definition : IWorkflowDefinition) :
    List (List String) → Engine Unit
  | [] => pure ()
  | group :: groups => do
      enqueueEligibleDagNextJobs env workflowRunId definition group
      advanceLevels env workflowRunId definition groups

/-- `completeWorkflowRun`: the terminal write, its event, and the hand-over of the scope. -/
def completeWorkflowRun (env : Env) (workflowRunId : RunId) (definition : IWorkflowDefinition) :
    Engine Unit := do
  let found ← findById workflowRunId
  match found with
  | none => do
      updateRun workflowRunId { status := some .completed }
      emit (.runCompleted workflowRunId definition.workflow_id Json.empty)
  | some run => do
      let now ← newDate
      updateRun workflowRunId (statusPatch run .completed now)
      emit (.runCompleted workflowRunId definition.workflow_id run.state_variables)
      let _ ← tryActivateNextQueuedRun env (some workflowRunId) run.workflow_id
        run.concurrency_scope
      pure ()

/-- `progressDagOrComplete`: the levels above the completed job, then the end of the run when every
job is completed. -/
def progressDagOrComplete (env : Env) (workflowRunId : RunId) (definition : IWorkflowDefinition)
    (completedJobId : String) : Engine Unit := do
  let groups ← orBadRequest (parallelGroups definition.jobList)
  match findJobLevel groups completedJobId with
  | none => pure ()
  | some currentLevel =>
      advanceLevels env workflowRunId definition (groups.drop (currentLevel + 1))
  let allJobsCompleted ← areAllJobsCompleted workflowRunId definition.jobList
  if allJobsCompleted then
    completeWorkflowRun env workflowRunId definition

def dispatchNext (env : Env) (reportMaxLoopIterations : RunId → String → String → Engine Unit)
    (workflowRunId : RunId) (jobId : String) (job : IJob) (definition : IWorkflowDefinition) :
    Engine Unit := do
  match ← resolveNextJobId env reportMaxLoopIterations workflowRunId job jobId with
  | none => pure ()
  | some none => progressDagOrComplete env workflowRunId definition jobId
  | some (some nextJobId) => enqueueTransitionJob env workflowRunId definition jobId nextJobId

/-- The handling of an accepted completion: the record and the next job. -/
def finishJob (env : Env) (reportMaxLoopIterations : RunId → String → String → Engine Unit)
    (run : WorkflowRun) (workflowRunId : RunId) (jobId : String) (output : JsonRecord) :
    Engine Unit := do
  let definition ← loadWorkflowDefinition env run.workflow_id
  match definition.findJob jobId with
  | none => pure ()
  | some job => do
      recordJobCompletion workflowRunId run jobId output
      dispatchNext env reportMaxLoopIterations workflowRunId jobId job definition

/-- `handle`. -/
def handle (env : Env) (reportMaxLoopIterations : RunId → String → String → Engine Unit)
    (workflowRunId : RunId) (jobId : String) (output : JsonRecord) : Engine Unit := do
  match ← gateCompletion workflowRunId jobId with
  | none => pure ()
  | some run => finishJob env reportMaxLoopIterations run workflowRunId jobId output

end JobCompletionHandler

end Nexus
