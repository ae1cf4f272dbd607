import Nexus.Workflow.Dag
import Nexus.Workflow.JobState
import Mathlib

/-!
# Job execution

The functions both job handlers share (`workflow-run-job-execution.utils.ts`,
`workflow-run-job-execution.service.ts`): putting a job on the step queue, choosing and taking a
transition, and handing a concurrency scope to the oldest queued run.
-/

set_option autoImplicit false

namespace Nexus

/-! ## Enqueueing -/

/-- `enqueueJob`: the flag of the job is claimed before it is put on the step queue. -/
def enqueueJob (workflowRunId : RunId) (definition : IWorkflowDefinition) (jobId : String) :
    Engine Unit :=
  match definition.findJob jobId with
  | none => pure ()
  | some job => do
      let claimed ← tryMarkJobQueued workflowRunId jobId
      if claimed then
        await (.stepQueueAdd
          { queueJobId := buildWorkflowStepQueueJobId workflowRunId jobId
            workflowRunId := workflowRunId, jobId := jobId, job := job })
        emit (.jobQueued workflowRunId definition.workflow_id jobId)

/-- Enqueues several jobs after each other. -/
def enqueueJobs (workflowRunId : RunId) (definition : IWorkflowDefinition) :
    List String → Engine Unit
  | [] => pure ()
  | jobId :: rest => do
      enqueueJob workflowRunId definition jobId
      enqueueJobs workflowRunId definition rest

/-! ## Reachable jobs -/

/-- Adds a job to the dependents of its needs. -/
def pushDependents (m : DependencyGraph) (job : IJob) : Except String DependencyGraph := do
  let needs ← normalizeWorkflowJobNeeds job
  .ok (needs.foldl (fun m need => DAGResolverService.pushDependent m need.id job.id) m)

def buildDependentsByJob (jobs : List IJob) : Except String DependencyGraph :=
  jobs.foldlM pushDependents (jobs.foldl (fun m job => OrderedMap.set m job.id []) [])

/-- The ids queued after a job is visited: its dependents, then its transition targets. -/
def reachableNeighbors (jobs : List IJob) (dependentsByJob : DependencyGraph)
    (visited : List String) (current : String) : List String :=
  ((dependentsByJob.get? current).getD []).filter (· ∉ visited) ++
    match jobs.find? fun j => j.id = current with
    | none => []
    | some currentJob =>
        (currentJob.transitionList.map IWorkflowTransition.next).filter fun next =>
          next ≠ "" ∧ next ∉ visited

/-- The loop over the queue. -/
def walkReachableJobs (jobs : List IJob) (dependentsByJob : DependencyGraph) :
    Nat → List String → List String → List String
  | 0, _, visited => visited
  | _ + 1, [], visited => visited
  | fuel + 1, current :: queue, visited =>
      if current = "" ∨ current ∈ visited then
        walkReachableJobs jobs dependentsByJob fuel queue visited
      else
        walkReachableJobs jobs dependentsByJob fuel
          (queue ++ reachableNeighbors jobs dependentsByJob (current :: visited) current)
          (current :: visited)

/-- A bound on the ids that are ever queued. -/
def reachableFuel (jobs : List IJob) (dependentsByJob : DependencyGraph) : Nat :=
  (dependentsByJob.map fun e => e.2.length).sum +
    (jobs.map fun j => j.transitionList.length).sum + 2

/-- `collectReachableJobs`: everything downstream of a job, along needs and transitions. -/
def collectReachableJobs (jobs : List IJob) (startJobId : String) :
    Except String (List String) := do
  let dependentsByJob ← buildDependentsByJob jobs
  .ok (walkReachableJobs jobs dependentsByJob (reachableFuel jobs dependentsByJob) [startJobId] [])

/-! ## Transitions -/

/-- `value || 0` for a loop counter. -/
def toLoopCount (value : Option Json) : Json :=
  if isTruthy value then value.getD (.num 0) else .num 0

/-- `currentLoops >= 10`; only numbers are ever stored, and a text or a record compares as `NaN`. -/
def isLoopLimitReached : Json → Bool
  | .num n => 10 ≤ n
  | _ => false

/-- `currentLoops + 1`; a text or a record is concatenated. -/
def nextLoopCount : Json → Json
  | .num n => .num (n + 1)
  | .str s => .str (s ++ "1")
  | .obj _ => .str "[object Object]1"
  | .bool b => .num (if b then 2 else 1)
  | .null => .num 1
  | .arr _ => .str "1"

/-- `resolveTransitionTarget`: the target of the first satisfied transition, with the loop guard of
the pair of jobs; no target is `none`. -/
def resolveTransitionTarget (env : Env) (workflowRunId : RunId) (job : IJob) (jobId : String) :
    Engine (Option String) := do
  let updatedRun ← findById workflowRunId
  let context := match updatedRun with
    | none => Json.empty
    | some run => run.state_variables
  match evaluateTransition env job.transitionList context with
  | .error message => .fail (.failure message)
  | .ok none => pure none
  | .ok (some nextJobId) =>
      if nextJobId = "" then pure none
      else do
        let loopCountKey := (StateKey.loops jobId nextJobId).path
        let currentLoops ← getVariable workflowRunId loopCountKey
        if isLoopLimitReached (toLoopCount currentLoops) then
          .fail (.maxLoopIterations jobId nextJobId)
        else do
          setVariable workflowRunId loopCountKey (nextLoopCount (toLoopCount currentLoops))
          pure (some nextJobId)

/-- The reason a job outside the selected branch is skipped with. -/
def branchNotSelected (jobId nextJobId : String) : String :=
  "branch_not_selected:" ++ jobId ++ "->" ++ nextJobId

/-- One other job: a job outside the selected branch is skipped, and the flags of a job inside it
that is not completed are reset. -/
def pruneBranch (workflowRunId : RunId) (jobId nextJobId : String)
    (selectedBranchJobs : List String) (candidate : IJob) : Engine Unit := do
  if candidate.id ≠ jobId then
    if candidate.id ∉ selectedBranchJobs then
      setVariable workflowRunId (StateKey.queued candidate.id).path (.bool true)
      markJobSkipped workflowRunId candidate.id (branchNotSelected jobId nextJobId)
    else if candidate.id ≠ nextJobId then
      let completed ← getVariable workflowRunId (StateKey.completed candidate.id).path
      if !isTrue completed then
        setVariable workflowRunId (StateKey.queued candidate.id).path (.bool false)
        setVariable workflowRunId (StateKey.completed candidate.id).path (.bool false)

/-- The pass over the jobs of the definition. -/
def pruneBranches (workflowRunId : RunId) (jobId nextJobId : String)
    (selectedBranchJobs : List String) : List IJob → Engine Unit
  | [] => pure ()
  | candidate :: rest => do
      pruneBranch workflowRunId jobId nextJobId selectedBranchJobs candidate
      pruneBranches workflowRunId jobId nextJobId selectedBranchJobs rest

/-- The condition of a transition target; a target the definition does not have has none. -/
def targetConditionHolds (env : Env) (workflowRunId : RunId) (definition : IWorkflowDefinition)
    (nextJobId : String) : Engine Bool :=
  match definition.findJob nextJobId with
  | none => pure true
  | some nextDef => conditionHolds env workflowRunId nextDef

def enqueueTransitionJob (env : Env) (workflowRunId : RunId) (definition : IWorkflowDefinition)
    (jobId nextJobId : String) : Engine Unit := do
  let selectedBranchJobs ← orBadRequest (collectReachableJobs definition.jobList nextJobId)
  pruneBranches workflowRunId jobId nextJobId selectedBranchJobs definition.jobList
  let holds ← targetConditionHolds env workflowRunId definition nextJobId
  if holds then
    updateRun workflowRunId { current_step_id := some nextJobId }
    enqueueJob workflowRunId definition nextJobId
  else
    markJobSkipped workflowRunId nextJobId "condition_false"

/-! ## Queued runs -/

inductive QueuedRunActivationReason where
  | noConcurrencyScope
  | workflowUnresolvable
  | concurrencyNotQueue
  | noPendingRun
  deriving DecidableEq, Repr

inductive QueuedRunActivationOutcome where
  | activated (runId : RunId)
  | notActivated (reason : QueuedRunActivationReason)
  deriving DecidableEq, Repr

/-- `isUnactivatablePendingReason`. -/
def isUnactivatablePendingReason : QueuedRunActivationReason → Bool
  | .workflowUnresolvable => true
  | .concurrencyNotQueue => true
  | .noConcurrencyScope => false
  | .noPendingRun => false

/-- What an activation goes on with: the definition and the oldest queued run. -/
inductive QueuedRunActivationContext where
  | ready (definition : IWorkflowDefinition) (pendingRun : WorkflowRun)
  | notReady (reason : QueuedRunActivationReason)

/-- `resolveQueuedRunActivationContext`. -/
def resolveQueuedRunActivationContext (env : Env) (workflowId scope : String) :
    Engine QueuedRunActivationContext :=
  match env.findByIdentifier workflowId with
  | none => pure (.notReady .workflowUnresolvable)
  | some workflow =>
      match env.parseWorkflow workflow.yaml_definition with
      | .error message => .fail (.failure message)
      | .ok definition =>
          if (definition.concurrency.bind IConcurrencyPolicy.on_conflict) ≠ some .queue then
            pure (.notReady .concurrencyNotQueue)
          else do
            let pendingRun ← await (.findOldestPendingByScope workflowId scope)
            match pendingRun with
            | none => pure (.notReady .noPendingRun)
            | some run => pure (.ready definition run)

/-- The patch of a transition of a run that was read before. -/
def statusPatch (current : WorkflowRun) (status : WorkflowStatus) (now : Nat) : RunPatch :=
  { buildRunStatusTimestampPatch current status now with status := some status }

/-- `enqueueFirstQueuedRunJobs`: the first parallel group, or the end of a run without jobs. -/
def enqueueFirstQueuedRunJobs (pendingRun : WorkflowRun) (definition : IWorkflowDefinition) :
    Engine Unit := do
  let groups ← orBadRequest (parallelGroups definition.jobList)
  match groups.headD [] with
  | first :: rest => do
      updateRun pendingRun.id { current_step_id := some first }
      enqueueJobs pendingRun.id definition (first :: rest)
  | [] => do
      let now ← newDate
      updateRun pendingRun.id (statusPatch pendingRun .completed now)
      emit (.runCompleted pendingRun.id "" pendingRun.state_variables)

/-- `tryActivateNextQueuedRun`, called for the run that ended or, by the reconciliation, for a scope
only. -/
def tryActivateNextQueuedRun (env : Env) (completedRun : Option RunId) (workflowId : String)
    (concurrencyScope : Option String) : Engine QueuedRunActivationOutcome := do
  await (.activationCall completedRun)
  match concurrencyScope with
  | none => pure (.notActivated .noConcurrencyScope)
  | some scope =>
      if scope = "" then pure (.notActivated .noConcurrencyScope)
      else do
        let context ← resolveQueuedRunActivationContext env workflowId scope
        match context with
        | .notReady reason => pure (.notActivated reason)
        | .ready definition pendingRun => do
            let now ← newDate
            updateRun pendingRun.id (statusPatch pendingRun .running now)
            emit (.runActivatedFromQueue pendingRun.id)
            enqueueFirstQueuedRunJobs pendingRun definition
            pure (.activated pendingRun.id)

end Nexus
