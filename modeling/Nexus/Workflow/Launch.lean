import Nexus.Workflow.JobFailure

/-!
# The launch of a run

`WorkflowEngineLaunchOrchestratorService` with the services behind it: the deduplication of launches
(`WorkflowLaunchDedupeService`, `workflow-engine.utils.ts`), the concurrency policy
(`ConcurrencyPolicyService`), and the two ways a run is created, started at once or queued
(`WorkflowConcurrencyManager`). The launch under a `cancel_running` policy cancels a run through a
parameter.
-/

set_option autoImplicit false

namespace Nexus

/-! ## Deduplication -/

/-- `readString(data[fieldName])`. -/
def readStringField (data : JsonRecord) (fieldName : String) : Option String :=
  match data.get? fieldName with
  | some (.str s) => some s
  | _ => none

namespace WorkflowLaunchDedupeService

def resolveLaunchDedupeKey (triggerData : JsonRecord) : Option String :=
  let nested := match triggerData.get? "payload" with
    | some (.obj payload) => readStringField payload "dedupeKey"
    | _ => none
  match readStringField triggerData "dedupeKey" <|> nested with
  | none => none
  | some dedupeKey => if isNonEmptyString dedupeKey then some (jsTrim dedupeKey) else none

/-- The trigger data with the launch key installed. -/
def prepareTriggerData (triggerData : JsonRecord) : JsonRecord :=
  match resolveLaunchDedupeKey triggerData with
  | none => triggerData
  | some launchDedupeKey =>
      if readStringField triggerData "dedupeKey" = some launchDedupeKey then triggerData
      else OrderedMap.set triggerData "dedupeKey" (.str launchDedupeKey)

def lockKey (workflowId launchDedupeKey : String) : String :=
  "workflow-launch:" ++ workflowId ++ ":" ++ launchDedupeKey

def findExistingRun (workflowId launchDedupeKey : String) : Engine (Option WorkflowRun) :=
  await (.findLatestByWorkflowAndDedupeKey workflowId launchDedupeKey)

/-- The run another launch created under the same key. -/
def recoverExistingRunIdAfterDuplicate (workflowId : String) (launchDedupeKey : Option String) :
    Engine RunId :=
  match launchDedupeKey with
  | none => .fail .database
  | some key => do
      let existing ← findExistingRun workflowId key
      match existing with
      | none => .fail .database
      | some run => pure run.id

end WorkflowLaunchDedupeService

/-- `getString`: a nonempty text, trimmed. -/
def getString (value : JsonRecord) (key : String) : Option String :=
  match value.get? key with
  | some (.str s) => if isNonEmptyString s then some (jsTrim s) else none
  | _ => none

/-- `getRecord`: an object; the fields of an array are its indices. -/
def getRecord (value : JsonRecord) (key : String) : Option JsonRecord :=
  (value.get? key).bind spreadFields?

/-- `resolveTriggerDedupeContext`. -/
def resolveTriggerDedupeContext (triggerData : JsonRecord) : Option TriggerDedupeContext := do
  let resource := ((getRecord triggerData "resource" <|> getRecord triggerData "context").getD [])
  let event ← getString triggerData "event"
  let scopeId ← getString triggerData "scopeId" <|> getString resource "scopeId"
  let contextId ← getString triggerData "contextId" <|> getString resource "id"
  let status ← getString triggerData "status" <|> getString resource "status"
  some ⟨event, scopeId, contextId, status⟩

/-- `buildStartDedupeKey`. -/
def buildStartDedupeKey (workflowId : String) (context : TriggerDedupeContext) : String :=
  workflowId ++ ":" ++ context.event ++ ":" ++ context.scopeId ++ ":" ++ context.contextId ++ ":" ++
    context.status

/-! ## The concurrency policy -/

namespace ConcurrencyPolicyService

/-- The path of a scope written as a template; any other scope is kept. -/
def normalizeScopeExpression (scope : String) : String :=
  let cs := trimChars scope.toList
  let inner := (cs.drop 2).take (cs.length - 4)
  if 5 ≤ cs.length ∧ cs.take 2 = ['\x7b', '\x7b'] ∧ cs.drop (cs.length - 2) = ['\x7d', '\x7d'] ∧
      '\x7d' ∉ inner then
    String.ofList (trimChars inner)
  else scope

/-- A property of an object. -/
def propertyOf : Option Json → String → Option Json
  | some (.obj fields), segment => OrderedMap.get? fields segment
  | some (.arr xs), segment =>
      if segment = "length" then some (.num xs.length)
      else OrderedMap.get? (indexedFields xs) segment
  | _, _ => none

/-- The text a path of the trigger contributes to the scope. -/
def scopeValue (triggerData : JsonRecord) (path : String) : String :=
  let cs := path.toList
  let stripped := if "trigger.".toList.isPrefixOf cs then cs.drop 8 else cs
  match (splitDots (String.ofList stripped)).foldl propertyOf (some (.obj triggerData)) with
  | some (.str s) => s
  | some (.num n) => toString n
  | _ => "_null_"

def resolveConcurrencyScope (policy : IConcurrencyPolicy) (triggerData : JsonRecord) : String :=
  let scope := normalizeScopeExpression (policy.scope.getD "global")
  if scope = "global" then "global"
  else
    let parts := (scope.toList.splitOn '+').map String.ofList
    ":".intercalate (parts.map (scopeValue triggerData))

inductive ConcurrencyCheckResult where
  | proceed (concurrencyScope : Option String)
  | skip
  | queue (concurrencyScope : String)
  | cancel (cancelRunId : RunId) (concurrencyScope : String)

def checkAndApply (policy : Option IConcurrencyPolicy) (workflowId : String)
    (triggerData : JsonRecord) : Engine ConcurrencyCheckResult :=
  match policy with
  | none => pure (.proceed none)
  | some policy => do
      let concurrencyScope := resolveConcurrencyScope policy triggerData
      let activeCount ← await (.countActiveByScope workflowId concurrencyScope)
      if activeCount < policy.max_runs then
        pure (.proceed (some concurrencyScope))
      else
        match policy.on_conflict.getD .skip with
        | .skip => pure .skip
        | .queue => pure (.queue concurrencyScope)
        | .cancelRunning => do
            let oldest ← await (.findOldestRunningByScope workflowId concurrencyScope)
            match oldest with
            | none => pure .skip
            | some run => pure (.cancel run.id concurrencyScope)

end ConcurrencyPolicyService

/-! ## Creating a run -/

/-- `buildInitialStateVariables`: the trigger and the variables of its scope. -/
def buildInitialStateVariables (env : Env) (triggerData : JsonRecord) : Json :=
  .obj [("trigger", .obj triggerData), ("vars", env.resolveContext (getString triggerData "scopeId"))]

/-- `persistence.updateRunStatus`: the transition of a run that is read first. -/
def updateRunStatus (id : RunId) (status : WorkflowStatus) : Engine WorkflowRun := do
  match ← findById id with
  | none => .fail (.notFound ("Workflow run " ++ toString id ++ " not found"))
  | some run => do
      let now ← newDate
      updateRun id (statusPatch run status now)
      pure { run with status := status }

/-- `persistence.createRun`: a RUNNING run gets its start time. -/
def createRun (data : NewRun) : Engine (Option RunId) := do
  if data.status = .running ∧ data.started_at = none then
    let now ← newDate
    await (.create { data with started_at := some now })
  else
    await (.create data)

/-- `resolveInitialDagJobs`: the first group without the targets of transitions. -/
def resolveInitialDagJobs (jobs : List IJob) (firstParallelGroup : List String) : List String :=
  firstParallelGroup.filter fun jobId =>
    jobId ∉ jobs.flatMap fun job => job.transitionList.map IWorkflowTransition.next

/-- The jobs of a run that was just created, or its end when it has none. -/
def startInitialJobs (definition : IWorkflowDefinition) (runId : RunId) (workflowId : String)
    (stateVariables : Json) : Engine Unit := do
  let groups ← orBadRequest (parallelGroups definition.jobList)
  match resolveInitialDagJobs definition.jobList (groups.headD []) with
  | first :: rest => do
      updateRun runId { current_step_id := some first }
      enqueueJobs runId definition (first :: rest)
  | [] => do
      let _ ← updateRunStatus runId .completed
      emit (.runCompleted runId workflowId stateVariables)

def createAndStartRun (env : Env) (workflowId : String) (triggerData : JsonRecord)
    (definition : IWorkflowDefinition) (concurrencyScope : Option String) : Engine RunId := do
  let launchDedupeKey := WorkflowLaunchDedupeService.resolveLaunchDedupeKey triggerData
  let initialState := buildInitialStateVariables env triggerData
  let created ← createRun
    { workflow_id := workflowId, status := .running, state_variables := initialState,
      concurrency_scope := concurrencyScope.filter (· ≠ ""),
      launch_dedupe_key := launchDedupeKey }
  match created with
  | none =>
      WorkflowLaunchDedupeService.recoverExistingRunIdAfterDuplicate workflowId launchDedupeKey
  | some runId => do
      emit (.runStarted runId workflowId initialState (.obj triggerData))
      startInitialJobs definition runId workflowId initialState
      pure runId

namespace WorkflowConcurrencyManager

/-- The queued run that a launch reuses. -/
def findQueuedRun (workflowId : String) (triggerData : JsonRecord) (concurrencyScope : String) :
    Engine (Option WorkflowRun) := do
  let existingByDedupeKey ←
    match readStringField triggerData "dedupeKey" with
    | none => pure none
    | some dedupeKey =>
        await (.findPendingByScopeAndDedupeKey workflowId concurrencyScope dedupeKey)
  match existingByDedupeKey with
  | some run => pure (some run)
  | none => await (.findPendingByScopeAndTrigger workflowId concurrencyScope (.obj triggerData))

/-- The row of a queued run. -/
def queuedRunData (workflowId : String) (triggerData : JsonRecord) (concurrencyScope : String) :
    NewRun where
  workflow_id := workflowId
  status := .pending
  state_variables := .obj [("trigger", .obj triggerData)]
  concurrency_scope := some concurrencyScope
  launch_dedupe_key := readStringField triggerData "dedupeKey"

def createQueuedRun (workflowId : String) (triggerData : JsonRecord) (concurrencyScope : String) :
    Engine RunId := do
  let existing ← findQueuedRun workflowId triggerData concurrencyScope
  match existing with
  | some run => pure run.id
  | none => do
      let created ← await (.create (queuedRunData workflowId triggerData concurrencyScope))
      match created with
      | some runId => pure runId
      | none =>
          match readStringField triggerData "dedupeKey" with
          | none => .fail .database
          | some dedupeKey => do
              let existingByDedupeKey ←
                await (.findLatestByWorkflowAndDedupeKey workflowId dedupeKey)
              match existingByDedupeKey with
              | none => .fail .database
              | some run => pure run.id

end WorkflowConcurrencyManager

/-! ## Launching -/

/-- `startWorkflowWithConcurrency`, inside the lock of the workflow. -/
def startWorkflowWithConcurrency (env : Env) (cancelRun : RunId → String → Engine Unit)
    (workflowId : String) (triggerData : JsonRecord) (definition : IWorkflowDefinition) :
    Engine (Option RunId) := do
  let result ← ConcurrencyPolicyService.checkAndApply definition.concurrency workflowId triggerData
  match result with
  | .proceed concurrencyScope => do
      let runId ← createAndStartRun env workflowId triggerData definition concurrencyScope
      pure (some runId)
  | .skip => pure none
  | .queue concurrencyScope => do
      let runId ←
        WorkflowConcurrencyManager.createQueuedRun workflowId triggerData concurrencyScope
      pure (some runId)
  | .cancel cancelRunId concurrencyScope => do
      cancelRun cancelRunId "concurrency_cancel_running"
      let runId ← createAndStartRun env workflowId triggerData definition (some concurrencyScope)
      pure (some runId)

/-- The lock under which the launches of a workflow with a policy run. -/
def concurrencyLockKey (workflowId : String) : String := "concurrency:" ++ workflowId

def startWorkflowAfterLaunchDedupe (env : Env) (cancelRun : RunId → String → Engine Unit)
    (workflowId : String) (triggerData : JsonRecord) (definition : IWorkflowDefinition) :
    Engine (Option RunId) :=
  match definition.concurrency with
  | some _ =>
      runExclusive (concurrencyLockKey workflowId)
        (startWorkflowWithConcurrency env cancelRun workflowId triggerData definition)
  | none =>
      match resolveTriggerDedupeContext triggerData with
      | some context =>
          runExclusive (buildStartDedupeKey workflowId context) do
            let existing ← await (.findActiveByTriggerContext workflowId context)
            match existing with
            | some run => pure (some run.id)
            | none => do
                let runId ← createAndStartRun env workflowId triggerData definition none
                pure (some runId)
      | none => do
          let runId ← createAndStartRun env workflowId triggerData definition none
          pure (some runId)

def startAndDedupRun (env : Env) (cancelRun : RunId → String → Engine Unit) (workflowId : String)
    (triggerData : JsonRecord) (definition : IWorkflowDefinition) : Engine (Option RunId) :=
  match WorkflowLaunchDedupeService.resolveLaunchDedupeKey triggerData with
  | some launchDedupeKey =>
      runExclusive (WorkflowLaunchDedupeService.lockKey workflowId launchDedupeKey) do
        let existing ← WorkflowLaunchDedupeService.findExistingRun workflowId launchDedupeKey
        match existing with
        | some run => pure (some run.id)
        | none => startWorkflowAfterLaunchDedupe env cancelRun workflowId triggerData definition
  | none => startWorkflowAfterLaunchDedupe env cancelRun workflowId triggerData definition

/-- `WorkflowEngineService.startWorkflow`. -/
def startWorkflow (env : Env) (cancelRun : RunId → String → Engine Unit) (workflowId : String)
    (triggerData : JsonRecord) : Engine (Option RunId) :=
  match env.findByIdentifier workflowId with
  | none => .fail (.notFound ("Workflow " ++ workflowId ++ " not found"))
  | some workflow =>
      if !workflow.is_active then
        .fail (.failure ("Workflow " ++ workflowId ++ " is not active"))
      else
        match env.parseWorkflow workflow.yaml_definition with
        | .error message => .fail (.failure message)
        | .ok definition =>
            startAndDedupRun env cancelRun workflow.id
              (WorkflowLaunchDedupeService.prepareTriggerData triggerData) definition

end Nexus
