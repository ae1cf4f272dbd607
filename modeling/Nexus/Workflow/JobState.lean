import Nexus.Workflow.Environment

/-!
# The recorded state of jobs

What the engine writes about a job when it completes or is skipped (`workflow-job-state.utils.ts`),
what it reads back to decide about readiness (`workflow-needs.utils.ts`,
`workflow-run-job-execution.utils.ts`), and the skip of strict jobs
(`workflow-run-job-skip.utils.ts`).
-/

set_option autoImplicit false

namespace Nexus

/-- A record of values, such as the output of a job. -/
abbrev JsonRecord := OrderedMap String Json

/-- `value === true`. -/
def isTrue : Option Json → Bool
  | some (.bool true) => true
  | _ => false

/-- Whether a value is not falsy. -/
def isTruthy : Option Json → Bool
  | none => false
  | some .null => false
  | some (.bool b) => b
  | some (.num n) => n ≠ 0
  | some (.str s) => s ≠ ""
  | some (.arr _) => true
  | some (.obj _) => true

/-- `{ ...a, ...b }`. -/
def mergeFields (a b : JsonRecord) : JsonRecord :=
  b.foldl (fun m e => OrderedMap.set m e.1 e.2) a

/-! ## Completion and skipping -/

def resolveJobResultFromOutput (output : JsonRecord) : WorkflowRecordedResult :=
  if isTrue (output.get? "skipped") then .skipped
  else if (match output.get? "ok" with
      | some (.bool false) => true
      | _ => false) || isTrue (output.get? "failed") then .failed
  else .success

/-- The output to store: the reported one over what is stored already. -/
def mergedOutput (existingOutput : Option Json) (output : JsonRecord) : JsonRecord :=
  match existingOutput.bind spreadFields? with
  | some existing => mergeFields existing output
  | none => output

def markJobCompleted (workflowRunId : RunId) (jobId : String) (output : JsonRecord) :
    Engine Unit := do
  let result := Json.str (resolveJobResultFromOutput output).text
  let existingOutput ← getVariable workflowRunId (StateKey.output jobId).path
  setVariable workflowRunId (StateKey.output jobId).path (.obj (mergedOutput existingOutput output))
  setVariable workflowRunId (StateKey.result jobId).path result
  setVariable workflowRunId (StateKey.jobResult jobId).path result
  setVariable workflowRunId (StateKey.completed jobId).path (.bool true)

/-- The output of a skipped job. -/
def skippedOutput (reason : String) : Json :=
  .obj [("skipped", .bool true), ("reason", .str reason)]

def markJobSkipped (workflowRunId : RunId) (jobId reason : String) : Engine Unit := do
  setVariable workflowRunId (StateKey.output jobId).path (skippedOutput reason)
  setVariable workflowRunId (StateKey.result jobId).path (.str "skipped")
  setVariable workflowRunId (StateKey.jobResult jobId).path (.str "skipped")
  setVariable workflowRunId (StateKey.completed jobId).path (.bool true)

/-! ## Needs -/

/-- `readRecord`: the entries of a record, none of any other value. -/
def readRecord : Option Json → JsonRecord
  | some (.obj fields) => fields
  | _ => []

def normalizeRecordedResult : Option Json → WorkflowRecordedResult
  | some (.str s) =>
      if s = "success" then .success
      else if s = "skipped" then .skipped
      else if s = "failed" then .failed
      else if s = "cancelled" then .cancelled
      else .unknown
  | _ => .unknown

structure WorkflowNeedsContextEntry where
  result : WorkflowRecordedResult
  output : Option JsonRecord

/-- `a ?? b`. -/
def orNullish : Option Json → Option Json → Option Json
  | none, b => b
  | some .null, b => b
  | a, _ => a

/-- Every entry of `jobs` with its recorded result. -/
def buildJobNeedsContext (stateVariables : Json) : OrderedMap String WorkflowNeedsContextEntry :=
  let jobs := readRecord (stateVariables.field? "jobs")
  let results :=
    readRecord ((Json.obj (readRecord (stateVariables.field? "_internal"))).field? "job_results")
  jobs.map fun e =>
    let jobState := readRecord (some e.2)
    (e.1,
      { result := normalizeRecordedResult
          (orNullish (results.get? e.1) (jobState.get? "result"))
        output := match jobState.get? "output" with
          | some (.obj fields) => some fields
          | _ => none })

def doesNeedAcceptResult (policy : WorkflowDependencyResult) (result : WorkflowRecordedResult) :
    Bool :=
  match policy with
  | .any => result ≠ .unknown
  | .successOrSkipped => result = .success || result = .skipped
  | .success => result = .success
  | .skipped => result = .skipped
  | .failed => result = .failed
  | .cancelled => result = .cancelled

def areNeedsSatisfied (needs : List NormalizedWorkflowNeed)
    (context : OrderedMap String WorkflowNeedsContextEntry) : Bool :=
  needs.all fun need =>
    match context.get? need.id with
    | none => need.optional
    | some entry => doesNeedAcceptResult need.requiredResult entry.result

/-! ## Readiness -/

/-- Whether every id is flagged completed; the reads stop at the first that is not. -/
def areFlaggedCompleted (workflowRunId : RunId) : List String → Engine Bool
  | [] => pure true
  | jobId :: rest => do
      let completed ← getVariable workflowRunId (StateKey.completed jobId).path
      if isTrue completed then areFlaggedCompleted workflowRunId rest else pure false

def areDependenciesCompleted (workflowRunId : RunId) (definition : IWorkflowDefinition)
    (job : IJob) : Engine Bool := do
  if resolveStrictDependencies definition job then
    let needs ← orBadRequest (normalizeWorkflowJobNeeds job)
    let stateVariables ← getStateVariables workflowRunId
    pure (areNeedsSatisfied needs (buildJobNeedsContext stateVariables))
  else
    areFlaggedCompleted workflowRunId (job.depends_on.getD [])

def areDependencyJobsTerminal (workflowRunId : RunId) (job : IJob) : Engine Bool := do
  let needs ← orBadRequest (normalizeWorkflowJobNeeds job)
  areFlaggedCompleted workflowRunId (needs.map NormalizedWorkflowNeed.id)

def areAllJobsCompleted (workflowRunId : RunId) (jobs : List IJob) : Engine Bool :=
  areFlaggedCompleted workflowRunId (jobs.map IJob.id)

def skipStrictJobWhenDependencyResultsBlock (workflowRunId : RunId)
    (definition : IWorkflowDefinition) (job : IJob) : Engine Unit := do
  if resolveStrictDependencies definition job then
    let dependencyJobsTerminal ← areDependencyJobsTerminal workflowRunId job
    if dependencyJobsTerminal then
      markJobSkipped workflowRunId job.id "needs_not_satisfied"

/-- The evaluation of an inline condition: no condition, or a text that renders to `true`. -/
def conditionHolds (env : Env) (workflowRunId : RunId) (job : IJob) : Engine Bool :=
  match job.jobCondition with
  | none => pure true
  | some jobCondition => do
      let stateVariables ← getStateVariables workflowRunId
      let renderedCondition ← substituteTemplate env jobCondition stateVariables
      pure (jsTrim renderedCondition = "true")

end Nexus
