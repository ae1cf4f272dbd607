import Nexus.Workflow.JobState

/-!
# The steps of a job

`StepExecutionService.execute` runs the steps of a job in one loop: the current step is looked up,
skipped when its needs or its condition say so, counted against its loop limit and executed, and the
next step comes from its transitions, its `on_error` or the order of the list. The state of the
steps is kept in a local copy of the run's variables and written to the run at the same time.

What executes a step, evaluates a condition or renders a template is the environment. The model
keeps the steps executed and the variables written, in order.
-/

set_option autoImplicit false

namespace Nexus

/-- A step of a job. -/
structure IJobStep where
  id : String
  type : Option String := none
  prompt : Option String := none
  prompt_file : Option String := none
  command : Option String := none
  /-- The field `variables`. -/
  stepVariables : Option Json := none
  timeout_ms : Option Int := none
  needs : Option (List WorkflowNeed) := none
  /-- The field `if`. -/
  ifCondition : Option String := none
  transitions : Option (List IWorkflowTransition) := none
  on_error : Option String := none
  max_loops : Option Int := none

/-- The fields of a job that the execution of its steps reads. -/
structure IStepsJob where
  id : String
  steps : Option (List IJobStep) := none
  max_step_loops : Option Int := none

def IStepsJob.stepList (job : IStepsJob) : List IJobStep := job.steps.getD []

/-- `isPositiveInteger`. -/
def isPositiveInteger : Option Int → Bool
  | some n => 0 < n
  | none => false

/-! ## Validation -/

namespace StepValidation

/-- The largest timeout of a command, in milliseconds. -/
def RUN_COMMAND_MAX_TIMEOUT_MS : Int := 1800000

/-- `Step '${step.id}' in job '${job.id}'`. -/
def stepInJob (step : IJobStep) (job : IStepsJob) : String :=
  "Step '" ++ step.id ++ "' in job '" ++ job.id ++ "'"

def isNonEmptyText (s : Option String) : Bool := isNonEmptyString (s.getD "")

def validateAgentStep (step : IJobStep) (job : IStepsJob) : List String :=
  let hasPrompt := isNonEmptyText step.prompt
  let hasPromptFile := isNonEmptyText step.prompt_file
  if hasPrompt && hasPromptFile then
    [stepInJob step job ++ " cannot define both prompt and prompt_file"]
  else if !hasPrompt && !hasPromptFile then
    [stepInJob step job ++ " missing prompt or prompt_file"]
  else []

/-- The check of `timeout_ms`, with the text between the step and the field. -/
def validateTimeout (step : IJobStep) (job : IStepsJob) (type : String) (maximum : Option Int) :
    List String :=
  match step.timeout_ms with
  | none => []
  | some timeout =>
      if isPositiveInteger (some timeout) = false then
        [stepInJob step job ++ " with type '" ++ type ++ "' timeout_ms must be a positive integer"]
      else
        match maximum with
        | none => []
        | some limit =>
            if limit < timeout then
              [stepInJob step job ++ " with type '" ++ type ++ "' timeout_ms " ++
                toString timeout ++ " exceeds the maximum of " ++ toString limit ++ "ms"]
            else []

def validateRunCommandStep (step : IJobStep) (job : IStepsJob) : List String :=
  (if isNonEmptyText step.command then []
    else [stepInJob step job ++ " with type 'run_command' requires command"]) ++
    validateTimeout step job "run_command" (some RUN_COMMAND_MAX_TIMEOUT_MS)

def validateSetVariableStep (step : IJobStep) (job : IStepsJob) : List String :=
  match step.stepVariables with
  | some (.obj _) => []
  | _ => [stepInJob step job ++ " with type 'set_variable' requires variables object"]

def validateWaitStep (step : IJobStep) (job : IStepsJob) : List String :=
  validateTimeout step job "wait" none

def validateStepType (step : IJobStep) (job : IStepsJob) : List String :=
  match step.type with
  | none => validateAgentStep step job
  | some type =>
      if type = "agent" then validateAgentStep step job
      else if type = "run_command" then validateRunCommandStep step job
      else if type = "set_variable" then validateSetVariableStep step job
      else if type = "wait" then validateWaitStep step job
      else [stepInJob step job ++ " has unsupported type '" ++ type ++ "'"]

def validateMaxLoops (step : IJobStep) (job : IStepsJob) : List String :=
  if step.max_loops.isSome && !isPositiveInteger step.max_loops then
    [stepInJob step job ++ " max_loops must be a positive integer"]
  else []

/-- What follows `goto:` in a target that starts with it. -/
def gotoTarget? (target : String) : Option String :=
  if "goto:".toList.isPrefixOf target.toList then some (String.ofList (target.toList.drop 5))
  else none

/-- The ids that are not empty. -/
def stepIds (job : IStepsJob) : List String := (job.stepList.map IJobStep.id).filter (· ≠ "")

def validateOnErrorTarget (step : IJobStep) (job : IStepsJob) : List String :=
  match step.on_error with
  | none => []
  | some onError =>
      match gotoTarget? onError with
      | some target =>
          if target = "" ∨ target ∉ stepIds job then
            [stepInJob step job ++ " on_error references unknown step '" ++ target ++ "'"]
          else []
      | none =>
          if onError ≠ "fail" ∧ onError ≠ "continue" then
            [stepInJob step job ++ " has invalid on_error value '" ++ onError ++ "'"]
          else []

def validateStringTransitionTarget (step : IJobStep) (job : IStepsJob) (target : String) :
    List String :=
  if target = "done" ∨ target = "fail_job" then []
  else
    match gotoTarget? target with
    | some gotoStepId =>
        if gotoStepId = "" ∨ gotoStepId ∉ stepIds job then
          [stepInJob step job ++ " transitions to unknown step '" ++ gotoStepId ++ "'"]
        else []
    | none =>
        if target ∉ stepIds job then
          [stepInJob step job ++ " transitions to unknown step '" ++ target ++ "'"]
        else []

def validateTransitions (step : IJobStep) (job : IStepsJob) : List String :=
  (step.transitions.getD []).flatMap fun transition =>
    validateStringTransitionTarget step job transition.next

def reportDuplicateStepIds (job : IStepsJob) : List String :=
  ((stepIds job).eraseDups.filter fun id => (stepIds job).count id > 1).map fun id =>
    "Duplicate step ID '" ++ id ++ "' in job '" ++ job.id ++ "'"

def validateIndividualStep (job : IStepsJob) (step : IJobStep) : List String :=
  if isNonEmptyString step.id = false then ["Step in job '" ++ job.id ++ "' missing id"]
  else if (stepIds job).count step.id > 1 then []
  else
    validateStepType step job ++ validateMaxLoops step job ++ validateOnErrorTarget step job ++
      validateTransitions step job

/-- `validateExecutionSteps`: the errors added to the collector. -/
def validateExecutionSteps (job : IStepsJob) : List String :=
  if job.stepList = [] then ["Job '" ++ job.id ++ "' must contain at least one step"]
  else reportDuplicateStepIds job ++ job.stepList.flatMap (validateIndividualStep job)

end StepValidation

/-! ## Targets -/

namespace StepExecutionService

/-- The step after a step in the list, or the end of the job. -/
def nextInOrder (step : IJobStep) (steps : List IJobStep) : String :=
  match (steps.findIdx? fun candidate => candidate.id = step.id).bind fun index =>
      steps[index + 1]? with
  | some nextStep => nextStep.id
  | none => "done"

/-- `resolveStepTarget`; an error is the message of the exception. -/
def resolveStepTarget (transitionTarget : Option String) (currentStep : IJobStep)
    (steps : List IJobStep) : Except String String :=
  match transitionTarget with
  | none => .ok (nextInOrder currentStep steps)
  | some target =>
      if target = "" then .ok (nextInOrder currentStep steps)
      else if target = "done" ∨ target = "fail_job" then .ok target
      else
        match StepValidation.gotoTarget? target with
        | some gotoStepId =>
            if gotoStepId = "" then
              .error ("Invalid goto transition target '" ++ target ++ "' on step '" ++
                currentStep.id ++ "'")
            else if ∃ step ∈ steps, step.id = gotoStepId then .ok gotoStepId
            else
              .error ("Transition target '" ++ target ++ "' on step '" ++ currentStep.id ++
                "' references unknown step '" ++ gotoStepId ++ "'")
        | none =>
            if ∃ step ∈ steps, step.id = target then .ok target
            else
              .error ("Transition target '" ++ target ++ "' on step '" ++ currentStep.id ++
                "' references unknown step")

/-- `resolveOnErrorTarget`. -/
def resolveOnErrorTarget (step : IJobStep) (steps : List IJobStep) :
    Except String (Option String) :=
  let onError := step.on_error.getD "fail"
  if onError = "fail" then .ok none
  else if onError = "continue" then .ok (some (nextInOrder step steps))
  else
    match StepValidation.gotoTarget? onError with
    | some stepId =>
        if ∃ candidate ∈ steps, candidate.id = stepId then .ok (some stepId)
        else
          .error ("Step '" ++ step.id ++ "' on_error references unknown target '" ++ stepId ++ "'")
    | none => .ok none

def DEFAULT_MAX_STEP_LOOPS : Int := 5

/-- `resolveMaxLoops` with the default of the service. -/
def resolveMaxLoops (job : IStepsJob) (step : IJobStep) : Int :=
  if isPositiveInteger step.max_loops then step.max_loops.getD 0
  else if isPositiveInteger job.max_step_loops then job.max_step_loops.getD 0
  else DEFAULT_MAX_STEP_LOOPS

/-! ## The state of the steps -/

/-- The value below which an assignment goes on: what is no object is replaced. -/
def objectOrEmpty : Option Json → Json
  | some (.obj fields) => .obj fields
  | some (.arr xs) => .arr xs
  | _ => .empty

/-- `setNestedValue` on a record. What it adds to an array under a name is not seen by any read of
the service, so an array stays as it is. -/
def setNestedValue : List String → Json → Json → Json
  | [], _, t => t
  | [key], value, .obj fields => .obj (OrderedMap.set fields key value)
  | key :: key' :: path, value, .obj fields =>
      .obj (OrderedMap.set fields key
        (setNestedValue (key' :: path) value (objectOrEmpty (OrderedMap.get? fields key))))
  | _ :: _, _, t => t

/-- `getLoopCount`: the counter is read at a list of names. -/
def getLoopCount (state : Json) (jobId stepId : String) : Int :=
  match state.getNested ["jobs", jobId, "steps", stepId, "loop_count"] with
  | some (.num n) => n
  | _ => 0

/-- `jobs.${jobId}.steps.${stepId}.${field}`. -/
def stepFieldPath (jobId stepId field : String) : String :=
  dotted ["jobs", jobId, "steps", stepId, field]

/-- The state of an execution, with the steps executed and the variables written so far. -/
structure ExecutionState where
  localState : Json
  outputs : OrderedMap String JsonRecord := []
  currentStepId : String
  finalStepId : Option String := none
  executed : List String := []
  written : List (String × Json) := []

/-- `setStepField`: the field is set in the local state and in the run. -/
def setStepField (jobId stepId field : String) (value : Json) (st : ExecutionState) :
    ExecutionState :=
  let path := stepFieldPath jobId stepId field
  { st with
    localState := setNestedValue (splitDots path) value st.localState
    written := st.written ++ [(path, value)] }

def setOutput (stepId : String) (output : JsonRecord) (st : ExecutionState) : ExecutionState :=
  { st with outputs := OrderedMap.set st.outputs stepId output }

/-! ## The environment -/

/-- What the service calls: the execution of a step, given how many were executed before; the
evaluation of the condition at a place of the list of transitions after so many executions; and the
rendering of a template. An error is the message of what was thrown. -/
structure StepEnvironment where
  executeStep : Nat → IJobStep → Except String JsonRecord
  evaluate : Nat → Nat → String → Json → Except String Bool
  substituteTemplate : Nat → String → Json → Except String String

/-- `evaluateTransition`: the first transition whose condition is `true`. -/
def evaluateTransition (env : StepEnvironment) (calls : Nat) (context : Json) :
    Nat → List IWorkflowTransition → Except String (Option String)
  | _, [] => .ok none
  | place, transition :: transitions =>
      match env.evaluate calls place transition.condition context with
      | .error message =>
          .error ("Failed to evaluate transition condition \"" ++ transition.condition ++ "\": " ++
            message)
      | .ok true => .ok (some transition.next)
      | .ok false => evaluateTransition env calls context (place + 1) transitions

/-- `buildTransitionContext`: the state with the steps of the job under `steps`. -/
def buildTransitionContext (state : Json) (jobId : String) : Json :=
  match state with
  | .obj fields =>
      .obj (OrderedMap.set fields "steps"
        (objectOrEmpty (state.getNested ["jobs", jobId, "steps"])))
  | _ => state

def normalizeStepResult : Option Json → WorkflowRecordedResult
  | some (.str s) =>
      if s = "completed" then .success
      else if s = "failed" then .failed
      else if s = "skipped" then .skipped
      else if s = "cancelled" then .cancelled
      else .unknown
  | _ => .unknown

/-- `buildStepNeedsContext`. -/
def buildStepNeedsContext (stateVariables : Json) (jobId : String) :
    OrderedMap String WorkflowNeedsContextEntry :=
  let jobState := (Json.obj (readRecord (stateVariables.field? "jobs"))).field? jobId
  let steps := readRecord ((Json.obj (readRecord jobState)).field? "steps")
  steps.map fun e =>
    let stepState := Json.obj (readRecord (some e.2))
    (e.1,
      { result := normalizeStepResult (stepState.field? "status")
        output := match stepState.field? "output" with
          | some (.obj fields) => some fields
          | _ => none })

/-- The context of the needs as a template sees it. -/
def needsValue (context : OrderedMap String WorkflowNeedsContextEntry) : Json :=
  .obj (context.map fun e =>
    (e.1, .obj (("result", .str e.2.result.text) ::
      match e.2.output with
      | some output => [("output", .obj output)]
      | none => [])))

/-- `{ ...localState, needs: needsContext }`. -/
def conditionVariables (state : Json) (jobId : String) : Json :=
  match state with
  | .obj fields =>
      .obj (OrderedMap.set fields "needs" (needsValue (buildStepNeedsContext state jobId)))
  | _ => state

/-- `resolveStepSkipReason`. -/
def resolveStepSkipReason (env : StepEnvironment) (calls : Nat) (currentStep : IJobStep)
    (jobId : String) (localState : Json) : Except String (Option String) :=
  match normalizeWorkflowNeeds currentStep.id .step currentStep.needs none with
  | .error message => .error message
  | .ok needs =>
      if needs ≠ [] ∧ areNeedsSatisfied needs (buildStepNeedsContext localState jobId) = false then
        .ok (some "needs_not_satisfied")
      else
        match currentStep.ifCondition with
        | none => .ok none
        | some condition =>
            if condition = "" then .ok none
            else
              match env.substituteTemplate calls condition
                  (conditionVariables localState jobId) with
              | .error message => .error message
              | .ok rendered =>
                  if rendered ≠ "true" then .ok (some "condition_false") else .ok none

/-! ## One iteration -/

inductive StepExecutionStatus where
  | completed
  | failed
  deriving DecidableEq, Repr

structure StepExecutionResult where
  status : StepExecutionStatus
  finalStepId : Option String
  outputs : OrderedMap String JsonRecord

/-- Where a part of an iteration leaves off: it goes on, returns a result of the job or throws. -/
inductive StepFlow where
  | next (st : ExecutionState)
  | returned (st : ExecutionState) (result : StepExecutionResult)
  | threw (st : ExecutionState) (message : String)

/-- The state reached. -/
def StepFlow.state : StepFlow → ExecutionState
  | next st => st
  | returned st _ => st
  | threw st _ => st

/-- Goes on with the rest unless the part has ended the execution. -/
def StepFlow.andThen (flow : StepFlow) (rest : ExecutionState → StepFlow) : StepFlow :=
  match flow with
  | next st => rest st
  | returned st result => returned st result
  | threw st message => threw st message

/-- Goes to a target: the end of the job, or the step that is next. -/
def goTarget (target : String) (st : ExecutionState) : StepFlow :=
  if target = "done" then .returned st ⟨.completed, st.finalStepId, st.outputs⟩
  else if target = "fail_job" then .returned st ⟨.failed, st.finalStepId, st.outputs⟩
  else .next { st with currentStepId := target }

/-- `skipStepWhenBlocked`. A skipped step that is not the last one ends nothing: the caller goes on
with the same step. -/
def skipStepWhenBlocked (env : StepEnvironment) (jobId : String) (steps : List IJobStep)
    (currentStep : IJobStep) (st : ExecutionState) : StepFlow :=
  match resolveStepSkipReason env st.executed.length currentStep jobId st.localState with
  | .error message => .threw st message
  | .ok none => .next st
  | .ok (some reason) =>
      let skippedOutput : JsonRecord := [("skipped", .bool true), ("reason", .str reason)]
      let st := setOutput currentStep.id skippedOutput st
      let st := setStepField jobId currentStep.id "output" (.obj skippedOutput) st
      let st := setStepField jobId currentStep.id "status" (.str "skipped") st
      goTarget (nextInOrder currentStep steps) st

/-- `ensureStepLoopLimit`. -/
def ensureStepLoopLimit (jobId : String) (job : IStepsJob) (step : IJobStep)
    (st : ExecutionState) : StepFlow :=
  let currentLoopCount := getLoopCount st.localState jobId step.id
  let maxLoops := resolveMaxLoops job step
  if maxLoops ≤ currentLoopCount then
    .threw (setStepField jobId step.id "status" (.str "failed") st)
      ("Step '" ++ step.id ++ "' in job '" ++ jobId ++ "' exceeded max loops (" ++
        toString maxLoops ++ ")")
  else
    let st := setStepField jobId step.id "loop_count" (.num (currentLoopCount + 1)) st
    .next (setStepField jobId step.id "status" (.str "running") st)

/-- `buildFailedOutput`. -/
def buildFailedOutput (message : String) : JsonRecord :=
  [("ok", .bool false), ("error", .str message)]

/-- The state after a step returned an output. -/
def recordOutput (jobId : String) (step : IJobStep) (output : JsonRecord) (st : ExecutionState) :
    ExecutionState :=
  setStepField jobId step.id "output" (.obj output) (setOutput step.id output st)

/-- The state after a step threw. -/
def recordFailure (jobId : String) (step : IJobStep) (message : String) (st : ExecutionState) :
    ExecutionState :=
  setStepField jobId step.id "status" (.str "failed")
    (recordOutput jobId step (buildFailedOutput message) st)

/-- `executeStepWithFailureHandling`: the output of the step, and where it leaves off. -/
def executeStepWithFailureHandling (env : StepEnvironment) (jobId : String)
    (steps : List IJobStep) (currentStep : IJobStep) (st : ExecutionState) :
    JsonRecord × StepFlow :=
  let result := env.executeStep st.executed.length currentStep
  let st := { st with executed := st.executed ++ [currentStep.id] }
  match result with
  | .ok output => (output, .next (recordOutput jobId currentStep output st))
  | .error message =>
      let failedOutput := buildFailedOutput message
      let st := recordFailure jobId currentStep message st
      match resolveOnErrorTarget currentStep steps with
      | .error unknownTarget => (failedOutput, .threw st unknownTarget)
      | .ok none => (failedOutput, .threw st message)
      | .ok (some fallbackTarget) =>
          if fallbackTarget = "" then (failedOutput, .threw st message)
          else (failedOutput, goTarget fallbackTarget st)

/-- `stepOutput.ok === false`. -/
def isNotOk (output : JsonRecord) : Bool :=
  match OrderedMap.get? output "ok" with
  | some (.bool false) => true
  | _ => false

/-- `handleStepTransition`. -/
def handleStepTransition (env : StepEnvironment) (jobId : String) (steps : List IJobStep)
    (currentStep : IJobStep) (stepOutput : JsonRecord) (st : ExecutionState) : StepFlow :=
  match evaluateTransition env st.executed.length (buildTransitionContext st.localState jobId) 0
      (currentStep.transitions.getD []) with
  | .error message => .threw st message
  | .ok transitionTarget =>
      if isNotOk stepOutput = true ∧ transitionTarget = none then
        let st := setStepField jobId currentStep.id "status" (.str "failed") st
        match resolveOnErrorTarget currentStep steps with
        | .error unknownTarget => .threw st unknownTarget
        | .ok none => .returned st ⟨.failed, st.finalStepId, st.outputs⟩
        | .ok (some fallbackTarget) =>
            if fallbackTarget = "" then .returned st ⟨.failed, st.finalStepId, st.outputs⟩
            else goTarget fallbackTarget st
      else
        let st := setStepField jobId currentStep.id "status" (.str "completed") st
        match resolveStepTarget transitionTarget currentStep steps with
        | .error message => .threw st message
        | .ok resolvedTarget => goTarget resolvedTarget st

/-- `stepById.get(stepId)`. -/
def stepById (steps : List IJobStep) (stepId : String) : Option IJobStep :=
  steps.reverse.find? fun step => step.id = stepId

/-- `runSingleStepIteration`. -/
def runSingleStepIteration (env : StepEnvironment) (jobId : String) (job : IStepsJob)
    (st : ExecutionState) : StepFlow :=
  match stepById job.stepList st.currentStepId with
  | none =>
      .threw st ("Step transition target '" ++ st.currentStepId ++ "' was not found in job '" ++
        jobId ++ "'")
  | some currentStep =>
      (skipStepWhenBlocked env jobId job.stepList currentStep
          { st with finalStepId := some currentStep.id }).andThen fun st =>
        (ensureStepLoopLimit jobId job currentStep st).andThen fun st =>
          let executed :=
            executeStepWithFailureHandling env jobId job.stepList currentStep st
          executed.2.andThen fun st =>
            handleStepTransition env jobId job.stepList currentStep executed.1 st

/-! ## The loop -/

/-- The first fields of a step. -/
def initializeStep (jobId : String) (st : ExecutionState) (stepId : String) : ExecutionState :=
  setStepField jobId stepId "loop_count" (.num 0)
    (setStepField jobId stepId "status" (.str "pending") st)

/-- `initializeExecutionState`. -/
def initializeExecutionState (jobId : String) (steps : List IJobStep) (stateVariables : Json) :
    ExecutionState :=
  (steps.map IJobStep.id).foldl (initializeStep jobId)
    { localState := stateVariables
      currentStepId := ((steps.map IJobStep.id).head?).getD "" }

/-- The loop of `execute` for so many iterations; `none` is a loop that has not ended. -/
def runSteps (env : StepEnvironment) (jobId : String) (job : IStepsJob) :
    Nat → ExecutionState → Option StepFlow
  | 0, _ => none
  | fuel + 1, st =>
      if st.currentStepId = "" then
        some (.returned st ⟨.completed, st.finalStepId, st.outputs⟩)
      else
        match runSingleStepIteration env jobId job st with
        | .next st' => runSteps env jobId job fuel st'
        | flow => some flow

/-- `execute`. -/
def execute (env : StepEnvironment) (jobId : String) (job : IStepsJob) (stateVariables : Json)
    (fuel : Nat) : Option StepFlow :=
  if job.stepList = [] then
    some (.threw { localState := stateVariables, currentStepId := "" }
      ("Job " ++ jobId ++ " has no steps to execute"))
  else runSteps env jobId job fuel (initializeExecutionState jobId job.stepList stateVariables)

end StepExecutionService

end Nexus
