import Nexus.Workflow.Store

/-!
# The engine's programs and their environment

The monad of the engine's functions, the code outside the engine as an environment, and the
services every handler uses: the repository, `StateManagerService` and `StateMachineService`.
-/

set_option autoImplicit false

namespace Nexus

/-- The exceptions the engine throws. -/
inductive EngineError where
  | badRequest (message : String)
  | notFound (message : String)
  | database
  | failure (message : String)
  | maxLoopIterations (jobId nextJobId : String)
  | outOfFuel
  deriving DecidableEq

/-- The programs of the engine. -/
abbrev Engine (α : Type) := Prog Op Op.Ans EngineError α

/-- Awaits one operation. -/
def await (o : Op) : Engine o.Ans := Prog.op o

/-- A row of `workflows`. -/
structure WorkflowRecord where
  id : String
  yaml_definition : String
  is_active : Bool := true

/-- The settings and the classification of failures the retry policy reads. -/
structure RetryPolicy where
  enabled : Bool := false
  maxAttempts : Nat := 2
  maxInFlight : Nat := 5
  maxDurationMs : Nat := 86400000
  /-- `resolveWorkflowRetryDecision`: the reason code and `allowWhenWorkflowAutoRetryDisabled`. -/
  decision : String → String × Bool := fun _ => ("generic_failure", false)
  /-- `resolveRetryDelayMs` for an attempt and a reason. -/
  delayMs : Nat → String → Nat := fun _ _ => 60000

/-- The code outside the engine: the workflow table, the parser with the prompt loader, the
expression evaluator, the template engine, the variable resolver, dates, and the retry policy. -/
structure Env where
  /-- `workflowRepo.findByIdentifier(id, { includeInactive: true })`. -/
  findByIdentifier : String → Option WorkflowRecord
  /-- `parser.parseWorkflow` and `promptLoader.resolveWorkflowPrompts`; an error is thrown. -/
  parseWorkflow : String → Except String IWorkflowDefinition
  /-- `Parser.evaluate` of `expr-eval`. -/
  evaluate : String → Json → Except String Json
  /-- `hbs.compile(template)(variables)`. -/
  renderTemplate : String → Json → Except String String
  /-- `variableResolver.resolveContext(scopeId)`. -/
  resolveContext : Option String → Json
  /-- `new Date(ms).toISOString()`. -/
  toISOString : Nat → String
  /-- `Date.parse`, `none` for `NaN`. -/
  parseDate : String → Option Nat
  retry : RetryPolicy := {}

/-! ## Exceptions -/

def orThrow {α : Type} : Option α → Engine α
  | none => .fail .database
  | some a => .pure a

/-- Throws the message of an error. -/
def orBadRequest {α : Type} : Except String α → Engine α
  | .error message => .fail (.badRequest message)
  | .ok a => .pure a

/-! ## The repository -/

def findById (id : RunId) : Engine (Option WorkflowRun) := await (.findById id)

def updateRun (id : RunId) (patch : RunPatch) : Engine Unit := await (.update id patch)

/-- `new Date()`. -/
def newDate : Engine Nat := await .now

def emit (event : WorkflowEvent) : Engine Unit := await (.emit event)

/-! ## StateManagerService -/

/-- The value of a dotted key: `null` when the run is gone, `none` for `undefined`. -/
def getVariable (workflowRunId : RunId) (key : String) : Engine (Option Json) := do
  match ← findById workflowRunId with
  | none => pure (some .null)
  | some run => pure (getStateVariable run.state_variables key)

/-- The atomic write, followed by the read of the row that `setVariable` returns. -/
def setVariable (workflowRunId : RunId) (key : String) (value : Json) : Engine Unit := do
  orThrow (← await (.setStateVariableAtomic workflowRunId key value))
  let _ ← findById workflowRunId
  pure ()

def deleteVariable (workflowRunId : RunId) (key : String) : Engine Unit := do
  orThrow (← await (.deleteStateVariableAtomic workflowRunId key))

def getStateVariables (workflowRunId : RunId) : Engine Json := do
  match ← findById workflowRunId with
  | none => pure Json.empty
  | some run => pure run.state_variables

def tryMarkJobQueued (workflowRunId : RunId) (jobId : String) : Engine Bool := do
  orThrow (← await (.claimJobFlag workflowRunId .queuedJobs jobId))

def tryMarkJobCompleted (workflowRunId : RunId) (jobId : String) : Engine Bool := do
  orThrow (← await (.claimJobFlag workflowRunId .completedJobs jobId))

/-! ## Templates and expressions -/

/-- Replaces every occurrence of `pat`, from left to right; `skip` characters belong to the last
one. -/
def replaceAllChars (pat rep : List Char) : Nat → List Char → List Char
  | _, [] => []
  | skip + 1, _ :: cs => replaceAllChars pat rep skip cs
  | 0, c :: cs =>
      if pat.isPrefixOf (c :: cs) then rep ++ replaceAllChars pat rep (pat.length - 1) cs
      else c :: replaceAllChars pat rep 0 cs

/-- `s.replaceAll(pat, rep)`. -/
def replaceAll (s pat rep : String) : String :=
  String.ofList (replaceAllChars pat.toList rep.toList 0 s.toList)

def rewriteLegacyStepTemplates (template : String) : String :=
  replaceAll
    (replaceAll template "\x7b\x7b_internal.completed_steps." "\x7b\x7b_internal.completed_jobs.")
    "\x7b\x7b_internal.queued_steps." "\x7b\x7b_internal.queued_jobs."

/-- The entries of an array under their indices. -/
def indexedFields (xs : List Json) : List (String × Json) :=
  xs.zipIdx.map fun e => (toString e.2, e.1)

/-- The own entries of an object, as the spread `{ ...value }` copies them; an array counts. -/
def spreadFields? : Json → Option (List (String × Json))
  | .obj fields => some fields
  | .arr xs => some (indexedFields xs)
  | _ => none

/-- `{ ...record, [key]: value }`. -/
def withField : Json → String → Json → Json
  | .obj fields, key, value => .obj (OrderedMap.set fields key value)
  | t, _, _ => t

/-- Resolves `steps` to the steps of the current job, or to the jobs. -/
def enrichVariablesWithStepsShortcut (vars : Json) : Json :=
  match vars.getNested (splitDots "_internal.current_job_id") with
  | some (.str currentJobId) =>
      let jobSteps :=
        (vars.getNested (splitDots ("jobs." ++ currentJobId ++ ".steps"))).bind spreadFields?
      match jobSteps with
      | some steps => withField vars "steps" (.obj steps)
      | none =>
          match vars.getNested (splitDots "jobs") with
          | some (.obj jobs) => withField vars "steps" (.obj jobs)
          | some (.arr jobs) => withField vars "steps" (.arr jobs)
          | _ => vars
  | _ => vars

/-- `substituteTemplate`, with the message of its error. -/
def renderWith (env : Env) (template : String) (vars : Json) : Except String String :=
  match env.renderTemplate (rewriteLegacyStepTemplates template)
      (enrichVariablesWithStepsShortcut vars) with
  | .ok text => .ok text
  | .error message =>
      .error ("Failed to render template \"" ++ template ++ "\": " ++ message)

def substituteTemplate (env : Env) (template : String) (vars : Json) : Engine String :=
  match renderWith env template vars with
  | .ok text => .pure text
  | .error message => .fail (.failure message)

/-- `condition.replace(/&&/g, 'and').replace(/\|\|/g, 'or')`. -/
def rewriteOperators (condition : String) : String :=
  replaceAll (replaceAll condition "&&" "and") "||" "or"

/-- The target of the first transition whose condition evaluates to `true`. -/
def evaluateTransition (env : Env) :
    List IWorkflowTransition → Json → Except String (Option String)
  | [], _ => .ok none
  | t :: ts, context =>
      match env.evaluate (rewriteOperators t.condition) context with
      | .error message =>
          .error ("Failed to evaluate transition condition \"" ++ t.condition ++ "\": " ++ message)
      | .ok (.bool true) => .ok (some t.next)
      | .ok _ => evaluateTransition env ts context

/-- The target of a satisfied transition is the target of a transition. -/
theorem evaluateTransition_mem {env : Env} {context : Json} {n : String} :
    ∀ {ts : List IWorkflowTransition}, evaluateTransition env ts context = .ok (some n) →
      ∃ t ∈ ts, t.next = n
  | [], h => by simp [evaluateTransition] at h
  | t :: ts, h => by
      rw [evaluateTransition] at h
      split at h
      · cases h
      · simp only [Except.ok.injEq, Option.some.injEq] at h
        exact ⟨t, by simp, h⟩
      · obtain ⟨t', ht', hn⟩ := evaluateTransition_mem h
        exact ⟨t', by simp [ht'], hn⟩

/-! ## Definitions -/

/-- The definition of a workflow: `loadWorkflowDefinition`. -/
def findDefinition (env : Env) (workflowId : String) : Except EngineError IWorkflowDefinition :=
  match env.findByIdentifier workflowId with
  | none => .error (.notFound ("Workflow " ++ workflowId ++ " not found"))
  | some workflow =>
      match env.parseWorkflow workflow.yaml_definition with
      | .error message => .error (.failure message)
      | .ok definition => .ok definition

def loadWorkflowDefinition (env : Env) (workflowId : String) : Engine IWorkflowDefinition :=
  match findDefinition env workflowId with
  | .ok definition => .pure definition
  | .error e => .fail e

/-- `runExclusive`: the task runs while the key is held, and the key is given back in any case. -/
def runExclusive {α : Type} (key : String) (task : Engine α) : Engine α := do
  await (.acquireLock key)
  let result ← task.handle fun e => do
    await (.releaseLock key)
    .fail e
  await (.releaseLock key)
  pure result

end Nexus
