import Mathlib.Data.List.Nodup

/-!
# Workflow definitions and their needs

The parts of a workflow definition the engine reads: jobs with their two spellings of dependencies
(`needs` and `depends_on`), conditions, transitions and the concurrency policy, and the
normalisation of needs (`workflow-needs.utils.ts`).
-/

set_option autoImplicit false

namespace Nexus

/-! ## Strings -/

/-- The characters `String.prototype.trim` removes: white space and line terminators. -/
def isJsWhitespace (c : Char) : Bool :=
  let n := c.toNat
  (9 ≤ n && n ≤ 13) || n = 32 || n = 0xA0 || n = 0x1680 || (0x2000 ≤ n && n ≤ 0x200A) ||
    n = 0x2028 || n = 0x2029 || n = 0x202F || n = 0x205F || n = 0x3000 || n = 0xFEFF

/-- `trim` on the characters of a string. -/
def trimChars (cs : List Char) : List Char :=
  ((cs.dropWhile isJsWhitespace).reverse.dropWhile isJsWhitespace).reverse

/-- `s.trim()`. -/
def jsTrim (s : String) : String := String.ofList (trimChars s.toList)

/-- `typeof value === 'string' && value.trim().length > 0` for a string. -/
def isNonEmptyString (s : String) : Bool := trimChars s.toList ≠ []

/-! ## Definitions -/

/-- The results a need may require of its target. -/
inductive WorkflowDependencyResult where
  | success
  | skipped
  | failed
  | cancelled
  | successOrSkipped
  | any
  deriving DecidableEq, Repr

/-- The result recorded for a job. -/
inductive WorkflowRecordedResult where
  | success
  | skipped
  | failed
  | cancelled
  | unknown
  deriving DecidableEq, Repr

/-- The text a recorded result is stored as. -/
def WorkflowRecordedResult.text : WorkflowRecordedResult → String
  | .success => "success"
  | .skipped => "skipped"
  | .failed => "failed"
  | .cancelled => "cancelled"
  | .unknown => "unknown"

/-- An entry of `needs`: a target id, or an object naming a target with a policy. -/
inductive WorkflowNeed where
  | id (target : String)
  | object (job step : Option String) (result : Option WorkflowDependencyResult)
      (optional : Option Bool)
  deriving DecidableEq, Repr

/-- A transition to another job, taken when its condition evaluates to `true`. -/
structure IWorkflowTransition where
  condition : String
  next : String
  deriving DecidableEq, Repr

/-- A job of a workflow. -/
structure IJob where
  id : String
  tier : String := "light"
  condition : Option String := none
  /-- The field `if`, an alias of `condition`. -/
  ifCondition : Option String := none
  needs : Option (List WorkflowNeed) := none
  depends_on : Option (List String) := none
  strict_dependencies : Option Bool := none
  transitions : Option (List IWorkflowTransition) := none
  deriving DecidableEq, Repr

/-- What to do with a launch that finds its scope full. -/
inductive ConcurrencyConflictPolicy where
  | skip
  | queue
  | cancelRunning
  deriving DecidableEq, Repr

structure IConcurrencyPolicy where
  max_runs : Nat
  scope : Option String := none
  on_conflict : Option ConcurrencyConflictPolicy := none
  deriving DecidableEq, Repr

structure IWorkflowDefinition where
  workflow_id : String
  name : String := "workflow"
  concurrency : Option IConcurrencyPolicy := none
  strict_dependencies : Option Bool := none
  jobs : Option (List IJob) := none
  deriving DecidableEq, Repr

/-- `def.jobs ?? []`. -/
def IWorkflowDefinition.jobList (d : IWorkflowDefinition) : List IJob := d.jobs.getD []

/-- `def.jobs?.find((candidate) => candidate.id === jobId)`. -/
def IWorkflowDefinition.findJob (d : IWorkflowDefinition) (jobId : String) : Option IJob :=
  d.jobList.find? fun candidate => candidate.id = jobId

/-- `job.condition ?? job.if`, when it is not the empty string. -/
def IJob.jobCondition (j : IJob) : Option String :=
  match j.condition <|> j.ifCondition with
  | none => none
  | some c => if c = "" then none else some c

/-- `job.transitions ?? []`. -/
def IJob.transitionList (j : IJob) : List IWorkflowTransition := j.transitions.getD []

variable {d : IWorkflowDefinition} {j : IJob}

theorem IWorkflowDefinition.findJob_some {jobId : String} (h : d.findJob jobId = some j) :
    j ∈ d.jobList ∧ j.id = jobId := by
  refine ⟨List.mem_of_find?_eq_some h, ?_⟩
  have := List.find?_some h
  simpa using this

theorem IWorkflowDefinition.findJob_isSome (h : j ∈ d.jobList) :
    ∃ j', d.findJob j.id = some j' := by
  have : (d.findJob j.id).isSome := by
    simp only [findJob, List.find?_isSome]
    exact ⟨j, h, by simp⟩
  exact Option.isSome_iff_exists.1 this

/-- The job of an id, when ids are distinct. -/
theorem IWorkflowDefinition.findJob_of_mem (hd : (d.jobList.map IJob.id).Nodup)
    (h : j ∈ d.jobList) :
    d.findJob j.id = some j := by
  obtain ⟨j', hj'⟩ := findJob_isSome h
  obtain ⟨hmem, hid⟩ := findJob_some hj'
  rw [hj', List.inj_on_of_nodup_map hd hmem h hid]

/-! ## Needs -/

/-- The owner of a list of needs. -/
inductive WorkflowNeedScope where
  | job
  | step
  deriving DecidableEq, Repr

/-- `capitalize(ownerKind)`. -/
def WorkflowNeedScope.capitalize : WorkflowNeedScope → String
  | .job => "Job"
  | .step => "Step"

/-- The plain text of an owner kind. -/
def WorkflowNeedScope.text : WorkflowNeedScope → String
  | .job => "job"
  | .step => "step"

structure NormalizedWorkflowNeed where
  id : String
  scope : WorkflowNeedScope
  requiredResult : WorkflowDependencyResult
  optional : Bool
  deriving DecidableEq, Repr

/-- One entry of `needs`; the error is the message of the exception. -/
def normalizeNeed (ownerId : String) (ownerKind : WorkflowNeedScope) :
    WorkflowNeed → Except String NormalizedWorkflowNeed
  | .id target =>
      if isNonEmptyString target then
        .ok { id := jsTrim target, scope := ownerKind, requiredResult := .success,
              optional := false }
      else
        .error (ownerKind.capitalize ++ " " ++ ownerId ++ " has empty needs entry")
  | .object job step result optional =>
      let targetId := if ownerKind = .step then step else job
      match targetId with
      | some target =>
          if isNonEmptyString target then
            .ok { id := jsTrim target, scope := ownerKind,
                  requiredResult := result.getD .success, optional := optional = some true }
          else
            .error (ownerKind.capitalize ++ " " ++ ownerId ++
              " needs entries must reference a " ++ ownerKind.text)
      | none =>
          .error (ownerKind.capitalize ++ " " ++ ownerId ++
            " needs entries must reference a " ++ ownerKind.text)

/-- `normalizeWorkflowNeeds`: `needs` when it is given, else the entries of `depends_on`. -/
def normalizeWorkflowNeeds (ownerId : String) (ownerKind : WorkflowNeedScope)
    (needs : Option (List WorkflowNeed)) (legacyDependsOn : Option (List String)) :
    Except String (List NormalizedWorkflowNeed) :=
  match needs, legacyDependsOn with
  | some _, some _ =>
      .error (ownerKind.capitalize ++ " " ++ ownerId ++ " cannot define both needs and depends_on")
  | some ns, none => ns.mapM (normalizeNeed ownerId ownerKind)
  | none, _ =>
      .ok ((legacyDependsOn.getD []).map fun id =>
        { id := id, scope := .job, requiredResult := .success, optional := false })

def normalizeWorkflowJobNeeds (job : IJob) : Except String (List NormalizedWorkflowNeed) :=
  normalizeWorkflowNeeds job.id .job job.needs job.depends_on

/-- The normalised needs of a job whose normalisation does not throw. -/
def IJob.needList (job : IJob) : List NormalizedWorkflowNeed :=
  match normalizeWorkflowJobNeeds job with
  | .ok ns => ns
  | .error _ => []

/-- The ids of the needs of a job. -/
def IJob.needIds (job : IJob) : List String := job.needList.map NormalizedWorkflowNeed.id

/-- `resolveStrictDependencies`. -/
def resolveStrictDependencies (definition : IWorkflowDefinition) (job : IJob) : Bool :=
  job.strict_dependencies = some true || definition.strict_dependencies = some true

/-- The needs of a job with `depends_on` only are its entries. -/
theorem needIds_of_depends_on {job : IJob} (hn : job.needs = none) :
    job.needIds = job.depends_on.getD [] := by
  simp [IJob.needIds, IJob.needList, normalizeWorkflowJobNeeds, normalizeWorkflowNeeds, hn,
    Function.comp_def]

end Nexus
