import Nexus.Workflow.DagFacts

/-!
# Validation of workflow definitions

`WorkflowValidationService.validateWorkflow`, with the checks of the fields the engine reads: ids,
tiers, needs, transitions and the graph. The checks of fields no modelled function reads
(permissions, host mounts, job types, tools, skills) are the parameter `otherErrors`.

`accepted_of_valid` says what the engine may rely on for a definition that passed.
-/

set_option autoImplicit false

namespace Nexus

/-- The errors of a check, and whether the check turns the validation of the graph off. -/
structure CheckResult where
  errors : List String := []
  skipGraphValidation : Bool := false

/-- Several checks after each other. -/
def CheckResult.append (r r' : CheckResult) : CheckResult :=
  ⟨r.errors ++ r'.errors, r.skipGraphValidation || r'.skipGraphValidation⟩

/-- A check of every element of a list. -/
def checkEach {α : Type} (check : α → CheckResult) : List α → CheckResult
  | [] => {}
  | x :: xs => (check x).append (checkEach check xs)

/-- An error that turns the validation of the graph off. -/
def blocking (message : String) : CheckResult := ⟨[message], true⟩

def validateWorkflowStructure (definition : IWorkflowDefinition) : List String :=
  (if isNonEmptyString definition.workflow_id then [] else ["Missing workflow_id"]) ++
  (if isNonEmptyString definition.name then [] else ["Missing name"]) ++
  (if definition.jobList = [] then ["Workflow must contain at least one job"] else [])

/-- The ids of `jobIdCounts` with a count above one. -/
def duplicateJobIds (jobs : List IJob) : List String :=
  let ids := (jobs.map IJob.id).filter (· ≠ "")
  ids.eraseDups.filter fun id => ids.count id > 1

def validateJobCollection (jobs : List IJob) : List String :=
  ((duplicateJobIds jobs).map fun id => "Duplicate job ID: " ++ id) ++
  jobs.flatMap fun job =>
    if isNonEmptyString job.id then
      if isNonEmptyString job.tier then [] else ["Job '" ++ job.id ++ "' missing tier"]
    else ["Job missing id"]

/-- One entry of `needs`. -/
def validateNeed (job : IJob) : WorkflowNeed → CheckResult
  | .id target =>
      if isNonEmptyString target then {}
      else blocking ("Job '" ++ job.id ++ "' needs contains invalid entry")
  | .object target _ _ _ =>
      if isNonEmptyString (target.getD "") then {}
      else blocking ("Job '" ++ job.id ++ "' needs entry must reference a job")

def validateNeeds (job : IJob) : CheckResult :=
  match job.needs with
  | none => {}
  | some needs => checkEach (validateNeed job) needs

def validateDependsOn (job : IJob) : CheckResult :=
  let both :=
    if job.depends_on.isSome ∧ job.needs.isSome then
      blocking ("Job '" ++ job.id ++ "' cannot define both needs and depends_on")
    else {}
  let entries :=
    match job.depends_on with
    | none => {}
    | some ds =>
        if ds.all (· ≠ "") then {}
        else blocking ("Job '" ++ job.id ++ "' depends_on contains invalid entry")
  (both.append entries).append (validateNeeds job)

def validateTransitions (job : IJob) : CheckResult :=
  checkEach (fun t =>
    if isNonEmptyString t.next then {}
    else blocking ("Job '" ++ job.id ++ "' transition target must be a non-empty string"))
    job.transitionList

def validateJobStructuralFields (jobs : List IJob) : CheckResult :=
  checkEach (fun job =>
    if isNonEmptyString job.id then (validateDependsOn job).append (validateTransitions job)
    else {}) jobs

def validateGraph (jobs : List IJob) (skipGraphValidation : Bool) : List String :=
  if skipGraphValidation then []
  else
    match DAGResolverService.buildDependencyGraph jobs with
    | .ok _ => []
    | .error message => [message]

structure ValidationResult where
  valid : Bool
  errors : List String
  deriving DecidableEq

/-- `validateWorkflow`; the collector keeps the first of equal messages. -/
def validateWorkflow (otherErrors : IWorkflowDefinition → List String)
    (definition : IWorkflowDefinition) : ValidationResult :=
  let jobs := definition.jobList
  let structural := validateJobStructuralFields jobs
  let errors :=
    if jobs = [] then validateWorkflowStructure definition ++ otherErrors definition
    else validateWorkflowStructure definition ++ validateJobCollection jobs ++ structural.errors ++
      otherErrors definition ++ validateGraph jobs structural.skipGraphValidation
  ⟨errors = [], errors.eraseDups⟩

/-! ## Accepted definitions -/

/-- What an accepted definition guarantees. -/
structure Accepted (definition : IWorkflowDefinition) : Prop where
  nonempty : definition.jobList ≠ []
  ids : ∀ j ∈ definition.jobList, isNonEmptyString j.id = true
  nodup : (definition.jobList.map IJob.id).Nodup
  oneSpelling : ∀ j ∈ definition.jobList, j.depends_on = none ∨ j.needs = none
  graph : ∃ graph, DAGResolverService.buildDependencyGraph definition.jobList = .ok graph

theorem checkEach_errors {α : Type} {check : α → CheckResult} {l : List α}
    (h : (checkEach check l).errors = []) : ∀ x ∈ l, (check x).errors = [] := by
  induction l with
  | nil => simp
  | cons a l ih =>
      simp only [checkEach, CheckResult.append, List.append_eq_nil_iff] at h
      intro x hx
      rcases List.mem_cons.1 hx with rfl | hx
      · exact h.1
      · exact ih h.2 x hx

/-- A check that turns the graph off reports an error. -/
theorem checkEach_skip {α : Type} {check : α → CheckResult} {l : List α}
    (hcheck : ∀ x ∈ l, (check x).errors = [] → (check x).skipGraphValidation = false)
    (h : (checkEach check l).errors = []) : (checkEach check l).skipGraphValidation = false := by
  induction l with
  | nil => rfl
  | cons a l ih =>
      simp only [checkEach, CheckResult.append, List.append_eq_nil_iff] at h
      simp only [checkEach, CheckResult.append, Bool.or_eq_false_iff]
      exact ⟨hcheck a (by simp) h.1, ih (fun x hx => hcheck x (by simp [hx])) h.2⟩

variable {j job : IJob}

theorem validateNeeds_skip (h : (validateNeeds job).errors = []) :
    (validateNeeds job).skipGraphValidation = false := by
  unfold validateNeeds at h ⊢
  cases hn : job.needs with
  | none => rfl
  | some needs =>
      rw [hn] at h
      refine checkEach_skip (fun x _ hx => ?_) h
      cases x with
      | id target =>
          simp only [validateNeed] at hx ⊢
          split at hx
          · rename_i hne
            rw [if_pos hne]
          · simp [blocking] at hx
      | object target step result optional =>
          simp only [validateNeed] at hx ⊢
          split at hx
          · rename_i hne
            rw [if_pos hne]
          · simp [blocking] at hx

theorem validateDependsOn_ok (h : (validateDependsOn job).errors = []) :
    (validateDependsOn job).skipGraphValidation = false ∧
      (job.depends_on = none ∨ job.needs = none) := by
  simp only [validateDependsOn, CheckResult.append, List.append_eq_nil_iff] at h
  obtain ⟨⟨hboth, hentries⟩, hneeds⟩ := h
  have hnot : ¬ (job.depends_on.isSome ∧ job.needs.isSome) := by
    intro hb
    rw [if_pos hb] at hboth
    simp [blocking] at hboth
  refine ⟨?_, ?_⟩
  · simp only [validateDependsOn, CheckResult.append, Bool.or_eq_false_iff]
    refine ⟨⟨by rw [if_neg hnot], ?_⟩, validateNeeds_skip hneeds⟩
    cases hd : job.depends_on with
    | none => rfl
    | some ds =>
        rw [hd] at hentries
        simp only at hentries ⊢
        split at hentries
        · rename_i hall
          rw [if_pos hall]
        · simp [blocking] at hentries
  · cases hd : job.depends_on with
    | none => exact Or.inl rfl
    | some ds =>
        cases hn : job.needs with
        | none => exact Or.inr rfl
        | some ns => exact absurd ⟨by simp [hd], by simp [hn]⟩ hnot

theorem validateTransitions_skip (h : (validateTransitions job).errors = []) :
    (validateTransitions job).skipGraphValidation = false := by
  refine checkEach_skip (fun t _ ht => ?_) h
  by_cases hne : isNonEmptyString t.next = true
  · rw [if_pos hne]
  · rw [if_neg hne] at ht
    simp [blocking] at ht

theorem nodup_of_no_duplicates {jobs : List IJob} (hids : ∀ j ∈ jobs, j.id ≠ "")
    (h : duplicateJobIds jobs = []) : (jobs.map IJob.id).Nodup := by
  have hfilter : (jobs.map IJob.id).filter (· ≠ "") = jobs.map IJob.id := by
    rw [List.filter_eq_self]
    intro id hid
    obtain ⟨j, hj, rfl⟩ := List.mem_map.1 hid
    simpa using hids j hj
  unfold duplicateJobIds at h
  rw [hfilter, List.filter_eq_nil_iff] at h
  rw [List.nodup_iff_count_le_one]
  intro id
  by_cases hid : id ∈ jobs.map IJob.id
  · have := h id (List.mem_eraseDups.2 hid)
    simpa using this
  · rw [List.count_eq_zero_of_not_mem hid]
    omega

theorem isNonEmptyString_ne {s : String} (h : isNonEmptyString s = true) : s ≠ "" := by
  rintro rfl
  revert h
  decide

/-- **What the engine may rely on.** -/
theorem accepted_of_valid {otherErrors : IWorkflowDefinition → List String}
    {definition : IWorkflowDefinition}
    (h : (validateWorkflow otherErrors definition).valid = true) : Accepted definition := by
  simp only [validateWorkflow, decide_eq_true_eq] at h
  by_cases hjobs : definition.jobList = []
  · simp [hjobs, validateWorkflowStructure] at h
  · rw [if_neg hjobs] at h
    simp only [List.append_eq_nil_iff] at h
    obtain ⟨⟨⟨⟨-, hcoll⟩, hstruct⟩, -⟩, hgraph⟩ := h
    simp only [validateJobCollection, List.append_eq_nil_iff, List.map_eq_nil_iff,
      List.flatMap_eq_nil_iff] at hcoll
    have hids : ∀ j ∈ definition.jobList, isNonEmptyString j.id = true := by
      intro j hj
      by_contra hne
      have := hcoll.2 j hj
      rw [if_neg hne] at this
      simp at this
    have hfields : ∀ j ∈ definition.jobList,
        (validateDependsOn j).errors = [] ∧ (validateTransitions j).errors = [] := by
      intro j hj
      have := checkEach_errors hstruct j hj
      rw [if_pos (hids j hj)] at this
      simpa only [CheckResult.append, List.append_eq_nil_iff] using this
    have hskip : (validateJobStructuralFields definition.jobList).skipGraphValidation = false := by
      refine checkEach_skip (fun j hj _ => ?_) hstruct
      rw [if_pos (hids j hj)]
      simp only [CheckResult.append, Bool.or_eq_false_iff]
      exact ⟨(validateDependsOn_ok (hfields j hj).1).1, validateTransitions_skip (hfields j hj).2⟩
    refine ⟨hjobs, hids, ?_, fun j hj => (validateDependsOn_ok (hfields j hj).1).2, ?_⟩
    · exact nodup_of_no_duplicates (fun j hj => isNonEmptyString_ne (hids j hj)) hcoll.1
    · rw [hskip, validateGraph] at hgraph
      simp only [Bool.false_eq_true, if_false] at hgraph
      split at hgraph
      · rename_i graph hg
        exact ⟨graph, hg⟩
      · simp at hgraph

namespace Accepted

variable {definition : IWorkflowDefinition} (h : Accepted definition)
include h

theorem empty_notMem : "" ∉ definition.jobList.map IJob.id := by
  intro hmem
  obtain ⟨j, hj, hid⟩ := List.mem_map.1 hmem
  exact isNonEmptyString_ne (h.ids j hj) hid

/-- The groups of an accepted definition. -/
theorem groups : ∃ groups level, parallelGroups definition.jobList = .ok groups ∧
    GroupedJobs definition.jobList groups level := by
  obtain ⟨graph, hgraph⟩ := h.graph
  have hg : parallelGroups definition.jobList = .ok (DAGResolverService.findParallelJobs graph) := by
    rw [parallelGroups, hgraph]
    rfl
  obtain ⟨level, hl⟩ := parallelGroups_spec h.nodup h.empty_notMem hg
  exact ⟨_, level, hg, hl⟩

/-- The needs of a job are normalised without an error and name jobs of the definition. -/
theorem needs (hj : j ∈ definition.jobList) :
    normalizeWorkflowJobNeeds j = .ok j.needList ∧
      ∀ d ∈ j.needIds, d ∈ definition.jobList.map IJob.id := by
  obtain ⟨graph, hgraph⟩ := h.graph
  exact (DAGResolverService.buildDependencyGraph_ok h.nodup hgraph).2.2.1 j hj

/-- Transitions lead to jobs of the definition. -/
theorem transitions (hj : j ∈ definition.jobList) {t : IWorkflowTransition}
    (ht : t ∈ j.transitionList) : t.next ∈ definition.jobList.map IJob.id := by
  obtain ⟨graph, hgraph⟩ := h.graph
  exact (DAGResolverService.buildDependencyGraph_ok h.nodup hgraph).2.2.2 j hj t ht

/-- The job of an id. -/
theorem findJob (hj : j ∈ definition.jobList) : definition.findJob j.id = some j :=
  IWorkflowDefinition.findJob_of_mem h.nodup hj

end Accepted

end Nexus
