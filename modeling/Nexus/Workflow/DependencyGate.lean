import Nexus.Workflow.CompletionRuns
import Mathlib

/-!
# Jobs are enqueued after their needs

When DAG progression puts a job on the step queue, the needs that block it are flagged completed
(`progressDag_enqueues_after_needs`), in every sequence of completions of a run. A strict job is
ready when the recorded results of its needs are accepted, and on a tracked record a recorded result
belongs to a completed job; a job written with `depends_on` is ready when its entries are flagged.
An optional need whose target has no entry in `jobs` does not block.
-/

set_option autoImplicit false

namespace Nexus

open JobCompletionHandler

/-! ## Recorded results -/

/-- The entry of a job in the context of needs is there just when `jobs` has one. -/
theorem get?_buildJobNeedsContext (t : Json) (jobId : String) :
    (buildJobNeedsContext t).get? jobId =
      ((readRecord (t.field? "jobs")).get? jobId).map fun x =>
        { result := normalizeRecordedResult (orNullish
            ((readRecord ((Json.obj (readRecord (t.field? "_internal"))).field?
              "job_results")).get? jobId) ((readRecord (some x)).get? "result"))
          output := match (readRecord (some x)).get? "output" with
            | some (.obj fields) => some fields
            | _ => none } := by
  unfold buildJobNeedsContext
  exact OrderedMap.get?_map _ _ _

/-- The value of a record is the value of a path of one step. -/
theorem readRecord_get? (x : Option Json) (k : String) :
    (readRecord x).get? k = x.bind fun t => t.getNested [k] := by
  cases x with
  | none => rfl
  | some t =>
      cases t with
      | obj fields =>
          simp only [readRecord, Option.bind_some, Json.getNested]
          cases OrderedMap.get? fields k <;> rfl
      | _ => rfl

theorem getNested_cons (t : Json) (k : String) (path : List String) :
    t.getNested (k :: path) = (t.field? k).bind fun c => c.getNested path := by
  cases t with
  | obj fields =>
      simp only [Json.getNested, Json.field?]
      cases OrderedMap.get? fields k <;> rfl
  | _ => rfl

theorem hasEntry_iff (t : Json) (jobId : String) :
    hasEntry t jobId = ((readRecord (t.field? "jobs")).get? jobId).isSome := by
  rw [hasEntry, readRecord_get?, getNested_cons]

/-- Only a recorded result is accepted. -/
theorem recorded_of_accepted {policy : WorkflowDependencyResult} {a b : Option Json}
    (h : doesNeedAcceptResult policy (normalizeRecordedResult (orNullish a b)) = true) :
    a ≠ none ∨ b ≠ none := by
  cases a with
  | some x => exact Or.inl (by simp)
  | none =>
      cases b with
      | some x => exact Or.inr (by simp)
      | none =>
          have hunknown : normalizeRecordedResult (orNullish none none) = .unknown := rfl
          rw [hunknown] at h
          cases policy <;> simp [doesNeedAcceptResult] at h

/-- The results the context is built from are the recorded ones. -/
theorem readKey_jobResult (t : Json) (jobId : String) :
    (readRecord ((Json.obj (readRecord (t.field? "_internal"))).field? "job_results")).get? jobId =
      readKey t (.jobResult jobId) := by
  rw [readRecord_get?, readKey, StateKey.segs, getNested_cons]
  cases t.field? "_internal" with
  | none => rfl
  | some x =>
      rw [Option.bind_some, getNested_cons]
      cases x <;> rfl

theorem readKey_result {t : Json} {jobId : String} {x : Json}
    (h : (readRecord (t.field? "jobs")).get? jobId = some x) :
    (readRecord (some x)).get? "result" = readKey t (.result jobId) := by
  rw [readRecord_get?] at h
  rw [readRecord_get?, readKey, StateKey.segs, getNested_cons]
  cases hjobs : t.field? "jobs" with
  | none =>
      rw [hjobs] at h
      cases h
  | some jobs =>
      rw [hjobs, Option.bind_some, getNested_cons] at h
      cases hjob : jobs.field? jobId with
      | none =>
          rw [hjob] at h
          cases h
      | some y =>
          rw [hjob, Option.bind_some] at h
          cases h
          simp only [Option.bind_some, getNested_cons, hjob]

/-- **A need that is accepted is recorded**, unless it is optional and `jobs` has no entry. -/
theorem recorded_of_areNeedsSatisfied {t : Json} {needs : List NormalizedWorkflowNeed}
    (h : areNeedsSatisfied needs (buildJobNeedsContext t) = true) {need : NormalizedWorkflowNeed}
    (hmem : need ∈ needs) (hblocks : need.optional = false ∨ hasEntry t need.id = true) :
    readKey t (.jobResult need.id) ≠ none ∨ readKey t (.result need.id) ≠ none := by
  have hneed := List.all_eq_true.1 h need hmem
  rw [get?_buildJobNeedsContext] at hneed
  rw [hasEntry_iff] at hblocks
  cases hentry : (readRecord (t.field? "jobs")).get? need.id with
  | none =>
      rw [hentry] at hneed hblocks
      simp at hneed hblocks
      rw [hneed] at hblocks
      cases hblocks
  | some x =>
      rw [hentry] at hneed
      rw [Option.map_some, readKey_jobResult, readKey_result hentry] at hneed
      exact recorded_of_accepted hneed

/-! ## The gate -/

/-- A job put on the step queue of a run is a job of the definition, and the needs that block it are
completed. -/
def AfterItsNeeds (definition : IWorkflowDefinition) (r : RunId) (w : World) (q : QueueJob) : Prop :=
  q.workflowRunId = r → definition.findJob q.jobId = some q.job ∧
    ((resolveStrictDependencies definition q.job = true ∨ q.job.needs = none) →
      ∀ need ∈ q.job.needList, (need.optional = false ∨ hasEntry (w.state r) need.id = true) →
        isTrue (readKey (w.state r) (.completed need.id)) = true)

section Gate

variable {w : World} {r : RunId} {v : RunView} {env : Env} {definition : IWorkflowDefinition}

/-- A job that is ready has completed needs. -/
theorem completed_of_isReady (h : Shows w r v) (ht : v.Tracked) {job : IJob}
    (hready : v.isReady definition job (w.state r) = true)
    (hspelled : resolveStrictDependencies definition job = true ∨ job.needs = none)
    {need : NormalizedWorkflowNeed} (hneed : need ∈ job.needList)
    (hblocks : need.optional = false ∨ v.entry need.id = true) :
    isTrue (v.read (.completed need.id)) = true := by
  unfold RunView.isReady at hready
  by_cases hstrict : resolveStrictDependencies definition job = true
  · rw [if_pos hstrict] at hready
    rw [← h.entry] at hblocks
    rcases recorded_of_areNeedsSatisfied hready hneed hblocks with hne | hne
    · rw [h.read (.jobResult need.id) trivial] at hne
      exact ht.jobResult need.id hne
    · rw [h.read (.result need.id) trivial] at hne
      exact ht.result need.id hne
  · rw [if_neg hstrict] at hready
    rcases hspelled with hs | hnone
    · exact absurd hs hstrict
    · refine List.all_eq_true.1 hready need.id ?_
      rw [← needIds_of_depends_on hnone]
      exact List.mem_map_of_mem hneed

/-- The visits of DAG progression keep the record tracked and add jobs after their needs. -/
theorem keptByVisits_tracked (hd : Accepted definition) :
    KeptByVisits env definition r (AfterItsNeeds definition r) anyVisit fun _ v => v.Tracked where
  visit ht _ _ _ hvisit := ht.visited hvisit
  add := by
    rintro id rest w w' v job ht hfind h hready - h' -
    obtain ⟨hj, rfl⟩ := IWorkflowDefinition.findJob_some hfind
    refine ⟨hd.findJob hj, fun hspelled need hneed hblocks => ?_⟩
    rw [h'.read (.completed need.id) trivial, v.write_read_of_ne _ (by simp)]
    rw [h'.entry] at hblocks
    exact completed_of_isReady h ht hready hspelled hneed hblocks

end Gate

/-- **Dependency order.** In every sequence of completions of a run, whenever DAG progression puts a
job on the step queue, each of its needs that blocks it is flagged completed: each need that is not
optional or that has an entry in `jobs`, of a strict job or of a job written with `depends_on`. -/
theorem progressDag_enqueues_after_needs {otherErrors : IWorkflowDefinition → List String}
    {env : Env} {definition : IWorkflowDefinition}
    (hvalid : (validateWorkflow otherErrors definition).valid = true)
    (hplain : PlainIds definition) {w₀ : World} {r : RunId} {run₀ : WorkflowRun}
    (hkeys : w₀.KeysDistinct) (hrun : w₀.findRun r = some run₀)
    (hdef : findDefinition env run₀.workflow_id = .ok definition)
    (hfresh : FreshState run₀.state_variables) {calls : List CompletionCall}
    (hcalls : ∀ c ∈ calls, PlainId c.jobId) {c : CompletionCall} (hc : PlainId c.jobId)
    {d : Decision} {w : World}
    (hdecision : c.decision env r (w₀.afterCalls env r calls) = some (d, w))
    (hnext : d.next = some none) :
    ∀ step ∈ (progressDagOrComplete env r d.definition c.jobId).trace Op.exec w,
      ∀ q, step.2 = .stepQueueAdd q → AfterItsNeeds definition r step.1 q := by
  have hd := accepted_of_valid hvalid
  obtain ⟨v, h, ht, hdef'⟩ := onTrack_afterCalls hd hplain
    (onTrack_of_fresh hkeys hrun hfresh hdef) hcalls
  obtain ⟨rfl, hfind, -, -, -, hdecided⟩ := c.decides hd hplain h hc hdef' hdecision
  rw [hnext] at hdecided
  obtain ⟨hj, hid⟩ := IWorkflowDefinition.findJob_some hfind
  obtain ⟨groups, level, hgroups, hg⟩ := hd.groups
  have hkept : KeptByVisits env d.definition r (AfterItsNeeds d.definition r) anyVisit
      fun _ v => v.Tracked := keptByVisits_tracked hd
  have hprogress := progressDagOrComplete_spec hd hplain hkept (fun _ q hq hr => absurd hr hq)
    hgroups hg hj hdecided (ht.accept c.jobId c.output) fun _ _ => trivial
  rw [hid] at hprogress
  intro step hstep q hq
  have hadding := Prog.Meets.trace _ hprogress step hstep
  rw [hq] at hadding
  exact hadding

/-- A job with one dependency. -/
def chainDefinition : IWorkflowDefinition where
  workflow_id := "workflow"
  jobs := some [{ id := "build" }, { id := "deploy", depends_on := some ["build"] }]

/-- The gate on the completion of the first job of a chain. -/
theorem progressDag_enqueues_after_needs_chain :
    ∃ d w, CompletionCall.decision (.ofDefinition chainDefinition) 0 .launched ⟨"build", [], 0⟩ =
        some (d, w) ∧
      ∀ step ∈ (progressDagOrComplete (.ofDefinition chainDefinition) 0 d.definition
          "build").trace Op.exec w,
        ∀ q, step.2 = .stepQueueAdd q → AfterItsNeeds chainDefinition 0 step.1 q := by
  have hnext : (CompletionCall.decision (.ofDefinition chainDefinition) 0 .launched
      ⟨"build", [], 0⟩).map (fun d => d.1.next) = some (some none) := by decide +kernel
  obtain ⟨⟨d, w⟩, hdecision, hd⟩ := Option.map_eq_some_iff.1 hnext
  have hvalid : (validateWorkflow (fun _ => []) chainDefinition).valid = true := by decide +kernel
  have hcalls : ∀ c ∈ ([] : List CompletionCall), PlainId c.jobId := by simp
  exact ⟨d, w, hdecision, progressDag_enqueues_after_needs hvalid (by decide) keysDistinct_launched
    rfl rfl freshState_launched hcalls (show PlainId "build" by decide) hdecision hd⟩

/-- A strict job with an optional need on the target of a transition. -/
def optionalNeedDefinition : IWorkflowDefinition where
  workflow_id := "workflow"
  jobs := some
    [{ id := "start", transitions := some [⟨"false", "branch"⟩] }, { id := "branch" },
     { id := "join", strict_dependencies := some true,
       needs := some [.id "start", .object (some "branch") none none (some true)] }]

/-- The job that an operation puts on the step queue. -/
def Op.queuedJob? : Op → Option QueueJob
  | .stepQueueAdd job => some job
  | _ => none

theorem eq_of_queuedJob? {o : Op} {q : QueueJob} (h : o.queuedJob? = some q) :
    o = .stepQueueAdd q := by
  cases o with
  | stepQueueAdd job => rw [Option.some.inj h]
  | _ => cases h

/-- The target of an optional need that was never started does not hold its job back: the job is put
on the step queue though it needs the target and the target is not completed. -/
theorem optional_need_not_awaited :
    (validateWorkflow (fun _ => []) optionalNeedDefinition).valid = true ∧
    ∃ d w, CompletionCall.decision (.ofDefinition optionalNeedDefinition) 0 .launched
        ⟨"start", [], 0⟩ = some (d, w) ∧ d.next = some none ∧
      ∃ step ∈ (progressDagOrComplete (.ofDefinition optionalNeedDefinition) 0 d.definition
          "start").trace Op.exec w,
        ∃ q, step.2 = .stepQueueAdd q ∧ q.jobId = "join" ∧ "branch" ∈ q.job.needIds ∧
          isTrue (readKey (step.1.state 0) (.completed "branch")) = false := by
  refine ⟨by decide +kernel, ?_⟩
  have hfound : (CompletionCall.decision (.ofDefinition optionalNeedDefinition) 0 .launched
      ⟨"start", [], 0⟩).any (fun d => d.1.next = some none &&
        ((progressDagOrComplete (.ofDefinition optionalNeedDefinition) 0 d.1.definition
          "start").trace Op.exec d.2).any fun step => step.2.queuedJob?.any fun q =>
            q.jobId = "join" && "branch" ∈ q.job.needIds &&
              !isTrue (readKey (step.1.state 0) (.completed "branch"))) = true := by decide +kernel
  obtain ⟨⟨d, w⟩, hdecision, hd⟩ := (Option.any_eq_true _ _).1 hfound
  simp only [Bool.and_eq_true, decide_eq_true_eq] at hd
  obtain ⟨step, hstep, hq⟩ := List.any_eq_true.1 hd.2
  refine ⟨d, w, hdecision, hd.1, step, hstep, ?_⟩
  obtain ⟨q, hqueued, hq⟩ := (Option.any_eq_true _ _).1 hq
  simp only [Bool.and_eq_true, decide_eq_true_eq, Bool.not_eq_true'] at hq
  exact ⟨q, eq_of_queuedJob? hqueued, hq.1.1, hq.1.2, hq.2⟩

end Nexus
