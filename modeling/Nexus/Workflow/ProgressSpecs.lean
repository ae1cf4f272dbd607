import Nexus.Workflow.RunSpecs
import Nexus.Workflow.Validation

/-!
# Contracts of DAG progression

What the progression along the levels does to the view of a run, for an accepted definition whose
ids are plain: the visit of one job (`Visited`), the visits of all levels above the completed job as
an induction over the jobs left to visit, and the end of the run, whose hand-over of the scope
happens `Elsewhere`.
-/

set_option autoImplicit false

namespace Nexus

/-- Every job id of the definition is plain. -/
def PlainIds (definition : IWorkflowDefinition) : Prop :=
  ∀ j ∈ definition.jobList, PlainId j.id

instance (definition : IWorkflowDefinition) : Decidable (PlainIds definition) :=
  inferInstanceAs (Decidable (∀ j ∈ definition.jobList, PlainId j.id))

variable {j job : IJob}

namespace Accepted

variable {definition : IWorkflowDefinition} (h : Accepted definition)
include h

theorem plain_needIds (hp : PlainIds definition) (hj : j ∈ definition.jobList) :
    ∀ d ∈ j.needIds, PlainId d := by
  intro d hd
  obtain ⟨j', hj', rfl⟩ := List.mem_map.1 ((h.needs hj).2 d hd)
  exact hp j' hj'

/-- The entries of `depends_on` are needs. -/
theorem depends_on_subset (hj : j ∈ definition.jobList) :
    ∀ d ∈ j.depends_on.getD [], d ∈ j.needIds := by
  rcases h.oneSpelling j hj with hnone | hnone
  · simp [hnone]
  · rw [needIds_of_depends_on hnone]
    exact fun _ hd => hd

theorem plain_depends_on (hp : PlainIds definition) (hj : j ∈ definition.jobList) :
    ∀ d ∈ j.depends_on.getD [], PlainId d := fun d hd =>
  h.plain_needIds hp hj d (h.depends_on_subset hj d hd)

theorem plain_next (hp : PlainIds definition) (hj : j ∈ definition.jobList) :
    ∀ t ∈ j.transitionList, PlainId t.next := by
  intro t ht
  obtain ⟨j', hj', hid⟩ := List.mem_map.1 (h.transitions hj ht)
  rw [← hid]
  exact hp j' hj'

end Accepted

/-- Every job of a list is flagged completed. -/
def RunView.flagged (v : RunView) (ids : List String) : Bool :=
  ids.all fun d => isTrue (v.read (.completed d))

/-- The readiness of a job: the recorded results of a strict one, the flags of `depends_on` else. -/
def RunView.isReady (v : RunView) (definition : IWorkflowDefinition) (job : IJob)
    (stateVariables : Json) : Bool :=
  if resolveStrictDependencies definition job then
    areNeedsSatisfied job.needList (buildJobNeedsContext stateVariables)
  else v.flagged (job.depends_on.getD [])

/-- What the visit of a job by the progression leads to. -/
inductive Visited (env : Env) (definition : IWorkflowDefinition) (r : RunId) (job : IJob)
    (stateVariables : Json) (v : RunView) : RunView → Prop where
  /-- It is not ready yet. -/
  | waiting (hready : v.isReady definition job stateVariables = false)
      (hopen : ¬ (resolveStrictDependencies definition job = true ∧
        v.flagged job.needIds = true)) :
      Visited env definition r job stateVariables v v
  /-- It is strict and the results of its needs rule it out. -/
  | blocked (hready : v.isReady definition job stateVariables = false)
      (hstrict : resolveStrictDependencies definition job = true)
      (hneeds : v.flagged job.needIds = true) :
      Visited env definition r job stateVariables v (v.skip job.id "needs_not_satisfied")
  /-- Its condition does not hold. -/
  | excluded (hready : v.isReady definition job stateVariables = true)
      (hcondition : conditionValue env job stateVariables = .ok false) :
      Visited env definition r job stateVariables v (v.skip job.id "condition_false")
  /-- It is queued, unless it was before. -/
  | queued (hready : v.isReady definition job stateVariables = true)
      (hcondition : conditionValue env job stateVariables = .ok true) :
      Visited env definition r job stateVariables v (v.queueJob r job)

variable {A : World → QueueJob → Prop} {w : World} {r : RunId} {v : RunView}
  {E : EngineError → World → Prop} {env : Env} {definition : IWorkflowDefinition}

variable {v' : RunView}

/-- A visit changes nothing about the run itself. -/
theorem Visited.run_eq {t : Json} (h : Visited env definition r job t v v') :
    v'.workflow_id = v.workflow_id ∧ v'.status = v.status := by
  cases h with
  | waiting _ _ => exact ⟨rfl, rfl⟩
  | blocked _ _ _ => exact ⟨rfl, rfl⟩
  | excluded _ _ => exact ⟨rfl, rfl⟩
  | queued _ _ => exact ⟨v.queueJob_workflow_id r job, v.queueJob_status r job⟩

theorem areFlaggedCompleted_spec (h : Shows w r v) :
    ∀ {ids : List String}, (∀ d ∈ ids, PlainId d) →
      RunsTo A (areFlaggedCompleted r ids) w (fun b w' => w' = w ∧ b = v.flagged ids) E
  | [], _ => runsTo_pure ⟨rfl, rfl⟩
  | d :: ids, hp => by
      have hk : (StateKey.completed d).Plain := hp d (by simp)
      refine (getVariable_spec h hk trivial).bind ?_
      rintro completed w' ⟨hw, rfl⟩
      subst w'
      cases hd : isTrue (v.read (.completed d)) with
      | false =>
          rw [if_neg (by simp)]
          exact runsTo_pure ⟨rfl, by simp [RunView.flagged, hd]⟩
      | true =>
          rw [if_pos rfl]
          refine (areFlaggedCompleted_spec h fun d' hd' => hp d' (by simp [hd'])).mono ?_
            fun _ _ he => he
          rintro b w'' ⟨rfl, rfl⟩
          exact ⟨rfl, by simp [RunView.flagged, hd]⟩

/-- An operation without an exception that the validation excludes. -/
theorem orBadRequest_spec {α : Type} {a : α} {e : Except String α} (he : e = .ok a) :
    RunsTo A (orBadRequest e) w (fun b w' => w' = w ∧ b = a) E := by
  subst he
  exact runsTo_pure ⟨rfl, rfl⟩

section Visit

variable (hd : Accepted definition) (hp : PlainIds definition)
include hd hp

theorem areDependenciesCompleted_spec (h : Shows w r v) (hj : job ∈ definition.jobList) :
    RunsTo A (areDependenciesCompleted r definition job) w
      (fun b w' => w' = w ∧ b = v.isReady definition job (w.state r)) E := by
  unfold areDependenciesCompleted RunView.isReady
  by_cases hstrict : resolveStrictDependencies definition job = true
  · rw [if_pos hstrict, if_pos hstrict]
    refine (orBadRequest_spec (hd.needs hj).1).bind ?_
    rintro needs w' ⟨rfl, rfl⟩
    refine getStateVariables_spec.bind ?_
    rintro t w'' ⟨rfl, rfl⟩
    exact runsTo_pure ⟨rfl, rfl⟩
  · rw [if_neg hstrict, if_neg hstrict]
    exact areFlaggedCompleted_spec h (hd.plain_depends_on hp hj)

theorem skipStrictJob_spec (h : Shows w r v) (hj : job ∈ definition.jobList) :
    RunsTo A (skipStrictJobWhenDependencyResultsBlock r definition job) w
      (fun _ w' =>
        (resolveStrictDependencies definition job = true ∧ v.flagged job.needIds = true ∧
          Shows w' r (v.skip job.id "needs_not_satisfied")) ∨
        (¬ (resolveStrictDependencies definition job = true ∧ v.flagged job.needIds = true) ∧
          w' = w)) E := by
  unfold skipStrictJobWhenDependencyResultsBlock
  by_cases hstrict : resolveStrictDependencies definition job = true
  · rw [if_pos hstrict]
    have hterminal : RunsTo A (areDependencyJobsTerminal r job) w
        (fun b w' => w' = w ∧ b = v.flagged job.needIds) E := by
      refine (orBadRequest_spec (hd.needs hj).1).bind ?_
      rintro needs w' ⟨rfl, rfl⟩
      exact areFlaggedCompleted_spec h (hd.plain_needIds hp hj)
    refine hterminal.bind ?_
    rintro b w' ⟨rfl, rfl⟩
    cases hflag : v.flagged job.needIds with
    | true =>
        rw [if_pos rfl]
        refine (markJobSkipped_spec h (hp job hj) _).mono ?_ fun _ _ he => he
        exact fun _ w' h' => Or.inl ⟨hstrict, rfl, h'⟩
    | false =>
        rw [if_neg (by simp)]
        exact runsTo_pure (Or.inr ⟨by simp, rfl⟩)
  · rw [if_neg hstrict]
    exact runsTo_pure (Or.inr ⟨fun hn => hstrict hn.1, rfl⟩)

/-- The choice about a job: it is to be queued, or the visit is over. -/
theorem tryAdvanceToNextJob_spec (h : Shows w r v) {jobId : String}
    (hfind : definition.findJob jobId = some job) :
    RunsTo A (JobCompletionHandler.tryAdvanceToNextJob env r definition jobId) w
      (fun selected w' =>
        (selected = false ∧ ∃ v', Shows w' r v' ∧
          Visited env definition r job (w.state r) v v') ∨
        (selected = true ∧ w' = w ∧ v.isReady definition job (w.state r) = true ∧
          conditionValue env job (w.state r) = .ok true))
      (fun _ w' => w' = w) := by
  obtain ⟨hj, rfl⟩ := IWorkflowDefinition.findJob_some hfind
  simp only [JobCompletionHandler.tryAdvanceToNextJob, hfind]
  refine (areDependenciesCompleted_spec hd hp h hj).bind ?_
  rintro ready w' ⟨rfl, rfl⟩
  cases hready : v.isReady definition job (w'.state r) with
  | false =>
      rw [if_pos (by simp)]
      refine (skipStrictJob_spec hd hp h hj).bind ?_
      rintro _ w₁ (⟨hstrict, hneeds, h₁⟩ | ⟨hopen, rfl⟩)
      · exact runsTo_pure (Or.inl ⟨rfl, _, h₁, .blocked hready hstrict hneeds⟩)
      · exact runsTo_pure (Or.inl ⟨rfl, _, h, .waiting hready hopen⟩)
  | true =>
      rw [if_neg (by simp)]
      refine Prog.Meets.bind (conditionHolds_spec.mono (fun _ _ hQ => hQ) fun _ _ hE => hE.1) ?_
      rintro holds w₁ ⟨rfl, hcondition⟩
      cases holds with
      | false =>
          rw [if_pos (by simp)]
          refine (markJobSkipped_spec h (hp job hj) _).bind ?_
          exact fun _ w₂ h₂ => runsTo_pure (Or.inl ⟨rfl, _, h₂, .excluded hready hcondition⟩)
      | true =>
          rw [if_neg (by simp)]
          exact runsTo_pure (Or.inr ⟨rfl, rfl, rfl, hcondition⟩)

end Visit

/-! ## The levels -/

section Visits

variable (env : Env) (r : RunId) (definition : IWorkflowDefinition)

/-- The visit of a job: the choice about it, and its way to the step queue. -/
def visitJob (jobId : String) : Engine Unit := do
  let selected ← JobCompletionHandler.tryAdvanceToNextJob env r definition jobId
  if selected then enqueueJob r definition jobId

/-- The visits of the jobs of a level, each with the world it finds. -/
def visitsOfJobs : List String → World → List (String × World)
  | [], _ => []
  | jobId :: rest, w =>
      (jobId, w) :: visitsOfJobs rest ((visitJob env r definition jobId).run Op.exec w).1

/-- The visits of several levels. -/
def visitsOfLevels : List (List String) → World → List (String × World)
  | [], _ => []
  | group :: groups, w =>
      visitsOfJobs env r definition group w ++ visitsOfLevels groups
        ((JobCompletionHandler.enqueueEligibleDagNextJobs env r definition group).run Op.exec w).1

end Visits

/-- No condition on the visits. -/
def anyVisit (_ : String) (_ : World) : Prop := True

section Levels

variable (hd : Accepted definition) (hp : PlainIds definition) {I : List String → RunView → Prop}
  {P : String → World → Prop}

/-- The condition the visits that satisfy `P` keep: `I` of the ids left to visit and of the view. -/
structure KeptByVisits (env : Env) (definition : IWorkflowDefinition) (r : RunId)
    (A : World → QueueJob → Prop) (P : String → World → Prop) (I : List String → RunView → Prop) :
    Prop where
  /-- A visit keeps it. -/
  visit : ∀ {id : String} {rest : List String} {w : World} {v v' : RunView} {job : IJob},
    I (id :: rest) v → definition.findJob id = some job → P id w → Shows w r v →
    Visited env definition r job (w.state r) v v' → I rest v'
  /-- A job that a visit puts on the step queue satisfies `A` there. -/
  add : ∀ {id : String} {rest : List String} {w w' : World} {v : RunView} {job : IJob},
    I (id :: rest) v → definition.findJob id = some job → Shows w r v →
    v.isReady definition job (w.state r) = true →
    isTrueText (v.read (.queued id)) = false →
    Shows w' r (v.write (.queued id) (.bool true)) → A w' (RunView.stepQueueJob r job)

include hd hp

theorem advanceJobs_spec (hI : KeptByVisits env definition r A P I) {rest : List String} :
    ∀ {ids : List String} {first : Option String} {w : World} {v : RunView}, Shows w r v →
      I (ids ++ rest) v → (∀ id ∈ ids, id ∈ definition.jobList.map IJob.id) →
      (∀ e ∈ visitsOfJobs env r definition ids w, P e.1 e.2) →
      RunsTo A (JobCompletionHandler.advanceJobs env r definition ids first) w
        (fun _ w' => ∃ v', Shows w' r v' ∧ I rest v')
        (fun _ w' => ∃ rest' v', Shows w' r v' ∧ I rest' v')
  | [], _, _, v, h, hv, _, _ => runsTo_pure ⟨v, h, hv⟩
  | id :: ids, first, w, v, h, hv, hids, hP => by
      obtain ⟨j, hj, hid⟩ := List.mem_map.1 (hids id (by simp))
      obtain ⟨job, hfind⟩ := IWorkflowDefinition.findJob_isSome hj
      rw [hid] at hfind
      have hplain : PlainId id := hid ▸ hp j hj
      have hids' : ∀ id' ∈ ids, id' ∈ definition.jobList.map IJob.id := fun id' h' =>
        hids id' (by simp [h'])
      have hfirst : P id w := hP (id, w) (by simp [visitsOfJobs])
      have hrest : ∀ {w'}, ((visitJob env r definition id).run Op.exec w).1 = w' →
          ∀ e ∈ visitsOfJobs env r definition ids w', P e.1 e.2 := by
        rintro w' rfl e he
        exact hP e (by simp [visitsOfJobs, he])
      refine Prog.Meets.bind ((tryAdvanceToNextJob_spec hd hp h hfind).with_run.mono
        (fun _ _ hQ => hQ) fun _ w' hw => ?_) ?_
      · obtain ⟨hw, -⟩ := hw
        subst w'
        exact ⟨_, v, h, hv⟩
      · rintro selected w₁ ⟨⟨rfl, v₁, h₁, hvisit⟩ | ⟨rfl, hw, hready, hcondition⟩, hrun⟩
        · rw [if_pos (by simp)]
          refine advanceJobs_spec hI h₁ (hI.visit hv hfind hfirst h hvisit) hids' (hrest ?_)
          rw [visitJob, Prog.bind_eq, Prog.run_bind_ok Op.exec hrun]
          rfl
        · subst w₁
          rw [if_neg (by simp)]
          refine Prog.Meets.bind ((enqueueJob_spec h hfind hplain fun _ hset w' h' =>
            hI.add hv hfind h hready hset h').with_run.mono (fun _ _ hQ => hQ)
              fun _ _ hE => hE.1) ?_
          rintro _ w₂ ⟨h₂, hrun₂⟩
          refine advanceJobs_spec hI h₂ (hI.visit hv hfind hfirst h (.queued hready hcondition))
            hids' (hrest ?_)
          rw [visitJob, Prog.bind_eq, Prog.run_bind_ok Op.exec hrun, if_pos rfl, hrun₂]

theorem advanceLevels_spec (hI : KeptByVisits env definition r A P I) :
    ∀ {groups : List (List String)} {w : World} {v : RunView}, Shows w r v →
      I groups.flatten v → (∀ id ∈ groups.flatten, id ∈ definition.jobList.map IJob.id) →
      (∀ e ∈ visitsOfLevels env r definition groups w, P e.1 e.2) →
      RunsTo A (JobCompletionHandler.advanceLevels env r definition groups) w
        (fun _ w' => ∃ v', Shows w' r v' ∧ I [] v')
        (fun _ w' => ∃ rest v', Shows w' r v' ∧ I rest v')
  | [], _, v, h, hv, _, _ => runsTo_pure ⟨v, h, hv⟩
  | group :: groups, w, v, h, hv, hids, hP => by
      rw [List.flatten_cons] at hv hids
      have hgroup : RunsTo A
          (JobCompletionHandler.enqueueEligibleDagNextJobs env r definition group) w
          (fun _ w' => ∃ v', Shows w' r v' ∧ I groups.flatten v')
          (fun _ w' => ∃ rest v', Shows w' r v' ∧ I rest v') := by
        refine (advanceJobs_spec hd hp hI h hv (fun id hid => hids id (by simp [hid])) fun e he =>
          hP e (by simp [visitsOfLevels, he])).bind ?_
        rintro first w' ⟨v', h', hv'⟩
        cases first with
        | none => exact runsTo_pure ⟨v', h', hv'⟩
        | some jobId =>
            refine (updateRun_spec h' _).mono ?_ fun _ _ he => he
            exact fun _ w'' h'' => ⟨v', h'', hv'⟩
      refine Prog.Meets.bind (hgroup.with_run.mono (fun _ _ hQ => hQ) fun _ _ hE => hE.1) ?_
      rintro _ w' ⟨⟨v', h', hv'⟩, hrun⟩
      refine advanceLevels_spec hI h' hv' (fun id hid => hids id ?_) fun e he => hP e ?_
      · exact List.mem_append_right _ hid
      · rw [visitsOfLevels, hrun]
        exact List.mem_append_right _ he

end Levels

/-! ## The end of a run -/

/-- Another run was worked on: only the step queue may have changed, by jobs of other runs. -/
structure RunView.Elsewhere (r : RunId) (v v' : RunView) : Prop where
  workflow_id : v'.workflow_id = v.workflow_id
  status : v'.status = v.status
  awaiting_input : v'.awaiting_input = v.awaiting_input
  wait_reason : v'.wait_reason = v.wait_reason
  read : v'.read = v.read
  added : ∀ q ∈ v'.added, q ∈ v.added ∨ q.workflowRunId ≠ r

theorem RunView.Elsewhere.refl (r : RunId) (v : RunView) : v.Elsewhere r v :=
  ⟨rfl, rfl, rfl, rfl, rfl, fun _ hq => Or.inl hq⟩

/-- The operations on other runs. -/
def ElsewhereOp (r : RunId) : Op → Prop
  | .update id _ => r ≠ id
  | .claimJobFlag id _ _ => r ≠ id
  | .stepQueueAdd job => job.workflowRunId ≠ r
  | .findOldestPendingByScope _ _ => True
  | .emit _ => True
  | .activationCall _ => True
  | .now => True
  | _ => False

theorem Shows.elsewhere (h : Shows w r v') (hv : v.Elsewhere r v') {o : Op} (ho : ElsewhereOp r o) :
    ∃ v'', Shows (o.exec w).1 r v'' ∧ v.Elsewhere r v'' := by
  cases o with
  | update id patch => exact ⟨v', h.modifyRun_of_ne (by intro; rfl) ho, hv⟩
  | claimJobFlag id group jobId =>
      refine ⟨v', ?_, hv⟩
      simp only [Op.exec, World.claimJobFlag]
      (repeat' split) <;> first | exact h | exact h.modifyRun_of_ne (by intro; rfl) ho
  | stepQueueAdd job =>
      refine ⟨v'.enqueue job, h.stepQueueAdd job, ⟨?_, ?_, ?_, ?_, ?_, ?_⟩⟩
      · rw [RunView.enqueue_workflow_id, hv.workflow_id]
      · rw [RunView.enqueue_status, hv.status]
      · rw [RunView.enqueue_awaiting_input, hv.awaiting_input]
      · rw [RunView.enqueue_wait_reason, hv.wait_reason]
      · rw [RunView.enqueue_read, hv.read]
      · intro q hq
        unfold RunView.enqueue at hq
        split at hq
        · exact hv.added q hq
        · rcases List.mem_cons.1 hq with rfl | hq
          · exact Or.inr ho
          · exact hv.added q hq
  | findOldestPendingByScope workflowId scope => exact ⟨v', h, hv⟩
  | emit event => exact ⟨v', ⟨h.row, h.keys, h.stepQueue, h.added⟩, hv⟩
  | activationCall id => exact ⟨v', ⟨h.row, h.keys, h.stepQueue, h.added⟩, hv⟩
  | now => exact ⟨v', ⟨h.row, h.keys, h.stepQueue, h.added⟩, hv⟩
  | _ => exact ho.elim

/-- A program that works on other runs only. -/
theorem elsewhere_spec {α : Type} {p : Engine α} (hp : Prog.Uses (ElsewhereOp r) p)
    (hA : ∀ w q, q.workflowRunId ≠ r → A w q) (h : Shows w r v') (hv : v.Elsewhere r v') :
    RunsTo A p w (fun _ w' => ∃ v', Shows w' r v' ∧ v.Elsewhere r v')
      (fun _ w' => ∃ v', Shows w' r v' ∧ v.Elsewhere r v') := by
  refine Prog.Uses.meets hp ⟨v', h, hv⟩ ?_ ?_
  · rintro w o - ho
    cases o <;> first | trivial | exact hA w _ ho
  · rintro w o ans w' ⟨v', h, hv⟩ ho hpost
    have hw : w' = (o.exec w).1 := by
      have : o.exec w = (w', ans) := hpost
      rw [this]
    subst hw
    exact h.elsewhere hv ho

/-! ### The hand-over of a scope -/

theorem uses_enqueueJobs {id : RunId} (hid : r ≠ id) (definition : IWorkflowDefinition) :
    ∀ ids : List String, Prog.Uses (ElsewhereOp r) (enqueueJobs id definition ids)
  | [] => trivial
  | jobId :: ids => by
      refine Prog.uses_bind ?_ fun _ => uses_enqueueJobs hid definition ids
      unfold enqueueJob
      cases definition.findJob jobId with
      | none => trivial
      | some job =>
          refine Prog.uses_bind (Prog.uses_bind (Prog.uses_op hid) fun a => ?_) fun claimed => ?_
          · cases a with
            | none => trivial
            | some b => trivial
          · cases claimed with
            | false => trivial
            | true => exact Prog.uses_bind (Prog.uses_op (Ne.symm hid)) fun _ => Prog.uses_op trivial

theorem uses_enqueueFirstQueuedRunJobs {pendingRun : WorkflowRun} (hid : r ≠ pendingRun.id)
    (definition : IWorkflowDefinition) :
    Prog.Uses (ElsewhereOp r) (enqueueFirstQueuedRunJobs pendingRun definition) := by
  refine Prog.uses_bind ?_ fun groups => ?_
  · cases parallelGroups definition.jobList with
    | error e => trivial
    | ok groups => trivial
  · cases groups.headD [] with
    | nil =>
        exact Prog.uses_bind (Prog.uses_op trivial) fun now =>
          Prog.uses_bind (Prog.uses_op hid) fun _ => Prog.uses_op trivial
    | cons first rest =>
        exact Prog.uses_bind (Prog.uses_op hid) fun _ => uses_enqueueJobs hid definition _

/-- A run that is not PENDING is not touched by an activation. -/
theorem tryActivateNextQueuedRun_spec (h : Shows w r v) (hpending : v.status ≠ .pending)
    (hA : ∀ w q, q.workflowRunId ≠ r → A w q) (completedRun : Option RunId) (workflowId : String)
    (scope : Option String) :
    RunsTo A (tryActivateNextQueuedRun env completedRun workflowId scope) w
      (fun _ w' => ∃ v', Shows w' r v' ∧ v.Elsewhere r v')
      (fun _ w' => ∃ v', Shows w' r v' ∧ v.Elsewhere r v') := by
  have hstart : ∀ {w : World}, Shows w r v → ∃ v', Shows w r v' ∧ v.Elsewhere r v' :=
    fun h => ⟨v, h, .refl r v⟩
  have hcall : RunsTo A (await (.activationCall completedRun)) w (fun _ w' => Shows w' r v)
      (fun _ w' => ∃ v', Shows w' r v' ∧ v.Elsewhere r v') :=
    RunsTo.await rfl trivial ⟨h.row, h.keys, h.stepQueue, h.added⟩
  refine hcall.bind fun _ w₁ h₁ => ?_
  cases scope with
  | none => exact runsTo_pure (hstart h₁)
  | some scope =>
      by_cases hempty : scope = ""
      · simp only [if_pos hempty]
        exact runsTo_pure (hstart h₁)
      · simp only [if_neg hempty]
        have hcontext : RunsTo A (resolveQueuedRunActivationContext env workflowId scope) w₁
            (fun context w' => w' = w₁ ∧ ∀ definition pendingRun,
              context = .ready definition pendingRun → r ≠ pendingRun.id)
            (fun _ w' => ∃ v', Shows w' r v' ∧ v.Elsewhere r v') := by
          unfold resolveQueuedRunActivationContext
          cases env.findByIdentifier workflowId with
          | none => exact runsTo_pure ⟨rfl, by simp⟩
          | some workflow =>
              simp only
              cases env.parseWorkflow workflow.yaml_definition with
              | error message => exact hstart h₁
              | ok definition =>
                  simp only
                  split
                  · exact runsTo_pure ⟨rfl, by simp⟩
                  · have hfind : RunsTo A (await (.findOldestPendingByScope workflowId scope)) w₁
                        (fun a w' => w' = w₁ ∧ ∀ run, a = some run → r ≠ run.id)
                        (fun _ w' => ∃ v', Shows w' r v' ∧ v.Elsewhere r v') := by
                      refine RunsTo.await rfl trivial ⟨rfl, fun run hrun hid => ?_⟩
                      have hrow := World.findRun_of_mem h₁.keys (List.mem_of_find?_eq_some hrun)
                      have hstatus := List.find?_some hrun
                      simp only [Bool.and_eq_true, decide_eq_true_eq] at hstatus
                      obtain ⟨run', hrun', hv⟩ := h₁.row
                      rw [← hid, hrun', Option.some.injEq] at hrow
                      rw [← hrow, hv.status] at hstatus
                      exact hpending hstatus.2
                    refine hfind.bind ?_
                    rintro a w' ⟨rfl, hne⟩
                    cases a with
                    | none => exact runsTo_pure ⟨rfl, by simp⟩
                    | some run =>
                        refine runsTo_pure ⟨rfl, fun definition' pendingRun heq => ?_⟩
                        cases heq
                        exact hne run rfl
        refine hcontext.bind ?_
        rintro context w' ⟨rfl, hne⟩
        cases context with
        | notReady reason => exact runsTo_pure (hstart h₁)
        | ready definition pendingRun =>
            have hid := hne definition pendingRun rfl
            refine elsewhere_spec ?_ hA h₁ (.refl r v)
            exact Prog.uses_bind (Prog.uses_op trivial) fun now =>
              Prog.uses_bind (Prog.uses_op hid) fun _ =>
                Prog.uses_bind (Prog.uses_op trivial) fun _ =>
                  Prog.uses_bind (uses_enqueueFirstQueuedRunJobs hid definition) fun _ => trivial

/-- The view of a run that ended. -/
def RunView.finish (v : RunView) : RunView := { v with status := .completed }

theorem completeWorkflowRun_spec (h : Shows w r v) (hA : ∀ w q, q.workflowRunId ≠ r → A w q) :
    RunsTo A (JobCompletionHandler.completeWorkflowRun env r definition) w
      (fun _ w' => ∃ v', Shows w' r v' ∧ v.finish.Elsewhere r v')
      (fun _ w' => ∃ v', Shows w' r v' ∧ v.finish.Elsewhere r v') := by
  refine findById_spec.bind ?_
  rintro a w' ⟨rfl, rfl⟩
  obtain ⟨run, hrun, -⟩ := h.row
  simp only [hrun]
  refine (newDate_spec h).bind fun now w₁ h₁ => ?_
  refine (updateRun_spec h₁ _).bind fun _ w₂ h₂ => ?_
  refine (emit_spec h₂ _).bind fun _ w₃ h₃ => ?_
  have hfinish : Shows w₃ r v.finish := h₃
  refine (tryActivateNextQueuedRun_spec hfinish ?_ hA _ _ _).bind fun _ w₄ h₄ => ?_
  · exact WorkflowStatus.noConfusion
  · exact runsTo_pure h₄

/-! ## The whole progression -/

/-- The ids of the levels above a level. -/
def idsAbove (groups : List (List String)) (level : Nat) : List String :=
  (groups.drop (level + 1)).flatten

theorem GroupedJobs.mem_idsAbove {jobs : List IJob} {groups : List (List String)}
    {level : String → Nat} (hg : GroupedJobs jobs groups level) {n : Nat} {id : String} :
    id ∈ idsAbove groups n ↔ id ∈ jobs.map IJob.id ∧ n < level id := by
  rw [idsAbove, List.mem_flatten]
  constructor
  · rintro ⟨group, hgroup, hid⟩
    obtain ⟨i, hi, rfl⟩ := List.mem_iff_getElem.1 hgroup
    rw [List.getElem_drop] at hid
    have hmem : id ∈ groups.getD (n + 1 + i) [] := by
      rw [List.getD_eq_getElem?_getD, List.getElem?_eq_getElem]
      exact hid
    obtain ⟨hj, hlevel⟩ := (hg.mem id _).1 hmem
    exact ⟨hj, by omega⟩
  · rintro ⟨hj, hlt⟩
    have hmem := (hg.mem id (level id)).2 ⟨hj, rfl⟩
    have hlen : level id < groups.length := by
      by_contra hge
      rw [List.getD_eq_getElem?_getD, List.getElem?_eq_none (by omega)] at hmem
      simp at hmem
    rw [List.getD_eq_getElem?_getD, List.getElem?_eq_getElem hlen, Option.getD_some] at hmem
    refine ⟨groups[level id], ?_, hmem⟩
    rw [List.mem_iff_getElem]
    refine ⟨level id - (n + 1), by simp; omega, ?_⟩
    rw [List.getElem_drop]
    congr 1
    omega

section Progress

variable (hd : Accepted definition) (hp : PlainIds definition) {I : List String → RunView → Prop}
  {P : String → World → Prop}
include hd hp

/-- **DAG progression.** The jobs above the completed one are visited level by level; then the run
ends if every job is flagged completed. -/
theorem progressDagOrComplete_spec (hI : KeptByVisits env definition r A P I)
    (hA : ∀ w q, q.workflowRunId ≠ r → A w q) {groups : List (List String)} {level : String → Nat}
    (hgroups : parallelGroups definition.jobList = .ok groups)
    (hg : GroupedJobs definition.jobList groups level) (hj : job ∈ definition.jobList)
    (h : Shows w r v) (hv : I (idsAbove groups (level job.id)) v)
    (hP : ∀ e ∈ visitsOfLevels env r definition (groups.drop (level job.id + 1)) w, P e.1 e.2) :
    RunsTo A (JobCompletionHandler.progressDagOrComplete env r definition job.id) w
      (fun _ w' => ∃ v', I [] v' ∧
        ((v'.flagged (definition.jobList.map IJob.id) = false ∧ Shows w' r v') ∨
          (v'.flagged (definition.jobList.map IJob.id) = true ∧
            ∃ v'', Shows w' r v'' ∧ v'.finish.Elsewhere r v'')))
      (fun _ w' => ∃ rest v', I rest v' ∧
        (Shows w' r v' ∨ ∃ v'', Shows w' r v'' ∧ v'.finish.Elsewhere r v'')) := by
  refine (orBadRequest_spec hgroups).bind ?_
  rintro groups' w' ⟨rfl, rfl⟩
  simp only [hg.findJobLevel hj]
  have hlevels := advanceLevels_spec hd hp hI h hv (fun id hid => (hg.mem_idsAbove.1 hid).1) hP
  refine Prog.Meets.bind (hlevels.mono (fun _ _ hQ => hQ) ?_) ?_
  · rintro _ w' ⟨rest, v', h', hv'⟩
    exact ⟨rest, v', hv', Or.inl h'⟩
  · rintro _ w₁ ⟨v₁, h₁, hv₁⟩
    refine (areFlaggedCompleted_spec h₁ ?_).bind ?_
    · intro d hd'
      obtain ⟨j, hj', rfl⟩ := List.mem_map.1 hd'
      exact hp j hj'
    · rintro b w₂ ⟨rfl, rfl⟩
      cases hall : v₁.flagged (definition.jobList.map IJob.id) with
      | false =>
          rw [if_neg (by simp)]
          exact runsTo_pure ⟨v₁, hv₁, Or.inl ⟨hall, h₁⟩⟩
      | true =>
          rw [if_pos rfl]
          refine (completeWorkflowRun_spec h₁ hA).mono ?_ ?_
          · rintro _ w' ⟨v'', h', helse⟩
            exact ⟨v₁, hv₁, Or.inr ⟨hall, v'', h', helse⟩⟩
          · rintro _ w' ⟨v'', h', helse⟩
            exact ⟨[], v₁, hv₁, Or.inr ⟨v'', h', helse⟩⟩

end Progress

end Nexus
