import Nexus.Workflow.LaunchSpecs

/-!
# Runs that go on

After an accepted completion a run has ended or one of its jobs is in flight
(`HasDriver`). DAG progression guarantees this when the levels it does not visit, those up to the
level of the completed job, have a job in flight or are completed: every job above is then completed
or queued, or it waits for one that is not completed, and a lowest job that is not completed waits
for none. A transition guarantees it when its target is not completed and the target's condition
holds. The skip of a target whose condition does not hold leaves no driver (`run_left_without_driver`).
-/

set_option autoImplicit false

namespace Nexus

open JobCompletionHandler

/-- A job was queued and is not completed. -/
def InFlight (w : World) (r : RunId) (jobId : String) : Prop :=
  isTrue (readKey (w.state r) (.queued jobId)) = true ∧
    isTrue (readKey (w.state r) (.completed jobId)) = false

instance (w : World) (r : RunId) (jobId : String) : Decidable (InFlight w r jobId) :=
  inferInstanceAs (Decidable (_ ∧ _))

/-- The run has ended, or a job is in flight. -/
def HasDriver (definition : IWorkflowDefinition) (r : RunId) (w : World) : Prop :=
  (w.findRun r).any (fun run => run.status.isTerminal) = true ∨
    ∃ j ∈ definition.jobList, InFlight w r j.id

instance (definition : IWorkflowDefinition) (r : RunId) (w : World) :
    Decidable (HasDriver definition r w) := inferInstanceAs (Decidable (_ ∨ _))

/-- The levels up to the level of a job have a job other than it in flight, or all jobs there other
than it are completed. -/
def LowerLevelsDriven (definition : IWorkflowDefinition) (r : RunId) (jobId : String) (w : World) :
    Prop :=
  ∀ groups level, parallelGroups definition.jobList = .ok groups →
    findJobLevel groups jobId = some level →
    (∃ j ∈ definition.jobList, j.id ≠ jobId ∧ j.id ∉ idsAbove groups level ∧ InFlight w r j.id) ∨
    ∀ j ∈ definition.jobList, j.id ≠ jobId → j.id ∉ idsAbove groups level →
      isTrue (readKey (w.state r) (.completed j.id)) = true

/-- The condition of a target holds in the world after the pass over the other jobs. -/
def TargetOpen (env : Env) (definition : IWorkflowDefinition) (r : RunId)
    (jobId nextJobId : String) (w : World) : Prop :=
  ∀ target, definition.findJob nextJobId = some target →
    conditionValue env target ((w.pruned r definition jobId nextJobId).state r) = .ok true

/-- The condition on a call and the state it finds: without a transition the lower levels are
driven, and the target of a transition is not completed and its condition holds. -/
def LeavesDriver (env : Env) (definition : IWorkflowDefinition) (r : RunId) (w : World)
    (c : CompletionCall) : Prop :=
  ∀ d w', c.decision env r w = some (d, w') →
    match d.next with
    | none => True
    | some none => LowerLevelsDriven definition r c.jobId w
    | some (some n) => n ≠ c.jobId ∧ isTrue (readKey (w.state r) (.completed n)) = false ∧
        TargetOpen env definition r c.jobId n w'

/-! ## Views -/

namespace RunView

/-- The view of a job in flight. -/
def InFlight (v : RunView) (jobId : String) : Prop :=
  isTrue (v.read (.queued jobId)) = true ∧ isTrue (v.read (.completed jobId)) = false

/-- A job is completed or queued, or one of its needs is not completed. -/
def Settled (v : RunView) (job : IJob) : Prop :=
  isTrue (v.read (.completed job.id)) = true ∨ isTrue (v.read (.queued job.id)) = true ∨
    ∃ d ∈ job.needIds, isTrue (v.read (.completed d)) = false

end RunView

variable {job : IJob}

section Views

variable {w : World} {r : RunId} {v v' : RunView} {env : Env} {definition : IWorkflowDefinition}

theorem Shows.inFlight (h : Shows w r v) (jobId : String) :
    InFlight w r jobId ↔ v.InFlight jobId := by
  rw [InFlight, h.read (.queued jobId) trivial, h.read (.completed jobId) trivial]
  rfl

theorem RunView.queueJob_read_of_ne (v : RunView) (r : RunId) (job : IJob) {k : StateKey}
    (hk : k ≠ .queued job.id) : (v.queueJob r job).read k = v.read k := by
  unfold queueJob
  split
  · rw [enqueue_read, write_read_of_ne _ _ hk]
  · rfl

/-- A visit changes the variables of the visited job only. -/
theorem Visited.read_of_owner {t : Json} (h : Visited env definition r job t v v') {k : StateKey}
    (hk : k.owner ≠ job.id) : v'.read k = v.read k := by
  cases h with
  | waiting _ _ => rfl
  | blocked _ _ _ => exact v.record_read_of_owner _ _ _ hk
  | excluded _ _ => exact v.record_read_of_owner _ _ _ hk
  | queued _ _ =>
      refine v.queueJob_read_of_ne r job ?_
      rintro rfl
      exact hk rfl

/-- Queueing a job of a RUNNING run flags it. -/
theorem RunView.Tracked.queueJob_queued (ht : v.Tracked) (hrunning : v.status = .running)
    (r : RunId) (job : IJob) : isTrue ((v.queueJob r job).read (.queued job.id)) = true := by
  unfold RunView.queueJob
  split
  · rw [RunView.enqueue_read, RunView.write_read_self]
    rfl
  · rename_i hnot
    rw [not_and, Bool.not_eq_false] at hnot
    rw [← ht.isTrueText_queued]
    exact hnot hrunning

/-- A visited job is settled. -/
theorem Visited.settled (hd : Accepted definition) (hj : job ∈ definition.jobList) {t : Json}
    (h : Visited env definition r job t v v') (ht : v.Tracked) (hrunning : v.status = .running) :
    v'.Settled job := by
  cases h with
  | waiting hready hopen =>
      have hneeds : v.flagged job.needIds = false := by
        cases hflag : v.flagged job.needIds with
        | false => rfl
        | true =>
            unfold RunView.isReady at hready
            by_cases hstrict : resolveStrictDependencies definition job = true
            · exact absurd ⟨hstrict, hflag⟩ hopen
            · rw [if_neg hstrict] at hready
              have hall : v.flagged (job.depends_on.getD []) = true :=
                List.all_eq_true.2 fun d hdep =>
                  List.all_eq_true.1 hflag d (hd.depends_on_subset hj d hdep)
              rw [hall] at hready
              cases hready
      rw [RunView.flagged, List.all_eq_false] at hneeds
      obtain ⟨d, hdep, hfalse⟩ := hneeds
      exact Or.inr (Or.inr ⟨d, hdep, by simpa using hfalse⟩)
  | blocked _ _ _ => exact Or.inl (by rw [RunView.skip, RunView.record_read_completed]; rfl)
  | excluded _ _ => exact Or.inl (by rw [RunView.skip, RunView.record_read_completed]; rfl)
  | queued _ _ => exact Or.inr (Or.inl (ht.queueJob_queued hrunning r job))

end Views

/-! ## DAG progression -/

section Progression

variable {r : RunId} {env : Env} {definition : IWorkflowDefinition} {level : String → Nat}

/-- What holds while the levels above a level are visited: the jobs that are not left to visit are
settled, and none of them is above one that is left. -/
structure Sweeping (definition : IWorkflowDefinition) (level : String → Nat) (rest : List String)
    (v : RunView) : Prop where
  tracked : v.Tracked
  running : v.status = .running
  sorted : rest.Pairwise fun x y => level x ≤ level y
  below : ∀ j ∈ definition.jobList, j.id ∉ rest → ∀ x ∈ rest, level j.id ≤ level x
  settled : ∀ j ∈ definition.jobList, j.id ∉ rest → v.Settled j

variable {groups : List (List String)}

theorem keptByVisits_sweeping (hd : Accepted definition)
    (hg : GroupedJobs definition.jobList groups level) :
    KeptByVisits env definition r anyJob anyVisit (Sweeping definition level) where
  add _ _ _ _ _ _ := trivial
  visit := by
    rintro id rest w v v' job hI hfind - - hvisit
    obtain ⟨hj, rfl⟩ := IWorkflowDefinition.findJob_some hfind
    obtain ⟨hfirst, hrest⟩ := List.pairwise_cons.1 hI.sorted
    refine ⟨hI.tracked.visited hvisit, hvisit.run_eq.2.trans hI.running, hrest, ?_, ?_⟩
    · intro j hmem hnot x hx
      by_cases hid : j.id = job.id
      · rw [hid]
        exact hfirst x hx
      · exact hI.below j hmem (by simp [hid, hnot]) x (List.mem_cons_of_mem _ hx)
    · intro j hmem hnot
      by_cases hid : j.id = job.id
      · rw [List.inj_on_of_nodup_map hd.nodup hmem hj hid]
        exact hvisit.settled hd hj hI.tracked hI.running
      · have hother : j.id ∉ job.id :: rest := by simp [hid, hnot]
        -- a need of `j` is below `j`, and `j` is not above the job that is visited
        rcases hI.settled j hmem hother with hc | hq | ⟨d, hdep, hfalse⟩
        · exact Or.inl (by rwa [hvisit.read_of_owner (k := .completed j.id) hid])
        · exact Or.inr (Or.inl (by rwa [hvisit.read_of_owner (k := .queued j.id) hid]))
        · have hne : d ≠ job.id := by
            rintro rfl
            have h1 := hg.above j hmem _ hdep
            have h2 := hI.below j hmem hother job.id (by simp)
            omega
          exact Or.inr (Or.inr ⟨d, hdep, by
            rwa [hvisit.read_of_owner (k := .completed d) hne]⟩)

/-- When every job is settled, the lowest job that is not completed is in flight. -/
theorem exists_inFlight (hd : Accepted definition)
    (hg : GroupedJobs definition.jobList groups level) {v : RunView}
    (hsettled : ∀ j ∈ definition.jobList, v.Settled j) :
    ∀ (n : Nat) (j : IJob), j ∈ definition.jobList → level j.id = n →
      isTrue (v.read (.completed j.id)) = false →
      ∃ i ∈ definition.jobList, v.InFlight i.id := by
  intro n
  induction n using Nat.strong_induction_on with
  | _ n ih =>
      intro j hj hlevel hfalse
      rcases hsettled j hj with hc | hq | ⟨d, hdep, hd'⟩
      · rw [hc] at hfalse
        cases hfalse
      · exact ⟨j, hj, hq, hfalse⟩
      · obtain ⟨i, hi, rfl⟩ := List.mem_map.1 ((hd.needs hj).2 d hdep)
        exact ih (level i.id) (hlevel ▸ hg.above j hj _ hdep) i hi rfl hd'

/-- The ids above a level come in the order of the levels. -/
theorem GroupedJobs.sorted_idsAbove (hg : GroupedJobs definition.jobList groups level) (n : Nat) :
    (idsAbove groups n).Pairwise fun x y => level x ≤ level y := by
  have hlevel : ∀ i (hi : i < groups.length), ∀ x ∈ groups[i], level x = i := by
    intro i hi x hx
    refine ((hg.mem x i).1 ?_).2
    rwa [List.getD_eq_getElem?_getD, List.getElem?_eq_getElem hi]
  rw [idsAbove, List.pairwise_flatten]
  constructor
  · intro group hgroup
    obtain ⟨i, hi, rfl⟩ := List.mem_iff_getElem.1 (List.mem_of_mem_drop hgroup)
    refine List.pairwise_iff_getElem.2 fun a b ha hb _ => ?_
    rw [hlevel i hi _ (List.getElem_mem ha), hlevel i hi _ (List.getElem_mem hb)]
  · refine List.pairwise_iff_getElem.2 fun a b ha hb hab x hx y hy => ?_
    rw [List.length_drop] at ha hb
    rw [List.getElem_drop] at hx hy
    rw [hlevel _ (by omega) x hx, hlevel _ (by omega) y hy]
    omega

/-- A job in flight that is not left to visit stays in flight. -/
theorem keptByVisits_inFlight (jobId : String) :
    KeptByVisits env definition r anyJob anyVisit fun rest v => jobId ∉ rest ∧ v.InFlight jobId where
  add _ _ _ _ _ _ := trivial
  visit := by
    rintro id rest w v v' job ⟨hnot, hflight⟩ hfind - - hvisit
    obtain ⟨hj, rfl⟩ := IWorkflowDefinition.findJob_some hfind
    have hne : jobId ≠ job.id := by
      rintro rfl
      exact hnot (by simp)
    refine ⟨fun hmem => hnot (List.mem_cons_of_mem _ hmem), ?_, ?_⟩
    · rw [hvisit.read_of_owner (k := .queued jobId) hne]
      exact hflight.1
    · rw [hvisit.read_of_owner (k := .completed jobId) hne]
      exact hflight.2

/-- The end of a progression: a view with a job in flight, or a run that has ended. -/
theorem hasDriver_of_progressed {v : RunView} {w : World}
    (h : v.flagged (definition.jobList.map IJob.id) = false ∧ Shows w r v ∨
      v.flagged (definition.jobList.map IJob.id) = true ∧
        ∃ v', Shows w r v' ∧ v.finish.Elsewhere r v')
    (hflight : v.flagged (definition.jobList.map IJob.id) = false →
      ∃ j ∈ definition.jobList, v.InFlight j.id) : HasDriver definition r w := by
  rcases h with ⟨hall, h⟩ | ⟨-, v', h, helse⟩
  · obtain ⟨j, hj, hf⟩ := hflight hall
    exact Or.inr ⟨j, hj, (h.inFlight j.id).2 hf⟩
  · obtain ⟨run, hrun, hv⟩ := h.row
    refine Or.inl ?_
    rw [hrun, Option.any_some, hv.status, helse.status]
    rfl

/-- **Progression leaves a driver** when the levels it does not visit are driven. -/
theorem progressDag_hasDriver (hd : Accepted definition) (hp : PlainIds definition) {w : World}
    {v : RunView} (h : Shows w r v) (ht : v.Tracked) (hrunning : v.status = .running)
    (hgroups : parallelGroups definition.jobList = .ok groups)
    (hg : GroupedJobs definition.jobList groups level) (hj : job ∈ definition.jobList)
    (hdriven : (∃ j ∈ definition.jobList, j.id ∉ idsAbove groups (level job.id) ∧ v.InFlight
      j.id) ∨ ∀ j ∈ definition.jobList, j.id ∉ idsAbove groups (level job.id) → isTrue (v.read
      (.completed j.id)) = true) :
    RunsTo anyJob (progressDagOrComplete env r definition job.id) w
      (fun _ w' => HasDriver definition r w') (fun _ _ => True) := by
  rcases hdriven with ⟨j, hmem, hnot, hflight⟩ | hall
  · refine (progressDagOrComplete_spec hd hp (keptByVisits_inFlight j.id) (fun _ _ _ => trivial)
      hgroups hg hj h ⟨hnot, hflight⟩ fun _ _ => trivial).mono ?_ fun _ _ _ => trivial
    rintro _ w' ⟨v', ⟨-, hf⟩, hend⟩
    exact hasDriver_of_progressed hend fun _ => ⟨j, hmem, hf⟩
  · have hsweep : Sweeping definition level (idsAbove groups (level job.id)) v := by
      refine ⟨ht, hrunning, hg.sorted_idsAbove _, fun j hmem hnot x hx => ?_, fun j hmem hnot => ?_⟩
      · have h1 := (hg.mem_idsAbove.1 hx).2
        have h2 : ¬ level job.id < level j.id := fun hlt =>
          hnot (hg.mem_idsAbove.2 ⟨List.mem_map_of_mem hmem, hlt⟩)
        omega
      · exact Or.inl (hall j hmem hnot)
    refine (progressDagOrComplete_spec hd hp (keptByVisits_sweeping hd hg) (fun _ _ _ => trivial)
      hgroups hg hj h hsweep fun _ _ => trivial).mono ?_ fun _ _ _ => trivial
    have hend : ∀ v' : RunView, Sweeping definition level [] v' →
        v'.flagged (definition.jobList.map IJob.id) = false →
        ∃ i ∈ definition.jobList, v'.InFlight i.id := by
      intro v' hI hfalse
      rw [RunView.flagged, List.all_eq_false] at hfalse
      obtain ⟨id, hid, hnot⟩ := hfalse
      obtain ⟨i, hi, rfl⟩ := List.mem_map.1 hid
      exact exists_inFlight hd hg (fun j hmem => hI.settled j hmem (by simp)) _ i hi rfl
        (by simpa using hnot)
    rintro _ w' ⟨v', hI, h'⟩
    exact hasDriver_of_progressed h' (hend v' hI)

end Progression

/-! ## One call -/

section Call

variable {w : World} {r : RunId} {v : RunView} {env : Env} {definition : IWorkflowDefinition}

/-- **An accepted call leaves a driver** when its condition holds. -/
theorem hasDriver_afterCall (hd : Accepted definition) (hp : PlainIds definition)
    (htrack : OnTrack env definition r w) {c : CompletionCall} (hc : PlainId c.jobId)
    (haccepted : (c.decision env r w).isSome = true)
    (hreturns : ((c.program env r).run Op.exec w).2 = .ok ())
    (hleaves : LeavesDriver env definition r w c) :
    HasDriver definition r (w.afterCall env r c) := by
  obtain ⟨v, h, ht, hdef⟩ := htrack
  obtain ⟨⟨d, w'⟩, hdecision⟩ := Option.isSome_iff_exists.1 haccepted
  obtain ⟨rfl, hfind, hrunning, -, hset, hdecided⟩ := c.decides hd hp h hc hdef hdecision
  obtain ⟨hj, hid⟩ := IWorkflowDefinition.findJob_some hfind
  have hcond := hleaves d w' hdecision
  have hgoal : RunsTo anyJob (takeNext env r c.jobId (some d)) w'
      (fun _ w'' => HasDriver d.definition r w'') (fun _ _ => True) := by
    rcases d with ⟨definition, job, _ | _ | n⟩
    · exact absurd hdecided (ht.not_loopLimit hset)
    · obtain ⟨groups, level, hgroups, hg⟩ := hd.groups
      have hdriven := hcond groups _ hgroups (hid ▸ hg.findJobLevel hj)
      simp only [takeNext, ← hid] at hdecided hdriven ⊢
      refine progressDag_hasDriver hd hp hdecided (ht.accept _ _) hrunning hgroups hg hj ?_
      rcases hdriven with ⟨j, hmem, hne, hnot, hflight⟩ | hall
      · refine Or.inl ⟨j, hmem, hnot, ?_⟩
        rw [h.inFlight] at hflight
        rwa [RunView.InFlight, v.accept_read_of_owner _ (k := .queued j.id) hne,
          v.accept_read_of_owner _ (k := .completed j.id) hne]
      · refine Or.inr fun j hmem hnot => ?_
        by_cases hne : j.id = job.id
        · rw [hne, RunView.accept, RunView.complete, RunView.record_read_completed]
          rfl
        · rw [v.accept_read_of_owner _ (k := .completed j.id) hne,
            ← h.read (.completed j.id) trivial]
          exact hall j hmem hne hnot
    · obtain ⟨hne, hfalse, hopen⟩ := hcond
      obtain ⟨hn, h'⟩ := hdecided
      obtain ⟨target, htarget⟩ := hd.findJob_next hj hn
      obtain ⟨hmem, rfl⟩ := IWorkflowDefinition.findJob_some htarget
      have hempty : target.id ≠ "" := fun he =>
        hd.empty_notMem (he ▸ List.mem_map_of_mem hmem)
      have hspared := v.pruned_read_target hd c.output hempty hne
        (show (StateKey.completed target.id).owner = target.id from rfl)
      have hrun := ((v.accept c.jobId c.output).countLoop c.jobId target.id).sameRun_pruned
        definition c.jobId target.id
      have ht' := (ht.countLoop c.jobId c.output target.id).pruned definition c.jobId target.id
      refine (enqueueTransitionJob_spec hd hp h' htarget fun _ _ _ _ => trivial).mono ?_
        fun _ _ _ => trivial
      rintro _ w'' (⟨-, h''⟩ | ⟨hclosed, -⟩)
      · refine Or.inr ⟨target, hmem, (h''.inFlight _).2 ⟨?_, ?_⟩⟩
        · exact ht'.queueJob_queued (hrun.status.trans hrunning) r target
        · rw [RunView.queueJob_read_of_ne _ _ _ (by simp), hspared,
            ← h.read (.completed target.id) trivial]
          exact hfalse
      · rw [hopen target htarget] at hclosed
        cases hclosed
  have hrun := hgoal.run
  rw [World.afterCall, CompletionCall.run_of_decision hdecision]
  rw [CompletionCall.run_of_decision hdecision] at hreturns
  split at hrun
  · rename_i heq
    rw [heq]
    exact hrun
  · rename_i heq
    rw [heq] at hreturns
    cases hreturns

end Call

/-! ## Runs -/

section Launch

variable {w : World} {r : RunId} {v : RunView} {env : Env} {definition : IWorkflowDefinition}

theorem RunView.Tracked.queueJobs (r : RunId) (definition : IWorkflowDefinition) :
    ∀ {ids : List String} {v : RunView}, v.Tracked → (v.queueJobs r definition ids).Tracked
  | [], _, h => h
  | id :: ids, v, h => by
      rw [RunView.queueJobs, List.foldl_cons]
      cases definition.findJob id with
      | none => exact queueJobs r definition h
      | some job => exact queueJobs r definition (h.queueJob r job)

theorem RunView.queueJobs_workflow_id (r : RunId) (definition : IWorkflowDefinition) :
    ∀ {ids : List String} {v : RunView},
      (v.queueJobs r definition ids).workflow_id = v.workflow_id
  | [], _ => rfl
  | id :: ids, v => by
      rw [RunView.queueJobs, List.foldl_cons]
      cases definition.findJob id with
      | none => exact queueJobs_workflow_id r definition
      | some job =>
          exact (queueJobs_workflow_id r definition).trans (v.queueJob_workflow_id r job)

theorem RunView.Tracked.launch (h : v.Tracked) (r : RunId) (definition : IWorkflowDefinition)
    (initialJobs : List String) : (v.launch r definition initialJobs).Tracked := by
  cases initialJobs with
  | nil => exact h.of_read_eq rfl
  | cons first rest => exact h.queueJobs r definition

theorem RunView.launch_workflow_id (v : RunView) (r : RunId) (definition : IWorkflowDefinition)
    (initialJobs : List String) :
    (v.launch r definition initialJobs).workflow_id = v.workflow_id := by
  cases initialJobs with
  | nil => rfl
  | cons first rest => exact RunView.queueJobs_workflow_id r definition

/-- A launched run is on track. -/
theorem onTrack_createAndStartRun (hd : Accepted definition) (hp : PlainIds definition)
    (hkeys : w.KeysDistinct) (hids : w.FreshIds) {workflowId : String}
    (hdef : findDefinition env workflowId = .ok definition) {triggerData : JsonRecord}
    {concurrencyScope : Option String} {w₀ : World}
    (hstart : (createAndStartRun env workflowId triggerData definition concurrencyScope).run
      Op.exec w = (w₀, .ok r)) : OnTrack env definition r w₀ := by
  obtain ⟨groups, level, hgroups, -⟩ := hd.groups
  have hspec : RunsTo anyJob
      (createAndStartRun env workflowId triggerData definition concurrencyScope) w _
      (fun _ _ => True) :=
    createAndStartRun_spec hp hgroups hkeys hids workflowId triggerData concurrencyScope
  have hlaunch := hspec.run
  rw [hstart] at hlaunch
  obtain ⟨-, h⟩ := hlaunch
  have hfresh : ((w.newRow (launchData env workflowId triggerData concurrencyScope
      w.clock)).view w).Tracked :=
    FreshState.tracked (freshState_buildInitialStateVariables env triggerData)
  refine ⟨_, h, RunView.Tracked.launch (hfresh.of_read_eq rfl) _ _ _, ?_⟩
  rw [RunView.launch_workflow_id]
  exact hdef

end Launch

/-- **No stuck run.** In every run that was launched and then completed jobs, an accepted completion
that returns leaves the run in a terminal status or with a job in flight, when it meets
`LeavesDriver`. -/
theorem no_stuck_run {otherErrors : IWorkflowDefinition → List String} {env : Env}
    {definition : IWorkflowDefinition}
    (hvalid : (validateWorkflow otherErrors definition).valid = true)
    (hplain : PlainIds definition) {w : World} (hkeys : w.KeysDistinct) (hids : w.FreshIds)
    {workflowId : String} (hdef : findDefinition env workflowId = .ok definition)
    {triggerData : JsonRecord} {concurrencyScope : Option String} {w₀ : World} {r : RunId}
    (hstart : (createAndStartRun env workflowId triggerData definition concurrencyScope).run
      Op.exec w = (w₀, .ok r))
    {calls : List CompletionCall} (hcalls : ∀ c ∈ calls, PlainId c.jobId) {c : CompletionCall}
    (hc : PlainId c.jobId)
    (haccepted : (c.decision env r (w₀.afterCalls env r calls)).isSome = true)
    (hreturns : ((c.program env r).run Op.exec (w₀.afterCalls env r calls)).2 = .ok ())
    (hleaves : LeavesDriver env definition r (w₀.afterCalls env r calls) c) :
    HasDriver definition r (w₀.afterCalls env r (calls ++ [c])) := by
  have hd := accepted_of_valid hvalid
  have htrack := onTrack_afterCalls hd hplain
    (onTrack_createAndStartRun hd hplain hkeys hids hdef hstart) hcalls
  rw [World.afterCalls_snoc]
  exact hasDriver_afterCall hd hplain htrack hc haccepted hreturns hleaves

/-- The stores after the launch of a definition on empty ones. -/
def World.ofLaunch (definition : IWorkflowDefinition) : World :=
  ((createAndStartRun (.ofDefinition definition) "workflow" [] definition none).run Op.exec {}).1

theorem run_ofLaunch {definition : IWorkflowDefinition} {r : RunId}
    (h : ((createAndStartRun (.ofDefinition definition) "workflow" [] definition none).run
      Op.exec {}).2 = .ok r) :
    (createAndStartRun (.ofDefinition definition) "workflow" [] definition none).run Op.exec {} =
      (World.ofLaunch definition, .ok r) := by
  rw [World.ofLaunch, ← h]

/-- A job with a transition to another one. -/
def branchDefinition (condition : Option String) : IWorkflowDefinition where
  workflow_id := "workflow"
  jobs := some
    [{ id := "start", transitions := some [⟨"true", "branch"⟩] },
     { id := "branch", condition := condition }]

/-- The first completion of a run whose transition target has no condition. -/
theorem no_stuck_run_branch :
    HasDriver (branchDefinition none) 0 ((World.ofLaunch (branchDefinition none)).afterCalls
      (.ofDefinition (branchDefinition none)) 0 ([] ++ [⟨"start", [], 0⟩])) := by
  have hvalid : (validateWorkflow (fun _ => []) (branchDefinition none)).valid = true := by
    decide +kernel
  have hstart : (createAndStartRun (.ofDefinition (branchDefinition none)) "workflow" []
      (branchDefinition none) none).run Op.exec {} =
        (World.ofLaunch (branchDefinition none), .ok 0) := run_ofLaunch (by decide +kernel)
  have hempty : World.KeysDistinct {} ∧ World.FreshIds {} := by decide
  refine no_stuck_run hvalid (by decide) hempty.1 hempty.2 (findDefinition_ofDefinition _ _) hstart
    (by simp) (show PlainId "start" by decide) (by decide +kernel) (by decide +kernel) ?_
  intro d w' hdecision
  have hnext : (CompletionCall.decision (.ofDefinition (branchDefinition none)) 0
      (World.ofLaunch (branchDefinition none)) ⟨"start", [], 0⟩).map (fun d => d.1.next) =
        some (some (some "branch")) := by decide +kernel
  have hdecision' : CompletionCall.decision (.ofDefinition (branchDefinition none)) 0
      (World.ofLaunch (branchDefinition none)) ⟨"start", [], 0⟩ = some (d, w') := hdecision
  rw [hdecision', Option.map_some, Option.some.injEq] at hnext
  rw [hnext]
  refine ⟨by decide, by decide +kernel, fun target htarget => ?_⟩
  have hfound : (branchDefinition none).findJob "branch" = some { id := "branch" } := by decide
  rw [hfound, Option.some.injEq] at htarget
  rw [← htarget]
  simp [conditionValue, IJob.jobCondition]

/-- The run whose last target has a condition that does not hold is left RUNNING with every job
completed. -/
theorem run_left_without_driver :
    (validateWorkflow (fun _ => []) (branchDefinition (some "false"))).valid = true ∧
    ∃ w₀ r c, (createAndStartRun (.ofDefinition (branchDefinition (some "false"))) "workflow" []
        (branchDefinition (some "false")) none).run Op.exec {} = (w₀, .ok r) ∧
      (CompletionCall.decision (.ofDefinition (branchDefinition (some "false"))) r w₀
        c).isSome = true ∧
      ((c.program (.ofDefinition (branchDefinition (some "false"))) r).run Op.exec w₀).2 =
        .ok () ∧
      (∀ j ∈ (branchDefinition (some "false")).jobList, isTrue (readKey
        ((w₀.afterCall (.ofDefinition (branchDefinition (some "false"))) r c).state r)
        (.completed j.id)) = true) ∧
      ¬ HasDriver (branchDefinition (some "false")) r
        (w₀.afterCall (.ofDefinition (branchDefinition (some "false"))) r c) := by
  refine ⟨by decide +kernel, World.ofLaunch (branchDefinition (some "false")), 0,
    ⟨"start", [], 0⟩, run_ofLaunch (by decide +kernel), ?_⟩
  decide +kernel

end Nexus
