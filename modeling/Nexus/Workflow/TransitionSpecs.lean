import Nexus.Workflow.CompletionCall

/-!
# Contracts of transitions

What a transition does to the view of a run: the pass over the other jobs, read job by job, and the
queueing or the skip of the target.
-/

set_option autoImplicit false

namespace Nexus

/-! ## The selected branch -/

theorem foldlM_pushDependents {jobs : List IJob}
    (h : ∀ j ∈ jobs, normalizeWorkflowJobNeeds j = .ok j.needList) :
    ∀ m : DependencyGraph, ∃ m', jobs.foldlM pushDependents m = .ok m' := by
  induction jobs with
  | nil => exact fun m => ⟨m, rfl⟩
  | cons j jobs ih =>
      intro m
      have hpush : pushDependents m j = .ok (j.needList.foldl
          (fun m need => DAGResolverService.pushDependent m need.id j.id) m) := by
        rw [pushDependents, h j (by simp)]
        rfl
      rw [List.foldlM_cons, hpush]
      exact ih (fun j' hj' => h j' (by simp [hj'])) _

/-- The jobs reachable from a target. -/
def selectedBranch (definition : IWorkflowDefinition) (nextJobId : String) : List String :=
  match collectReachableJobs definition.jobList nextJobId with
  | .ok selected => selected
  | .error _ => []

theorem Accepted.collectReachableJobs {definition : IWorkflowDefinition}
    (hd : Accepted definition) (nextJobId : String) :
    Nexus.collectReachableJobs definition.jobList nextJobId =
      .ok (selectedBranch definition nextJobId) := by
  obtain ⟨m, hm⟩ := foldlM_pushDependents (fun j hj => (hd.needs hj).1)
    (definition.jobList.foldl (fun m job => OrderedMap.set m job.id []) [])
  have hbuild : buildDependentsByJob definition.jobList = .ok m := hm
  simp only [selectedBranch, Nexus.collectReachableJobs, hbuild]
  rfl

theorem subset_walkReachableJobs (jobs : List IJob) (dependentsByJob : DependencyGraph) :
    ∀ (fuel : Nat) (queue visited : List String),
      visited ⊆ walkReachableJobs jobs dependentsByJob fuel queue visited
  | 0, _, visited => by
      rw [walkReachableJobs]
      exact fun _ hx => hx
  | _ + 1, [], visited => by
      rw [walkReachableJobs]
      exact fun _ hx => hx
  | fuel + 1, current :: queue, visited => by
      rw [walkReachableJobs]
      split
      · exact subset_walkReachableJobs jobs dependentsByJob fuel queue visited
      · exact fun x hx => subset_walkReachableJobs jobs dependentsByJob fuel _ _
          (List.mem_cons_of_mem _ hx)

/-- A target is in its own branch. -/
theorem Accepted.mem_selectedBranch {definition : IWorkflowDefinition} (hd : Accepted definition)
    {nextJobId : String} (hne : nextJobId ≠ "") :
    nextJobId ∈ selectedBranch definition nextJobId := by
  obtain ⟨m, hm⟩ := foldlM_pushDependents (fun j hj => (hd.needs hj).1)
    (definition.jobList.foldl (fun m job => OrderedMap.set m job.id []) [])
  have hbuild : buildDependentsByJob definition.jobList = .ok m := hm
  have hsel : selectedBranch definition nextJobId = walkReachableJobs definition.jobList m
      (reachableFuel definition.jobList m) [nextJobId] [] := by
    simp only [selectedBranch, Nexus.collectReachableJobs, hbuild]
    rfl
  rw [hsel, reachableFuel, walkReachableJobs, if_neg (by simp [hne])]
  exact subset_walkReachableJobs _ _ _ _ _ (by simp)

/-! ## The pass over the other jobs -/

variable {k : StateKey}

namespace RunView

/-- Two views that differ in the record of the jobs only. -/
structure SameRun (v v' : RunView) : Prop where
  workflow_id : v'.workflow_id = v.workflow_id
  status : v'.status = v.status
  awaiting_input : v'.awaiting_input = v.awaiting_input
  wait_reason : v'.wait_reason = v.wait_reason
  stepQueue : v'.stepQueue = v.stepQueue
  added : v'.added = v.added

variable {v : RunView} {jobId nextJobId : String} {selected : List String}

theorem SameRun.refl (v : RunView) : v.SameRun v := ⟨rfl, rfl, rfl, rfl, rfl, rfl⟩

theorem SameRun.trans {v' v'' : RunView} (h : v.SameRun v') (h' : v'.SameRun v'') :
    v.SameRun v'' :=
  ⟨h'.workflow_id.trans h.workflow_id, h'.status.trans h.status,
    h'.awaiting_input.trans h.awaiting_input, h'.wait_reason.trans h.wait_reason,
    h'.stepQueue.trans h.stepQueue, h'.added.trans h.added⟩

theorem sameRun_pruneJob (candidate : IJob) :
    v.SameRun (v.pruneJob jobId nextJobId selected candidate) := by
  unfold pruneJob
  (repeat' split) <;> exact ⟨rfl, rfl, rfl, rfl, rfl, rfl⟩

theorem sameRun_prune : ∀ {jobs : List IJob} {v : RunView},
    v.SameRun (v.prune jobId nextJobId selected jobs)
  | [], v => .refl v
  | candidate :: _, _ => (sameRun_pruneJob candidate).trans sameRun_prune

variable {candidate : IJob}

/-- The pass over a job changes variables of that job only. -/
theorem pruneJob_read_of_owner (hk : k.owner ≠ candidate.id) :
    (v.pruneJob jobId nextJobId selected candidate).read k = v.read k := by
  have hq : k ≠ .queued candidate.id := by
    rintro rfl
    exact hk rfl
  have hc : k ≠ .completed candidate.id := by
    rintro rfl
    exact hk rfl
  unfold pruneJob
  split
  · split
    · rw [skip, record_read_of_owner _ _ _ _ hk, write_read_of_ne _ _ hq]
    · split
      · rw [write_read_of_ne _ _ hc, write_read_of_ne _ _ hq]
      · rfl
  · rfl

/-- What the pass over a job writes depends on the variables of that job only. -/
theorem pruneJob_read_congr {v' : RunView}
    (h : ∀ k : StateKey, k.owner = candidate.id → v'.read k = v.read k)
    (hk : k.owner = candidate.id) :
    (v'.pruneJob jobId nextJobId selected candidate).read k =
      (v.pruneJob jobId nextJobId selected candidate).read k := by
  unfold pruneJob
  rw [h (.completed candidate.id) rfl]
  split
  · split
    · simp only [skip, record, write, Function.update_apply, h k hk]
    · split
      · simp only [write, Function.update_apply, h k hk]
      · exact h k hk
  · exact h k hk

theorem prune_read_of_notMem {k : StateKey} : ∀ {jobs : List IJob} {v : RunView},
    k.owner ∉ jobs.map IJob.id → (v.prune jobId nextJobId selected jobs).read k = v.read k
  | [], _, _ => rfl
  | candidate :: jobs, v, hk => by
      simp only [List.map_cons, List.mem_cons, not_or] at hk
      have := prune_read_of_notMem (v := v.pruneJob jobId nextJobId selected candidate) hk.2
      rw [pruneJob_read_of_owner hk.1] at this
      exact this

/-- After the whole pass the variables of a job are as after the pass over that job. -/
theorem prune_read {candidate : IJob} {k : StateKey} (hk : k.owner = candidate.id) :
    ∀ {jobs : List IJob} {v : RunView}, (jobs.map IJob.id).Nodup → candidate ∈ jobs →
      (v.prune jobId nextJobId selected jobs).read k =
        (v.pruneJob jobId nextJobId selected candidate).read k
  | [], _, _, hmem => by simp at hmem
  | j :: jobs, v, hnodup, hmem => by
      rw [List.map_cons, List.nodup_cons] at hnodup
      rcases List.mem_cons.1 hmem with rfl | hmem
      · have hnot : k.owner ∉ jobs.map IJob.id := hk ▸ hnodup.1
        exact prune_read_of_notMem hnot
      · have hne : candidate.id ≠ j.id := fun heq =>
          hnodup.1 (heq ▸ List.mem_map_of_mem hmem)
        have ih := prune_read hk (v := v.pruneJob jobId nextJobId selected j) hnodup.2 hmem
        refine ih.trans (pruneJob_read_congr (fun k' hk' => pruneJob_read_of_owner ?_) hk)
        rw [hk']
        exact hne

/-- The completed job and the target of the transition are left alone. -/
theorem prune_read_spared {jobs : List IJob} (hnodup : (jobs.map IJob.id).Nodup)
    (hnext : nextJobId ∈ selected) (hk : k.owner = jobId ∨ k.owner = nextJobId) :
    (v.prune jobId nextJobId selected jobs).read k = v.read k := by
  by_cases hmem : k.owner ∈ jobs.map IJob.id
  · obtain ⟨c, hc, hid⟩ := List.mem_map.1 hmem
    rw [prune_read hid.symm hnodup hc, pruneJob]
    by_cases hj : c.id = jobId
    · rw [if_neg (by simpa using hj)]
    · have hn : c.id = nextJobId := by
        rcases hk with hk | hk
        · exact absurd (hid.trans hk) hj
        · exact hid.trans hk
      rw [if_pos hj, if_neg (by simpa [hn] using hnext), if_neg (by simp [hn])]
  · exact prune_read_of_notMem hmem

end RunView

/-! ## The whole transition -/

section Transition

variable {A : World → QueueJob → Prop} {w : World} {r : RunId} {v : RunView} {env : Env}
  {definition : IWorkflowDefinition}

/-- The world after the pass over the other jobs, in which the condition of the target is read. -/
def World.pruned (w : World) (r : RunId) (definition : IWorkflowDefinition)
    (jobId nextJobId : String) : World :=
  ((pruneBranches r jobId nextJobId (selectedBranch definition nextJobId)
    definition.jobList).run Op.exec w).1

/-- The view after the pass over the other jobs. -/
def RunView.pruned (v : RunView) (definition : IWorkflowDefinition) (jobId nextJobId : String) :
    RunView :=
  v.prune jobId nextJobId (selectedBranch definition nextJobId) definition.jobList

theorem RunView.sameRun_pruned (v : RunView) (definition : IWorkflowDefinition)
    (jobId nextJobId : String) : v.SameRun (v.pruned definition jobId nextJobId) :=
  sameRun_prune

theorem RunView.Tracked.pruned (ht : v.Tracked) (definition : IWorkflowDefinition)
    (jobId nextJobId : String) : (v.pruned definition jobId nextJobId).Tracked :=
  ht.prune jobId nextJobId _

/-- The variables of a target other than the completed job are as before the call. -/
theorem RunView.pruned_read_target (hd : Accepted definition) (v : RunView) {jobId n : String}
    (output : JsonRecord) (hempty : n ≠ "") (hne : n ≠ jobId) (hk : k.owner = n) :
    (((v.accept jobId output).countLoop jobId n).pruned definition jobId n).read k = v.read k := by
  rw [RunView.pruned, RunView.prune_read_spared hd.nodup (hd.mem_selectedBranch hempty)
    (Or.inr hk), RunView.countLoop, RunView.write_read_of_ne,
    v.accept_read_of_owner _ (by rw [hk]; exact hne)]
  rintro rfl
  exact hne hk.symm

/-- **A transition.** After the pass over the other jobs the target is queued, or it is skipped
because its condition does not hold. -/
theorem enqueueTransitionJob_spec (hd : Accepted definition) (hp : PlainIds definition)
    (h : Shows w r v) {jobId nextJobId : String} {target : IJob}
    (hfind : definition.findJob nextJobId = some target)
    (hA : ∀ w', v.status = .running →
      isTrueText ((v.pruned definition jobId nextJobId).read (.queued nextJobId)) = false →
      Shows w' r ((v.pruned definition jobId nextJobId).write (.queued nextJobId) (.bool true)) →
      A w' (RunView.stepQueueJob r target)) :
    RunsTo A (enqueueTransitionJob env r definition jobId nextJobId) w
      (fun _ w' =>
        (conditionValue env target ((w.pruned r definition jobId nextJobId).state r) = .ok true ∧
          Shows w' r ((v.pruned definition jobId nextJobId).queueJob r target)) ∨
        (conditionValue env target ((w.pruned r definition jobId nextJobId).state r) = .ok false ∧
          Shows w' r ((v.pruned definition jobId nextJobId).skip nextJobId "condition_false")))
      (fun _ w' => Shows w' r (v.pruned definition jobId nextJobId) ∧
        ∃ message, conditionValue env target
          ((w.pruned r definition jobId nextJobId).state r) = .error message) := by
  obtain ⟨hmem, rfl⟩ := IWorkflowDefinition.findJob_some hfind
  have hplain : PlainId target.id := hp target hmem
  refine (orBadRequest_spec (hd.collectReachableJobs target.id)).bind ?_
  rintro selected w' ⟨rfl, rfl⟩
  refine Prog.Meets.bind ((pruneBranches_spec (E := fun _ _ => False) h hp).with_run.mono
    (fun _ _ hQ => hQ) fun _ _ hE => hE.1.elim) ?_
  rintro _ w₁ ⟨h₁, hrun⟩
  have hw₁ : w'.pruned r definition jobId target.id = w₁ := by
    rw [World.pruned, hrun]
  rw [hw₁]
  have hholds : RunsTo A (targetConditionHolds env r definition target.id) w₁
      (fun b w' => w' = w₁ ∧ conditionValue env target (w₁.state r) = .ok b)
      (fun _ w' => Shows w' r (v.pruned definition jobId target.id) ∧
        ∃ message, conditionValue env target (w₁.state r) = .error message) := by
    unfold targetConditionHolds
    rw [hfind]
    refine conditionHolds_spec.mono (fun _ _ hQ => hQ) ?_
    rintro _ w' ⟨rfl, hE⟩
    exact ⟨h₁, hE⟩
  refine hholds.bind ?_
  rintro holds w₂ ⟨rfl, hcondition⟩
  cases holds with
  | true =>
      rw [if_pos rfl]
      refine (updateRun_spec h₁ _).bind fun _ w₃ h₃ => ?_
      refine (enqueueJob_spec h₃ hfind hplain ?_).mono (fun _ _ h' => Or.inl ⟨hcondition, h'⟩)
        fun _ _ he => he
      intro hrunning hset w'' h''
      refine hA w'' ?_ hset h''
      exact (RunView.sameRun_prune.status).symm.trans hrunning
  | false =>
      rw [if_neg (by simp)]
      exact (markJobSkipped_spec h₁ hplain _).mono (fun _ _ h' => Or.inr ⟨hcondition, h'⟩)
        fun _ _ he => he

end Transition

end Nexus
