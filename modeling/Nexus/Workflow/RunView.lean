import Nexus.Workflow.Rows

/-!
# What a run shows to a call that runs alone

A `RunView` is what the engine's functions read of a run and its queue: the status, the fields of a
parked turn, the variables of the record of its jobs, and the step queue. `Shows` says that the
stores agree with a view. A function that runs alone takes a world that shows one view to a world
that shows another; the file states this for the functions both handlers are made of, so that the
proofs about whole calls speak about views only.
-/

set_option autoImplicit false

namespace Nexus

/-- The state variables of a run, as `getStateVariables` answers them. -/
def World.state (w : World) (r : RunId) : Json :=
  match w.findRun r with
  | none => Json.empty
  | some run => run.state_variables

/-- The variables that record the progress of a job; the bookkeeping of retries is not part. -/
def StateKey.IsRecord : StateKey → Prop
  | .queued _ => True
  | .completed _ => True
  | .jobResult _ => True
  | .output _ => True
  | .result _ => True
  | .loops _ _ => True
  | _ => False

/-- The job a variable is about. -/
def StateKey.owner : StateKey → String
  | .queued j => j
  | .completed j => j
  | .jobResult j => j
  | .output j => j
  | .result j => j
  | .loops j _ => j
  | .retryAttempt j => j
  | .retryFirstFailureAt j => j
  | .retryLastFailure j => j
  | .healthCheckFailed j => j

structure RunView where
  workflow_id : String
  status : WorkflowStatus
  awaiting_input : Bool
  wait_reason : Option String
  read : StateKey → Option Json
  entry : String → Bool
  stepQueue : List QueueJob
  added : List QueueJob

namespace RunView

/-- The view after the write of a variable. -/
def write (v : RunView) (k : StateKey) (x : Json) : RunView :=
  { v with
    read := Function.update v.read k (some (stripNullBytesDeep x))
    entry := fun jobId => decide (k.entry = some jobId) || v.entry jobId }

/-- The view after a job was put on the step queue. -/
def enqueue (v : RunView) (job : QueueJob) : RunView :=
  if v.stepQueue.any fun q => q.queueJobId = job.queueJobId then v
  else { v with stepQueue := v.stepQueue ++ [job], added := job :: v.added }

variable (v : RunView) (k : StateKey) (x : Json) (job : QueueJob)

@[simp] theorem write_workflow_id : (v.write k x).workflow_id = v.workflow_id := rfl
@[simp] theorem write_status : (v.write k x).status = v.status := rfl
@[simp] theorem write_awaiting_input : (v.write k x).awaiting_input = v.awaiting_input := rfl
@[simp] theorem write_wait_reason : (v.write k x).wait_reason = v.wait_reason := rfl
@[simp] theorem write_stepQueue : (v.write k x).stepQueue = v.stepQueue := rfl

@[simp] theorem write_read_self : (v.write k x).read k = some (stripNullBytesDeep x) := by
  simp [write]

theorem write_read_of_ne {k k' : StateKey} (h : k' ≠ k) : (v.write k x).read k' = v.read k' := by
  simp [write, Function.update_of_ne h]

@[simp] theorem enqueue_workflow_id : (v.enqueue job).workflow_id = v.workflow_id := by
  unfold enqueue
  split <;> rfl

@[simp] theorem enqueue_status : (v.enqueue job).status = v.status := by
  unfold enqueue
  split <;> rfl

@[simp] theorem enqueue_awaiting_input : (v.enqueue job).awaiting_input = v.awaiting_input := by
  unfold enqueue
  split <;> rfl

@[simp] theorem enqueue_wait_reason : (v.enqueue job).wait_reason = v.wait_reason := by
  unfold enqueue
  split <;> rfl

@[simp] theorem enqueue_read : (v.enqueue job).read = v.read := by
  unfold enqueue
  split <;> rfl

/-! ## Views after the writes of a job -/

/-- The four writes about a job that completed or was skipped. -/
def record (v : RunView) (jobId : String) (output result : Json) : RunView :=
  (((v.write (.output jobId) output).write (.result jobId) result).write
    (.jobResult jobId) result).write (.completed jobId) (.bool true)

/-- `markJobCompleted`. -/
def complete (v : RunView) (jobId : String) (output : JsonRecord) : RunView :=
  v.record jobId (.obj (mergedOutput (v.read (.output jobId)) output))
    (.str (resolveJobResultFromOutput output).text)

/-- `markJobSkipped`. -/
def skip (v : RunView) (jobId reason : String) : RunView :=
  v.record jobId (skippedOutput reason) (.str "skipped")

/-- The job `enqueueJob` puts on the step queue. -/
def stepQueueJob (r : RunId) (job : IJob) : QueueJob where
  queueJobId := buildWorkflowStepQueueJobId r job.id
  workflowRunId := r
  jobId := job.id
  job := job

/-- `enqueueJob`. -/
def queueJob (v : RunView) (r : RunId) (job : IJob) : RunView :=
  if v.status = .running ∧ isTrueText (v.read (.queued job.id)) = false then
    (v.write (.queued job.id) (.bool true)).enqueue (stepQueueJob r job)
  else v

@[simp] theorem queueJob_workflow_id (r : RunId) (job : IJob) :
    (v.queueJob r job).workflow_id = v.workflow_id := by
  unfold queueJob
  split
  · rw [enqueue_workflow_id, write_workflow_id]
  · rfl

@[simp] theorem queueJob_status (r : RunId) (job : IJob) :
    (v.queueJob r job).status = v.status := by
  unfold queueJob
  split
  · rw [enqueue_status, write_status]
  · rfl

@[simp] theorem queueJob_awaiting_input (r : RunId) (job : IJob) :
    (v.queueJob r job).awaiting_input = v.awaiting_input := by
  unfold queueJob
  split
  · rw [enqueue_awaiting_input, write_awaiting_input]
  · rfl

@[simp] theorem queueJob_wait_reason (r : RunId) (job : IJob) :
    (v.queueJob r job).wait_reason = v.wait_reason := by
  unfold queueJob
  split
  · rw [enqueue_wait_reason, write_wait_reason]
  · rfl

/-- The pass of `pruneBranches` over one job. -/
def pruneJob (jobId nextJobId : String) (selectedBranchJobs : List String) (v : RunView)
    (candidate : IJob) : RunView :=
  if candidate.id ≠ jobId then
    if candidate.id ∉ selectedBranchJobs then
      (v.write (.queued candidate.id) (.bool true)).skip candidate.id
        (branchNotSelected jobId nextJobId)
    else if candidate.id ≠ nextJobId ∧ isTrue (v.read (.completed candidate.id)) = false then
      (v.write (.queued candidate.id) (.bool false)).write (.completed candidate.id) (.bool false)
    else v
  else v

/-- `pruneBranches`. -/
def prune (v : RunView) (jobId nextJobId : String) (selectedBranchJobs : List String)
    (jobs : List IJob) : RunView :=
  jobs.foldl (pruneJob jobId nextJobId selectedBranchJobs) v

variable (jobId : String) (output result : Json)

@[simp] theorem record_read_completed :
    (v.record jobId output result).read (.completed jobId) = some (.bool true) :=
  write_read_self _ _ _

@[simp] theorem record_read_queued (j : String) :
    (v.record jobId output result).read (.queued j) = v.read (.queued j) := by
  simp [record, write]

@[simp] theorem record_read_loops (j n : String) :
    (v.record jobId output result).read (.loops j n) = v.read (.loops j n) := by
  simp [record, write]

/-- The variables of other jobs are as they were. -/
theorem record_read_of_owner {k : StateKey} (h : k.owner ≠ jobId) :
    (v.record jobId output result).read k = v.read k := by
  cases k <;> simp_all [record, write, StateKey.owner]

end RunView

/-- A row agrees with a view. -/
structure WorkflowRun.Shows (run : WorkflowRun) (v : RunView) : Prop where
  workflow_id : run.workflow_id = v.workflow_id
  status : run.status = v.status
  awaiting_input : run.awaiting_input = v.awaiting_input
  wait_reason : run.wait_reason = v.wait_reason
  wellFormed : WellFormed run.state_variables
  read : ∀ k : StateKey, k.IsRecord → readKey run.state_variables k = v.read k
  entry : ∀ jobId, hasEntry run.state_variables jobId = v.entry jobId

/-- The stores agree with a view of a run. -/
structure Shows (w : World) (r : RunId) (v : RunView) : Prop where
  row : ∃ run, w.findRun r = some run ∧ run.Shows v
  keys : w.KeysDistinct
  stepQueue : w.stepQueue = v.stepQueue
  added : w.added = v.added

/-- The view of a row of a world. -/
def WorkflowRun.view (run : WorkflowRun) (w : World) : RunView where
  workflow_id := run.workflow_id
  status := run.status
  awaiting_input := run.awaiting_input
  wait_reason := run.wait_reason
  read := readKey run.state_variables
  entry := hasEntry run.state_variables
  stepQueue := w.stepQueue
  added := w.added

theorem World.state_of_findRun {w : World} {r : RunId} {run : WorkflowRun}
    (h : w.findRun r = some run) : w.state r = run.state_variables := by
  rw [state, h]

/-- A row with well-formed variables shows its view. -/
theorem shows_view {w : World} {r : RunId} {run : WorkflowRun} (h : w.findRun r = some run)
    (hkeys : w.KeysDistinct) (hwf : WellFormed run.state_variables) : Shows w r (run.view w) :=
  ⟨⟨run, h, rfl, rfl, rfl, rfl, hwf, fun _ _ => rfl, fun _ => rfl⟩, hkeys, rfl, rfl⟩

namespace Shows

variable {w : World} {r : RunId} {v : RunView}

theorem wellFormed (h : Shows w r v) : WellFormed (w.state r) := by
  obtain ⟨run, hrun, hv⟩ := h.row
  rw [World.state_of_findRun hrun]
  exact hv.wellFormed

theorem read (h : Shows w r v) (k : StateKey) (hk : k.IsRecord) :
    readKey (w.state r) k = v.read k := by
  obtain ⟨run, hrun, hv⟩ := h.row
  rw [World.state_of_findRun hrun]
  exact hv.read k hk

theorem entry (h : Shows w r v) (jobId : String) : hasEntry (w.state r) jobId = v.entry jobId := by
  obtain ⟨run, hrun, hv⟩ := h.row
  rw [World.state_of_findRun hrun]
  exact hv.entry jobId

/-- A change of the row. -/
theorem modifyRun {v' : RunView} {f : WorkflowRun → WorkflowRun} (h : Shows w r v)
    (hid : ∀ x, (f x).id = x.id)
    (hf : ∀ run, w.findRun r = some run → run.Shows v → (f run).Shows v')
    (hqueue : v.stepQueue = v'.stepQueue) (hadded : v.added = v'.added) :
    Shows (w.modifyRun r f) r v' := by
  obtain ⟨run, hrun, hv⟩ := h.row
  obtain ⟨h1, h2, h3, h4, h5, h6, h7⟩ := hf run hrun hv
  exact ⟨⟨_, World.findRun_modifyRun_self hid hrun, h1, h2, h3, h4, h5, h6, h7⟩,
    World.keysDistinct_modifyRun hid h.keys,
    h.stepQueue.trans hqueue, h.added.trans hadded⟩

/-- A change of another row. -/
theorem modifyRun_of_ne {f : WorkflowRun → WorkflowRun} (h : Shows w r v)
    (hid : ∀ x, (f x).id = x.id) {id : RunId} (hr : r ≠ id) : Shows (w.modifyRun id f) r v := by
  obtain ⟨run, hrun, hv⟩ := h.row
  exact ⟨⟨run, (World.findRun_modifyRun_of_ne hid hr).trans hrun, hv⟩,
    World.keysDistinct_modifyRun hid h.keys, h.stepQueue, h.added⟩

/-- A variable of the row is written. -/
theorem modifyState (h : Shows w r v) {k : StateKey} {x : Json} {t : Json}
    (ht : Written (w.state r) k (stripNullBytesDeep x) t) :
    Shows (w.modifyRun r fun run => { run with state_variables := t }) r (v.write k x) := by
  refine h.modifyRun (fun _ => rfl) (fun run hrun hv => ?_) rfl rfl
  rw [World.state_of_findRun hrun] at ht
  refine ⟨hv.workflow_id, hv.status, hv.awaiting_input, hv.wait_reason, ht.wellFormed,
    fun k' hk' => ?_, fun jobId => ?_⟩
  · by_cases hkk : k = k'
    · subst hkk
      rw [ht.read, if_pos rfl, RunView.write_read_self]
    · rw [ht.read, if_neg hkk, RunView.write_read_of_ne _ _ (Ne.symm hkk)]
      exact hv.read k' hk'
  · rw [ht.entry, hv.entry]
    rfl

/-- The write of a plain variable. -/
theorem setStateVariable (h : Shows w r v) {k : StateKey} (hk : k.Plain) (x : Json) :
    ∃ w', (Op.setStateVariableAtomic r k.path x).exec w = (w', some ()) ∧
      Shows w' r (v.write k x) := by
  obtain ⟨t, hset, ht⟩ := setStateVariable_path h.wellFormed hk x
  refine ⟨_, ?_, h.modifyState ht⟩
  obtain ⟨run, hrun, -⟩ := h.row
  rw [World.state_of_findRun hrun] at hset
  simp only [Op.exec, World.modifyState, hrun, hset]

/-- The removal of the retry entry of a job. -/
theorem deleteAutoRetry (h : Shows w r v) {jobId : String} (hj : PlainId jobId) :
    ∃ w', (Op.deleteStateVariableAtomic r (autoRetryEntryPath jobId)).exec w = (w', some ()) ∧
      Shows w' r v := by
  obtain ⟨run, hrun, hv⟩ := h.row
  obtain ⟨t, hset, hwf, hentry, hread⟩ := deleteStateVariable_autoRetry hv.wellFormed hj
  refine ⟨w.modifyRun r fun run => { run with state_variables := t }, ?_, ?_⟩
  · simp only [Op.exec, World.modifyState, hrun, hset]
  · refine h.modifyRun (fun _ => rfl) (fun run' _ hv' => ?_) rfl rfl
    refine ⟨hv'.workflow_id, hv'.status, hv'.awaiting_input, hv'.wait_reason, hwf,
      fun k' hk' => ?_, fun id => ?_⟩
    · have hnot : ¬ autoRetryEntrySegs jobId <+: k'.segs := by
        cases k' <;> simp_all [StateKey.IsRecord, autoRetryEntrySegs, StateKey.segs,
          List.cons_prefix_cons]
      rw [hread k' hnot]
      exact hv.read k' hk'
    · rw [hentry]
      exact hv.entry id

/-- The claim of a plain flag: it fails on a set flag, and sets a flag of a RUNNING run. -/
theorem claimJobFlag (h : Shows w r v) (group : FlagGroup) {jobId : String} (hj : PlainId jobId) :
    ((v.status ≠ .running ∨ isTrueText (v.read (group.key jobId)) = true) ∧
      (Op.claimJobFlag r group jobId).exec w = (w, some false)) ∨
    (v.status = .running ∧ isTrueText (v.read (group.key jobId)) = false ∧
      ∃ w', (Op.claimJobFlag r group jobId).exec w = (w', some true) ∧
        Shows w' r (v.write (group.key jobId) (.bool true))) := by
  obtain ⟨run, hrun, hv⟩ := h.row
  have hrecord : (group.key jobId).IsRecord := by cases group <;> trivial
  by_cases hstatus : v.status = .running
  · have hrs : run.status = .running := hv.status.trans hstatus
    have hkey := hv.read _ hrecord
    rcases claimFlag_plain hv.wellFormed group hj with ⟨hset, hclaim⟩ | ⟨hset, t, hclaim, ht⟩
    · refine Or.inl ⟨Or.inr (hkey ▸ hset), ?_⟩
      simp only [Op.exec, World.claimJobFlag, hrun, hrs, if_true, hclaim]
    · rw [← World.state_of_findRun hrun] at ht
      refine Or.inr ⟨hstatus, hkey ▸ hset, _, ?_, h.modifyState ht⟩
      simp only [Op.exec, World.claimJobFlag, hrun, hrs, if_true, hclaim]
  · refine Or.inl ⟨Or.inl hstatus, ?_⟩
    have hrs : run.status ≠ .running := by rwa [hv.status]
    simp only [Op.exec, World.claimJobFlag, hrun, if_neg hrs]

/-- An update of the row. -/
theorem update (h : Shows w r v) (patch : RunPatch) :
    Shows ((Op.update r patch).exec w).1 r { v with status := patch.status.getD v.status } := by
  refine h.modifyRun (fun _ => rfl) (fun run _ hv => ?_) rfl rfl
  refine ⟨hv.workflow_id, ?_, hv.awaiting_input, hv.wait_reason, hv.wellFormed, hv.read, hv.entry⟩
  simp only [WorkflowRun.patch, hv.status]

theorem setAwaitingInput (h : Shows w r v) (awaiting : Bool) :
    Shows ((Op.setAwaitingInput r awaiting).exec w).1 r
      { v with
        awaiting_input := if v.status = .running then awaiting else v.awaiting_input } := by
  refine h.modifyRun ?_ (fun run _ hv => ?_) rfl rfl
  · intro x
    split <;> rfl
  · by_cases hs : v.status = .running
    · rw [if_pos (hv.status.trans hs)]
      exact ⟨hv.workflow_id, hv.status, (if_pos hs).symm, hv.wait_reason, hv.wellFormed, hv.read,
        hv.entry⟩
    · rw [if_neg (hv.status ▸ hs)]
      exact ⟨hv.workflow_id, hv.status, hv.awaiting_input.trans (if_neg hs).symm, hv.wait_reason,
        hv.wellFormed, hv.read, hv.entry⟩

theorem stepQueueAdd (h : Shows w r v) (job : QueueJob) :
    Shows ((Op.stepQueueAdd job).exec w).1 r (v.enqueue job) := by
  obtain ⟨run, hrun, hv⟩ := h.row
  simp only [Op.exec, World.addQueueJob, RunView.enqueue, h.stepQueue]
  split
  · exact h
  · exact ⟨⟨run, hrun, hv.workflow_id, hv.status, hv.awaiting_input, hv.wait_reason,
      hv.wellFormed, hv.read, hv.entry⟩, h.keys, rfl, congrArg (job :: ·) h.added⟩

end Shows

end Nexus
