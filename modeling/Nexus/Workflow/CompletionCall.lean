import Nexus.Workflow.ProgressSpecs

/-!
# A completion call that runs alone

`handleJobComplete` is cut at the point where it has decided what comes next (`handle_eq`): the
completion is accepted and recorded, the transition is resolved, and what is left is DAG progression
or the transition to a target. `Dispatched` reads the decision off the execution of the first part.
The records of a run that was launched and then only completed jobs are `Tracked`: on them the loop
guard never trips, since a job's completion is accepted once.
-/

set_option autoImplicit false

namespace Nexus

/-- What a call has decided: the definition, the completed job, and the next step; no next step is a
tripped loop guard. -/
structure Decision where
  definition : IWorkflowDefinition
  job : IJob
  next : Option (Option String)

namespace JobCompletionHandler

/-- The first part of an accepted call: the gate, the definition, and the record of the job. -/
def acceptCompletion (env : Env) (workflowRunId : RunId) (jobId : String) (output : JsonRecord) :
    Engine (Option (IWorkflowDefinition × IJob)) := do
  match ← gateCompletion workflowRunId jobId with
  | none => pure none
  | some run => do
      let definition ← loadWorkflowDefinition env run.workflow_id
      match definition.findJob jobId with
      | none => pure none
      | some job => do
          recordJobCompletion workflowRunId run jobId output
          pure (some (definition, job))

/-- The second part: the next step. -/
def decideNext (env : Env) (reportMaxLoopIterations : RunId → String → String → Engine Unit)
    (workflowRunId : RunId) (jobId : String) (output : JsonRecord) : Engine (Option Decision) := do
  match ← acceptCompletion env workflowRunId jobId output with
  | none => pure none
  | some (definition, job) => do
      let next ← resolveNextJobId env reportMaxLoopIterations workflowRunId job jobId
      pure (some ⟨definition, job, next⟩)

/-- The rest of the call. -/
def takeNext (env : Env) (workflowRunId : RunId) (jobId : String) :
    Option Decision → Engine Unit
  | none => pure ()
  | some d =>
      match d.next with
      | none => pure ()
      | some none => progressDagOrComplete env workflowRunId d.definition jobId
      | some (some nextJobId) => enqueueTransitionJob env workflowRunId d.definition jobId nextJobId

/-- A call decides and then takes the next step. -/
theorem handle_eq (env : Env) (reportMaxLoopIterations : RunId → String → String → Engine Unit)
    (workflowRunId : RunId) (jobId : String) (output : JsonRecord) :
    handle env reportMaxLoopIterations workflowRunId jobId output =
      (decideNext env reportMaxLoopIterations workflowRunId jobId output).bind
        (takeNext env workflowRunId jobId) := by
  unfold handle decideNext acceptCompletion
  simp only [Prog.bind_eq, Prog.bind_assoc]
  congr 1
  funext gate
  cases gate with
  | none => rfl
  | some run =>
      simp only [finishJob, Prog.bind_eq, Prog.bind_assoc]
      congr 1
      funext definition
      cases definition.findJob jobId with
      | none => rfl
      | some job =>
          simp only [dispatchNext, Prog.bind_eq, Prog.bind_assoc, Prog.pure_eq, Prog.pure_bind]
          congr 1

end JobCompletionHandler

open JobCompletionHandler

/-- What a tripped loop guard is reported to. -/
def loopReporter (env : Env) : Nat → RunId → String → String → Engine Unit
  | 0 => reportMaxLoopIterations env fun _ _ _ => .fail .outOfFuel
  | depth + 1 => reportMaxLoopIterations env (handleJobComplete env depth)

theorem handleJobComplete_eq (env : Env) (depth : Nat) :
    handleJobComplete env depth = handle env (loopReporter env depth) := by
  cases depth <;> rfl

/-- A call of `handleJobComplete` for a run. -/
structure CompletionCall where
  jobId : String
  output : JsonRecord
  depth : Nat := 0

/-- The program of a call. -/
def CompletionCall.program (env : Env) (r : RunId) (c : CompletionCall) : Engine Unit :=
  handleJobComplete env c.depth r c.jobId c.output

/-- The decision of a call that runs alone, with the world it was made in; `none` when the call was
rejected or threw. -/
def CompletionCall.decision (env : Env) (r : RunId) (w : World) (c : CompletionCall) :
    Option (Decision × World) :=
  match (decideNext env (loopReporter env c.depth) r c.jobId c.output).run Op.exec w with
  | (w', .ok (some d)) => some (d, w')
  | _ => none

/-- The world after a call that runs alone. -/
def World.afterCall (env : Env) (r : RunId) (w : World) (c : CompletionCall) : World :=
  ((c.program env r).run Op.exec w).1

/-- The world after several calls, each of them alone. -/
def World.afterCalls (env : Env) (r : RunId) (w : World) (calls : List CompletionCall) : World :=
  calls.foldl (World.afterCall env r) w

theorem World.afterCalls_snoc (env : Env) (r : RunId) (w : World) (calls : List CompletionCall)
    (c : CompletionCall) :
    w.afterCalls env r (calls ++ [c]) = (w.afterCalls env r calls).afterCall env r c := by
  rw [World.afterCalls, List.foldl_append]
  rfl

/-- After its decision a call goes on with the next step. -/
theorem CompletionCall.run_of_decision {env : Env} {r : RunId} {w w' : World} {c : CompletionCall}
    {d : Decision} (h : c.decision env r w = some (d, w')) :
    (c.program env r).run Op.exec w = (takeNext env r c.jobId (some d)).run Op.exec w' := by
  rw [program, handleJobComplete_eq, handle_eq]
  unfold decision at h
  split at h
  · rename_i heq
    simp only [Option.some.injEq, Prod.mk.injEq] at h
    obtain ⟨rfl, rfl⟩ := h
    exact Prog.run_bind_ok Op.exec heq _
  · cases h

/-! ## Tracked records -/

/-- What the record of a run that was launched and then only completed jobs satisfies. -/
structure RunView.Tracked (v : RunView) : Prop where
  /-- Flags are booleans. -/
  completed : ∀ j, v.read (.completed j) = none ∨ ∃ b, v.read (.completed j) = some (.bool b)
  queued : ∀ j, v.read (.queued j) = none ∨ ∃ b, v.read (.queued j) = some (.bool b)
  /-- Results are recorded of completed jobs only. -/
  result : ∀ j, v.read (.result j) ≠ none → isTrue (v.read (.completed j)) = true
  jobResult : ∀ j, v.read (.jobResult j) ≠ none → isTrue (v.read (.completed j)) = true
  /-- Transitions are counted of completed jobs only. -/
  loops : ∀ j n, v.read (.loops j n) ≠ none → isTrue (v.read (.completed j)) = true

variable {j jobId : String}

namespace RunView.Tracked

variable {v v' : RunView}

theorem of_read_eq (h : v.Tracked) (hread : v'.read = v.read) : v'.Tracked := by
  obtain ⟨h1, h2, h3, h4, h5⟩ := h
  exact ⟨by rwa [hread], by rwa [hread], by rwa [hread], by rwa [hread], by rwa [hread]⟩

/-- On a tracked record the text of a flag is `true` just when the flag is. -/
theorem isTrueText_completed (h : v.Tracked) (j : String) :
    isTrueText (v.read (.completed j)) = isTrue (v.read (.completed j)) := by
  rcases h.completed j with hj | ⟨b, hj⟩
  · rw [hj]
    rfl
  · rw [hj]
    cases b <;> rfl

theorem isTrueText_queued (h : v.Tracked) (j : String) :
    isTrueText (v.read (.queued j)) = isTrue (v.read (.queued j)) := by
  rcases h.queued j with hj | ⟨b, hj⟩
  · rw [hj]
    rfl
  · rw [hj]
    cases b <;> rfl

/-- A variable of one job is written, and nothing is recorded of a job that is not completed. -/
theorem of_owner (h : v.Tracked) (j : String)
    (hother : ∀ k : StateKey, k.owner ≠ j → v'.read k = v.read k)
    (hcompleted : v'.read (.completed j) = none ∨ ∃ b, v'.read (.completed j) = some (.bool b))
    (hqueued : v'.read (.queued j) = none ∨ ∃ b, v'.read (.queued j) = some (.bool b))
    (hrecord : isTrue (v'.read (.completed j)) = false →
      v'.read (.result j) = none ∧ v'.read (.jobResult j) = none ∧
        ∀ n, v'.read (.loops j n) = none) : v'.Tracked := by
  have hj : ∀ {P : Prop}, (P → isTrue (v'.read (.completed j)) = false → False) → P →
      isTrue (v'.read (.completed j)) = true := by
    intro P hP p
    cases hc : isTrue (v'.read (.completed j)) with
    | true => rfl
    | false => exact (hP p hc).elim
  refine ⟨fun i => ?_, fun i => ?_, fun i => ?_, fun i => ?_, fun i n => ?_⟩
  · by_cases hi : i = j
    · exact hi ▸ hcompleted
    · rw [hother (.completed i) hi]
      exact h.completed i
  · by_cases hi : i = j
    · exact hi ▸ hqueued
    · rw [hother (.queued i) hi]
      exact h.queued i
  · by_cases hi : i = j
    · subst hi
      exact hj fun hne hc => hne (hrecord hc).1
    · rw [hother (.result i) hi, hother (.completed i) hi]
      exact h.result i
  · by_cases hi : i = j
    · subst hi
      exact hj fun hne hc => hne (hrecord hc).2.1
    · rw [hother (.jobResult i) hi, hother (.completed i) hi]
      exact h.jobResult i
  · by_cases hi : i = j
    · subst hi
      exact hj fun hne hc => hne ((hrecord hc).2.2 n)
    · rw [hother (.loops i n) hi, hother (.completed i) hi]
      exact h.loops i n

/-- Of a job that is not completed nothing is recorded. -/
theorem unrecorded (h : v.Tracked) (hj : isTrue (v.read (.completed j)) = false) :
    v.read (.result j) = none ∧ v.read (.jobResult j) = none ∧ ∀ n, v.read (.loops j n) = none := by
  refine ⟨?_, ?_, fun n => ?_⟩
  · by_contra hne
    rw [h.result j hne] at hj
    cases hj
  · by_contra hne
    rw [h.jobResult j hne] at hj
    cases hj
  · by_contra hne
    rw [h.loops j n hne] at hj
    cases hj

theorem record (h : v.Tracked) (j : String) (output result : Json) :
    (v.record j output result).Tracked := by
  refine h.of_owner j (fun k hk => v.record_read_of_owner j output result hk) ?_ ?_ ?_
  · exact Or.inr ⟨true, v.record_read_completed j output result⟩
  · rw [RunView.record_read_queued]
    exact h.queued j
  · rw [RunView.record_read_completed]
    exact fun hc => Bool.noConfusion hc

/-- The claim of a completion. -/
theorem write_completed (h : v.Tracked) (j : String) :
    (v.write (.completed j) (.bool true)).Tracked := by
  refine h.of_owner j (fun k hk => v.write_read_of_ne _ ?_) ?_ ?_ ?_
  · rintro rfl
    exact hk rfl
  · exact Or.inr ⟨true, v.write_read_self _ _⟩
  · rw [v.write_read_of_ne _ (by simp)]
    exact h.queued j
  · rw [v.write_read_self]
    exact fun hc => Bool.noConfusion hc

theorem write_queued (h : v.Tracked) (j : String) (b : Bool) :
    (v.write (.queued j) (.bool b)).Tracked := by
  refine h.of_owner j (fun k hk => v.write_read_of_ne _ ?_) ?_ ?_ ?_
  · rintro rfl
    exact hk rfl
  · rw [v.write_read_of_ne _ (by simp)]
    exact h.completed j
  · exact Or.inr ⟨b, v.write_read_self _ _⟩
  · rw [v.write_read_of_ne _ (by simp), v.write_read_of_ne _ (by simp),
      v.write_read_of_ne _ (by simp)]
    intro hc
    refine ⟨(h.unrecorded hc).1, (h.unrecorded hc).2.1, fun n => ?_⟩
    rw [v.write_read_of_ne _ (by simp)]
    exact (h.unrecorded hc).2.2 n

/-- A transition of a completed job is counted. -/
theorem write_loops (h : v.Tracked) (hj : isTrue (v.read (.completed j)) = true) (n : String)
    (x : Json) : (v.write (.loops j n) x).Tracked := by
  refine h.of_owner j (fun k hk => v.write_read_of_ne _ ?_) ?_ ?_ ?_
  · rintro rfl
    exact hk rfl
  · rw [v.write_read_of_ne _ (by simp)]
    exact h.completed j
  · rw [v.write_read_of_ne _ (by simp)]
    exact h.queued j
  · rw [v.write_read_of_ne _ (by simp), hj]
    exact fun hc => Bool.noConfusion hc

/-- The flags of a job that is not completed are reset. -/
theorem reset (h : v.Tracked) (hj : isTrue (v.read (.completed j)) = false) :
    ((v.write (.queued j) (.bool false)).write (.completed j) (.bool false)).Tracked := by
  have h' := h.write_queued j false
  refine h'.of_owner j (fun k hk => RunView.write_read_of_ne _ _ ?_) ?_ ?_ ?_
  · rintro rfl
    exact hk rfl
  · exact Or.inr ⟨false, RunView.write_read_self _ _ _⟩
  · rw [RunView.write_read_of_ne _ _ (by simp)]
    exact h'.queued j
  · intro _
    have hun := h'.unrecorded (j := j) (by rwa [v.write_read_of_ne _ (by simp)])
    rw [RunView.write_read_of_ne _ _ (by simp), RunView.write_read_of_ne _ _ (by simp)]
    refine ⟨hun.1, hun.2.1, fun n => ?_⟩
    rw [RunView.write_read_of_ne _ _ (by simp)]
    exact hun.2.2 n

theorem queueJob (h : v.Tracked) (r : RunId) (job : IJob) : (v.queueJob r job).Tracked := by
  unfold RunView.queueJob
  split
  · exact (h.write_queued job.id true).of_read_eq (RunView.enqueue_read _ _)
  · exact h

theorem pruneJob (h : v.Tracked) (jobId nextJobId : String) (selected : List String)
    (candidate : IJob) : (v.pruneJob jobId nextJobId selected candidate).Tracked := by
  unfold RunView.pruneJob
  split
  · split
    · exact (h.write_queued _ true).record _ _ _
    · split
      · rename_i hc
        exact h.reset hc.2
      · exact h
  · exact h

theorem prune (jobId nextJobId : String) (selected : List String) :
    ∀ {jobs : List IJob} {v : RunView}, v.Tracked → (v.prune jobId nextJobId selected jobs).Tracked
  | [], _, h => h
  | candidate :: jobs, v, h =>
      show ((v.pruneJob jobId nextJobId selected candidate).prune jobId nextJobId selected
        jobs).Tracked from prune jobId nextJobId selected (h.pruneJob _ _ _ _)

theorem visited (h : v.Tracked) {env : Env} {definition : IWorkflowDefinition} {r : RunId}
    {job : IJob} {t : Json} (hv : Visited env definition r job t v v') : v'.Tracked := by
  cases hv with
  | waiting _ _ => exact h
  | blocked _ _ _ => exact h.record _ _ _
  | excluded _ _ => exact h.record _ _ _
  | queued _ _ => exact h.queueJob r job

end RunView.Tracked

/-- Nothing is recorded of a fresh run. -/
theorem FreshState.tracked {w : World} {run : WorkflowRun} (h : FreshState run.state_variables) :
    (run.view w).Tracked := by
  have hnone : ∀ k, (run.view w).read k = none := h.readKey
  refine ⟨fun j => Or.inl (hnone _), fun j => Or.inl (hnone _), fun j hne => ?_, fun j hne => ?_,
    fun j n hne => ?_⟩
  · exact absurd (hnone _) hne
  · exact absurd (hnone _) hne
  · exact absurd (hnone _) hne

/-! ## The contract of a decision -/

section Decide

variable {A : World → QueueJob → Prop} {w : World} {r : RunId} {v : RunView} {env : Env}
  {definition : IWorkflowDefinition}

/-- The view an accepted completion leaves. -/
def RunView.accept (v : RunView) (jobId : String) (output : JsonRecord) : RunView :=
  ({ v with awaiting_input := false }.write (.completed jobId) (.bool true)).complete jobId output

/-- A rejected call leaves the record as it was, up to the flag of an id that names no job. -/
structure RunView.Rejected (definition : IWorkflowDefinition) (jobId : String) (v v' : RunView) :
    Prop where
  workflow_id : v'.workflow_id = v.workflow_id
  status : v'.status = v.status
  added : v'.added = v.added
  read : v'.read = v.read ∨
    (definition.findJob jobId = none ∧ v'.read = (v.write (.completed jobId) (.bool true)).read)

theorem RunView.Rejected.tracked {v' : RunView} (h : RunView.Rejected definition jobId v v')
    (ht : v.Tracked) : v'.Tracked := by
  rcases h.read with hread | ⟨-, hread⟩
  · exact ht.of_read_eq hread
  · exact (ht.write_completed jobId).of_read_eq hread

/-- What the first part of a call leads to. -/
def Accepts (definition : IWorkflowDefinition) (r : RunId) (jobId : String) (output : JsonRecord)
    (v : RunView) : Option (IWorkflowDefinition × IJob) → World → Prop
  | none, w' => ∃ v', Shows w' r v' ∧ RunView.Rejected definition jobId v v'
  | some (definition', job), w' =>
      definition' = definition ∧ definition.findJob jobId = some job ∧ v.status = .running ∧
        v.wait_reason.getD "" = "" ∧ isTrueText (v.read (.completed jobId)) = false ∧
        Shows w' r (v.accept jobId output)

theorem acceptCompletion_spec (h : Shows w r v) (hj : PlainId jobId)
    (hdef : findDefinition env v.workflow_id = .ok definition) (output : JsonRecord)
    {E : EngineError → World → Prop} :
    RunsTo A (acceptCompletion env r jobId output) w (Accepts definition r jobId output v) E := by
  refine (gateCompletion_spec h hj).bind ?_
  rintro a w₁ (⟨rfl, awaiting, h₁⟩ | ⟨run, rfl, hrun, hrunning, hwait, hset, h₁⟩)
  · exact runsTo_pure ⟨_, h₁, rfl, rfl, rfl, Or.inl rfl⟩
  · have hworkflow : run.workflow_id = v.workflow_id := by
      obtain ⟨run', hrun', hv⟩ := h.row
      rw [hrun, Option.some.injEq] at hrun'
      rw [hrun']
      exact hv.workflow_id
    have hload : RunsTo A (loadWorkflowDefinition env run.workflow_id) w₁
        (fun d w' => d = definition ∧ w' = w₁) E := by
      unfold loadWorkflowDefinition
      rw [hworkflow, hdef]
      exact runsTo_pure ⟨rfl, rfl⟩
    refine hload.bind ?_
    rintro definition w₁ ⟨rfl, rfl⟩
    cases hfind : definition.findJob jobId with
    | none => exact runsTo_pure ⟨_, h₁, rfl, rfl, rfl, Or.inr ⟨hfind, rfl⟩⟩
    | some job =>
        have hrecord : RunsTo A (recordJobCompletion r run jobId output) w₁
            (fun _ w' => Shows w' r (v.accept jobId output)) E := by
          refine (markJobCompleted_spec h₁ hj output).bind fun _ w₂ h₂ => ?_
          refine (deleteAutoRetry_spec h₂ hj).bind fun _ w₃ h₃ => ?_
          exact emit_spec h₃ _
        exact hrecord.bind fun _ w₂ h₂ => runsTo_pure ⟨rfl, hfind, hrunning, hwait, hset, h₂⟩

/-- The counter of a transition of the job has reached the guard. -/
def RunView.LoopLimit (v : RunView) (jobId : String) : Prop :=
  ∃ n, isLoopLimitReached (toLoopCount (v.read (.loops jobId n))) = true

theorem RunView.accept_read_loops (v : RunView) (jobId : String) (output : JsonRecord)
    (n : String) : (v.accept jobId output).read (.loops jobId n) = v.read (.loops jobId n) := by
  rw [accept, complete, record_read_loops, write_read_of_ne _ _ (by simp)]

/-- After the record of a job the variables of the other jobs are as they were. -/
theorem RunView.accept_read_of_owner (v : RunView) (output : JsonRecord) {k : StateKey}
    (hk : k.owner ≠ jobId) : (v.accept jobId output).read k = v.read k := by
  rw [accept, complete, record_read_of_owner _ _ _ _ hk, write_read_of_ne]
  rintro rfl
  exact hk rfl

/-- The view after the transition to a target was counted. -/
def RunView.countLoop (v : RunView) (jobId n : String) : RunView :=
  v.write (.loops jobId n) (nextLoopCount (toLoopCount (v.read (.loops jobId n))))

/-- What a call decides. -/
def Decides (definition : IWorkflowDefinition) (r : RunId) (jobId : String) (output : JsonRecord)
    (v : RunView) : Option Decision → World → Prop
  | none, w' => ∃ v', Shows w' r v' ∧ RunView.Rejected definition jobId v v'
  | some d, w' =>
      d.definition = definition ∧ definition.findJob jobId = some d.job ∧ v.status = .running ∧
        v.wait_reason.getD "" = "" ∧ isTrueText (v.read (.completed jobId)) = false ∧
        match d.next with
        | none => v.LoopLimit jobId
        | some none => Shows w' r (v.accept jobId output)
        | some (some n) =>
            n ∈ d.job.transitionList.map IWorkflowTransition.next ∧
              Shows w' r ((v.accept jobId output).countLoop jobId n)

/-- **The contract of a decision.** -/
theorem decideNext_spec {report : RunId → String → String → Engine Unit}
    (hd : Accepted definition) (hp : PlainIds definition) (h : Shows w r v) (hj : PlainId jobId)
    (hdef : findDefinition env v.workflow_id = .ok definition) (output : JsonRecord)
    (hreport : v.LoopLimit jobId → ∀ message w', RunsTo A (report r jobId message) w' (fun _ _ =>
      True) (fun _ _ => True)) :
    RunsTo A (decideNext env report r jobId output) w (Decides definition r jobId output v)
      (fun _ w' => Shows w' r (v.accept jobId output) ∨
        (v.LoopLimit jobId ∧ isTrueText (v.read (.completed jobId)) = false)) := by
  refine (acceptCompletion_spec h hj hdef output).bind ?_
  rintro (_ | ⟨definition', job⟩) w₁ haccept
  · exact runsTo_pure haccept
  · obtain ⟨rfl, hfind, hrunning, hwait, hset, h₁⟩ := haccept
    obtain ⟨hmem, rfl⟩ := IWorkflowDefinition.findJob_some hfind
    have hresolve : RunsTo A (resolveNextJobId env report r job job.id) w₁
        (fun next w' => match next with
          | none => v.LoopLimit job.id
          | some none => Shows w' r (v.accept job.id output)
          | some (some n) => n ∈ job.transitionList.map IWorkflowTransition.next ∧
              Shows w' r ((v.accept job.id output).countLoop job.id n))
        (fun _ w' => Shows w' r (v.accept job.id output) ∨
          (v.LoopLimit job.id ∧ isTrueText (v.read (.completed job.id)) = false)) := by
      refine Prog.meets_handle (Prog.Meets.bind
        ((resolveTransitionTarget_spec h₁ hj (hd.plain_next hp hmem)).mono (fun _ _ hQ => hQ) ?_) ?_)
      · rintro e w' ⟨rfl, ⟨message, rfl⟩ | ⟨n, rfl, -, hlimit⟩⟩
        · exact Or.inl h₁
        · rw [RunView.accept_read_loops] at hlimit
          have htrip : v.LoopLimit job.id := ⟨n, hlimit⟩
          exact Prog.Meets.bind ((hreport htrip _ w').mono (fun _ _ hQ => hQ)
            fun _ _ _ => Or.inr ⟨htrip, hset⟩) fun _ _ _ => htrip
      · rintro next w' (⟨rfl, rfl⟩ | ⟨n, rfl, heval, -, h'⟩)
        · exact h₁
        · obtain ⟨t, ht, rfl⟩ := evaluateTransition_mem heval
          exact ⟨List.mem_map_of_mem ht, h'⟩
    refine Prog.Meets.bind hresolve fun next w₂ hnext => ?_
    exact ⟨rfl, hfind, hrunning, hwait, hset, hnext⟩

/-- On a tracked record the loop guard of a job that is not completed does not trip. -/
theorem RunView.Tracked.not_loopLimit (ht : v.Tracked)
    (hset : isTrueText (v.read (.completed jobId)) = false) : ¬ v.LoopLimit jobId := by
  rintro ⟨n, hn⟩
  rw [ht.isTrueText_completed] at hset
  rw [(ht.unrecorded hset).2.2 n] at hn
  revert hn
  decide

/-- A decision is made on a tracked record. -/
theorem RunView.Tracked.accept (ht : v.Tracked) (jobId : String) (output : JsonRecord) :
    (v.accept jobId output).Tracked := by
  have h : ({ v with awaiting_input := false } : RunView).Tracked := ht.of_read_eq rfl
  exact (h.write_completed jobId).record _ _ _

theorem RunView.Tracked.countLoop (ht : v.Tracked) (jobId : String) (output : JsonRecord)
    (n : String) : ((v.accept jobId output).countLoop jobId n).Tracked := by
  refine (ht.accept jobId output).write_loops ?_ n _
  rw [RunView.accept, RunView.complete, RunView.record_read_completed]
  rfl

end Decide

end Nexus
