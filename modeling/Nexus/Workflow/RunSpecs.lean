import Nexus.Workflow.RunView

/-!
# Contracts of the functions of a run

One contract for every function the job handlers are made of, for a call that runs alone: the view
it starts from, and the view each of its results leaves. Callers use the contract and never look
into the function. The contracts carry a condition `A` on the jobs that are put on the step queue.
-/

set_option autoImplicit false

namespace Nexus

/-- Every job put on the step queue satisfies a condition in the world it is put there. -/
def adding (A : World → QueueJob → Prop) (w : World) : Op → Prop
  | .stepQueueAdd job => A w job
  | _ => True

/-- The program, run alone from a world, ends with `Q` or throws with `E`. -/
abbrev RunsTo (A : World → QueueJob → Prop) {α : Type} (p : Engine α) (w : World)
    (Q : α → World → Prop) (E : EngineError → World → Prop) : Prop :=
  Prog.Meets (Prog.alone Op.exec (adding A)) Q E p w

variable {A : World → QueueJob → Prop} {α β : Type} {w : World} {r : RunId} {v : RunView}
  {E : EngineError → World → Prop}

/-- One operation, from its execution. -/
theorem RunsTo.await {o : Op} {w' : World} {a : o.Ans} {Q : o.Ans → World → Prop}
    (hexec : o.exec w = (w', a)) (hA : adding A w o) (h : Q a w') : RunsTo A (await o) w Q E := by
  refine Prog.meets_op hA fun ans g' hpost => ?_
  have : (w', a) = (g', ans) := hexec.symm.trans hpost
  cases this
  exact h

/-- Sequencing: the rest runs from wherever the first part returned. -/
theorem RunsTo.bind {p : Engine α} {f : α → Engine β} {Q : α → World → Prop}
    {Q' : β → World → Prop} (hp : RunsTo A p w Q E)
    (hf : ∀ a w', Q a w' → RunsTo A (f a) w' Q' E) : RunsTo A (p >>= f) w Q' E :=
  Prog.Meets.bind hp hf

theorem runsTo_pure {a : α} {Q : α → World → Prop} (h : Q a w) :
    RunsTo A (pure a) w Q E := h

/-! ## Reads -/

theorem findById_spec : RunsTo A (findById r) w (fun a w' => w' = w ∧ a = w.findRun r) E :=
  RunsTo.await rfl trivial ⟨rfl, rfl⟩

/-- The read of a plain variable. -/
theorem getVariable_spec (h : Shows w r v) {k : StateKey} (hk : k.Plain) (hr : k.IsRecord) :
    RunsTo A (getVariable r k.path) w (fun a w' => w' = w ∧ a = v.read k) E := by
  refine findById_spec.bind ?_
  rintro a w' ⟨rfl, rfl⟩
  obtain ⟨run, hrun, hv⟩ := h.row
  rw [hrun]
  refine runsTo_pure ⟨rfl, ?_⟩
  rw [getStateVariable_path _ hk, hv.read k hr]

theorem getStateVariables_spec :
    RunsTo A (getStateVariables r) w (fun t w' => w' = w ∧ t = w.state r) E := by
  refine findById_spec.bind ?_
  rintro a w' ⟨rfl, rfl⟩
  unfold World.state
  cases w'.findRun r with
  | none => exact runsTo_pure ⟨rfl, rfl⟩
  | some run => exact runsTo_pure ⟨rfl, rfl⟩

/-! ## Writes -/

/-- The write of a plain variable. -/
theorem setVariable_spec (h : Shows w r v) {k : StateKey} (hk : k.Plain) (x : Json) :
    RunsTo A (setVariable r k.path x) w (fun _ w' => Shows w' r (v.write k x)) E := by
  obtain ⟨w', hexec, h'⟩ := h.setStateVariable hk x
  have hwrite : RunsTo A (await (.setStateVariableAtomic r k.path x)) w
      (fun a w' => a = some () ∧ Shows w' r (v.write k x)) E :=
    RunsTo.await hexec trivial ⟨rfl, h'⟩
  refine hwrite.bind ?_
  rintro a w' ⟨rfl, h'⟩
  refine (findById_spec).bind ?_
  rintro a w'' ⟨rfl, rfl⟩
  exact runsTo_pure h'

variable {jobId : String}

theorem deleteAutoRetry_spec (h : Shows w r v) (hj : PlainId jobId) :
    RunsTo A (deleteVariable r (autoRetryEntryPath jobId)) w (fun _ w' => Shows w' r v) E := by
  obtain ⟨w', hexec, h'⟩ := h.deleteAutoRetry hj
  have hdelete : RunsTo A (await (.deleteStateVariableAtomic r (autoRetryEntryPath jobId))) w
      (fun a w' => a = some () ∧ Shows w' r v) E :=
    RunsTo.await hexec trivial ⟨rfl, h'⟩
  refine hdelete.bind ?_
  rintro a w' ⟨rfl, h'⟩
  exact runsTo_pure h'

/-- An update of the row. -/
theorem updateRun_spec (h : Shows w r v) (patch : RunPatch) :
    RunsTo A (updateRun r patch) w
      (fun _ w' => Shows w' r { v with status := patch.status.getD v.status }) E :=
  RunsTo.await rfl trivial (h.update patch)

theorem emit_spec (h : Shows w r v) (event : WorkflowEvent) :
    RunsTo A (emit event) w (fun _ w' => Shows w' r v) E :=
  RunsTo.await rfl trivial ⟨h.row, h.keys, h.stepQueue, h.added⟩

theorem newDate_spec (h : Shows w r v) : RunsTo A newDate w (fun _ w' => Shows w' r v) E :=
  RunsTo.await rfl trivial ⟨h.row, h.keys, h.stepQueue, h.added⟩

/-- The claim of a flag. -/
theorem claimJobFlag_spec (h : Shows w r v) (group : FlagGroup) (hj : PlainId jobId) :
    RunsTo A (do orThrow (← await (.claimJobFlag r group jobId))) w
      (fun b w' =>
        (b = false ∧ w' = w ∧
          (v.status ≠ .running ∨ isTrueText (v.read (group.key jobId)) = true)) ∨
        (b = true ∧ v.status = .running ∧ isTrueText (v.read (group.key jobId)) = false ∧
          Shows w' r (v.write (group.key jobId) (.bool true)))) E := by
  rcases h.claimJobFlag group hj with ⟨hset, hexec⟩ | ⟨hrunning, hset, w', hexec, h'⟩
  · have hclaim : RunsTo A (await (.claimJobFlag r group jobId)) w
        (fun a w' => a = some false ∧ w' = w) E := RunsTo.await hexec trivial ⟨rfl, rfl⟩
    refine hclaim.bind ?_
    rintro a w' ⟨rfl, rfl⟩
    exact runsTo_pure (Or.inl ⟨rfl, rfl, hset⟩)
  · have hclaim : RunsTo A (await (.claimJobFlag r group jobId)) w
        (fun a w' => a = some true ∧ Shows w' r (v.write (group.key jobId) (.bool true))) E :=
      RunsTo.await hexec trivial ⟨rfl, h'⟩
    refine hclaim.bind ?_
    rintro a w' ⟨rfl, h'⟩
    exact runsTo_pure (Or.inr ⟨rfl, hrunning, hset, h'⟩)

/-! ## The record of a job -/

/-- The four writes of a record. -/
theorem record_spec (h : Shows w r v) (hj : PlainId jobId) (output result : Json) :
    RunsTo A (do
      setVariable r (StateKey.output jobId).path output
      setVariable r (StateKey.result jobId).path result
      setVariable r (StateKey.jobResult jobId).path result
      setVariable r (StateKey.completed jobId).path (.bool true)) w
      (fun _ w' => Shows w' r (v.record jobId output result)) E := by
  have hp : ∀ k : StateKey, k.owner = jobId → (∀ j n, k ≠ .loops j n) → k.Plain := by
    intro k hk hl
    cases k <;> simp_all [StateKey.owner, StateKey.Plain]
  refine (setVariable_spec h (hp (.output jobId) rfl (by simp)) _).bind fun _ w₁ h₁ => ?_
  refine (setVariable_spec h₁ (hp (.result jobId) rfl (by simp)) _).bind fun _ w₂ h₂ => ?_
  refine (setVariable_spec h₂ (hp (.jobResult jobId) rfl (by simp)) _).bind fun _ w₃ h₃ => ?_
  exact setVariable_spec h₃ (hp (.completed jobId) rfl (by simp)) _

theorem markJobCompleted_spec (h : Shows w r v) (hj : PlainId jobId) (output : JsonRecord) :
    RunsTo A (markJobCompleted r jobId output) w
      (fun _ w' => Shows w' r (v.complete jobId output)) E := by
  have hk : (StateKey.output jobId).Plain := hj
  refine (getVariable_spec h hk trivial).bind ?_
  rintro existing w' ⟨rfl, rfl⟩
  exact record_spec h hj _ _

theorem markJobSkipped_spec (h : Shows w r v) (hj : PlainId jobId) (reason : String) :
    RunsTo A (markJobSkipped r jobId reason) w
      (fun _ w' => Shows w' r (v.skip jobId reason)) E :=
  record_spec h hj _ _

/-! ## The guards of a completion -/

theorem hasPersistedJobOutput_spec (h : Shows w r v) (hj : PlainId jobId) :
    RunsTo A (hasPersistedJobOutput r jobId) w (fun _ w' => w' = w) E := by
  have hk : (StateKey.output jobId).Plain := hj
  refine (getVariable_spec h hk trivial).bind ?_
  rintro a w' ⟨rfl, -⟩
  exact runsTo_pure rfl

/-- The turn of a RUNNING run is suspended, or completes with nothing awaited any more. -/
theorem resolveParkedTurnEnd_spec {run : WorkflowRun} (h : Shows w r v)
    (hrun : w.findRun r = some run) (hrunning : v.status = .running) (hj : PlainId jobId) :
    RunsTo A (resolveParkedTurnEnd run jobId) w
      (fun action w' => action = .suspend ∧ w' = w ∧
          (v.wait_reason.getD "" ≠ "" ∨ v.awaiting_input = true) ∨
        action = .complete ∧ v.wait_reason.getD "" = "" ∧
          Shows w' r { v with awaiting_input := false }) E := by
  obtain ⟨run', hrun', hv⟩ := h.row
  rw [hrun, Option.some.injEq] at hrun'
  subst hrun'
  have hid := World.findRun_id hrun
  unfold resolveParkedTurnEnd
  by_cases hwait : run.wait_reason.getD "" ≠ ""
  · rw [if_pos hwait]
    exact runsTo_pure (Or.inl ⟨rfl, rfl, Or.inl (hv.wait_reason ▸ hwait)⟩)
  · rw [if_neg hwait]
    have hwait' : v.wait_reason.getD "" = "" := by
      rw [← hv.wait_reason]
      simpa using hwait
    by_cases haw : run.awaiting_input = true
    · rw [haw, if_neg (by simp), hid]
      refine (hasPersistedJobOutput_spec h hj).bind ?_
      rintro b w' rfl
      cases b with
      | false =>
          rw [if_pos (by simp)]
          exact runsTo_pure (Or.inl ⟨rfl, rfl, Or.inr (hv.awaiting_input ▸ haw)⟩)
      | true =>
          rw [if_neg (by simp)]
          have h₁ : RunsTo A (await (.cancelOpenAwaits r)) w' (fun _ w₁ => Shows w₁ r v) E :=
            RunsTo.await rfl trivial ⟨h.row, h.keys, h.stepQueue, h.added⟩
          refine h₁.bind fun _ w₁ h₁ => ?_
          have h₂ : RunsTo A (await (.setAwaitingInput r false)) w₁
              (fun _ w₂ => Shows w₂ r { v with awaiting_input := false }) E := by
            have := h₁.setAwaitingInput false
            rw [if_pos hrunning] at this
            exact RunsTo.await rfl trivial this
          refine h₂.bind fun _ w₂ h₂ => ?_
          exact runsTo_pure (Or.inr ⟨rfl, hwait', h₂⟩)
    · have haw' : v.awaiting_input = false := by
        rw [← hv.awaiting_input]
        simpa using haw
      rw [if_pos (by simpa using haw)]
      refine runsTo_pure (Or.inr ⟨rfl, hwait', ?_⟩)
      rw [← haw']
      exact h

/-- **The gate of a completion.** A rejected call leaves the record of every job as it was. An
accepted one found the run RUNNING with the job not completed, and has claimed the completion. -/
theorem gateCompletion_spec (h : Shows w r v) (hj : PlainId jobId) :
    RunsTo A (JobCompletionHandler.gateCompletion r jobId) w
      (fun a w' =>
        (a = none ∧ ∃ awaiting, Shows w' r { v with awaiting_input := awaiting }) ∨
        ∃ run, a = some run ∧ w.findRun r = some run ∧ v.status = .running ∧
          v.wait_reason.getD "" = "" ∧ isTrueText (v.read (.completed jobId)) = false ∧
          Shows w' r ({ v with awaiting_input := false }.write (.completed jobId) (.bool true)))
      E := by
  refine findById_spec.bind ?_
  rintro a w' ⟨rfl, rfl⟩
  obtain ⟨run, hrun, hv⟩ := h.row
  rw [hrun]
  by_cases hrunning : v.status = .running
  · have hrs : ¬ run.status ≠ .running := by simp [hv.status, hrunning]
    simp only [if_neg hrs]
    refine (resolveParkedTurnEnd_spec h hrun hrunning hj).bind ?_
    rintro action w₁ (⟨rfl, rfl, -⟩ | ⟨rfl, hwait, h₁⟩)
    · exact runsTo_pure (Or.inl ⟨rfl, v.awaiting_input, h⟩)
    · refine (claimJobFlag_spec h₁ .completedJobs hj).bind ?_
      rintro b w₂ (⟨rfl, rfl, -⟩ | ⟨rfl, -, hset, h₂⟩)
      · exact runsTo_pure (Or.inl ⟨rfl, false, h₁⟩)
      · exact runsTo_pure (Or.inr ⟨run, rfl, rfl, hrunning, hwait, hset, h₂⟩)
  · have hrs : run.status ≠ .running := by rwa [hv.status]
    simp only [if_pos hrs]
    exact runsTo_pure (Or.inl ⟨rfl, v.awaiting_input, h⟩)

/-- The completion of a job of a RUNNING run that waits for nothing is accepted once. -/
theorem gateCompletion_accepts (h : Shows w r v) (hj : PlainId jobId)
    (hrunning : v.status = .running) (hwait : v.wait_reason.getD "" = "")
    (haw : v.awaiting_input = false) (hset : isTrueText (v.read (.completed jobId)) = false) :
    RunsTo A (JobCompletionHandler.gateCompletion r jobId) w (fun a _ => a.isSome = true) E := by
  refine findById_spec.bind ?_
  rintro a w' ⟨rfl, rfl⟩
  obtain ⟨run, hrun, hv⟩ := h.row
  rw [hrun]
  have hrs : ¬ run.status ≠ .running := by simp [hv.status, hrunning]
  simp only [if_neg hrs]
  refine (resolveParkedTurnEnd_spec h hrun hrunning hj).bind ?_
  rintro action w₁ (⟨rfl, rfl, hpark | hpark⟩ | ⟨rfl, -, h₁⟩)
  · exact absurd hwait hpark
  · rw [haw] at hpark
    cases hpark
  · refine (claimJobFlag_spec h₁ .completedJobs hj).bind ?_
    rintro b w₂ (⟨-, -, hbad | hbad⟩ | ⟨rfl, -, -, -⟩)
    · exact absurd hrunning hbad
    · have hbad' : isTrueText (v.read (.completed jobId)) = true := hbad
      rw [hset] at hbad'
      cases hbad'
    · exact runsTo_pure rfl

/-! ## Transitions -/

/-- The value of a job's condition on state variables. -/
def conditionValue (env : Env) (job : IJob) (stateVariables : Json) : Except String Bool :=
  match job.jobCondition with
  | none => .ok true
  | some jobCondition =>
      (renderWith env jobCondition stateVariables).map fun renderedCondition =>
        jsTrim renderedCondition = "true"

variable {job : IJob}

theorem conditionHolds_spec {env : Env} :
    RunsTo A (conditionHolds env r job) w
      (fun b w' => w' = w ∧ conditionValue env job (w.state r) = .ok b)
      (fun _ w' => w' = w ∧ ∃ message, conditionValue env job (w.state r) = .error message) := by
  unfold conditionHolds conditionValue
  cases job.jobCondition with
  | none => exact runsTo_pure ⟨rfl, rfl⟩
  | some jobCondition =>
      refine getStateVariables_spec.bind ?_
      rintro t w' ⟨rfl, rfl⟩
      unfold substituteTemplate
      cases hrender : renderWith env jobCondition (w'.state r) with
      | error message => exact ⟨rfl, message, by simp only [hrender, Except.map]⟩
      | ok text => exact runsTo_pure ⟨rfl, by simp only [hrender, Except.map]⟩

/-- The target of the first satisfied transition, with its counter raised. -/
theorem resolveTransitionTarget_spec {env : Env} (h : Shows w r v) (hj : PlainId jobId)
    (hnext : ∀ t ∈ job.transitionList, PlainId t.next) :
    RunsTo A (resolveTransitionTarget env r job jobId) w
      (fun next w' =>
        (next = none ∧ w' = w) ∨
        ∃ n, next = some n ∧ evaluateTransition env job.transitionList (w.state r) = .ok (some n) ∧
          isLoopLimitReached (toLoopCount (v.read (.loops jobId n))) = false ∧
          Shows w' r (v.write (.loops jobId n)
            (nextLoopCount (toLoopCount (v.read (.loops jobId n))))))
      (fun e w' => w' = w ∧ ((∃ message, e = .failure message) ∨
        ∃ n, e = .maxLoopIterations jobId n ∧
          evaluateTransition env job.transitionList (w.state r) = .ok (some n) ∧
          isLoopLimitReached (toLoopCount (v.read (.loops jobId n))) = true)) := by
  refine findById_spec.bind ?_
  rintro a w' ⟨rfl, rfl⟩
  obtain ⟨run, hrun, -⟩ := h.row
  rw [World.state_of_findRun hrun]
  simp only [hrun]
  cases heval : evaluateTransition env job.transitionList run.state_variables with
  | error message => exact ⟨rfl, Or.inl ⟨_, rfl⟩⟩
  | ok next =>
      cases next with
      | none => exact runsTo_pure (Or.inl ⟨rfl, rfl⟩)
      | some n =>
          obtain ⟨t, ht, rfl⟩ := evaluateTransition_mem heval
          have hk : (StateKey.loops jobId t.next).Plain := ⟨hj, hnext t ht⟩
          by_cases hempty : t.next = ""
          · simp only [if_pos hempty]
            exact runsTo_pure (Or.inl ⟨rfl, rfl⟩)
          · simp only [if_neg hempty]
            refine (getVariable_spec h hk trivial).bind ?_
            rintro loops w₁ ⟨rfl, rfl⟩
            cases hlimit : isLoopLimitReached (toLoopCount (v.read (.loops jobId t.next))) with
            | true => exact ⟨rfl, Or.inr ⟨_, rfl, rfl, hlimit⟩⟩
            | false =>
                refine (setVariable_spec h hk _).bind fun _ w₂ h₂ => ?_
                exact runsTo_pure (Or.inr ⟨_, rfl, rfl, hlimit, h₂⟩)

/-- A job that is not queued is flagged and put on the step queue. -/
theorem enqueueJob_spec {definition : IWorkflowDefinition} (h : Shows w r v)
    (hfind : definition.findJob jobId = some job) (hj : PlainId jobId)
    (hA : v.status = .running → isTrueText (v.read (.queued jobId)) = false → ∀ w', Shows w' r
      (v.write (.queued jobId) (.bool true)) → A w' (RunView.stepQueueJob r job)) :
    RunsTo A (enqueueJob r definition jobId) w (fun _ w' => Shows w' r (v.queueJob r job)) E := by
  obtain ⟨-, rfl⟩ := IWorkflowDefinition.findJob_some hfind
  simp only [enqueueJob, hfind]
  refine (claimJobFlag_spec h .queuedJobs hj).bind ?_
  rintro b w' (⟨rfl, rfl, hset⟩ | ⟨rfl, hrunning, hset, h'⟩)
  · refine runsTo_pure ?_
    rw [RunView.queueJob, if_neg ?_]
    · exact h
    · rintro ⟨hrunning, hfalse⟩
      rcases hset with hset | hset
      · exact hset hrunning
      · have hset' : isTrueText (v.read (.queued job.id)) = true := hset
        rw [hfalse] at hset'
        cases hset'
  · rw [if_pos rfl]
    have hadd : RunsTo A (await (.stepQueueAdd (RunView.stepQueueJob r job))) w'
        (fun _ w₁ => Shows w₁ r (v.queueJob r job)) E := by
      rw [RunView.queueJob, if_pos ⟨hrunning, hset⟩]
      exact RunsTo.await rfl (hA hrunning hset w' h') (h'.stepQueueAdd _)
    exact hadd.bind fun _ w₁ h₁ => emit_spec h₁ _

theorem pruneBranch_spec (h : Shows w r v) {nextJobId : String} {selectedBranchJobs : List String}
    {candidate : IJob} (hc : PlainId candidate.id) :
    RunsTo A (pruneBranch r jobId nextJobId selectedBranchJobs candidate) w
      (fun _ w' => Shows w' r (v.pruneJob jobId nextJobId selectedBranchJobs candidate)) E := by
  have hk : (StateKey.queued candidate.id).Plain := hc
  have hk' : (StateKey.completed candidate.id).Plain := hc
  unfold pruneBranch RunView.pruneJob
  by_cases h1 : candidate.id ≠ jobId
  · rw [if_pos h1, if_pos h1]
    by_cases h2 : candidate.id ∉ selectedBranchJobs
    · rw [if_pos h2, if_pos h2]
      exact (setVariable_spec h hk _).bind fun _ w₁ h₁ => markJobSkipped_spec h₁ hc _
    · rw [if_neg h2, if_neg h2]
      by_cases h3 : candidate.id ≠ nextJobId
      · rw [if_pos h3]
        refine (getVariable_spec h hk' trivial).bind ?_
        rintro completed w' ⟨rfl, rfl⟩
        cases hcompleted : isTrue (v.read (.completed candidate.id)) with
        | true =>
            rw [if_neg (by simp), if_neg (by simp)]
            exact runsTo_pure h
        | false =>
            rw [if_pos (by simp), if_pos ⟨h3, rfl⟩]
            exact (setVariable_spec h hk _).bind fun _ w₁ h₁ => setVariable_spec h₁ hk' _
      · rw [if_neg h3, if_neg fun hn => h3 hn.1]
        exact runsTo_pure h
  · rw [if_neg h1, if_neg h1]
    exact runsTo_pure h

/-- The pass over the jobs of the definition. -/
theorem pruneBranches_spec {jobId nextJobId : String} {selectedBranchJobs : List String} :
    ∀ {jobs : List IJob} {w : World} {v : RunView}, Shows w r v →
      (∀ j ∈ jobs, PlainId j.id) →
      RunsTo A (pruneBranches r jobId nextJobId selectedBranchJobs jobs) w
        (fun _ w' => Shows w' r (v.prune jobId nextJobId selectedBranchJobs jobs)) E
  | [], _, _, h, _ => runsTo_pure h
  | candidate :: rest, _, _, h, hp =>
      (pruneBranch_spec h (hp candidate (by simp))).bind fun _ _ h' =>
        pruneBranches_spec h' fun j hj => hp j (by simp [hj])

end Nexus
