import Nexus.Workflow.StepCounters
import Mathlib

/-!
# Loops over the steps of a job

Every iteration that goes on executes one step and counts it, so where the counters of the steps are
counted the executions of a step are bounded by its loop limit and the loop ends. A step whose
counter is not counted can be repeated without end, unless its id is a control word: `done` and
`fail_job` end the job instead of naming a step. For the ids of the steps of a job and the run's
variables, the bound holds for every accepted job with these ids just when every other id is counted
(`step_executions_bounded_iff`).
-/

set_option autoImplicit false

namespace Nexus

namespace StepExecutionService

variable {env : StepEnvironment} {jobId : String} {job : IStepsJob}

/-- The control words of targets. -/
def IsControlWord (target : String) : Prop := target = "done" ∨ target = "fail_job"

instance (target : String) : Decidable (IsControlWord target) := by
  unfold IsControlWord
  exact inferInstance

/-! ## What an iteration does to the counters -/

/-- The counter of a step is as before. -/
structure Keeps (jobId stepId : String) (st st' : ExecutionState) : Prop where
  count : getLoopCount st'.localState jobId stepId = getLoopCount st.localState jobId stepId
  counted : Counted jobId stepId st'.localState ↔ Counted jobId stepId st.localState

theorem Keeps.refl (jobId stepId : String) (st : ExecutionState) : Keeps jobId stepId st st :=
  ⟨rfl, Iff.rfl⟩

variable {field stepId target written : String} {st st' st'' : ExecutionState}

theorem Keeps.trans (h : Keeps jobId stepId st st') (h' : Keeps jobId stepId st' st'') :
    Keeps jobId stepId st st'' :=
  ⟨h'.count.trans h.count, h'.counted.trans h.counted⟩

/-- The fields of a step are written past a counter: it is not counted, or the id of the step has no
dot. -/
def WrittenPast (jobId stepId written : String) (st : ExecutionState) : Prop :=
  ¬ Counted jobId stepId st.localState ∨ '.' ∉ written.toList

theorem WrittenPast.of_keeps (h : WrittenPast jobId stepId written st)
    (hkeeps : Keeps jobId stepId st st') :
    WrittenPast jobId stepId written st' := by
  rcases h with h | h
  · exact Or.inl fun hcounted => h (hkeeps.counted.1 hcounted)
  · exact Or.inr h

/-- The own counter is not counted, or the id has no dot. -/
theorem writtenPast_self (jobId stepId : String) (st : ExecutionState) :
    WrittenPast jobId stepId stepId st := by
  by_cases h : Counted jobId stepId st.localState
  · exact Or.inr h.stepNoDot
  · exact Or.inl h

@[simp] theorem localState_setStepField (stepId field : String) (value : Json)
    (st : ExecutionState) : (setStepField jobId stepId field value st).localState =
      setNestedValue (splitDots (stepFieldPath jobId stepId field)) value st.localState := by
  simp only [setStepField]

@[simp] theorem executed_setStepField (stepId field : String) (value : Json)
    (st : ExecutionState) :
    (setStepField jobId stepId field value st).executed = st.executed := by
  simp only [setStepField]

@[simp] theorem currentStepId_setStepField (stepId field : String) (value : Json)
    (st : ExecutionState) :
    (setStepField jobId stepId field value st).currentStepId = st.currentStepId := by
  simp only [setStepField]

/-- A write of a field leaves a counter that is not counted. -/
theorem keeps_of_not_counted (h : ¬ Counted jobId stepId st.localState) (written field : String)
    (value : Json) :
    Keeps jobId stepId st (setStepField jobId written field value st) := by
  obtain ⟨hcount, hcounted⟩ := getLoopCount_of_not_counted h written field value
  constructor
  · rw [localState_setStepField, hcount]
  · rw [localState_setStepField]
    exact iff_of_false hcounted h

theorem keeps_setStepField (hpast : WrittenPast jobId stepId written st)
    (hfield : '.' ∉ field.toList) (hother : written ≠ stepId ∨ field ≠ "loop_count")
    (value : Json) :
    Keeps jobId stepId st (setStepField jobId written field value st) := by
  by_cases h : Counted jobId stepId st.localState
  · have hdot := hpast.resolve_left (not_not.2 h)
    obtain ⟨hcount, hcounted⟩ := getLoopCount_of_other h hdot hfield hother value
    constructor
    · rw [localState_setStepField, hcount]
    · rw [localState_setStepField]
      exact iff_of_true hcounted h
  · exact keeps_of_not_counted h written field value

/-- The variables of the run are a record. -/
def IsRecord (st : ExecutionState) : Prop := ∃ fields, st.localState = .obj fields

theorem isRecord_setStepField {value : Json} (h : IsRecord st) :
    IsRecord (setStepField jobId stepId field value st) := by
  obtain ⟨fields, hfields⟩ := h
  obtain ⟨fields', hfields'⟩ :=
    setNestedValue_obj (splitDots (stepFieldPath jobId stepId field)) value fields
  refine ⟨fields', ?_⟩
  rw [localState_setStepField, hfields, hfields']

/-- The counter of a counted step is what was written last. -/
theorem getLoopCount_setStepField (hrecord : IsRecord st) (h : Counted jobId stepId st.localState)
    (n : Int) :
    getLoopCount (setStepField jobId stepId "loop_count" (.num n) st).localState jobId stepId = n ∧
      Counted jobId stepId (setStepField jobId stepId "loop_count" (.num n) st).localState := by
  obtain ⟨fields, hfields⟩ := hrecord
  rw [localState_setStepField, hfields]
  exact getLoopCount_of_counter (hfields ▸ h) n

/-! ### The parts -/

/-- A target that goes on is no control word. -/
theorem goTarget_next (h : goTarget target st = .next st') :
    ¬ IsControlWord target ∧ st' = { st with currentStepId := target } := by
  unfold goTarget at h
  split_ifs at h with hdone hfail
  exact ⟨not_or.2 ⟨hdone, hfail⟩, (StepFlow.next.inj h).symm⟩

/-- A part of an iteration that writes fields of a step other than the counter. -/
structure Quiet (jobId written : String) (st st' : ExecutionState) : Prop where
  executed : st'.executed = st.executed
  isRecord : IsRecord st → IsRecord st'
  keeps : ∀ stepId, WrittenPast jobId stepId written st → Keeps jobId stepId st st'

theorem Quiet.refl (jobId written : String) (st : ExecutionState) : Quiet jobId written st st :=
  ⟨rfl, id, fun stepId _ => Keeps.refl jobId stepId st⟩

theorem Quiet.trans (h : Quiet jobId written st st') (h' : Quiet jobId written st' st'') :
    Quiet jobId written st st'' := by
  refine ⟨h'.executed.trans h.executed, fun hrecord => h'.isRecord (h.isRecord hrecord), ?_⟩
  intro stepId hpast
  have hkeeps := h.keeps stepId hpast
  exact hkeeps.trans (h'.keeps stepId (hpast.of_keeps hkeeps))

theorem quiet_setStepField (hfield : '.' ∉ field.toList) (hother : field ≠ "loop_count")
    (value : Json) (st : ExecutionState) :
    Quiet jobId written st (setStepField jobId written field value st) :=
  ⟨executed_setStepField _ _ _ _, isRecord_setStepField,
    fun _ hpast => keeps_setStepField hpast hfield (Or.inr hother) value⟩

theorem quiet_status (jobId written value : String) (st : ExecutionState) :
    Quiet jobId written st (setStepField jobId written "status" (.str value) st) :=
  quiet_setStepField (by decide) (by decide) _ st

theorem quiet_setOutput (written : String) (output : JsonRecord) (st : ExecutionState) :
    Quiet jobId written st (setOutput written output st) :=
  ⟨rfl, id, fun _ _ => ⟨rfl, Iff.rfl⟩⟩

theorem quiet_output (written : String) (output : JsonRecord) (st : ExecutionState) :
    Quiet jobId written st
      (setStepField jobId written "output" (.obj output) (setOutput written output st)) :=
  Quiet.trans (quiet_setOutput written output st) (quiet_setStepField (by decide) (by decide) _ _)

theorem quiet_goTarget (written target : String) (st : ExecutionState) :
    Quiet jobId written st (goTarget target st).state := by
  unfold goTarget
  split_ifs
  · exact Quiet.refl _ _ _
  · exact Quiet.refl _ _ _
  · exact ⟨rfl, id, fun _ _ => ⟨rfl, Iff.rfl⟩⟩

theorem quiet_skipStepWhenBlocked (env : StepEnvironment) (jobId : String)
    (steps : List IJobStep) (step : IJobStep) (st : ExecutionState) :
    Quiet jobId step.id st (skipStepWhenBlocked env jobId steps step st).state := by
  unfold skipStepWhenBlocked
  split
  · exact Quiet.refl _ _ _
  · exact Quiet.refl _ _ _
  · apply Quiet.trans _ (quiet_goTarget _ _ _)
    exact (quiet_output step.id _ st).trans (quiet_status _ step.id _ _)

theorem quiet_handleStepTransition (steps : List IJobStep) (step : IJobStep)
    (output : JsonRecord) (st : ExecutionState) :
    Quiet jobId step.id st (handleStepTransition env jobId steps step output st).state := by
  unfold handleStepTransition
  split
  · exact Quiet.refl _ _ _
  · dsimp only
    split
    · split
      · exact quiet_status _ step.id _ st
      · exact quiet_status _ step.id _ st
      · split_ifs
        · exact quiet_status _ step.id _ st
        · exact (quiet_status _ step.id _ st).trans (quiet_goTarget _ _ _)
    · split
      · exact quiet_status _ step.id _ st
      · exact (quiet_status _ step.id _ st).trans (quiet_goTarget _ _ _)

/-- The state in which a step is executed. -/
def startExecution (step : IJobStep) (st : ExecutionState) : ExecutionState :=
  { st with executed := st.executed ++ [step.id] }

theorem quiet_executeStepWithFailureHandling (env : StepEnvironment) (jobId : String)
    (steps : List IJobStep) (step : IJobStep) (st : ExecutionState) :
    Quiet jobId step.id (startExecution step st)
      (executeStepWithFailureHandling env jobId steps step st).2.state := by
  unfold executeStepWithFailureHandling
  dsimp only
  split
  · exact quiet_output step.id _ (startExecution step st)
  · have hfailure : ∀ message, Quiet jobId step.id (startExecution step st)
        (recordFailure jobId step message (startExecution step st)) := fun message =>
      (quiet_output step.id _ (startExecution step st)).trans (quiet_status _ step.id _ _)
    split
    · exact hfailure _
    · exact hfailure _
    · split_ifs
      · exact hfailure _
      · exact (hfailure _).trans (quiet_goTarget _ _ _)

/-- The state after a step was counted. -/
def countStep (jobId : String) (step : IJobStep) (st : ExecutionState) : ExecutionState :=
  setStepField jobId step.id "status" (.str "running")
    (setStepField jobId step.id "loop_count"
      (.num (getLoopCount st.localState jobId step.id + 1)) st)

theorem ensureStepLoopLimit_cases (jobId : String) (job : IStepsJob) (step : IJobStep)
    (st : ExecutionState) :
    (∃ message, ensureStepLoopLimit jobId job step st =
      .threw (setStepField jobId step.id "status" (.str "failed") st) message) ∨
    getLoopCount st.localState jobId step.id < resolveMaxLoops job step ∧
      ensureStepLoopLimit jobId job step st = .next (countStep jobId step st) := by
  unfold ensureStepLoopLimit
  dsimp only
  split_ifs with hlimit
  · exact Or.inl ⟨_, rfl⟩
  · exact Or.inr ⟨Int.not_le.1 hlimit, rfl⟩

variable {step : IJobStep}

theorem ensureStepLoopLimit_below
    (h : getLoopCount st.localState jobId step.id < resolveMaxLoops job step) :
    ensureStepLoopLimit jobId job step st = .next (countStep jobId step st) := by
  unfold ensureStepLoopLimit
  rw [if_neg (Int.not_le.2 h)]
  rfl

/-- A step was executed and counted: what an iteration that executes a step does to the counters. -/
structure Counts (jobId written : String) (st st' : ExecutionState) : Prop where
  isRecord : IsRecord st'
  others : ∀ stepId, stepId ≠ written → WrittenPast jobId stepId written st →
    Keeps jobId stepId st st'
  counter : Counted jobId written st.localState →
    getLoopCount st'.localState jobId written = getLoopCount st.localState jobId written + 1 ∧
      Counted jobId written st'.localState
  uncounted : ¬ Counted jobId written st.localState → Keeps jobId written st st'

theorem counts_countStep (jobId : String) (hrecord : IsRecord st) (step : IJobStep) :
    Counts jobId step.id st (countStep jobId step st) := by
  have hfield : '.' ∉ "loop_count".toList := by decide
  have hstatus := fun st' => quiet_status jobId step.id "running" st'
  unfold countStep
  refine ⟨(hstatus _).isRecord (isRecord_setStepField hrecord), ?_, ?_, ?_⟩
  · intro stepId hne hpast
    have hkeeps := keeps_setStepField hpast hfield (Or.inl hne.symm)
      (.num (getLoopCount st.localState jobId step.id + 1))
    exact hkeeps.trans ((hstatus _).keeps stepId (hpast.of_keeps hkeeps))
  · intro hcounted
    obtain ⟨hcount, hstill⟩ := getLoopCount_setStepField hrecord hcounted
      (getLoopCount st.localState jobId step.id + 1)
    have hkeeps := (hstatus (setStepField jobId step.id "loop_count"
      (.num (getLoopCount st.localState jobId step.id + 1)) st)).keeps step.id
        (writtenPast_self jobId step.id _)
    exact ⟨hkeeps.count.trans hcount, hkeeps.counted.2 hstill⟩
  · intro hnot
    have hkeeps := keeps_of_not_counted hnot step.id "loop_count"
      (.num (getLoopCount st.localState jobId step.id + 1))
    exact hkeeps.trans ((hstatus _).keeps step.id (writtenPast_self jobId step.id _))

theorem Counts.quiet_left (hquiet : Quiet jobId written st st')
    (h : Counts jobId written st' st'') :
    Counts jobId written st st'' := by
  have hself := hquiet.keeps written (writtenPast_self jobId written st)
  refine ⟨h.isRecord, ?_, ?_, ?_⟩
  · intro stepId hne hpast
    have hkeeps := hquiet.keeps stepId hpast
    exact hkeeps.trans (h.others stepId hne (hpast.of_keeps hkeeps))
  · intro hcounted
    obtain ⟨hcount, hstill⟩ := h.counter (hself.counted.2 hcounted)
    exact ⟨by rw [hcount, hself.count], hstill⟩
  · intro hnot
    exact hself.trans (h.uncounted fun hcounted => hnot (hself.counted.1 hcounted))

theorem Counts.quiet_right (h : Counts jobId written st st')
    (hquiet : Quiet jobId written st' st'') :
    Counts jobId written st st'' := by
  have hself := hquiet.keeps written (writtenPast_self jobId written st')
  refine ⟨hquiet.isRecord h.isRecord, ?_, ?_, ?_⟩
  · intro stepId hne hpast
    have hkeeps := h.others stepId hne hpast
    exact hkeeps.trans (hquiet.keeps stepId (hpast.of_keeps hkeeps))
  · intro hcounted
    obtain ⟨hcount, hstill⟩ := h.counter hcounted
    exact ⟨by rw [hself.count, hcount], hself.counted.2 hstill⟩
  · intro hnot
    exact (h.uncounted hnot).trans hself

theorem Counts.startExecution (h : Counts jobId written st st') (step : IJobStep) :
    Counts jobId written st (startExecution step st') :=
  ⟨h.isRecord, fun stepId hne hpast => ⟨(h.others stepId hne hpast).count,
    (h.others stepId hne hpast).counted⟩, h.counter,
    fun hnot => ⟨(h.uncounted hnot).count, (h.uncounted hnot).counted⟩⟩

/-- An iteration that executes a step. -/
structure StepCall (env : StepEnvironment) (jobId : String) (job : IStepsJob)
    (st : ExecutionState) (step : IJobStep) : Prop where
  found : stepById job.stepList st.currentStepId = some step
  below : getLoopCount st.localState jobId step.id < resolveMaxLoops job step
  executed : (runSingleStepIteration env jobId job st).state.executed = st.executed ++ [step.id]
  counts : Counts jobId step.id st (runSingleStepIteration env jobId job st).state
  next : ∀ st', runSingleStepIteration env jobId job st = .next st' →
    ¬ IsControlWord st'.currentStepId

theorem handleStepTransition_next {steps : List IJobStep} {output : JsonRecord}
    (h : handleStepTransition env jobId steps step output st = .next st') :
    ¬ IsControlWord st'.currentStepId := by
  have hgo : ∀ {target : String} {st : ExecutionState}, goTarget target st = .next st' →
      ¬ IsControlWord st'.currentStepId := by
    intro target st hgo
    obtain ⟨hnot, rfl⟩ := goTarget_next hgo
    exact hnot
  unfold handleStepTransition at h
  split at h
  · nomatch h
  · dsimp only at h
    split at h
    · split at h
      · nomatch h
      · nomatch h
      · split_ifs at h
        exact hgo h
    · split at h
      · nomatch h
      · exact hgo h

/-- An iteration ends without a call, or it executes the current step and counts it. -/
theorem runSingleStepIteration_cases (env : StepEnvironment) (jobId : String) (job : IStepsJob)
    (hrecord : IsRecord st) :
    ((runSingleStepIteration env jobId job st).state.executed = st.executed ∧
      ∀ st', runSingleStepIteration env jobId job st ≠ .next st') ∨
    ∃ step, StepCall env jobId job st step := by
  cases hfound : stepById job.stepList st.currentStepId with
  | none =>
      left
      simp [runSingleStepIteration, hfound, StepFlow.state]
  | some step =>
      have hstart : Quiet jobId step.id st { st with finalStepId := some step.id } :=
        ⟨rfl, id, fun _ _ => ⟨rfl, Iff.rfl⟩⟩
      have hskip := quiet_skipStepWhenBlocked env jobId job.stepList step
        { st with finalStepId := some step.id }
      cases hflow : skipStepWhenBlocked env jobId job.stepList step
          { st with finalStepId := some step.id } with
      | returned st₁ result =>
          left
          rw [hflow] at hskip
          simp only [runSingleStepIteration, hfound, hflow, StepFlow.andThen]
          exact ⟨hskip.executed, fun st' h => nomatch h⟩
      | threw st₁ message =>
          left
          rw [hflow] at hskip
          simp only [runSingleStepIteration, hfound, hflow, StepFlow.andThen]
          exact ⟨hskip.executed, fun st' h => nomatch h⟩
      | next st₁ =>
          rw [hflow] at hskip
          have hquiet := hstart.trans hskip
          rcases ensureStepLoopLimit_cases jobId job step st₁ with ⟨message, hlimit⟩ | ⟨hlt, hlimit⟩
          · left
            simp only [runSingleStepIteration, hfound, hflow, StepFlow.andThen, hlimit,
              StepFlow.state, executed_setStepField]
            exact ⟨hskip.executed, fun st' h => nomatch h⟩
          · right
            have hself := hquiet.keeps step.id (writtenPast_self jobId step.id st)
            have hcounts := (counts_countStep jobId (hquiet.isRecord hrecord) step)
            have hexecute := quiet_executeStepWithFailureHandling env jobId
              job.stepList step (countStep jobId step st₁)
            have hiteration : runSingleStepIteration env jobId job st =
                (executeStepWithFailureHandling env jobId job.stepList step
                    (countStep jobId step st₁)).2.andThen fun st =>
                  handleStepTransition env jobId job.stepList step
                    (executeStepWithFailureHandling env jobId job.stepList step
                      (countStep jobId step st₁)).1 st := by
              simp only [runSingleStepIteration, hfound, hflow, StepFlow.andThen, hlimit]
            -- what comes after the call writes no counter
            have hrest : Quiet jobId step.id (startExecution step (countStep jobId step st₁))
                (runSingleStepIteration env jobId job st).state := by
              rw [hiteration]
              cases hexecuted : (executeStepWithFailureHandling env jobId job.stepList step
                  (countStep jobId step st₁)).2 with
              | next st₂ =>
                  rw [hexecuted] at hexecute
                  exact hexecute.trans (quiet_handleStepTransition _ _ _ _)
              | returned st₂ result =>
                  rw [hexecuted] at hexecute
                  exact hexecute
              | threw st₂ message =>
                  rw [hexecuted] at hexecute
                  exact hexecute
            refine ⟨step, hfound, ?_, ?_, ?_, ?_⟩
            · rw [← hself.count]
              exact hlt
            · rw [hrest.executed, ← hquiet.executed]
              simp only [startExecution, countStep, executed_setStepField, StepFlow.state]
            · exact ((hcounts.startExecution step).quiet_right hrest).quiet_left hquiet
            · intro st' hnext
              rw [hiteration] at hnext
              cases hexecuted : (executeStepWithFailureHandling env jobId job.stepList step
                  (countStep jobId step st₁)).2 with
              | next st₂ =>
                  rw [hexecuted] at hnext
                  exact handleStepTransition_next hnext
              | returned st₂ result =>
                  rw [hexecuted] at hnext
                  nomatch hnext
              | threw st₂ message =>
                  rw [hexecuted] at hnext
                  nomatch hnext

/-! ## The bound -/

/-- The executions a step has left: a step named by a control word is executed only when the loop
starts with it. -/
def remaining (jobId : String) (job : IStepsJob) (st : ExecutionState) (step : IJobStep) : Nat :=
  if IsControlWord step.id then if st.currentStepId = step.id then 1 else 0
  else (resolveMaxLoops job step - getLoopCount st.localState jobId step.id).toNat

def budget (jobId : String) (job : IStepsJob) (st : ExecutionState) : Nat :=
  (job.stepList.map (remaining jobId job st)).sum

/-- Every step that can be a target is counted. -/
def AllCounted (jobId : String) (job : IStepsJob) (st : ExecutionState) : Prop :=
  ∀ step ∈ job.stepList, ¬ IsControlWord step.id → Counted jobId step.id st.localState

theorem IsControlWord.noDot (h : IsControlWord target) : '.' ∉ target.toList := by
  rcases h with rfl | rfl <;> decide

theorem AllCounted.noDot (h : AllCounted jobId job st) (hstep : step ∈ job.stepList) :
    '.' ∉ step.id.toList := by
  by_cases hword : IsControlWord step.id
  · exact hword.noDot
  · exact (h step hstep hword).stepNoDot

theorem stepById_some {steps : List IJobStep} (h : stepById steps stepId = some step) :
    step ∈ steps ∧ step.id = stepId := by
  refine ⟨List.mem_reverse.1 (List.mem_of_find?_eq_some h), ?_⟩
  simpa using List.find?_some h

theorem StepCall.allCounted (hcall : StepCall env jobId job st step) (h : AllCounted jobId job st) :
    AllCounted jobId job (runSingleStepIteration env jobId job st).state := by
  intro step' hstep' hword
  have hcounted := h step' hstep' hword
  have hdot := h.noDot (stepById_some hcall.found).1
  by_cases hsame : step'.id = step.id
  · rw [hsame] at hcounted ⊢
    exact (hcall.counts.counter hcounted).2
  · exact (hcall.counts.others step'.id hsame (Or.inr hdot)).counted.2 hcounted

/-- A step that is executed had an execution left. -/
theorem StepCall.remaining_pos (hcall : StepCall env jobId job st step) :
    0 < remaining jobId job st step := by
  have hid := (stepById_some hcall.found).2
  have hbelow := hcall.below
  unfold remaining
  split_ifs with hword hcurrent
  · exact Nat.one_pos
  · exact absurd hid.symm hcurrent
  · omega

theorem StepCall.budget_pos (hcall : StepCall env jobId job st step) : 0 < budget jobId job st := by
  have hmem : remaining jobId job st step ∈ job.stepList.map (remaining jobId job st) :=
    List.mem_map_of_mem (stepById_some hcall.found).1
  exact Nat.lt_of_lt_of_le hcall.remaining_pos
    (List.single_le_sum (fun _ _ => Nat.zero_le _) _ hmem)

/-- An iteration that goes on leaves fewer executions. -/
theorem StepCall.budget_lt (hcall : StepCall env jobId job st step) (h : AllCounted jobId job st)
    (hnext : runSingleStepIteration env jobId job st = .next st') :
    budget jobId job st' < budget jobId job st := by
  have hmem := (stepById_some hcall.found).1
  have hcounts := hcall.counts
  have hword' := hcall.next st' hnext
  rw [hnext] at hcounts
  have hremaining : ∀ step' ∈ job.stepList,
      remaining jobId job st' step' ≤ remaining jobId job st step' ∧
        (step' = step → remaining jobId job st' step' < remaining jobId job st step') := by
    intro step' hstep'
    by_cases hword : IsControlWord step'.id
    · have hcurrent : st'.currentStepId ≠ step'.id := fun heq => hword' (heq ▸ hword)
      rw [remaining, if_pos hword, if_neg hcurrent]
      refine ⟨Nat.zero_le _, ?_⟩
      rintro rfl
      exact hcall.remaining_pos
    · have hcounted := h step' hstep' hword
      rw [remaining, if_neg hword, remaining, if_neg hword]
      by_cases hsame : step'.id = step.id
      · rw [hsame] at hcounted ⊢
        have hcount := (hcounts.counter hcounted).1
        have hbelow := hcall.below
        rw [StepFlow.state] at hcount
        refine ⟨by omega, ?_⟩
        rintro rfl
        omega
      · have hkeeps := hcounts.others step'.id hsame (Or.inr (h.noDot hmem))
        have hcount := hkeeps.count
        rw [StepFlow.state] at hcount
        rw [hcount]
        refine ⟨Nat.le_refl _, ?_⟩
        rintro rfl
        exact absurd rfl hsame
  exact List.sum_lt_sum _ _ (fun step' hstep' => (hremaining step' hstep').1)
    ⟨step, hmem, (hremaining step hmem).2 rfl⟩

theorem runSteps_ended (hcurrent : st.currentStepId ≠ "")
    (hend : ∀ st', runSingleStepIteration env jobId job st ≠ .next st') (fuel : Nat) :
    runSteps env jobId job (fuel + 1) st = some (runSingleStepIteration env jobId job st) := by
  rw [runSteps, if_neg hcurrent]
  cases hflow : runSingleStepIteration env jobId job st with
  | next st' => exact absurd hflow (hend st')
  | returned st' result => rfl
  | threw st' message => rfl

theorem runSteps_next (hcurrent : st.currentStepId ≠ "")
    (hnext : runSingleStepIteration env jobId job st = .next st') (fuel : Nat) :
    runSteps env jobId job (fuel + 1) st = runSteps env jobId job fuel st' := by
  rw [runSteps, if_neg hcurrent, hnext]

/-- The loop ends with a result or an exception. -/
theorem runSteps_ne_next {fuel : Nat} {flow : StepFlow}
    (h : runSteps env jobId job fuel st = some flow) (st' : ExecutionState) : flow ≠ .next st' := by
  induction fuel generalizing st with
  | zero => nomatch h
  | succ fuel ih =>
      rw [runSteps] at h
      split at h
      · obtain rfl := Option.some.inj h
        exact fun heq => nomatch heq
      · split at h
        · exact ih h
        · rename_i hnot
          obtain rfl := Option.some.inj h
          exact fun heq => hnot st' heq

/-- **Where all steps are counted, the loop ends after as many executions as are left.** -/
theorem runSteps_bounded (env : StepEnvironment) (n : Nat) (hrecord : IsRecord st)
    (h : AllCounted jobId job st) (hbudget : budget jobId job st < n) :
    ∃ flow, runSteps env jobId job n st = some flow ∧
      flow.state.executed.length ≤ st.executed.length + budget jobId job st := by
  induction n generalizing st with
  | zero => omega
  | succ n ih =>
      by_cases hcurrent : st.currentStepId = ""
      · exact ⟨_, by rw [runSteps, if_pos hcurrent], Nat.le_add_right _ _⟩
      rcases runSingleStepIteration_cases env jobId job hrecord with ⟨hsame, hend⟩ | ⟨step, hcall⟩
      · refine ⟨_, runSteps_ended hcurrent hend n, ?_⟩
        rw [hsame]
        exact Nat.le_add_right _ _
      · have hpos := hcall.budget_pos
        have hlength := congrArg List.length hcall.executed
        rw [List.length_append, List.length_singleton] at hlength
        by_cases hnext : ∃ st', runSingleStepIteration env jobId job st = .next st'
        · obtain ⟨st', hnext⟩ := hnext
          have hlt := hcall.budget_lt h hnext
          have hrecord' := hcall.counts.isRecord
          have hcounted' := hcall.allCounted h
          rw [hnext] at hrecord' hcounted' hlength
          simp only [StepFlow.state] at hrecord' hcounted' hlength
          obtain ⟨flow, hflow, hbound⟩ := ih hrecord' hcounted' (by omega)
          refine ⟨flow, (runSteps_next hcurrent hnext n).trans hflow, ?_⟩
          omega
        · refine ⟨_, runSteps_ended hcurrent (fun st' heq => hnext ⟨st', heq⟩) n, ?_⟩
          omega

/-! ## The first state -/

theorem isRecord_initializeStep (h : IsRecord st) : IsRecord (initializeStep jobId st written) :=
  isRecord_setStepField (isRecord_setStepField h)

/-- The first fields of a step set its counter to zero and leave the other ones. -/
theorem initializeStep_counted (hrecord : IsRecord st) (hdot : '.' ∉ written.toList)
    (h : Counted jobId stepId st.localState) :
    Counted jobId stepId (initializeStep jobId st written).localState ∧
      (getLoopCount (initializeStep jobId st written).localState jobId stepId =
        if written = stepId then 0 else getLoopCount st.localState jobId stepId) := by
  have hstatus := (quiet_status jobId written "pending" st).keeps stepId (Or.inr hdot)
  have hcounted := hstatus.counted.2 h
  by_cases hsame : written = stepId
  · subst hsame
    obtain ⟨hcount, hstill⟩ := getLoopCount_setStepField
      ((quiet_status jobId written "pending" st).isRecord hrecord) hcounted 0
    rw [if_pos rfl]
    exact ⟨hstill, hcount⟩
  · have hfield : '.' ∉ "loop_count".toList := by decide
    have hkeeps : Keeps jobId stepId (setStepField jobId written "status" (.str "pending") st)
        (initializeStep jobId st written) :=
      keeps_setStepField (Or.inr hdot) hfield (Or.inl hsame) _
    rw [if_neg hsame, ← hstatus.count]
    exact ⟨hkeeps.counted.2 hcounted, hkeeps.count⟩

/-- After the initialisation every counted step has the count zero. -/
theorem foldl_initializeStep_counted (ids : List String) (st : ExecutionState)
    (hrecord : IsRecord st) (hdot : ∀ id ∈ ids, '.' ∉ id.toList)
    (h : Counted jobId stepId st.localState) :
    Counted jobId stepId (ids.foldl (initializeStep jobId) st).localState ∧
      (stepId ∈ ids ∨ getLoopCount st.localState jobId stepId = 0 →
        getLoopCount (ids.foldl (initializeStep jobId) st).localState jobId stepId = 0) := by
  induction ids generalizing st with
  | nil => exact ⟨h, fun hzero => hzero.resolve_left List.not_mem_nil⟩
  | cons id ids ih =>
      obtain ⟨hcounted, hcount⟩ := initializeStep_counted hrecord (hdot id (by simp)) h
      obtain ⟨hrest, hzero⟩ := ih _ (isRecord_initializeStep hrecord)
        (fun id' hid' => hdot id' (List.mem_cons_of_mem _ hid')) hcounted
      rw [List.foldl_cons]
      refine ⟨hrest, fun hstep => hzero ?_⟩
      by_cases hsame : id = stepId
      · exact Or.inr (by rw [hcount, if_pos hsame])
      · rw [hcount, if_neg hsame]
        rcases hstep with hstep | hstep
        · exact Or.inl ((List.mem_cons.1 hstep).resolve_left (Ne.symm hsame))
        · exact Or.inr hstep

theorem executed_initializeStep (st : ExecutionState) (stepId : String) :
    (initializeStep jobId st stepId).executed = st.executed := by
  rw [initializeStep, executed_setStepField, executed_setStepField]

theorem currentStepId_initializeStep (st : ExecutionState) (stepId : String) :
    (initializeStep jobId st stepId).currentStepId = st.currentStepId := by
  rw [initializeStep, currentStepId_setStepField, currentStepId_setStepField]

theorem foldl_initializeStep (jobId : String) (ids : List String) (st : ExecutionState) :
    (ids.foldl (initializeStep jobId) st).executed = st.executed ∧
      (ids.foldl (initializeStep jobId) st).currentStepId = st.currentStepId ∧
      (IsRecord st → IsRecord (ids.foldl (initializeStep jobId) st)) := by
  induction ids generalizing st with
  | nil => exact ⟨rfl, rfl, id⟩
  | cons id ids ih =>
      obtain ⟨hexecuted, hcurrent, hrecord⟩ := ih (initializeStep jobId st id)
      rw [List.foldl_cons]
      rw [executed_initializeStep] at hexecuted
      rw [currentStepId_initializeStep] at hcurrent
      exact ⟨hexecuted, hcurrent, fun h => hrecord (isRecord_initializeStep h)⟩

/-! ## The bound for a job -/

theorem resolveMaxLoops_pos (job : IStepsJob) (step : IJobStep) : 0 < resolveMaxLoops job step := by
  unfold resolveMaxLoops
  split_ifs with hstep hjob
  · cases h : step.max_loops with
    | none => simp [isPositiveInteger, h] at hstep
    | some n => simpa [isPositiveInteger, h] using hstep
  · cases h : job.max_step_loops with
    | none => simp [isPositiveInteger, h] at hjob
    | some n => simpa [isPositiveInteger, h] using hjob
  · decide

/-- The steps of a job are executed so many times at most, and the execution ends. -/
def ExecutionsBounded (env : StepEnvironment) (jobId : String) (job : IStepsJob)
    (stateVariables : Json) : Prop :=
  ∃ fuel flow, execute env jobId job stateVariables fuel = some flow ∧ (∀ st, flow ≠ .next st) ∧
    (flow.state.executed.length : Int) ≤ (job.stepList.map (resolveMaxLoops job)).sum

/-- Every target that can be a step is counted in the variables of the run. -/
def StepsCounted (jobId : String) (ids : List String) (stateVariables : Json) : Prop :=
  ∀ stepId ∈ ids, ¬ IsControlWord stepId → Counted jobId stepId stateVariables

theorem initializeExecutionState_spec (jobId : String) (steps : List IJobStep)
    (fields : List (String × Json)) :
    (initializeExecutionState jobId steps (.obj fields)).executed = [] ∧
      (initializeExecutionState jobId steps (.obj fields)).currentStepId =
        ((steps.map IJobStep.id).head?).getD "" ∧
      IsRecord (initializeExecutionState jobId steps (.obj fields)) := by
  obtain ⟨hexecuted, hcurrent, hrecord⟩ := foldl_initializeStep jobId (steps.map IJobStep.id)
    { localState := .obj fields, currentStepId := ((steps.map IJobStep.id).head?).getD "" }
  exact ⟨hexecuted, hcurrent, hrecord ⟨fields, rfl⟩⟩

variable {fields : List (String × Json)}

/-- Every step starts counted, with the count zero. -/
theorem initializeExecutionState_counted
    (h : StepsCounted jobId (job.stepList.map IJobStep.id) (.obj fields))
    (hstep : step ∈ job.stepList) (hword : ¬ IsControlWord step.id) :
    Counted jobId step.id
        (initializeExecutionState jobId job.stepList (.obj fields)).localState ∧
      getLoopCount (initializeExecutionState jobId job.stepList (.obj fields)).localState jobId
        step.id = 0 := by
  have hdot : ∀ id ∈ job.stepList.map IJobStep.id, '.' ∉ id.toList := by
    intro id hid
    by_cases hcontrol : IsControlWord id
    · exact hcontrol.noDot
    · exact (h id hid hcontrol).stepNoDot
  have hmem : step.id ∈ job.stepList.map IJobStep.id := List.mem_map_of_mem hstep
  obtain ⟨hcounted, hzero⟩ := foldl_initializeStep_counted (job.stepList.map IJobStep.id)
    { localState := .obj fields
      currentStepId := ((job.stepList.map IJobStep.id).head?).getD "" }
    ⟨fields, rfl⟩ hdot (h step.id hmem hword)
  exact ⟨hcounted, hzero (Or.inl hmem)⟩

theorem cast_sum_le {α : Type} {f : α → Nat} {g : α → Int} (l : List α)
    (h : ∀ x ∈ l, (f x : Int) ≤ g x) : ((l.map f).sum : Int) ≤ (l.map g).sum := by
  induction l with
  | nil => exact le_refl _
  | cons x l ih =>
      have hfirst := h x List.mem_cons_self
      have hrest := ih fun y hy => h y (List.mem_cons_of_mem _ hy)
      simp only [List.map_cons, List.sum_cons, Int.natCast_add]
      omega

/-- **Counted steps are executed as often as their limits allow, at most.** -/
theorem executionsBounded_of_counted (env : StepEnvironment)
    (h : StepsCounted jobId (job.stepList.map IJobStep.id) (.obj fields)) :
    ExecutionsBounded env jobId job (.obj fields) := by
  by_cases hsteps : job.stepList = []
  · refine ⟨0, _, by rw [execute, if_pos hsteps], ?_, ?_⟩
    · intro st heq
      nomatch heq
    · rw [hsteps]
      exact le_refl _
  · obtain ⟨hexecuted, -, hrecord⟩ := initializeExecutionState_spec jobId job.stepList fields
    have hcounted : AllCounted jobId job
        (initializeExecutionState jobId job.stepList (.obj fields)) :=
      fun step hstep hword => (initializeExecutionState_counted h hstep hword).1
    have hbudget : (budget jobId job
        (initializeExecutionState jobId job.stepList (.obj fields)) : Int) ≤
          (job.stepList.map (resolveMaxLoops job)).sum := by
      apply cast_sum_le
      intro step hstep
      have hpos := resolveMaxLoops_pos job step
      unfold remaining
      split_ifs with hword hcurrent
      · omega
      · omega
      · rw [(initializeExecutionState_counted h hstep hword).2]
        omega
    obtain ⟨flow, hflow, hbound⟩ :=
      runSteps_bounded env _ hrecord hcounted (Nat.lt_succ_self _)
    refine ⟨_, flow, by rw [execute, if_neg hsteps, hflow], runSteps_ne_next hflow, ?_⟩
    rw [hexecuted, List.length_nil] at hbound
    omega

/-! ## A loop without end -/

/-- A step that goes to a target. -/
def loopStep (target : String) (maxLoops : Int) (id : String) : IJobStep where
  id := id
  prompt := some "again"
  transitions := some [⟨"true", "goto:" ++ target⟩]
  max_loops := some maxLoops

/-- The steps of the ids, all of which go to one step. -/
def loopJob (jobId : String) (ids : List String) (target : String) (maxLoops : Int) :
    IStepsJob where
  id := jobId
  steps := some (ids.map (loopStep target maxLoops))

/-- Every step succeeds and every condition holds. -/
def loopEnvironment : StepEnvironment where
  executeStep := fun _ _ => .ok []
  evaluate := fun _ _ _ _ => .ok true
  substituteTemplate := fun _ _ _ => .ok "true"

/-- The ids of the steps of an accepted job. -/
structure ValidStepIds (ids : List String) : Prop where
  nonempty : ids ≠ []
  nodup : ids.Nodup
  ids : ∀ id ∈ ids, isNonEmptyString id = true

theorem ValidStepIds.ne_empty {ids : List String} (hids : ValidStepIds ids) :
    ∀ id ∈ ids, id ≠ "" := by
  rintro id hid rfl
  have hempty := hids.ids "" hid
  revert hempty
  decide

theorem gotoTarget_goto (target : String) :
    StepValidation.gotoTarget? ("goto:" ++ target) = some target := by
  have hlist : ("goto:" ++ target).toList = ['g', 'o', 't', 'o', ':'] ++ target.toList := by
    rw [String.toList_append]
    rfl
  have hprefix : ("goto:".toList.isPrefixOf ("goto:" ++ target).toList) = true := by
    rw [String.toList_append, List.isPrefixOf_iff_prefix]
    exact List.prefix_append _ _
  rw [StepValidation.gotoTarget?, if_pos hprefix, hlist]
  simp

theorem goto_ne_word (target : String) : ¬ IsControlWord ("goto:" ++ target) := by
  have hhead : ("goto:" ++ target).toList.head? = some 'g' := by
    rw [String.toList_append]
    rfl
  rintro (h | h)
  · rw [h] at hhead
    exact absurd hhead (by decide)
  · rw [h] at hhead
    exact absurd hhead (by decide)

theorem map_id_loopJob (jobId : String) (ids : List String) (target : String) (maxLoops : Int) :
    (loopJob jobId ids target maxLoops).stepList.map IJobStep.id = ids := by
  simp [loopJob, loopStep, IStepsJob.stepList, Function.comp_def]

variable {maxLoops : Int}

/-- The job is accepted. -/
theorem validate_loopJob (jobId : String) {ids : List String} (hids : ValidStepIds ids)
    (htarget : target ∈ ids) (hmax : 0 < maxLoops) :
    StepValidation.validateExecutionSteps (loopJob jobId ids target maxLoops) = [] := by
  have hne := hids.ne_empty
  have hstepIds : StepValidation.stepIds (loopJob jobId ids target maxLoops) = ids := by
    rw [StepValidation.stepIds, map_id_loopJob, List.filter_eq_self]
    simpa using hne
  have hcount : ∀ id, ids.count id ≤ 1 := List.nodup_iff_count_le_one.1 hids.nodup
  have hsteps : (loopJob jobId ids target maxLoops).stepList ≠ [] := by
    simpa [loopJob, IStepsJob.stepList] using hids.nonempty
  rw [StepValidation.validateExecutionSteps, if_neg hsteps, List.append_eq_nil_iff]
  constructor
  · rw [StepValidation.reportDuplicateStepIds, hstepIds, List.map_eq_nil_iff,
      List.filter_eq_nil_iff]
    intro id _
    have hle := hcount id
    simp only [decide_eq_true_eq]
    omega
  · rw [List.flatMap_eq_nil_iff]
    intro step hstep
    obtain ⟨id, hid, rfl⟩ := List.mem_map.1 hstep
    have hle := hcount id
    have hword := goto_ne_word target
    rw [IsControlWord, not_or] at hword
    have htransition : StepValidation.validateStringTransitionTarget
        (loopStep target maxLoops id)
        (loopJob jobId ids target maxLoops) ("goto:" ++ target) = [] := by
      rw [StepValidation.validateStringTransitionTarget, if_neg (not_or.2 hword),
        gotoTarget_goto, hstepIds]
      simp [hne target htarget, htarget]
    have htype : StepValidation.validateStepType
        (loopStep target maxLoops id)
        (loopJob jobId ids target maxLoops) = [] := by
      have hprompt : StepValidation.isNonEmptyText (some "again") = true := by decide
      have hfile : StepValidation.isNonEmptyText none = false := by decide
      simp [loopStep, StepValidation.validateStepType, StepValidation.validateAgentStep, hprompt,
        hfile]
    rw [StepValidation.validateIndividualStep, hstepIds, htype]
    rw [loopStep] at htransition ⊢
    simp [hids.ids id hid, Nat.not_lt.2 hle, StepValidation.validateMaxLoops, isPositiveInteger,
      hmax, StepValidation.validateOnErrorTarget, StepValidation.validateTransitions, htransition]

theorem stepById_loopJob {ids : List String} (target : String) (maxLoops : Int) {id : String}
    (hid : id ∈ ids) :
    stepById (loopJob jobId ids target maxLoops).stepList id =
      some (loopStep target maxLoops id) := by
  cases hfound : stepById (loopJob jobId ids target maxLoops).stepList id with
  | none =>
      have hmem : loopStep target maxLoops id ∈ (loopJob jobId ids target maxLoops).stepList :=
        List.mem_map_of_mem hid
      have hnone := List.find?_eq_none.1 hfound _ (List.mem_reverse.2 hmem)
      exact absurd (decide_eq_true rfl) hnone
  | some step =>
      obtain ⟨hmem, hstep⟩ := stepById_some hfound
      obtain ⟨id', -, rfl⟩ := List.mem_map.1 hmem
      obtain rfl : id' = id := hstep
      rfl

theorem resolveStepTarget_loopJob {ids : List String} (htarget : target ∈ ids) (hne : target ≠ "")
    (maxLoops : Int) (step : IJobStep) :
    resolveStepTarget (some ("goto:" ++ target)) step
      (loopJob jobId ids target maxLoops).stepList = .ok target := by
  have hword := goto_ne_word target
  rw [IsControlWord] at hword
  have hempty : "goto:" ++ target ≠ "" := by
    intro h
    have hlist := congrArg String.toList h
    rw [String.toList_append] at hlist
    exact absurd (List.append_eq_nil_iff.1 hlist).1 (by decide)
  have hmem : ∃ step' ∈ (loopJob jobId ids target maxLoops).stepList, step'.id = target :=
    ⟨loopStep target maxLoops target, List.mem_map_of_mem htarget, rfl⟩
  simp only [resolveStepTarget, if_neg hempty, if_neg hword, gotoTarget_goto, if_neg hne,
    if_pos hmem]

/-- An iteration of a step that is below its limit goes to the target. -/
theorem runSingleStepIteration_loopJob {ids : List String} (htarget : target ∈ ids)
    (hword : ¬ IsControlWord target) (hne : target ≠ "") (hmax : 0 < maxLoops)
    (hcurrent : st.currentStepId ∈ ids)
    (hbelow : getLoopCount st.localState jobId st.currentStepId < maxLoops) :
    ∃ st', runSingleStepIteration loopEnvironment jobId (loopJob jobId ids target maxLoops) st =
      .next st' ∧ st'.currentStepId = target := by
  have hlimit : resolveMaxLoops (loopJob jobId ids target maxLoops)
      (loopStep target maxLoops st.currentStepId) = maxLoops := by
    simp [resolveMaxLoops, loopStep, isPositiveInteger, hmax]
  have hskip : ∀ (steps : List IJobStep) (id : String) (st : ExecutionState),
      skipStepWhenBlocked loopEnvironment jobId steps (loopStep target maxLoops id) st =
        .next st := fun _ _ _ => rfl
  have hexecute : ∀ (steps : List IJobStep) (step : IJobStep) (st : ExecutionState),
      executeStepWithFailureHandling loopEnvironment jobId steps step st =
        ([], .next (recordOutput jobId step [] (startExecution step st))) := fun _ _ _ => rfl
  have hgo : ∀ (id : String) (st : ExecutionState), ∃ st',
      handleStepTransition loopEnvironment jobId (loopJob jobId ids target maxLoops).stepList
        (loopStep target maxLoops id) [] st = .next st' ∧ st'.currentStepId = target := by
    intro id st
    have heval : evaluateTransition loopEnvironment st.executed.length
        (buildTransitionContext st.localState jobId) 0
        ((loopStep target maxLoops id).transitions.getD []) = .ok (some ("goto:" ++ target)) := rfl
    rw [IsControlWord, not_or] at hword
    simp only [handleStepTransition, heval, reduceCtorEq, and_false, if_false,
      resolveStepTarget_loopJob htarget hne, goTarget, if_neg hword.1, if_neg hword.2]
    exact ⟨_, rfl, rfl⟩
  have hcount : ensureStepLoopLimit jobId (loopJob jobId ids target maxLoops)
      (loopStep target maxLoops st.currentStepId)
      { st with finalStepId := some st.currentStepId } =
        .next (countStep jobId (loopStep target maxLoops st.currentStepId)
          { st with finalStepId := some st.currentStepId }) :=
    ensureStepLoopLimit_below (by rw [hlimit]; exact hbelow)
  obtain ⟨st', hst', hcurrent'⟩ := hgo st.currentStepId
    (recordOutput jobId (loopStep target maxLoops st.currentStepId) []
      (startExecution (loopStep target maxLoops st.currentStepId)
        (countStep jobId (loopStep target maxLoops st.currentStepId)
          { st with finalStepId := some st.currentStepId })))
  refine ⟨st', ?_, hcurrent'⟩
  simp only [runSingleStepIteration, stepById_loopJob target maxLoops hcurrent]
  rw [hskip]
  simp only [StepFlow.andThen]
  have hid : (loopStep target maxLoops st.currentStepId).id = st.currentStepId := rfl
  rw [hid, hcount]
  simp only [hexecute]
  exact hst'

/-- A state of the loop of one step. -/
structure Looping (jobId target : String) (maxLoops : Int) (st : ExecutionState) : Prop where
  isRecord : IsRecord st
  uncounted : ¬ Counted jobId target st.localState
  below : getLoopCount st.localState jobId target < maxLoops

/-- An iteration keeps the counter of a step that is not counted. -/
theorem Looping.next (h : Looping jobId target maxLoops st)
    (hnext : runSingleStepIteration env jobId job st = .next st') :
    Looping jobId target maxLoops st' := by
  rcases runSingleStepIteration_cases env jobId job h.isRecord with ⟨-, hend⟩ | ⟨step, hcall⟩
  · exact absurd hnext (hend st')
  · have hcounts := hcall.counts
    rw [hnext] at hcounts
    have hkeeps : Keeps jobId target st st' := by
      by_cases hsame : target = step.id
      · rw [hsame]
        exact hcounts.uncounted (hsame ▸ h.uncounted)
      · exact hcounts.others target hsame (Or.inl h.uncounted)
    exact ⟨hcounts.isRecord, fun hcounted => h.uncounted (hkeeps.counted.1 hcounted),
      by rw [hkeeps.count]; exact h.below⟩

/-- The loop of a step that is not counted has no end. -/
theorem runSteps_loopJob {ids : List String} (htarget : target ∈ ids)
    (hword : ¬ IsControlWord target) (hne : ∀ id ∈ ids, id ≠ "") (hmax : 0 < maxLoops)
    (fuel : Nat) (h : Looping jobId target maxLoops st) (hcurrent : st.currentStepId ∈ ids)
    (hbelow : getLoopCount st.localState jobId st.currentStepId < maxLoops) :
    runSteps loopEnvironment jobId (loopJob jobId ids target maxLoops) fuel st = none := by
  induction fuel generalizing st with
  | zero => rfl
  | succ fuel ih =>
      obtain ⟨st', hnext, hgo⟩ := runSingleStepIteration_loopJob htarget hword (hne target htarget)
        hmax hcurrent hbelow
      rw [runSteps_next (hne _ hcurrent) hnext]
      have h' := h.next hnext
      apply ih h'
      · rw [hgo]
        exact htarget
      · rw [hgo]
        exact h'.below

/-- The initialisation leaves a counter that is not counted. -/
theorem foldl_initializeStep_keeps (ids : List String) (h : ¬ Counted jobId stepId st.localState) :
    Keeps jobId stepId st (ids.foldl (initializeStep jobId) st) := by
  induction ids generalizing st with
  | nil => exact Keeps.refl _ _ _
  | cons id ids ih =>
      have hstatus := keeps_of_not_counted h id "status" (.str "pending")
      have hnot := fun hcounted => h (hstatus.counted.1 hcounted)
      have hcount := keeps_of_not_counted hnot id "loop_count" (.num 0)
      have hfirst : Keeps jobId stepId st (initializeStep jobId st id) := hstatus.trans hcount
      rw [List.foldl_cons]
      exact hfirst.trans (ih fun hcounted => h (hfirst.counted.1 hcounted))

theorem foldl_initializeStep_uncounted (ids : List String)
    (h : ¬ Counted jobId stepId st.localState) :
    ¬ Counted jobId stepId (ids.foldl (initializeStep jobId) st).localState :=
  fun hcounted => h ((foldl_initializeStep_keeps ids h).counted.1 hcounted)

/-- The state of the steps of the ids before the first iteration. -/
def firstState (jobId : String) (ids : List String) (stateVariables : Json) : ExecutionState :=
  ids.foldl (initializeStep jobId)
    { localState := stateVariables, currentStepId := ids.head?.getD "" }

theorem initializeExecutionState_eq (jobId : String) (steps : List IJobStep)
    (stateVariables : Json) : initializeExecutionState jobId steps stateVariables =
      firstState jobId (steps.map IJobStep.id) stateVariables := rfl

/-- The job that goes to a step that is not counted never ends, when its limit is above what the
counters of that step and of the first one hold at first. -/
theorem execute_loopJob {ids : List String} (hids : ValidStepIds ids) {first : String}
    (hfirst : ids.head? = some first) (htarget : target ∈ ids) (hword : ¬ IsControlWord target)
    (h : ¬ Counted jobId target (.obj fields)) (hmax : 0 < maxLoops)
    (hbelow : getLoopCount (firstState jobId ids (.obj fields)).localState jobId first < maxLoops)
    (hbelow' : getLoopCount (firstState jobId ids (.obj fields)).localState jobId target <
      maxLoops) (fuel : Nat) :
    execute loopEnvironment jobId (loopJob jobId ids target maxLoops) (.obj fields) fuel =
      none := by
  obtain ⟨-, hcurrent, hrecord⟩ := foldl_initializeStep jobId ids
    { localState := .obj fields, currentStepId := ids.head?.getD "" }
  have hsteps : (loopJob jobId ids target maxLoops).stepList ≠ [] := by
    simpa [loopJob, IStepsJob.stepList] using hids.nonempty
  have hstart : (firstState jobId ids (.obj fields)).currentStepId = first := by
    rw [firstState, hcurrent, hfirst]
    rfl
  have hlooping : Looping jobId target maxLoops (firstState jobId ids (.obj fields)) :=
    ⟨hrecord ⟨fields, rfl⟩, foldl_initializeStep_uncounted ids h, hbelow'⟩
  rw [execute, if_neg hsteps, initializeExecutionState_eq, map_id_loopJob]
  apply runSteps_loopJob htarget hword hids.ne_empty hmax fuel hlooping
  · rw [hstart]
    exact List.mem_of_mem_head? hfirst
  · rw [hstart]
    exact hbelow

/-- **A step that can be a target and is not counted has an accepted job that never ends.** -/
theorem not_executionsBounded {ids : List String} (hids : ValidStepIds ids)
    (htarget : target ∈ ids) (hword : ¬ IsControlWord target)
    (h : ¬ Counted jobId target (.obj fields)) :
    ∃ job : IStepsJob, job.stepList.map IJobStep.id = ids ∧
      StepValidation.validateExecutionSteps job = [] ∧
      ∀ fuel, execute loopEnvironment jobId job (.obj fields) fuel = none := by
  obtain ⟨first, hfirst⟩ : ∃ first, ids.head? = some first := by
    cases hhead : ids.head? with
    | none => exact absurd (List.head?_eq_none_iff.1 hhead) hids.nonempty
    | some first => exact ⟨first, rfl⟩
  obtain ⟨maxLoops, hmax, hbelow, hbelow'⟩ : ∃ maxLoops : Int, 0 < maxLoops ∧
      getLoopCount (firstState jobId ids (.obj fields)).localState jobId first < maxLoops ∧
      getLoopCount (firstState jobId ids (.obj fields)).localState jobId target < maxLoops := by
    refine ⟨1 + (getLoopCount (firstState jobId ids (.obj fields)).localState jobId first).natAbs +
      (getLoopCount (firstState jobId ids (.obj fields)).localState jobId target).natAbs,
      ?_, ?_, ?_⟩ <;> omega
  exact ⟨loopJob jobId ids target maxLoops, map_id_loopJob _ _ _ _,
    validate_loopJob jobId hids htarget hmax,
    execute_loopJob hids hfirst htarget hword h hmax hbelow hbelow'⟩

/-- **Step executions.** For the ids of the steps of a job and the variables of its run, every
accepted job with these ids executes each step as often as its limit allows at most, and then ends,
just when every id that is no control word is counted. -/
theorem step_executions_bounded_iff (jobId : String) {ids : List String} (hids : ValidStepIds ids)
    (fields : List (String × Json)) :
    (∀ job : IStepsJob, job.stepList.map IJobStep.id = ids →
      StepValidation.validateExecutionSteps job = [] →
      ∀ env : StepEnvironment, ExecutionsBounded env jobId job (.obj fields)) ↔
    StepsCounted jobId ids (.obj fields) := by
  constructor
  · intro h stepId hstep hword
    by_contra hnot
    obtain ⟨job, hjob, hvalid, hnever⟩ := not_executionsBounded hids hstep hword hnot
    obtain ⟨fuel, flow, hflow, -⟩ := h job hjob hvalid loopEnvironment
    rw [hnever fuel] at hflow
    nomatch hflow
  · rintro h job rfl - env
    exact executionsBounded_of_counted env h

theorem step_executions_bounded_build : ValidStepIds ["build", "test"] ∧
    ((∀ job : IStepsJob, job.stepList.map IJobStep.id = ["build", "test"] →
      StepValidation.validateExecutionSteps job = [] →
      ∀ env : StepEnvironment, ExecutionsBounded env "job" job (.obj [])) ↔
    StepsCounted "job" ["build", "test"] (.obj [])) :=
  ⟨⟨by decide, by decide, by decide⟩,
    step_executions_bounded_iff "job" ⟨by decide, by decide, by decide⟩ []⟩

/-- A step with a dot in its id that goes to itself: it is accepted and never ends. -/
theorem dotted_step_never_ends :
    StepValidation.validateExecutionSteps (loopJob "job" ["check.v1"] "check.v1" 3) = [] ∧
    ∀ fuel, execute loopEnvironment "job" (loopJob "job" ["check.v1"] "check.v1" 3) (.obj [])
      fuel = none := by
  have hids : ValidStepIds ["check.v1"] := ⟨by decide, by decide, by decide⟩
  have hmem : "check.v1" ∈ ["check.v1"] := List.mem_cons_self
  have huncounted : ¬ Counted "job" "check.v1" (.obj []) :=
    fun h => h.stepNoDot (by decide)
  exact ⟨validate_loopJob "job" hids hmem (by decide),
    execute_loopJob hids rfl hmem (by decide) huncounted (by decide) (by decide +kernel)
      (by decide +kernel)⟩

end StepExecutionService

end Nexus
