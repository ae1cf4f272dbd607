import Nexus.Workflow.StepLoops
import Mathlib

/-!
# The steps that are visited

A job whose steps name no targets runs through them in the order of the list, as long as no step
after the first has a control word for an id and no counter that is not counted stands at its limit
from the start. A step that throws and has a fallback goes to it unless a transition of the step
holds on the failed output: the transition is followed instead, and the status becomes `completed`
(`steps_visited_iff`).
-/

set_option autoImplicit false

namespace Nexus

namespace StepExecutionService

variable {env : StepEnvironment} {jobId : String} {job : IStepsJob}

/-! ## Accepted jobs -/

/-- The steps of an accepted job have ids, and no two have the same. -/
theorem validStepIds_of_validate (h : StepValidation.validateExecutionSteps job = []) :
    ValidStepIds (job.stepList.map IJobStep.id) := by
  rw [StepValidation.validateExecutionSteps] at h
  split_ifs at h with hsteps
  obtain ⟨hduplicate, hindividual⟩ := List.append_eq_nil_iff.1 h
  have hids : ∀ id ∈ job.stepList.map IJobStep.id, isNonEmptyString id = true := by
    intro id hid
    obtain ⟨step, hstep, rfl⟩ := List.mem_map.1 hid
    have hstep' := List.flatMap_eq_nil_iff.1 hindividual step hstep
    by_contra hempty
    rw [StepValidation.validateIndividualStep, if_pos (Bool.eq_false_iff.2 hempty)] at hstep'
    cases hstep'
  have hstepIds : StepValidation.stepIds job = job.stepList.map IJobStep.id := by
    rw [StepValidation.stepIds, List.filter_eq_self]
    intro id hid
    apply decide_eq_true
    rintro rfl
    have hempty := hids "" hid
    revert hempty
    decide
  refine ⟨by simpa using hsteps, ?_, hids⟩
  rw [List.nodup_iff_count_le_one]
  intro id
  by_cases hid : id ∈ job.stepList.map IJobStep.id
  · have hnone := List.filter_eq_nil_iff.1 (List.map_eq_nil_iff.1 hduplicate) id
      (List.mem_eraseDups.2 (hstepIds ▸ hid))
    rw [hstepIds] at hnone
    simpa using hnone
  · rw [List.count_eq_zero_of_not_mem hid]
    exact Nat.zero_le _

variable {pre rest steps : List IJobStep} {step step' target : IJobStep}

theorem ValidStepIds.step_eq (hids : ValidStepIds (steps.map IJobStep.id)) (hstep : step ∈ steps)
    (hstep' : step' ∈ steps) (h : step.id = step'.id) : step = step' :=
  List.inj_on_of_nodup_map hids.nodup hstep hstep' h

/-- A step of an accepted job is found by its id. -/
theorem ValidStepIds.stepById_eq (hids : ValidStepIds (steps.map IJobStep.id))
    (hstep : step ∈ steps) :
    stepById steps step.id = some step := by
  cases hfound : stepById steps step.id with
  | none =>
      have hnone := List.find?_eq_none.1 hfound step (List.mem_reverse.2 hstep)
      exact absurd (decide_eq_true rfl) hnone
  | some step' =>
      obtain ⟨hmem, hid⟩ := stepById_some hfound
      rw [hids.step_eq hmem hstep hid]

/-- The step after the first ones of an accepted job. -/
theorem nextInOrder_append (hids : ValidStepIds ((pre ++ step :: rest).map IJobStep.id)) :
    nextInOrder step (pre ++ step :: rest) = (rest.head?.map IJobStep.id).getD "done" := by
  have hnodup := hids.nodup
  rw [List.map_append, List.map_cons] at hnodup
  have hpre : ∀ step' ∈ pre, step'.id ≠ step.id := by
    intro step' hstep' heq
    have hdisjoint := List.disjoint_of_nodup_append hnodup
    exact hdisjoint (List.mem_map_of_mem hstep') (heq ▸ List.mem_cons_self)
  have hindex : (pre ++ step :: rest).findIdx? (fun candidate => candidate.id = step.id) =
      some pre.length := by
    rw [List.findIdx?_append, List.findIdx?_eq_none_iff.2 (by simpa using hpre)]
    simp [List.findIdx?_cons]
  rw [nextInOrder, hindex]
  cases rest with
  | nil => simp
  | cons next rest => simp

/-! ## Counters below their limits -/

/-- A value assigned below a path leaves no number there. -/
theorem getNested_setNestedValue_above (value : Json) (key : String) (path : List String)
    (n : Int) :
    ∀ (q : List String) (t : Json), q ≠ [] →
      (setNestedValue (q ++ key :: path) value t).getNested q ≠ some (.num n)
  | [], _, hne => absurd rfl hne
  | [key'], .obj fields, _ => by
      simp only [List.singleton_append, setNestedValue, Json.getNested, OrderedMap.get?_set_self]
      rcases objectOrEmpty_cases (OrderedMap.get? fields key') with ⟨f, hf⟩ | ⟨xs, hxs⟩
      · obtain ⟨f', hf'⟩ := setNestedValue_obj (key :: path) value f
        simp [hf, hf']
      · cases path <;> simp [hxs, setNestedValue]
  | key' :: key₂ :: q, .obj fields, _ => by
      simp only [List.cons_append, setNestedValue, Json.getNested, OrderedMap.get?_set_self]
      exact getNested_setNestedValue_above value key path n (key₂ :: q) _ (by simp)
  | key' :: q, .arr _, _ => by cases q <;> simp [setNestedValue, Json.getNested]
  | key' :: q, .null, _ => by cases q <;> simp [setNestedValue, Json.getNested]
  | key' :: q, .bool _, _ => by cases q <;> simp [setNestedValue, Json.getNested]
  | key' :: q, .num _, _ => by cases q <;> simp [setNestedValue, Json.getNested]
  | key' :: q, .str _, _ => by cases q <;> simp [setNestedValue, Json.getNested]

theorem splitDots_of_noDot {s : String} (h : '.' ∉ s.toList) : splitDots s = [s] := by
  have hsplit : splitDots (dotted [s]) = [s] := splitDots_dotted (by simp) (by simpa using h)
  rwa [show dotted [s] = s by simp [dotted]] at hsplit

theorem eq_of_splitDots_singleton {s t : String} (h : splitDots s = [t]) : s = t := by
  obtain ⟨part, hpart, rfl⟩ := List.map_eq_singleton_iff.1 h
  have hparts := Parts.intercalate_parts '.' s.toList
  rw [hpart] at hparts
  rw [show part = s.toList by simpa using hparts, String.ofList_toList]

variable {field stepId written : String}

/-- The field of a step that is at the counter of another one is that counter. -/
theorem eq_of_splitDots_stepFieldPath (hfield : '.' ∉ field.toList)
    (h : splitDots (stepFieldPath jobId written field) = counterPath jobId stepId) :
    written = stepId ∧ field = "loop_count" := by
  have hnoDot : ∀ s ∈ counterPath jobId stepId, '.' ∉ s.toList := h ▸ dot_notMem_splitDots _
  have hjob : '.' ∉ jobId.toList := hnoDot jobId (by simp [counterPath])
  have hstep : '.' ∉ stepId.toList := hnoDot stepId (by simp [counterPath])
  have hfield' : splitDots (dotted [field]) = [field] := splitDots_dotted (by simp) (by simpa)
  rw [stepFieldPath, splitDots_dotted_cons, splitDots_dotted_cons, splitDots_dotted_cons,
    splitDots_dotted_cons, hfield', splitDots_of_noDot hjob,
    splitDots_of_noDot (s := "jobs") (by decide), splitDots_of_noDot (s := "steps") (by decide),
    counterPath] at h
  simp only [List.cons_append, List.nil_append, List.cons.injEq, true_and] at h
  have hlast : [stepId, "loop_count"] = [stepId] ++ ["loop_count"] := rfl
  rw [hlast] at h
  obtain ⟨hwritten, hcounter⟩ := List.append_inj' h rfl
  exact ⟨eq_of_splitDots_singleton hwritten, by simpa using hcounter⟩

/-- The counter of a step stays or becomes zero when another field is written. -/
theorem getLoopCount_or_zero (jobId : String) (hfield : '.' ∉ field.toList)
    (hother : written ≠ stepId ∨ field ≠ "loop_count") (value state : Json) :
    getLoopCount (setNestedValue (splitDots (stepFieldPath jobId written field)) value state)
        jobId stepId = getLoopCount state jobId stepId ∨
      getLoopCount (setNestedValue (splitDots (stepFieldPath jobId written field)) value state)
        jobId stepId = 0 := by
  have hlength : (counterPath jobId stepId).length ≤
      (splitDots (stepFieldPath jobId written field)).length :=
    length_le_splitDots_dotted ["jobs", jobId, "steps", written, field]
  have hne : splitDots (stepFieldPath jobId written field) ≠ counterPath jobId stepId := by
    intro h
    obtain ⟨hwritten, hcounter⟩ := eq_of_splitDots_stepFieldPath hfield h
    exact hother.elim (absurd hwritten) (absurd hcounter)
  by_cases habove : counterPath jobId stepId <+: splitDots (stepFieldPath jobId written field)
  · -- the write replaces the counter by a record
    right
    obtain ⟨below, hbelow⟩ := habove
    cases below with
    | nil => exact absurd (by simpa using hbelow.symm) hne
    | cons key path =>
        rw [← hbelow, getLoopCount]
        split
        · rename_i n hn
          exact absurd hn (getNested_setNestedValue_above value key path n _ state
            (by simp [counterPath]))
        · rfl
  · left
    have hdiverge : Json.Diverge (splitDots (stepFieldPath jobId written field))
        (counterPath jobId stepId) := by
      refine ⟨fun hprefix => hne ?_, habove⟩
      exact hprefix.eq_of_length (Nat.le_antisymm hprefix.length_le hlength)
    have hread := getNested_setNestedValue_of_diverge value _ _ state hdiverge
    rw [counterPath] at hread
    rw [getLoopCount, hread, getLoopCount]

/-- A step can be executed once more. -/
def BelowLimit (jobId : String) (job : IStepsJob) (step : IJobStep) (st : ExecutionState) : Prop :=
  getLoopCount st.localState jobId step.id < resolveMaxLoops job step

variable {st : ExecutionState}

theorem BelowLimit.setStepField (h : BelowLimit jobId job step st) (hfield : '.' ∉ field.toList)
    (hother : written ≠ step.id ∨ field ≠ "loop_count") (value : Json) :
    BelowLimit jobId job step (setStepField jobId written field value st) := by
  have hpos := resolveMaxLoops_pos job step
  rw [BelowLimit] at h ⊢
  rw [localState_setStepField]
  rcases getLoopCount_or_zero jobId hfield hother value st.localState with hsame | hzero
  · rw [hsame]
    exact h
  · rw [hzero]
    exact hpos

/-! ## Jobs without targets -/

/-- A step with no transitions, condition, needs or fallback. -/
structure Plain (step : IJobStep) : Prop where
  transitions : step.transitions.getD [] = []
  ifCondition : step.ifCondition.getD "" = ""
  needs : step.needs.getD [] = []
  on_error : step.on_error = none

/-- Every execution of a step returns an output that is not marked as failed. -/
def Succeeds (env : StepEnvironment) (steps : List IJobStep) : Prop :=
  ∀ calls, ∀ step ∈ steps, ∃ output,
    env.executeStep calls step = .ok output ∧ isNotOk output = false

theorem Plain.skipStepWhenBlocked (h : Plain step) (env : StepEnvironment) (jobId : String)
    (steps : List IJobStep) (st : ExecutionState) :
    skipStepWhenBlocked env jobId steps step st = .next st := by
  have hneeds : normalizeWorkflowNeeds step.id .step step.needs none = .ok [] := by
    cases hcase : step.needs with
    | none => rfl
    | some needs =>
        have hempty := h.needs
        rw [hcase, Option.getD_some] at hempty
        subst hempty
        rfl
  have hreason : resolveStepSkipReason env st.executed.length step jobId st.localState =
      .ok none := by
    rw [resolveStepSkipReason, hneeds]
    cases hcase : step.ifCondition with
    | none => rfl
    | some condition =>
        have hempty := h.ifCondition
        rw [hcase, Option.getD_some] at hempty
        subst hempty
        rfl
  rw [StepExecutionService.skipStepWhenBlocked, hreason]

/-- The state after a step succeeded. -/
def completeStep (jobId : String) (step : IJobStep) (output : JsonRecord) (st : ExecutionState) :
    ExecutionState :=
  setStepField jobId step.id "status" (.str "completed")
    (recordOutput jobId step output (startExecution step (countStep jobId step
      { st with finalStepId := some step.id })))

/-- An iteration of such a step below its limit goes to the next step of the list. -/
theorem runSingleStepIteration_plain {output : JsonRecord}
    (hfound : stepById job.stepList st.currentStepId = some step) (hplain : Plain step)
    (hbelow : BelowLimit jobId job step st)
    (hexecute : env.executeStep st.executed.length step = .ok output)
    (hok : isNotOk output = false) :
    runSingleStepIteration env jobId job st =
      goTarget (nextInOrder step job.stepList) (completeStep jobId step output st) := by
  have hcount : ensureStepLoopLimit jobId job step { st with finalStepId := some step.id } =
      .next (countStep jobId step { st with finalStepId := some step.id }) :=
    ensureStepLoopLimit_below hbelow
  have hcalls : (countStep jobId step { st with finalStepId := some step.id }).executed.length =
      st.executed.length := by
    simp only [countStep, executed_setStepField]
  simp only [runSingleStepIteration, hfound, hplain.skipStepWhenBlocked, StepFlow.andThen, hcount,
    executeStepWithFailureHandling, hcalls, hexecute]
  simp [handleStepTransition, hplain.transitions, evaluateTransition, hok, resolveStepTarget,
    completeStep, startExecution]

theorem executed_completeStep (step : IJobStep) (output : JsonRecord) (st : ExecutionState) :
    (completeStep jobId step output st).executed = st.executed ++ [step.id] := by
  simp only [completeStep, recordOutput, executed_setStepField, setOutput,
    startExecution, countStep]

theorem BelowLimit.startExecution (h : BelowLimit jobId job step' st) :
    BelowLimit jobId job step' (startExecution step st) := h

theorem BelowLimit.setOutput (h : BelowLimit jobId job step st) (stepId : String)
    (output : JsonRecord) :
    BelowLimit jobId job step (setOutput stepId output st) := h

/-- A step leaves the other ones below their limits. -/
theorem BelowLimit.completeStep (h : BelowLimit jobId job step' st) (hne : step.id ≠ step'.id)
    (output : JsonRecord) :
    BelowLimit jobId job step' (completeStep jobId step output st) := by
  have hstart : BelowLimit jobId job step' { st with finalStepId := some step.id } := h
  rw [StepExecutionService.completeStep, recordOutput, countStep]
  apply BelowLimit.setStepField _ (by decide) (Or.inl hne)
  apply BelowLimit.setStepField _ (by decide) (Or.inl hne)
  apply BelowLimit.setOutput
  apply BelowLimit.startExecution
  apply BelowLimit.setStepField _ (by decide) (Or.inl hne)
  exact hstart.setStepField (by decide) (Or.inl hne) _

/-- An iteration of a step at its place of the list. -/
theorem runSingleStepIteration_in_order (hids : ValidStepIds (job.stepList.map IJobStep.id))
    (hplain : ∀ step ∈ job.stepList, Plain step) (hsucceeds : Succeeds env job.stepList)
    (hsteps : job.stepList = pre ++ step :: rest) (hcurrent : st.currentStepId = step.id)
    (hbelow : BelowLimit jobId job step st) :
    st.currentStepId ≠ "" ∧ ∃ st', runSingleStepIteration env jobId job st =
        goTarget ((rest.head?.map IJobStep.id).getD "done") st' ∧
      st'.executed = st.executed ++ [step.id] ∧
      ∀ step', BelowLimit jobId job step' st → step.id ≠ step'.id →
        BelowLimit jobId job step' st' := by
  have hmem : step ∈ job.stepList := by simp [hsteps]
  obtain ⟨output, hexecute, hok⟩ := hsucceeds st.executed.length step hmem
  have hiteration := runSingleStepIteration_plain (hcurrent ▸ hids.stepById_eq hmem)
    (hplain step hmem) hbelow hexecute hok
  have hnext : nextInOrder step job.stepList = (rest.head?.map IJobStep.id).getD "done" := by
    rw [hsteps] at hids ⊢
    exact nextInOrder_append hids
  rw [hnext] at hiteration
  refine ⟨?_, _, hiteration, executed_completeStep _ _ _,
    fun step' h hne => h.completeStep hne output⟩
  rw [hcurrent]
  exact hids.ne_empty _ (List.mem_map_of_mem hmem)

/-- **From a step on, the steps of the list are executed in order** when none of the later ones is
named by a control word and each is below its limit. -/
theorem runSteps_visits (hids : ValidStepIds (job.stepList.map IJobStep.id))
    (hplain : ∀ step ∈ job.stepList, Plain step) (hsucceeds : Succeeds env job.stepList)
    (hsteps : job.stepList = pre ++ step :: rest) (hcurrent : st.currentStepId = step.id)
    (hexecuted : st.executed = pre.map IJobStep.id)
    (hword : ∀ step' ∈ rest, ¬ IsControlWord step'.id)
    (hbelow : ∀ step' ∈ step :: rest, BelowLimit jobId job step' st) :
    ∃ fuel flow, runSteps env jobId job fuel st = some flow ∧
      flow.state.executed = job.stepList.map IJobStep.id := by
  induction rest generalizing pre step st with
  | nil =>
      obtain ⟨hne, st', hiteration, hexecuted', -⟩ :=
        runSingleStepIteration_in_order hids hplain hsucceeds hsteps hcurrent
          (hbelow step List.mem_cons_self)
      have hdone : runSingleStepIteration env jobId job st =
          .returned st' ⟨.completed, st'.finalStepId, st'.outputs⟩ := hiteration
      refine ⟨1, _, by rw [runSteps, if_neg hne, hdone], ?_⟩
      rw [StepFlow.state, hexecuted', hexecuted, hsteps, List.map_append, List.map_singleton]
  | cons next rest ih =>
      obtain ⟨hne, st', hiteration, hexecuted', hbelow'⟩ :=
        runSingleStepIteration_in_order hids hplain hsucceeds hsteps hcurrent
          (hbelow step List.mem_cons_self)
      have hnot := hword next (by simp)
      rw [IsControlWord, not_or] at hnot
      have hgo : runSingleStepIteration env jobId job st =
          .next { st' with currentStepId := next.id } := by
        rw [hiteration, List.head?_cons, Option.map_some, Option.getD_some, goTarget,
          if_neg hnot.1, if_neg hnot.2]
      have hnodup := hids.nodup
      rw [hsteps, List.map_append, List.map_cons] at hnodup
      have hlater := (List.nodup_cons.1 (List.nodup_append.1 hnodup).2.1).1
      have hsteps' : job.stepList = (pre ++ [step]) ++ next :: rest := by
        rw [hsteps, List.append_assoc, List.singleton_append]
      have hcurrent' : { st' with currentStepId := next.id }.currentStepId = next.id := rfl
      obtain ⟨fuel, flow, hrun, hall⟩ := ih hsteps' hcurrent'
        (by rw [hexecuted', hexecuted, List.map_append, List.map_singleton])
        (fun step' hstep' => hword step' (List.mem_cons_of_mem _ hstep'))
        (fun step' hstep' => hbelow' step' (hbelow step' (List.mem_cons_of_mem _ hstep'))
          fun heq => hlater (heq ▸ List.mem_map_of_mem hstep'))
      exact ⟨fuel + 1, flow, (runSteps_next hne hgo fuel).trans hrun, hall⟩

/-- What a run has executed: the current step and then steps whose ids are no control words, and a
step that is not counted only when it is below its limit. -/
theorem runSteps_executed (hids : ValidStepIds (job.stepList.map IJobStep.id)) {fuel : Nat}
    {flow : StepFlow} (hrecord : IsRecord st) (h : runSteps env jobId job fuel st = some flow) :
    ∃ ids, flow.state.executed = st.executed ++ ids ∧
      (ids = [] ∨ ∃ later, ids = st.currentStepId :: later ∧ ∀ id ∈ later, ¬ IsControlWord id) ∧
      ∀ step ∈ job.stepList, step.id ∈ ids → ¬ Counted jobId step.id st.localState →
        BelowLimit jobId job step st := by
  induction fuel generalizing st with
  | zero => nomatch h
  | succ fuel ih =>
      by_cases hcurrent : st.currentStepId = ""
      · rw [runSteps, if_pos hcurrent] at h
        obtain rfl := Option.some.inj h
        exact ⟨[], by simp [StepFlow.state], Or.inl rfl, by simp⟩
      rcases runSingleStepIteration_cases env jobId job hrecord with ⟨hsame, hend⟩ | ⟨step, hcall⟩
      · rw [runSteps_ended hcurrent hend] at h
        obtain rfl := Option.some.inj h
        exact ⟨[], by rw [hsame, List.append_nil], Or.inl rfl, by simp⟩
      have hstep := stepById_some hcall.found
      have hown : ∀ step' ∈ job.stepList, step'.id = step.id → BelowLimit jobId job step' st := by
        intro step' hstep' hid
        rw [hids.step_eq hstep' hstep.1 hid]
        exact hcall.below
      by_cases hnext : ∃ st', runSingleStepIteration env jobId job st = .next st'
      · obtain ⟨st', hnext⟩ := hnext
        have hexecuted := hcall.executed
        have hcounts := hcall.counts
        have hword := hcall.next st' hnext
        rw [hnext] at hexecuted hcounts
        rw [runSteps_next hcurrent hnext] at h
        obtain ⟨ids, hids', hlater, hbelow⟩ := ih hcounts.isRecord h
        refine ⟨step.id :: ids, ?_, Or.inr ⟨ids, by rw [hstep.2], ?_⟩, ?_⟩
        · rw [hids', ← List.singleton_append, ← List.append_assoc]
          exact congrArg (· ++ ids) hexecuted
        · rcases hlater with rfl | ⟨later, rfl, hlater⟩
          · simp
          · exact List.forall_mem_cons.2 ⟨hword, hlater⟩
        · intro step' hstep' hmem hnot
          by_cases hsame : step'.id = step.id
          · exact hown step' hstep' hsame
          · have hkeeps := hcounts.others step'.id hsame (Or.inl hnot)
            have hbelow' := hbelow step' hstep' ((List.mem_cons.1 hmem).resolve_left hsame)
              fun hcounted => hnot (hkeeps.counted.1 hcounted)
            rw [BelowLimit] at hbelow' ⊢
            rwa [hkeeps.count] at hbelow'
      · rw [runSteps_ended hcurrent fun st' heq => hnext ⟨st', heq⟩] at h
        obtain rfl := Option.some.inj h
        refine ⟨[step.id], hcall.executed, Or.inr ⟨[], by rw [hstep.2], by simp⟩, ?_⟩
        intro step' hstep' hmem _
        exact hown step' hstep' (List.mem_singleton.1 hmem)

/-! ## The first state -/

/-- With an array on the way there is no counter. -/
theorem getLoopCount_of_array {state : Json} (hjob : '.' ∉ jobId.toList)
    (hstep : '.' ∉ stepId.toList) (h : ¬ Counted jobId stepId state) :
    getLoopCount state jobId stepId = 0 := by
  have hread := getNested_of_not_assignable (counterPath jobId stepId) state
    fun hassignable => h ⟨hjob, hstep, hassignable⟩
  rw [counterPath] at hread
  rw [getLoopCount, hread]

/-- The own initialisation of a step without a dot sets its count to zero. -/
theorem initializeStep_zero (hrecord : IsRecord st) (hjob : '.' ∉ jobId.toList)
    (hstep : '.' ∉ stepId.toList) :
    getLoopCount (initializeStep jobId st stepId).localState jobId stepId = 0 := by
  have hrecord' := (quiet_status jobId stepId "pending" st).isRecord hrecord
  rw [initializeStep]
  by_cases hcounted : Counted jobId stepId
      (setStepField jobId stepId "status" (.str "pending") st).localState
  · exact (getLoopCount_setStepField hrecord' hcounted 0).1
  · have hkeeps := keeps_of_not_counted hcounted stepId "loop_count" (.num 0)
    rw [hkeeps.count, getLoopCount_of_array hjob hstep hcounted]

theorem initializeStep_or_zero (hne : written ≠ stepId) (st : ExecutionState) :
    getLoopCount (initializeStep jobId st written).localState jobId stepId =
        getLoopCount st.localState jobId stepId ∨
      getLoopCount (initializeStep jobId st written).localState jobId stepId = 0 := by
  have hfield : '.' ∉ "status".toList ∧ '.' ∉ "loop_count".toList := by decide
  have hstatus := getLoopCount_or_zero jobId hfield.1 (Or.inl hne) (.str "pending") st.localState
  have hcount := getLoopCount_or_zero jobId hfield.2 (Or.inl hne) (.num 0)
    (setStepField jobId written "status" (.str "pending") st).localState
  rw [initializeStep, localState_setStepField]
  rw [localState_setStepField] at hcount ⊢
  omega

theorem foldl_initializeStep_zero (hjob : '.' ∉ jobId.toList) (hstep : '.' ∉ stepId.toList)
    (ids : List String) (hrecord : IsRecord st)
    (h : stepId ∈ ids ∨ getLoopCount st.localState jobId stepId = 0) :
    getLoopCount (ids.foldl (initializeStep jobId) st).localState jobId stepId = 0 := by
  induction ids generalizing st with
  | nil => exact h.resolve_left List.not_mem_nil
  | cons id ids ih =>
      rw [List.foldl_cons]
      apply ih (isRecord_initializeStep hrecord)
      by_cases hsame : id = stepId
      · subst hsame
        exact Or.inr (initializeStep_zero hrecord hjob hstep)
      · rcases h with hmem | hzero
        · exact Or.inl ((List.mem_cons.1 hmem).resolve_left (Ne.symm hsame))
        · right
          rcases initializeStep_or_zero hsame st with hkept | hset
          · rw [hkept, hzero]
          · exact hset

/-- Every step is executed exactly once, in the order of the list, and the execution ends. -/
def StepsVisited (env : StepEnvironment) (jobId : String) (job : IStepsJob)
    (stateVariables : Json) : Prop :=
  ∃ fuel flow, execute env jobId job stateVariables fuel = some flow ∧
    flow.state.executed = job.stepList.map IJobStep.id

/-- No step after the first is named by a control word, and where a dot is in the ids the variables
of the run hold no count at the limit. -/
structure Visitable (jobId : String) (job : IStepsJob) (stateVariables : Json) : Prop where
  words : ∀ step ∈ job.stepList.tail, ¬ IsControlWord step.id
  limits : ∀ step ∈ job.stepList, '.' ∈ jobId.toList ∨ '.' ∈ step.id.toList →
    getLoopCount stateVariables jobId step.id < resolveMaxLoops job step

/-- **A job without targets executes each of its steps once, in order,** just when its steps can be
visited. -/
theorem stepsVisited_iff (hids : ValidStepIds (job.stepList.map IJobStep.id))
    (hplain : ∀ step ∈ job.stepList, Plain step) (hsucceeds : Succeeds env job.stepList)
    (jobId : String) (fields : List (String × Json)) :
    StepsVisited env jobId job (.obj fields) ↔ Visitable jobId job (.obj fields) := by
  obtain ⟨hexecuted, hcurrent, hrecord⟩ := initializeExecutionState_spec jobId job.stepList fields
  have hsteps : job.stepList ≠ [] := by simpa using hids.nonempty
  have huncounted : ∀ step : IJobStep, '.' ∈ jobId.toList ∨ '.' ∈ step.id.toList →
      ∀ state, ¬ Counted jobId step.id state := by
    rintro step (hdot | hdot) state hcounted
    · exact hcounted.jobNoDot hdot
    · exact hcounted.stepNoDot hdot
  -- the counter of a step with a dot is what the run held
  have hdotted : ∀ step : IJobStep, '.' ∈ jobId.toList ∨ '.' ∈ step.id.toList →
      (BelowLimit jobId job step (initializeExecutionState jobId job.stepList (.obj fields)) ↔
        getLoopCount (.obj fields) jobId step.id < resolveMaxLoops job step) := by
    intro step hdot
    rw [BelowLimit, initializeExecutionState,
      (foldl_initializeStep_keeps _ (huncounted step hdot _)).count]
  obtain ⟨first, later, hlist⟩ := List.exists_cons_of_ne_nil hsteps
  constructor
  · rintro ⟨fuel, flow, hflow, hall⟩
    rw [execute, if_neg hsteps] at hflow
    obtain ⟨ids, hrest, hlater, hbelow⟩ := runSteps_executed hids hrecord hflow
    rw [hexecuted, List.nil_append, hall] at hrest
    refine ⟨?_, ?_⟩
    · intro step hstep
      rcases hlater with hnil | ⟨later', hcons, hwords⟩
      · exact absurd (hrest.trans hnil) hids.nonempty
      · apply hwords
        rw [hcons, hlist, List.map_cons, List.cons.injEq] at hrest
        rw [← hrest.2]
        rw [hlist] at hstep
        exact List.mem_map_of_mem hstep
    · intro step hstep hdot
      rw [← hdotted step hdot]
      exact hbelow step hstep (hrest ▸ List.mem_map_of_mem hstep) (huncounted step hdot _)
  · intro h
    have hbelow : ∀ step ∈ job.stepList, BelowLimit jobId job step
        (initializeExecutionState jobId job.stepList (.obj fields)) := by
      intro step hstep
      by_cases hdot : '.' ∈ jobId.toList ∨ '.' ∈ step.id.toList
      · exact (hdotted step hdot).2 (h.limits step hstep hdot)
      · rw [not_or] at hdot
        rw [BelowLimit, initializeExecutionState, foldl_initializeStep_zero hdot.1 hdot.2 _
          ⟨fields, rfl⟩ (Or.inl (List.mem_map_of_mem hstep))]
        exact resolveMaxLoops_pos job step
    have hstart : (initializeExecutionState jobId job.stepList (.obj fields)).currentStepId =
        first.id := by
      rw [hcurrent, hlist]
      rfl
    have hwords := h.words
    rw [hlist] at hwords
    have hbelow' : ∀ step ∈ first :: later, BelowLimit jobId job step
        (initializeExecutionState jobId job.stepList (.obj fields)) := by
      intro step hstep
      rw [← hlist] at hstep
      exact hbelow step hstep
    have hlist' : job.stepList = [] ++ first :: later := hlist
    obtain ⟨fuel, flow, hflow, hall⟩ :=
      runSteps_visits hids hplain hsucceeds hlist' hstart hexecuted hwords hbelow'
    exact ⟨fuel, flow, by rw [execute, if_neg hsteps, hflow], hall⟩

/-! ## Steps that throw -/

/-- The status of a step that was written last. -/
def recordedStatus (jobId stepId : String) (st : ExecutionState) : Option Json :=
  (st.written.reverse.find? fun e => e.1 = stepFieldPath jobId stepId "status").map Prod.snd

@[simp] theorem recordedStatus_setStepField (stepId : String) (value : Json)
    (st : ExecutionState) :
    recordedStatus jobId stepId (setStepField jobId stepId "status" value st) = some value := by
  simp only [recordedStatus, setStepField, List.reverse_append, List.reverse_cons,
    List.reverse_nil, List.nil_append, List.singleton_append, List.find?_cons, decide_true,
    Option.map_some]

/-- The `on_error` of a step names a step: the next one of the list, or the one it goes to. -/
inductive NamesFallback (steps : List IJobStep) (step target : IJobStep) : Prop where
  | next (pre rest : List IJobStep) (onError : step.on_error = some "continue")
      (listed : steps = pre ++ step :: target :: rest)
  | goto (onError : step.on_error = some ("goto:" ++ target.id)) (listed : target ∈ steps)

/-- A fallback is resolved to the step that it names. -/
theorem NamesFallback.resolve (hids : ValidStepIds (steps.map IJobStep.id))
    (h : NamesFallback steps step target) :
    resolveOnErrorTarget step steps = .ok (some target.id) := by
  cases h with
  | next pre rest onError listed =>
      rw [listed] at hids ⊢
      have hnext := nextInOrder_append hids
      simp only [resolveOnErrorTarget, onError, Option.getD_some, if_true, hnext,
        if_neg (show "continue" ≠ "fail" by decide), List.head?_cons, Option.map_some]
  | goto onError listed =>
      have hgoto : ∀ word : String, word.toList.head? ≠ some 'g' → "goto:" ++ target.id ≠ word := by
        rintro word hword rfl
        apply hword
        rw [String.toList_append]
        rfl
      have hmem : ∃ candidate ∈ steps, candidate.id = target.id := ⟨target, listed, rfl⟩
      simp only [resolveOnErrorTarget, onError, Option.getD_some,
        if_neg (hgoto "fail" (by decide)), if_neg (hgoto "continue" (by decide)),
        gotoTarget_goto, if_pos hmem]

theorem NamesFallback.ne_empty (hids : ValidStepIds (steps.map IJobStep.id))
    (h : NamesFallback steps step target) :
    target.id ≠ "" := by
  have hmem : target ∈ steps := by
    cases h with
    | next pre rest onError listed => simp [listed]
    | goto onError listed => exact listed
  exact hids.ne_empty _ (List.mem_map_of_mem hmem)

/-- The step is executed in the iteration from a state, and its execution throws. -/
structure Throws (env : StepEnvironment) (jobId : String) (job : IStepsJob) (st : ExecutionState)
    (step : IJobStep) (message : String) : Prop where
  found : stepById job.stepList st.currentStepId = some step
  executed : (runSingleStepIteration env jobId job st).state.executed = st.executed ++ [step.id]
  error : env.executeStep st.executed.length step = .error message

/-- The state in which the transitions of a step that threw are evaluated. -/
def thrownState (env : StepEnvironment) (jobId : String) (job : IStepsJob) (step : IJobStep)
    (message : String) (st : ExecutionState) : ExecutionState :=
  recordFailure jobId step message (startExecution step (countStep jobId step
    (skipStepWhenBlocked env jobId job.stepList step
      { st with finalStepId := some step.id }).state))

/-- The next step is the fallback, and the status of the step is still `failed` when it starts. -/
def FallsBack (env : StepEnvironment) (jobId : String) (job : IStepsJob) (st : ExecutionState)
    (step target : IJobStep) : Prop :=
  ∃ st', runSingleStepIteration env jobId job st = .next st' ∧ st'.currentStepId = target.id ∧
    recordedStatus jobId step.id st' = some (.str "failed")

/-- No transition of a step that threw holds on the failed output, and none throws. -/
def NoTransition (env : StepEnvironment) (jobId : String) (job : IStepsJob) (st : ExecutionState)
    (step : IJobStep) (message : String) : Prop :=
  evaluateTransition env (st.executed.length + 1)
    (buildTransitionContext (thrownState env jobId job step message st).localState jobId) 0
    (step.transitions.getD []) = .ok none

theorem executed_thrownState (env : StepEnvironment) (jobId : String) (job : IStepsJob)
    (step : IJobStep) (message : String) (st : ExecutionState) :
    (thrownState env jobId job step message st).executed = st.executed ++ [step.id] := by
  have hskip := (quiet_skipStepWhenBlocked env jobId job.stepList step
    { st with finalStepId := some step.id }).executed
  simp only [thrownState, recordFailure, recordOutput, executed_setStepField, setOutput,
    startExecution, countStep, hskip]

/-- An iteration in which a step throws goes to the fallback, and from there to the transitions. -/
theorem Throws.iteration {message : String} (hids : ValidStepIds (job.stepList.map IJobStep.id))
    (h : Throws env jobId job st step message)
    (hfallback : NamesFallback job.stepList step target) :
    runSingleStepIteration env jobId job st =
      (goTarget target.id (thrownState env jobId job step message st)).andThen
        (handleStepTransition env jobId job.stepList step (buildFailedOutput message)) := by
  have hskip := quiet_skipStepWhenBlocked env jobId job.stepList step
    { st with finalStepId := some step.id }
  have hexecuted := h.executed
  -- the iteration has executed the step, so neither the skip nor the limit ended it
  have hlonger : ∀ st' : ExecutionState, st'.executed = st.executed →
      st'.executed ≠ st.executed ++ [step.id] := by
    intro st' hsame heq
    rw [hsame] at heq
    simpa using congrArg List.length heq
  cases hflow : skipStepWhenBlocked env jobId job.stepList step
      { st with finalStepId := some step.id } with
  | returned st₁ result =>
      rw [hflow] at hskip
      simp only [runSingleStepIteration, h.found, hflow, StepFlow.andThen] at hexecuted
      exact absurd hexecuted (hlonger _ hskip.executed)
  | threw st₁ text =>
      rw [hflow] at hskip
      simp only [runSingleStepIteration, h.found, hflow, StepFlow.andThen] at hexecuted
      exact absurd hexecuted (hlonger _ hskip.executed)
  | next st₁ =>
      rw [hflow] at hskip
      rcases ensureStepLoopLimit_cases jobId job step st₁ with ⟨text, hlimit⟩ | ⟨-, hlimit⟩
      · simp only [runSingleStepIteration, h.found, hflow, StepFlow.andThen, hlimit, StepFlow.state,
          executed_setStepField] at hexecuted
        exact absurd hexecuted (hlonger _ hskip.executed)
      · have hcalls : env.executeStep (countStep jobId step st₁).executed.length step =
            .error message := by
          rw [countStep, executed_setStepField, executed_setStepField]
          rw [show st₁.executed = st.executed from hskip.executed]
          exact h.error
        have hthrown : thrownState env jobId job step message st =
            recordFailure jobId step message (startExecution step (countStep jobId step st₁)) := by
          rw [thrownState, hflow, StepFlow.state]
        simp only [runSingleStepIteration, h.found, hflow, StepFlow.andThen, hlimit,
          executeStepWithFailureHandling, hcalls, hfallback.resolve hids,
          if_neg (hfallback.ne_empty hids), hthrown, startExecution]

@[simp] theorem recordedStatus_currentStepId (jobId stepId current : String)
    (st : ExecutionState) :
    recordedStatus jobId stepId { st with currentStepId := current } =
      recordedStatus jobId stepId st := rfl

/-- A transition that is followed ends the job or leaves the step `completed`. -/
theorem handleStepTransition_some {output : JsonRecord} (st : ExecutionState)
    {st' : ExecutionState} {target : String}
    (heval : evaluateTransition env st.executed.length (buildTransitionContext st.localState
      jobId) 0 (step.transitions.getD []) = .ok (some target))
    (h : handleStepTransition env jobId steps step output st = .next st') :
    recordedStatus jobId step.id st' = some (.str "completed") := by
  rw [handleStepTransition, heval] at h
  dsimp only at h
  rw [if_neg (fun hboth => absurd hboth.2 (by simp))] at h
  split at h
  · cases h
  · obtain ⟨-, rfl⟩ := goTarget_next h
    rw [recordedStatus_currentStepId, recordedStatus_setStepField]

/-- **A step that throws falls back** just when its fallback is not named by a control word and no
transition of the step holds. -/
theorem fallsBack_iff {message : String} (hids : ValidStepIds (job.stepList.map IJobStep.id))
    (h : Throws env jobId job st step message)
    (hfallback : NamesFallback job.stepList step target) :
    FallsBack env jobId job st step target ↔
      ¬ IsControlWord target.id ∧ NoTransition env jobId job st step message := by
  have hiteration := h.iteration hids hfallback
  by_cases hword : IsControlWord target.id
  · have hends : ∀ st', goTarget target.id (thrownState env jobId job step message st) ≠
        .next st' := fun st' hnext => (goTarget_next hnext).1 hword
    refine iff_of_false ?_ fun hright => hright.1 hword
    rintro ⟨st', hnext, -⟩
    rw [hiteration] at hnext
    cases hgo : goTarget target.id (thrownState env jobId job step message st) with
    | next st₁ => exact hends st₁ hgo
    | returned st₁ result =>
        rw [hgo] at hnext
        cases hnext
    | threw st₁ text =>
        rw [hgo] at hnext
        cases hnext
  · have hwords := hword
    rw [IsControlWord, not_or] at hwords
    obtain ⟨thrown, hthrown⟩ : ∃ thrown, thrown = thrownState env jobId job step message st :=
      ⟨_, rfl⟩
    have hlength : thrown.executed.length = st.executed.length + 1 := by
      rw [hthrown, executed_thrownState, List.length_append, List.length_singleton]
    have hgo : runSingleStepIteration env jobId job st =
        handleStepTransition env jobId job.stepList step (buildFailedOutput message)
          { thrown with currentStepId := target.id } := by
      rw [hiteration, hthrown, goTarget, if_neg hwords.1, if_neg hwords.2, StepFlow.andThen]
    have hnotOk : isNotOk (buildFailedOutput message) = true := rfl
    rw [NoTransition, ← hthrown, ← hlength]
    constructor
    · rintro ⟨st', hnext, -, hstatus⟩
      refine ⟨hword, ?_⟩
      rw [hgo] at hnext
      cases heval : evaluateTransition env thrown.executed.length
          (buildTransitionContext thrown.localState jobId) 0 (step.transitions.getD []) with
      | error text =>
          simp only [handleStepTransition, heval] at hnext
          cases hnext
      | ok next =>
          cases next with
          | none => rfl
          | some next =>
              have hcompleted := handleStepTransition_some
                { thrown with currentStepId := target.id } heval hnext
              rw [hcompleted] at hstatus
              exact absurd hstatus (by simp)
    · rintro ⟨-, hnone⟩
      have hnext : runSingleStepIteration env jobId job st =
          .next { setStepField jobId step.id "status" (.str "failed")
              { thrown with currentStepId := target.id } with currentStepId := target.id } := by
        simp only [hgo, handleStepTransition, hnone, hnotOk, and_self, if_true,
          hfallback.resolve hids, if_neg (hfallback.ne_empty hids), goTarget, if_neg hwords.1,
          if_neg hwords.2]
      refine ⟨_, hnext, rfl, ?_⟩
      rw [recordedStatus_currentStepId, recordedStatus_setStepField]

/-- **Visits of the steps.** An accepted job without targets whose steps succeed executes every step
once, in order, just when its steps can be visited; and a step that throws falls back just when its
fallback is not named by a control word and no transition of the step holds. -/
theorem steps_visited_iff (env : StepEnvironment) (jobId : String) {job : IStepsJob}
    (hvalid : StepValidation.validateExecutionSteps job = []) (fields : List (String × Json)) :
    ((∀ step ∈ job.stepList, Plain step) → Succeeds env job.stepList →
      (StepsVisited env jobId job (.obj fields) ↔ Visitable jobId job (.obj fields))) ∧
    ∀ (st : ExecutionState) (step target : IJobStep) (message : String),
      Throws env jobId job st step message → NamesFallback job.stepList step target →
      (FallsBack env jobId job st step target ↔
        ¬ IsControlWord target.id ∧ NoTransition env jobId job st step message) :=
  have hids := validStepIds_of_validate hvalid
  ⟨fun hplain hsucceeds => stepsVisited_iff hids hplain hsucceeds jobId fields,
    fun _ _ _ _ hthrows hfallback => fallsBack_iff hids hthrows hfallback⟩

/-- A step that asks an agent. -/
def agentStep (id : String) : IJobStep where
  id := id
  prompt := some "work"

/-- Steps in order, of which the second is named by a control word. -/
def doneJob : IStepsJob where
  id := "job"
  steps := some [agentStep "build", agentStep "done", agentStep "deploy"]

/-- A step that goes on when it fails, with a transition on its failed output. -/
def fallbackStep : IJobStep :=
  { agentStep "build" with
    on_error := some "continue"
    transitions := some [⟨"steps.build.output.ok == false", "report"⟩] }

def fallbackJob : IStepsJob where
  id := "job"
  steps := some [fallbackStep, agentStep "test", agentStep "report"]

/-- Every step throws, and every condition holds. -/
def throwingEnvironment : StepEnvironment :=
  { loopEnvironment with executeStep := fun _ _ => .error "boom" }

theorem validate_doneJob : StepValidation.validateExecutionSteps doneJob = [] := by
  decide +kernel

theorem validate_fallbackJob : StepValidation.validateExecutionSteps fallbackJob = [] := by
  decide +kernel

theorem plain_doneJob : ∀ step ∈ doneJob.stepList, Plain step := by
  intro step hstep
  have hcases : step = agentStep "build" ∨ step = agentStep "done" ∨ step = agentStep "deploy" := by
    simpa [doneJob, IStepsJob.stepList] using hstep
  rcases hcases with rfl | rfl | rfl <;> exact ⟨rfl, rfl, rfl, rfl⟩

theorem succeeds_loopEnvironment (steps : List IJobStep) : Succeeds loopEnvironment steps :=
  fun _ _ _ => ⟨[], rfl, rfl⟩

theorem namesFallback_fallbackStep :
    NamesFallback fallbackJob.stepList fallbackStep (agentStep "test") :=
  .next [] [agentStep "report"] rfl rfl

theorem steps_visited_done : (StepValidation.validateExecutionSteps doneJob = [] ∧
      (∀ step ∈ doneJob.stepList, Plain step) ∧ Succeeds loopEnvironment doneJob.stepList ∧
      Throws throwingEnvironment "job" fallbackJob
        (initializeExecutionState "job" fallbackJob.stepList (.obj [])) fallbackStep "boom" ∧
      NamesFallback fallbackJob.stepList fallbackStep (agentStep "test")) ∧
    (StepsVisited loopEnvironment "job" doneJob (.obj []) ↔ Visitable "job" doneJob (.obj [])) ∧
    (FallsBack throwingEnvironment "job" fallbackJob
        (initializeExecutionState "job" fallbackJob.stepList (.obj [])) fallbackStep
        (agentStep "test") ↔
      ¬ IsControlWord "test" ∧ NoTransition throwingEnvironment "job" fallbackJob
        (initializeExecutionState "job" fallbackJob.stepList (.obj [])) fallbackStep "boom") := by
  have hthrows : Throws throwingEnvironment "job" fallbackJob
      (initializeExecutionState "job" fallbackJob.stepList (.obj [])) fallbackStep "boom" := by
    have hcurrent := (initializeExecutionState_spec "job" fallbackJob.stepList []).2.1
    refine ⟨?_, by decide +kernel, rfl⟩
    rw [hcurrent]
    exact (validStepIds_of_validate validate_fallbackJob).stepById_eq List.mem_cons_self
  exact ⟨⟨validate_doneJob, plain_doneJob, succeeds_loopEnvironment _, hthrows,
      namesFallback_fallbackStep⟩,
    (steps_visited_iff loopEnvironment "job" validate_doneJob []).1 plain_doneJob
      (succeeds_loopEnvironment _),
    (steps_visited_iff throwingEnvironment "job" validate_fallbackJob []).2 _ _ _ _ hthrows
      namesFallback_fallbackStep⟩

/-- The step `done` ends the job when it is the next one: it and the steps after it are never
executed. And a step that throws goes to the target of its transition instead of its fallback. -/
theorem done_step_never_executed :
    (StepValidation.validateExecutionSteps doneJob = [] ∧
      (∀ step ∈ doneJob.stepList, Plain step) ∧ Succeeds loopEnvironment doneJob.stepList ∧
      (execute loopEnvironment "job" doneJob (.obj []) 2).map (fun flow => flow.state.executed) =
        some ["build"] ∧
      ¬ StepsVisited loopEnvironment "job" doneJob (.obj [])) ∧
    StepValidation.validateExecutionSteps fallbackJob = [] ∧
      NamesFallback fallbackJob.stepList fallbackStep (agentStep "test") ∧
      throwingEnvironment.executeStep 0 fallbackStep = .error "boom" ∧
      (runSingleStepIteration throwingEnvironment "job" fallbackJob
        (initializeExecutionState "job" fallbackJob.stepList (.obj []))).state.currentStepId =
          "report" ∧
      ¬ FallsBack throwingEnvironment "job" fallbackJob
        (initializeExecutionState "job" fallbackJob.stepList (.obj [])) fallbackStep
        (agentStep "test") := by
  have hgoes : (runSingleStepIteration throwingEnvironment "job" fallbackJob
      (initializeExecutionState "job" fallbackJob.stepList (.obj []))).state.currentStepId =
        "report" := by decide +kernel
  refine ⟨⟨validate_doneJob, plain_doneJob, succeeds_loopEnvironment _, by decide +kernel, ?_⟩,
    validate_fallbackJob, namesFallback_fallbackStep, rfl, hgoes, ?_⟩
  · rw [stepsVisited_iff (validStepIds_of_validate validate_doneJob) plain_doneJob
      (succeeds_loopEnvironment _)]
    intro hvisitable
    exact hvisitable.words (agentStep "done") List.mem_cons_self (Or.inl rfl)
  · rintro ⟨st', hnext, hcurrent, -⟩
    rw [hnext] at hgoes
    have hsame : (agentStep "test").id = "report" := hcurrent.symm.trans hgoes
    exact absurd hsame (by decide)

end StepExecutionService

end Nexus
