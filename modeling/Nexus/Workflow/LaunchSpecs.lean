import Nexus.Workflow.CompletionRuns

/-!
# The contract of a launch

What a run that was created and started shows: a fresh record, with the initial jobs queued, or the
end of a run without initial jobs.
-/

set_option autoImplicit false

namespace Nexus

/-- `enqueueJobs`. -/
def RunView.queueJobs (v : RunView) (r : RunId) (definition : IWorkflowDefinition)
    (ids : List String) : RunView :=
  ids.foldl (fun v id =>
    match definition.findJob id with
    | none => v
    | some job => v.queueJob r job) v

/-- The view of a new run. -/
def RunView.created (w : World) (data : NewRun) : RunView where
  workflow_id := data.workflow_id
  status := data.status
  awaiting_input := false
  wait_reason := none
  read := readKey data.state_variables
  entry := hasEntry data.state_variables
  stepQueue := w.stepQueue
  added := w.added

/-- The view of a launched run: its initial jobs are queued, or it has ended without any. -/
def RunView.launch (v : RunView) (r : RunId) (definition : IWorkflowDefinition)
    (initialJobs : List String) : RunView :=
  match initialJobs with
  | [] => v.finish
  | first :: rest => v.queueJobs r definition (first :: rest)

section Launch

variable {w : World} {r : RunId} {v : RunView} {env : Env} {definition : IWorkflowDefinition}
  {E : EngineError → World → Prop}

theorem enqueueJobs_spec (hp : PlainIds definition) :
    ∀ {ids : List String} {w : World} {v : RunView}, Shows w r v →
      RunsTo anyJob (enqueueJobs r definition ids) w
        (fun _ w' => Shows w' r (v.queueJobs r definition ids)) E
  | [], _, _, h => runsTo_pure h
  | id :: ids, w, v, h => by
      cases hfind : definition.findJob id with
      | none =>
          have hnone : RunsTo anyJob (enqueueJob r definition id) w
              (fun _ w' => Shows w' r v) E := by
            unfold enqueueJob
            rw [hfind]
            exact runsTo_pure h
          refine hnone.bind fun _ w' h' => ?_
          have hrest : RunsTo anyJob (enqueueJobs r definition ids) w' _ E :=
            enqueueJobs_spec hp h'
          simpa only [RunView.queueJobs, List.foldl_cons, hfind] using hrest
      | some job =>
          obtain ⟨hj, rfl⟩ := IWorkflowDefinition.findJob_some hfind
          refine (enqueueJob_spec h hfind (hp job hj) fun _ _ _ _ => trivial).bind fun _ w' h' => ?_
          have hrest : RunsTo anyJob (enqueueJobs r definition ids) w' _ E :=
            enqueueJobs_spec hp h'
          simpa only [RunView.queueJobs, List.foldl_cons, hfind] using hrest

/-- A new row. -/
theorem shows_create (hkeys : w.KeysDistinct) (hids : w.FreshIds) {data : NewRun}
    (hwf : WellFormed data.state_variables) :
    Shows ((Op.create data).exec w).1 w.nextId (.created w data) := by
  have hnew : w.findRun w.nextId = none := by
    rw [World.findRun, List.find?_eq_none]
    intro run hrun
    rw [decide_eq_true_eq]
    exact Nat.ne_of_lt (hids run hrun)
  refine ⟨⟨w.newRow data, ?_, ?_⟩, ?_, rfl, rfl⟩
  · simp only [Op.exec, World.createRun, World.findRun, List.find?_append]
    rw [World.findRun] at hnew
    rw [hnew]
    simp only [Option.none_or, World.newRow, List.find?_cons_of_pos, decide_true]
  · exact ⟨rfl, rfl, rfl, rfl, hwf, fun _ _ => rfl, fun _ => rfl⟩
  · have hnot : w.nextId ∉ w.runs.map WorkflowRun.id := by
      intro hmem
      obtain ⟨run, hrun, hid⟩ := List.mem_map.1 hmem
      exact Nat.ne_of_lt (hids run hrun) hid
    simp only [World.KeysDistinct, Op.exec, World.createRun, List.map_append, List.map_cons,
      List.map_nil]
    exact List.nodup_append.2 ⟨hkeys, by simp, by simpa [World.newRow] using hnot⟩

theorem startInitialJobs_spec (hp : PlainIds definition) {groups : List (List String)}
    (hgroups : parallelGroups definition.jobList = .ok groups) (h : Shows w r v)
    (workflowId : String) (stateVariables : Json) :
    RunsTo anyJob (startInitialJobs definition r workflowId stateVariables) w
      (fun _ w' => Shows w' r (v.launch r definition
        (resolveInitialDagJobs definition.jobList (groups.headD [])))) E := by
  refine (orBadRequest_spec hgroups).bind ?_
  rintro groups w' ⟨rfl, rfl⟩
  cases resolveInitialDagJobs definition.jobList (groups.headD []) with
  | nil =>
      have hend : RunsTo anyJob (updateRunStatus r .completed) w'
          (fun _ w₁ => Shows w₁ r v.finish) E := by
        refine findById_spec.bind ?_
        rintro a w' ⟨rfl, rfl⟩
        obtain ⟨run, hrun, -⟩ := h.row
        simp only [hrun]
        refine (newDate_spec h).bind fun now w₁ h₁ => ?_
        refine (updateRun_spec h₁ _).bind fun _ w₂ h₂ => ?_
        exact runsTo_pure h₂
      exact hend.bind fun _ w₁ h₁ => emit_spec h₁ _
  | cons first rest =>
      refine (updateRun_spec h _).bind fun _ w₁ h₁ => ?_
      exact enqueueJobs_spec hp h₁

/-- The state of a launch is fresh. -/
theorem freshState_buildInitialStateVariables (env : Env) (triggerData : JsonRecord) :
    FreshState (buildInitialStateVariables env triggerData) := ⟨⟨_, rfl⟩, rfl, rfl⟩

/-- The row `createAndStartRun` creates. -/
def launchData (env : Env) (workflowId : String) (triggerData : JsonRecord)
    (concurrencyScope : Option String) (now : Nat) : NewRun where
  workflow_id := workflowId
  status := .running
  state_variables := buildInitialStateVariables env triggerData
  concurrency_scope := concurrencyScope.filter (· ≠ "")
  launch_dedupe_key := WorkflowLaunchDedupeService.resolveLaunchDedupeKey triggerData
  started_at := some now

/-- **The contract of a launch.** -/
theorem createAndStartRun_spec (hp : PlainIds definition) {groups : List (List String)}
    (hgroups : parallelGroups definition.jobList = .ok groups) (hkeys : w.KeysDistinct)
    (hids : w.FreshIds) (workflowId : String) (triggerData : JsonRecord)
    (concurrencyScope : Option String) :
    RunsTo anyJob (createAndStartRun env workflowId triggerData definition concurrencyScope) w
      (fun runId w' => runId = w.nextId ∧ Shows w' runId
        ((RunView.created w (launchData env workflowId triggerData concurrencyScope w.clock)).launch
          runId definition (resolveInitialDagJobs definition.jobList (groups.headD [])))) E := by
  have hcreate : RunsTo anyJob
      (createRun { launchData env workflowId triggerData concurrencyScope 0 with
        started_at := none }) w
      (fun created w' => created = some w.nextId ∧ Shows w' w.nextId
        (.created w (launchData env workflowId triggerData concurrencyScope w.clock))) E := by
    unfold createRun
    rw [if_pos ⟨rfl, rfl⟩]
    have hnow : RunsTo anyJob newDate w
        (fun now w' => now = w.clock ∧ w' = { w with clock := w.clock + 1 }) E :=
      RunsTo.await rfl trivial ⟨rfl, rfl⟩
    refine hnow.bind ?_
    rintro now w' ⟨rfl, rfl⟩
    refine RunsTo.await rfl trivial ⟨rfl, ?_⟩
    exact shows_create (w := { w with clock := w.clock + 1 }) hkeys hids
      (freshState_buildInitialStateVariables env triggerData).wellFormed
  refine hcreate.bind ?_
  rintro created w₁ ⟨rfl, h₁⟩
  refine (emit_spec h₁ _).bind fun _ w₂ h₂ => ?_
  refine (startInitialJobs_spec hp hgroups h₂ _ _).bind fun _ w₃ h₃ => ?_
  exact runsTo_pure ⟨rfl, h₃⟩

end Launch

end Nexus
