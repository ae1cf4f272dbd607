import Nexus.Workflow.TransitionSpecs

/-!
# Sequences of completion calls

The rule for one call that runs alone on a tracked record (`CompletionCall.rule`), and what every
sequence of calls keeps: the record stays tracked.
-/

set_option autoImplicit false

namespace Nexus

open JobCompletionHandler

/-- No condition on what is put on the step queue. -/
def anyJob (_ : World) (_ : QueueJob) : Prop := True

/-- A program that may do anything. -/
theorem runsTo_anything {α : Type} (p : Engine α) (w : World) :
    RunsTo anyJob p w (fun _ _ => True) (fun _ _ => True) := by
  induction p generalizing w with
  | pure a => trivial
  | fail e => trivial
  | call o k ih =>
      refine ⟨?_, fun ans w' _ => ih ans w'⟩
      cases o <;> trivial

section Call

variable {w w' : World} {r : RunId} {v : RunView} {env : Env} {definition : IWorkflowDefinition}
  {c : CompletionCall}

/-- The decision of a call satisfies the contract of decisions. -/
theorem CompletionCall.decides {d : Decision} (hd : Accepted definition)
    (hp : PlainIds definition) (h : Shows w r v) (hc : PlainId c.jobId)
    (hdef : findDefinition env v.workflow_id = .ok definition)
    (hdecision : c.decision env r w = some (d, w')) :
    Decides definition r c.jobId c.output v (some d) w' := by
  have hspec : RunsTo anyJob (decideNext env (loopReporter env c.depth) r c.jobId c.output) w
      (Decides definition r c.jobId c.output v) _ :=
    decideNext_spec hd hp h hc hdef c.output fun _ _ _ => runsTo_anything _ _
  have hrun := hspec.run
  unfold decision at hdecision
  split at hdecision
  · rename_i heq
    simp only [Option.some.injEq, Prod.mk.injEq] at hdecision
    obtain ⟨rfl, rfl⟩ := hdecision
    rw [heq] at hrun
    exact hrun
  · cases hdecision

/-- **The rule for one call.** A call on a tracked record is rejected, throws after the job was
recorded, or goes on from its decision. -/
theorem CompletionCall.rule {Q : World → Prop} (hd : Accepted definition)
    (hp : PlainIds definition) (h : Shows w r v) (ht : v.Tracked) (hc : PlainId c.jobId)
    (hdef : findDefinition env v.workflow_id = .ok definition)
    (hrejected : ∀ w' v', Shows w' r v' → RunView.Rejected definition c.jobId v v' → Q w')
    (hthrown : ∀ w', Shows w' r (v.accept c.jobId c.output) → Q w')
    (hnext : ∀ d w', c.decision env r w = some (d, w') →
      RunsTo anyJob (takeNext env r c.jobId (some d)) w' (fun _ w'' => Q w'') fun _ w'' => Q w'') :
    Q (w.afterCall env r c) := by
  have hspec : RunsTo anyJob (decideNext env (loopReporter env c.depth) r c.jobId c.output) w
      (Decides definition r c.jobId c.output v) _ :=
    decideNext_spec hd hp h hc hdef c.output fun _ _ _ => runsTo_anything _ _
  have hrun := hspec.run
  cases hdecide : (decideNext env (loopReporter env c.depth) r c.jobId c.output).run Op.exec w with
  | mk w₁ result =>
      rw [hdecide] at hrun
      cases result with
      | error e =>
          have hcall : w.afterCall env r c = w₁ := by
            rw [World.afterCall, program, handleJobComplete_eq, handle_eq,
              Prog.run_bind_error Op.exec hdecide]
          rw [hcall]
          rcases hrun with h' | ⟨hlimit, hset⟩
          · exact hthrown w₁ h'
          · exact absurd hlimit (ht.not_loopLimit hset)
      | ok decided =>
          cases decided with
          | none =>
              have hcall : w.afterCall env r c = w₁ := by
                rw [World.afterCall, program, handleJobComplete_eq, handle_eq,
                  Prog.run_bind_ok Op.exec hdecide]
                rfl
              rw [hcall]
              obtain ⟨v', h', hrej⟩ := hrun
              exact hrejected w₁ v' h' hrej
          | some d =>
              have hdecision : c.decision env r w = some (d, w₁) := by
                rw [decision, hdecide]
              have hgo := (hnext d w₁ hdecision).run
              rw [World.afterCall, run_of_decision hdecision]
              split at hgo
              · rename_i heq
                rw [heq]
                exact hgo
              · rename_i heq
                rw [heq]
                exact hgo

end Call

/-! ## Tracked runs -/

/-- The record of a run is tracked, and its definition is found. -/
def OnTrack (env : Env) (definition : IWorkflowDefinition) (r : RunId) (w : World) : Prop :=
  ∃ v, Shows w r v ∧ v.Tracked ∧ findDefinition env v.workflow_id = .ok definition

section Track

variable {w : World} {r : RunId} {env : Env} {definition : IWorkflowDefinition}

/-- A run that was just created is on track. -/
theorem onTrack_of_fresh {run : WorkflowRun} (hkeys : w.KeysDistinct)
    (hrun : w.findRun r = some run) (hfresh : FreshState run.state_variables)
    (hdef : findDefinition env run.workflow_id = .ok definition) :
    OnTrack env definition r w :=
  ⟨run.view w, shows_view hrun hkeys hfresh.wellFormed, hfresh.tracked, hdef⟩

variable (hd : Accepted definition) (hp : PlainIds definition)
include hd

theorem Accepted.findJob_next {job : IJob} {n : String} (hj : job ∈ definition.jobList)
    (hn : n ∈ job.transitionList.map IWorkflowTransition.next) :
    ∃ target, definition.findJob n = some target := by
  obtain ⟨t, ht, rfl⟩ := List.mem_map.1 hn
  obtain ⟨j, hj', hid⟩ := List.mem_map.1 (hd.transitions hj ht)
  rw [← hid]
  exact IWorkflowDefinition.findJob_isSome hj'

include hp

/-- A call keeps the run on track. -/
theorem onTrack_afterCall (h : OnTrack env definition r w) {c : CompletionCall}
    (hc : PlainId c.jobId) : OnTrack env definition r (w.afterCall env r c) := by
  obtain ⟨v, hv, ht, hdef⟩ := h
  refine c.rule hd hp hv ht hc hdef (fun w' v' h' hrej => ?_) (fun w' h' => ?_) ?_
  · exact ⟨v', h', hrej.tracked ht, by rw [hrej.workflow_id, hdef]⟩
  · exact ⟨_, h', ht.accept _ _, hdef⟩
  · intro d w' hdecision
    obtain ⟨rfl, hfind, -, -, hset, hnext⟩ := c.decides hd hp hv hc hdef hdecision
    obtain ⟨hmem, hid⟩ := IWorkflowDefinition.findJob_some hfind
    rcases d with ⟨definition, job, _ | _ | n⟩
    · exact absurd hnext (ht.not_loopLimit hset)
    · obtain ⟨groups, level, hgroups, hg⟩ := hd.groups
      have hkept : KeptByVisits env definition r anyJob anyVisit fun _ v' =>
          v'.Tracked ∧ findDefinition env v'.workflow_id = .ok definition :=
        ⟨fun hI _ _ _ hvisit => ⟨hI.1.visited hvisit, by rw [hvisit.run_eq.1]; exact hI.2⟩,
          fun _ _ _ _ _ _ => trivial⟩
      have hprogress := progressDagOrComplete_spec hd hp hkept (fun _ _ _ => trivial) hgroups hg
        hmem hnext ⟨ht.accept _ _, hdef⟩ fun _ _ => trivial
      have hfinish : ∀ {v₁ v₂ : RunView} {w'' : World},
          v₁.Tracked ∧ findDefinition env v₁.workflow_id = .ok definition → Shows w'' r v₂ →
          v₁.finish.Elsewhere r v₂ → OnTrack env definition r w'' := by
        intro v₁ v₂ w'' hI h'' helse
        exact ⟨v₂, h'', hI.1.of_read_eq helse.read, by rw [helse.workflow_id]; exact hI.2⟩
      simp only [takeNext, ← hid]
      refine hprogress.mono ?_ ?_
      · rintro _ w'' ⟨v₁, hI, ⟨-, h''⟩ | ⟨-, v₂, h'', helse⟩⟩
        · exact ⟨v₁, h'', hI⟩
        · exact hfinish hI h'' helse
      · rintro _ w'' ⟨_, v₁, hI, h'' | ⟨v₂, h'', helse⟩⟩
        · exact ⟨v₁, h'', hI⟩
        · exact hfinish hI h'' helse
    · obtain ⟨hn, h'⟩ := hnext
      obtain ⟨target, htarget⟩ := hd.findJob_next hmem hn
      have ht' := (ht.countLoop c.jobId c.output n).pruned definition c.jobId n
      have hrun := ((v.accept c.jobId c.output).countLoop c.jobId n).sameRun_pruned definition
        c.jobId n
      refine (enqueueTransitionJob_spec hd hp h' htarget fun _ _ _ _ => trivial).mono ?_ ?_
      · rintro _ w'' (⟨-, h''⟩ | ⟨-, h''⟩)
        · refine ⟨_, h'', ht'.queueJob r target, ?_⟩
          rw [RunView.queueJob_workflow_id]
          exact hrun.workflow_id ▸ hdef
        · exact ⟨_, h'', ht'.record _ _ _, hrun.workflow_id ▸ hdef⟩
      · rintro _ w'' ⟨h'', -⟩
        exact ⟨_, h'', ht', hrun.workflow_id ▸ hdef⟩

/-- Every sequence of calls keeps the run on track. -/
theorem onTrack_afterCalls {calls : List CompletionCall} (h : OnTrack env definition r w)
    (hcalls : ∀ c ∈ calls, PlainId c.jobId) :
    OnTrack env definition r (w.afterCalls env r calls) := by
  induction calls generalizing w with
  | nil => exact h
  | cons c calls ih =>
      exact ih (onTrack_afterCall hd hp h (hcalls c (by simp))) fun c' hc' => hcalls c' (by simp [hc'])

end Track

/-! ## One definition -/

/-- An environment that knows one definition, whose templates and conditions are constants. -/
def Env.ofDefinition (definition : IWorkflowDefinition) : Env where
  findByIdentifier id := some { id := id, yaml_definition := "" }
  parseWorkflow _ := .ok definition
  evaluate condition _ := .ok (.bool (condition = "true"))
  renderTemplate template _ := .ok template
  resolveContext _ := .empty
  toISOString _ := ""
  parseDate _ := none

theorem findDefinition_ofDefinition (definition : IWorkflowDefinition) (workflowId : String) :
    findDefinition (.ofDefinition definition) workflowId = .ok definition := rfl

/-- One RUNNING run, as a launch leaves its row. -/
def World.launched : World where
  runs := [{ id := 0, workflow_id := "workflow", status := .running,
             state_variables := .obj [("trigger", .obj []), ("vars", .obj [])] }]
  nextId := 1

theorem keysDistinct_launched : World.launched.KeysDistinct := by decide

/-- The row of a launched run is fresh. -/
theorem freshState_launched :
    FreshState (.obj [("trigger", .obj []), ("vars", .obj [])]) := ⟨⟨_, rfl⟩, rfl, rfl⟩

end Nexus
