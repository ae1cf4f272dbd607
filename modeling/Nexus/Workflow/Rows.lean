import Nexus.Lib.TableRows
import Nexus.Workflow.Engine

/-!
# Rows under operations

What an operation does to the row of a run (`WorkflowRun.after`, `findRun_exec`), read field by
field: its status is changed by updates only, its state variables by the writes and the claims of
variables only, and its workflow, its scope and its id never.
-/

set_option autoImplicit false

namespace Nexus

namespace World

variable {w : World} {r : RunId} {run : WorkflowRun}

theorem findRun_id (h : w.findRun r = some run) : run.id = r := by
  simpa using List.find?_some h

theorem findRun_mem (h : w.findRun r = some run) : run ∈ w.runs := List.mem_of_find?_eq_some h

/-- The ids of the rows are distinct: the primary key of `workflow_runs`. -/
def KeysDistinct (w : World) : Prop := (w.runs.map WorkflowRun.id).Nodup

instance : Decidable w.KeysDistinct := inferInstanceAs (Decidable (List.Nodup _))

/-- New rows get ids that no row has: `nextId` is above every id. -/
def FreshIds (w : World) : Prop := ∀ run ∈ w.runs, run.id < w.nextId

instance : Decidable w.FreshIds :=
  inferInstanceAs (Decidable (∀ run ∈ w.runs, run.id < w.nextId))

/-- With distinct ids a row is found under its id. -/
theorem findRun_of_mem (hw : w.KeysDistinct) (h : run ∈ w.runs) : w.findRun run.id = some run := by
  cases hfind : w.findRun run.id with
  | none =>
      have := List.find?_eq_none.1 hfind run h
      simp at this
  | some run' =>
      rw [List.inj_on_of_nodup_map hw (findRun_mem hfind) h (findRun_id hfind)]

variable {f : WorkflowRun → WorkflowRun}

theorem ids_modifyRun {id : RunId} (hf : ∀ x, (f x).id = x.id) :
    (w.modifyRun id f).runs.map WorkflowRun.id = w.runs.map WorkflowRun.id := by
  simp only [modifyRun, List.map_map]
  refine List.map_congr_left fun x _ => ?_
  simp only [Function.comp]
  split
  · exact hf x
  · rfl

theorem keysDistinct_modifyRun {id : RunId} (hf : ∀ x, (f x).id = x.id) (hw : w.KeysDistinct) :
    (w.modifyRun id f).KeysDistinct := by
  rw [KeysDistinct, ids_modifyRun hf]
  exact hw

/-- A change of the row of an id is seen under that id only. -/
theorem findRun_modifyRun {id : RunId} (hf : ∀ x, (f x).id = x.id) :
    (w.modifyRun id f).findRun r =
      if r = id then (w.findRun r).map fun x => { f x with updated_at := w.clock }
      else w.findRun r := by
  exact TableRows.find?_change (f := fun x => { f x with updated_at := w.clock })
    (fun x hid => (hf x).trans hid) r

theorem findRun_modifyRun_self (hf : ∀ x, (f x).id = x.id) (h : w.findRun r = some run) :
    (w.modifyRun r f).findRun r = some { f run with updated_at := w.clock } := by
  rw [findRun_modifyRun hf, if_pos rfl, h, Option.map_some]

theorem findRun_modifyRun_of_ne {id : RunId} (hf : ∀ x, (f x).id = x.id) (h : r ≠ id) :
    (w.modifyRun id f).findRun r = w.findRun r := by
  rw [findRun_modifyRun hf, if_neg h]

end World

/-! ## The row after an operation -/

/-- The row after an operation at a time. -/
def WorkflowRun.after (clock : Nat) (run : WorkflowRun) : Op → WorkflowRun
  | .update id patch =>
      if run.id = id then { run.patch patch with updated_at := clock } else run
  | .setAwaitingInput id awaiting =>
      if run.id = id then
        { run with
          awaiting_input := if run.status = .running then awaiting else run.awaiting_input
          updated_at := clock }
      else run
  | .claimJobFlag id group jobId =>
      if run.id = id ∧ run.status = .running then
        match claimFlag run.state_variables group jobId with
        | some (some t) => { run with state_variables := t, updated_at := clock }
        | _ => run
      else run
  | .setStateVariableAtomic id key value =>
      if run.id = id then
        match setStateVariable run.state_variables key value with
        | some t => { run with state_variables := t, updated_at := clock }
        | none => run
      else run
  | .deleteStateVariableAtomic id key =>
      if run.id = id then
        match deleteStateVariable run.state_variables key with
        | some t => { run with state_variables := t, updated_at := clock }
        | none => run
      else run
  | _ => run

section After

variable {w : World} {r : RunId} {run : WorkflowRun}

theorem findRun_modifyState (h : w.findRun r = some run) (id : RunId) (f : Json → Option Json) :
    (w.modifyState id f).1.findRun r =
      some (if run.id = id then
        match f run.state_variables with
        | some t => { run with state_variables := t, updated_at := w.clock }
        | none => run
      else run) := by
  have hid := World.findRun_id h
  by_cases hr : r = id
  · subst hr
    simp only [World.modifyState, h, hid]
    cases hf : f run.state_variables with
    | none => simp [h]
    | some t =>
        simp only [if_true]
        refine (World.findRun_modifyRun_self ?_ h).trans ?_
        · exact fun _ => rfl
        · rw [hid]
  · rw [hid, if_neg hr]
    simp only [World.modifyState]
    cases w.findRun id with
    | none => exact h
    | some run' =>
        simp only
        cases f run'.state_variables with
        | none => exact h
        | some t =>
            refine (World.findRun_modifyRun_of_ne ?_ hr).trans h
            exact fun _ => rfl

theorem findRun_claimJobFlag (h : w.findRun r = some run) (id : RunId) (group : FlagGroup)
    (jobId : String) :
    (w.claimJobFlag id group jobId).1.findRun r =
      some (run.after w.clock (.claimJobFlag id group jobId)) := by
  have hid := World.findRun_id h
  by_cases hr : r = id
  · subst hr
    simp only [World.claimJobFlag, WorkflowRun.after, h, hid, true_and]
    split
    · rename_i hrunning
      cases claimFlag run.state_variables group jobId with
      | none => exact h
      | some claimed =>
          cases claimed with
          | none => exact h
          | some t =>
              refine (World.findRun_modifyRun_self ?_ h).trans ?_
              · exact fun _ => rfl
              · rw [hid]
    · exact h
  · simp only [WorkflowRun.after, hid, hr, false_and, if_false, World.claimJobFlag]
    cases w.findRun id with
    | none => exact h
    | some run' =>
        simp only
        split
        · split
          · exact h
          · exact h
          · refine (World.findRun_modifyRun_of_ne ?_ hr).trans h
            exact fun _ => rfl
        · exact h

/-- **The row after an operation.** -/
theorem findRun_exec (h : w.findRun r = some run) (o : Op) :
    (o.exec w).1.findRun r = some (run.after w.clock o) := by
  have hid := World.findRun_id h
  cases o with
  | update id patch =>
      refine (World.findRun_modifyRun ?_).trans ?_
      · exact fun _ => rfl
      · rw [h, WorkflowRun.after, hid]
        by_cases hr : r = id
        · rw [if_pos hr, if_pos hr, Option.map_some]
        · rw [if_neg hr, if_neg hr]
  | setAwaitingInput id awaiting =>
      refine (World.findRun_modifyRun ?_).trans ?_
      · intro x
        split <;> rfl
      · rw [h, WorkflowRun.after, hid]
        by_cases hr : r = id
        · rw [if_pos hr, if_pos hr, Option.map_some]
          split <;> simp only [hid]
        · rw [if_neg hr, if_neg hr]
  | claimJobFlag id group jobId => exact findRun_claimJobFlag h id group jobId
  | setStateVariableAtomic id key value => exact findRun_modifyState h id _
  | deleteStateVariableAtomic id key => exact findRun_modifyState h id _
  | create data =>
      simp only [Op.exec, World.createRun, World.findRun, List.find?_append]
      rw [World.findRun] at h
      rw [h]
      rfl
  | stepQueueAdd job =>
      simp only [Op.exec, World.addQueueJob, WorkflowRun.after]
      split <;> exact h
  | _ => exact h

end After

end Nexus
