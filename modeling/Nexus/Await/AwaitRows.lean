import Nexus.Await.AgentAwait
import Nexus.Lib.TableRows
import Mathlib.Data.List.Nodup

/-!
# The row of one await

What one operation does to one row of the table and what it answers about it.
-/

set_option autoImplicit false

namespace Nexus

/-- The row after an operation at a time. -/
def AgentAwait.after (now : Nat) (x : AgentAwait) : AwaitOp → AgentAwait
  | .save entity =>
      if x.id = entity.id ∧ { entity with updated_at := x.updated_at } ≠ x then
        { entity with updated_at := now }
      else x
  | .compareAndSetStatus id sourceStatus targetStatus =>
      if x.id = id ∧ x.status = sourceStatus then
        { x with status := targetStatus, updated_at := now }
      else x
  | .cancelOpenForParentRun parentRunId =>
      if x.parent_run_id = parentRunId ∧ x.isOpen = true then
        { x with status := .cancelled, updated_at := now }
      else x
  | _ => x

/-- The ids of the awaits are distinct. -/
def AwaitStore.KeysDistinct (s : AwaitStore) : Prop := (s.awaits.map AgentAwait.id).Nodup

section Rows

variable {e : AwaitSurroundings} {s : AwaitStore} {o : AwaitOp} {id : String} {w : AgentAwait}

theorem find_id (h : s.find id = some w) : w.id = id := by
  have hw := List.find?_some h
  exact of_decide_eq_true hw

theorem find_mem (h : s.find id = some w) : w ∈ s.awaits := List.mem_of_find?_eq_some h

/-- The row with an id is the only one. -/
theorem eq_of_find (hkeys : s.KeysDistinct) (h : s.find id = some w) {x : AgentAwait}
    (hx : x ∈ s.awaits) (hid : x.id = id) : x = w :=
  List.inj_on_of_nodup_map hkeys hx (find_mem h) (hid.trans (find_id h).symm)

theorem after_id {now : Nat} : (w.after now o).id = w.id := by
  cases o <;> simp only [AgentAwait.after]
  · split
    · rename_i h
      exact h.1.symm
    · rfl
  · split <;> rfl
  · split <;> rfl

/-- An operation maps every row to the row after it. -/
theorem awaits_exec :
    (o.exec e s).1.awaits = s.awaits.map fun x => x.after (e.clock s.time) o := by
  have hsame : s.awaits = s.awaits.map fun x => x := (List.map_id' s.awaits).symm
  cases o with
  | save entity =>
      refine List.map_congr_left fun x _ => ?_
      by_cases hid : x.id = entity.id <;> simp [AgentAwait.after, hid]
  | compareAndSetStatus id sourceStatus targetStatus =>
      refine List.map_congr_left fun x _ => ?_
      by_cases hid : x.id = id <;> simp [AgentAwait.after, hid]
  | cancelOpenForParentRun parentRunId =>
      refine List.map_congr_left fun x _ => ?_
      by_cases hid : x.parent_run_id = parentRunId <;> simp [AgentAwait.after, hid]
  | _ => exact hsame

theorem keysDistinct_exec (h : s.KeysDistinct) : (o.exec e s).1.KeysDistinct := by
  have hids : (s.awaits.map fun x => x.after (e.clock s.time) o).map AgentAwait.id =
      s.awaits.map AgentAwait.id := by
    rw [List.map_map]
    exact List.map_congr_left fun x _ => after_id
  rw [AwaitStore.KeysDistinct, awaits_exec, hids]
  exact h

/-- The row with an id after an operation. -/
theorem find_exec (h : s.find id = some w) :
    (o.exec e s).1.find id = some (w.after (e.clock s.time) o) := by
  rw [AwaitStore.find, awaits_exec, TableRows.find?_map fun _ => after_id]
  exact congrArg (Option.map _) h

/-- A compare-and-set of the row succeeds when the row has the expected status. -/
theorem compareAndSet_ans (hkeys : s.KeysDistinct) (h : s.find id = some w)
    {sourceStatus targetStatus : AgentAwaitStatus} :
    ((AwaitOp.compareAndSetStatus id sourceStatus targetStatus).exec e s).2 =
      decide (w.status = sourceStatus) := by
  show (s.awaits.any fun x => x.id = id && x.status = sourceStatus) =
    decide (w.status = sourceStatus)
  rw [Bool.eq_iff_iff, List.any_eq_true, decide_eq_true_eq]
  constructor
  · rintro ⟨x, hx, hmatch⟩
    simp only [Bool.and_eq_true, decide_eq_true_eq] at hmatch
    rw [← eq_of_find hkeys h hx hmatch.1]
    exact hmatch.2
  · intro hstatus
    exact ⟨w, find_mem h, by simp [find_id h, hstatus]⟩

/-- A search for the waiting awaits of a child finds the row when it waits for the child. -/
theorem mem_findWaiting (hkeys : s.KeysDistinct) (h : s.find id = some w) {childRunId : String}
    {found : List AgentAwait}
    (hfound : found = ((AwaitOp.findWaitingByAwaitedChild childRunId).exec e s).2) :
    id ∈ found.map AgentAwait.id ↔ w.status = .waiting ∧ childRunId ∈ w.awaited_run_ids := by
  have hans : found = s.awaits.filter fun x =>
      x.status = .waiting && x.awaited_run_ids.contains childRunId := hfound
  rw [hans, List.mem_map]
  constructor
  · rintro ⟨x, hx, hid⟩
    obtain ⟨hmem, hmatch⟩ := List.mem_filter.1 hx
    rw [← eq_of_find hkeys h hmem hid]
    simpa using hmatch
  · rintro ⟨hstatus, hchild⟩
    exact ⟨w, List.mem_filter.2 ⟨find_mem h, by simp [hstatus, hchild]⟩, find_id h⟩

theorem nodup_findWaiting (hkeys : s.KeysDistinct) {childRunId : String}
    {found : List AgentAwait}
    (hfound : found = ((AwaitOp.findWaitingByAwaitedChild childRunId).exec e s).2) :
    (found.map AgentAwait.id).Nodup := by
  have hans : found = s.awaits.filter fun x =>
      x.status = .waiting && x.awaited_run_ids.contains childRunId := hfound
  rw [hans]
  exact hkeys.sublist (List.filter_sublist.map _)

end Rows

end Nexus
