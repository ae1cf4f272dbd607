import Mathlib.Data.List.MinMax
import Mathlib.Data.List.Sort

/-!
# The first decisive element in the order of ranks

A loop over a list that is sorted by falling rank stops at the first element that decides: one that
matches, or one on which the test fails. The sort is stable, so this is the first of the highest
rank among the deciding elements of the list as it was (`find?_insertionSort`).
-/

set_option autoImplicit false

namespace Nexus.RankedChoice

variable {α ε : Type*}

/-- The loop: the first element that passes the test, or the error of the test. -/
def firstMatch (test : α → Except ε Bool) : List α → Except ε (Option α)
  | [] => .ok none
  | x :: xs =>
      match test x with
      | .error e => .error e
      | .ok true => .ok (some x)
      | .ok false => firstMatch test xs

/-- The element matches, or the test fails on it. -/
def decides (test : α → Except ε Bool) (x : α) : Bool :=
  match test x with
  | .ok false => false
  | _ => true

section Loop

variable {test : α → Except ε Bool} {x : α} {xs : List α}

theorem decides_eq_true_iff :
    decides test x = true ↔ test x = .ok true ∨ ∃ e, test x = .error e := by
  unfold decides
  cases test x with
  | error e => simp
  | ok found => cases found <;> simp

/-- The loop ends with what the first deciding element says. -/
theorem firstMatch_eq : firstMatch test xs =
    match xs.find? (decides test) with
    | none => .ok none
    | some x => (test x).map fun _ => some x := by
  induction xs with
  | nil => rfl
  | cons x xs ih =>
      rw [firstMatch, List.find?_cons, decides]
      cases htest : test x with
      | error e => simp [htest, Except.map]
      | ok found =>
          cases found with
          | true => simp [htest, Except.map]
          | false => simpa using ih

end Loop

section Ranks

variable {β : Type*} [LinearOrder β] (rank : α → β)

/-- Elements in the order of falling ranks. -/
def sortByRank (xs : List α) : List α := xs.insertionSort fun a b => rank b ≤ rank a

variable {rank} {p : α → Bool} {x : α} {xs : List α}

theorem pairwise_sortByRank (rank : α → β) (xs : List α) :
    (sortByRank rank xs).Pairwise fun a b => rank b ≤ rank a := by
  have : Std.Total fun a b : α => rank b ≤ rank a := ⟨fun a b => le_total (rank b) (rank a)⟩
  have : IsTrans α fun a b : α => rank b ≤ rank a := ⟨fun a b c hab hbc => hbc.trans hab⟩
  exact List.pairwise_insertionSort _ xs

theorem find?_orderedInsert_of_neg (hx : p x = false) :
    (xs.orderedInsert (fun a b => rank b ≤ rank a) x).find? p = xs.find? p := by
  induction xs with
  | nil => simp [hx]
  | cons b xs ih =>
      rw [List.orderedInsert]
      split
      · rw [List.find?_cons, hx]
      · rw [List.find?_cons, List.find?_cons, ih]

/-- A new element takes the place of a first find of no higher rank. -/
theorem find?_orderedInsert_of_pos (hx : p x = true)
    (hsorted : xs.Pairwise fun a b => rank b ≤ rank a) :
    (xs.orderedInsert (fun a b => rank b ≤ rank a) x).find? p =
      match xs.find? p with
      | none => some x
      | some b => if rank x < rank b then some b else some x := by
  induction xs with
  | nil => simp [hx]
  | cons b xs ih =>
      obtain ⟨hb, hsorted⟩ := List.pairwise_cons.1 hsorted
      rw [List.orderedInsert]
      split
      · rename_i hle
        rw [List.find?_cons, hx]
        cases hfind : (b :: xs).find? p with
        | none => rfl
        | some c =>
            have hc : rank c ≤ rank b := by
              rcases List.mem_cons.1 (List.mem_of_find?_eq_some hfind) with rfl | hmem
              · exact le_refl _
              · exact hb c hmem
            simp [not_lt.2 (hc.trans hle)]
      · rename_i hlt
        rw [List.find?_cons, List.find?_cons]
        cases hpb : p b with
        | true => simp [not_le.1 hlt]
        | false => exact ih hsorted

/-- **The first find in the sorted list is the first of the highest rank in the list.** -/
theorem find?_sortByRank : (sortByRank rank xs).find? p = (xs.filter p).argmax rank := by
  induction xs with
  | nil => rfl
  | cons x xs ih =>
      rw [sortByRank, List.insertionSort_cons]
      cases hx : p x with
      | false =>
          rw [find?_orderedInsert_of_neg hx, List.filter_cons_of_neg (by simp [hx])]
          exact ih
      | true =>
          have hfind := find?_orderedInsert_of_pos hx (pairwise_sortByRank rank xs)
          rw [sortByRank] at hfind ih
          rw [hfind, ih, List.filter_cons_of_pos hx, List.argmax_cons]
          cases (xs.filter p).argmax rank <;> rfl

end Ranks

end Nexus.RankedChoice
