import Mathlib.Data.List.Basic

/-!
# Rows of a table

Rows that are found by a key, and rows that are numbered by their places.
-/

set_option autoImplicit false

namespace Nexus

namespace TableRows

variable {α : Type} {number : α → Nat} {rows : List α} {row : α} {f : α → α}

theorem append (h : ∀ i row, rows[i]? = some row → number row = i)
    (hnumber : number row = rows.length) (i : Nat) (row' : α)
    (hrow' : (rows ++ [row])[i]? = some row') : number row' = i := by
  rcases Nat.lt_trichotomy i rows.length with hlt | rfl | hgt
  · rw [List.getElem?_append_left hlt] at hrow'
    exact h i row' hrow'
  · rw [List.getElem?_concat_length] at hrow'
    rw [← Option.some.inj hrow', hnumber]
  · rw [List.getElem?_eq_none (by rw [List.length_append]; exact hgt)] at hrow'
    cases hrow'

theorem map (h : ∀ i row, rows[i]? = some row → number row = i)
    (hf : ∀ row, number (f row) = number row) (i : Nat) (row : α)
    (hrow : (rows.map f)[i]? = some row) : number row = i := by
  rw [List.getElem?_map, Option.map_eq_some_iff] at hrow
  obtain ⟨row', hrow', rfl⟩ := hrow
  rw [hf, h i row' hrow']

theorem getElem?_append (id : Nat) :
    (rows ++ [row])[id]? = if id = rows.length then some row else rows[id]? := by
  split
  · rename_i hid
    rw [hid, List.getElem?_concat_length]
  · rename_i hid
    rcases Nat.lt_or_gt_of_ne hid with hlt | hgt
    · exact List.getElem?_append_left hlt
    · rw [List.getElem?_eq_none (Nat.le_of_lt hgt), List.getElem?_eq_none]
      rw [List.length_append]
      exact hgt

/-! ## Rows under a key -/

variable {κ : Type} [DecidableEq κ] {key : α → κ}

theorem find?_map (hf : ∀ row, key (f row) = key row) (k : κ) :
    (rows.map f).find? (fun row => decide (key row = k)) =
      (rows.find? fun row => decide (key row = k)).map f := by
  have hsame : (fun row => decide (key row = k)) ∘ f = fun row => decide (key row = k) := by
    funext row
    simp only [Function.comp, hf]
  rw [List.find?_map, hsame]

/-- A change of the row of a key is seen under that key only. -/
theorem find?_change {k' : κ} (hf : ∀ row, key row = k' → key (f row) = k') (k : κ) :
    (rows.map fun row => if key row = k' then f row else row).find?
        (fun row => decide (key row = k)) =
      if k = k' then (rows.find? fun row => decide (key row = k)).map f
      else rows.find? fun row => decide (key row = k) := by
  have hkey : ∀ row, key (if key row = k' then f row else row) = key row := by
    intro row
    split
    · rename_i hrow
      rw [hf row hrow, hrow]
    · rfl
  rw [find?_map hkey]
  cases hfind : rows.find? fun row => decide (key row = k) with
  | none => simp
  | some row =>
      have hrow : key row = k := by simpa using List.find?_some hfind
      simp only [Option.map_some, hrow]
      split <;> rfl

end TableRows

end Nexus
