import Mathlib.Data.List.Nodup
import Mathlib.Order.WellFounded

/-!
# Lists in dependency order

A list is in dependency order when every element stands after everything it depends on, each
element once. The file has the closure facts of such lists, their completeness over an acyclic
dependency relation, and the counting lemma behind the usual construction: taking one occurrence
after the other off a table of counters releases each entry at most once, when its counter is used
up.
-/

set_option autoImplicit false

namespace Nexus

variable {α : Type}

/-- Every element stands after all its dependencies, and once. -/
inductive DependencyOrder (deps : α → List α) : List α → Prop
  | nil : DependencyOrder deps []
  | snoc {l : List α} {x : α} : DependencyOrder deps l → x ∉ l → (∀ d ∈ deps x, d ∈ l) →
      DependencyOrder deps (l ++ [x])

namespace DependencyOrder

variable {deps : α → List α} {l : List α}

theorem nodup (h : DependencyOrder deps l) : l.Nodup := by
  induction h with
  | nil => exact List.nodup_nil
  | snoc _ hx _ ih =>
      rw [List.nodup_append]
      refine ⟨ih, List.nodup_singleton _, fun a ha b hb => ?_⟩
      rintro rfl
      exact hx (List.mem_singleton.1 hb ▸ ha)

/-- The list is closed under dependencies. -/
theorem closed (h : DependencyOrder deps l) {x d : α} (hx : x ∈ l) (hd : d ∈ deps x) : d ∈ l := by
  induction h with
  | nil => simp at hx
  | snoc _ _ hdeps ih =>
      rcases List.mem_append.1 hx with hx | hx
      · exact List.mem_append_left _ (ih hx)
      · rw [List.mem_singleton.1 hx] at hd
        exact List.mem_append_left _ (hdeps d hd)

end DependencyOrder

/-- A list that contains every element all of whose dependencies it contains is complete on the
elements below which the dependencies are well-founded. -/
theorem mem_of_acc {deps : α → List α} {l : List α} {K : α → Prop}
    (hK : ∀ x d, K x → d ∈ deps x → K d) (hl : ∀ x, K x → (∀ d ∈ deps x, d ∈ l) → x ∈ l)
    {x : α} (hx : Acc (fun d y => d ∈ deps y) x) (hKx : K x) : x ∈ l := by
  induction hx with
  | intro x _ ih => exact hl x hKx fun d hd => ih d hd (hK x d hKx hd)

/-! ## Counters -/

section Counters

variable [DecidableEq α]

/-- Takes the elements of a list off a table of counters, one after the other; the elements whose
counter reaches zero on the way. -/
def released (counter : α → Int) : List α → List α
  | [] => []
  | x :: xs =>
      let counter' := Function.update counter x (counter x - 1)
      if counter x - 1 = 0 then x :: released counter' xs else released counter' xs

/-- The table after the elements are taken off. -/
def takenOff (counter : α → Int) (xs : List α) : α → Int := fun y => counter y - xs.count y

theorem takenOff_cons (counter : α → Int) (x : α) (xs : List α) :
    takenOff (Function.update counter x (counter x - 1)) xs = takenOff counter (x :: xs) := by
  funext y
  by_cases h : y = x
  · subst h
    simp only [takenOff, Function.update_self, List.count_cons_self]
    omega
  · simp only [takenOff, Function.update_of_ne h, List.count_cons_of_ne (Ne.symm h)]

/-- An element is released when its counter was positive and is used up. -/
theorem mem_released {xs : List α} {counter : α → Int} {y : α} :
    y ∈ released counter xs ↔ 1 ≤ counter y ∧ counter y ≤ xs.count y := by
  induction xs generalizing counter with
  | nil =>
      simp only [released, List.not_mem_nil, List.count_nil, false_iff]
      omega
  | cons x xs ih =>
      by_cases hyx : y = x
      · subst hyx
        simp only [released, List.count_cons_self]
        by_cases h0 : counter y - 1 = 0
        · rw [if_pos h0]
          simp only [List.mem_cons, true_or, true_iff]
          omega
        · rw [if_neg h0, ih]
          simp only [Function.update_self]
          omega
      · have hne : (Function.update counter x (counter x - 1)) y = counter y :=
          Function.update_of_ne hyx _ _
        simp only [released, List.count_cons_of_ne (Ne.symm hyx)]
        by_cases h0 : counter x - 1 = 0
        · rw [if_pos h0, List.mem_cons, ih, hne]
          simp [hyx]
        · rw [if_neg h0, ih, hne]

/-- No element is released twice. -/
theorem nodup_released {xs : List α} {counter : α → Int} : (released counter xs).Nodup := by
  induction xs generalizing counter with
  | nil => exact List.nodup_nil
  | cons x xs ih =>
      simp only [released]
      by_cases h0 : counter x - 1 = 0
      · rw [if_pos h0, List.nodup_cons]
        refine ⟨fun hmem => ?_, ih⟩
        rw [mem_released, Function.update_self] at hmem
        omega
      · rw [if_neg h0]
        exact ih

end Counters

end Nexus
