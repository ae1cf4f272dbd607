import Mathlib.Algebra.Order.Monoid.Unbundled.Basic
import Mathlib.Data.List.Basic

/-!
# Glob patterns

A pattern is a list of items: a letter that stands for itself, any one letter, any text. Which
letters the last two stand for is a parameter. A text that a pattern fits with all letters allowed
fits it with fewer exactly when the forbidden letters of the text are those of the pattern
(`fills_iff_of_fills`).
-/

set_option autoImplicit false

namespace Nexus.Glob

inductive Item (α : Type*) where
  | char (a : α)
  | one
  | many
  deriving DecidableEq, Repr

section Fills

variable {α : Type*} (allowed : α → Bool)

/-- The pattern fits the text, its wildcards standing for allowed letters. -/
inductive Fills : List (Item α) → List α → Prop
  | nil : Fills [] []
  | char {a : α} {items : List (Item α)} {text : List α} :
      Fills items text → Fills (.char a :: items) (a :: text)
  | one {a : α} {items : List (Item α)} {text : List α} :
      allowed a = true → Fills items text → Fills (.one :: items) (a :: text)
  | many {part : List α} {items : List (Item α)} {text : List α} :
      (∀ a ∈ part, allowed a = true) → Fills items text → Fills (.many :: items) (part ++ text)

/-- What is left of the text when a wildcard has taken a first part of it. -/
def remainders : List α → List (List α)
  | [] => [[]]
  | a :: text => (a :: text) :: if allowed a then remainders text else []

/-- The matcher. -/
def accepts [DecidableEq α] : List (Item α) → List α → Bool
  | [], text => text.isEmpty
  | .char a :: items, text =>
      match text with
      | [] => false
      | b :: rest => decide (a = b) && accepts items rest
  | .one :: items, text =>
      match text with
      | [] => false
      | b :: rest => allowed b && accepts items rest
  | .many :: items, text => (remainders allowed text).any (accepts items)

/-- The letters of a pattern that stand for themselves. -/
def letters : List (Item α) → List α
  | [] => []
  | .char a :: items => a :: letters items
  | .one :: items => letters items
  | .many :: items => letters items

variable {allowed} {items : List (Item α)} {text : List α} {a : α}

theorem fills_nil_iff : Fills allowed [] text ↔ text = [] := by
  constructor
  · rintro ⟨⟩
    rfl
  · rintro rfl
    exact .nil

theorem fills_char_iff : Fills allowed (.char a :: items) text ↔
    ∃ rest, text = a :: rest ∧ Fills allowed items rest := by
  constructor
  · rintro (_ | h)
    exact ⟨_, rfl, h⟩
  · rintro ⟨rest, rfl, h⟩
    exact .char h

theorem fills_one_iff : Fills allowed (.one :: items) text ↔
    ∃ b rest, text = b :: rest ∧ allowed b = true ∧ Fills allowed items rest := by
  constructor
  · rintro (_ | _ | ⟨hb, h⟩)
    exact ⟨_, _, rfl, hb, h⟩
  · rintro ⟨b, rest, rfl, hb, h⟩
    exact .one hb h

theorem fills_many_iff : Fills allowed (.many :: items) text ↔
    ∃ part rest, text = part ++ rest ∧ (∀ b ∈ part, allowed b = true) ∧
      Fills allowed items rest := by
  constructor
  · rintro (_ | _ | _ | ⟨hpart, h⟩)
    exact ⟨_, _, rfl, hpart, h⟩
  · rintro ⟨part, rest, rfl, hpart, h⟩
    exact .many hpart h

theorem mem_remainders {rest : List α} : rest ∈ remainders allowed text ↔
    ∃ part, text = part ++ rest ∧ ∀ b ∈ part, allowed b = true := by
  induction text with
  | nil =>
      rw [remainders, List.mem_singleton]
      constructor
      · rintro rfl
        exact ⟨[], rfl, by simp⟩
      · rintro ⟨part, htext, -⟩
        exact (List.append_eq_nil_iff.1 htext.symm).2
  | cons b text ih =>
      rw [remainders, List.mem_cons]
      constructor
      · rintro (rfl | hrest)
        · exact ⟨[], rfl, by simp⟩
        · split at hrest
          · rename_i hb
            obtain ⟨part, rfl, hpart⟩ := ih.1 hrest
            exact ⟨b :: part, rfl, List.forall_mem_cons.2 ⟨hb, hpart⟩⟩
          · cases hrest
      · rintro ⟨part, htext, hpart⟩
        cases part with
        | nil => exact .inl htext.symm
        | cons first part =>
            obtain ⟨rfl, rfl⟩ := List.cons.inj htext
            obtain ⟨hb, hpart⟩ := List.forall_mem_cons.1 hpart
            rw [if_pos hb]
            exact .inr (ih.2 ⟨part, rfl, hpart⟩)

/-- The matcher decides whether the pattern fits. -/
theorem accepts_iff [DecidableEq α] :
    accepts allowed items text = true ↔ Fills allowed items text := by
  induction items generalizing text with
  | nil => rw [accepts, List.isEmpty_iff, fills_nil_iff]
  | cons item items ih =>
      cases item with
      | char a =>
          rw [fills_char_iff]
          cases text with
          | nil => simp [accepts]
          | cons b rest =>
              rw [accepts, Bool.and_eq_true, decide_eq_true_iff, ih]
              constructor
              · rintro ⟨rfl, h⟩
                exact ⟨rest, rfl, h⟩
              · rintro ⟨_, heq, h⟩
                obtain ⟨rfl, rfl⟩ := List.cons.inj heq
                exact ⟨rfl, h⟩
      | one =>
          rw [fills_one_iff]
          cases text with
          | nil => simp [accepts]
          | cons b rest => simp [accepts, ih]
      | many =>
          rw [fills_many_iff, accepts, List.any_eq_true]
          simp only [mem_remainders, ih]
          constructor
          · rintro ⟨rest, ⟨part, htext, hpart⟩, h⟩
            exact ⟨part, rest, htext, hpart, h⟩
          · rintro ⟨part, rest, htext, hpart, h⟩
            exact ⟨rest, ⟨part, htext, hpart⟩, h⟩

theorem Fills.mono {allowed' : α → Bool} (hsub : ∀ a, allowed a = true → allowed' a = true)
    (h : Fills allowed items text) : Fills allowed' items text := by
  induction h with
  | nil => exact .nil
  | char _ ih => exact .char ih
  | one ha _ ih => exact .one (hsub _ ha) ih
  | many hpart _ ih => exact .many (fun a ha => hsub a (hpart a ha)) ih

/-- A pattern of letters fits itself only. -/
theorem fills_letters_iff {word : List α} :
    Fills allowed (word.map .char) text ↔ text = word := by
  induction word generalizing text with
  | nil => exact fills_nil_iff
  | cons a word ih =>
      rw [List.map_cons, fills_char_iff]
      constructor
      · rintro ⟨rest, rfl, h⟩
        rw [ih.1 h]
      · rintro rfl
        exact ⟨word, rfl, ih.2 rfl⟩

variable {any : α → Bool}

/-- Every forbidden letter of the pattern is in the text. -/
theorem countP_letters_le (h : Fills any items text) (p : α → Bool) :
    (letters items).countP p ≤ text.countP p := by
  induction h with
  | nil => exact Nat.le_refl _
  | char _ ih =>
      rw [letters, List.countP_cons, List.countP_cons]
      exact Nat.add_le_add_right ih _
  | one _ _ ih =>
      rw [letters, List.countP_cons]
      exact Nat.le_add_right_of_le ih
  | many _ _ ih =>
      rw [letters, List.countP_append]
      exact Nat.le_add_left_of_le ih

/-- What the wildcards stand for has no forbidden letter, so those of the text are the pattern's. -/
theorem Fills.countP_eq (h : Fills allowed items text) :
    text.countP (fun a => !allowed a) = (letters items).countP fun a => !allowed a := by
  induction h with
  | nil => rfl
  | char _ ih => rw [letters, List.countP_cons, List.countP_cons, ih]
  | one ha _ ih =>
      rw [letters, List.countP_cons_of_neg (by simp [ha]), ih]
  | @many part _ _ hpart _ ih =>
      have hnone : part.countP (fun a => !allowed a) = 0 := by
        rw [List.countP_eq_zero]
        intro a ha
        simp [hpart a ha]
      rw [letters, List.countP_append, ih, hnone, Nat.zero_add]

/-- A text with no more forbidden letters than the pattern leaves none to the wildcards. -/
theorem Fills.restrict (h : Fills any items text)
    (hcount : text.countP (fun a => !allowed a) ≤ (letters items).countP fun a => !allowed a) :
    Fills allowed items text := by
  induction h with
  | nil => exact .nil
  | char _ ih =>
      rw [letters, List.countP_cons, List.countP_cons] at hcount
      exact .char (ih (Nat.le_of_add_le_add_right hcount))
  | @one a items text _ hrest ih =>
      have hle := countP_letters_le hrest fun a => !allowed a
      rw [letters, List.countP_cons] at hcount
      cases ha : allowed a with
      | true => exact .one ha (ih (Nat.le_trans (Nat.le_add_right _ _) hcount))
      | false =>
          rw [if_pos (by simp [ha])] at hcount
          omega
  | @many part items text _ hrest ih =>
      have hle := countP_letters_le hrest fun a => !allowed a
      rw [letters, List.countP_append] at hcount
      refine .many (fun a ha => ?_) (ih (by omega))
      have hzero : part.countP (fun a => !allowed a) = 0 := by omega
      simpa using List.countP_eq_zero.1 hzero a ha

/-- **Fewer letters for the wildcards.** A text that the pattern fits with some letters allowed fits
it with others exactly when it has as many letters that these forbid as the pattern. -/
theorem fills_iff_of_fills (h : Fills any items text) :
    Fills allowed items text ↔
      text.countP (fun a => !allowed a) = (letters items).countP fun a => !allowed a := by
  constructor
  · exact Fills.countP_eq
  · intro hcount
    exact h.restrict hcount.le

theorem fills_append_iff {items' : List (Item α)} : Fills allowed (items ++ items') text ↔
    ∃ part rest, text = part ++ rest ∧ Fills allowed items part ∧ Fills allowed items' rest := by
  induction items generalizing text with
  | nil =>
      constructor
      · intro h
        exact ⟨[], text, rfl, .nil, h⟩
      · rintro ⟨part, rest, rfl, hpart, hrest⟩
        rw [fills_nil_iff.1 hpart]
        exact hrest
  | cons item items ih =>
      cases item with
      | char a =>
          rw [List.cons_append, fills_char_iff]
          constructor
          · rintro ⟨_, rfl, h⟩
            obtain ⟨part, rest, rfl, hpart, hrest⟩ := ih.1 h
            exact ⟨a :: part, rest, rfl, .char hpart, hrest⟩
          · rintro ⟨_, rest, rfl, hpart, hrest⟩
            obtain ⟨taken, rfl, htaken⟩ := fills_char_iff.1 hpart
            exact ⟨taken ++ rest, rfl, ih.2 ⟨taken, rest, rfl, htaken, hrest⟩⟩
      | one =>
          rw [List.cons_append, fills_one_iff]
          constructor
          · rintro ⟨b, _, rfl, hb, h⟩
            obtain ⟨part, rest, rfl, hpart, hrest⟩ := ih.1 h
            exact ⟨b :: part, rest, rfl, .one hb hpart, hrest⟩
          · rintro ⟨_, rest, rfl, hpart, hrest⟩
            obtain ⟨b, taken, rfl, hb, htaken⟩ := fills_one_iff.1 hpart
            exact ⟨b, taken ++ rest, rfl, hb, ih.2 ⟨taken, rest, rfl, htaken, hrest⟩⟩
      | many =>
          rw [List.cons_append, fills_many_iff]
          constructor
          · rintro ⟨taken, _, rfl, htaken, h⟩
            obtain ⟨part, rest, rfl, hpart, hrest⟩ := ih.1 h
            refine ⟨taken ++ part, rest, by rw [List.append_assoc], .many htaken hpart, hrest⟩
          · rintro ⟨_, rest, rfl, hpart, hrest⟩
            obtain ⟨taken, left, rfl, htaken, hleft⟩ := fills_many_iff.1 hpart
            exact ⟨taken, left ++ rest, by rw [List.append_assoc], htaken,
              ih.2 ⟨left, rest, rfl, hleft, hrest⟩⟩

theorem letters_append (items items' : List (Item α)) :
    letters (items ++ items') = letters items ++ letters items' := by
  induction items with
  | nil => rfl
  | cons item items ih =>
      cases item with
      | char a => simp [letters, ih]
      | one => simpa [letters] using ih
      | many => simpa [letters] using ih

end Fills

end Nexus.Glob
