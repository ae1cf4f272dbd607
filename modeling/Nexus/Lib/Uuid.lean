import Mathlib.Data.List.Basic

/-!
# Texts of uuids

A pattern is a list of classes of characters, one for each character of a text. The texts of uuids
match a pattern that is given by the class of the digits, of the version and of the variant.
-/

set_option autoImplicit false

namespace Nexus

/-- The characters match the classes, from the first to the last. -/
def matchesPattern : List (Char → Bool) → List Char → Bool
  | [], [] => true
  | p :: pattern, c :: cs => p c && matchesPattern pattern cs
  | _, _ => false

/-- Every class of the first pattern is in the class of the second one at its place. -/
def Refines : List (Char → Bool) → List (Char → Bool) → Prop :=
  List.Forall₂ fun p q => ∀ c, p c = true → q c = true

section Patterns

variable {ps qs ps' qs' : List (Char → Bool)}

theorem refines_replicate {p q : Char → Bool} (h : ∀ c, p c = true → q c = true) (n : Nat) :
    Refines (List.replicate n p) (List.replicate n q) := by
  induction n with
  | zero => exact .nil
  | succ n ih => exact .cons h ih

theorem Refines.append (h : Refines ps qs) (h' : Refines ps' qs') :
    Refines (ps ++ ps') (qs ++ qs') := by
  induction h with
  | nil => exact h'
  | cons hp _ ih => exact .cons hp ih

theorem matchesPattern_of_refines (h : Refines ps qs) {cs : List Char}
    (hmatch : matchesPattern ps cs = true) : matchesPattern qs cs = true := by
  induction h generalizing cs with
  | nil => exact hmatch
  | cons hp _ ih =>
      cases cs with
      | nil => exact absurd hmatch (by simp [matchesPattern])
      | cons c cs =>
          simp only [matchesPattern, Bool.and_eq_true] at hmatch ⊢
          exact ⟨hp c hmatch.1, ih hmatch.2⟩

/-- A character that no class of the pattern has is not in a text that matches. -/
theorem not_mem_of_matchesPattern {c : Char} (h : ∀ p ∈ ps, p c = false) {cs : List Char}
    (hmatch : matchesPattern ps cs = true) : c ∉ cs := by
  induction ps generalizing cs with
  | nil =>
      cases cs with
      | nil => exact List.not_mem_nil
      | cons d cs => exact absurd hmatch (by simp [matchesPattern])
  | cons p ps ih =>
      cases cs with
      | nil => exact List.not_mem_nil
      | cons d cs =>
          simp only [matchesPattern, Bool.and_eq_true] at hmatch
          rw [List.mem_cons, not_or]
          refine ⟨?_, ih (fun q hq => h q (List.mem_cons_of_mem p hq)) hmatch.2⟩
          rintro rfl
          rw [h p List.mem_cons_self] at hmatch
          exact absurd hmatch.1 (by simp)

end Patterns

/-! ## Uuids -/

/-- The classes of the characters of a uuid. -/
def uuidPatternOf (digit version variant : Char → Bool) : List (Char → Bool) :=
  let hyphen : List (Char → Bool) := [fun c => c = '-']
  List.replicate 8 digit ++ hyphen ++ List.replicate 4 digit ++ hyphen ++
    ([version] ++ List.replicate 3 digit) ++ hyphen ++ ([variant] ++ List.replicate 3 digit) ++
    hyphen ++ List.replicate 12 digit

/-- `[0-9a-f]`. -/
def isLowerHexDigit (c : Char) : Bool := ('0' ≤ c && c ≤ '9') || ('a' ≤ c && c ≤ 'f')

/-- `[0-9a-f]`, without regard to case. -/
def isHexDigit (c : Char) : Bool :=
  ('0' ≤ c && c ≤ '9') || ('a' ≤ c && c ≤ 'f') || ('A' ≤ c && c ≤ 'F')

/-- The canonical text of a uuid of any version. -/
def isUuidText (text : String) : Bool :=
  matchesPattern (uuidPatternOf isLowerHexDigit isLowerHexDigit isLowerHexDigit) text.toList

/-- The canonical text of a version 4 uuid. -/
def isUuidV4 (text : String) : Bool :=
  matchesPattern
    (uuidPatternOf isLowerHexDigit (fun c => c = '4') fun c => c ∈ ['8', '9', 'a', 'b'])
    text.toList

section Uuids

variable {digit digit' version version' variant variant' : Char → Bool}

theorem refines_uuidPatternOf (hdigit : ∀ c, digit c = true → digit' c = true)
    (hversion : ∀ c, version c = true → version' c = true)
    (hvariant : ∀ c, variant c = true → variant' c = true) :
    Refines (uuidPatternOf digit version variant) (uuidPatternOf digit' version' variant') := by
  have hhyphen : Refines [fun c => c = '-'] [fun c => c = '-'] := .cons (fun _ h => h) .nil
  have hdigits := fun n => refines_replicate hdigit n
  have hversions : Refines ([version] ++ List.replicate 3 digit)
      ([version'] ++ List.replicate 3 digit') := .cons hversion (hdigits 3)
  have hvariants : Refines ([variant] ++ List.replicate 3 digit)
      ([variant'] ++ List.replicate 3 digit') := .cons hvariant (hdigits 3)
  exact ((((((((hdigits 8).append hhyphen).append (hdigits 4)).append hhyphen).append
    hversions).append hhyphen).append hvariants).append hhyphen).append (hdigits 12)

/-- The classes of a uuid pattern are the given ones and the hyphen. -/
theorem mem_uuidPatternOf {p : Char → Bool} (h : p ∈ uuidPatternOf digit version variant) :
    p = digit ∨ p = version ∨ p = variant ∨ p = fun c => c = '-' := by
  simp only [uuidPatternOf, List.mem_append, List.mem_singleton] at h
  have hreplicate : ∀ n, p ∈ List.replicate n digit → p = digit := fun n hp =>
    List.eq_of_mem_replicate hp
  rcases h with ((((((((h | h) | h) | h) | h | h) | h) | h | h) | h) | h) <;>
    first
      | exact .inl (hreplicate _ h)
      | exact .inr (.inl h)
      | exact .inr (.inr (.inl h))
      | exact .inr (.inr (.inr h))

/-- A character that neither the classes nor the hyphen have is not in the text. -/
theorem not_mem_of_uuid {c : Char} {cs : List Char} (hdigit : digit c = false)
    (hversion : version c = false) (hvariant : variant c = false) (hhyphen : c ≠ '-')
    (hmatch : matchesPattern (uuidPatternOf digit version variant) cs = true) : c ∉ cs := by
  apply not_mem_of_matchesPattern _ hmatch
  intro p hp
  rcases mem_uuidPatternOf hp with rfl | rfl | rfl | rfl
  · exact hdigit
  · exact hversion
  · exact hvariant
  · exact decide_eq_false hhyphen

end Uuids

end Nexus
