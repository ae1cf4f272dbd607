import Mathlib.Data.List.Basic

/-!
# Parts between separators

The parts of a list between the occurrences of a separator, `List.splitOn`, and what tests for
prefixes, suffixes and infixes with separators say about them: `dir/` at the start names the first
part, `/name` at the end the last one, and `/dir/` one in between.
-/

set_option autoImplicit false

namespace Nexus

namespace Parts

variable {α : Type} {sep : α}

variable {parts : List (List α)}

theorem intercalate_append {rest : List (List α)} (hparts : parts ≠ []) (hrest : rest ≠ []) :
    [sep].intercalate (parts ++ rest) =
      [sep].intercalate parts ++ sep :: [sep].intercalate rest := by
  induction parts with
  | nil => exact absurd rfl hparts
  | cons part parts ih =>
      cases parts with
      | nil =>
          rw [List.singleton_append, List.intercalate_cons_of_ne_nil hrest,
            List.intercalate_singleton, List.append_assoc]
          rfl
      | cons next parts =>
          rw [List.cons_append, List.intercalate_cons_of_ne_nil (List.append_ne_nil_of_left_ne_nil
              (List.cons_ne_nil _ _) _), ih (List.cons_ne_nil _ _),
            List.intercalate_cons_of_ne_nil (List.cons_ne_nil next parts), List.append_assoc,
            List.append_assoc, List.append_assoc]

/-- What stands between the separators comes out of the parts. -/
theorem mem_intercalate {c : α} (h : c ∈ [sep].intercalate parts) :
    c = sep ∨ ∃ part ∈ parts, c ∈ part := by
  induction parts with
  | nil => cases h
  | cons part parts ih =>
      cases parts with
      | nil =>
          rw [List.intercalate_singleton] at h
          exact .inr ⟨part, List.mem_cons_self, h⟩
      | cons next parts =>
          rw [List.intercalate_cons_of_ne_nil (List.cons_ne_nil _ _), List.mem_append,
            List.mem_append, List.mem_singleton] at h
          rcases h with (h | h) | h
          · exact .inr ⟨part, List.mem_cons_self, h⟩
          · exact .inl h
          · rcases ih h with h | ⟨part', hpart', h⟩
            · exact .inl h
            · exact .inr ⟨part', List.mem_cons_of_mem _ hpart', h⟩

variable {part : List α}

/-- A part stands between the separators with all it has. -/
theorem subset_intercalate (h : part ∈ parts) : part ⊆ [sep].intercalate parts := by
  induction parts with
  | nil => cases h
  | cons first parts ih =>
      cases parts with
      | nil =>
          rw [List.mem_singleton.1 h, List.intercalate_singleton]
          exact List.Subset.refl _
      | cons next parts =>
          rw [List.intercalate_cons_of_ne_nil (List.cons_ne_nil _ _), List.append_assoc]
          rcases List.mem_cons.1 h with rfl | h
          · exact List.subset_append_left _ _
          · exact List.subset_append_of_subset_right _ (List.subset_append_of_subset_right _ (ih h))

variable [BEq α] [LawfulBEq α] {xs dir : List α}

/-- A list is its parts put together. -/
theorem intercalate_parts (sep : α) (xs : List α) : [sep].intercalate (xs.splitOn sep) = xs :=
  List.intercalate_splitOn sep

theorem splitOn_append_sep (xs ys : List α) :
    (xs ++ sep :: ys).splitOn sep = xs.splitOn sep ++ ys.splitOn sep :=
  List.splitOn_append_cons_self xs ys

theorem subset_of_mem_splitOn (h : part ∈ xs.splitOn sep) : part ⊆ xs := by
  have hsub : part ⊆ [sep].intercalate (xs.splitOn sep) := subset_intercalate h
  rwa [intercalate_parts] at hsub

/-- No separator stands in a part. -/
theorem sep_notMem_of_mem_splitOn (h : part ∈ xs.splitOn sep) : sep ∉ part := by
  induction xs generalizing part with
  | nil =>
      rw [List.splitOn_nil, List.mem_singleton] at h
      simp [h]
  | cons x xs ih =>
      rw [List.splitOn_cons_eq_if_modifyHead] at h
      split at h
      · rcases List.mem_cons.1 h with rfl | h
        · exact List.not_mem_nil
        · exact ih h
      · rename_i hx
        cases hparts : xs.splitOn sep with
        | nil => exact absurd hparts (List.splitOn_ne_nil _ _)
        | cons first rest =>
            rw [hparts] at h ih
            rcases List.mem_cons.1 h with rfl | h
            · rw [List.mem_cons, not_or]
              exact ⟨fun heq => hx (by simp [heq]), ih List.mem_cons_self⟩
            · exact ih (List.mem_cons_of_mem _ h)

/-- A list is determined by its parts. -/
theorem splitOn_injective : Function.Injective fun xs : List α => xs.splitOn sep := by
  intro xs ys h
  rw [← intercalate_parts sep xs, ← intercalate_parts sep ys]
  exact congrArg [sep].intercalate h

/-- `xs.endsWith('/' + dir)`. -/
theorem isSuffix_iff (hdir : sep ∉ dir) :
    sep :: dir <:+ xs ↔ ∃ init, init ≠ [] ∧ xs.splitOn sep = init ++ [dir] := by
  constructor
  · rintro ⟨front, rfl⟩
    exact ⟨front.splitOn sep, List.splitOn_ne_nil _ _, by
      rw [splitOn_append_sep, List.splitOn_eq_singleton hdir]⟩
  · rintro ⟨init, hinit, hparts⟩
    refine ⟨[sep].intercalate init, ?_⟩
    rw [← intercalate_parts sep xs, hparts, intercalate_append hinit (by simp),
      List.intercalate_singleton]

/-- `xs.startsWith(dir + '/')`. -/
theorem isPrefix_iff (hdir : sep ∉ dir) :
    dir ++ [sep] <+: xs ↔ ∃ rest, rest ≠ [] ∧ xs.splitOn sep = dir :: rest := by
  constructor
  · rintro ⟨back, rfl⟩
    refine ⟨back.splitOn sep, List.splitOn_ne_nil _ _, ?_⟩
    rw [List.append_assoc, List.singleton_append, splitOn_append_sep,
      List.splitOn_eq_singleton hdir]
    rfl
  · rintro ⟨rest, hrest, hparts⟩
    refine ⟨[sep].intercalate rest, ?_⟩
    rw [← intercalate_parts sep xs, hparts,
      List.intercalate_cons_of_ne_nil hrest, List.append_assoc]

/-- `xs.includes('/' + dir + '/')`. -/
theorem isInfix_iff (hdir : sep ∉ dir) :
    sep :: dir ++ [sep] <:+: xs ↔
      ∃ init rest, init ≠ [] ∧ rest ≠ [] ∧ xs.splitOn sep = init ++ dir :: rest := by
  constructor
  · rintro ⟨front, back, rfl⟩
    refine ⟨front.splitOn sep, back.splitOn sep, List.splitOn_ne_nil _ _,
      List.splitOn_ne_nil _ _, ?_⟩
    have hlist : front ++ (sep :: dir ++ [sep]) ++ back = front ++ sep :: (dir ++ sep :: back) := by
      simp
    rw [hlist, splitOn_append_sep, splitOn_append_sep, List.splitOn_eq_singleton hdir]
    rfl
  · rintro ⟨init, rest, hinit, hrest, hparts⟩
    refine ⟨[sep].intercalate init, [sep].intercalate rest, ?_⟩
    rw [← intercalate_parts sep xs, hparts, intercalate_append hinit (by simp),
      List.intercalate_cons_of_ne_nil hrest]
    simp

/-! ## Texts put together -/

omit [LawfulBEq α] in
/-- There is one part more than there are separators. -/
theorem length_splitOn (sep : α) (xs : List α) : (xs.splitOn sep).length = xs.count sep + 1 := by
  induction xs with
  | nil => simp
  | cons x xs ih =>
      rw [List.splitOn_cons_eq_if_modifyHead, List.count_cons]
      split
      · rw [List.length_cons, ih]
      · rw [List.length_modifyHead, ih, Nat.add_zero]

/-- The parts of lists put together are their parts one after the other. -/
theorem splitOn_intercalate (hne : parts ≠ []) :
    ([sep].intercalate parts).splitOn sep = parts.flatMap fun part => part.splitOn sep := by
  induction parts with
  | nil => exact absurd rfl hne
  | cons part parts ih =>
      cases parts with
      | nil => simp
      | cons next parts =>
          rw [List.intercalate_cons_of_ne_nil (List.cons_ne_nil _ _), List.append_assoc,
            List.singleton_append, splitOn_append_sep, ih (List.cons_ne_nil _ _)]
          rfl

/-- Lists with the same parts in all and as many separators each are the same. -/
theorem eq_of_flatMap_splitOn {parts' : List (List α)}
    (hcount : parts.map (List.count sep) = parts'.map (List.count sep))
    (h : (parts.flatMap fun part => part.splitOn sep) = parts'.flatMap fun part => part.splitOn
      sep) : parts = parts' := by
  induction parts generalizing parts' with
  | nil =>
      rw [List.map_nil] at hcount
      exact (List.map_eq_nil_iff.1 hcount.symm).symm
  | cons part parts ih =>
      cases parts' with
      | nil => simp at hcount
      | cons part' parts' =>
          rw [List.map_cons, List.map_cons, List.cons.injEq] at hcount
          rw [List.flatMap_cons, List.flatMap_cons] at h
          have hlength : (part.splitOn sep).length = (part'.splitOn sep).length := by
            rw [length_splitOn, length_splitOn, hcount.1]
          obtain ⟨hfirst, hrest⟩ := List.append_inj h hlength
          rw [splitOn_injective hfirst, ih hcount.2 hrest]

end Parts

end Nexus
