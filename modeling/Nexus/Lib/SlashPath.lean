import Mathlib.Data.List.Basic
import Mathlib.Data.List.DropRight

/-!
# Paths of segments between slashes

A path is a text whose segments stand between slashes. `child` appends a segment, `render` a list of
them, `segments` reads them back, and `trimSlashes` removes the slashes at both ends. Segments that
are plain, not empty and without a slash, survive the way there and back.
-/

set_option autoImplicit false

namespace Nexus

namespace SlashPath

/-- A segment that a path keeps as it is. -/
def IsPlain (segment : String) : Prop := segment ≠ "" ∧ '/' ∉ segment.toList

instance (segment : String) : Decidable (IsPlain segment) :=
  inferInstanceAs (Decidable (_ ∧ _))

/-- The path of a segment below another path; `/` is the root. -/
def child (parent segment : String) : String :=
  if parent = "/" then "/" ++ segment else parent ++ "/" ++ segment

def render (base : String) (segments : List String) : String := segments.foldl child base

/-- The segments of a path that are not empty. -/
def segments (path : String) : List String :=
  ((path.toList.splitOn '/').filter fun cs => cs ≠ []).map String.ofList

/-- `path.replace(/^\/+|\/+$/g, '')`. -/
def trimSlashes (path : String) : String :=
  String.ofList ((path.toList.dropWhile fun c => c = '/').rdropWhile fun c => c = '/')

section Child

variable {p q s : String} {slugs : List String}

theorem toList_child :
    (child p s).toList = (if p = "/" then [] else p.toList) ++ '/' :: s.toList := by
  unfold child
  split
  · simp [String.toList_append]
  · simp [String.toList_append]

theorem child_root : child "/" s = "/" ++ s := if_pos rfl

theorem child_ne_empty : child p s ≠ "" := by
  intro h
  have hlist := congrArg String.toList h
  rw [toList_child] at hlist
  simp at hlist

/-- The parent of a path can be read off the path. -/
theorem child_left_inj (hp : p ≠ "") (hq : q ≠ "") : child p s = child q s ↔ p = q := by
  constructor
  · intro h
    have hlist := congrArg String.toList h
    rw [toList_child, toList_child] at hlist
    have hbase := List.append_cancel_right hlist
    split at hbase
    · split at hbase
      · rename_i h₁ h₂
        rw [h₁, h₂]
      · exact absurd (String.toList_injective hbase.symm) hq
    · split at hbase
      · exact absurd (String.toList_injective hbase) hp
      · exact String.toList_injective hbase
  · rintro rfl
    rfl

theorem render_ne_empty (hp : p ≠ "") : render p slugs ≠ "" := by
  induction slugs generalizing p with
  | nil => exact hp
  | cons s slugs ih => exact ih child_ne_empty

theorem render_left_inj (hp : p ≠ "") (hq : q ≠ "") :
    render p slugs = render q slugs ↔ p = q := by
  induction slugs generalizing p q with
  | nil => exact Iff.rfl
  | cons s slugs ih => exact (ih child_ne_empty child_ne_empty).trans (child_left_inj hp hq)

/-- A path below a path that starts with a slash starts with one. -/
theorem head_render (hp : p.toList.head? = some '/') :
    (render p slugs).toList.head? = some '/' := by
  induction slugs generalizing p with
  | nil => exact hp
  | cons s slugs ih =>
      apply ih
      rw [toList_child]
      split
      · rfl
      · rw [List.head?_append, hp]
        rfl

theorem render_append {slugs' : List String} :
    render p (slugs ++ slugs') = render (render p slugs) slugs' := List.foldl_append

theorem render_snoc : render p (slugs ++ [s]) = child (render p slugs) s := render_append

end Child

section Segments

variable {p s : String} {slugs : List String}

theorem segments_of_plain (h : IsPlain s) : segments s = [s] := by
  have hne : s.toList ≠ [] := fun hnil => h.1 (String.toList_injective hnil)
  simp [segments, List.splitOn_eq_singleton h.2, hne]

@[simp] theorem segments_root : segments "/" = [] := by decide +kernel

@[simp] theorem segments_empty : segments "" = [] := by decide +kernel

theorem segments_append_slash (cs ds : List Char) :
    segments (String.ofList (cs ++ '/' :: ds)) =
      segments (String.ofList cs) ++ segments (String.ofList ds) := by
  simp only [segments, String.toList_ofList]
  rw [List.splitOn_append_cons_self, List.filter_append, List.map_append]

/-- A plain segment is the last one of its path. -/
theorem segments_child (h : IsPlain s) : segments (child p s) = segments p ++ [s] := by
  have hlist : child p s = String.ofList ((if p = "/" then [] else p.toList) ++ '/' :: s.toList) := by
    rw [← toList_child, String.ofList_toList]
  rw [hlist, segments_append_slash, String.ofList_toList, segments_of_plain h]
  split
  · rename_i hp
    rw [hp, segments_root]
    rfl
  · rw [String.ofList_toList]

theorem segments_render (h : ∀ s ∈ slugs, IsPlain s) :
    segments (render p slugs) = segments p ++ slugs := by
  induction slugs generalizing p with
  | nil => exact (List.append_nil _).symm
  | cons s slugs ih =>
      change segments (render (child p s) slugs) = _
      rw [ih fun t ht => h t (List.mem_cons_of_mem s ht), segments_child (h s List.mem_cons_self),
        List.append_assoc, List.singleton_append]

theorem not_mem_of_mem_splitOn {cs part : List Char} (h : part ∈ cs.splitOn '/') :
    '/' ∉ part := by
  induction cs generalizing part with
  | nil =>
      obtain rfl : part = [] := by simpa using h
      exact List.not_mem_nil
  | cons c cs ih =>
      rw [List.splitOn_cons_eq_if_modifyHead] at h
      split at h
      · rcases List.mem_cons.mp h with rfl | hrest
        · exact List.not_mem_nil
        · exact ih hrest
      · rename_i hc
        cases hsplit : cs.splitOn '/' with
        | nil => exact absurd hsplit (List.splitOn_ne_nil _ _)
        | cons first rest =>
            rw [hsplit, List.modifyHead_cons] at h
            rcases List.mem_cons.mp h with rfl | hrest
            · have hfirst := ih (hsplit ▸ List.mem_cons_self)
              intro hmem
              rcases List.mem_cons.mp hmem with heq | hmem
              · exact hc (by simp [← heq])
              · exact hfirst hmem
            · exact ih (hsplit ▸ List.mem_cons_of_mem first hrest)

/-- What is read off a path is plain. -/
theorem plain_of_mem_segments (h : s ∈ segments p) : IsPlain s := by
  obtain ⟨cs, hcs, rfl⟩ := List.mem_map.mp h
  obtain ⟨hsplit, hne⟩ := List.mem_filter.mp hcs
  refine ⟨fun hempty => ?_, ?_⟩
  · have hnil := congrArg String.toList hempty
    rw [String.toList_ofList] at hnil
    exact absurd hne (by simp [hnil])
  · rw [String.toList_ofList]
    exact not_mem_of_mem_splitOn hsplit

theorem segments_dropWhile (cs : List Char) :
    segments (String.ofList (cs.dropWhile fun c => c = '/')) = segments (String.ofList cs) := by
  induction cs with
  | nil => rfl
  | cons c cs ih =>
      by_cases hc : c = '/'
      · subst hc
        rw [List.dropWhile_cons_of_pos (by simp), ih]
        have := segments_append_slash [] cs
        simpa using this.symm
      · rw [List.dropWhile_cons_of_neg (by simpa using hc)]

theorem segments_rdropWhile (cs : List Char) :
    segments (String.ofList (cs.rdropWhile fun c => c = '/')) = segments (String.ofList cs) := by
  induction cs using List.reverseRecOn with
  | nil => rfl
  | append_singleton cs c ih =>
      by_cases hc : c = '/'
      · subst hc
        rw [List.rdropWhile_concat_pos _ _ _ (by simp), ih, segments_append_slash]
        simp
      · rw [List.rdropWhile_concat_neg _ _ _ (by simpa using hc)]

/-- The slashes at the ends do not separate anything. -/
theorem segments_trimSlashes : segments (trimSlashes p) = segments p := by
  rw [trimSlashes, segments_rdropWhile, segments_dropWhile, String.ofList_toList]

end Segments

end SlashPath

end Nexus
