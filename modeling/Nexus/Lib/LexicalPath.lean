import Nexus.Lib.PosixPath
import Mathlib.Data.Set.Finite.Basic

/-!
# Paths without a directory

What the text of a path says before it is known where it is followed from. A relative path leads
some directories up and then along names, a path from the root only along names (`LexicalPath`).
`resolveLexically` reads this off the names of a path, and `enter_eq_place` says that it is what
following the path from any directory comes to.

A path is at or above another one when this is so for their places, wherever the two are followed
from (`IsAtOrAbove`); `isAtOrAbove_iff` decides it on the numbers of steps up and the names.
-/

set_option autoImplicit false

namespace Nexus

namespace PosixPath

section Replicate

variable {α : Type} {x : α} {ys zs : List α}

/-- Lists that start with copies of an element that is not in the rest of them. -/
theorem replicate_append_isPrefix_iff (hys : x ∉ ys) (hzs : x ∉ zs) {m n : Nat} :
    List.replicate m x ++ ys <+: List.replicate n x ++ zs ↔
      (m = n ∧ ys <+: zs) ∨ (m < n ∧ ys = []) := by
  induction m generalizing n with
  | zero =>
      cases n with
      | zero => simp
      | succ n =>
          cases ys with
          | nil => simp
          | cons y ys =>
              have hne : y ≠ x := fun h => hys (h ▸ List.mem_cons_self)
              simp [List.replicate_succ, List.cons_prefix_cons, hne]
  | succ m ih =>
      cases n with
      | zero =>
          have hnot : ¬ x :: (List.replicate m x ++ ys) <+: zs := fun h =>
            hzs (h.subset List.mem_cons_self)
          simpa [List.replicate_succ] using hnot
      | succ n => simpa [List.replicate_succ, List.cons_prefix_cons] using ih

end Replicate

/-! ## Lexical resolution -/

/-- Steps up and the names after them. A path from the root has no steps up. -/
structure LexicalPath where
  rooted : Bool
  ups : Nat
  names : List String
  ups_rooted : rooted = true → ups = 0
  isPlace : IsPlace names

/-- One name more; `..` takes a name back where there is one. -/
def climb (rooted : Bool) (path : Nat × List String) (name : String) : Nat × List String :=
  if name = "" ∨ name = "." then path
  else if name = ".." then
    if path.2 ≠ [] then (path.1, path.2.dropLast)
    else if rooted then path
    else (path.1 + 1, [])
  else (path.1, path.2 ++ [name])

variable {rooted : Bool} {path : Nat × List String}

theorem climb_valid {name : String} (hups : rooted = true → path.1 = 0) (hplace : IsPlace path.2)
    (hname : '/' ∉ name.toList) :
    (rooted = true → (climb rooted path name).1 = 0) ∧ IsPlace (climb rooted path name).2 := by
  unfold climb
  split
  · exact ⟨hups, hplace⟩
  · rename_i hstay
    split
    · split
      · exact ⟨hups, hplace.dropLast⟩
      · split
        · exact ⟨hups, hplace⟩
        · rename_i hrooted
          exact ⟨fun h => absurd h hrooted, isPlace_root⟩
    · rename_i hup
      rw [not_or] at hstay
      exact ⟨hups, hplace.concat ⟨hstay.1, hstay.2, hup, hname⟩⟩

theorem foldl_climb_valid {parts : List String} (hups : rooted = true → path.1 = 0)
    (hplace : IsPlace path.2) (hparts : ∀ name ∈ parts, '/' ∉ name.toList) :
    (rooted = true → (parts.foldl (climb rooted) path).1 = 0) ∧
      IsPlace (parts.foldl (climb rooted) path).2 := by
  induction parts generalizing path with
  | nil => exact ⟨hups, hplace⟩
  | cons name parts ih =>
      have hstep := climb_valid hups hplace (hparts name List.mem_cons_self)
      exact ih hstep.1 hstep.2 fun name' hname' => hparts name' (List.mem_cons_of_mem _ hname')

/-- The steps up and the names that a path comes to. -/
def climbed (path : String) : Nat × List String :=
  (names path).foldl (climb (isAbsolute path)) (0, [])

theorem climbed_valid (path : String) :
    (isAbsolute path = true → (climbed path).1 = 0) ∧ IsPlace (climbed path).2 :=
  foldl_climb_valid (fun _ => rfl) isPlace_root fun _ hname => slash_notMem_of_mem_names hname

def resolveLexically (path : String) : LexicalPath where
  rooted := isAbsolute path
  ups := (climbed path).1
  names := (climbed path).2
  ups_rooted := (climbed_valid path).1
  isPlace := (climbed_valid path).2

/-- Where the path leads from a directory. -/
def LexicalPath.place (p : LexicalPath) (dir : List String) : List String :=
  (if p.rooted then [] else dir.rdrop p.ups) ++ p.names

theorem rdrop_succ (dir : List String) (n : Nat) : dir.rdrop (n + 1) = (dir.rdrop n).dropLast := by
  rw [List.rdrop, List.rdrop, List.dropLast_eq_take, List.length_take, List.take_take]
  congr 1
  omega

/-- A name is followed in the same way before and after the directory is known. -/
theorem follow_climbed (dir : List String) (name : String) :
    follow ((if rooted then [] else dir.rdrop path.1) ++ path.2) name =
      (if rooted then [] else dir.rdrop (climb rooted path name).1) ++
        (climb rooted path name).2 := by
  unfold follow climb
  by_cases hstay : name = "" ∨ name = "."
  · rw [if_pos hstay, if_pos hstay]
  · rw [if_neg hstay, if_neg hstay]
    by_cases hup : name = ".."
    · rw [if_pos hup, if_pos hup]
      by_cases hnames : path.2 = []
      · rw [if_neg (not_not.2 hnames), hnames, List.append_nil]
        cases rooted with
        | true => simp [hnames]
        | false => simp [rdrop_succ]
      · rw [if_pos hnames, List.dropLast_append_of_ne_nil hnames]
    · rw [if_neg hup, if_neg hup, List.append_assoc]

/-- A path leads from a directory to where its lexical form leads. -/
theorem enter_eq_place (dir : List String) (path : String) :
    enter dir path = (resolveLexically path).place dir := by
  have hfold : ∀ (parts : List String) (start : Nat × List String),
      parts.foldl follow ((if isAbsolute path then [] else dir.rdrop start.1) ++ start.2) =
        (if isAbsolute path then [] else
            dir.rdrop (parts.foldl (climb (isAbsolute path)) start).1) ++
          (parts.foldl (climb (isAbsolute path)) start).2 := by
    intro parts
    induction parts with
    | nil => exact fun _ => rfl
    | cons name parts ih =>
        intro start
        rw [List.foldl_cons, List.foldl_cons, follow_climbed, ih]
  have hpath := hfold (names path) (0, [])
  rw [List.append_nil, List.rdrop_zero] at hpath
  exact hpath

/-! ## Ancestors -/

/-- The path leads to a directory at or above the place of the other path, wherever the two are
followed from. A path from the root and a relative one have nothing to do with each other. -/
def IsAtOrAbove (g q : String) : Prop :=
  isAbsolute g = isAbsolute q ∧ ∀ dir, IsPlace dir → enter dir g <+: enter dir q

/-- `IsAtOrAbove` on the lexical forms. -/
def LexicalPath.IsAtOrAbove (g q : LexicalPath) : Prop :=
  g.rooted = q.rooted ∧
    ((g.ups = q.ups ∧ g.names <+: q.names) ∨ (q.ups < g.ups ∧ g.names = []))

instance (g q : LexicalPath) : Decidable (g.IsAtOrAbove q) := inferInstanceAs (Decidable (_ ∧ _))

/-- There is a name that is not in a list. -/
theorem exists_fresh_name (taken : List String) : ∃ name, IsName name ∧ name ∉ taken := by
  let candidate (n : Nat) : String := String.ofList (List.replicate (n + 1) 'a')
  have hinjective : Function.Injective candidate := by
    intro m n h
    have hlength := congrArg (fun s => s.toList.length) h
    simpa [candidate] using hlength
  obtain ⟨name, ⟨n, rfl⟩, hfresh⟩ :=
    (Set.infinite_range_of_injective hinjective).exists_notMem_finset taken.toFinset
  have hchars : ∀ c ∈ (candidate n).toList, c = 'a' := fun c hc => by
    rw [String.toList_ofList] at hc
    exact List.eq_of_mem_replicate hc
  have hmem : 'a' ∈ (candidate n).toList := by simp [candidate]
  refine ⟨candidate n, ⟨?_, ?_, ?_, fun h => nomatch hchars _ h⟩,
    fun h => hfresh (List.mem_toFinset.2 h)⟩ <;>
  · intro h
    rw [h] at hmem
    simp at hmem

theorem isAtOrAbove_iff (g q : String) :
    IsAtOrAbove g q ↔ (resolveLexically g).IsAtOrAbove (resolveLexically q) := by
  generalize hg : resolveLexically g = G
  generalize hq : resolveLexically q = Q
  have hrooted : isAbsolute g = G.rooted ∧ isAbsolute q = Q.rooted := ⟨hg ▸ rfl, hq ▸ rfl⟩
  simp only [IsAtOrAbove, LexicalPath.IsAtOrAbove, enter_eq_place, hg, hq, hrooted.1, hrooted.2]
  refine and_congr_right fun hsame => ?_
  unfold LexicalPath.place
  rw [hsame]
  cases hQ : Q.rooted with
  | true =>
      -- from the root there are no steps up, and the directory does not matter
      rw [G.ups_rooted (hsame.trans hQ), Q.ups_rooted hQ]
      simpa using ⟨fun h => h [] isPlace_root, fun h _ _ => h⟩
  | false =>
      simp only [Bool.false_eq_true, if_false]
      constructor
      · intro habove
        -- a deep directory whose names are in neither path
        obtain ⟨x, hx, hfresh⟩ := exists_fresh_name (G.names ++ Q.names)
        rw [List.mem_append, not_or] at hfresh
        have hdir : IsPlace (List.replicate (G.ups + Q.ups) x) := fun name hname => by
          rw [List.eq_of_mem_replicate hname]
          exact hx
        have hprefixed := habove _ hdir
        rw [List.rdrop, List.rdrop, List.take_replicate, List.take_replicate,
          replicate_append_isPrefix_iff hfresh.1 hfresh.2, List.length_replicate] at hprefixed
        rcases hprefixed with ⟨heq, hnames⟩ | ⟨hlt, hnames⟩
        · exact .inl ⟨by omega, hnames⟩
        · exact .inr ⟨by omega, hnames⟩
      · rintro (⟨hups, hnames⟩ | ⟨hups, hnames⟩) dir -
        · rw [hups]
          exact (List.prefix_append_right_inj _).2 hnames
        · rw [hnames, List.append_nil]
          have hdrop : dir.rdrop G.ups <+: dir.rdrop Q.ups := by
            rw [List.rdrop, List.rdrop]
            exact List.take_prefix_take_left (by omega)
          exact hdrop.trans (List.prefix_append _ _)

end PosixPath

end Nexus
