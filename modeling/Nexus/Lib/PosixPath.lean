import Nexus.Lib.PathParts
import Mathlib.Data.List.Basic
import Mathlib.Data.List.DropRight
import Mathlib.Data.List.Induction

/-!
# Resolution of POSIX paths

A place in the file system is the list of the names on the way to it from the root. A path is a
text: `enter` follows one from a directory, and `resolve` follows several one after the other. An
empty name and `.` stay where they are, `..` goes one directory up, and a path that starts with a
slash starts again at the root.
-/

set_option autoImplicit false

namespace Nexus

namespace PosixPath

/-- The names between the slashes of a path. -/
def names (path : String) : List String := (path.toList.splitOn '/').map String.ofList

/-- Follows one name. -/
def follow (dir : List String) (name : String) : List String :=
  if name = "" ∨ name = "." then dir
  else if name = ".." then dir.dropLast
  else dir ++ [name]

/-- The path starts at the root. -/
def isAbsolute (path : String) : Bool := path.toList.head? = some '/'

/-- Follows a path from a directory. -/
def enter (dir : List String) (path : String) : List String :=
  (names path).foldl follow (if isAbsolute path then [] else dir)

/-- `path.resolve`, in the working directory `cwd`. -/
def resolve (cwd : List String) (paths : List String) : List String := paths.foldl enter cwd

/-- The text of a place. -/
def render (place : List String) : String :=
  if place = [] then "/" else String.ofList (place.flatMap fun name => '/' :: name.toList)

/-- A name that a path keeps as it is. -/
def IsName (name : String) : Prop :=
  name ≠ "" ∧ name ≠ "." ∧ name ≠ ".." ∧ '/' ∉ name.toList

instance (name : String) : Decidable (IsName name) := inferInstanceAs (Decidable (_ ∧ _))

section Names

variable {dir : List String} {name : String}

theorem follow_name (h : IsName name) : follow dir name = dir ++ [name] := by
  obtain ⟨hempty, hdot, hup, -⟩ := h
  rw [follow, if_neg (by simp [hempty, hdot]), if_neg hup]

/-- A name is the only name of its path. -/
theorem names_name (h : IsName name) : names name = [name] := by
  rw [names, List.splitOn_eq_singleton h.2.2.2, List.map_singleton, String.ofList_toList]

theorem isAbsolute_name (h : IsName name) : isAbsolute name = false := by
  rw [isAbsolute, decide_eq_false_iff_not]
  intro hhead
  exact h.2.2.2 (List.mem_of_head? hhead)

theorem enter_name (h : IsName name) : enter dir name = dir ++ [name] := by
  rw [enter, names_name h, isAbsolute_name h]
  exact follow_name h

/-- Names are entered one after the other. -/
theorem resolve_names {path : List String} (h : ∀ name ∈ path, IsName name) :
    resolve dir path = dir ++ path := by
  induction path generalizing dir with
  | nil => exact (List.append_nil dir).symm
  | cons name path ih =>
      have hrest : ∀ name' ∈ path, IsName name' := fun name' hname' =>
        h name' (List.mem_cons_of_mem _ hname')
      rw [resolve, List.foldl_cons, enter_name (h name List.mem_cons_self)]
      exact (ih hrest).trans (by simp)

end Names

/-- The text of a place starts with the text of every place above it. -/
theorem render_prefix (place below : List String) :
    (render place).toList <+: (render (place ++ below)).toList := by
  cases place with
  | nil =>
      cases below with
      | nil => exact List.prefix_refl _
      | cons name below => exact ⟨name.toList ++ below.flatMap fun name => '/' :: name.toList, by
          simp [render]⟩
  | cons name place =>
      refine ⟨below.flatMap fun name => '/' :: name.toList, ?_⟩
      simp [render]

/-! ## Places and their texts -/

/-- All names of a place are kept by a path. -/
def IsPlace (place : List String) : Prop := ∀ name ∈ place, IsName name

instance (place : List String) : Decidable (IsPlace place) :=
  inferInstanceAs (Decidable (∀ name ∈ place, IsName name))

section Places

variable {dir place root : List String} {name path : String}

theorem isPlace_root : IsPlace [] := fun _ hname => nomatch hname

theorem IsPlace.append (h : IsPlace dir) (h' : IsPlace place) : IsPlace (dir ++ place) := by
  intro name hname
  rcases List.mem_append.1 hname with hname | hname
  · exact h name hname
  · exact h' name hname

theorem IsPlace.concat (h : IsPlace dir) (hname : IsName name) : IsPlace (dir ++ [name]) := by
  apply h.append
  intro name' hname'
  rw [List.mem_singleton.1 hname']
  exact hname

theorem IsPlace.dropLast (h : IsPlace place) : IsPlace place.dropLast := fun name hname =>
  h name (List.dropLast_subset _ hname)

/-- No slash is in a name of a path. -/
theorem slash_notMem_of_mem_names (h : name ∈ names path) : '/' ∉ name.toList := by
  obtain ⟨part, hpart, rfl⟩ := List.mem_map.1 h
  rw [String.toList_ofList]
  exact Parts.sep_notMem_of_mem_splitOn hpart

theorem IsPlace.follow (h : IsPlace dir) (hname : '/' ∉ name.toList) :
    IsPlace (follow dir name) := by
  unfold PosixPath.follow
  split
  · exact h
  · rename_i hstay
    split
    · exact h.dropLast
    · rename_i hup
      exact h.concat ⟨fun hempty => hstay (.inl hempty), fun hdot => hstay (.inr hdot), hup, hname⟩

theorem IsPlace.enter (h : IsPlace dir) (path : String) : IsPlace (enter dir path) := by
  have hfollow : ∀ (parts : List String) (start : List String), IsPlace start →
      (∀ name ∈ parts, '/' ∉ name.toList) → IsPlace (parts.foldl PosixPath.follow start) := by
    intro parts
    induction parts with
    | nil => exact fun start hstart _ => hstart
    | cons name parts ih =>
        intro start hstart hparts
        exact ih _ (hstart.follow (hparts name List.mem_cons_self)) fun name' hname' =>
          hparts name' (List.mem_cons_of_mem _ hname')
  apply hfollow
  · split
    · exact isPlace_root
    · exact h
  · exact fun name hname => slash_notMem_of_mem_names hname

theorem IsPlace.resolve (h : IsPlace dir) (paths : List String) : IsPlace (resolve dir paths) := by
  induction paths generalizing dir with
  | nil => exact h
  | cons path paths ih => exact ih (h.enter path)

/-- The text of a place is its names put together, each behind a slash. -/
theorem toList_render (hne : place ≠ []) :
    (render place).toList = ['/'].intercalate ([] :: place.map String.toList) := by
  rw [render, if_neg hne, String.toList_ofList]
  induction place with
  | nil => exact absurd rfl hne
  | cons name place ih =>
      rw [List.flatMap_cons, List.map_cons, List.intercalate_cons_of_ne_nil (List.cons_ne_nil _ _)]
      cases place with
      | nil => simp
      | cons next place =>
          rw [ih (List.cons_ne_nil _ _), List.intercalate_cons_of_ne_nil (by simp)]
          simp

/-- The names of the text of a place. -/
theorem names_render (h : IsPlace place) (hne : place ≠ []) :
    names (render place) = "" :: place := by
  have hparts : ((render place).toList.splitOn '/') = [] :: place.map String.toList := by
    rw [toList_render hne, Parts.splitOn_intercalate (List.cons_ne_nil _ _), List.flatMap_cons,
      List.splitOn_nil, List.flatMap_map, List.singleton_append]
    congr 1
    clear hne
    induction place with
    | nil => rfl
    | cons name place ih =>
        rw [List.flatMap_cons, List.map_cons,
          List.splitOn_eq_singleton (h name List.mem_cons_self).2.2.2,
          ih fun name' hname' => h name' (List.mem_cons_of_mem _ hname')]
        rfl
  rw [names, hparts, List.map_cons, List.map_map]
  congr 1
  exact (List.map_congr_left fun name _ => String.ofList_toList).trans (List.map_id _)

theorem names_render_root : names (render []) = ["", ""] := by decide +kernel

theorem render_injective (h : IsPlace place) (hroot : IsPlace root)
    (heq : render place = render root) : place = root := by
  by_cases hne : place = []
  · by_cases hne' : root = []
    · rw [hne, hne']
    · have hnames := names_render hroot hne'
      rw [← heq, hne, names_render_root, List.cons.injEq] at hnames
      exact absurd rfl (hroot "" (by rw [← hnames.2]; exact List.mem_singleton_self _)).1
  · have hnames := names_render h hne
    by_cases hne' : root = []
    · rw [heq, hne', names_render_root, List.cons.injEq] at hnames
      exact absurd rfl (h "" (by rw [← hnames.2]; exact List.mem_singleton_self _)).1
    · rw [heq, names_render hroot hne', List.cons.injEq] at hnames
      exact hnames.2.symm

/-- What starts with the text of a place and a slash is below the place, which is not the root: no
text of a place starts with two slashes. -/
theorem prefix_of_render_slash (h : IsPlace place) (hroot : IsPlace root)
    (hleads : (render root ++ "/").toList <+: (render place).toList) :
    root ≠ [] ∧ root <+: place := by
  obtain ⟨rest, hrest⟩ := hleads
  have hnames : names (render place) =
      names (render root) ++ (rest.splitOn '/').map String.ofList := by
    rw [names, ← hrest, String.toList_append, List.append_assoc]
    exact (congrArg _ (Parts.splitOn_append_sep _ _)).trans List.map_append
  have hplace : place ≠ [] := by
    rintro rfl
    have hlength := congrArg List.length hnames
    have hrendered : 1 < (names (render root)).length := by
      by_cases hne : root = []
      · rw [hne, names_render_root]
        exact Nat.lt_succ_self 1
      · rw [names_render hroot hne, List.length_cons]
        exact Nat.succ_lt_succ (List.length_pos_of_ne_nil hne)
    have hparts := List.length_pos_of_ne_nil (List.splitOn_ne_nil '/' rest)
    rw [names_render_root, List.length_append, List.length_map] at hlength
    simp only [List.length_cons, List.length_nil] at hlength
    omega
  rw [names_render h hplace] at hnames
  by_cases hne : root = []
  · rw [hne, names_render_root, List.cons_append, List.cons.injEq] at hnames
    exact absurd rfl (h "" (by rw [hnames.2]; exact List.mem_cons_self)).1
  · rw [names_render hroot hne, List.cons_append, List.cons.injEq] at hnames
    exact ⟨hne, _, hnames.2.symm⟩

/-- The text of a place below another one starts with the text of that and a slash. -/
theorem render_slash_below (hne : root ≠ []) (hbelow : place ≠ []) :
    (render root ++ "/").toList <+: (render (root ++ place)).toList := by
  obtain ⟨name, below, rfl⟩ := List.exists_cons_of_ne_nil hbelow
  refine ⟨name.toList ++ below.flatMap fun name => '/' :: name.toList, ?_⟩
  rw [render, render, if_neg hne, if_neg (by simp [hne])]
  simp

end Places

/-- `path.dirname`, for a path that starts at the root and has no slash at its end. -/
def dirname (path : String) : String :=
  let dir := (path.toList.rdropWhile fun c => c ≠ '/').dropLast
  if dir = [] then "/" else String.ofList dir

theorem dirname_render {place : List String} (h : IsPlace place) :
    dirname (render place) = render place.dropLast := by
  induction place using List.reverseRecOn with
  | nil => decide +kernel
  | append_singleton dir name _ =>
      have hname : '/' ∉ name.toList := (h name (by simp)).2.2.2
      have htext : (render (dir ++ [name])).toList =
          (dir.flatMap fun name => '/' :: name.toList) ++ '/' :: name.toList := by
        rw [render, if_neg (by simp), String.toList_ofList]
        simp
      have hdrop : (render (dir ++ [name])).toList.rdropWhile (fun c => c ≠ '/') =
          (dir.flatMap fun name => '/' :: name.toList) ++ ['/'] := by
        rw [htext, List.append_cons, List.rdropWhile, List.reverse_append,
          List.dropWhile_append_of_pos, List.reverse_append]
        · simp
        · intro c hc
          rw [decide_eq_true_eq]
          rintro rfl
          exact hname (List.mem_reverse.1 hc)
      rw [dirname, hdrop, List.dropLast_concat, List.dropLast_concat]
      cases dir with
      | nil => rfl
      | cons first dir =>
          rw [render, if_neg (List.cons_ne_nil _ _)]
          simp

theorem foldl_follow {place : List String} (h : IsPlace place) (dir : List String) :
    place.foldl follow dir = dir ++ place := by
  induction place generalizing dir with
  | nil => exact (List.append_nil dir).symm
  | cons name place ih =>
      rw [List.foldl_cons, follow_name (h name List.mem_cons_self), ih fun name' hname' =>
        h name' (List.mem_cons_of_mem _ hname')]
      exact (List.append_cons _ _ _).symm

/-- The text of a place leads to the place, from wherever. -/
theorem enter_render {place : List String} (h : IsPlace place) (dir : List String) :
    enter dir (render place) = place := by
  by_cases hne : place = []
  · subst hne
    rfl
  · have habsolute : isAbsolute (render place) = true := by
      rw [isAbsolute, toList_render hne, decide_eq_true_eq]
      obtain ⟨name, rest, rfl⟩ := List.exists_cons_of_ne_nil hne
      rw [List.map_cons, List.intercalate_cons_of_ne_nil (List.cons_ne_nil _ _)]
      rfl
    rw [enter, names_render h hne, if_pos habsolute]
    exact foldl_follow h []

end PosixPath

end Nexus
