import Nexus.Lib.OrderedMap
import Nexus.Lib.PosixPath
import Mathlib.Data.List.Induction

/-!
# File trees with symbolic links

The nodes of a file system by their places: files, directories and symbolic links. The target of a
link is a path that is followed from the directory of the link. `walk` follows a path name by name,
as a system call does, and goes through the links that it meets.

A region of places is enclosed when it contains what is below its places and no link in it leads out
of it. Then no walk leaves it that enters it (`Enclosed.walkNames`), whatever links are outside.
-/

set_option autoImplicit false

namespace Nexus

inductive FileNode where
  | file (content : List UInt8)
  | directory
  | link (target : String)
  deriving DecidableEq

/-- The errors of system calls on paths. -/
inductive Errno where
  | ENOENT
  | ENOTDIR
  | ELOOP
  | EEXIST
  | EISDIR
  deriving DecidableEq, Repr

/-- The nodes below the root; every one is in a directory. -/
structure FileTree where
  nodes : OrderedMap (List String) FileNode
  parents : ∀ e ∈ nodes, e.1.dropLast = [] ∨
    OrderedMap.get? nodes e.1.dropLast = some .directory
  places : ∀ e ∈ nodes, PosixPath.IsPlace e.1
  nodup : (OrderedMap.keys nodes).Nodup

namespace FileTree

variable {t t' : FileTree} {dir place : List String} {name : String} {names : List String}

/-- The node at a place. -/
def node? (t : FileTree) (place : List String) : Option FileNode :=
  if place = [] then some .directory else OrderedMap.get? t.nodes place

theorem node?_eq {t : FileTree} {place : List String} (hne : place ≠ []) :
    t.node? place = OrderedMap.get? t.nodes place := if_neg hne

theorem node?_parent (h : t.node? (dir ++ [name]) ≠ none) : t.node? dir = some .directory := by
  rw [node?_eq (by simp)] at h
  obtain ⟨node, hnode⟩ := Option.ne_none_iff_exists'.1 h
  have hparent := t.parents _ (OrderedMap.mem_of_get? hnode)
  rw [List.dropLast_concat] at hparent
  rcases hparent with rfl | hdirectory
  · rfl
  · by_cases hroot : dir = []
    · rw [node?, if_pos hroot]
    · rw [node?_eq hroot, hdirectory]

/-- Nothing is below what is no directory. -/
theorem node?_append_of_ne (h : t.node? place ≠ some .directory) (hne : names ≠ []) :
    t.node? (place ++ names) = none := by
  induction names using List.reverseRecOn with
  | nil => exact absurd rfl hne
  | append_singleton names name ih =>
      by_contra hnode
      rw [← List.append_assoc] at hnode
      have hparent := node?_parent hnode
      by_cases hnil : names = []
      · rw [hnil, List.append_nil] at hparent
        exact h hparent
      · rw [ih hnil] at hparent
        nomatch hparent

theorem isPlace_of_node? (h : t.node? place ≠ none) : PosixPath.IsPlace place := by
  by_cases hroot : place = []
  · rw [hroot]
    exact PosixPath.isPlace_root
  · rw [node?_eq hroot] at h
    obtain ⟨node, hnode⟩ := Option.ne_none_iff_exists'.1 h
    exact t.places _ (OrderedMap.mem_of_get? hnode)

/-- A node of a name in a directory; what is no directory can be replaced, what is one stays. -/
def setNode (t : FileTree) (dir : List String) (name : String) (node : FileNode) : FileTree :=
  if h : t.node? dir = some .directory ∧ t.node? (dir ++ [name]) ≠ some .directory ∧
      PosixPath.IsName name then
    { nodes := OrderedMap.set t.nodes (dir ++ [name]) node
      parents := by
        have hparent : ∀ p, p ≠ [] → OrderedMap.get? t.nodes p = some .directory →
            OrderedMap.get? (OrderedMap.set t.nodes (dir ++ [name]) node) p =
              some .directory := by
          intro p hp hdirectory
          have hne : dir ++ [name] ≠ p := by
            rintro rfl
            exact h.2.1 ((node?_eq hp).trans hdirectory)
          rw [OrderedMap.get?_set_of_ne _ _ hne, hdirectory]
        intro e he
        by_cases hroot : e.1.dropLast = []
        · exact Or.inl hroot
        · right
          apply hparent _ hroot
          rcases OrderedMap.mem_of_mem_set he with hold | rfl
          · exact (t.parents e hold).resolve_left hroot
          · rw [List.dropLast_concat] at hroot ⊢
            rw [← node?_eq hroot, h.1]
      places := by
        intro e he
        rcases OrderedMap.mem_of_mem_set he with hold | rfl
        · exact t.places e hold
        · have hdir : t.node? dir ≠ none := by simp [h.1]
          exact (isPlace_of_node? hdir).concat h.2.2
      nodup := OrderedMap.nodup_keys_set t.nodup _ _ }
  else t

/-- What `setNode` makes of the nodes. -/
theorem node?_setNode (hdir : t.node? dir = some .directory)
    (hname : t.node? (dir ++ [name]) ≠ some .directory) (hvalid : PosixPath.IsName name)
    (node : FileNode) (p : List String) :
    (t.setNode dir name node).node? p =
      if p = dir ++ [name] then some node else t.node? p := by
  rw [setNode, dif_pos ⟨hdir, hname, hvalid⟩]
  by_cases hroot : p = []
  · simp [node?, hroot]
  · rw [node?_eq hroot, node?_eq hroot, OrderedMap.get?_set]
    by_cases hp : p = dir ++ [name]
    · rw [if_pos hp, if_pos hp.symm]
    · rw [if_neg hp, if_neg fun heq => hp heq.symm]

/-- Removes a place and all that is below it. -/
def remove (t : FileTree) (place : List String) : FileTree where
  nodes := t.nodes.filter fun e => !place.isPrefixOf e.1
  parents := by
    intro e he
    obtain ⟨hmem, hkept⟩ := List.mem_filter.1 he
    by_cases hroot : e.1.dropLast = []
    · exact Or.inl hroot
    · right
      have hparent := (t.parents e hmem).resolve_left hroot
      have hkept' : (!place.isPrefixOf e.1.dropLast) = true := by
        rw [Bool.not_eq_true', Bool.eq_false_iff] at hkept ⊢
        intro hleads
        apply hkept
        rw [List.isPrefixOf_iff_prefix] at hleads ⊢
        exact hleads.trans (List.dropLast_prefix e.1)
      rw [OrderedMap.get?_filter (fun p => !place.isPrefixOf p) t.nodes hkept', hparent]
  places := fun e he => t.places e (List.mem_of_mem_filter he)
  nodup := t.nodup.sublist (List.filter_sublist.map _)

/-- The nodes in a directory, by their names. -/
def children (t : FileTree) (dir : List String) : List (String × FileNode) :=
  t.nodes.filterMap fun e =>
    match e.1.getLast? with
    | some name => if e.1.dropLast = dir then some (name, e.2) else none
    | none => none

theorem node?_of_mem_children {node : FileNode} (h : (name, node) ∈ t.children dir) :
    t.node? (dir ++ [name]) = some node := by
  obtain ⟨e, he, hchild⟩ := List.mem_filterMap.1 h
  cases hlast : e.1.getLast? with
  | none =>
      rw [hlast] at hchild
      nomatch hchild
  | some last =>
      rw [hlast] at hchild
      dsimp only at hchild
      split at hchild
      · rename_i hdir
        obtain ⟨rfl, rfl⟩ := Prod.mk.inj (Option.some.inj hchild)
        have hplace : e.1 = dir ++ [last] := by
          rw [← hdir]
          exact (List.dropLast_append_getLast? last (by rw [hlast]; rfl)).symm
        rw [← hplace, node?_eq (by simp [hplace])]
        exact OrderedMap.get?_of_mem t.nodup he
      · nomatch hchild

/-- The places of a tree are not longer than this. -/
def depth (t : FileTree) : Nat := (t.nodes.map fun e => e.1.length).foldr max 0

theorem length_le_depth (h : t.node? place ≠ none) : place.length ≤ t.depth := by
  have hfold : ∀ (lengths : List Nat), ∀ n ∈ lengths, n ≤ lengths.foldr max 0 := by
    intro lengths
    induction lengths with
    | nil => nofun
    | cons m lengths ih =>
        intro n hn
        rcases List.mem_cons.1 hn with rfl | hn
        · exact Nat.le_max_left _ _
        · exact (ih n hn).trans (Nat.le_max_right _ _)
  by_cases hroot : place = []
  · rw [hroot]
    exact Nat.zero_le _
  · rw [node?_eq hroot] at h
    obtain ⟨node, hnode⟩ := Option.ne_none_iff_exists'.1 h
    exact hfold _ _ (List.mem_map.2 ⟨_, OrderedMap.mem_of_get? hnode, rfl⟩)

/-! ## Walks -/

/-- As many links as these are followed one inside the other. -/
def MAX_LINKS : Nat := 40

/-- Goes into a name of a directory; `follow` follows the target of a link from there. -/
def enter (t : FileTree) (follow : List String → String → Except Errno (List String))
    (dir : List String) (name : String) : Except Errno (List String) :=
  match t.node? dir with
  | none => .error .ENOENT
  | some .directory =>
      if name = "" ∨ name = "." then .ok dir
      else if name = ".." then .ok dir.dropLast
      else
        match t.node? (dir ++ [name]) with
        | some (.link target) => follow dir target
        | _ => .ok (dir ++ [name])
  | some _ => .error .ENOTDIR

/-- Follows a path from a directory. Of the last name only the directory has to exist. -/
def walk (t : FileTree) : Nat → List String → String → Except Errno (List String)
  | 0, _, _ => .error .ELOOP
  | links + 1, dir, path =>
      (PosixPath.names path).foldlM (t.enter (t.walk links))
        (if PosixPath.isAbsolute path then [] else dir)

/-- Follows names from a directory. -/
def walkNames (t : FileTree) (dir : List String) (names : List String) :
    Except Errno (List String) :=
  names.foldlM (t.enter (t.walk MAX_LINKS)) dir

/-- The real location of an absolute path. -/
def locate (t : FileTree) (path : String) : Except Errno (List String) :=
  t.walkNames [] (PosixPath.names path)

/-- The location of the entry that an absolute path names, a link at its end not followed. -/
def locateEntry (t : FileTree) (path : String) : Except Errno (List String) :=
  match t.walkNames [] (PosixPath.names path).dropLast with
  | .error e => .error e
  | .ok dir =>
      match t.node? dir with
      | none => .error .ENOENT
      | some .directory =>
          let name := (PosixPath.names path).getLastD ""
          if name = "" ∨ name = "." then .ok dir
          else if name = ".." then .ok dir.dropLast
          else .ok (dir ++ [name])
      | some _ => .error .ENOTDIR

/-! ## Directories -/

/-- The places on the way down from a directory. -/
def chain (dir : List String) : List String → List (List String)
  | [] => []
  | name :: names => (dir ++ [name]) :: chain (dir ++ [name]) names

/-- New directories, one inside the other. -/
def makeDirs (t : FileTree) (dir : List String) : List String → FileTree
  | [] => t
  | name :: names => (t.setNode dir name .directory).makeDirs (dir ++ [name]) names

/-- Makes the directories that are missing on the way down from a directory, and says which. A link
on the way has to lead to a directory. -/
def mkdirAll (t : FileTree) (dir : List String) :
    List String → FileTree × List (List String) × Except Errno Unit
  | [] => (t, [], .ok ())
  | name :: names =>
      let taken := if names = [] then Errno.EEXIST else .ENOTDIR
      match t.node? (dir ++ [name]) with
      | none => (t.makeDirs dir (name :: names), chain dir (name :: names), .ok ())
      | some .directory => mkdirAll t (dir ++ [name]) names
      | some (.file _) => (t, [], .error taken)
      | some (.link target) =>
          match t.walk MAX_LINKS dir target with
          | .error e => (t, [], .error e)
          | .ok place =>
              match t.node? place with
              | none => (t, [], .error .ENOENT)
              | some .directory => mkdirAll t place names
              | some _ => (t, [], .error taken)

theorem mem_chain {p : List String} :
    p ∈ chain dir names ↔ ∃ below, below ≠ [] ∧ below <+: names ∧ p = dir ++ below := by
  induction names generalizing dir with
  | nil =>
      constructor
      · intro h
        nomatch h
      · rintro ⟨below, hne, hleads, -⟩
        exact absurd (List.prefix_nil.1 hleads) hne
  | cons name names ih =>
      rw [chain, List.mem_cons, ih]
      constructor
      · rintro (rfl | ⟨below, -, hleads, rfl⟩)
        · exact ⟨[name], List.cons_ne_nil _ _, ⟨names, rfl⟩, rfl⟩
        · exact ⟨name :: below, List.cons_ne_nil _ _, List.cons_prefix_cons.2 ⟨rfl, hleads⟩,
            (List.append_cons _ _ _).symm⟩
      · rintro ⟨below, hne, hleads, rfl⟩
        cases below with
        | nil => exact absurd rfl hne
        | cons first below =>
            obtain ⟨rfl, hbelow⟩ := List.cons_prefix_cons.1 hleads
            by_cases hnil : below = []
            · rw [hnil]
              exact .inl rfl
            · exact .inr ⟨below, hnil, hbelow, List.append_cons _ _ _⟩

/-- The new directories are added, and nothing else changes. -/
theorem node?_makeDirs (hdir : t.node? dir = some .directory)
    (hnames : ∀ name ∈ names, PosixPath.IsName name)
    (hfresh : ∀ p ∈ chain dir names, t.node? p = none) (p : List String) :
    (t.makeDirs dir names).node? p =
      if p ∈ chain dir names then some .directory else t.node? p := by
  induction names generalizing t dir with
  | nil => rw [chain, if_neg List.not_mem_nil, makeDirs]
  | cons name names ih =>
      have hnone : t.node? (dir ++ [name]) = none := hfresh _ List.mem_cons_self
      have hset : ∀ q, (t.setNode dir name .directory).node? q =
          if q = dir ++ [name] then some .directory else t.node? q :=
        node?_setNode hdir (by simp [hnone]) (hnames name List.mem_cons_self) .directory
      have hrest := ih (by rw [hset, if_pos rfl])
        (fun name' hname' => hnames name' (List.mem_cons_of_mem _ hname')) (by
          intro q hq
          obtain ⟨below, hne, -, rfl⟩ := mem_chain.1 hq
          rw [hset, if_neg (by simpa using hne), node?_append_of_ne (by simp [hnone]) hne])
      rw [makeDirs, hrest, hset, chain]
      simp only [List.mem_cons]
      split
      · rename_i hmem
        rw [if_pos (.inr hmem)]
      · rename_i hmem
        split
        · rename_i heq
          rw [if_pos (.inl heq)]
        · rename_i hne
          rw [if_neg (not_or.2 ⟨hne, hmem⟩)]

/-! ## Growing trees -/

/-- The tree has grown by directories. -/
def Grows (t t' : FileTree) : Prop :=
  ∀ p, t'.node? p = t.node? p ∨ t.node? p = none ∧ t'.node? p = some .directory

theorem Grows.directory (h : Grows t t') {p : List String} (hp : t.node? p = some .directory) :
    t'.node? p = some .directory := by
  rcases h p with heq | ⟨hnone, -⟩
  · rw [heq, hp]
  · rw [hp] at hnone
    nomatch hnone

theorem grows_makeDirs (hdir : t.node? dir = some .directory)
    (hnames : ∀ name ∈ names, PosixPath.IsName name)
    (hfresh : ∀ p ∈ chain dir names, t.node? p = none) : Grows t (t.makeDirs dir names) := by
  intro p
  rw [node?_makeDirs hdir hnames hfresh]
  split
  · rename_i hp
    exact .inr ⟨hfresh p hp, rfl⟩
  · exact .inl rfl

variable {reached : List String}

/-- A name leads where it has led before. -/
theorem Grows.enter (h : Grows t t') {follow follow' : List String → String → Except Errno _}
    (hfollow : ∀ dir target reached, follow dir target = .ok reached → follow' dir target = .ok
      reached) (hreached : t.enter follow dir name = .ok reached) :
    t'.enter follow' dir name = .ok reached := by
  unfold FileTree.enter at hreached ⊢
  cases hdir : t.node? dir with
  | none => simp [hdir] at hreached
  | some node =>
      cases node with
      | file content => simp [hdir] at hreached
      | link target => simp [hdir] at hreached
      | directory =>
          rw [hdir] at hreached
          rw [h.directory hdir]
          dsimp only at hreached ⊢
          split
          · rename_i hstay
            rwa [if_pos hstay] at hreached
          · rename_i hstay
            rw [if_neg hstay] at hreached
            split
            · rename_i hup
              rwa [if_pos hup] at hreached
            · rename_i hup
              rw [if_neg hup] at hreached
              rcases h (dir ++ [name]) with heq | ⟨hnone, hnew⟩
              · rw [heq]
                split
                · rename_i target hlink
                  rw [hlink] at hreached
                  exact hfollow dir target reached hreached
                · rename_i hlink
                  split at hreached
                  · rename_i target hlink'
                    exact absurd hlink' (hlink target)
                  · exact hreached
              · rw [hnew]
                rwa [hnone] at hreached

theorem foldlM_ok {f g : List String → String → Except Errno (List String)}
    (hfg : ∀ dir name reached, f dir name = .ok reached → g dir name = .ok reached)
    (h : names.foldlM f dir = .ok reached) :
    names.foldlM g dir = .ok reached := by
  induction names generalizing dir with
  | nil => exact h
  | cons name names ih =>
      rw [List.foldlM_cons] at h ⊢
      cases hnext : f dir name with
      | error e =>
          rw [hnext] at h
          nomatch h
      | ok next =>
          rw [hnext] at h
          rw [hfg _ _ _ hnext]
          exact ih h

/-- **A path leads where it has led before.** -/
theorem Grows.walk (h : Grows t t') {links : Nat} {path : String}
    (hreached : t.walk links dir path = .ok reached) :
    t'.walk links dir path = .ok reached := by
  induction links generalizing dir path reached with
  | zero => nomatch hreached
  | succ links ih =>
      exact foldlM_ok (fun _ _ _ hentered => h.enter (fun _ _ _ => ih) hentered) hreached

theorem Grows.walkNames (h : Grows t t') (hreached : t.walkNames dir names = .ok reached) :
    t'.walkNames dir names = .ok reached :=
  foldlM_ok (fun _ _ _ hentered => h.enter (fun _ _ _ => h.walk) hentered) hreached

/-! ## The way to a directory -/

/-- A name of a directory leads to its node, or where its link leads. -/
theorem enter_name (hdir : t.node? dir = some .directory) (hname : PosixPath.IsName name)
    (follow : List String → String → Except Errno (List String)) :
    t.enter follow dir name =
      match t.node? (dir ++ [name]) with
      | some (.link target) => follow dir target
      | _ => .ok (dir ++ [name]) := by
  obtain ⟨hempty, hdot, hup, -⟩ := hname
  rw [enter, hdir]
  dsimp only
  rw [if_neg (not_or.2 ⟨hempty, hdot⟩), if_neg hup]

/-- Nothing is entered but directories. -/
theorem enter_ok {follow : List String → String → Except Errno (List String)}
    (h : t.enter follow dir name = .ok reached) :
    t.node? dir = some .directory := by
  unfold enter at h
  split at h
  · nomatch h
  · assumption
  · nomatch h

theorem walkNames_cons_ok (h : t.walkNames dir (name :: names) = .ok reached) :
    ∃ next, t.enter (t.walk MAX_LINKS) dir name = .ok next ∧
      t.walkNames next names = .ok reached := by
  rw [walkNames, List.foldlM_cons] at h
  cases hnext : t.enter (t.walk MAX_LINKS) dir name with
  | error e =>
      rw [hnext] at h
      nomatch h
  | ok next =>
      rw [hnext] at h
      exact ⟨next, rfl, h⟩

theorem walkNames_append (names' : List String) :
    t.walkNames dir (names ++ names') =
      (t.walkNames dir names).bind fun next => t.walkNames next names' := List.foldlM_append

/-- The text of a place is followed along its names. -/
theorem locate_render (h : PosixPath.IsPlace place) :
    t.locate (PosixPath.render place) = t.walkNames [] place := by
  by_cases hne : place = []
  · subst hne
    rw [locate, PosixPath.names_render_root]
    rfl
  · rw [locate, PosixPath.names_render h hne]
    rfl

theorem locateEntry_render (h : PosixPath.IsPlace (dir ++ [name])) :
    t.locateEntry (PosixPath.render (dir ++ [name])) =
      (t.walkNames [] dir).bind fun next =>
        match t.node? next with
        | none => .error .ENOENT
        | some .directory => .ok (next ++ [name])
        | some _ => .error .ENOTDIR := by
  obtain ⟨hempty, hdot, hup, -⟩ := h name (by simp)
  have hdrop : (PosixPath.names (PosixPath.render (dir ++ [name]))).dropLast = "" :: dir := by
    rw [PosixPath.names_render h (by simp), ← List.cons_append, List.dropLast_concat]
  have hlast : (PosixPath.names (PosixPath.render (dir ++ [name]))).getLastD "" = name := by
    rw [PosixPath.names_render h (by simp), ← List.cons_append, List.getLastD_concat]
  have hwalk : t.walkNames [] ("" :: dir) = t.walkNames [] dir := rfl
  rw [locateEntry, hdrop, hlast, hwalk]
  cases t.walkNames [] dir with
  | error e => rfl
  | ok next =>
      dsimp only [Except.bind]
      rw [if_neg (not_or.2 ⟨hempty, hdot⟩), if_neg hup]

/-- A walk that goes on from a place has found a directory there. -/
theorem node?_of_walkNames (h : t.walkNames dir names = .ok reached)
    (hreached : t.node? reached ≠ none) : t.node? dir ≠ none := by
  cases names with
  | nil =>
      obtain rfl := Except.ok.inj h
      exact hreached
  | cons name names =>
      obtain ⟨next, hnext, -⟩ := walkNames_cons_ok h
      rw [enter_ok hnext]
      nofun

/-- **Directories are made from where the way to them leads.** -/
theorem mkdirAll_append {real : List String} (rest : List String)
    (hdir : t.node? dir = some .directory)
    (hnames : ∀ name ∈ names, PosixPath.IsName name)
    (hwalk : t.walkNames dir names = .ok real) (hreal : t.node? real ≠ none) :
    (∃ e, t.mkdirAll dir (names ++ rest) = (t, [], .error e)) ∨
      t.node? real = some .directory ∧ t.mkdirAll dir (names ++ rest) = t.mkdirAll real rest := by
  induction names generalizing dir with
  | nil =>
      obtain rfl := Except.ok.inj hwalk
      exact .inr ⟨hdir, rfl⟩
  | cons name names ih =>
      have hrest := fun name' hname' => hnames name' (List.mem_cons_of_mem _ hname')
      obtain ⟨next, hnext, hwalk'⟩ := walkNames_cons_ok hwalk
      have hfound := node?_of_walkNames hwalk' hreal
      rw [enter_name hdir (hnames name List.mem_cons_self)] at hnext
      rw [List.cons_append, mkdirAll]
      cases hnode : t.node? (dir ++ [name]) with
      | none =>
          rw [hnode] at hnext
          obtain rfl := Except.ok.inj hnext
          exact absurd hnode hfound
      | some node =>
          rw [hnode] at hnext
          cases node with
          | file content => exact .inl ⟨_, rfl⟩
          | directory =>
              obtain rfl := Except.ok.inj hnext
              exact ih hnode hrest hwalk'
          | link target =>
              dsimp only at hnext ⊢
              rw [hnext]
              dsimp only
              cases hplace : t.node? next with
              | none => exact absurd hplace hfound
              | some node' =>
                  cases node' with
                  | file content => exact .inl ⟨_, rfl⟩
                  | link target' => exact .inl ⟨_, rfl⟩
                  | directory => exact ih hplace hrest hwalk'

/-- A way that leads to a directory leads to where `mkdirAll` has made it. -/
theorem walkNames_makeDirs (hdir : t.node? dir = some .directory)
    (hnames : ∀ name ∈ names, PosixPath.IsName name)
    (hmade : ∀ p ∈ chain dir names, t.node? p = some .directory) :
    t.walkNames dir names = .ok (dir ++ names) := by
  induction names generalizing dir with
  | nil => rw [List.append_nil]; rfl
  | cons name names ih =>
      have hnode : t.node? (dir ++ [name]) = some .directory := hmade _ List.mem_cons_self
      rw [walkNames, List.foldlM_cons, enter_name hdir (hnames name List.mem_cons_self), hnode,
        List.append_cons dir name names]
      exact ih hnode (fun name' hname' => hnames name' (List.mem_cons_of_mem _ hname'))
        fun p hp => hmade p (List.mem_cons_of_mem _ hp)

/-! ## Enclosed regions -/

/-- A region that contains what is below its places and that no link in it leads out of. -/
structure Enclosed (t : FileTree) (region : List String → Prop) : Prop where
  below : ∀ dir name, region dir → region (dir ++ [name])
  links : ∀ dir name target, region (dir ++ [name]) →
    t.node? (dir ++ [name]) = some (.link target) →
      ∀ reached, t.walk MAX_LINKS dir target = .ok reached → region reached

variable {region : List String → Prop}

/-- It is enough to look at the links of the tree one by one. -/
theorem enclosed_of_nodes (hbelow : ∀ dir name, region dir → region (dir ++ [name]))
    (hlinks : ∀ e ∈ t.nodes, ∀ target, e.2 = .link target → region e.1 →
      ∀ reached, t.walk MAX_LINKS e.1.dropLast target = .ok reached → region reached) :
    Enclosed t region where
  below := hbelow
  links := by
    intro dir name target hregion hlink reached hreached
    rw [node?_eq (by simp)] at hlink
    apply hlinks _ (OrderedMap.mem_of_get? hlink) target rfl hregion reached
    rw [List.dropLast_concat]
    exact hreached

theorem Enclosed.append (h : Enclosed t region) {names : List String} (hdir : region dir) :
    region (dir ++ names) := by
  induction names generalizing dir with
  | nil => rwa [List.append_nil]
  | cons name names ih =>
      rw [List.append_cons]
      exact ih (h.below dir name hdir)

theorem Enclosed.enter (h : Enclosed t region) (hdir : region dir) (hname : PosixPath.IsName name)
    (hreached : t.enter (t.walk MAX_LINKS) dir name = .ok reached) :
    region reached := by
  obtain ⟨hempty, hdot, hup, -⟩ := hname
  unfold FileTree.enter at hreached
  split at hreached
  · nomatch hreached
  · rw [if_neg (not_or.2 ⟨hempty, hdot⟩), if_neg hup] at hreached
    split at hreached
    · rename_i target hlink
      exact h.links dir name target (h.below dir name hdir) hlink reached hreached
    · obtain rfl := Except.ok.inj hreached
      exact h.below dir name hdir
  · nomatch hreached

/-- **A walk along names does not leave an enclosed region.** -/
theorem Enclosed.walkNames (h : Enclosed t region) {names : List String}
    (hnames : ∀ name ∈ names, PosixPath.IsName name) (hdir : region dir)
    (hreached : t.walkNames dir names = .ok reached) : region reached := by
  induction names generalizing dir with
  | nil =>
      obtain rfl := Except.ok.inj hreached
      exact hdir
  | cons name names ih =>
      rw [FileTree.walkNames, List.foldlM_cons] at hreached
      cases hnext : t.enter (t.walk MAX_LINKS) dir name with
      | error e =>
          rw [hnext] at hreached
          nomatch hreached
      | ok next =>
          rw [hnext] at hreached
          exact ih (fun name' hname' => hnames name' (List.mem_cons_of_mem _ hname'))
            (h.enter hdir (hnames name List.mem_cons_self) hnext) hreached

/-- What `mkdirAll` leaves at the end of the way: the tree as it was, or a new directory that the
way leads to and that nothing is in. -/
def Arrived (t t' : FileTree) (region : List String → Prop) (dir names : List String) : Prop :=
  t' = t ∨ ∃ reached, region reached ∧ t.node? reached = none ∧
    t'.node? reached = some .directory ∧ (∀ name, t'.node? (reached ++ [name]) = none) ∧
    t'.walkNames dir names = .ok reached ∧ Grows t t'

/-- The way goes through one name more. -/
theorem Arrived.cons {next : List String} (h : Arrived t t' region next names)
    (hnext : t.enter (t.walk MAX_LINKS) dir name = .ok next) :
    Arrived t t' region dir (name :: names) := by
  rcases h with rfl | ⟨reached, hin, hnone, hnew, hempty, hwalk, hgrows⟩
  · exact .inl rfl
  · refine .inr ⟨reached, hin, hnone, hnew, hempty, ?_, hgrows⟩
    have hentered : t'.enter (t'.walk MAX_LINKS) dir name = .ok next :=
      hgrows.enter (fun _ _ _ => hgrows.walk) hnext
    rw [FileTree.walkNames, List.foldlM_cons, hentered]
    exact hwalk

/-- All directories from a missing one on are new. -/
theorem arrived_makeDirs (h : Enclosed t region) (hdir : region dir)
    (hnode : t.node? dir = some .directory) (hmissing : t.node? (dir ++ [name]) = none)
    (hnames : ∀ name' ∈ name :: names, PosixPath.IsName name') :
    Arrived t (t.makeDirs dir (name :: names)) region dir (name :: names) := by
  have hfresh : ∀ p ∈ chain dir (name :: names), t.node? p = none := by
    intro p hp
    obtain ⟨below, hne, ⟨rest, hleads⟩, rfl⟩ := mem_chain.1 hp
    obtain ⟨first, below, rfl⟩ := List.exists_cons_of_ne_nil hne
    obtain ⟨rfl, -⟩ := List.cons_eq_cons.1 hleads
    by_cases hnil : below = []
    · rw [hnil, hmissing]
    · rw [List.append_cons]
      exact node?_append_of_ne (by simp [hmissing]) hnil
  have hdirs := node?_makeDirs hnode hnames hfresh
  have hgrows := grows_makeDirs hnode hnames hfresh
  have hlast : dir ++ (name :: names) ∈ chain dir (name :: names) :=
    mem_chain.2 ⟨_, List.cons_ne_nil _ _, List.prefix_refl _, rfl⟩
  refine .inr ⟨dir ++ (name :: names), h.append hdir, hfresh _ hlast, ?_, ?_, ?_, hgrows⟩
  · rw [hdirs, if_pos hlast]
  · intro name'
    have hlong : dir ++ (name :: names) ++ [name'] ∉ chain dir (name :: names) := by
      intro hmem
      obtain ⟨below, -, hleads, heq⟩ := mem_chain.1 hmem
      rw [List.append_assoc, List.append_right_inj] at heq
      have hle := hleads.length_le
      rw [← heq, List.length_append, List.length_singleton] at hle
      omega
    rw [hdirs, if_neg hlong]
    exact node?_append_of_ne (by simp [hfresh _ hlast]) (List.cons_ne_nil _ _)
  · apply walkNames_makeDirs (hgrows.directory hnode) hnames
    intro p hp
    rw [hdirs, if_pos hp]

/-- **Directories are made within an enclosed region.** -/
theorem Enclosed.mkdirAll (h : Enclosed t region)
    (hnames : ∀ name ∈ names, PosixPath.IsName name) (hdir : region dir)
    (hnode : t.node? dir = some .directory) {made : List (List String)}
    {outcome : Except Errno Unit} (hmade : t.mkdirAll dir names = (t', made, outcome)) :
    (∀ p ∈ made, region p) ∧ (outcome = .ok () → Arrived t t' region dir names) := by
  induction names generalizing dir with
  | nil =>
      simp only [FileTree.mkdirAll, Prod.mk.injEq] at hmade
      obtain ⟨rfl, rfl, rfl⟩ := hmade
      exact ⟨nofun, fun _ => .inl rfl⟩
  | cons name names ih =>
      have hname := hnames name List.mem_cons_self
      have hrest := fun name' hname' => hnames name' (List.mem_cons_of_mem _ hname')
      have hbelow := h.below dir name hdir
      have hentered := enter_name hnode hname (t.walk MAX_LINKS)
      rw [FileTree.mkdirAll] at hmade
      cases hnext : t.node? (dir ++ [name]) with
      | none =>
          simp only [hnext, Prod.mk.injEq] at hmade
          obtain ⟨rfl, rfl, rfl⟩ := hmade
          refine ⟨?_, fun _ => arrived_makeDirs h hdir hnode hnext hnames⟩
          intro p hp
          obtain ⟨below, -, -, rfl⟩ := mem_chain.1 hp
          exact h.append hdir
      | some node =>
          rw [hnext] at hmade hentered
          cases node with
          | file content =>
              simp only [Prod.mk.injEq] at hmade
              obtain ⟨rfl, rfl, rfl⟩ := hmade
              exact ⟨nofun, nofun⟩
          | directory =>
              obtain ⟨hregion, harrived⟩ := ih hrest hbelow hnext hmade
              exact ⟨hregion, fun hok => (harrived hok).cons hentered⟩
          | link target =>
              dsimp only at hmade hentered
              cases hplace : t.walk MAX_LINKS dir target with
              | error e =>
                  simp only [hplace, Prod.mk.injEq] at hmade
                  obtain ⟨rfl, rfl, rfl⟩ := hmade
                  exact ⟨nofun, nofun⟩
              | ok place =>
                  rw [hplace] at hmade hentered
                  dsimp only at hmade
                  cases hnode' : t.node? place with
                  | none =>
                      simp only [hnode', Prod.mk.injEq] at hmade
                      obtain ⟨rfl, rfl, rfl⟩ := hmade
                      exact ⟨nofun, nofun⟩
                  | some node' =>
                      rw [hnode'] at hmade
                      cases node' with
                      | directory =>
                          -- the link leads into the region, and the way goes on from there
                          have hlinked := h.links dir name target hbelow hnext place hplace
                          obtain ⟨hregion, harrived⟩ := ih hrest hlinked hnode' hmade
                          exact ⟨hregion, fun hok => (harrived hok).cons hentered⟩
                      | file content =>
                          simp only [Prod.mk.injEq] at hmade
                          obtain ⟨rfl, rfl, rfl⟩ := hmade
                          exact ⟨nofun, nofun⟩
                      | link target' =>
                          simp only [Prod.mk.injEq] at hmade
                          obtain ⟨rfl, rfl, rfl⟩ := hmade
                          exact ⟨nofun, nofun⟩

end FileTree

end Nexus
