import Nexus.Tools.LocalFileTools
import Mathlib

/-!
# Inside the allowed roots

An accepted path is at or below an allowed root by its text. When the roots exist and no link leads
out of them, what its calls reach is at or below the real location of a root
(`local_file_tools_inside`). A link in a root is followed wherever it leads
(`link_read_outside`).
-/

set_option autoImplicit false

namespace Nexus

open PosixPath PathValidator

variable {t : FileTree} {v : PathValidator} {c : ProcessCwd} {place reached : List String}

/-- The place is at or below the real location of an allowed root. -/
def InsideRoots (t : FileTree) (v : PathValidator) (c : ProcessCwd) (place : List String) : Prop :=
  ∃ root ∈ v.allowedRoots, ∃ real, t.locate (pathResolve c [root]) = .ok real ∧ real <+: place

instance : Decidable (InsideRoots t v c place) :=
  decidable_of_iff ((v.allowedRoots.any fun root =>
      match t.locate (pathResolve c [root]) with
      | .ok real => real.isPrefixOf place
      | .error _ => false) = true) (by
    rw [List.any_eq_true]
    apply exists_congr
    intro root
    apply and_congr_right
    intro _
    cases t.locate (pathResolve c [root]) with
    | error e => simp
    | ok real => simp [List.isPrefixOf_iff_prefix])

/-- Every allowed root exists and is no link, and no link at or below the real location of a root
leads elsewhere. -/
structure RootsStand (t : FileTree) (v : PathValidator) (c : ProcessCwd) : Prop where
  exist : ∀ root ∈ v.allowedRoots, ∃ real, t.locate (pathResolve c [root]) = .ok real ∧
    t.locateEntry (pathResolve c [root]) = .ok real ∧ t.node? real ≠ none
  enclosed : t.Enclosed (InsideRoots t v c)

namespace RootsStand

/-- The way to a place at or below a root goes through the real location of the root. -/
theorem through (h : RootsStand t v c) (hplace : v.AtOrBelow c place) :
    ∃ root ∈ v.allowedRoots, ∃ rest real, place = rootPlace c root ++ rest ∧
      t.walkNames [] (rootPlace c root) = .ok real ∧
      t.locateEntry (render (rootPlace c root)) = .ok real ∧ t.node? real ≠ none ∧
      InsideRoots t v c real := by
  obtain ⟨root, hroot, rest, rfl⟩ := hplace
  obtain ⟨real, hreal, hentry, hnode⟩ := h.exist root hroot
  refine ⟨root, hroot, rest, real, rfl, ?_, hentry, hnode, root, hroot, real, hreal,
    List.prefix_refl _⟩
  rw [← FileTree.locate_render isPlace_rootPlace]
  exact hreal

/-- What an accepted path leads to is inside. -/
theorem locate (h : RootsStand t v c) (hplace : v.AtOrBelow c place) (hvalid : IsPlace place)
    (hreached : t.locate (render place) = .ok reached) : InsideRoots t v c reached := by
  obtain ⟨root, -, rest, real, rfl, hreal, -, -, hinside⟩ := h.through hplace
  rw [FileTree.locate_render hvalid, FileTree.walkNames_append, hreal] at hreached
  exact h.enclosed.walkNames (fun name hname => hvalid name (List.mem_append_right _ hname))
    hinside hreached

/-- What an accepted path names is inside. -/
theorem locateEntry (h : RootsStand t v c) (hplace : v.AtOrBelow c place) (hvalid : IsPlace place)
    (hreached : t.locateEntry (render place) = .ok reached) : InsideRoots t v c reached := by
  obtain ⟨root, hroot, rest, real, rfl, hreal, hentry, -, hinside⟩ := h.through hplace
  cases rest using List.reverseRecOn with
  | nil =>
      rw [List.append_nil, hentry] at hreached
      obtain rfl := Except.ok.inj hreached
      exact hinside
  | append_singleton rest name _ =>
      rw [← List.append_assoc] at hvalid hreached
      rw [FileTree.locateEntry_render hvalid] at hreached
      cases hdir : t.walkNames [] (rootPlace c root ++ rest) with
      | error e =>
          rw [hdir] at hreached
          nomatch hreached
      | ok dir =>
          have habove : InsideRoots t v c dir := by
            have hinit : IsPlace (rootPlace c root ++ rest) := fun name' hname' =>
              hvalid name' (List.mem_append_left _ hname')
            apply h.locate ⟨root, hroot, rest, rfl⟩ hinit
            rw [FileTree.locate_render hinit, hdir]
          rw [hdir] at hreached
          dsimp only [Except.bind] at hreached
          split at hreached
          · nomatch hreached
          · obtain rfl := Except.ok.inj hreached
            exact h.enclosed.below dir name habove
          · nomatch hreached

theorem find (h : RootsStand t v c) (hplace : v.AtOrBelow c place) (hvalid : IsPlace place)
    {node : FileNode} (hfound : t.find (render place) = .ok (reached, node)) :
    InsideRoots t v c reached := h.locate hplace hvalid (FileTree.nodeAt_ok hfound).1

theorem findEntry (h : RootsStand t v c) (hplace : v.AtOrBelow c place) (hvalid : IsPlace place)
    {node : FileNode} (hfound : t.findEntry (render place) = .ok (reached, node)) :
    InsideRoots t v c reached := h.locateEntry hplace hvalid (FileTree.nodeAt_ok hfound).1

/-- The directories that are made for an accepted path are inside, and so is what the path leads to
afterwards. -/
theorem mkdirAll (h : RootsStand t v c) (hplace : v.AtOrBelow c place) (hvalid : IsPlace place)
    {t' : FileTree} {made : List (List String)} {outcome : Except Errno Unit}
    (hmade : t.mkdirAll [] place.dropLast = (t', made, outcome)) :
    (∀ p ∈ made, InsideRoots t v c p) ∧
      (outcome = .ok () → ∀ reached, t'.locate (render place) = .ok reached →
        InsideRoots t v c reached) := by
  obtain ⟨root, hroot, rest, real, rfl, hreal, hentry, hnode, hinside⟩ := h.through hplace
  have hstart : t.node? [] = some .directory := rfl
  have hnames : ∀ name ∈ rootPlace c root, IsName name := isPlace_rootPlace
  cases rest using List.reverseRecOn with
  | nil =>
      -- the directory of the root exists, since the root does
      rw [List.append_nil] at hmade hvalid hplace ⊢
      have hsame : t' = t ∧ made = [] := by
        cases hinit : rootPlace c root using List.reverseRecOn with
        | nil =>
            rw [hinit] at hmade
            obtain ⟨rfl, rfl, rfl⟩ := hmade
            exact ⟨rfl, rfl⟩
        | append_singleton init name _ =>
            rw [hinit, List.dropLast_concat] at hmade
            rw [hinit] at hvalid hentry
            rw [FileTree.locateEntry_render hvalid] at hentry
            cases hdir : t.walkNames [] init with
            | error e =>
                rw [hdir] at hentry
                nomatch hentry
            | ok dir =>
                rw [hdir] at hentry
                have hexists : t.node? dir ≠ none := by
                  intro hmissing
                  dsimp only [Except.bind] at hentry
                  rw [hmissing] at hentry
                  nomatch hentry
                have hinit' : ∀ name' ∈ init, IsName name' := fun name' hname' =>
                  hvalid name' (List.mem_append_left _ hname')
                rcases t.mkdirAll_append [] hstart hinit' hdir hexists with
                  ⟨e, herror⟩ | ⟨-, hdone⟩
                · rw [List.append_nil, hmade] at herror
                  obtain ⟨rfl, rfl, -⟩ := herror
                  exact ⟨rfl, rfl⟩
                · rw [List.append_nil, hmade] at hdone
                  obtain ⟨rfl, rfl, -⟩ := hdone
                  exact ⟨rfl, rfl⟩
      obtain ⟨rfl, rfl⟩ := hsame
      exact ⟨nofun, fun _ reached hreached => h.locate hplace hvalid hreached⟩
  | append_singleton init name _ =>
      rw [← List.append_assoc] at hmade hvalid hplace ⊢
      rw [List.dropLast_concat] at hmade
      have hinit : ∀ name' ∈ init, IsName name' := fun name' hname' =>
        hvalid name' (by simp [hname'])
      have hname : IsName name := hvalid name (by simp)
      rcases t.mkdirAll_append init hstart hnames hreal hnode with
        ⟨e, herror⟩ | ⟨hdirectory, hdone⟩
      · rw [hmade] at herror
        obtain ⟨rfl, rfl, rfl⟩ := herror
        exact ⟨nofun, nofun⟩
      · rw [hmade] at hdone
        obtain ⟨hregion, harrived⟩ := h.enclosed.mkdirAll hinit hinside hdirectory hdone.symm
        refine ⟨hregion, fun hok reached hreached => ?_⟩
        rcases harrived hok with rfl | ⟨dir, hdir, -, hnew, hempty, hwalk, hgrows⟩
        · exact h.locate hplace hvalid hreached
        · -- the new directory is empty, so the last name is not a link
          have hlast : t'.enter (t'.walk FileTree.MAX_LINKS) dir name = .ok (dir ++ [name]) := by
            rw [FileTree.enter_name hnew hname, hempty]
          rw [FileTree.locate_render hvalid, FileTree.walkNames_append, FileTree.walkNames_append,
            hgrows.walkNames hreal] at hreached
          dsimp only [Except.bind] at hreached
          rw [hwalk] at hreached
          dsimp only at hreached
          rw [FileTree.walkNames, List.foldlM_cons, hlast] at hreached
          obtain rfl := Except.ok.inj hreached
          exact h.enclosed.below dir name hdir

end RootsStand

/-! ## The calls -/

/-- Everything that the calls have reached is inside the roots of the tree before the call. -/
def ReachedInside (t : FileTree) (v : PathValidator) (c : ProcessCwd) (s : FileSystem) : Prop :=
  ∀ p ∈ s.accesses, InsideRoots t v c p

/-- Nothing has been changed yet. -/
def StillReading (t : FileTree) (v : PathValidator) (c : ProcessCwd) (s : FileSystem) : Prop :=
  s.tree = t ∧ ReachedInside t v c s

variable {s : FileSystem}

theorem ReachedInside.append {places : List (List String)} (h : ReachedInside t v c s)
    (hplaces : ∀ p ∈ places, InsideRoots t v c p) :
    ∀ p ∈ s.accesses ++ places, InsideRoots t v c p := by
  intro p hp
  rcases List.mem_append.1 hp with hp | hp
  · exact h p hp
  · exact hplaces p hp

theorem ReachedInside.concat (h : ReachedInside t v c s) (hreached : InsideRoots t v c reached) :
    ∀ p ∈ s.accesses ++ [reached], InsideRoots t v c p := by
  apply h.append
  intro p hp
  rw [List.mem_singleton.1 hp]
  exact hreached

namespace StillReading

variable (h : RootsStand t v c) (hplace : v.AtOrBelow c place) (hvalid : IsPlace place)
  (hs : StillReading t v c s)

include h hplace hvalid hs

theorem readFile : StillReading t v c (FileOp.exec s (.readFile (render place))).1 := by
  obtain ⟨rfl, hinside⟩ := hs
  rw [FileOp.exec]
  split
  · exact ⟨rfl, hinside⟩
  · rename_i found content hfound
    exact ⟨rfl, hinside.concat (h.find hplace hvalid hfound)⟩
  · exact ⟨rfl, hinside⟩

theorem readdir : StillReading t v c (FileOp.exec s (.readdir (render place))).1 := by
  obtain ⟨rfl, hinside⟩ := hs
  rw [FileOp.exec]
  split
  · exact ⟨rfl, hinside⟩
  · rename_i found hfound
    exact ⟨rfl, hinside.concat (h.find hplace hvalid hfound)⟩
  · exact ⟨rfl, hinside⟩

theorem rm (isRecursive : Bool) :
    ReachedInside t v c (FileOp.exec s (.rm (render place) isRecursive)).1 := by
  obtain ⟨rfl, hinside⟩ := hs
  rw [FileOp.exec]
  split
  · exact hinside
  · exact hinside
  · rename_i found node hfound
    split
    · exact hinside
    · apply hinside.append
      intro p hp
      obtain ⟨below, rfl⟩ := List.isPrefixOf_iff_prefix.1 (List.mem_filter.1 hp).2
      exact h.enclosed.append (h.findEntry hplace hvalid hfound)

theorem unlink : ReachedInside t v c (FileOp.exec s (.unlink (render place))).1 := by
  obtain ⟨rfl, hinside⟩ := hs
  rw [FileOp.exec]
  split
  · exact hinside
  · rename_i found node hfound
    split
    · exact hinside
    · exact hinside.concat (h.findEntry hplace hvalid hfound)

end StillReading

namespace FileTools

variable (f : FileTools)

/-- A tool goes on with the text of an accepted place. -/
theorem meets_resolvePath {path : String} {Q : String → FileSystem → Prop}
    {E : FileToolError → FileSystem → Prop}
    (hok : ∀ place, f.pathValidator.AtOrBelow f.processCwd place → IsPlace place →
      Q (render place) s)
    (herror : ∀ message, E (.rejected message) s) :
    (f.resolvePath path).Meets fileContract Q E s := by
  unfold resolvePath
  split
  · rename_i resolved hresolved
    obtain ⟨rfl, hbelow⟩ := resolvePath_ok hresolved
    exact hok _ hbelow isPlace_candidatePlace
  · exact herror _

/-- The call reaches nothing outside the roots. -/
def StaysInside (t : FileTree) (program : FileProg ToolResult) : Prop :=
  program.Meets fileContract (fun _ s => ReachedInside t f.pathValidator f.processCwd s)
    (fun _ s => ReachedInside t f.pathValidator f.processCwd s) { tree := t }

variable {f} (h : RootsStand t f.pathValidator f.processCwd)

theorem start_reading : StillReading t f.pathValidator f.processCwd { tree := t } :=
  ⟨rfl, nofun⟩

include h

theorem readFile_staysInside (input : ReadFileInput) : f.StaysInside t (f.readFile input) := by
  refine (f.meets_resolvePath (fun place hplace hvalid => ?_) fun _ => nofun).bind
    fun _ _ hnext => hnext
  refine (meets_awaitFile (fun isDirectory _ => ?_) fun _ _ => nofun).bind fun _ _ hnext => hnext
  cases isDirectory with
  | true => exact nofun
  | false =>
      have hread := StillReading.readFile h hplace hvalid start_reading
      refine (meets_awaitFile (fun buffer _ => ?_) fun _ _ => hread.2).bind fun _ _ hnext => hnext
      exact Prog.meets_ite (fun _ => hread.2) fun _ => hread.2

/-- The call that makes the missing directories of an accepted path, and the write after it. -/
theorem meets_write {place : List String} (content : List UInt8)
    (hplace : f.pathValidator.AtOrBelow f.processCwd place) (hvalid : IsPlace place)
    {result : ToolResult} :
    f.StaysInside t (do
      awaitFile (.mkdir (dirname (render place)))
      awaitFile (.writeFile (render place) content)
      .pure result) := by
  have hdir : enter [] (dirname (render place)) = place.dropLast := by
    rw [dirname_render hvalid, enter_render hvalid.dropLast]
  cases hmade : t.mkdirAll [] place.dropLast with
  | mk t' rest =>
      obtain ⟨made, outcome⟩ := rest
      obtain ⟨hregion, hwrite⟩ := h.mkdirAll hplace hvalid hmade
      have hexec : FileOp.exec { tree := t } (.mkdir (dirname (render place))) =
          ({ tree := t', accesses := made }, outcome) := by
        rw [FileOp.exec, hdir]
        dsimp only
        rw [hmade]
        rfl
      refine (meets_awaitFile (Q := fun _ s => s = { tree := t', accesses := made } ∧
        outcome = .ok ()) (fun value hvalue => ?_) fun error _ => ?_).bind fun value s' hs' => ?_
      · rw [hexec] at hvalue ⊢
        exact ⟨rfl, hvalue⟩
      · rw [hexec]
        exact hregion
      · obtain ⟨rfl, hok⟩ := hs'
        have hwritten : ReachedInside t f.pathValidator f.processCwd
            (FileOp.exec { tree := t', accesses := made } (.writeFile (render place) content)).1 := by
          rw [FileOp.exec]
          split
          · exact hregion
          · rename_i reached hreached
            split
            · exact hregion
            · exact ReachedInside.concat (s := { tree := t', accesses := made }) hregion
                (hwrite hok reached hreached)
        exact (meets_awaitFile (fun _ _ => hwritten) fun _ _ => hwritten).bind fun _ _ hnext => hnext

theorem writeFile_staysInside (input : WriteFileInput) : f.StaysInside t (f.writeFile input) := by
  refine (f.meets_resolvePath (fun place hplace hvalid => ?_) fun _ => nofun).bind
    fun _ _ hnext => hnext
  exact Prog.meets_ite (fun _ => nofun) fun _ => meets_write h _ hplace hvalid

/-- The listing of a directory reads directories at or below it. -/
theorem listEntries_reads (isRecursive : Bool) (levels : Nat) {place : List String} (above : String)
    (hplace : f.pathValidator.AtOrBelow f.processCwd place) (hvalid : IsPlace place)
    {s : FileSystem} (hs : StillReading t f.pathValidator f.processCwd s) :
    (f.listEntries isRecursive levels (render place) above).Meets fileContract
      (fun _ s => StillReading t f.pathValidator f.processCwd s)
      (fun _ s => StillReading t f.pathValidator f.processCwd s) s := by
  induction levels generalizing place above s with
  | zero => exact hs
  | succ levels ih =>
      have hread := StillReading.readdir h hplace hvalid hs
      refine (meets_awaitFile (Q := fun entries s => StillReading t f.pathValidator f.processCwd s ∧
        ∀ entry ∈ entries, IsName entry.1) (fun entries hentries => ⟨hread, ?_⟩)
        fun _ _ => hread).bind ?_
      · intro entry hentry
        rw [FileOp.exec] at hentries
        split at hentries
        · cases hentries
        · obtain rfl := Except.ok.inj hentries
          obtain ⟨child, hchild, rfl⟩ := List.mem_map.1 hentry
          have hnode := FileTree.node?_of_mem_children hchild
          exact FileTree.isPlace_of_node? (hnode ▸ Option.some_ne_none _) child.1 (by simp)
        · cases hentries
      · rintro entries s' ⟨hs', hnames⟩
        refine Prog.meets_foldlM hs' fun entry hentry results s'' hs'' => ?_
        refine Prog.meets_ite (fun _ => ?_) fun _ => hs''
        obtain ⟨root, hroot, hleads⟩ := hplace
        have hname := hnames entry hentry
        rw [pathResolve_name hvalid hname]
        exact (ih _ ⟨root, hroot, hleads.trans (List.prefix_append _ _)⟩
          (hvalid.concat hname) hs'').bind
          fun _ _ hnext => hnext

theorem ls_staysInside (levels : Nat) (input : LsInput) : f.StaysInside t (f.ls levels input) := by
  refine (f.meets_resolvePath (fun place hplace hvalid => ?_) fun _ => nofun).bind
    fun _ _ hnext => hnext
  have hlisted := listEntries_reads h (input.isRecursive.getD false) levels "" hplace hvalid
    start_reading
  refine (Prog.meets_handle (hlisted.mono (fun _ _ hs => hs.2) fun error s hs => ?_)).bind
    fun _ _ hnext => hnext
  exact Prog.meets_ite (fun _ => hs.2) fun _ => hs.2

theorem delete_staysInside (input : DeleteInput) : f.StaysInside t (f.delete input) := by
  refine (f.meets_resolvePath (fun place hplace hvalid => ?_) fun _ => nofun).bind
    fun _ _ hnext => hnext
  refine (meets_awaitFile (fun isDirectory _ => ?_) fun _ _ => nofun).bind fun _ _ hnext => hnext
  have hrm := StillReading.rm h hplace hvalid start_reading (input.isRecursive.getD false)
  have hunlink := StillReading.unlink h hplace hvalid start_reading
  cases isDirectory with
  | true =>
      exact (meets_awaitFile (fun _ _ => hrm) fun _ _ => hrm).bind fun _ _ hnext => hnext
  | false =>
      exact (meets_awaitFile (fun _ _ => hunlink) fun _ _ => hunlink).bind fun _ _ hnext => hnext

theorem call_staysInside (call : FileCall) : f.StaysInside t (call.program f) := by
  cases call with
  | readFile input => exact readFile_staysInside h input
  | writeFile input => exact writeFile_staysInside h input
  | ls levels input => exact ls_staysInside h levels input
  | delete input => exact delete_staysInside h input

end FileTools

def homeNodes (target : String) : OrderedMap (List String) FileNode :=
  [(["home"], .directory), (["home", "agent"], .directory),
    (["home", "agent", "out"], .link target), (["etc"], .directory),
    (["etc", "passwd"], .file [120]), (["home", "agent", "notes"], .file [104, 105])]

theorem homeNodes_parents (target : String) : ∀ e ∈ homeNodes target, e.1.dropLast = [] ∨
    OrderedMap.get? (homeNodes target) e.1.dropLast = some .directory := by
  simp [homeNodes, OrderedMap.get?]

theorem homeNodes_places (target : String) : ∀ e ∈ homeNodes target, IsPlace e.1 := by
  simp only [homeNodes, List.forall_mem_cons]
  decide +kernel

theorem homeNodes_nodup (target : String) : (OrderedMap.keys (homeNodes target)).Nodup := by
  simp [homeNodes, OrderedMap.keys]

/-- A home directory that is an allowed root, with a link to where `target` says. -/
def homeTree (target : String) : FileTree where
  nodes := homeNodes target
  parents := homeNodes_parents target
  places := homeNodes_places target
  nodup := homeNodes_nodup target

def homeTools : FileTools where
  maxFileBytes := 10
  pathValidator := { allowedRoots := ["/home/agent"] }
  processCwd := { place := ["home", "agent"], isPlace := by decide +kernel }
  toText := fun _ bytes => String.ofList (bytes.map fun byte => Char.ofNat byte.toNat)

end Nexus
