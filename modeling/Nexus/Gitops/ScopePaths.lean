import Nexus.Lib.SlashPath
import Nexus.Scope.ScopeClosure
import Mathlib.Data.List.Sort

/-!
# Paths of scope nodes

The three walks that give a scope node its path: `ActualStateReaderService` over all rows,
`ConfigExportService` over what is below the platform root, and `ScopeNodeGitopsHandler` over what
is below the root of a binding. All of them climb the column `parent_id`; they differ in the root
they stop at and in what they say about a node without a row. The other way round a path is resolved
from the platform root along the slugs of the nodes that are not archived.
-/

set_option autoImplicit false

namespace Nexus

open SlashPath

/-- The tables of the scopes with the ids of the archived nodes; `localeLE` says when
`localeCompare` is not positive. -/
structure ScopeView where
  tables : ScopeTables
  archivedIds : List String := []
  localeLE : String → String → Bool := fun a b => a ≤ b

namespace ScopeView

def isArchived (view : ScopeView) (id : String) : Bool := id ∈ view.archivedIds

/-- `getDescendantIds`, which includes the node itself. -/
def getDescendantIds (view : ScopeView) (nodeId : String) : List String :=
  (view.tables.closure.filter fun row => row.ancestorId = nodeId).map fun row => row.descendantId

/-- The recursion `pathOf` of the three services over the rows they have read: `stop` says where it
ends, `missing` what stands for a node without a row. -/
def pathOf (rows : List ScopeNode) (stop : String → Option String) (missing : String → String) :
    Nat → String → Option String
  | 0, _ => none
  | depth + 1, id =>
      match stop id with
      | some path => some path
      | none =>
          match rows.find? fun row => row.id = id with
          | none => some (missing id)
          | some node =>
              match node.parentId with
              | none => some (child "/" node.slug)
              | some parentId =>
                  (pathOf rows stop missing depth parentId).map fun parent =>
                    child parent node.slug

/-- The path of the platform root. -/
def stopAtGlobal (id : String) : Option String := if id = globalScopeNodeId then some "/" else none

/-- More levels than a tree of the nodes has. -/
def pathDepth (view : ScopeView) : Nat := view.tables.nodes.length + 2

/-- `ActualStateReaderService.buildIdToPathMap`. -/
def readerPath (view : ScopeView) (id : String) : Option String :=
  pathOf view.tables.nodes stopAtGlobal (fun id => "/" ++ id) view.pathDepth id

/-- `ConfigExportService.buildScopePathMap`. -/
def exportPath (view : ScopeView) (id : String) : Option String :=
  let allIds := globalScopeNodeId :: view.getDescendantIds globalScopeNodeId
  pathOf (view.tables.nodes.filter fun node => node.id ∈ allIds) stopAtGlobal (fun _ => "/")
    view.pathDepth id

/-- `ScopeNodeGitopsHandler.buildIdToPathMap` over the rows below the root of a binding. -/
def handlerPath (view : ScopeView) (bindingRoot id : String) : Option String :=
  pathOf (view.tables.nodes.filter fun node => node.id ∈ view.getDescendantIds bindingRoot)
    (fun _ => none) (fun id => "/" ++ id) view.pathDepth id

/-- The children of a node in the tree of `getTree`. -/
def treeChildren (view : ScopeView) (id : String) : List ScopeNode :=
  (view.tables.nodes.filter fun node =>
      !view.isArchived node.id && node.parentId == some id).insertionSort
    fun a b => view.localeLE a.name b.name = true

/-- The root of the tree of `getTree`. -/
def getTree (view : ScopeView) : Option String :=
  (view.tables.nodes.find? fun node =>
    !view.isArchived node.id && node.id == globalScopeNodeId).map fun node => node.id

/-- The child that a segment names. -/
def childBySlug (view : ScopeView) (current segment : String) : Option String :=
  ((view.treeChildren current).find? fun node => node.slug = segment).map fun node => node.id

/-- The loop of the resolutions: one child after the other. -/
def descend (view : ScopeView) (segments : List String) : Option String :=
  view.getTree.bind fun root => segments.foldlM view.childBySlug root

/-- `ScopeNodeGitopsHandler.findScopeNodeIdByPath`. -/
def findScopeNodeIdByPath (view : ScopeView) (path : String) : Option String :=
  view.descend (segments path)

/-- `resolveScopeNodeId`; a text that does not start with a slash is an id. -/
def resolveScopeNodeId (view : ScopeView) (scopePath : Option String) : Option String :=
  match scopePath with
  | none => none
  | some path =>
      if path = "" then none
      else if path = "/" then view.getTree
      else if path.toList.head? ≠ some '/' then some path
      else view.descend (segments (trimSlashes path))

end ScopeView

/-! ## Ways down -/

/-- The way down from one node to another with the slugs along it; every node below the first one
satisfies `P`. -/
inductive SlugTrail (tables : ScopeTables) (P : ScopeNode → Prop) : String → List String → String →
    Prop where
  | here (a : String) : SlugTrail tables P a [] a
  | down {a p : String} {slugs : List String} {node : ScopeNode} : SlugTrail tables P a slugs p →
      node ∈ tables.nodes → node.parentId = some p → P node →
        SlugTrail tables P a (slugs ++ [node.slug]) node.id

namespace SlugTrail

variable {tables : ScopeTables} {P Q : ScopeNode → Prop} {a b d : String}
  {slugs slugs' : List String}

theorem trans (hab : SlugTrail tables P a slugs b) (hbd : SlugTrail tables P b slugs' d) :
    SlugTrail tables P a (slugs ++ slugs') d := by
  induction hbd with
  | here => simpa using hab
  | down _ hnode hparent hp ih =>
      rw [← List.append_assoc]
      exact ih.down hnode hparent hp

theorem climb (hkeys : (tables.nodes.map ScopeNode.id).Nodup)
    (h : SlugTrail tables P a slugs d) :
    Forest.climb tables.parentOf slugs.length d = some a := by
  induction h with
  | here => rfl
  | down _ hnode hparent _ ih =>
      rw [List.length_append, List.length_singleton,
        Forest.climb_succ_of_some ((parentOf_of_mem hkeys hnode).trans hparent)]
      exact ih

theorem imp (h : SlugTrail tables P a slugs d)
    (hPQ : ∀ node ∈ tables.nodes, ∀ p, node.parentId = some p → P node → Q node) :
    SlugTrail tables Q a slugs d := by
  induction h with
  | here => exact .here _
  | down _ hnode hparent hp ih => exact ih.down hnode hparent (hPQ _ hnode _ hparent hp)

/-- What holds of the slugs along the way. -/
theorem slugs_of (h : SlugTrail tables P a slugs d) {R : String → Prop}
    (hR : ∀ node, P node → R node.slug) : ∀ slug ∈ slugs, R slug := by
  induction h with
  | here => exact fun _ hmem => absurd hmem List.not_mem_nil
  | down _ _ _ hp ih =>
      intro slug hmem
      rcases List.mem_append.mp hmem with hmem | hmem
      · exact ih slug hmem
      · rw [List.mem_singleton.mp hmem]
        exact hR _ hp

/-- Between two nodes there is one way at most. -/
theorem unique (hkeys : (tables.nodes.map ScopeNode.id).Nodup)
    (hacyclic : Forest.Acyclic tables.parentOf) (h : SlugTrail tables P a slugs d)
    (h' : SlugTrail tables Q a slugs' d) : slugs = slugs' := by
  induction h generalizing slugs' with
  | here =>
      have hlength := hacyclic.depth_unique (h'.climb hkeys) (Forest.climb_zero)
      exact (List.length_eq_zero_iff.mp hlength).symm
  | @down p slugs node htrail hnode hparent hp ih =>
      have hlength := hacyclic.depth_unique (h'.climb hkeys)
        ((htrail.down hnode hparent hp).climb hkeys)
      generalize hd : node.id = d at h'
      cases h' with
      | here => simp at hlength
      | @down p' slugs'' node' htrail' hnode' hparent' hp' =>
          obtain rfl := List.inj_on_of_nodup_map hkeys hnode hnode' hd
          obtain rfl := Option.some.inj (hparent.symm.trans hparent')
          rw [ih htrail']

variable (hsound : tables.Sound)

include hsound

/-- A climb read from above. -/
theorem of_climb {n : Nat} (hd : d ∈ tables.ids)
    (hclimb : Forest.climb tables.parentOf n d = some a)
    (hP : ∀ node ∈ tables.nodes, ∀ j, j < n →
      Forest.climb tables.parentOf j d = some node.id → P node) :
    ∃ slugs, SlugTrail tables P a slugs d := by
  induction n generalizing d with
  | zero =>
      obtain rfl := Option.some.inj hclimb
      exact ⟨[], .here d⟩
  | succ n ih =>
      obtain ⟨node, hnode, rfl⟩ := hd
      cases hparent : node.parentId with
      | none =>
          have hnone := (parentOf_of_mem hsound.keys hnode).trans hparent
          rw [Forest.climb_succ_of_none hnone] at hclimb
          exact absurd hclimb (by simp)
      | some q =>
          have hq := (parentOf_of_mem hsound.keys hnode).trans hparent
          rw [Forest.climb_succ_of_some hq] at hclimb
          obtain ⟨slugs, htrail⟩ := ih (hsound.exactClosure.parents _ _ hq) hclimb fun m hm j hj hclimbj =>
            hP m hm (j + 1) (by omega) (by rw [Forest.climb_succ_of_some hq, hclimbj])
          exact ⟨_, htrail.down hnode hparent (hP node hnode 0 (by omega) rfl)⟩

/-- A way is shorter than the table. -/
theorem length_lt (hd : d ∈ tables.ids) (h : SlugTrail tables P a slugs d) :
    slugs.length < tables.nodes.length := by
  have hclimb := h.climb hsound.keys
  rw [← List.length_map ScopeNode.id]
  apply hsound.acyclic.length_lt (d := d)
  intro j hj
  cases hb : Forest.climb tables.parentOf j d with
  | none =>
      obtain ⟨k, hk⟩ := Nat.exists_eq_add_of_le hj
      rw [hk, Forest.climb_add, hb] at hclimb
      exact absurd hclimb (by simp)
  | some b =>
      obtain ⟨node, hnode, hid⟩ := hsound.climb_mem d hd j b hb
      exact ⟨b, List.mem_map.mpr ⟨node, hnode, hid⟩, rfl⟩

end SlugTrail

/-! ## The paths of the three walks -/

namespace ScopeView

variable {tables : ScopeTables} {rows : List ScopeNode} {stop : String → Option String}
  {missing : String → String} {a d base : String} {slugs : List String}

/-- A walk whose rows include the nodes on the way renders the slugs from where it ends. -/
theorem pathOf_trail {k : Nat}
    (h : SlugTrail tables (fun node => stop node.id = none ∧
      rows.find? (fun row => row.id = node.id) = some node) a slugs d)
    (hbase : pathOf rows stop missing k a = some base) :
    pathOf rows stop missing (k + slugs.length) d = some (render base slugs) := by
  induction h with
  | here => exact hbase
  | @down p slugs node _ _ hparent hp ih =>
      rw [List.length_append, List.length_singleton, ← Nat.add_assoc, pathOf, hp.1, render_snoc]
      simp only [hp.2, hparent, ih, Option.map_some]

section Sound

variable {view : ScopeView} {P : ScopeNode → Prop} {r : String} (hsound : view.tables.Sound)

include hsound

theorem ne_global_of_parent {node : ScopeNode} {p : String} (hnode : node ∈ view.tables.nodes)
    (hparent : node.parentId = some p) : node.id ≠ globalScopeNodeId := by
  intro hid
  rw [(hsound.root node hnode).mpr hid] at hparent
  exact absurd hparent (by simp)

/-- The rows that a walk has read are found by their ids. -/
theorem find_row (keep : ScopeNode → Bool) {node : ScopeNode} (hnode : node ∈ view.tables.nodes)
    (hkeep : keep node = true) :
    (view.tables.nodes.filter keep).find? (fun row => row.id = node.id) = some node := by
  have hkeys : ((view.tables.nodes.filter keep).map ScopeNode.id).Nodup :=
    hsound.keys.sublist (List.filter_sublist.map _)
  exact @findNode_of_mem ⟨view.tables.nodes.filter keep, []⟩ node hkeys
    (List.mem_filter.mpr ⟨hnode, hkeep⟩)

theorem mem_getDescendantIds {a d : String} :
    d ∈ view.getDescendantIds a ↔
      d ∈ view.tables.ids ∧ ∃ n, Forest.climb view.tables.parentOf n d = some a := by
  unfold getDescendantIds
  constructor
  · intro h
    obtain ⟨row, hrow, rfl⟩ := List.mem_map.mp h
    obtain ⟨hmem, ha⟩ := List.mem_filter.mp hrow
    obtain rfl := of_decide_eq_true ha
    obtain ⟨hd, hclimb⟩ := (hsound.closure row.ancestorId row.descendantId row.depth).mp hmem
    exact ⟨hd, row.depth, hclimb⟩
  · rintro ⟨hd, n, hclimb⟩
    have hrow := (hsound.closure a d n).mpr ⟨hd, hclimb⟩
    exact List.mem_map.mpr ⟨_, List.mem_filter.mpr ⟨hrow, by simp⟩, rfl⟩

/-- A walk from the platform root that has read every row. -/
theorem walk_trail {rows : List ScopeNode} {missing : String → String}
    (hrows : ∀ node ∈ view.tables.nodes, rows.find? (fun row => row.id = node.id) = some node)
    (hd : d ∈ view.tables.ids) (h : SlugTrail view.tables P globalScopeNodeId slugs d) :
    pathOf rows stopAtGlobal missing view.pathDepth d = some (render "/" slugs) := by
  have hlength := h.length_lt hsound hd
  have htrail := h.imp (Q := fun node => stopAtGlobal node.id = none ∧
      rows.find? (fun row => row.id = node.id) = some node)
    fun node hnode p hparent _ =>
      ⟨if_neg (ne_global_of_parent hsound hnode hparent), hrows node hnode⟩
  have hdepth : view.pathDepth = (view.pathDepth - slugs.length - 1 + 1) + slugs.length := by
    unfold pathDepth
    omega
  rw [hdepth]
  exact pathOf_trail htrail (by simp [pathOf, stopAtGlobal])

theorem readerPath_trail (hd : d ∈ view.tables.ids)
    (h : SlugTrail view.tables P globalScopeNodeId slugs d) :
    view.readerPath d = some (render "/" slugs) :=
  walk_trail hsound (fun _ hnode => findNode_of_mem hsound.keys hnode) hd h

theorem exportPath_trail (hd : d ∈ view.tables.ids)
    (h : SlugTrail view.tables P globalScopeNodeId slugs d) :
    view.exportPath d = some (render "/" slugs) := by
  unfold exportPath
  refine walk_trail hsound (fun node hnode => find_row hsound _ hnode ?_) hd h
  have hbelow := (mem_getDescendantIds hsound).mpr
    ⟨⟨node, hnode, rfl⟩, hsound.rooted node.id ⟨node, hnode, rfl⟩⟩
  exact decide_eq_true (List.mem_cons_of_mem _ hbelow)

end Sound

/-- The path that the handler gives to the root of a binding: the parent of the root is a node
without a row for it. -/
def handlerBase (root : ScopeNode) : String :=
  match root.parentId with
  | none => child "/" root.slug
  | some parentId => child ("/" ++ parentId) root.slug

section Handler

variable {view : ScopeView} {P : ScopeNode → Prop} {root : ScopeNode}
  (hsound : view.tables.Sound) (hroot : root ∈ view.tables.nodes)

include hsound hroot

theorem pathOf_handlerBase (k : Nat) :
    pathOf (view.tables.nodes.filter fun node => node.id ∈ view.getDescendantIds root.id)
      (fun _ => none) (fun id => "/" ++ id) (k + 2) root.id = some (handlerBase root) := by
  have hself : root.id ∈ view.getDescendantIds root.id :=
    (mem_getDescendantIds hsound).mpr ⟨⟨root, hroot, rfl⟩, 0, rfl⟩
  have hrow := find_row hsound (fun node => node.id ∈ view.getDescendantIds root.id) hroot
    (decide_eq_true hself)
  unfold handlerBase
  rw [pathOf]
  simp only [hrow]
  cases hparent : root.parentId with
  | none => rfl
  | some parentId =>
      -- the parent is above the root, so that it is not among the rows
      have hmissing : (view.tables.nodes.filter fun node =>
          node.id ∈ view.getDescendantIds root.id).find? (fun row => row.id = parentId) = none := by
        rw [List.find?_eq_none]
        intro node hnode hid
        obtain rfl := of_decide_eq_true hid
        have hbelow := of_decide_eq_true (List.mem_filter.mp hnode).2
        obtain ⟨-, n, hclimb⟩ := (mem_getDescendantIds hsound).mp hbelow
        refine hsound.acyclic root.id n ?_
        rw [Forest.climb_succ_of_some ((parentOf_of_mem hsound.keys hroot).trans hparent)]
        exact hclimb
      simp [pathOf, hmissing]

theorem handlerPath_trail (hd : d ∈ view.getDescendantIds root.id)
    (h : SlugTrail view.tables P root.id slugs d) :
    view.handlerPath root.id d = some (render (handlerBase root) slugs) := by
  obtain ⟨hmem, n, hclimb⟩ := (mem_getDescendantIds hsound).mp hd
  have hlength := h.length_lt hsound hmem
  obtain ⟨slugs', htrail⟩ := SlugTrail.of_climb hsound (P := fun node =>
      (none : Option String) = none ∧ (view.tables.nodes.filter fun node =>
        node.id ∈ view.getDescendantIds root.id).find? (fun row => row.id = node.id) = some node)
    hmem hclimb fun node hnode j hj hclimbj => by
      refine ⟨rfl, find_row hsound _ hnode (decide_eq_true ((mem_getDescendantIds hsound).mpr
        ⟨⟨node, hnode, rfl⟩, n - j, ?_⟩))⟩
      rw [← Nat.add_sub_of_le hj.le, Forest.climb_trans hclimbj] at hclimb
      exact hclimb
  obtain rfl := h.unique hsound.keys hsound.acyclic htrail
  have hdepth : view.pathDepth = (view.pathDepth - slugs.length - 2 + 2) + slugs.length := by
    unfold pathDepth
    omega
  rw [handlerPath, hdepth]
  exact pathOf_trail htrail (pathOf_handlerBase hsound hroot _)

end Handler

/-! ## Resolution -/

/-- A node that a path can lead to: it is not archived, and a segment can name it. -/
def IsNameable (view : ScopeView) (node : ScopeNode) : Prop :=
  view.isArchived node.id = false ∧ IsPlain node.slug

section Resolution

variable {view : ScopeView} {current segment : String} {segments : List String}

theorem childBySlug_some (h : view.childBySlug current segment = some d) :
    ∃ node ∈ view.tables.nodes, view.isArchived node.id = false ∧
      node.parentId = some current ∧ node.slug = segment ∧ node.id = d := by
  obtain ⟨node, hfind, rfl⟩ := Option.map_eq_some_iff.mp h
  have hmem := List.mem_of_find?_eq_some hfind
  rw [treeChildren, List.mem_insertionSort, List.mem_filter] at hmem
  obtain ⟨hnode, hlive⟩ := hmem
  rw [Bool.and_eq_true, Bool.not_eq_true', beq_iff_eq] at hlive
  exact ⟨node, hnode, hlive.1, hlive.2, by simpa using List.find?_some hfind, rfl⟩

/-- A resolution walks down a way of nodes that are not archived. -/
theorem foldlM_trail {a : String} (h : segments.foldlM view.childBySlug a = some d) :
    SlugTrail view.tables (fun node => view.isArchived node.id = false) a segments d := by
  induction segments using List.reverseRecOn generalizing d with
  | nil =>
      obtain rfl := Option.some.inj h
      exact .here a
  | append_singleton segments segment ih =>
      rw [List.foldlM_append] at h
      obtain ⟨p, hp, hlast⟩ := Option.bind_eq_some_iff.mp h
      have hchild : view.childBySlug p segment = some d := by simpa using hlast
      obtain ⟨node, hnode, hlive, hparent, rfl, rfl⟩ := childBySlug_some hchild
      exact (ih hp).down hnode hparent hlive

/-- Where slugs are unique among siblings, the slugs of a way lead back to its end. -/
theorem foldlM_of_trail {a : String}
    (hslugs : (view.tables.nodes.map ScopeNode.slugKey).Nodup)
    (h : SlugTrail view.tables (fun node => view.isArchived node.id = false) a slugs d) :
    slugs.foldlM view.childBySlug a = some d := by
  induction h with
  | here => rfl
  | @down p slugs node _ hnode hparent hlive ih =>
      have hchild : view.childBySlug p node.slug = some node.id := by
        have hmem : node ∈ view.treeChildren p := by
          rw [treeChildren, List.mem_insertionSort, List.mem_filter]
          exact ⟨hnode, by simp [hlive, hparent]⟩
        cases hfind : (view.treeChildren p).find? fun child => child.slug = node.slug with
        | none => exact absurd (by simp) (List.find?_eq_none.mp hfind node hmem)
        | some other =>
            have hother : view.childBySlug p node.slug = some other.id := by
              rw [childBySlug, hfind, Option.map_some]
            obtain ⟨sibling, hsibling, -, hp, hslug, hid⟩ := childBySlug_some hother
            have hkey : sibling.slugKey = node.slugKey := by
              rw [ScopeNode.slugKey, ScopeNode.slugKey, hp, hparent, hslug]
            rw [hother, ← hid, List.inj_on_of_nodup_map hslugs hsibling hnode hkey]
      rw [List.foldlM_append, ih]
      simpa using hchild

end Resolution

end ScopeView

end Nexus
