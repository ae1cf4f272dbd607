import Nexus.Gitops.ScopePaths

/-!
# One address for each scope node

When the three walks agree on the path of a node and the path leads back to it. The handler of a
binding starts its paths with the id of the parent of the binding root, or with the slug of the
platform root, so that it agrees with the other two only for a root with a peculiar parent.
-/

set_option autoImplicit false

namespace Nexus

open SlashPath ScopeView

/-- Every walk gives the node one path, and both resolutions lead from it to the node. -/
def OneAddress (view : ScopeView) (root : ScopeNode) (d : String) : Prop :=
  ∃ path, view.readerPath d = some path ∧ view.exportPath d = some path ∧
    view.handlerPath root.id d = some path ∧ view.findScopeNodeIdByPath path = some d ∧
      view.resolveScopeNodeId (some path) = some d

/-- The handler starts the paths below the root of a binding as the other walks do: the root is the
platform root and has no slug, or its parent is a child of the platform root with its own id for a
slug. -/
def Anchored (view : ScopeView) (root : ScopeNode) : Prop :=
  (root.id = globalScopeNodeId ∧ root.slug = "") ∨
    ∃ parent ∈ view.tables.nodes, root.parentId = some parent.id ∧
      parent.parentId = some globalScopeNodeId ∧ parent.slug = parent.id

/-- Nothing on the way from the platform root to the node is archived, and every slug below the
platform root is a segment. -/
def IsAddressable (view : ScopeView) (d : String) : Prop :=
  view.isArchived globalScopeNodeId = false ∧
    ∀ node ∈ view.tables.nodes, node.id ≠ globalScopeNodeId →
      d ∈ view.getDescendantIds node.id → IsNameable view node

variable {node : ScopeNode}

namespace SlugTrail

variable {tables : ScopeTables} {P : ScopeNode → Prop} {a d : String} {slugs : List String}

theorem with_slugs (h : SlugTrail tables P a slugs d) :
    SlugTrail tables (fun node => P node ∧ node.slug ∈ slugs) a slugs d := by
  induction h with
  | here => exact .here _
  | down _ hnode hparent hp ih =>
      refine (ih.imp fun m _ p _ hm => ⟨hm.1, List.mem_append_left _ hm.2⟩).down hnode hparent
        ⟨hp, by simp⟩

/-- A node that is climbed to before the end of the way is on it. -/
theorem of_climb_lt (hkeys : (tables.nodes.map ScopeNode.id).Nodup)
    (h : SlugTrail tables P a slugs d) (hnode : node ∈ tables.nodes) {j : Nat}
    (hj : j < slugs.length) (hclimb : Forest.climb tables.parentOf j d = some node.id) :
    P node := by
  induction h generalizing j with
  | here => exact absurd hj (by simp)
  | @down p slugs last _ hlast hparent hp ih =>
      cases j with
      | zero =>
          have hid : last.id = node.id := Option.some.inj hclimb
          rwa [List.inj_on_of_nodup_map hkeys hlast hnode hid] at hp
      | succ j =>
          rw [Forest.climb_succ_of_some ((parentOf_of_mem hkeys hlast).trans hparent)] at hclimb
          rw [List.length_append, List.length_singleton] at hj
          exact ih (by omega) hclimb

end SlugTrail

namespace SlugTrail

variable {tables : ScopeTables} {P : ScopeNode → Prop} {a d slug : String} {slugs : List String}

theorem eq_of_nil (h : SlugTrail tables P a slugs d) (hnil : slugs = []) : d = a := by
  cases h with
  | here => rfl
  | down _ _ _ _ => simp at hnil

/-- A way of one slug leads to a child. -/
theorem of_singleton (h : SlugTrail tables P a slugs d) (hslugs : slugs = [slug]) :
    ∃ node ∈ tables.nodes, node.id = d ∧ node.parentId = some a ∧ node.slug = slug := by
  cases h with
  | here => simp at hslugs
  | @down p slugs node htrail hnode hparent hp =>
      have hnil : slugs = [] := by
        have hlength := congrArg List.length hslugs
        simpa using hlength
      subst hnil
      obtain rfl := htrail.eq_of_nil rfl
      exact ⟨node, hnode, rfl, hparent, by simpa using hslugs⟩

end SlugTrail

section Address

variable {view : ScopeView} {root : ScopeNode} {d : String} (hsound : view.tables.Sound)

include hsound

/-- A node other than the platform root that is above another one is on the way down to it. -/
theorem nameable_of_trail {slugs : List String} {P : ScopeNode → Prop}
    (h : SlugTrail view.tables P globalScopeNodeId slugs d) (hnode : node ∈ view.tables.nodes)
    (hne : node.id ≠ globalScopeNodeId) (hbelow : d ∈ view.getDescendantIds node.id) : P node := by
  obtain ⟨-, j, hclimb⟩ := (mem_getDescendantIds hsound).mp hbelow
  refine h.of_climb_lt hsound.keys hnode ?_ hclimb
  rcases Forest.climb_comparable (h.climb hsound.keys) hclimb with ⟨hle, habove⟩ | ⟨hlt, -⟩
  · -- nothing is above the platform root
    have hnone : view.tables.parentOf globalScopeNodeId = none := by
      obtain ⟨global, hglobal, hid⟩ := hsound.global_mem ⟨node, hnode, rfl⟩
      rw [← hid, parentOf_of_mem hsound.keys hglobal]
      exact (hsound.root global hglobal).mpr hid
    cases hm : j - slugs.length with
    | zero =>
        rw [hm] at habove
        exact absurd (Option.some.inj habove).symm hne
    | succ m =>
        rw [hm, Forest.climb_succ_of_none hnone] at habove
        exact absurd habove (by simp)
  · exact hlt

theorem exists_trail (hd : d ∈ view.getDescendantIds root.id) (hroot : root ∈ view.tables.nodes) :
    ∃ above below, SlugTrail view.tables (fun _ => True) globalScopeNodeId above root.id ∧
      SlugTrail view.tables (fun _ => True) root.id below d := by
  obtain ⟨hmem, n, hclimb⟩ := (mem_getDescendantIds hsound).mp hd
  obtain ⟨m, hglobal⟩ := hsound.rooted root.id ⟨root, hroot, rfl⟩
  obtain ⟨above, habove⟩ := SlugTrail.of_climb (P := fun _ => True) hsound ⟨root, hroot, rfl⟩
    hglobal fun _ _ _ _ _ => trivial
  obtain ⟨below, hbelow⟩ := SlugTrail.of_climb (P := fun _ => True) hsound hmem hclimb
    fun _ _ _ _ _ => trivial
  exact ⟨above, below, habove, hbelow⟩

/-- The id of a node can stand for a segment. -/
theorem plain_id (hnode : node ∈ view.tables.nodes) : IsPlain node.id := by
  have huuid := hsound.uuids node hnode
  refine ⟨fun hempty => ?_, not_mem_of_uuid (by decide) (by decide) (by decide) (by decide) huuid⟩
  rw [hempty] at huuid
  exact absurd huuid (by decide +kernel)

/-- The handler starts below the binding root as the other walks do. -/
theorem handlerBase_eq_iff {above : List String} (hroot : root ∈ view.tables.nodes)
    (habove : SlugTrail view.tables (fun _ => True) globalScopeNodeId above root.id)
    (hplain : ∀ slug ∈ above, IsPlain slug) :
    handlerBase root = render "/" above ↔ Anchored view root := by
  unfold handlerBase
  constructor
  · intro h
    cases hparent : root.parentId with
    | none =>
        have hid := (hsound.root root hroot).mp hparent
        rw [hid] at habove
        obtain rfl := habove.unique hsound.keys hsound.acyclic (SlugTrail.here (P := fun _ => True) _)
        rw [hparent] at h
        have hlist := congrArg String.toList h
        rw [toList_child] at hlist
        exact .inl ⟨hid, String.toList_injective (by simpa [render] using hlist)⟩
    | some p =>
        obtain ⟨parent, hmem, rfl, -⟩ := hsound.parents root hroot p hparent
        obtain ⟨m, hclimb⟩ := hsound.rooted parent.id ⟨parent, hmem, rfl⟩
        obtain ⟨slugs, htrail⟩ := SlugTrail.of_climb (P := fun _ => True) hsound
          ⟨parent, hmem, rfl⟩ hclimb fun _ _ _ _ _ => trivial
        obtain rfl := habove.unique hsound.keys hsound.acyclic
          (htrail.down hroot hparent trivial)
        rw [hparent, render_snoc] at h
        have hbase : child "/" parent.id = render "/" slugs := by
          rw [child_root]
          refine (child_left_inj ?_ (render_ne_empty (by decide))).mp h
          rw [← child_root]
          exact child_ne_empty
        -- the ids are plain, so that the path of the parent has one segment, the id
        have hsegments := congrArg segments hbase
        rw [segments_child (plain_id hsound hmem),
          segments_render fun slug hslug => hplain slug (List.mem_append_left _ hslug),
          segments_root, List.nil_append, List.nil_append] at hsegments
        obtain ⟨node, hnode, hid, hglobal, hslug⟩ := htrail.of_singleton hsegments.symm
        obtain rfl := List.inj_on_of_nodup_map hsound.keys hnode hmem hid
        exact .inr ⟨node, hmem, hparent, hglobal, hslug⟩
  · rintro (⟨hid, hslug⟩ | ⟨parent, hmem, hparent, hglobal, hslug⟩)
    · rw [hid] at habove
      obtain rfl := habove.unique hsound.keys hsound.acyclic (SlugTrail.here (P := fun _ => True) _)
      rw [(hsound.root root hroot).mpr hid, hslug]
      decide +kernel
    · have htrail := ((SlugTrail.here (P := fun _ => True) globalScopeNodeId).down hmem hglobal
        trivial).down hroot hparent trivial
      obtain rfl := habove.unique hsound.keys hsound.acyclic htrail
      rw [hparent, hslug]
      show child ("/" ++ parent.id) root.slug = child (child "/" parent.id) root.slug
      rw [child_root]

/-- The way to a node that a path can address. -/
theorem nameable_trail {slugs : List String} {P : ScopeNode → Prop} (haddress : IsAddressable view d)
    (hd : d ∈ view.tables.ids) (h : SlugTrail view.tables P globalScopeNodeId slugs d) :
    SlugTrail view.tables (IsNameable view) globalScopeNodeId slugs d := by
  obtain ⟨n, hclimb⟩ := hsound.rooted d hd
  obtain ⟨slugs', htrail⟩ := SlugTrail.of_climb (P := IsNameable view) hsound hd hclimb
    fun node hnode j hj hclimbj => by
      refine haddress.2 node hnode (fun hid => ?_)
        ((mem_getDescendantIds hsound).mpr ⟨hd, j, hclimbj⟩)
      rw [hid] at hclimbj
      exact absurd (hsound.acyclic.depth_unique hclimbj hclimb) hj.ne
  obtain rfl := h.unique hsound.keys hsound.acyclic htrail
  exact htrail

/-- The paths lead back exactly to the nodes that nothing archived and no odd slug is above. -/
theorem descend_trail_iff {slugs : List String}
    (hslugs : (view.tables.nodes.map ScopeNode.slugKey).Nodup)
    (h : SlugTrail view.tables (fun _ => True) globalScopeNodeId slugs d)
    (hd : d ∈ view.tables.ids) :
    view.descend (segments (render "/" slugs)) = some d ↔ IsAddressable view d := by
  constructor
  · intro hdescend
    obtain ⟨global, htree, hfold⟩ := Option.bind_eq_some_iff.mp hdescend
    obtain ⟨row, hrow, rfl⟩ := Option.map_eq_some_iff.mp htree
    have hlive := List.find?_some hrow
    rw [Bool.and_eq_true, Bool.not_eq_true', beq_iff_eq] at hlive
    rw [hlive.2] at hfold
    have htrail := foldlM_trail hfold
    have hsegments := h.unique hsound.keys hsound.acyclic htrail
    rw [← hsegments] at htrail
    refine ⟨hlive.2 ▸ hlive.1, fun node hnode hne hbelow => ?_⟩
    obtain ⟨hnode', hmem⟩ := nameable_of_trail hsound htrail.with_slugs hnode hne hbelow
    rw [hsegments] at hmem
    exact ⟨hnode', plain_of_mem_segments hmem⟩
  · intro haddress
    have htrail := nameable_trail hsound haddress hd h
    obtain ⟨global, hmem, hid⟩ := hsound.global_mem hd
    have htree : view.getTree = some globalScopeNodeId := by
      unfold getTree
      cases hfind : view.tables.nodes.find? fun node =>
          !view.isArchived node.id && node.id == globalScopeNodeId with
      | none =>
          refine absurd ?_ (List.find?_eq_none.mp hfind global hmem)
          simp [hid, haddress.1]
      | some row =>
          have hrow := List.find?_some hfind
          rw [Bool.and_eq_true, beq_iff_eq] at hrow
          rw [Option.map_some, hrow.2]
    rw [segments_render (htrail.slugs_of fun _ hnode => hnode.2), segments_root, List.nil_append,
      descend, htree, Option.bind_some]
    exact foldlM_of_trail hslugs (htrail.imp fun _ _ _ _ hnode => hnode.1)

omit hsound in
/-- The resolution that trims the slashes agrees with the other one on rendered paths. -/
theorem resolveScopeNodeId_render (slugs : List String) :
    view.resolveScopeNodeId (some (render "/" slugs)) =
      view.descend (segments (render "/" slugs)) := by
  have hne : render "/" slugs ≠ "" := render_ne_empty (by decide)
  have hhead : (render "/" slugs).toList.head? = some '/' := head_render (by decide +kernel)
  unfold resolveScopeNodeId
  by_cases hroot : render "/" slugs = "/"
  · rw [hroot, segments_root]
    cases htree : view.getTree with
    | none => simp [descend, htree]
    | some root => simp [descend, htree]
  · simp only [if_neg hne, if_neg hroot, hhead, ne_eq, not_true_eq_false, if_false]
    rw [segments_trimSlashes]

/-- When a node has one address. -/
theorem oneAddress_iff (hslugs : (view.tables.nodes.map ScopeNode.slugKey).Nodup)
    (hroot : root ∈ view.tables.nodes) (hd : d ∈ view.getDescendantIds root.id) :
    OneAddress view root d ↔ Anchored view root ∧ IsAddressable view d := by
  obtain ⟨above, below, habove, hbelow⟩ := exists_trail hsound hd hroot
  have hmem := ((mem_getDescendantIds hsound).mp hd).1
  have htrail := habove.trans hbelow
  have hreader := readerPath_trail hsound hmem htrail
  have hexport := exportPath_trail hsound hmem htrail
  have hhandler := handlerPath_trail hsound hroot hd hbelow
  have hresolve := descend_trail_iff hsound hslugs htrail hmem
  have hne : (handlerBase root) ≠ "" := by
    unfold handlerBase
    split
    · exact child_ne_empty
    · exact child_ne_empty
  -- the paths agree where their beginnings do
  have hagree : render (handlerBase root) below = render "/" (above ++ below) ↔
      handlerBase root = render "/" above := by
    rw [render_append]
    exact render_left_inj hne (render_ne_empty (by decide))
  have hbase : IsAddressable view d →
      (handlerBase root = render "/" above ↔ Anchored view root) := fun haddress =>
    handlerBase_eq_iff hsound hroot habove fun slug hslug => by
      have hnameable := nameable_trail hsound haddress hmem htrail
      exact hnameable.slugs_of (fun _ hnode => hnode.2) slug (List.mem_append_left _ hslug)
  constructor
  · rintro ⟨path, hr, -, hh, hfind, -⟩
    obtain rfl := Option.some.inj (hreader.symm.trans hr)
    have haddress := hresolve.mp hfind
    have heq := Option.some.inj (hhandler.symm.trans hh)
    exact ⟨(hbase haddress).mp (hagree.mp heq), haddress⟩
  · rintro ⟨hanchored, haddress⟩
    have heq := hagree.mpr ((hbase haddress).mpr hanchored)
    refine ⟨_, hreader, hexport, heq ▸ hhandler, hresolve.mpr haddress, ?_⟩
    rw [resolveScopeNodeId_render]
    exact hresolve.mpr haddress

end Address

/-- **One address for each scope node.** Below the root of a binding every node that is not archived
has one path in all three walks that leads back to it, and no two have the same one, exactly when
the handler starts its paths as the other walks do and no node on the way to one is archived or has
a slug that is no segment. -/
theorem one_address_below_root_iff (view : ScopeView) (root : ScopeNode)
    (hsound : view.tables.Sound) (hslugs : (view.tables.nodes.map ScopeNode.slugKey).Nodup)
    (hroot : root ∈ view.tables.nodes) :
    ((∀ d ∈ view.getDescendantIds root.id, view.isArchived d = false → OneAddress view root d) ∧
        ∀ d ∈ view.getDescendantIds root.id, ∀ e ∈ view.getDescendantIds root.id,
          view.isArchived d = false → view.isArchived e = false → d ≠ e →
            view.readerPath d ≠ view.readerPath e) ↔
      ∀ d ∈ view.getDescendantIds root.id, view.isArchived d = false →
        Anchored view root ∧ IsAddressable view d := by
  constructor
  · rintro ⟨hone, -⟩ d hd hlive
    exact (oneAddress_iff hsound hslugs hroot hd).mp (hone d hd hlive)
  · intro h
    have hone : ∀ d ∈ view.getDescendantIds root.id, view.isArchived d = false →
        OneAddress view root d := fun d hd hlive =>
      (oneAddress_iff hsound hslugs hroot hd).mpr (h d hd hlive)
    refine ⟨hone, fun d hd e he hlive hlive' hne heq => hne ?_⟩
    obtain ⟨path, hread, -, -, hfind, -⟩ := hone d hd hlive
    obtain ⟨path', hread', -, -, hfind', -⟩ := hone e he hlive'
    obtain rfl := Option.some.inj (hread.symm.trans (heq.trans hread'))
    exact Option.some.inj (hfind.symm.trans hfind')

/-- The platform root alone. -/
def seededView : ScopeView where
  tables := seededTables

theorem one_address_below_seeded_root :
    ((∀ d ∈ seededView.getDescendantIds globalScopeNodeId, seededView.isArchived d = false →
        OneAddress seededView ⟨globalScopeNodeId, none, .platform, "Platform", "platform", none,
          false⟩ d) ∧
        ∀ d ∈ seededView.getDescendantIds globalScopeNodeId,
          ∀ e ∈ seededView.getDescendantIds globalScopeNodeId,
          seededView.isArchived d = false → seededView.isArchived e = false → d ≠ e →
            seededView.readerPath d ≠ seededView.readerPath e) ↔
      ∀ d ∈ seededView.getDescendantIds globalScopeNodeId, seededView.isArchived d = false →
        Anchored seededView ⟨globalScopeNodeId, none, .platform, "Platform", "platform", none,
          false⟩ ∧ IsAddressable seededView d :=
  one_address_below_root_iff seededView _ seededTables_sound (List.nodup_singleton _)
    List.mem_cons_self

/-! ## A binding of an organisation -/

def acmeOrg : ScopeNode :=
  ⟨"a0000000-0000-4000-8000-000000000001", some globalScopeNodeId, .org, "Acme", "acme", none, false⟩

def coreTeam : ScopeNode :=
  ⟨"a0000000-0000-4000-8000-000000000002", some acmeOrg.id, .team, "Core", "core", none, false⟩

/-- The platform, its organisation `acme` and a team of the organisation. -/
def acmeTables : ScopeTables where
  nodes := seededTables.nodes ++ [acmeOrg, coreTeam]
  closure := seededTables.closure ++ [⟨globalScopeNodeId, acmeOrg.id, 1⟩,
    ⟨acmeOrg.id, acmeOrg.id, 0⟩, ⟨globalScopeNodeId, coreTeam.id, 2⟩,
    ⟨acmeOrg.id, coreTeam.id, 1⟩, ⟨coreTeam.id, coreTeam.id, 0⟩]

def acmeView : ScopeView where
  tables := acmeTables

/-- The calls of `createNode` that lead to the tables. -/
example :
    let org := (createNode { type := "org", name := "Acme", slug := "acme" } acmeOrg.id
      seededTables).1
    (createNode { parentId := some acmeOrg.id, type := "team", name := "Core", slug := "core" }
      coreTeam.id org).1.closure = acmeTables.closure := by
  decide +kernel

/-- The reader says `/acme/core`; the handler of a binding of `acme` starts with the id of the
platform root. -/
theorem team_has_two_addresses :
    coreTeam.id ∈ acmeView.getDescendantIds acmeOrg.id ∧ acmeView.isArchived coreTeam.id = false ∧
      ¬OneAddress acmeView acmeOrg coreTeam.id := by
  refine ⟨by decide +kernel, by decide +kernel, ?_⟩
  rintro ⟨path, hreader, -, hhandler, -, -⟩
  have hread : acmeView.readerPath coreTeam.id = some "/acme/core" := by decide +kernel
  have hhandle : acmeView.handlerPath acmeOrg.id coreTeam.id =
      some ("/" ++ globalScopeNodeId ++ "/acme/core") := by decide +kernel
  have hpaths := (hread.symm.trans hreader).trans (hhandler.symm.trans hhandle)
  exact absurd hpaths (by decide +kernel)

end Nexus
