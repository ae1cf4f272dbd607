import Nexus.Lib.ParentForest
import Nexus.Lib.TableRows
import Nexus.Scope.ScopeService
import Mathlib.Data.List.Nodup

/-!
# The closure table is exact

After every sequence of `createNode` and `moveNode` calls, the table `scope_node_closure` lists every
chain of parents with its length, once for each pair (`scope_closure_exact`). The invariant is
`ScopeTables.Sound`; one lemma for each transaction keeps it.
-/

set_option autoImplicit false

namespace Nexus

/-! ## The forest of the nodes -/

/-- The ids of the nodes. -/
def ScopeTables.ids (tables : ScopeTables) : Set String :=
  fun id => ∃ node ∈ tables.nodes, node.id = id

/-- The column `parent_id` of the node with an id. -/
def ScopeTables.parentOf (tables : ScopeTables) (id : String) : Option String :=
  (tables.findNode id).bind ScopeNode.parentId

/-- The chain as a row of the table. -/
def ScopeTables.HasRow (tables : ScopeTables) (a d : String) (n : Nat) : Prop :=
  ⟨a, d, n⟩ ∈ tables.closure

/-- A parent may have a child of the type. -/
def MayContain (parentType childType : ScopeNodeType) : Prop :=
  assertValidParentChildType parentType childType = .ok ()

structure ScopeTables.Sound (tables : ScopeTables) : Prop where
  uuids : ∀ node ∈ tables.nodes, isUuidText node.id = true
  keys : (tables.nodes.map ScopeNode.id).Nodup
  parents : ∀ node ∈ tables.nodes, ∀ q, node.parentId = some q →
    ∃ parent ∈ tables.nodes, parent.id = q ∧ MayContain parent.type node.type
  root : ∀ node ∈ tables.nodes, node.parentId = none ↔ node.id = globalScopeNodeId
  acyclic : Forest.Acyclic tables.parentOf
  rooted : Forest.Rooted tables.parentOf tables.ids globalScopeNodeId
  closure : Forest.IsClosure tables.parentOf tables.ids tables.HasRow
  closureKeys : (tables.closure.map ScopeNodeClosure.key).Nodup

/-- The table lists the chains of parents of the nodes, whatever their types: the parents are nodes
(a foreign key), and ids and pairs are distinct (the primary keys). -/
structure ScopeTables.ExactClosure (tables : ScopeTables) : Prop where
  keys : (tables.nodes.map ScopeNode.id).Nodup
  parents : ∀ id q, tables.parentOf id = some q → q ∈ tables.ids
  closure : Forest.IsClosure tables.parentOf tables.ids tables.HasRow
  closureKeys : (tables.closure.map ScopeNodeClosure.key).Nodup

section Nodes

variable {tables : ScopeTables} {id q : String} {node : ScopeNode}

theorem findNode_some (h : tables.findNode id = some node) : node ∈ tables.nodes ∧ node.id = id :=
  ⟨List.mem_of_find?_eq_some h, by simpa using List.find?_some h⟩

theorem findNode_eq_none : tables.findNode id = none ↔ id ∉ tables.ids := by
  unfold ScopeTables.findNode
  rw [List.find?_eq_none]
  constructor
  · rintro h ⟨node, hnode, hid⟩
    exact h node hnode (by simpa using hid)
  · intro h node hnode hid
    exact h ⟨node, hnode, by simpa using hid⟩

theorem findNode_of_mem (hkeys : (tables.nodes.map ScopeNode.id).Nodup)
    (hnode : node ∈ tables.nodes) : tables.findNode node.id = some node := by
  cases hfind : tables.findNode node.id with
  | none => exact absurd ⟨node, hnode, rfl⟩ (findNode_eq_none.1 hfind)
  | some found =>
      obtain ⟨hfound, hid⟩ := findNode_some hfind
      rw [List.inj_on_of_nodup_map hkeys hfound hnode hid]

theorem parentOf_of_mem (hkeys : (tables.nodes.map ScopeNode.id).Nodup)
    (hnode : node ∈ tables.nodes) : tables.parentOf node.id = node.parentId := by
  rw [ScopeTables.parentOf, findNode_of_mem hkeys hnode, Option.bind_some]

theorem parentOf_of_not_mem (h : id ∉ tables.ids) : tables.parentOf id = none := by
  rw [ScopeTables.parentOf, findNode_eq_none.2 h, Option.bind_none]

namespace ScopeTables.ExactClosure

variable (h : tables.ExactClosure)

include h

/-- Everything above a node is a node. -/
theorem climb_mem : ∀ d ∈ tables.ids, ∀ n a, Forest.climb tables.parentOf n d = some a →
    a ∈ tables.ids := by
  intro d hd n
  induction n generalizing d with
  | zero =>
      intro a ha
      obtain rfl := Option.some.inj ha
      exact hd
  | succ n ih =>
      intro a ha
      cases hparent : tables.parentOf d with
      | none =>
          rw [Forest.climb_succ_of_none hparent] at ha
          exact absurd ha (by simp)
      | some q =>
          rw [Forest.climb_succ_of_some hparent] at ha
          exact ih q (h.parents d q hparent) a ha

/-- A row of the table is about nodes. -/
theorem row_mem {row : ScopeNodeClosure} (hrow : row ∈ tables.closure) :
    row.ancestorId ∈ tables.ids ∧ row.descendantId ∈ tables.ids := by
  obtain ⟨hd, ha⟩ := (h.closure row.ancestorId row.descendantId row.depth).1 hrow
  exact ⟨h.climb_mem _ hd _ _ ha, hd⟩

end ScopeTables.ExactClosure

/-- A sound pair of tables has an exact closure. -/
theorem ScopeTables.Sound.exactClosure (h : tables.Sound) : tables.ExactClosure := by
  refine ⟨h.keys, ?_, h.closure, h.closureKeys⟩
  intro id q hparent
  cases hfind : tables.findNode id with
  | none =>
      rw [parentOf_of_not_mem (findNode_eq_none.1 hfind)] at hparent
      exact absurd hparent (by simp)
  | some node =>
      rw [ScopeTables.parentOf, hfind, Option.bind_some] at hparent
      obtain ⟨parent, hmem, hid, -⟩ := h.parents node (findNode_some hfind).1 q hparent
      exact ⟨parent, hmem, hid⟩

theorem ScopeTables.Sound.climb_mem (h : tables.Sound) : ∀ d ∈ tables.ids, ∀ n a,
    Forest.climb tables.parentOf n d = some a → a ∈ tables.ids :=
  h.exactClosure.climb_mem

end Nodes

/-! ## Insertions into the closure table -/

variable {closure : List ScopeNodeClosure}

section Insertions

theorem not_any_key_of_nodup {rows : List ScopeNodeClosure} {row : ScopeNodeClosure}
    (h : ((closure ++ row :: rows).map ScopeNodeClosure.key).Nodup) :
    (closure.any fun x => x.key = row.key) = false := by
  rw [List.map_append, List.map_cons, List.nodup_append] at h
  rw [List.any_eq_false]
  intro x hx hkey
  exact h.2.2 _ (List.mem_map_of_mem hx) _ List.mem_cons_self (by simpa using hkey)

/-- Rows with new keys are inserted, with and without `ON CONFLICT`. -/
theorem insertRows_of_nodup (rows : List ScopeNodeClosure)
    (h : ((closure ++ rows).map ScopeNodeClosure.key).Nodup) :
    insertRows closure rows = .ok (closure ++ rows) := by
  induction rows generalizing closure with
  | nil => rw [insertRows, List.append_nil]
  | cons row rows ih =>
      have happend := List.append_cons closure row rows
      rw [insertRows, if_neg (by simp [not_any_key_of_nodup h]), happend]
      exact ih (happend ▸ h)

theorem insertMissing_of_nodup (rows : List ScopeNodeClosure)
    (h : ((closure ++ rows).map ScopeNodeClosure.key).Nodup) :
    insertMissing closure rows = closure ++ rows := by
  induction rows generalizing closure with
  | nil => rw [insertMissing, List.append_nil]
  | cons row rows ih =>
      have happend := List.append_cons closure row rows
      rw [insertMissing, if_neg (by simp [not_any_key_of_nodup h]), happend]
      exact ih (happend ▸ h)

end Insertions

/-! ## createNode -/

variable {α : Type}

theorem ok_bind {β : Type} {a : α} {f : α → Except ScopeError β} :
    (Except.ok a : Except ScopeError α) >>= f = f a := rfl

theorem exists_of_bind_ok {ε β : Type} {x : Except ε α} {f : α → Except ε β} {b : β}
    (h : x >>= f = .ok b) : ∃ a, x = .ok a ∧ f a = .ok b := by
  cases x with
  | error e => cases h
  | ok a => exact ⟨a, rfl, h⟩

section Create

variable {tables tables' : ScopeTables} {input : CreateScopeNodeInput} {type : ScopeNodeType}
  {generated : String} {node : ScopeNode}

/-- The rows of a new node below a parent. -/
def childRows (closure : List ScopeNodeClosure) (parentId id : String) : List ScopeNodeClosure :=
  (closure.filter fun row => row.descendantId = parentId).map fun row =>
    ⟨row.ancestorId, id, row.depth + 1⟩

theorem uuidParameter_ok {text : String} {u : Unit} (h : uuidParameter text = .ok u) :
    isUuidText text = true := by
  unfold uuidParameter at h
  split at h
  · rename_i huuid
    exact huuid
  · cases h

theorem insertNode_ok {inserted : ScopeTables} (h : tables.insertNode node = .ok inserted) :
    isUuidText node.id = true ∧ node.id ∉ tables.ids ∧
      inserted = ⟨tables.nodes ++ [node], tables.closure⟩ := by
  unfold ScopeTables.insertNode at h
  obtain ⟨_, huuid, h⟩ := exists_of_bind_ok h
  refine ⟨uuidParameter_ok huuid, ?_⟩
  split at h
  · cases h
  · split at h
    · cases h
    · rename_i hkey
      split at h
      · cases h
      · refine ⟨?_, (Except.ok.inj h).symm⟩
        rintro ⟨x, hx, hid⟩
        exact hkey (List.any_eq_true.2 ⟨x, hx, by simpa using hid⟩)

/-- What the transaction of `createNode` has done when it succeeds. -/
theorem createNodeBody_ok (h : createNodeBody input type generated tables = .ok (tables', node)) :
    ∃ parent ∈ tables.nodes, node.parentId = some parent.id ∧ MayContain parent.type node.type ∧
      isUuidText node.id = true ∧ node.id ∉ tables.ids ∧ ∃ inherited,
        insertRows tables.closure (childRows tables.closure parent.id node.id) = .ok inherited ∧
        tables' = ⟨tables.nodes ++ [node], insertMissing inherited [⟨node.id, node.id, 0⟩]⟩ := by
  unfold createNodeBody at h
  obtain ⟨-, -, h⟩ := exists_of_bind_ok h
  cases hfind : tables.findNode (input.parentId.getD globalScopeNodeId) with
  | none =>
      simp only [hfind] at h
      cases h
  | some parent =>
      obtain ⟨hparent, hid⟩ := findNode_some hfind
      simp only [hfind] at h
      cases hvalid : assertValidParentChildType parent.type type with
      | error e =>
          rw [hvalid] at h
          cases h
      | ok _ =>
          rw [hvalid, ok_bind] at h
          obtain ⟨inserted, hinsert, h⟩ := exists_of_bind_ok h
          obtain ⟨huuid, hnew, rfl⟩ := insertNode_ok hinsert
          obtain ⟨inherited, hinherited, h⟩ := exists_of_bind_ok h
          obtain ⟨rfl, rfl⟩ := Prod.mk.inj (Except.ok.inj h)
          refine ⟨parent, hparent, by rw [hid], hvalid, huuid, hnew, inherited, ?_, rfl⟩
          rw [childRows, hid]
          exact hinherited

/-- The keys of the rows of a new node are new. -/
theorem childRows_keys (parentId : String) {id : String} (h : tables.ExactClosure)
    (hnew : id ∉ tables.ids) :
    ((tables.closure ++ childRows tables.closure parentId id ++
      [(⟨id, id, 0⟩ : ScopeNodeClosure)]).map ScopeNodeClosure.key).Nodup := by
  have hdistinct : tables.closure.Nodup := h.closureKeys.of_map _
  have hchild : ((childRows tables.closure parentId id).map ScopeNodeClosure.key).Nodup := by
    rw [childRows, List.map_map]
    apply List.Nodup.map_on _ (hdistinct.filter _)
    intro row hrow row' hrow' hkey
    obtain ⟨hmem, hdesc⟩ := List.mem_filter.1 hrow
    obtain ⟨hmem', hdesc'⟩ := List.mem_filter.1 hrow'
    apply List.inj_on_of_nodup_map h.closureKeys hmem hmem'
    simp only [Function.comp, ScopeNodeClosure.key, Prod.mk.injEq, and_true] at hkey
    simp only [decide_eq_true_eq] at hdesc hdesc'
    rw [ScopeNodeClosure.key, ScopeNodeClosure.key, hkey, hdesc, hdesc']
  have hself : ∀ row ∈ childRows tables.closure parentId id, row.ancestorId ≠ id := by
    intro row hrow hid
    obtain ⟨super, hsuper, rfl⟩ := List.mem_map.1 hrow
    exact hnew (hid ▸ (h.row_mem (List.mem_filter.1 hsuper).1).1)
  have hdesc : ∀ row ∈ childRows tables.closure parentId id, row.descendantId = id := by
    intro row hrow
    obtain ⟨super, -, rfl⟩ := List.mem_map.1 hrow
    rfl
  rw [List.map_append, List.map_append, List.nodup_append, List.nodup_append]
  refine ⟨⟨h.closureKeys, hchild, ?_⟩, List.nodup_singleton _, ?_⟩
  · -- an old row is about an old node
    rintro key hold key' hkey' rfl
    obtain ⟨row, hrow, rfl⟩ := List.mem_map.1 hold
    obtain ⟨row', hrow', hkey⟩ := List.mem_map.1 hkey'
    have hdescendant : row.descendantId = id := (Prod.mk.inj hkey).2.symm.trans (hdesc row' hrow')
    exact hnew (hdescendant ▸ (h.row_mem hrow).2)
  · rintro key hkey key' hself' rfl
    rw [List.map_singleton, List.mem_singleton] at hself'
    subst hself'
    rcases List.mem_append.1 hkey with hkey | hkey
    · obtain ⟨row, hrow, hrowKey⟩ := List.mem_map.1 hkey
      have hdescendant : row.descendantId = id := (Prod.mk.inj hrowKey).2
      exact hnew (hdescendant ▸ (h.row_mem hrow).2)
    · obtain ⟨row, hrow, hrowKey⟩ := List.mem_map.1 hkey
      exact hself row hrow (Prod.mk.inj hrowKey).1

/-- The parents after an insertion. -/
theorem parentOf_append (hnew : node.id ∉ tables.ids) {q : String}
    (hparent : node.parentId = some q) :
    ScopeTables.parentOf ⟨tables.nodes ++ [node], closure⟩ =
      Forest.reparent tables.parentOf node.id q := by
  funext id
  by_cases hid : id = node.id
  · subst hid
    have hnone : tables.nodes.find? (fun x => decide (x.id = node.id)) = none :=
      findNode_eq_none.2 hnew
    rw [Forest.reparent, Function.update_self, ScopeTables.parentOf, ScopeTables.findNode,
      List.find?_append, hnone]
    simp [hparent]
  · rw [Forest.reparent, Function.update_of_ne hid, ScopeTables.parentOf, ScopeTables.findNode,
      List.find?_append, ScopeTables.parentOf, ScopeTables.findNode]
    have hother : [node].find? (fun x => decide (x.id = id)) = none := by
      simp [Ne.symm hid]
    rw [hother, Option.or_none]

theorem ids_append :
    ScopeTables.ids ⟨tables.nodes ++ [node], closure⟩ = insert node.id tables.ids := by
  ext id
  constructor
  · rintro ⟨x, hx, rfl⟩
    rcases List.mem_append.1 hx with hx | hx
    · exact Set.mem_insert_of_mem _ ⟨x, hx, rfl⟩
    · rw [List.mem_singleton.1 hx]
      exact Set.mem_insert _ _
  · rintro (rfl | ⟨x, hx, rfl⟩)
    · exact ⟨node, by simp, rfl⟩
    · exact ⟨x, List.mem_append_left _ hx, rfl⟩

theorem ScopeTables.Sound.global_mem (h : tables.Sound) {id : String} (hid : id ∈ tables.ids) :
    globalScopeNodeId ∈ tables.ids := by
  obtain ⟨n, hn⟩ := h.rooted id hid
  exact h.climb_mem id hid n _ hn

theorem mem_childRows {parentId id a d : String} {n : Nat} :
    ⟨a, d, n⟩ ∈ childRows closure parentId id ↔
      d = id ∧ ∃ i, (⟨a, parentId, i⟩ : ScopeNodeClosure) ∈ closure ∧ n = i + 1 := by
  unfold childRows
  rw [List.mem_map]
  constructor
  · rintro ⟨⟨a', d', i⟩, hrow, heq⟩
    obtain ⟨hmem, hd'⟩ := List.mem_filter.1 hrow
    simp only [decide_eq_true_eq] at hd'
    cases heq
    exact ⟨rfl, i, hd' ▸ hmem, rfl⟩
  · rintro ⟨rfl, i, hmem, rfl⟩
    exact ⟨⟨a, parentId, i⟩, List.mem_filter.2 ⟨hmem, by simp⟩, rfl⟩

/-- A new node below a node, with its rows, keeps the closure exact. -/
theorem ScopeTables.ExactClosure.append {q : String} (h : tables.ExactClosure)
    (hnew : node.id ∉ tables.ids) (hparentId : node.parentId = some q) (hmem : q ∈ tables.ids) :
    ScopeTables.ExactClosure ⟨tables.nodes ++ [node],
      tables.closure ++ childRows tables.closure q node.id ++ [⟨node.id, node.id, 0⟩]⟩ := by
  refine ⟨?_, ?_, ?_, childRows_keys q h hnew⟩
  · rw [List.map_append, List.nodup_append]
    refine ⟨h.keys, List.nodup_singleton _, ?_⟩
    rintro id hid id' hid' rfl
    obtain ⟨x, hx, rfl⟩ := List.mem_map.1 hid
    rw [List.map_singleton, List.mem_singleton] at hid'
    exact hnew ⟨x, hx, hid'⟩
  · rw [parentOf_append hnew hparentId, ids_append]
    intro id q' hq'
    by_cases hid : id = node.id
    · subst hid
      rw [Forest.reparent, Function.update_self, Option.some.injEq] at hq'
      exact Set.mem_insert_of_mem _ (hq' ▸ hmem)
    · rw [Forest.reparent, Function.update_of_ne hid] at hq'
      exact Set.mem_insert_of_mem _ (h.parents id q' hq')
  · rw [parentOf_append hnew hparentId, ids_append]
    intro a d n
    rw [← h.closure.attach hnew h.climb_mem hmem a d n]
    unfold ScopeTables.HasRow
    rw [List.mem_append, List.mem_append, mem_childRows, List.mem_singleton, or_assoc,
      ScopeNodeClosure.mk.injEq]

/-- **`createNode` keeps the invariant.** -/
theorem createNodeBody_sound (h : tables.Sound)
    (hbody : createNodeBody input type generated tables = .ok (tables', node)) :
    tables'.Sound := by
  obtain ⟨parent, hparent, hparentId, hvalid, huuid, hnew, inherited, hinherited, rfl⟩ :=
    createNodeBody_ok hbody
  have hmem : parent.id ∈ tables.ids := ⟨parent, hparent, rfl⟩
  have hexact := h.exactClosure.append hnew hparentId hmem
  have hkeys := hexact.closureKeys
  have hchild : insertRows tables.closure (childRows tables.closure parent.id node.id) =
      .ok (tables.closure ++ childRows tables.closure parent.id node.id) := by
    apply insertRows_of_nodup
    rw [List.map_append] at hkeys
    exact (List.nodup_append.1 hkeys).1
  obtain rfl := Except.ok.inj (hchild.symm.trans hinherited)
  rw [insertMissing_of_nodup _ hkeys]
  have hfree : ∀ j, Forest.climb tables.parentOf j parent.id ≠ some node.id :=
    fun j hj => hnew (h.climb_mem _ hmem j _ hj)
  refine ⟨?_, hexact.keys, ?_, ?_, ?_, ?_, hexact.closure, hkeys⟩
  · intro x hx
    rcases List.mem_append.1 hx with hx | hx
    · exact h.uuids x hx
    · rwa [List.mem_singleton.1 hx]
  · intro x hx q hq
    rcases List.mem_append.1 hx with hx | hx
    · obtain ⟨parent', hparent', hid, hvalid'⟩ := h.parents x hx q hq
      exact ⟨parent', List.mem_append_left _ hparent', hid, hvalid'⟩
    · obtain rfl := List.mem_singleton.1 hx
      obtain rfl := Option.some.inj (hparentId.symm.trans hq)
      exact ⟨parent, List.mem_append_left _ hparent, rfl, hvalid⟩
  · intro x hx
    rcases List.mem_append.1 hx with hx | hx
    · exact h.root x hx
    · obtain rfl := List.mem_singleton.1 hx
      rw [hparentId]
      refine ⟨nofun, fun hglobal => ?_⟩
      exact absurd (h.global_mem hmem) (hglobal ▸ hnew)
  · rw [parentOf_append hnew hparentId]
    exact h.acyclic.reparent hfree
  · rw [parentOf_append hnew hparentId, ids_append]
    exact h.rooted.attach hnew h.climb_mem hmem

end Create

/-! ## moveNode -/

section Move

variable {tables tables' : ScopeTables} {nodeId newParentId a d : String} {n : Nat}
  {oldParent : Option String}

theorem setParent_ok {nodes : List ScopeNode}
    (h : tables.setParent nodeId newParentId = .ok nodes) :
    nodes = tables.nodes.map (ScopeNode.moved nodeId newParentId) := by
  unfold ScopeTables.setParent at h
  dsimp only at h
  split at h
  · cases h
  · exact (Except.ok.inj h).symm

/-- What the transaction of `moveNode` has done when it succeeds. -/
theorem moveNodeBody_ok (h : moveNodeBody nodeId newParentId tables = .ok (tables', oldParent)) :
    ∃ parent ∈ tables.nodes, parent.id = newParentId ∧
      ∃ node ∈ tables.nodes, node.id = nodeId ∧ MayContain parent.type node.type ∧
        (∀ j, ¬ tables.HasRow nodeId newParentId j) ∧
        tables' = ⟨tables.nodes.map (ScopeNode.moved nodeId newParentId),
          insertMissing (detachSubtree tables.closure nodeId)
            (connectingRows (detachSubtree tables.closure nodeId) newParentId nodeId)⟩ := by
  unfold moveNodeBody at h
  obtain ⟨-, -, h⟩ := exists_of_bind_ok h
  cases hparent : tables.findNode newParentId with
  | none =>
      simp only [hparent] at h
      cases h
  | some parent =>
      simp only [hparent] at h
      obtain ⟨-, -, h⟩ := exists_of_bind_ok h
      split at h
      · cases h
      · rename_i hfree
        cases hnode : tables.findNode nodeId with
        | none =>
            simp only [hnode] at h
            cases h
        | some node =>
            simp only [hnode] at h
            cases hvalid : assertValidParentChildType parent.type node.type with
            | error e =>
                rw [hvalid] at h
                cases h
            | ok _ =>
                rw [hvalid, ok_bind] at h
                obtain ⟨nodes, hnodes, h⟩ := exists_of_bind_ok h
                obtain rfl := setParent_ok hnodes
                obtain ⟨rfl, -⟩ := Prod.mk.inj (Except.ok.inj h)
                refine ⟨parent, (findNode_some hparent).1, (findNode_some hparent).2, node,
                  (findNode_some hnode).1, (findNode_some hnode).2, hvalid, fun j hj => ?_, rfl⟩
                exact hfree (List.any_eq_true.2 ⟨_, hj, by simp⟩)

theorem mem_detachSubtree :
    ⟨a, d, n⟩ ∈ detachSubtree tables.closure nodeId ↔ tables.HasRow a d n ∧
      ¬ ((∃ j, tables.HasRow nodeId d j) ∧ ∃ i, tables.HasRow a nodeId i ∧ a ≠ nodeId) := by
  have hsub : (tables.closure.any fun sub => sub.ancestorId = nodeId && sub.descendantId = d) =
      true ↔ ∃ j, tables.HasRow nodeId d j := by
    rw [List.any_eq_true]
    constructor
    · rintro ⟨⟨a', d', j⟩, hrow, hkey⟩
      simp only [Bool.and_eq_true, decide_eq_true_eq] at hkey
      obtain ⟨rfl, rfl⟩ := hkey
      exact ⟨j, hrow⟩
    · rintro ⟨j, hrow⟩
      exact ⟨_, hrow, by simp⟩
  have hsuper : (tables.closure.any fun super => super.descendantId = nodeId &&
      super.ancestorId ≠ nodeId && super.ancestorId = a) = true ↔
      ∃ i, tables.HasRow a nodeId i ∧ a ≠ nodeId := by
    rw [List.any_eq_true]
    constructor
    · rintro ⟨⟨a', d', i⟩, hrow, hkey⟩
      simp only [Bool.and_eq_true, decide_eq_true_eq] at hkey
      obtain ⟨⟨rfl, hne⟩, rfl⟩ := hkey
      exact ⟨i, hrow, hne⟩
    · rintro ⟨i, hrow, hne⟩
      exact ⟨_, hrow, by simp [hne]⟩
  unfold detachSubtree
  rw [List.mem_filter, ← hsub, ← hsuper, ScopeTables.HasRow]
  simp only [Bool.not_eq_true', Bool.and_eq_false_iff, not_and_or, Bool.not_eq_true]

theorem mem_connectingRows :
    ⟨a, d, n⟩ ∈ connectingRows closure newParentId nodeId ↔
      ∃ i j, (⟨a, newParentId, i⟩ : ScopeNodeClosure) ∈ closure ∧
        (⟨nodeId, d, j⟩ : ScopeNodeClosure) ∈ closure ∧ n = i + j + 1 := by
  unfold connectingRows
  rw [List.mem_map]
  constructor
  · rintro ⟨⟨⟨a', q, i⟩, ⟨v, d', j⟩⟩, hpair, heq⟩
    obtain ⟨hsuper, hsub⟩ := List.mem_product.1 hpair
    obtain ⟨hsuper, hq⟩ := List.mem_filter.1 hsuper
    obtain ⟨hsub, hv⟩ := List.mem_filter.1 hsub
    simp only [decide_eq_true_eq] at hq hv
    cases heq
    exact ⟨i, j, hq ▸ hsuper, hv ▸ hsub, rfl⟩
  · rintro ⟨i, j, hsuper, hsub, rfl⟩
    refine ⟨(⟨a, newParentId, i⟩, ⟨nodeId, d, j⟩), List.mem_product.2 ⟨?_, ?_⟩, rfl⟩
    · exact List.mem_filter.2 ⟨hsuper, by simp⟩
    · exact List.mem_filter.2 ⟨hsub, by simp⟩

theorem moved_id (node : ScopeNode) : (node.moved nodeId newParentId).id = node.id := by
  unfold ScopeNode.moved
  split <;> rfl

theorem moved_type (node : ScopeNode) : (node.moved nodeId newParentId).type = node.type := by
  unfold ScopeNode.moved
  split <;> rfl

theorem moved_ids (nodes : List ScopeNode) :
    (nodes.map (ScopeNode.moved nodeId newParentId)).map ScopeNode.id =
      nodes.map ScopeNode.id := by
  rw [List.map_map]
  exact List.map_congr_left fun node _ => moved_id node

theorem ids_moved :
    ScopeTables.ids ⟨tables.nodes.map (ScopeNode.moved nodeId newParentId), closure⟩ = tables.ids := by
  have hmem : ∀ (nodes : List ScopeNode) (id : String),
      (∃ node ∈ nodes, node.id = id) ↔ id ∈ nodes.map ScopeNode.id := fun nodes id =>
    List.mem_map.symm
  ext id
  show (∃ node ∈ tables.nodes.map (ScopeNode.moved nodeId newParentId), node.id = id) ↔
    ∃ node ∈ tables.nodes, node.id = id
  rw [hmem, hmem, moved_ids]

/-- The parents after a move. -/
theorem parentOf_moved (hnode : nodeId ∈ tables.ids) :
    ScopeTables.parentOf ⟨tables.nodes.map (ScopeNode.moved nodeId newParentId), closure⟩ =
      Forest.reparent tables.parentOf nodeId newParentId := by
  funext id
  unfold ScopeTables.parentOf ScopeTables.findNode
  rw [TableRows.find?_map moved_id]
  by_cases hid : id = nodeId
  · subst hid
    cases hfind : tables.nodes.find? fun node => decide (node.id = id) with
    | none => exact absurd hnode (findNode_eq_none.1 hfind)
    | some node =>
        have hnodeId : node.id = id := (findNode_some hfind).2
        simp [Forest.reparent, ScopeNode.moved, hnodeId]
  · rw [Forest.reparent, Function.update_of_ne hid]
    cases hfind : tables.nodes.find? fun node => decide (node.id = id) with
    | none => rfl
    | some node =>
        have hnodeId : node.id = id := (findNode_some hfind).2
        simp [ScopeNode.moved, hnodeId, hid]

section Sound

variable (h : tables.Sound) (hnode : nodeId ∈ tables.ids) (hmem : newParentId ∈ tables.ids)
  (hfree : ∀ j, ¬ tables.HasRow nodeId newParentId j)

include h hmem hfree

/-- The new parent is not in the subtree. -/
theorem climb_newParent (j : Nat) :
    Forest.climb tables.parentOf j newParentId ≠ some nodeId :=
  fun hj => hfree j ((h.closure _ _ _).2 ⟨hmem, hj⟩)

include hnode

/-- The keys of the connecting rows are new. -/
theorem connectingRows_keys :
    ((detachSubtree tables.closure nodeId ++
      connectingRows (detachSubtree tables.closure nodeId) newParentId nodeId).map
        ScopeNodeClosure.key).Nodup := by
  have hdetached : ((detachSubtree tables.closure nodeId).map ScopeNodeClosure.key).Nodup :=
    h.closureKeys.sublist (List.filter_sublist.map _)
  have hdistinct := hdetached.of_map
  rw [List.map_append, List.nodup_append]
  refine ⟨hdetached, ?_, ?_⟩
  · unfold connectingRows
    rw [List.map_map]
    apply List.Nodup.map_on _ ((hdistinct.filter _).product (hdistinct.filter _))
    rintro ⟨super, sub⟩ hpair ⟨super', sub'⟩ hpair' hkey
    obtain ⟨hsuper, hsub⟩ := List.mem_product.1 hpair
    obtain ⟨hsuper', hsub'⟩ := List.mem_product.1 hpair'
    obtain ⟨hsuper, hq⟩ := List.mem_filter.1 hsuper
    obtain ⟨hsuper', hq'⟩ := List.mem_filter.1 hsuper'
    obtain ⟨hsub, hv⟩ := List.mem_filter.1 hsub
    obtain ⟨hsub', hv'⟩ := List.mem_filter.1 hsub'
    simp only [decide_eq_true_eq] at hq hq' hv hv'
    simp only [Function.comp, ScopeNodeClosure.key, Prod.mk.injEq] at hkey
    have hsupers : super = super' := by
      apply List.inj_on_of_nodup_map hdetached hsuper hsuper'
      rw [ScopeNodeClosure.key, ScopeNodeClosure.key, hkey.1, hq, hq']
    have hsubs : sub = sub' := by
      apply List.inj_on_of_nodup_map hdetached hsub hsub'
      rw [ScopeNodeClosure.key, ScopeNodeClosure.key, hkey.2, hv, hv']
    rw [hsupers, hsubs]
  · rintro key hold key' hnew rfl
    obtain ⟨⟨a, d, n⟩, hrow, rfl⟩ := List.mem_map.1 hold
    obtain ⟨⟨a', d', n'⟩, hrow', hkey⟩ := List.mem_map.1 hnew
    cases hkey
    obtain ⟨hchain, hkept⟩ := mem_detachSubtree.1 hrow
    obtain ⟨i, j, hsuper, hsub, -⟩ := mem_connectingRows.1 hrow'
    obtain ⟨-, hi⟩ := (h.closure _ _ _).1 (mem_detachSubtree.1 hsuper).1
    obtain ⟨hd, hj⟩ := (h.closure _ _ _).1 (mem_detachSubtree.1 hsub).1
    obtain ⟨-, hn⟩ := (h.closure _ _ _).1 hchain
    -- the ancestor is above the new parent, so it is strictly above the node
    rcases Forest.climb_comparable hn hj with ⟨-, hav⟩ | ⟨hlt, hva⟩
    · exact climb_newParent h hmem hfree _ ((Forest.climb_trans hi).trans hav)
    · refine hkept ⟨⟨j, (mem_detachSubtree.1 hsub).1⟩, n - j, (h.closure _ _ _).2 ⟨hnode, hva⟩, ?_⟩
      rintro rfl
      have hzero := h.acyclic.depth_unique hva Forest.climb_zero
      omega

/-- The closure table after a move. -/
theorem closure_moved :
    Forest.IsClosure (Forest.reparent tables.parentOf nodeId newParentId) tables.ids fun a d n =>
      (⟨a, d, n⟩ : ScopeNodeClosure) ∈ detachSubtree tables.closure nodeId ++
        connectingRows (detachSubtree tables.closure nodeId) newParentId nodeId := by
  intro a d n
  rw [← h.closure.reparent h.acyclic (climb_newParent h hmem hfree) hnode hmem a d n]
  dsimp only
  rw [List.mem_append, mem_detachSubtree, mem_connectingRows]
  have hsuper : ∀ i, (⟨a, newParentId, i⟩ : ScopeNodeClosure) ∈
      detachSubtree tables.closure nodeId ↔ tables.HasRow a newParentId i := by
    intro i
    rw [mem_detachSubtree]
    exact ⟨And.left, fun hrow => ⟨hrow, fun hcut => hcut.1.elim hfree⟩⟩
  have hsub : ∀ j, (⟨nodeId, d, j⟩ : ScopeNodeClosure) ∈
      detachSubtree tables.closure nodeId ↔ tables.HasRow nodeId d j := by
    intro j
    rw [mem_detachSubtree]
    exact ⟨And.left, fun hrow => ⟨hrow, fun ⟨_, _, _, hne⟩ => hne rfl⟩⟩
  simp only [hsuper, hsub]

end Sound

/-- **`moveNode` keeps the invariant.** -/
theorem moveNodeBody_sound (h : tables.Sound)
    (hbody : moveNodeBody nodeId newParentId tables = .ok (tables', oldParent)) :
    tables'.Sound := by
  obtain ⟨parent, hparent, rfl, node, hnode, rfl, hvalid, hfree, rfl⟩ := moveNodeBody_ok hbody
  have hmem : parent.id ∈ tables.ids := ⟨parent, hparent, rfl⟩
  have hmem' : node.id ∈ tables.ids := ⟨node, hnode, rfl⟩
  have hkeys := connectingRows_keys h hmem' hmem hfree
  have hclimb := climb_newParent h hmem hfree
  rw [insertMissing_of_nodup _ hkeys]
  refine ⟨?_, ?_, ?_, ?_, ?_, ?_, ?_, hkeys⟩
  · intro x hx
    obtain ⟨y, hy, rfl⟩ := List.mem_map.1 hx
    rw [moved_id]
    exact h.uuids y hy
  · show ((tables.nodes.map (ScopeNode.moved node.id parent.id)).map ScopeNode.id).Nodup
    rw [moved_ids]
    exact h.keys
  · rintro x hx q hq
    obtain ⟨y, hy, rfl⟩ := List.mem_map.1 hx
    rw [moved_type]
    by_cases hmoved : y.id = node.id
    · obtain rfl := List.inj_on_of_nodup_map h.keys hy hnode hmoved
      have hparentId : some parent.id = some q := by simpa [ScopeNode.moved] using hq
      obtain rfl := Option.some.inj hparentId
      exact ⟨_, List.mem_map_of_mem hparent, moved_id parent, (moved_type parent).symm ▸ hvalid⟩
    · rw [ScopeNode.moved, if_neg hmoved] at hq
      obtain ⟨parent', hparent', hid, hvalid'⟩ := h.parents y hy q hq
      exact ⟨_, List.mem_map_of_mem hparent', (moved_id parent').trans hid,
        (moved_type parent').symm ▸ hvalid'⟩
  · intro x hx
    obtain ⟨y, hy, rfl⟩ := List.mem_map.1 hx
    rw [moved_id]
    by_cases hmoved : y.id = node.id
    · -- the root is above the new parent, so it is not the node that moves
      obtain ⟨n, hn⟩ := h.rooted parent.id hmem
      have hne : y.id ≠ globalScopeNodeId := by
        rw [hmoved]
        intro hglobal
        exact hclimb n (hglobal ▸ hn)
      refine ⟨fun hnone => ?_, fun hglobal => absurd hglobal hne⟩
      rw [ScopeNode.moved, if_pos hmoved] at hnone
      exact nomatch hnone
    · rw [ScopeNode.moved, if_neg hmoved]
      exact h.root y hy
  · rw [parentOf_moved hmem']
    exact h.acyclic.reparent hclimb
  · rw [parentOf_moved hmem', ids_moved]
    exact h.rooted.reparent h.acyclic hclimb hmem
  · rw [parentOf_moved hmem', ids_moved]
    exact closure_moved h hmem' hmem hfree

end Move

/-! ## Sequences of calls -/

section Calls

variable {tables : ScopeTables}

/-- A transaction keeps the invariant when its body does. -/
theorem transaction_sound {body : ScopeTables → Except ScopeError (ScopeTables × α)}
    (h : tables.Sound) (hbody : ∀ tables' a, body tables = .ok (tables', a) → tables'.Sound) :
    (scopeTransaction body tables).1.Sound := by
  unfold scopeTransaction
  cases hresult : body tables with
  | error e => exact h
  | ok result => exact hbody result.1 result.2 hresult

variable {e : ScopeError}

/-- A transaction that fails leaves the tables as they were. -/
theorem transaction_error {body : ScopeTables → Except ScopeError (ScopeTables × α)}
    (h : (scopeTransaction body tables).2 = .error e) :
    (scopeTransaction body tables).1 = tables := by
  unfold scopeTransaction at h ⊢
  cases hresult : body tables with
  | error e => rfl
  | ok result =>
      rw [hresult] at h
      cases h

/-- **One call.** Accepted or rejected, it keeps the invariant. -/
theorem exec_sound (h : tables.Sound) (call : ScopeCall) : (call.exec tables).1.Sound := by
  cases call with
  | createNode input generated =>
      show (createNode input generated tables).1.Sound
      unfold createNode
      split
      · exact h
      · split
        · exact h
        · exact transaction_sound h fun _ _ hbody => createNodeBody_sound h hbody
  | moveNode nodeId newParentId allowedDestinations =>
      show (moveNode nodeId newParentId allowedDestinations tables).1.Sound
      unfold moveNode
      split
      · split
        · exact h
        · exact transaction_sound h fun _ _ hbody => moveNodeBody_sound h hbody
      · exact transaction_sound h fun _ _ hbody => moveNodeBody_sound h hbody

theorem exceptionOf_eq_some {result : Except ScopeError α} (h : exceptionOf result = some e) :
    result = .error e := by
  cases result with
  | ok a => cases h
  | error e' =>
      obtain rfl := Option.some.inj h
      rfl

/-- A rejected call leaves both tables as they were. -/
theorem exec_rejected {call : ScopeCall} (h : (call.exec tables).2 = some e) :
    (call.exec tables).1 = tables := by
  cases call with
  | createNode input generated =>
      have hresult := exceptionOf_eq_some h
      show (createNode input generated tables).1 = tables
      unfold createNode at hresult ⊢
      split at hresult
      · rfl
      · split at hresult
        · rfl
        · exact transaction_error hresult
  | moveNode nodeId newParentId allowedDestinations =>
      have hresult := exceptionOf_eq_some h
      show (moveNode nodeId newParentId allowedDestinations tables).1 = tables
      unfold moveNode at hresult ⊢
      split at hresult
      · split at hresult
        · rename_i hforbidden
          rw [if_pos hforbidden]
        · rename_i hallowed
          rw [if_neg hallowed]
          exact transaction_error hresult
      · exact transaction_error hresult

theorem seededTables_sound : seededTables.Sound := by
  have hparent : ∀ id, seededTables.parentOf id = none := by
    intro id
    by_cases hid : globalScopeNodeId = id
    · simp [ScopeTables.parentOf, ScopeTables.findNode, seededTables, hid]
    · simp [ScopeTables.parentOf, ScopeTables.findNode, seededTables, hid]
  have hids : ∀ id ∈ seededTables.ids, id = globalScopeNodeId := by
    rintro id ⟨node, hnode, rfl⟩
    rw [List.mem_singleton.1 hnode]
  refine ⟨?_, List.nodup_singleton _, ?_, ?_, ?_, ?_, ?_, List.nodup_singleton _⟩
  · intro node hnode
    rw [List.mem_singleton.1 hnode]
    decide +kernel
  · intro node hnode q hq
    rw [List.mem_singleton.1 hnode] at hq
    exact nomatch hq
  · intro node hnode
    rw [List.mem_singleton.1 hnode]
    exact ⟨fun _ => rfl, fun _ => rfl⟩
  · intro d n hcycle
    rw [Forest.climb_succ_of_none (hparent d)] at hcycle
    exact nomatch hcycle
  · intro d hd
    exact ⟨0, congrArg some (hids d hd)⟩
  · intro a d n
    constructor
    · intro hrow
      obtain ⟨rfl, rfl, rfl⟩ : a = globalScopeNodeId ∧ d = globalScopeNodeId ∧ n = 0 := by
        simpa [ScopeTables.HasRow, seededTables] using hrow
      exact ⟨⟨_, List.mem_singleton_self _, rfl⟩, rfl⟩
    · rintro ⟨hd, ha⟩
      cases n with
      | zero =>
          obtain rfl := hids d hd
          obtain rfl := Option.some.inj ha
          exact List.mem_singleton_self _
      | succ n =>
          rw [Forest.climb_succ_of_none (hparent d)] at ha
          exact nomatch ha

/-- Every sequence of calls keeps the invariant. -/
theorem runScopeCalls_sound (calls : List ScopeCall) (h : tables.Sound) :
    (runScopeCalls calls tables).Sound := by
  induction calls generalizing tables with
  | nil => exact h
  | cons call calls ih => exact ih (exec_sound h call)

/-- **Scope closure is exact.** After every sequence of calls the table `scope_node_closure` holds
the chains of parents of the nodes with their lengths, one row a pair; the parents have no cycle and
end at the global node, the only one without a parent; every parent may contain its children; and a
call that is rejected leaves both tables as they were. -/
theorem scope_closure_exact (calls : List ScopeCall) :
    let tables := runScopeCalls calls seededTables
    (∀ a d n, (⟨a, d, n⟩ : ScopeNodeClosure) ∈ tables.closure ↔
      d ∈ tables.ids ∧ ParentPath tables.parentOf a d n) ∧
    (tables.closure.map ScopeNodeClosure.key).Nodup ∧
    (∀ d n, ¬ ParentPath tables.parentOf d d (n + 1)) ∧
    (∀ d ∈ tables.ids, ∃ n, ParentPath tables.parentOf globalScopeNodeId d n) ∧
    (∀ d ∈ tables.ids, tables.parentOf d = none ↔ d = globalScopeNodeId) ∧
    (∀ child ∈ tables.nodes, ∀ q, child.parentId = some q → ∃ parent ∈ tables.nodes,
      parent.id = q ∧ assertValidParentChildType parent.type child.type = .ok ()) ∧
    ∀ (call : ScopeCall) (e : ScopeError), (call.exec tables).2 = some e →
      (call.exec tables).1 = tables := by
  have hsound := runScopeCalls_sound calls seededTables_sound
  refine ⟨?_, hsound.closureKeys, ?_, ?_, ?_, hsound.parents, fun _ _ => exec_rejected⟩
  · intro a d n
    rw [Forest.parentPath_iff]
    exact hsound.closure a d n
  · intro d n hcycle
    exact hsound.acyclic d n (Forest.parentPath_iff.1 hcycle)
  · intro d hd
    obtain ⟨n, hn⟩ := hsound.rooted d hd
    exact ⟨n, Forest.parentPath_iff.2 hn⟩
  · rintro d ⟨node, hnode, rfl⟩
    rw [parentOf_of_mem hsound.keys hnode]
    exact hsound.root node hnode

end Calls

end Nexus
