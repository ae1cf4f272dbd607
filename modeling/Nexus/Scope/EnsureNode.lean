import Nexus.Scope.ScopeClosure

/-!
# Ensuring a scope node

`ScopeService.ensureNode`. The insertion of the node is skipped when the id is there, but the rows
of the closure table are inserted below the parent of the input in any case, and neither the parent
nor its type is checked. So the call leaves an existing node alone exactly when the parent it names
is above the node already, and it adds a new one in its place exactly when the caller has checked
what `createNode` checks.
-/

set_option autoImplicit false

namespace Nexus

/-! ## The transaction -/

/-- `INSERT INTO scope_nodes … ON CONFLICT (id) DO NOTHING`: a row whose id is there is skipped
before the other constraints are looked at. A row may be its own parent. -/
def ScopeTables.upsertNode (tables : ScopeTables) (node : ScopeNode) (parentId : String) :
    Except ScopeError ScopeTables := do
  uuidParameter node.id
  uuidParameter parentId
  if 255 < node.name.length ∨ 255 < node.slug.length then .error (.database "varchar(255)")
  else if tables.nodes.any fun x => x.id = node.id then .ok tables
  else if tables.nodes.any fun x => x.slugKey = node.slugKey then
    .error (.database "uq_scope_nodes_parent_slug")
  else if parentId ≠ node.id ∧ !tables.nodes.any fun x => x.id = parentId then
    .error (.database "scope_nodes_parent_id_fkey")
  else .ok { tables with nodes := tables.nodes ++ [node] }

/-- The parent an input names, or the global node. -/
def CreateScopeNodeInput.parent (input : CreateScopeNodeInput) : String :=
  input.parentId.getD globalScopeNodeId

/-- The row an input asks for. -/
def CreateScopeNodeInput.node (input : CreateScopeNodeInput) (type : ScopeNodeType) (id : String) :
    ScopeNode where
  id := id
  parentId := some input.parent
  type := type
  name := input.name
  slug := input.slug
  metadata := input.metadata
  isTenantRoot := input.isTenantRoot

/-- The closure table after the two insertions below a parent. -/
def linkBelow (closure : List ScopeNodeClosure) (parentId id : String) : List ScopeNodeClosure :=
  insertMissing (insertMissing closure (childRows closure parentId id)) [⟨id, id, 0⟩]

/-- The transaction of `ensureNode`; it returns the row with the id. -/
def ensureNodeBody (input : CreateScopeNodeInput) (type : ScopeNodeType) (id : String)
    (tables : ScopeTables) : Except ScopeError (ScopeTables × Option ScopeNode) := do
  let upserted ← tables.upsertNode (input.node type id) input.parent
  let ensured : ScopeTables :=
    { upserted with closure := linkBelow upserted.closure input.parent id }
  .ok (ensured, ensured.findNode id)

def ensureNode (input : CreateScopeNodeInput) (tables : ScopeTables) :
    ScopeTables × Except ScopeError (Option ScopeNode) :=
  match ScopeNodeType.ofText? input.type with
  | none => (tables, .error (.badRequest ("Unknown scope node type: " ++ input.type)))
  | some type =>
      match input.id with
      | none => (tables, .error (.badRequest "ensureNode requires an explicit id."))
      | some id =>
          if id = "" then
            (tables, .error (.badRequest "ensureNode requires an explicit id."))
          else scopeTransaction (ensureNodeBody input type id) tables

/-! ## What a call does -/

/-- The values of an input are those of a row of the id and the type. -/
structure AcceptedInput (input : CreateScopeNodeInput) (id : String) (type : ScopeNodeType) :
    Prop where
  givenId : input.id = some id
  knownType : ScopeNodeType.ofText? input.type = some type
  nonempty : id ≠ ""
  uuid : isUuidText id = true
  parentUuid : isUuidText input.parent = true
  name : input.name.length ≤ 255
  slug : input.slug.length ≤ 255

/-- The slug is free below the parent of the input. -/
def SlugFree (input : CreateScopeNodeInput) (tables : ScopeTables) : Prop :=
  ∀ node ∈ tables.nodes, node.slugKey ≠ (input.parent, input.slug)

section Calls

variable {input : CreateScopeNodeInput} {tables : ScopeTables} {id : String} {type : ScopeNodeType}

theorem uuidParameter_of_isUuidText {text : String} (h : isUuidText text = true) :
    uuidParameter text = .ok () := by
  rw [uuidParameter, if_pos h]

theorem any_id_iff {id : String} :
    (tables.nodes.any fun x => decide (x.id = id)) = true ↔ id ∈ tables.ids := by
  rw [List.any_eq_true]
  constructor
  · rintro ⟨x, hx, hid⟩
    exact ⟨x, hx, by simpa using hid⟩
  · rintro ⟨x, hx, hid⟩
    exact ⟨x, hx, by simpa using hid⟩

theorem any_slugKey_iff {input : CreateScopeNodeInput} {id : String} {type : ScopeNodeType} :
    (tables.nodes.any fun x => decide (x.slugKey = (input.node type id).slugKey)) = true ↔
      ¬ SlugFree input tables := by
  have hkey : (input.node type id).slugKey = (input.parent, input.slug) := rfl
  rw [hkey, List.any_eq_true]
  simp only [SlugFree, decide_eq_true_eq, not_forall, not_not, exists_prop]

/-- An accepted input reaches the transaction. -/
theorem ensureNode_accepted (h : AcceptedInput input id type) :
    ensureNode input tables = scopeTransaction (ensureNodeBody input type id) tables := by
  unfold ensureNode
  rw [h.knownType]
  simp only [h.givenId]
  rw [if_neg h.nonempty]

/-- Every other input is rejected. -/
theorem ensureNode_not_accepted (h : ∀ id type, ¬ AcceptedInput input id type) :
    (ensureNode input tables).1 = tables := by
  unfold ensureNode
  split
  · rfl
  · rename_i type htype
    split
    · rfl
    · rename_i id hid
      split
      · rfl
      · rename_i hne
        unfold scopeTransaction
        split
        · rename_i tables' found hbody
          exfalso
          unfold ensureNodeBody ScopeTables.upsertNode at hbody
          obtain ⟨upserted, hupsert, -⟩ := exists_of_bind_ok hbody
          obtain ⟨_, huuid, hupsert⟩ := exists_of_bind_ok hupsert
          obtain ⟨_, hparent, hupsert⟩ := exists_of_bind_ok hupsert
          split at hupsert
          · cases hupsert
          · rename_i hlength
            rw [not_or, Nat.not_lt, Nat.not_lt] at hlength
            exact h id type ⟨hid, htype, hne, uuidParameter_ok huuid, uuidParameter_ok hparent,
              hlength.1, hlength.2⟩
        · rfl

/-- What an accepted input upserts. -/
theorem upsertNode_accepted (h : AcceptedInput input id type) :
    tables.upsertNode (input.node type id) input.parent =
      if tables.nodes.any fun x => x.id = id then .ok tables
      else if tables.nodes.any fun x => x.slugKey = (input.node type id).slugKey then
        .error (.database "uq_scope_nodes_parent_slug")
      else if input.parent ≠ id ∧ !tables.nodes.any fun x => x.id = input.parent then
        .error (.database "scope_nodes_parent_id_fkey")
      else .ok { tables with nodes := tables.nodes ++ [input.node type id] } := by
  have hlength : ¬ (255 < (input.node type id).name.length ∨
      255 < (input.node type id).slug.length) := by
    rw [not_or, Nat.not_lt, Nat.not_lt]
    exact ⟨h.name, h.slug⟩
  have huuid : uuidParameter (input.node type id).id = .ok () :=
    uuidParameter_of_isUuidText h.uuid
  unfold ScopeTables.upsertNode
  rw [huuid, uuidParameter_of_isUuidText h.parentUuid, ok_bind, ok_bind, if_neg hlength]
  rfl

/-- For an id that is there, the rows below the parent of the input are inserted. -/
theorem ensureNode_existing (h : AcceptedInput input id type) (hid : id ∈ tables.ids) :
    (ensureNode input tables).1 =
      { tables with closure := linkBelow tables.closure input.parent id } := by
  rw [ensureNode_accepted h, scopeTransaction, ensureNodeBody, upsertNode_accepted h,
    if_pos (any_id_iff.mpr hid)]
  rfl

/-- A new id is inserted when its slug is free and its parent is there or the node itself. -/
theorem ensureNode_new (h : AcceptedInput input id type) (hid : id ∉ tables.ids)
    (hslug : SlugFree input tables) (hparent : input.parent = id ∨ input.parent ∈ tables.ids) :
    (ensureNode input tables).1 =
      { nodes := tables.nodes ++ [input.node type id]
        closure := linkBelow tables.closure input.parent id } := by
  have hforeign : ¬ (input.parent ≠ id ∧
      (!tables.nodes.any fun x => x.id = input.parent) = true) := by
    rintro ⟨hne, hmissing⟩
    rw [any_id_iff.mpr (hparent.resolve_left hne)] at hmissing
    exact Bool.noConfusion hmissing
  rw [ensureNode_accepted h, scopeTransaction, ensureNodeBody, upsertNode_accepted h,
    if_neg (any_id_iff.not.mpr hid), if_neg (fun hany => any_slugKey_iff.mp hany hslug),
    if_neg hforeign]
  rfl

/-- Every other new id is rejected. -/
theorem ensureNode_rejected (h : AcceptedInput input id type) (hid : id ∉ tables.ids)
    (hnot : ¬ (SlugFree input tables ∧ (input.parent = id ∨ input.parent ∈ tables.ids))) :
    (ensureNode input tables).1 = tables := by
  rw [ensureNode_accepted h, scopeTransaction, ensureNodeBody, upsertNode_accepted h,
    if_neg (any_id_iff.not.mpr hid)]
  by_cases hslug : SlugFree input tables
  · have hforeign : input.parent ≠ id ∧
        (!tables.nodes.any fun x => decide (x.id = input.parent)) = true := by
      rw [not_and, not_or] at hnot
      refine ⟨(hnot hslug).1, ?_⟩
      rw [Bool.not_eq_true', Bool.eq_false_iff]
      exact any_id_iff.not.mpr (hnot hslug).2
    rw [if_neg (fun hany => any_slugKey_iff.mp hany hslug), if_pos hforeign]
    rfl
  · rw [if_pos (any_slugKey_iff.mpr hslug)]
    rfl

end Calls

/-! ## The rows below a parent -/

section Links

variable {tables : ScopeTables} {parentId id : String}

/-- Rows whose keys are there are not inserted. -/
theorem insertMissing_of_present {closure : List ScopeNodeClosure} (rows : List ScopeNodeClosure)
    (h : ∀ row ∈ rows, ∃ x ∈ closure, x.key = row.key) : insertMissing closure rows = closure := by
  induction rows with
  | nil => rfl
  | cons row rows ih =>
      obtain ⟨x, hx, hkey⟩ := h row List.mem_cons_self
      rw [insertMissing, if_pos (List.any_eq_true.mpr ⟨x, hx, by simpa using hkey⟩)]
      exact ih fun row' hrow' => h row' (List.mem_cons_of_mem _ hrow')

/-- What was there stays. -/
theorem subset_insertMissing (rows : List ScopeNodeClosure) :
    ∀ closure : List ScopeNodeClosure, closure ⊆ insertMissing closure rows := by
  induction rows with
  | nil => exact fun closure => List.Subset.refl closure
  | cons row rows ih =>
      intro closure
      rw [insertMissing]
      split
      · exact ih closure
      · exact List.Subset.trans (List.subset_append_left _ _) (ih _)

/-- Afterwards the keys of the rows are there. -/
theorem present_insertMissing (rows : List ScopeNodeClosure) :
    ∀ closure : List ScopeNodeClosure, ∀ row ∈ rows,
      ∃ x ∈ insertMissing closure rows, x.key = row.key := by
  induction rows with
  | nil => exact fun _ row hrow => absurd hrow List.not_mem_nil
  | cons first rows ih =>
      intro closure row hrow
      rw [insertMissing]
      split
      · rename_i hany
        rcases List.mem_cons.mp hrow with rfl | hrow
        · obtain ⟨x, hx, hkey⟩ := List.any_eq_true.mp hany
          exact ⟨x, subset_insertMissing rows closure hx, by simpa using hkey⟩
        · exact ih closure row hrow
      · rcases List.mem_cons.mp hrow with rfl | hrow
        · exact ⟨row, subset_insertMissing rows _ (List.mem_append_right _ List.mem_cons_self), rfl⟩
        · exact ih _ row hrow

/-- Below a parent that is above the node, or that is no node, no row is missing. -/
theorem linkBelow_of_above (h : tables.ExactClosure) (hid : id ∈ tables.ids)
    (habove : parentId ∈ tables.ids → ∃ n, tables.HasRow parentId id n) :
    linkBelow tables.closure parentId id = tables.closure := by
  have hchild : insertMissing tables.closure (childRows tables.closure parentId id) =
      tables.closure := by
    refine insertMissing_of_present _ ?_
    rintro ⟨a, d, n⟩ hrow
    obtain ⟨rfl, i, hsuper, rfl⟩ := mem_childRows.mp hrow
    obtain ⟨hparent, hclimb⟩ := (h.closure a parentId i).mp hsuper
    obtain ⟨m, hrow'⟩ := habove hparent
    -- what is above the parent is above the node
    have hclimb' := ((h.closure parentId d m).mp hrow').2
    exact ⟨⟨a, d, m + i⟩,
      (h.closure a d (m + i)).mpr ⟨hid, (Forest.climb_trans hclimb').trans hclimb⟩, rfl⟩
  rw [linkBelow, hchild]
  refine insertMissing_of_present _ fun row hrow => ?_
  rw [List.mem_singleton.mp hrow]
  exact ⟨⟨id, id, 0⟩, (h.closure id id 0).mpr ⟨hid, Forest.climb_zero⟩, rfl⟩

/-- A table that the insertions leave alone has a row of the parent and the node. -/
theorem above_of_linkBelow (h : tables.ExactClosure)
    (hlink : linkBelow tables.closure parentId id = tables.closure)
    (hparent : parentId ∈ tables.ids) : ∃ n, tables.HasRow parentId id n := by
  have hself : tables.HasRow parentId parentId 0 :=
    (h.closure _ _ _).mpr ⟨hparent, Forest.climb_zero⟩
  obtain ⟨⟨a, d, n⟩, hx, hkey⟩ := present_insertMissing (childRows tables.closure parentId id)
    tables.closure ⟨parentId, id, 1⟩ (mem_childRows.mpr ⟨rfl, 0, hself, rfl⟩)
  obtain ⟨rfl, rfl⟩ := Prod.mk.inj hkey
  have hmem : (⟨a, d, n⟩ : ScopeNodeClosure) ∈ linkBelow tables.closure a d :=
    subset_insertMissing [⟨d, d, 0⟩] _ hx
  have hlink' : linkBelow tables.closure a d = tables.closure := hlink
  rw [hlink'] at hmem
  exact ⟨n, hmem⟩

/-- The rows of a new node are all new. -/
theorem linkBelow_of_new (h : tables.ExactClosure) (hid : id ∉ tables.ids) :
    linkBelow tables.closure parentId id =
      tables.closure ++ childRows tables.closure parentId id ++ [⟨id, id, 0⟩] := by
  have hkeys := childRows_keys parentId h hid
  have hchild : ((tables.closure ++ childRows tables.closure parentId id).map
      ScopeNodeClosure.key).Nodup := by
    rw [List.map_append] at hkeys
    exact (List.nodup_append.1 hkeys).1
  rw [linkBelow, insertMissing_of_nodup _ hchild, insertMissing_of_nodup _ hkeys]

end Links

/-! ## Idempotence -/

/-- Ensuring a node that is there changes neither table; a node that is not there is added only
where its type may stand under a node that is there, and the closure stays exact. -/
structure EnsuredOnce (input : CreateScopeNodeInput) (tables : ScopeTables) : Prop where
  kept : ∀ id ∈ tables.ids, input.id = some id → (ensureNode input tables).1 = tables
  allowed : ∀ id, id ∉ tables.ids → input.id = some id → id ∈ (ensureNode input tables).1.ids →
    ∃ parent ∈ tables.nodes, parent.id = input.parent ∧ ∃ type,
      ScopeNodeType.ofText? input.type = some type ∧
        assertValidParentChildType parent.type type = .ok ()
  exact : ∀ id, id ∉ tables.ids → input.id = some id → (ensureNode input tables).1.ExactClosure

/-- The parent of an accepted input is the node that is there or above it, or no node; and for a
new node that can be inserted it is a node that may have it as a child. -/
def EnsureInPlace (input : CreateScopeNodeInput) (tables : ScopeTables) : Prop :=
  ∀ id type, AcceptedInput input id type →
    (id ∈ tables.ids → input.parent ∈ tables.ids → ∃ n, tables.HasRow input.parent id n) ∧
    (id ∉ tables.ids → SlugFree input tables → input.parent = id ∨ input.parent ∈ tables.ids →
      ∃ parent ∈ tables.nodes, parent.id = input.parent ∧
        assertValidParentChildType parent.type type = .ok ())

section Idempotence

variable {input : CreateScopeNodeInput} {tables : ScopeTables}

theorem ensured_of_inPlace (h : tables.ExactClosure) (hplace : EnsureInPlace input tables) :
    EnsuredOnce input tables := by
  by_cases haccepted : ∃ id type, AcceptedInput input id type
  · obtain ⟨id, type, haccepted⟩ := haccepted
    have hsame : ∀ id', input.id = some id' → id' = id := fun id' hid' =>
      Option.some.inj (hid'.symm.trans haccepted.givenId)
    obtain ⟨habove, hallowed⟩ := hplace id type haccepted
    refine ⟨fun id' hmem hid' => ?_, fun id' hmem hid' hadded => ?_, fun id' hmem hid' => ?_⟩
    · obtain rfl := hsame id' hid'
      rw [ensureNode_existing haccepted hmem, linkBelow_of_above h hmem (habove hmem)]
    · obtain rfl := hsame id' hid'
      by_cases hinsert : SlugFree input tables ∧
          (input.parent = id' ∨ input.parent ∈ tables.ids)
      · obtain ⟨parent, hparent, hparentId, hvalid⟩ := hallowed hmem hinsert.1 hinsert.2
        exact ⟨parent, hparent, hparentId, type, haccepted.knownType, hvalid⟩
      · rw [ensureNode_rejected haccepted hmem hinsert] at hadded
        exact absurd hadded hmem
    · obtain rfl := hsame id' hid'
      by_cases hinsert : SlugFree input tables ∧
          (input.parent = id' ∨ input.parent ∈ tables.ids)
      · obtain ⟨parent, hparent, hparentId, -⟩ := hallowed hmem hinsert.1 hinsert.2
        rw [ensureNode_new haccepted hmem hinsert.1 hinsert.2, linkBelow_of_new h hmem]
        have hnode : (input.node type id').id ∉ tables.ids := hmem
        exact h.append hnode rfl ⟨parent, hparent, hparentId⟩
      · rw [ensureNode_rejected haccepted hmem hinsert]
        exact h
  · have hsame : (ensureNode input tables).1 = tables :=
      ensureNode_not_accepted fun id type hid => haccepted ⟨id, type, hid⟩
    refine ⟨fun _ _ _ => hsame, fun id hmem _ hadded => ?_, fun _ _ _ => ?_⟩
    · rw [hsame] at hadded
      exact absurd hadded hmem
    · rw [hsame]
      exact h

theorem inPlace_of_ensured (h : tables.ExactClosure) (hensured : EnsuredOnce input tables) :
    EnsureInPlace input tables := by
  intro id type haccepted
  constructor
  · intro hmem hparent
    have hkept := hensured.kept id hmem haccepted.givenId
    rw [ensureNode_existing haccepted hmem] at hkept
    exact above_of_linkBelow h (congrArg ScopeTables.closure hkept) hparent
  · intro hmem hslug hparent
    have hadded : id ∈ (ensureNode input tables).1.ids := by
      rw [ensureNode_new haccepted hmem hslug hparent]
      exact ⟨input.node type id, List.mem_append_right _ List.mem_cons_self, rfl⟩
    obtain ⟨parent, hmem', hid, type', htype, hvalid⟩ :=
      hensured.allowed id hmem haccepted.givenId hadded
    obtain rfl := Option.some.inj (htype.symm.trans haccepted.knownType)
    exact ⟨parent, hmem', hid, hvalid⟩

end Idempotence

/-- The input that names the root's own row. -/
def globalInput : CreateScopeNodeInput where
  id := some globalScopeNodeId
  type := "platform"
  name := "Platform"
  slug := "platform"

def orgA : String := "00000000-0000-4000-8000-00000000000a"

def orgB : String := "00000000-0000-4000-8000-00000000000b"

def webApp : String := "00000000-0000-4000-8000-0000000000c1"

/-- The registration of the project below the first organisation. -/
def webAppInput : CreateScopeNodeInput where
  id := some webApp
  parentId := some orgA
  type := "project"
  name := "Web App"
  slug := "web-app"

/-- Two organisations and the project, which was registered below the first one and moved to the
second. -/
def movedProject : ScopeTables :=
  runScopeCalls
    [.createNode { id := some orgA, type := "org", name := "A", slug := "a" } "",
      .createNode { id := some orgB, type := "org", name := "B", slug := "b" } "",
      .createNode webAppInput "",
      .moveNode webApp orgB none]
    seededTables

end Nexus
