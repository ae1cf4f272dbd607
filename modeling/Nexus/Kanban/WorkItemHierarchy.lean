import Nexus.Kanban.WorkItemService
import Nexus.Lib.ParentForest

/-!
# The hierarchy of the work items

The types are ordered by level, and `canParent` only allows a parent of a higher level. The rows keep
the hierarchy as long as no accepted call gives an item with children a type, or a project, that its
children do not fit: an update validates the item against its own parent, never against its children.
-/

set_option autoImplicit false

namespace Nexus

/-! ## The invariant -/

/-- The place of a type in the order of the types. -/
def WorkItemType.level : WorkItemType → Nat
  | .epic => 2
  | .story => 1
  | .task => 0
  | .bug => 0
  | .spike => 0

theorem WorkItemType.level_le (type : WorkItemType) : type.level ≤ 2 := by
  cases type <;> decide

theorem canParent_level {parent child : WorkItemType} (h : canParent parent child = true) :
    child.level < parent.level := by
  cases parent <;> cases child <;> first | exact absurd h (by decide) | decide

/-- The item fits under the parent. -/
structure FitsUnder (parent item : KanbanWorkItemEntity) : Prop where
  project : parent.project_id = item.project_id
  type : canParent parent.type item.type = true

structure WorkItemHierarchy (items : List KanbanWorkItemEntity) : Prop where
  /-- The ids are the primary key. -/
  keyed : (items.map fun item => item.id).Nodup
  parents : ∀ item ∈ items, ∀ parentId, item.parent_work_item_id = some parentId →
    ∃ parent ∈ items, parent.id = parentId ∧ FitsUnder parent item
  points : ∀ item ∈ items, item.story_points ≠ none → allowsStoryPoints item.type = true

/-- The parent function of the rows. -/
def parentOf (items : List KanbanWorkItemEntity) (id : String) : Option String :=
  (items.find? fun item => item.id = id).bind fun item => item.parent_work_item_id

/-- The level of the row with an id. -/
def levelOf (items : List KanbanWorkItemEntity) (id : String) : Nat :=
  ((items.find? fun item => item.id = id).map fun item => item.type.level).getD 0

section Rows

variable {items : List KanbanWorkItemEntity} {item row : KanbanWorkItemEntity}

theorem WorkItemHierarchy.find_eq (h : WorkItemHierarchy items) (hmem : item ∈ items) :
    items.find? (fun row => row.id = item.id) = some item := by
  obtain ⟨found, hfound⟩ : ∃ found, items.find? (fun row => row.id = item.id) = some found := by
    rw [← Option.isSome_iff_exists, List.find?_isSome]
    exact ⟨item, hmem, decide_eq_true rfl⟩
  have hid : found.id = item.id := by simpa using List.find?_some hfound
  rw [hfound, List.inj_on_of_nodup_map h.keyed (List.mem_of_find?_eq_some hfound) hmem hid]

/-- A parent is of a higher level. -/
theorem WorkItemHierarchy.level_lt (h : WorkItemHierarchy items) (d q : String)
    (hparent : parentOf items d = some q) : levelOf items d < levelOf items q := by
  rw [parentOf] at hparent
  obtain ⟨item, hfind, hq⟩ := Option.bind_eq_some_iff.1 hparent
  obtain ⟨parent, hmem, rfl, hfits⟩ := h.parents item (List.mem_of_find?_eq_some hfind) q hq
  rw [levelOf, levelOf, hfind, h.find_eq hmem]
  exact canParent_level hfits.type

theorem WorkItemHierarchy.acyclic (h : WorkItemHierarchy items) :
    Forest.Acyclic (parentOf items) :=
  Forest.acyclic_of_rank h.level_lt

/-- A chain of parents climbs the levels of the types. -/
theorem WorkItemHierarchy.depth (h : WorkItemHierarchy items) {n : Nat} {d a : String}
    (hchain : Forest.climb (parentOf items) n d = some a) :
    levelOf items d + n ≤ levelOf items a :=
  Forest.climb_rank h.level_lt hchain

theorem levelOf_le (items : List KanbanWorkItemEntity) (id : String) : levelOf items id ≤ 2 := by
  rw [levelOf]
  cases items.find? fun item => item.id = id with
  | none => exact Nat.zero_le 2
  | some item => exact item.type.level_le

theorem WorkItemHierarchy.nil : WorkItemHierarchy [] where
  keyed := List.nodup_nil
  parents := fun _ hmem => absurd hmem List.not_mem_nil
  points := fun _ hmem => absurd hmem List.not_mem_nil

/-! ## Writes -/

theorem mem_upsertItem :
    row ∈ upsertItem items item ↔ row = item ∨ (row ∈ items ∧ row.id ≠ item.id) := by
  rw [upsertItem]
  by_cases h : items.any (fun row => row.id = item.id) = true
  · rw [if_pos h]
    obtain ⟨old, hold, hid⟩ := List.any_eq_true.1 h
    simp only [List.mem_map]
    constructor
    · rintro ⟨row', hmem, rfl⟩
      by_cases heq : row'.id = item.id
      · exact .inl (if_pos heq)
      · rw [if_neg heq]
        exact .inr ⟨hmem, heq⟩
    · rintro (rfl | ⟨hmem, hne⟩)
      · exact ⟨old, hold, if_pos (by simpa using hid)⟩
      · exact ⟨row, hmem, if_neg hne⟩
  · rw [if_neg h]
    have hnew : ∀ row ∈ items, row.id ≠ item.id := by
      intro row hmem heq
      exact h (List.any_eq_true.2 ⟨row, hmem, decide_eq_true heq⟩)
    rw [List.mem_append, List.mem_singleton]
    constructor
    · rintro (hmem | rfl)
      · exact .inr ⟨hmem, hnew row hmem⟩
      · exact .inl rfl
    · rintro (rfl | ⟨hmem, -⟩)
      · exact .inr rfl
      · exact .inl hmem

theorem upsertItem_keyed (h : (items.map fun row => row.id).Nodup) :
    ((upsertItem items item).map fun row => row.id).Nodup := by
  rw [upsertItem]
  by_cases hany : items.any (fun row => row.id = item.id) = true
  · rw [if_pos hany, List.map_map]
    have hsame : ((fun row => row.id) ∘ fun row => if row.id = item.id then item else row) =
        fun row : KanbanWorkItemEntity => row.id := by
      funext row
      by_cases heq : row.id = item.id
      · simp [heq]
      · simp [heq]
    rwa [hsame]
  · rw [if_neg hany, List.map_append, List.nodup_append]
    refine ⟨h, List.nodup_singleton _, ?_⟩
    intro id hid id' hid' heq
    obtain ⟨row, hmem, rfl⟩ := List.mem_map.1 hid
    have hitem : id' = item.id := by simpa using hid'
    exact hany (List.any_eq_true.2 ⟨row, hmem, decide_eq_true (heq.trans hitem)⟩)

/-- The children that the rows give the item fit under it, and it is not its own parent. -/
structure KeepsChildren (items : List KanbanWorkItemEntity) (item : KanbanWorkItemEntity) : Prop where
  not_self : item.parent_work_item_id ≠ some item.id
  children : ∀ child ∈ items, child.id ≠ item.id → child.parent_work_item_id = some item.id →
    FitsUnder item child

/-- **The step lemma of a save.** An item that fits under its parent, and whose children fit under
it, keeps the hierarchy. -/
theorem WorkItemHierarchy.upsert (h : WorkItemHierarchy items)
    (hpoints : item.story_points ≠ none → allowsStoryPoints item.type = true)
    (hparent : ∀ parentId, item.parent_work_item_id = some parentId →
      ∃ parent ∈ items, parent.id = parentId ∧ FitsUnder parent item)
    (hkeeps : KeepsChildren items item) : WorkItemHierarchy (upsertItem items item) where
  keyed := upsertItem_keyed h.keyed
  parents := by
    intro child hmem parentId hchild
    rcases mem_upsertItem.1 hmem with rfl | ⟨hold, hne⟩
    · obtain ⟨parent, hp, rfl, hfits⟩ := hparent parentId hchild
      refine ⟨parent, mem_upsertItem.2 (.inr ⟨hp, ?_⟩), rfl, hfits⟩
      intro hself
      exact hkeeps.not_self (hself ▸ hchild)
    · obtain ⟨parent, hp, rfl, hfits⟩ := h.parents child hold parentId hchild
      by_cases heq : parent.id = item.id
      · refine ⟨item, mem_upsertItem.2 (.inl rfl), heq.symm, ?_⟩
        exact hkeeps.children child hold hne (heq ▸ hchild)
      · exact ⟨parent, mem_upsertItem.2 (.inr ⟨hp, heq⟩), rfl, hfits⟩
  points := by
    intro row hmem
    rcases mem_upsertItem.1 hmem with rfl | ⟨hold, -⟩
    · exact hpoints
    · exact h.points row hold

/-- A change of columns outside the hierarchy. -/
theorem WorkItemHierarchy.map (h : WorkItemHierarchy items)
    {f : KanbanWorkItemEntity → KanbanWorkItemEntity} (hid : ∀ row, (f row).id = row.id)
    (hproject : ∀ row, (f row).project_id = row.project_id) (htype : ∀ row, (f row).type = row.type)
    (hpoints : ∀ row, (f row).story_points = row.story_points)
    (hparent : ∀ row parentId, (f row).parent_work_item_id = some parentId →
      row.parent_work_item_id = some parentId) : WorkItemHierarchy (items.map f) where
  keyed := by
    have hsame : ((fun row : KanbanWorkItemEntity => row.id) ∘ f) = fun row => row.id := funext hid
    rw [List.map_map, hsame]
    exact h.keyed
  parents := by
    intro child hmem parentId hchild
    obtain ⟨row, hrow, rfl⟩ := List.mem_map.1 hmem
    obtain ⟨parent, hp, rfl, hfits⟩ := h.parents row hrow parentId (hparent row parentId hchild)
    refine ⟨f parent, List.mem_map.2 ⟨parent, hp, rfl⟩, hid parent, ?_, ?_⟩
    · rw [hproject, hproject]
      exact hfits.project
    · rw [htype, htype]
      exact hfits.type
  points := by
    intro child hmem hsome
    obtain ⟨row, hrow, rfl⟩ := List.mem_map.1 hmem
    rw [hpoints] at hsome
    rw [htype]
    exact h.points row hrow hsome

/-- **The step lemma of a deletion.** The children of the deleted item become roots. -/
theorem WorkItemHierarchy.delete (h : WorkItemHierarchy items) (projectId workItemId : String) :
    WorkItemHierarchy (deleteItem items projectId workItemId) := by
  rw [deleteItem]
  by_cases hany : items.any (fun row => row.isRow projectId workItemId) = true
  · rw [if_pos hany]
    -- the rows that stay, with the parents they had, and the same rows with the link cleared
    have hsubset : ∀ {row}, row ∈ items.filter (fun row => row.id ≠ workItemId) → row ∈ items :=
      fun hmem => (List.mem_filter.1 hmem).1
    refine ⟨?_, ?_, ?_⟩
    · rw [List.map_map]
      have hsame : ((fun row : KanbanWorkItemEntity => row.id) ∘ fun row =>
          if row.parent_work_item_id = some workItemId then
            { row with parent_work_item_id := none } else row) = fun row => row.id := by
        funext row
        by_cases heq : row.parent_work_item_id = some workItemId
        · simp [heq]
        · simp [heq]
      rw [hsame]
      exact h.keyed.sublist (List.filter_sublist.map _)
    · intro child hmem parentId hchild
      obtain ⟨row, hrow, rfl⟩ := List.mem_map.1 hmem
      by_cases heq : row.parent_work_item_id = some workItemId
      · rw [if_pos heq] at hchild
        exact absurd hchild (by simp)
      · rw [if_neg heq] at hchild ⊢
        obtain ⟨parent, hp, rfl, hfits⟩ := h.parents row (hsubset hrow) parentId hchild
        have hkept : parent.id ≠ workItemId := fun hid => heq (hid ▸ hchild)
        refine ⟨_, List.mem_map.2 ⟨parent, List.mem_filter.2 ⟨hp, decide_eq_true hkept⟩, rfl⟩, ?_⟩
        by_cases hp' : parent.parent_work_item_id = some workItemId
        · rw [if_pos hp']
          exact ⟨rfl, hfits.project, hfits.type⟩
        · rw [if_neg hp']
          exact ⟨rfl, hfits⟩
    · intro child hmem hsome
      obtain ⟨row, hrow, rfl⟩ := List.mem_map.1 hmem
      by_cases heq : row.parent_work_item_id = some workItemId
      · rw [if_pos heq] at hsome ⊢
        exact h.points row (hsubset hrow) hsome
      · rw [if_neg heq] at hsome ⊢
        exact h.points row (hsubset hrow) hsome
  · rwa [if_neg hany]

end Rows

end Nexus
