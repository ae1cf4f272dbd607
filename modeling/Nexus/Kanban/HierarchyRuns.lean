import Nexus.Kanban.WorkItemHierarchy

/-!
# The hierarchy over runs of calls

What one creation, update or deletion does to the hierarchy, and from it what a run of calls does.
-/

set_option autoImplicit false

namespace Nexus

/-! ## Calls -/

inductive WorkItemCall where
  | create (projectId : String) (input : CreateWorkItemInput) (randomUUID : String)
  | update (projectId workItemId : String) (data : Json)
  | delete (projectId workItemId : String)

/-- The tables after a call, accepted or rejected. -/
def WorkItemCall.run (db : ItemTables) : WorkItemCall → ItemTables
  | .create projectId input randomUUID =>
      ((WorkItemService.createWorkItem projectId input randomUUID).run ItemOp.exec db).1
  | .update projectId workItemId data =>
      ((WorkItemService.updateWorkItem projectId workItemId data).run ItemOp.exec db).1
  | .delete projectId workItemId =>
      ((WorkItemService.deleteWorkItem projectId workItemId).run ItemOp.exec db).1

/-- The type of the parent, or `none` when the project has no such item. -/
def lookupParentType (items : List KanbanWorkItemEntity) (projectId : String) :
    Option String → Option (Option WorkItemType)
  | none => some none
  | some parentId =>
      if parentId = "" then some none
      else (items.find? fun row => row.isRow projectId parentId).map fun row => some row.type

/-- The item passes the checks against its own parent. -/
def ParentAccepts (items : List KanbanWorkItemEntity) (item : KanbanWorkItemEntity) : Prop :=
  ∃ parentType, lookupParentType items item.project_id item.parent_work_item_id = some parentType ∧
    assertWorkItemInvariants item.type item.story_points parentType = .ok ()

/-- The item that an update writes. -/
def updatedItem (item : KanbanWorkItemEntity) (data : Json) : KanbanWorkItemEntity :=
  WorkItemService.applyPatchToWorkItem item
    (WorkItemService.effectivePatch item (asWorkItemPatch data))

/-- An accepted call that gives an existing item another type, or creates an item under the id of an
existing one, leaves the item with children that fit under it. -/
def WorkItemCall.MindsChildren (db : ItemTables) : WorkItemCall → Prop
  | .create projectId input randomUUID =>
      let item := toCreateEntity (input.resolveId randomUUID) projectId input
      (∃ row ∈ db.items, row.id = item.id) → ParentAccepts db.items item → KeepsChildren db.items item
  | .update projectId workItemId data =>
      ∀ item ∈ db.items, item.isRow projectId workItemId = true →
        (updatedItem item data).type ≠ item.type → ParentAccepts db.items (updatedItem item data) →
        KeepsChildren db.items (updatedItem item data)
  | .delete _ _ => True

/-- The tables that a run of calls, each of which satisfies `cond`, reaches from empty ones. -/
inductive Reached (cond : ItemTables → WorkItemCall → Prop) : ItemTables → Prop where
  | empty (outcomes : Nat → ItemOutcome) : Reached cond { outcomes := outcomes }
  | call {db : ItemTables} (c : WorkItemCall) : Reached cond db → cond db c →
      Reached cond (c.run db)

/-! ## Rules for the statements -/

section Rules

variable {α : Type}

/-- The contract of the calls: they run alone. -/
abbrev itemContract : Contract ItemOp ItemOp.Ans ItemTables :=
  Prog.alone ItemOp.exec fun _ _ => True

/-- A statement throws, or has its effect. -/
theorem ItemOp.exec_cases (db : ItemTables) (o : ItemOp) :
    (∃ message, ItemOp.exec db o = (db.tick, .error message)) ∨
      ∃ outcome, ItemOp.exec db o = o.effect db.tick outcome := by
  rw [ItemOp.exec]
  cases (db.outcomes db.issued).error with
  | some message => exact .inl ⟨message, rfl⟩
  | none => exact .inr ⟨_, rfl⟩

theorem meets_awaitItem {o : ItemOp} {Q : o.Value → ItemTables → Prop}
    {E : String → ItemTables → Prop} {db : ItemTables}
    (hok : ∀ outcome value, (o.effect db.tick outcome).2 = .ok value →
      Q value (o.effect db.tick outcome).1)
    (herror : ∀ message, E message db.tick)
    (heffect : ∀ outcome message, (o.effect db.tick outcome).2 = .error message →
      E message (o.effect db.tick outcome).1) :
    Prog.Meets itemContract Q E (awaitItem o) db := by
  refine Prog.meets_bind (Prog.meets_op trivial fun ans db' hexec => ?_)
  have hexec : ItemOp.exec db o = (db', ans) := hexec
  rcases ItemOp.exec_cases db o with ⟨message, hthrows⟩ | ⟨outcome, heffect'⟩
  · rw [hthrows] at hexec
    obtain ⟨rfl, rfl⟩ := Prod.mk.inj hexec
    exact herror message
  · rw [heffect'] at hexec
    have hdb : db' = (o.effect db.tick outcome).1 := (congrArg Prod.fst hexec).symm
    have hans : (o.effect db.tick outcome).2 = ans := congrArg Prod.snd hexec
    rw [hdb]
    cases ans with
    | ok value => exact hok outcome value hans
    | error message => exact heffect outcome message hans

/-- What the statements that a program may issue keep, the program keeps. -/
theorem meets_uses {allowed : ItemOp → Prop} {p : ItemProg α} {I : List KanbanWorkItemEntity → Prop}
    {db : ItemTables} (hp : Prog.Uses allowed p) (hI : I db.items)
    (hstep : ∀ o, allowed o → ∀ db outcome, I db.items → I (o.effect db outcome).1.items) :
    Prog.Meets itemContract (fun _ db' => I db'.items) (fun _ db' => I db'.items) p db := by
  refine hp.meets hI (fun _ _ _ _ => trivial) fun db o ans db' hdb ho hexec => ?_
  have hexec : ItemOp.exec db o = (db', ans) := hexec
  rcases ItemOp.exec_cases db o with ⟨message, hthrows⟩ | ⟨outcome, heffect⟩
  · rw [hthrows] at hexec
    obtain ⟨rfl, -⟩ := Prod.mk.inj hexec
    exact hdb
  · rw [heffect] at hexec
    have hdb' : db' = (o.effect db.tick outcome).1 := (congrArg Prod.fst hexec).symm
    rw [hdb']
    exact hstep o ho db.tick outcome hdb

end Rules

/-! ## Statements that leave the hierarchy alone -/

/-- The statements on other tables, and the save of metadata. -/
def SparesHierarchy : ItemOp → Prop
  | .save _ => False
  | .deleteByProjectAndId _ _ => False
  | _ => True

theorem uses_awaitItem {allowed : ItemOp → Prop} {o : ItemOp} (h : allowed o) :
    Prog.Uses allowed (awaitItem o) := by
  refine Prog.uses_bind (Prog.uses_op h) fun ans => ?_
  cases ans with
  | ok value => exact Prog.uses_pure value
  | error message => exact Prog.uses_fail message

theorem sparesHierarchy_effect (o : ItemOp) (ho : SparesHierarchy o) (db : ItemTables)
    (outcome : ItemOutcome) (h : WorkItemHierarchy db.items) :
    WorkItemHierarchy (o.effect db outcome).1.items := by
  cases o with
  | save item => exact absurd ho id
  | deleteByProjectAndId projectId workItemId => exact absurd ho id
  | saveMetadata workItemId metadata =>
      refine h.map (fun row => ?_) (fun row => ?_) (fun row => ?_) (fun row => ?_) fun row _ => ?_
      all_goals
        by_cases heq : row.id = workItemId
        · simp [heq]
        · simp [heq]
  | _ => exact h

/-- The statements that leave the rows of the work items as they are. -/
def KeepsItems : ItemOp → Prop
  | .save _ => False
  | .saveMetadata _ _ => False
  | .deleteByProjectAndId _ _ => False
  | _ => True

theorem KeepsItems.spares (o : ItemOp) (ho : KeepsItems o) : SparesHierarchy o := by
  cases o <;> first | exact ho | trivial

theorem keepsItems_effect {items : List KanbanWorkItemEntity} (o : ItemOp) (ho : KeepsItems o)
    (db : ItemTables) (outcome : ItemOutcome) (h : db.items = items) :
    (o.effect db outcome).1.items = items := by
  cases o with
  | save item => exact absurd ho id
  | saveMetadata workItemId metadata => exact absurd ho id
  | deleteByProjectAndId projectId workItemId => exact absurd ho id
  | _ => exact h

section Parts

open WorkItemService

variable {α : Type} {items : List KanbanWorkItemEntity} {db : ItemTables}

/-- A program whose statements keep the rows. -/
theorem meets_keeps {p : ItemProg α} (hp : Prog.Uses KeepsItems p) (hitems : db.items = items) :
    Prog.Meets itemContract (fun _ db' => db'.items = items) (fun _ db' => db'.items = items) p db :=
  meets_uses (I := fun rows => rows = items) hp hitems keepsItems_effect

/-- A program whose statements spare the hierarchy. -/
theorem meets_spares {p : ItemProg α} (hp : Prog.Uses SparesHierarchy p)
    (h : WorkItemHierarchy db.items) :
    Prog.Meets itemContract (fun _ db' => WorkItemHierarchy db'.items)
      (fun _ db' => WorkItemHierarchy db'.items) p db :=
  meets_uses hp h sparesHierarchy_effect

theorem assertDependenciesExist_uses (projectId : String) (dependencyIds : List String) :
    Prog.Uses KeepsItems (assertDependenciesExist projectId dependencyIds) := by
  induction dependencyIds with
  | nil => exact Prog.uses_pure ()
  | cons dependencyId rest ih =>
      refine Prog.uses_bind (uses_awaitItem trivial) fun found => ?_
      cases found with
      | none => exact Prog.uses_fail _
      | some item => exact ih

theorem replaceSubtasksFromInput_uses (projectId workItemId : String)
    (input : Option (List NormalizedSubtaskInput)) :
    Prog.Uses KeepsItems (replaceSubtasksFromInput projectId workItemId input) := by
  cases input with
  | none => exact uses_awaitItem trivial
  | some subtasks => exact uses_awaitItem trivial

theorem storeDependencies_uses (projectId workItemId : String) (dependencyIds : List String) :
    Prog.Uses KeepsItems (storeDependencies projectId workItemId dependencyIds) :=
  Prog.uses_bind (assertDependenciesExist_uses projectId dependencyIds) fun _ =>
    uses_awaitItem trivial

theorem storePatchDependencies_uses (projectId workItemId : String) (patch : WorkItemPatch) :
    Prog.Uses KeepsItems (storePatchDependencies projectId workItemId patch) := by
  rw [storePatchDependencies]
  cases patch.dependencyIds with
  | none => exact Prog.uses_pure ()
  | some dependencyIds => exact storeDependencies_uses projectId workItemId dependencyIds

theorem dependencyIdsAfter_uses (workItemId : String) (patch : WorkItemPatch) :
    Prog.Uses KeepsItems (dependencyIdsAfter workItemId patch) := by
  rw [dependencyIdsAfter]
  cases patch.dependencyIds with
  | none => exact Prog.uses_bind (uses_awaitItem trivial) fun _ => Prog.uses_pure _
  | some dependencyIds => exact Prog.uses_pure dependencyIds

theorem materialize_uses (basePath : String) (item : KanbanWorkItemEntity)
    (dependencyIds : List String) :
    Prog.Uses SparesHierarchy (materializeMissingPublishSpecFile basePath item dependencyIds) := by
  rw [materializeMissingPublishSpecFile]
  cases recordedSpecPath item.metadata with
  | none => exact Prog.uses_pure item
  | some targetPath =>
      refine Prog.uses_bind (uses_awaitItem trivial) fun fileExists => ?_
      cases fileExists with
      | true => exact Prog.uses_pure item
      | false =>
          refine Prog.uses_bind (uses_awaitItem trivial) fun result => ?_
          cases WriteSpecResult.path? result with
          | none => exact Prog.uses_pure item
          | some path =>
              refine Prog.uses_bind (uses_awaitItem trivial) fun _ => ?_
              exact Prog.uses_bind (uses_awaitItem trivial) fun _ => Prog.uses_pure _

theorem writeWorkItemSpecFile_uses (projectId : String) (item : KanbanWorkItemEntity)
    (dependencyIds : List String) :
    Prog.Uses SparesHierarchy (writeWorkItemSpecFile projectId item dependencyIds) := by
  refine Prog.uses_handle ?_ fun _ => Prog.uses_pure item
  refine Prog.uses_bind (uses_awaitItem trivial) fun basePath => ?_
  cases basePath.filter fun path => path ≠ "" with
  | none => exact Prog.uses_pure item
  | some basePath =>
      dsimp only
      split
      · exact materialize_uses basePath item dependencyIds
      · refine Prog.uses_bind (uses_awaitItem trivial) fun result => ?_
        cases WriteSpecResult.path? result with
        | none => exact Prog.uses_pure item
        | some path =>
            refine Prog.uses_bind (uses_awaitItem trivial) fun _ => ?_
            exact Prog.uses_bind (uses_awaitItem trivial) fun _ => Prog.uses_pure _

theorem deleteSpecFile_uses (basePath : Option String) (item : KanbanWorkItemEntity) :
    Prog.Uses KeepsItems (deleteSpecFile basePath item) := by
  rw [deleteSpecFile]
  cases basePath.filter fun path => path ≠ "" with
  | none => exact Prog.uses_pure ()
  | some basePath => exact Prog.uses_handle (uses_awaitItem trivial) fun _ => Prog.uses_pure ()

theorem requireWorkItem_row (projectId workItemId : String) (hitems : db.items = items) :
    Prog.Meets itemContract
      (fun item db' => db'.items = items ∧
        items.find? (fun row => row.isRow projectId workItemId) = some item)
      (fun _ db' => db'.items = items) (WorkItemService.requireWorkItem projectId workItemId)
      db := by
  refine Prog.meets_bind (meets_awaitItem (fun outcome value hvalue => ?_) (fun _ => hitems)
    fun _ _ _ => hitems)
  have hfind : items.find? (fun row => row.isRow projectId workItemId) = value := by
    rw [← hitems]
    exact Except.ok.inj hvalue
  cases value with
  | none => exact hitems
  | some item => exact ⟨hitems, hfind⟩

theorem resolveParentType_spec (projectId : String) (parentWorkItemId : Option String)
    (hitems : db.items = items) :
    Prog.Meets itemContract
      (fun parentType db' => db'.items = items ∧
        lookupParentType items projectId parentWorkItemId = some parentType)
      (fun _ db' => db'.items = items) (resolveParentType projectId parentWorkItemId) db := by
  cases parentWorkItemId with
  | none => exact ⟨hitems, rfl⟩
  | some parentId =>
      rw [resolveParentType, lookupParentType]
      refine Prog.meets_ite (fun hempty => ?_) fun hnonempty => ?_
      · rw [if_pos hempty]
        exact ⟨hitems, rfl⟩
      · rw [if_neg hnonempty]
        refine Prog.Meets.bind (requireWorkItem_row projectId parentId hitems) ?_
        rintro parent db' ⟨hitems', hfind⟩
        refine ⟨hitems', ?_⟩
        rw [hfind]
        rfl

theorem checked_spec {Q : Unit → ItemTables → Prop} {E : String → ItemTables → Prop}
    {result : Except String Unit} (hok : result = .ok () → Q () db) (herror : ∀ message, E message db) :
    Prog.Meets itemContract Q E (checked result) db := by
  cases result with
  | ok value => exact hok rfl
  | error message => exact herror message

/-- A save either is refused and changes no row, or writes the item, whose parent is a row. -/
theorem save_spec {I : List KanbanWorkItemEntity → Prop} {item : KanbanWorkItemEntity}
    (hkept : I db.items) (hsaved : admitsItem db.items item = true → I (upsertItem db.items item)) :
    Prog.Meets itemContract (fun saved db' => saved = item ∧ I db'.items) (fun _ db' => I db'.items)
      (awaitItem (.save item)) db := by
  have heffect : ∀ outcome, ((ItemOp.save item).effect db.tick outcome) =
      if admitsItem db.items item then
        ({ db.tick with items := upsertItem db.items item }, .ok item)
      else (db.tick, .error "the row violates a constraint of kanban_work_items") := fun _ => rfl
  refine meets_awaitItem (fun outcome value hvalue => ?_) (fun _ => hkept) fun outcome message _ => ?_
  · rw [heffect] at hvalue ⊢
    by_cases hadmits : admitsItem db.items item = true
    · rw [if_pos hadmits] at hvalue ⊢
      exact ⟨(Except.ok.inj hvalue).symm, hsaved hadmits⟩
    · rw [if_neg hadmits] at hvalue
      exact absurd hvalue (by simp)
  · rw [heffect]
    by_cases hadmits : admitsItem db.items item = true
    · rw [if_pos hadmits]
      exact hsaved hadmits
    · rw [if_neg hadmits]
      exact hkept

end Parts

/-! ## What the checks establish -/

section Checks

open WorkItemService

variable {items : List KanbanWorkItemEntity} {item : KanbanWorkItemEntity}

theorem assertWorkItemInvariants_ok {type : WorkItemType} {storyPoints : Option Int}
    {parentType : Option WorkItemType}
    (h : assertWorkItemInvariants type storyPoints parentType = .ok ()) :
    (storyPoints ≠ none → allowsStoryPoints type = true) ∧
      ∀ parent, parentType = some parent → canParent parent type = true := by
  have hpoints : checkStoryPoints type storyPoints = .ok () := by
    cases hcheck : checkStoryPoints type storyPoints with
    | ok value => rfl
    | error message =>
        rw [assertWorkItemInvariants, hcheck] at h
        exact absurd h (by simp [bind, Except.bind])
  have hparent : checkParentType type parentType = .ok () := by
    rwa [assertWorkItemInvariants, hpoints] at h
  constructor
  · intro hsome
    cases storyPoints with
    | none => exact absurd rfl hsome
    | some points =>
        by_contra hnot
        rw [checkStoryPoints, if_pos (by simpa using hnot)] at hpoints
        exact absurd hpoints (by simp)
  · rintro parent rfl
    by_contra hnot
    rw [checkParentType] at hparent
    by_cases hepic : type = .epic
    · rw [if_pos hepic] at hparent
      exact absurd hparent (by simp)
    · rw [if_neg hepic, if_pos (by simpa using hnot)] at hparent
      exact absurd hparent (by simp)

/-- The item's points are allowed, and its parent is a row it fits under. -/
structure FitsRows (items : List KanbanWorkItemEntity) (item : KanbanWorkItemEntity) : Prop where
  points : item.story_points ≠ none → allowsStoryPoints item.type = true
  parent : ∀ parentId, item.parent_work_item_id = some parentId →
    ∃ parent ∈ items, parent.id = parentId ∧ FitsUnder parent item

theorem ParentAccepts.fitsRows (h : ParentAccepts items item) (hadmits : admitsItem items item = true) :
    FitsRows items item := by
  obtain ⟨parentType, hlookup, hchecked⟩ := h
  obtain ⟨hpoints, hcan⟩ := assertWorkItemInvariants_ok hchecked
  refine ⟨hpoints, fun parentId hparent => ?_⟩
  have hnonempty : parentId ≠ "" := by
    rintro rfl
    simp [admitsItem, hparent] at hadmits
  rw [hparent, lookupParentType, if_neg hnonempty] at hlookup
  obtain ⟨parent, hfind, rfl⟩ := Option.map_eq_some_iff.1 hlookup
  have hrow := List.find?_some hfind
  simp only [WorkItem.isRow, Bool.and_eq_true, decide_eq_true_eq] at hrow
  exact ⟨parent, List.mem_of_find?_eq_some hfind, hrow.1, hrow.2, hcan _ rfl⟩

/-- An item under a new id has no children, and is not its own parent. -/
theorem keepsChildren_of_new (h : WorkItemHierarchy items) (hfits : FitsRows items item)
    (hnew : ¬ ∃ row ∈ items, row.id = item.id) : KeepsChildren items item where
  not_self := by
    intro hself
    obtain ⟨parent, hmem, hid, -⟩ := hfits.parent item.id hself
    exact hnew ⟨parent, hmem, hid⟩
  children := by
    intro child hmem _ hchild
    obtain ⟨parent, hparent, hid, -⟩ := h.parents child hmem item.id hchild
    exact absurd ⟨parent, hparent, hid⟩ hnew

/-- An item that keeps its type and its project keeps its children. -/
theorem keepsChildren_of_same (h : WorkItemHierarchy items) (hmem : item ∈ items)
    {updated : KanbanWorkItemEntity} (hid : updated.id = item.id)
    (hproject : updated.project_id = item.project_id) (htype : updated.type = item.type)
    (hfits : FitsRows items updated) : KeepsChildren items updated where
  not_self := by
    intro hself
    obtain ⟨parent, hparent, hpid, hunder⟩ := hfits.parent updated.id hself
    have hsame : parent = item :=
      List.inj_on_of_nodup_map h.keyed hparent hmem (hpid.trans hid)
    subst hsame
    have hlevel := canParent_level hunder.type
    rw [htype] at hlevel
    exact Nat.lt_irrefl _ hlevel
  children := by
    intro child hchild _ hlink
    obtain ⟨parent, hparent, hpid, hunder⟩ := h.parents child hchild updated.id hlink
    have hsame : parent = item :=
      List.inj_on_of_nodup_map h.keyed hparent hmem (hpid.trans hid)
    subst hsame
    exact ⟨hproject.trans hunder.project, htype ▸ hunder.type⟩

/-- A patch without the keys of the hierarchy writes none of its columns. -/
theorem applyPatch_untouched (item : KanbanWorkItemEntity) {patch : WorkItemPatch}
    (h : touchesHierarchy patch = false) :
    (applyPatchToWorkItem item patch).type = item.type ∧
      (applyPatchToWorkItem item patch).parent_work_item_id = item.parent_work_item_id ∧
      (applyPatchToWorkItem item patch).story_points = item.story_points := by
  simp only [touchesHierarchy, Bool.or_eq_false_iff, Option.isSome_eq_false_iff,
    Option.isNone_iff_eq_none] at h
  obtain ⟨⟨htype, hpoints⟩, hparent⟩ := h
  simp [applyPatchToWorkItem, htype, hpoints, hparent]

/-- The item that an update writes fits the rows. -/
theorem fitsRows_updated (h : WorkItemHierarchy items) (hmem : item ∈ items)
    {patch : WorkItemPatch}
    (hchecked : touchesHierarchy patch = true → ParentAccepts items (applyPatchToWorkItem item patch))
    (hadmits : admitsItem items (applyPatchToWorkItem item patch) = true) :
    FitsRows items (applyPatchToWorkItem item patch) := by
  cases htouches : touchesHierarchy patch with
  | true => exact (hchecked htouches).fitsRows hadmits
  | false =>
      obtain ⟨htype, hparent, hpoints⟩ := applyPatch_untouched item htouches
      constructor
      · rw [hpoints, htype]
        exact h.points item hmem
      · intro parentId hlink
        rw [hparent] at hlink
        obtain ⟨parent, hp, hid, hunder⟩ := h.parents item hmem parentId hlink
        exact ⟨parent, hp, hid, hunder.project, htype ▸ hunder.type⟩

/-- An update that minds the children keeps the hierarchy. -/
theorem hierarchy_updated (h : WorkItemHierarchy items) (hmem : item ∈ items)
    {patch : WorkItemPatch}
    (hchecked : touchesHierarchy patch = true → ParentAccepts items (applyPatchToWorkItem item patch))
    (hminds : (applyPatchToWorkItem item patch).type ≠ item.type →
      ParentAccepts items (applyPatchToWorkItem item patch) →
      KeepsChildren items (applyPatchToWorkItem item patch))
    (hadmits : admitsItem items (applyPatchToWorkItem item patch) = true) :
    WorkItemHierarchy (upsertItem items (applyPatchToWorkItem item patch)) := by
  have hfits := fitsRows_updated h hmem hchecked hadmits
  refine h.upsert hfits.points hfits.parent ?_
  by_cases htype : (applyPatchToWorkItem item patch).type = item.type
  · exact keepsChildren_of_same h hmem rfl rfl htype hfits
  · cases htouches : touchesHierarchy patch with
    | true => exact hminds htype (hchecked htouches)
    | false => exact absurd (applyPatch_untouched item htouches).1 htype

end Checks

/-! ## Calls -/

section Calls

open WorkItemService

variable {db : ItemTables}

theorem createWorkItem_spec (h : WorkItemHierarchy db.items) (projectId : String)
    (input : CreateWorkItemInput) (randomUUID : String)
    (hminds : (WorkItemCall.create projectId input randomUUID).MindsChildren db) :
    Prog.Meets itemContract (fun _ db' => WorkItemHierarchy db'.items)
      (fun _ db' => WorkItemHierarchy db'.items)
      (createWorkItem projectId input randomUUID) db := by
  refine Prog.meets_ite (fun _ => h) fun _ => ?_
  refine Prog.Meets.bind ((resolveParentType_spec projectId input.parentWorkItemId rfl).mono
    (fun _ _ h' => h') fun _ db' h' => h' ▸ h) ?_
  rintro parentType db₁ ⟨hitems, hlookup⟩
  refine Prog.meets_bind (checked_spec (fun hchecked => ?_) fun _ => hitems ▸ h)
  have haccepted : ParentAccepts db.items (toCreateEntity (input.resolveId randomUUID) projectId input) :=
    ⟨parentType, hlookup, hchecked⟩
  refine Prog.Meets.bind (save_spec (I := WorkItemHierarchy) (hitems ▸ h) fun hadmits => ?_) ?_
  · rw [hitems] at hadmits ⊢
    have hfits := haccepted.fitsRows hadmits
    refine h.upsert hfits.points hfits.parent ?_
    by_cases hexists : ∃ row ∈ db.items,
        row.id = (toCreateEntity (input.resolveId randomUUID) projectId input).id
    · exact hminds hexists haccepted
    · exact keepsChildren_of_new h hfits hexists
  · rintro item db₂ ⟨-, h₂⟩
    refine meets_spares (Prog.uses_bind (Prog.uses_ite ?_ (Prog.uses_pure ())) fun _ =>
      Prog.uses_bind ?_ fun subtasks => Prog.uses_bind ?_ fun _ => Prog.uses_pure _) h₂
    · exact (storeDependencies_uses _ _ _).mono KeepsItems.spares
    · exact (replaceSubtasksFromInput_uses _ _ _).mono KeepsItems.spares
    · exact writeWorkItemSpecFile_uses _ _ _

theorem checkUpdate_spec {items : List KanbanWorkItemEntity} (projectId : String)
    (patch : WorkItemPatch) (updated : KanbanWorkItemEntity) (hproject : updated.project_id = projectId)
    (hitems : db.items = items) :
    Prog.Meets itemContract
      (fun _ db' => db'.items = items ∧ (touchesHierarchy patch = true → ParentAccepts items updated))
      (fun _ db' => db'.items = items) (checkUpdate projectId patch updated) db := by
  refine Prog.meets_ite (fun _ => ?_) fun hnot => ⟨hitems, fun htouches => absurd htouches hnot⟩
  refine Prog.Meets.bind (resolveParentType_spec projectId updated.parent_work_item_id hitems) ?_
  rintro parentType db' ⟨hitems', hlookup⟩
  refine checked_spec (fun hchecked => ⟨hitems', fun _ => ?_⟩) fun _ => hitems'
  exact ⟨parentType, hproject.symm ▸ hlookup, hchecked⟩

theorem updateWorkItem_spec (h : WorkItemHierarchy db.items) (projectId workItemId : String)
    (data : Json) (hminds : (WorkItemCall.update projectId workItemId data).MindsChildren db) :
    Prog.Meets itemContract (fun _ db' => WorkItemHierarchy db'.items)
      (fun _ db' => WorkItemHierarchy db'.items) (updateWorkItem projectId workItemId data) db := by
  refine Prog.Meets.bind ((requireWorkItem_row projectId workItemId rfl).mono
    (fun _ _ h' => h') fun _ db' h' => h' ▸ h) ?_
  rintro item db₁ ⟨hitems, hfind⟩
  have hmem := List.mem_of_find?_eq_some hfind
  have hrow := List.find?_some hfind
  have hproject : item.project_id = projectId := by
    simp only [WorkItem.isRow, Bool.and_eq_true, decide_eq_true_eq] at hrow
    exact hrow.2
  have hupdated : (updatedItem item data).project_id = projectId := hproject
  refine Prog.Meets.bind ((checkUpdate_spec projectId _ _ hupdated hitems).mono
    (fun _ _ h' => h') fun _ db' h' => h' ▸ h) ?_
  rintro - db₂ ⟨hitems₂, hchecked⟩
  refine Prog.Meets.bind ((meets_keeps (storePatchDependencies_uses _ _ _) hitems₂).mono
    (fun _ _ h' => h') fun _ db' h' => h' ▸ h) ?_
  rintro - db₃ hitems₃
  refine Prog.Meets.bind (save_spec (I := WorkItemHierarchy) (hitems₃ ▸ h) fun hadmits => ?_) ?_
  · rw [hitems₃] at hadmits ⊢
    exact hierarchy_updated h hmem hchecked (hminds item hmem hrow) hadmits
  · rintro updated db₄ ⟨-, h₄⟩
    refine meets_spares (Prog.uses_bind ?_ fun dependencyIds => Prog.uses_bind ?_ fun _ =>
      Prog.uses_bind (Prog.uses_ite (uses_awaitItem trivial) (Prog.uses_pure ())) fun _ =>
        Prog.uses_pure _) h₄
    · exact (dependencyIdsAfter_uses _ _).mono KeepsItems.spares
    · exact (replaceSubtasksFromInput_uses _ _ _).mono KeepsItems.spares

theorem deleteWorkItem_spec (h : WorkItemHierarchy db.items) (projectId workItemId : String) :
    Prog.Meets itemContract (fun _ db' => WorkItemHierarchy db'.items)
      (fun _ db' => WorkItemHierarchy db'.items) (deleteWorkItem projectId workItemId) db := by
  refine Prog.Meets.bind ((requireWorkItem_row projectId workItemId rfl).mono
    (fun _ _ h' => h') fun _ db' h' => h' ▸ h) ?_
  rintro item db₁ ⟨hitems, -⟩
  refine Prog.Meets.bind (meets_spares (uses_awaitItem trivial) (hitems ▸ h)) fun basePath db₂ h₂ => ?_
  have hfile := (deleteSpecFile_uses basePath item).mono KeepsItems.spares
  refine Prog.Meets.bind (meets_spares hfile h₂) fun _ db₃ h₃ => ?_
  exact meets_awaitItem (fun _ _ _ => h₃.delete projectId workItemId) (fun _ => h₃)
    fun _ _ _ => h₃.delete projectId workItemId

/-- **The step lemma of a call.** -/
theorem WorkItemCall.run_hierarchy (h : WorkItemHierarchy db.items) (c : WorkItemCall)
    (hminds : c.MindsChildren db) : WorkItemHierarchy (c.run db).items := by
  have hends : ∀ {α : Type} {p : ItemProg α}, Prog.Meets itemContract
      (fun _ db' => WorkItemHierarchy db'.items) (fun _ db' => WorkItemHierarchy db'.items) p db →
      WorkItemHierarchy (p.run ItemOp.exec db).1.items := by
    intro α p hp
    have hrun := hp.run ItemOp.exec
    cases hout : p.run ItemOp.exec db with
    | mk db' outcome =>
        rw [hout] at hrun
        cases outcome with
        | ok a => exact hrun
        | error e => exact hrun
  cases c with
  | create projectId input randomUUID =>
      exact hends (createWorkItem_spec h projectId input randomUUID hminds)
  | update projectId workItemId data =>
      exact hends (updateWorkItem_spec h projectId workItemId data hminds)
  | delete projectId workItemId => exact hends (deleteWorkItem_spec h projectId workItemId)

/-- **The run lemma.** -/
theorem Reached.hierarchy (h : Reached (fun db c => c.MindsChildren db) db) :
    WorkItemHierarchy db.items := by
  induction h with
  | empty outcomes => exact .nil
  | call c _ hminds ih => exact c.run_hierarchy ih hminds

end Calls

/-! ## The hierarchy -/

/-- Every parent is a row of the same project whose type can parent the item's type, points stand
on types that allow them only, and chains of parents do not return and climb the order of types. -/
structure HierarchyHolds (items : List KanbanWorkItemEntity) : Prop where
  parents : ∀ item ∈ items, ∀ parentId, item.parent_work_item_id = some parentId →
    ∃ parent ∈ items, parent.id = parentId ∧ parent.project_id = item.project_id ∧
      canParent parent.type item.type = true
  points : ∀ item ∈ items, item.story_points ≠ none → allowsStoryPoints item.type = true
  acyclic : Forest.Acyclic (parentOf items)
  depth : ∀ n d a, Forest.climb (parentOf items) n d = some a →
    levelOf items d + n ≤ levelOf items a ∧ n ≤ 2

/-- **Runs that mind the children keep the hierarchy.** In a run in which every accepted call that
changes the type of an existing item, or creates an item under its id, leaves it with children that
fit under it, the hierarchy holds in every state. -/
theorem hierarchy_while_children_fit {db : ItemTables}
    (h : Reached (fun db c => c.MindsChildren db) db) : HierarchyHolds db.items where
  parents := by
    intro item hmem parentId hparent
    obtain ⟨parent, hp, hid, hunder⟩ := h.hierarchy.parents item hmem parentId hparent
    exact ⟨parent, hp, hid, hunder.project, hunder.type⟩
  points := h.hierarchy.points
  acyclic := h.hierarchy.acyclic
  depth := by
    intro n d a hchain
    have hclimb := h.hierarchy.depth hchain
    have htop := levelOf_le db.items a
    exact ⟨hclimb, by omega⟩

/-- The creation of an epic. -/
def createEpic : WorkItemCall :=
  .create "project" { id := some "epic", title := "Checkout", type := some .epic } "uuid-1"

/-- The creation of a story below the epic. -/
def createStory : WorkItemCall :=
  .create "project"
    { id := some "story", title := "Cart", parentWorkItemId := some "epic", storyPoints := some 5 }
    "uuid-2"

theorem hierarchy_while_children_fit_story :
    HierarchyHolds (createStory.run (createEpic.run {})).items := by
  refine hierarchy_while_children_fit (.call _ (.call _ (.empty fun _ => {}) ?_) ?_)
  · rintro ⟨row, hmem, -⟩
    exact absurd hmem List.not_mem_nil
  · rintro ⟨row, hmem, hid⟩
    have hrows : (createEpic.run {}).items.all (fun row => row.id ≠ "story") = true := by
      decide +kernel
    have hid : row.id = "story" := hid.trans (by decide +kernel)
    exact absurd hid (by simpa using List.all_eq_true.1 hrows row hmem)

/-- The epic becomes a task below its own story. -/
def demoteEpic : WorkItemCall :=
  .update "project" "epic" (.obj [("type", .str "task"), ("parentWorkItemId", .str "story")])

/-- **A retype breaks the hierarchy.** The update checks the epic against its new parent only: the
story keeps a task as its parent, and the two are each other's parent. -/
theorem retyped_epic_below_its_story :
    Reached (fun _ _ => True) (demoteEpic.run (createStory.run (createEpic.run {}))) ∧
      ¬ HierarchyHolds (demoteEpic.run (createStory.run (createEpic.run {}))).items := by
  refine ⟨.call _ (.call _ (.call _ (.empty fun _ => {}) trivial) trivial) trivial, fun h => ?_⟩
  exact h.acyclic "epic" 1 (by decide +kernel)

end Nexus
