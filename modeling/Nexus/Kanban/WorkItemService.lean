import Nexus.Kanban.WorkItems
import Nexus.Workflow.Definition

/-!
# Creating, editing and deleting work items

`createWorkItem`, `updateWorkItem` and `deleteWorkItem` of `WorkItemService`, with the rules on types
and parents (`work-item-type.rules.ts`, `assertWorkItemInvariants`), the reading of a patch
(`asWorkItemPatch`) and the statements they issue on the tables of the work items, their dependencies
and their subtasks. Calls come one after the other; every awaited statement may throw instead of
having its effect.
-/

set_option autoImplicit false

namespace Nexus

/-! ## Types, parents and points -/

def WorkItemType.text : WorkItemType → String
  | .epic => "epic"
  | .story => "story"
  | .task => "task"
  | .bug => "bug"
  | .spike => "spike"

/-- `WORK_ITEM_TYPES`. -/
def workItemTypes : List WorkItemType := [.epic, .story, .task, .bug, .spike]

/-- `PARENT_TO_CHILDREN`. -/
def parentToChildren : WorkItemType → List WorkItemType
  | .epic => [.story, .task, .bug, .spike]
  | .story => [.task, .bug, .spike]
  | .task => []
  | .bug => []
  | .spike => []

def canParent (parent child : WorkItemType) : Bool :=
  if child = .epic then false else child ∈ parentToChildren parent

def allowsStoryPoints (type : WorkItemType) : Bool := type ≠ .epic

/-- `STORY_POINT_VALUES`. -/
def storyPointValues : List Int := [1, 2, 3, 5, 8, 13]

def checkStoryPoints (type : WorkItemType) : Option Int → Except String Unit
  | none => .ok ()
  | some points =>
      if !allowsStoryPoints type then .error s!"story points are not allowed on {type.text} items"
      else if points ∉ storyPointValues then
        .error "story points must be one of 1, 2, 3, 5, 8, 13"
      else .ok ()

def checkParentType (type : WorkItemType) : Option WorkItemType → Except String Unit
  | none => .ok ()
  | some parentType =>
      if type = .epic then .error "an epic cannot have a parent"
      else if !canParent parentType type then
        .error s!"a {parentType.text} cannot parent a {type.text}"
      else .ok ()

def assertWorkItemInvariants (type : WorkItemType) (storyPoints : Option Int)
    (parentType : Option WorkItemType) : Except String Unit := do
  checkStoryPoints type storyPoints
  checkParentType type parentType

/-! ## Rows -/

/-- A row of `kanban_work_items` with the columns that creations and edits write. -/
structure KanbanWorkItemEntity extends WorkItem where
  title : String
  description : Option String := none
  priority : String := "p2"
  story_points : Option Int := none
  token_spend : Nat := 0
  cost_cents : Nat := 0
  waiting_for_input : Bool := false
  last_execution_status : Option String := none
  initiative_id : Option String := none

/-- A row of `kanban_work_item_subtasks`. -/
structure SubtaskRecord where
  project_id : String
  work_item_id : String
  subtask_id : String
  title : String
  status : String
  order_index : Int
  depends_on_subtask_ids : List String
  source_path : String
  metadata : Option Json

/-- What `writeWorkItemSpec` answers. -/
structure WriteSpecResult where
  ok : Bool := false
  filePath : Option String := none
  sourceHash : Option String := none

/-! ## Statements -/

inductive ItemOp where
  | findByProjectAndId (projectId workItemId : String)
  | save (item : KanbanWorkItemEntity)
  /-- A save of an entity that has an id and metadata only. -/
  | saveMetadata (workItemId : String) (metadata : Json)
  | findDependenciesByWorkItemIds (workItemIds : List String)
  | replaceDependencies (workItemId : String) (dependencyIds : List String)
  | findSubtasksByWorkItemIds (workItemIds : List String)
  | replaceSubtasks (projectId workItemId : String) (subtasks : List SubtaskRecord)
  | deleteByProjectAndId (projectId workItemId : String)
  /-- The base path of a project. -/
  | findProjectBasePath (projectId : String)
  | writeWorkItemSpec (basePath : String) (item : KanbanWorkItemEntity)
      (dependencyIds : List String) (filePath frontmatterId : Option String)
  /-- `existsSync` on a path below the base path. -/
  | specFileExists (basePath path : String)
  | commitPaths (basePath : String) (paths : List String) (message : String)
  | deleteRepoFile (basePath path message : String)
  | emitStatusChanged (projectId workItemId : String) (status : WorkItemStatus)

abbrev ItemOp.Value : ItemOp → Type
  | .findByProjectAndId _ _ => Option KanbanWorkItemEntity
  | .save _ => KanbanWorkItemEntity
  | .findDependenciesByWorkItemIds _ => List DependencyRecord
  | .findSubtasksByWorkItemIds _ => List SubtaskRecord
  | .replaceSubtasks _ _ _ => List SubtaskRecord
  | .findProjectBasePath _ => Option String
  | .writeWorkItemSpec _ _ _ _ _ => WriteSpecResult
  | .specFileExists _ _ => Bool
  | _ => Unit

/-- The value of a statement, or the message of what it throws. -/
abbrev ItemOp.Ans (o : ItemOp) : Type := Except String o.Value

/-- What the outside does at a statement. -/
structure ItemOutcome where
  /-- The message the statement throws. -/
  error : Option String := none
  basePath : Option String := none
  spec : WriteSpecResult := {}
  fileExists : Bool := false

structure ItemTables where
  items : List KanbanWorkItemEntity := []
  dependencies : List DependencyRecord := []
  subtasks : List SubtaskRecord := []
  outcomes : Nat → ItemOutcome := fun _ => {}
  issued : Nat := 0

/-- The rows after an entity was saved: the row with its id is overwritten, or a row appended. -/
def upsertItem (items : List KanbanWorkItemEntity) (item : KanbanWorkItemEntity) :
    List KanbanWorkItemEntity :=
  if items.any fun row => row.id = item.id then
    items.map fun row => if row.id = item.id then item else row
  else items ++ [item]

/-- The rows after the deletion of one; its children lose their parent (`ON DELETE SET NULL`). -/
def deleteItem (items : List KanbanWorkItemEntity) (projectId workItemId : String) :
    List KanbanWorkItemEntity :=
  if items.any fun row => row.isRow projectId workItemId then
    (items.filter fun row => row.id ≠ workItemId).map fun row =>
      if row.parent_work_item_id = some workItemId then { row with parent_work_item_id := none }
      else row
  else items

/-- The texts of the columns of type `uuid` are not empty, and the parent is the id of a row. -/
def admitsItem (items : List KanbanWorkItemEntity) (item : KanbanWorkItemEntity) : Bool :=
  item.id ≠ "" && item.parent_work_item_id.all fun parent =>
    parent ≠ "" && (parent = item.id || items.any fun row => row.id = parent)

/-- What a statement does when the outside lets it. -/
def ItemOp.effect (db : ItemTables) (outcome : ItemOutcome) : (o : ItemOp) → ItemTables × o.Ans
  | .findByProjectAndId projectId workItemId =>
      (db, .ok (db.items.find? fun row => row.isRow projectId workItemId))
  | .save item =>
      if admitsItem db.items item then ({ db with items := upsertItem db.items item }, .ok item)
      else (db, .error "the row violates a constraint of kanban_work_items")
  | .saveMetadata workItemId metadata =>
      ({ db with items := db.items.map fun row =>
          if row.id = workItemId then { row with metadata := some metadata } else row }, .ok ())
  | .findDependenciesByWorkItemIds workItemIds =>
      (db, .ok (db.dependencies.filter fun dependency => dependency.work_item_id ∈ workItemIds))
  | .replaceDependencies workItemId dependencyIds =>
      ({ db with dependencies :=
          (db.dependencies.filter fun dependency => dependency.work_item_id ≠ workItemId) ++
            dependencyIds.map fun dependencyId => ⟨workItemId, dependencyId⟩ }, .ok ())
  | .findSubtasksByWorkItemIds workItemIds =>
      (db, .ok (db.subtasks.filter fun subtask => subtask.work_item_id ∈ workItemIds))
  | .replaceSubtasks _ workItemId subtasks =>
      ({ db with subtasks :=
          (db.subtasks.filter fun subtask => subtask.work_item_id ≠ workItemId) ++ subtasks },
        .ok subtasks)
  | .deleteByProjectAndId projectId workItemId =>
      ({ db with
          items := deleteItem db.items projectId workItemId
          dependencies := db.dependencies.filter fun dependency =>
            dependency.work_item_id ≠ workItemId && dependency.depends_on_work_item_id ≠ workItemId
          subtasks := db.subtasks.filter fun subtask => subtask.work_item_id ≠ workItemId },
        .ok ())
  | .findProjectBasePath _ => (db, .ok outcome.basePath)
  | .writeWorkItemSpec _ _ _ _ _ => (db, .ok outcome.spec)
  | .specFileExists _ _ => (db, .ok outcome.fileExists)
  | .commitPaths _ _ _ => (db, .ok ())
  | .deleteRepoFile _ _ _ => (db, .ok ())
  | .emitStatusChanged _ _ _ => (db, .ok ())

/-- The outcome of the next statement is used up. -/
def ItemTables.tick (db : ItemTables) : ItemTables := { db with issued := db.issued + 1 }

def ItemOp.exec (db : ItemTables) (o : ItemOp) : ItemTables × o.Ans :=
  match (db.outcomes db.issued).error with
  | some message => (db.tick, .error message)
  | none => o.effect db.tick (db.outcomes db.issued)

abbrev ItemProg (α : Type) := Prog ItemOp ItemOp.Ans String α

/-- Awaits one statement; what it throws is thrown on. -/
def awaitItem (o : ItemOp) : ItemProg o.Value := do
  match ← (Prog.op o : ItemProg o.Ans) with
  | .ok value => pure value
  | .error message => .fail message

/-- A check that throws. -/
def checked (result : Except String Unit) : ItemProg Unit :=
  match result with
  | .ok () => pure ()
  | .error message => .fail message

/-! ## Inputs -/

structure NormalizedSubtaskInput where
  subtaskId : String
  title : String
  status : Option String := none
  orderIndex : Option Int := none
  dependsOnSubtaskIds : Option (List String) := none
  sourcePath : Option String := none
  metadata : Option Json := none

/-- The text in a value, when it is one. -/
def asText : Option Json → Option String
  | some (.str text) => some text
  | _ => none

/-- The number in a value, when it is one. -/
def asNumber : Option Json → Option Int
  | some (.num n) => some n
  | _ => none

/-- The texts among the elements of an array. -/
def asTexts : Option Json → Option (List String)
  | some (.arr values) => some (values.filterMap fun value => asText (some value))
  | _ => none

/-- A text or `null`. -/
def asNullableText : Option Json → Option (Option String)
  | some (.str text) => some (some text)
  | some .null => some none
  | _ => none

/-- A record or `null`. -/
def asNullableRecord : Option Json → Option (Option Json)
  | some (.obj fields) => some (some (.obj fields))
  | some .null => some none
  | _ => none

def normalizeSubtask (entry : Json) : Option NormalizedSubtaskInput := do
  let subtaskId ← asText (entry.field? "subtaskId")
  let title ← asText (entry.field? "title")
  return {
    subtaskId, title
    status := asText (entry.field? "status")
    orderIndex := asNumber (entry.field? "orderIndex")
    dependsOnSubtaskIds := asTexts (entry.field? "dependsOnSubtaskIds")
    sourcePath := asText (entry.field? "sourcePath")
    metadata := (asNullableRecord (entry.field? "metadata")).join }

def normalizeSubtaskInput (input : List Json) : List NormalizedSubtaskInput :=
  input.filterMap normalizeSubtask

/-- A patch; a field of it is `none` when the patch does not have the key. -/
structure WorkItemPatch where
  title : Option String := none
  description : Option (Option String) := none
  priority : Option String := none
  type : Option WorkItemType := none
  parentWorkItemId : Option (Option String) := none
  storyPoints : Option (Option Int) := none
  dependencyIds : Option (List String) := none
  executionConfig : Option (Option Json) := none
  metadata : Option (Option Json) := none
  subtasks : Option (List NormalizedSubtaskInput) := none

/-- `WorkItemTypeSchema`. -/
def parseWorkItemType (value : Option Json) : Option WorkItemType :=
  (asText value).bind fun text => workItemTypes.find? fun type => type.text = text

/-- `null` or a value of `StoryPointsSchema`. -/
def parseStoryPoints : Option Json → Option (Option Int)
  | some .null => some none
  | some (.num points) => if points ∈ storyPointValues then some (some points) else none
  | _ => none

def asWorkItemPatch (data : Json) : WorkItemPatch where
  title := asText (data.field? "title")
  description := asNullableText (data.field? "description")
  priority := asText (data.field? "priority")
  type := parseWorkItemType (data.field? "type")
  parentWorkItemId := asNullableText (data.field? "parentWorkItemId")
  storyPoints := parseStoryPoints (data.field? "storyPoints")
  dependencyIds := (asTexts (data.field? "dependencyIds")).or (asTexts (data.field? "dependsOn"))
  executionConfig := asNullableRecord (data.field? "executionConfig")
  metadata := asNullableRecord (data.field? "metadata")
  subtasks := match data.field? "subtasks" with
    | some (.arr entries) => some (normalizeSubtaskInput entries)
    | _ => none

/-- `CreateWorkItemInput`; an absent field and `null` are the same to the code. -/
structure CreateWorkItemInput where
  id : Option String := none
  title : String
  description : Option String := none
  type : Option WorkItemType := none
  parentWorkItemId : Option String := none
  storyPoints : Option Int := none
  priority : Option String := none
  dependencyIds : List String := []
  dependsOn : List String := []
  executionConfig : Option Json := none
  metadata : Option Json := none
  subtasks : Option (List Json) := none
  status : Option WorkItemStatus := none

def getInputDependencyIds (input : CreateWorkItemInput) : List String :=
  (input.dependencyIds ++ input.dependsOn).eraseDups

def hasLifecycleStatusInMetadata (metadata : Option Json) : Bool :=
  (OrderedMap.get? (recordFields metadata) "status").isSome

/-- `input.id?.trim() || randomUUID()`, with the id that is drawn. -/
def CreateWorkItemInput.resolveId (input : CreateWorkItemInput) (randomUUID : String) : String :=
  match input.id with
  | some id => if jsTrim id = "" then randomUUID else jsTrim id
  | none => randomUUID

def toCreateEntity (id projectId : String) (input : CreateWorkItemInput) : KanbanWorkItemEntity where
  id := id
  project_id := projectId
  title := input.title
  status := input.status.getD .backlog
  priority := input.priority.getD "p2"
  type := input.type.getD .story
  parent_work_item_id := input.parentWorkItemId
  story_points := input.storyPoints
  description := input.description
  execution_config := input.executionConfig
  metadata := input.metadata

/-! ## Operations -/

/-- `WorkItemRecord`: the row with what the other tables have on it. -/
structure WorkItemRecord where
  item : KanbanWorkItemEntity
  dependencyIds : List String
  subtasks : List SubtaskRecord

namespace WorkItemService

def requireWorkItem (projectId workItemId : String) : ItemProg KanbanWorkItemEntity := do
  match ← awaitItem (.findByProjectAndId projectId workItemId) with
  | some item => pure item
  | none => .fail s!"Work item {workItemId} not found for project {projectId}"

def resolveParentType (projectId : String) (parentWorkItemId : Option String) :
    ItemProg (Option WorkItemType) :=
  match parentWorkItemId with
  | none => pure none
  | some parentId =>
      if parentId = "" then pure none
      else do
        let parent ← requireWorkItem projectId parentId
        pure (some parent.type)

def assertDependenciesExist (projectId : String) : List String → ItemProg Unit
  | [] => pure ()
  | dependencyId :: rest => do
      match ← awaitItem (.findByProjectAndId projectId dependencyId) with
      | some _ => assertDependenciesExist projectId rest
      | none => .fail s!"Dependency work item {dependencyId} not found"

/-- Both statements on the dependencies that an input names. -/
def storeDependencies (projectId workItemId : String) (dependencyIds : List String) :
    ItemProg Unit := do
  assertDependenciesExist projectId dependencyIds
  awaitItem (.replaceDependencies workItemId dependencyIds)

def getDependencyIds (workItemId : String) : ItemProg (List String) := do
  let dependencies ← awaitItem (.findDependenciesByWorkItemIds [workItemId])
  pure (dependencies.map DependencyRecord.depends_on_work_item_id)

def replaceSubtasksFromInput (projectId workItemId : String)
    (input : Option (List NormalizedSubtaskInput)) : ItemProg (List SubtaskRecord) :=
  match input with
  | none => awaitItem (.findSubtasksByWorkItemIds [workItemId])
  | some subtasks =>
      awaitItem (.replaceSubtasks projectId workItemId
        (subtasks.zipIdx.map fun (subtask, index) => {
          project_id := projectId
          work_item_id := workItemId
          subtask_id := subtask.subtaskId
          title := subtask.title
          status := subtask.status.getD "todo"
          order_index := subtask.orderIndex.getD index
          depends_on_subtask_ids := subtask.dependsOnSubtaskIds.getD []
          source_path := subtask.sourcePath.getD ""
          metadata := subtask.metadata }))

/-- A text of the metadata that is not empty. -/
def metadataText (metadata : Option Json) (key : String) : Option String :=
  (asText (OrderedMap.get? (recordFields metadata) key)).filter fun text => text ≠ ""

/-- The path in `resolveSpecFilePath`, before it is resolved against the base path. -/
def recordedSpecPath (metadata : Option Json) : Option String :=
  (metadataText metadata "workItemMarkdownPath").or (metadataText metadata "sourcePath")

/-- The text of a result that is there and not empty. -/
def WriteSpecResult.path? (result : WriteSpecResult) : Option String :=
  if result.ok then result.filePath.filter fun path => path ≠ "" else none

def optionalText : Option String → Json
  | some text => .str text
  | none => .null

/-- `materializeMissingPublishSpecFile`. -/
def materializeMissingPublishSpecFile (basePath : String) (item : KanbanWorkItemEntity)
    (dependencyIds : List String) : ItemProg KanbanWorkItemEntity :=
  match recordedSpecPath item.metadata with
  | none => pure item
  | some targetPath => do
      if ← awaitItem (.specFileExists basePath targetPath) then pure item
      else
        let materialized ← awaitItem (.writeWorkItemSpec basePath item dependencyIds
          (some targetPath) (metadataText item.metadata "sourceId"))
        match WriteSpecResult.path? materialized with
        | none => pure item
        | some path => do
            awaitItem (.commitPaths basePath [path]
              s!"docs(work-items): materialize missing spec for \"{item.title}\"")
            let metadata := Json.obj (OrderedMap.set (recordFields item.metadata) "sourceHash"
              (optionalText materialized.sourceHash))
            awaitItem (.saveMetadata item.id metadata)
            pure { item with metadata := some metadata }

/-- The `try` block of `writeWorkItemSpecFile`; the item comes back with its new metadata. -/
def writeSpecFile (projectId : String) (item : KanbanWorkItemEntity) (dependencyIds : List String) :
    ItemProg KanbanWorkItemEntity := do
  match (← awaitItem (.findProjectBasePath projectId)).filter fun path => path ≠ "" with
  | none => pure item
  | some basePath =>
      if asText (OrderedMap.get? (recordFields item.metadata) "source") = some "publish_specs" then
        materializeMissingPublishSpecFile basePath item dependencyIds
      else do
        let result ← awaitItem (.writeWorkItemSpec basePath item dependencyIds
          (recordedSpecPath item.metadata) (metadataText item.metadata "sourceId"))
        match WriteSpecResult.path? result with
        | none => pure item
        | some path => do
            awaitItem (.commitPaths basePath [path]
              s!"docs(work-items): add spec for \"{item.title}\"")
            let metadata := Json.obj (OrderedMap.set
              (OrderedMap.set (recordFields item.metadata) "workItemMarkdownPath" (.str path))
              "sourceHash" (optionalText result.sourceHash))
            awaitItem (.saveMetadata item.id metadata)
            pure { item with metadata := some metadata }

/-- `writeWorkItemSpecFile`: what goes wrong in it is logged. -/
def writeWorkItemSpecFile (projectId : String) (item : KanbanWorkItemEntity)
    (dependencyIds : List String) : ItemProg KanbanWorkItemEntity :=
  (writeSpecFile projectId item dependencyIds).handle fun _ => pure item

def createWorkItem (projectId : String) (input : CreateWorkItemInput) (randomUUID : String) :
    ItemProg WorkItemRecord := do
  if hasLifecycleStatusInMetadata input.metadata then
    .fail "metadata.status is not a work-item lifecycle status; use top-level status"
  else
    let parentType ← resolveParentType projectId input.parentWorkItemId
    checked (assertWorkItemInvariants (input.type.getD .story) input.storyPoints parentType)
    let item ← awaitItem (.save (toCreateEntity (input.resolveId randomUUID) projectId input))
    let dependencyIds := getInputDependencyIds input
    (if dependencyIds ≠ [] then storeDependencies projectId item.id dependencyIds else pure ())
    let subtasks ← replaceSubtasksFromInput projectId item.id
      (input.subtasks.map normalizeSubtaskInput)
    let item ← writeWorkItemSpecFile projectId item dependencyIds
    pure ⟨item, dependencyIds, subtasks⟩

/-- `detachParentOnEpicPromotion`: the patch with the parent cleared. -/
def detachParentOnEpicPromotion (item : KanbanWorkItemEntity) (patch : WorkItemPatch)
    (effectiveType : WorkItemType) : WorkItemPatch :=
  if effectiveType = .epic ∧ item.parent_work_item_id ≠ none ∧ patch.parentWorkItemId = none then
    { patch with parentWorkItemId := some none }
  else patch

/-- Whether the patch has one of the keys that the invariants are about. -/
def touchesHierarchy (patch : WorkItemPatch) : Bool :=
  patch.type.isSome || patch.storyPoints.isSome || patch.parentWorkItemId.isSome

/-- The patch that is applied: with the parent cleared for a promotion to an epic. -/
def effectivePatch (item : KanbanWorkItemEntity) (patch : WorkItemPatch) : WorkItemPatch :=
  if touchesHierarchy patch then
    detachParentOnEpicPromotion item patch (patch.type.getD item.type)
  else patch

def applyPatchToWorkItem (item : KanbanWorkItemEntity) (patch : WorkItemPatch) :
    KanbanWorkItemEntity :=
  { item with
    title := (patch.title.filter fun title => title ≠ "").getD item.title
    description := patch.description.getD item.description
    priority := (patch.priority.filter fun priority => priority ≠ "").getD item.priority
    type := patch.type.getD item.type
    parent_work_item_id := patch.parentWorkItemId.getD item.parent_work_item_id
    story_points := patch.storyPoints.getD item.story_points
    execution_config := patch.executionConfig.getD item.execution_config
    metadata := patch.metadata.getD item.metadata }

/-- The checks of an update on the item it will write. -/
def checkUpdate (projectId : String) (patch : WorkItemPatch) (updated : KanbanWorkItemEntity) :
    ItemProg Unit := do
  if touchesHierarchy patch then
    let parentType ← resolveParentType projectId updated.parent_work_item_id
    checked (assertWorkItemInvariants updated.type updated.story_points parentType)

/-- `if (patch.dependencyIds)`: an empty list replaces them too. -/
def storePatchDependencies (projectId workItemId : String) (patch : WorkItemPatch) :
    ItemProg Unit :=
  match patch.dependencyIds with
  | some dependencyIds => storeDependencies projectId workItemId dependencyIds
  | none => pure ()

/-- `patch.dependencyIds ?? (await getDependencyIds(workItemId))`. -/
def dependencyIdsAfter (workItemId : String) (patch : WorkItemPatch) : ItemProg (List String) :=
  match patch.dependencyIds with
  | some dependencyIds => pure dependencyIds
  | none => getDependencyIds workItemId

def updateWorkItem (projectId workItemId : String) (data : Json) : ItemProg WorkItemRecord := do
  let item ← requireWorkItem projectId workItemId
  let patch := effectivePatch item (asWorkItemPatch data)
  checkUpdate projectId patch (applyPatchToWorkItem item patch)
  storePatchDependencies projectId workItemId patch
  let updated ← awaitItem (.save (applyPatchToWorkItem item patch))
  let dependencyIds ← dependencyIdsAfter workItemId patch
  let subtasks ← replaceSubtasksFromInput projectId workItemId patch.subtasks
  (if patch.storyPoints.isSome ∧ updated.status = .refinement then
    awaitItem (.emitStatusChanged projectId workItemId updated.status) else pure ())
  pure ⟨updated, dependencyIds, subtasks⟩

/-- The deletion of the spec file, when the project has a base path; what goes wrong in it is
logged. -/
def deleteSpecFile (basePath : Option String) (item : KanbanWorkItemEntity) : ItemProg Unit :=
  match basePath.filter fun path => path ≠ "" with
  | some basePath =>
      let path := (asText (OrderedMap.get? (recordFields item.metadata)
        "workItemMarkdownPath")).getD s!"docs/work-items/{item.id}.md"
      (awaitItem (.deleteRepoFile basePath path
        s!"docs(work-items): delete spec for \"{item.title}\"")).handle fun _ => pure ()
  | none => pure ()

def deleteWorkItem (projectId workItemId : String) : ItemProg Unit := do
  let item ← requireWorkItem projectId workItemId
  let basePath ← awaitItem (.findProjectBasePath projectId)
  deleteSpecFile basePath item
  awaitItem (.deleteByProjectAndId projectId workItemId)

end WorkItemService

end Nexus
