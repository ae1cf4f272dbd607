import Nexus.Lib.Json
import Nexus.Lib.Pool
import Nexus.Workflow.Store

/-!
# Work items

The rows of `kanban_work_items`, the statements of `KanbanWorkItemRepository` on them, the calls to
Core that the board awaits, and the transition of a status (`transitionWorkItemStatus`). Every
operation is one atomic step, and every operation may throw instead, in which case nothing has
changed. What the outside does at an operation is an `Outcome`; a board carries the outcomes of all
operations to come, so that a statement about every board is one about every pattern of them.
-/

set_option autoImplicit false

namespace Nexus

/-- `SUPPORTED_WORK_ITEM_STATUSES`. -/
inductive WorkItemStatus where
  | backlog
  | todo
  | refinement
  | inProgress
  | inReview
  | readyToMerge
  | awaitingPrMerge
  | blocked
  | done
  deriving DecidableEq, Repr

def WorkItemStatus.text : WorkItemStatus → String
  | .backlog => "backlog"
  | .todo => "todo"
  | .refinement => "refinement"
  | .inProgress => "in-progress"
  | .inReview => "in-review"
  | .readyToMerge => "ready-to-merge"
  | .awaitingPrMerge => "awaiting-pr-merge"
  | .blocked => "blocked"
  | .done => "done"

inductive WorkItemType where
  | epic
  | story
  | task
  | bug
  | spike
  deriving DecidableEq, Repr

/-- A row of `kanban_work_items`. -/
structure WorkItem where
  id : String
  project_id : String
  status : WorkItemStatus
  type : WorkItemType := .story
  parent_work_item_id : Option String := none
  assigned_agent_id : Option String := none
  current_execution_id : Option String := none
  execution_config : Option Json := none
  metadata : Option Json := none
  linked_run_id : Option String := none

/-- The columns of a saved entity; `none` is a column the entity does not have. -/
structure WorkItemColumns where
  id : String
  project_id : Option String := none
  status : Option WorkItemStatus := none
  type : Option WorkItemType := none
  parent_work_item_id : Option (Option String) := none
  assigned_agent_id : Option (Option String) := none
  current_execution_id : Option (Option String) := none
  execution_config : Option (Option Json) := none
  metadata : Option (Option Json) := none
  linked_run_id : Option (Option String) := none

/-- An entity with every column. -/
def WorkItem.columns (item : WorkItem) : WorkItemColumns where
  id := item.id
  project_id := some item.project_id
  status := some item.status
  type := some item.type
  parent_work_item_id := some item.parent_work_item_id
  assigned_agent_id := some item.assigned_agent_id
  current_execution_id := some item.current_execution_id
  execution_config := some item.execution_config
  metadata := some item.metadata
  linked_run_id := some item.linked_run_id

/-- The row after the columns of an entity were written. -/
def WorkItem.write (row : WorkItem) (c : WorkItemColumns) : WorkItem where
  id := row.id
  project_id := c.project_id.getD row.project_id
  status := c.status.getD row.status
  type := c.type.getD row.type
  parent_work_item_id := c.parent_work_item_id.getD row.parent_work_item_id
  assigned_agent_id := c.assigned_agent_id.getD row.assigned_agent_id
  current_execution_id := c.current_execution_id.getD row.current_execution_id
  execution_config := c.execution_config.getD row.execution_config
  metadata := c.metadata.getD row.metadata
  linked_run_id := c.linked_run_id.getD row.linked_run_id

structure DependencyRecord where
  work_item_id : String
  depends_on_work_item_id : String

/-- `Boolean(text)` of a nullable text. -/
def isTruthyText (text : Option String) : Bool := text.any fun s => s ≠ ""

/-! ## Operations -/

/-- `WorkflowRunRequestV1`, as far as it depends on the work item. -/
structure WorkflowRunRequest where
  projectId : String
  workflowId : String
  item : WorkItem
  dependencyIds : List String

/-- A run request that Core has accepted. -/
structure AcceptedRun where
  request : WorkflowRunRequest
  runId : String

/-- `WorkflowRunStatusV1`. -/
structure RunStatusReport where
  status : WorkflowStatus
  current_step_id : Option String := none

/-- A lifecycle workflow that did not pass. -/
structure LifecycleGateFailure where
  workflowName : String
  status : String
  error : Option String := none
  runId : Option String := none

/-- What the gate of a transition answers; a blocked one names the time and the failures. -/
inductive TransitionGate where
  | passed
  | blocked (heldAt : String) (failures : List LifecycleGateFailure)

inductive BoardOp where
  | findByProjectId (projectId : String)
  | findByProjectAndId (projectId workItemId : String)
  | findByIds (workItemIds : List String)
  | findByExternalSyncRef (projectId connectionId externalId : String)
  | findDependenciesByWorkItemIds (workItemIds : List String)
  | save (entity : WorkItemColumns)
  | clearRunLinksIfMatches (projectId workItemId runId : String)
  | linkRunIfUnlinked (projectId workItemId runId : String)
  /-- The setting `work_item_dispatch_max_active_per_project`. -/
  | maxActivePerProject
  | getWorkflowRunStatus (runId : String)
  | requestWorkflowRun (request : WorkflowRunRequest)
  | runTransitionGate (projectId workItemId : String) (targetStatus : WorkItemStatus)
  /-- Awaited work on other tables and on queues. -/
  | other

abbrev BoardOp.Value : BoardOp → Type
  | .findByProjectId _ => List WorkItem
  | .findByProjectAndId _ _ => Option WorkItem
  | .findByIds _ => List WorkItem
  | .findByExternalSyncRef _ _ _ => Option WorkItem
  | .findDependenciesByWorkItemIds _ => List DependencyRecord
  | .save _ => Option WorkItem
  | .clearRunLinksIfMatches _ _ _ => Bool
  | .linkRunIfUnlinked _ _ _ => Bool
  | .maxActivePerProject => Int
  | .getWorkflowRunStatus _ => RunStatusReport
  | .requestWorkflowRun _ => String
  | .runTransitionGate _ _ _ => TransitionGate
  | .other => Unit

/-- The value of an operation, or the message of what it throws. -/
abbrev BoardOp.Ans (o : BoardOp) : Type := Except String o.Value

/-- What the outside does at an operation. -/
structure Outcome where
  /-- The message the operation throws. -/
  error : Option String := none
  /-- The id of the run that Core starts for a request. -/
  runId : String := "run"
  report : RunStatusReport := ⟨.running, none⟩
  gate : TransitionGate := .passed

structure Board where
  items : List WorkItem := []
  dependencies : List DependencyRecord := []
  maxActive : Int := 0
  /-- The run requests that Core has accepted, in their order. -/
  accepted : List AcceptedRun := []
  outcomes : Nat → Outcome := fun _ => {}
  issued : Nat := 0

namespace Board

def find (w : Board) (id : String) : Option WorkItem := w.items.find? fun row => row.id = id

/-- The ids are the primary key. -/
def Sound (w : Board) : Prop := (w.items.map WorkItem.id).Nodup

variable {w : Board} {row : WorkItem}

theorem Sound.eq_of_id {row' : WorkItem} (h : w.Sound) (hrow : row ∈ w.items)
    (hrow' : row' ∈ w.items) (hid : row.id = row'.id) : row = row' :=
  List.inj_on_of_nodup_map h hrow hrow' hid

theorem find_mem {id : String} (h : w.find id = some row) : row ∈ w.items ∧ row.id = id :=
  ⟨List.mem_of_find?_eq_some h, by simpa using List.find?_some h⟩

theorem Sound.find_eq (h : w.Sound) (hrow : row ∈ w.items) : w.find row.id = some row := by
  obtain ⟨found, hfound⟩ : ∃ found, w.find row.id = some found := by
    rw [← Option.isSome_iff_exists, Board.find, List.find?_isSome]
    exact ⟨row, hrow, decide_eq_true rfl⟩
  obtain ⟨hmem, hid⟩ := find_mem hfound
  rw [hfound, h.eq_of_id hmem hrow hid]

/-- An update of the rows with a property. -/
def updateWhere (w : Board) (p : WorkItem → Bool) (f : WorkItem → WorkItem) : Board :=
  { w with items := w.items.map fun row => if p row then f row else row }

/-- A save: an update of the row with the id, or an insert with the defaults of the columns. -/
def save (w : Board) (c : WorkItemColumns) : Board :=
  match w.find c.id with
  | some _ => w.updateWhere (fun row => row.id = c.id) fun row => row.write c
  | none =>
      { w with items := w.items ++
        [({ id := c.id, project_id := c.project_id.getD "", status := .todo } : WorkItem).write c] }

end Board

namespace WorkItem

def isRow (projectId workItemId : String) (row : WorkItem) : Bool :=
  row.id = workItemId && row.project_id = projectId

/-- The condition of `clearRunLinksIfMatches`. -/
def isLinkedTo (projectId workItemId runId : String) (row : WorkItem) : Bool :=
  row.isRow projectId workItemId && row.linked_run_id = some runId &&
    (row.current_execution_id = some runId || row.current_execution_id = none)

/-- The condition of `linkRunIfUnlinked`. -/
def isUnlinked (row : WorkItem) : Bool :=
  row.linked_run_id = none && row.current_execution_id = none

/-- The row with both links written. -/
def withLinks (row : WorkItem) (link : Option String) : WorkItem :=
  { row with linked_run_id := link, current_execution_id := link }

/-- `metadata->'external_sync'->>'…'`. -/
def externalSync (row : WorkItem) (key : String) : Option String :=
  match ((row.metadata.bind (Json.field? · "external_sync")).bind (Json.field? · key)) with
  | some (.str text) => some text
  | _ => none

end WorkItem

/-- What an operation does when it does not throw. -/
def BoardOp.effect (w : Board) (outcome : Outcome) : (o : BoardOp) → Board × o.Value
  | .findByProjectId projectId => (w, w.items.filter fun row => row.project_id = projectId)
  | .findByProjectAndId projectId workItemId =>
      (w, w.items.find? (WorkItem.isRow projectId workItemId))
  | .findByIds workItemIds => (w, w.items.filter fun row => row.id ∈ workItemIds)
  | .findByExternalSyncRef projectId connectionId externalId =>
      (w, w.items.find? fun row => row.project_id = projectId &&
        row.externalSync "connection_id" = some connectionId &&
        row.externalSync "external_id" = some externalId)
  | .findDependenciesByWorkItemIds workItemIds =>
      (w, w.dependencies.filter fun dependency => dependency.work_item_id ∈ workItemIds)
  | .save entity => (w.save entity, (w.save entity).find entity.id)
  | .clearRunLinksIfMatches projectId workItemId runId =>
      (w.updateWhere (WorkItem.isLinkedTo projectId workItemId runId) (WorkItem.withLinks · none),
        w.items.any (WorkItem.isLinkedTo projectId workItemId runId))
  | .linkRunIfUnlinked projectId workItemId runId =>
      (w.updateWhere (fun row => row.isRow projectId workItemId && row.isUnlinked)
          (WorkItem.withLinks · (some runId)),
        w.items.any fun row => row.isRow projectId workItemId && row.isUnlinked)
  | .maxActivePerProject => (w, w.maxActive)
  | .getWorkflowRunStatus _ => (w, outcome.report)
  | .requestWorkflowRun request =>
      ({ w with accepted := w.accepted ++ [⟨request, outcome.runId⟩] }, outcome.runId)
  | .runTransitionGate _ _ _ => (w, outcome.gate)
  | .other => (w, ())

/-- The outcome of the next operation is used up. -/
def Board.tick (w : Board) : Board := { w with issued := w.issued + 1 }

def BoardOp.exec (w : Board) (o : BoardOp) : Board × o.Ans :=
  match (w.outcomes w.issued).error with
  | some message => (w.tick, .error message)
  | none =>
      ((o.effect w.tick (w.outcomes w.issued)).1, .ok (o.effect w.tick (w.outcomes w.issued)).2)

/-- The errors the programs throw; the one of a failed link has a name of its own. -/
inductive BoardError where
  | error (message : String)
  | acceptedRunLinkError (message : String)
  deriving DecidableEq, Repr

def BoardError.message : BoardError → String
  | .error message => message
  | .acceptedRunLinkError message => message

abbrev BoardProg (α : Type) := Prog BoardOp BoardOp.Ans BoardError α

/-- Awaits one operation in a `try` block. -/
def tryBoard (o : BoardOp) : BoardProg o.Ans := Prog.op o

/-- Awaits one operation; what it throws is thrown on. -/
def awaitBoard (o : BoardOp) : BoardProg o.Value := do
  match ← tryBoard o with
  | .ok value => pure value
  | .error message => .fail (.error message)

namespace KanbanWorkItemRepository

/-- `findByIds`, which asks for no ids without a query. -/
def findByIds (workItemIds : List String) : BoardProg (List WorkItem) :=
  if workItemIds.isEmpty then pure [] else awaitBoard (.findByIds workItemIds)

def findDependenciesByWorkItemIds (workItemIds : List String) : BoardProg (List DependencyRecord) :=
  if workItemIds.isEmpty then pure []
  else awaitBoard (.findDependenciesByWorkItemIds workItemIds)

end KanbanWorkItemRepository

/-! ## Transitions of the status -/

/-- `isRecord`: the fields of a record; every other value has none. -/
def recordFields (value : Option Json) : List (String × Json) :=
  match value with
  | some (.obj fields) => fields
  | _ => []

/-- `metadata` and its `lifecycle`, both as records. -/
def asLifecycleRecord (metadata : Option Json) : List (String × Json) × List (String × Json) :=
  (recordFields metadata,
    recordFields (OrderedMap.get? (recordFields metadata) "lifecycle"))

def LifecycleGateFailure.toJson (failure : LifecycleGateFailure) : Json :=
  .obj [("workflowName", .str failure.workflowName), ("status", .str failure.status),
    ("error", (failure.error.map Json.str).getD .null),
    ("runId", (failure.runId.map Json.str).getD .null)]

def mergeGateHeldMetadata (metadata : Option Json) (targetStatus : WorkItemStatus)
    (heldAt : String) (failures : List LifecycleGateFailure) : Json :=
  let gate : Json := .obj [("targetStatus", .str targetStatus.text), ("hook", .str "before"),
    ("status", .str "held"), ("heldAt", .str heldAt),
    ("failures", .arr (failures.map LifecycleGateFailure.toJson))]
  let (base, lifecycle) := asLifecycleRecord metadata
  .obj (OrderedMap.set base "lifecycle" (.obj (OrderedMap.set lifecycle "gate" gate)))

def clearGateMetadata (metadata : Option Json) : Json :=
  let (base, lifecycle) := asLifecycleRecord metadata
  .obj (OrderedMap.set base "lifecycle" (.obj (OrderedMap.erase lifecycle "gate")))

/-- The summary of the failures in the message of a held transition. -/
def gateSummary (failures : List LifecycleGateFailure) : String :=
  "; ".intercalate (failures.map fun failure =>
    failure.workflowName ++ ": " ++ failure.status ++
      match failure.error with
      | some error => if error = "" then "" else " (" ++ error ++ ")"
      | none => "")

def requireWorkItem (projectId workItemId : String) : BoardProg WorkItem := do
  match ← awaitBoard (.findByProjectAndId projectId workItemId) with
  | some item => pure item
  | none => .fail (.error s!"Work item {workItemId} not found for project {projectId}")

/-- `transitionWorkItemStatus`, with the save it ends in and the announcements after it. -/
def transitionWorkItemStatus (projectId workItemId : String) (status : WorkItemStatus) :
    BoardProg Unit := do
  let item ← requireWorkItem projectId workItemId
  if item.status = status then
    let _ ← KanbanWorkItemRepository.findDependenciesByWorkItemIds [item.id]
  else
    match ← awaitBoard (.runTransitionGate projectId workItemId status) with
    | .blocked heldAt failures =>
        let _ ← awaitBoard (.save { item with
          metadata := some (mergeGateHeldMetadata item.metadata status heldAt failures) }.columns)
        .fail (.error s!"Transition to {status.text} blocked: {gateSummary failures}")
    | .passed =>
        let _ ← awaitBoard (.save { item with
          status := status, metadata := some (clearGateMetadata item.metadata) }.columns)
        let _ ← KanbanWorkItemRepository.findDependenciesByWorkItemIds [item.id]
        awaitBoard .other

/-- `WorkItemService.updateStatus`. -/
def updateStatus (projectId workItemId : String) (status : WorkItemStatus) : BoardProg Unit :=
  transitionWorkItemStatus projectId workItemId status

end Nexus
