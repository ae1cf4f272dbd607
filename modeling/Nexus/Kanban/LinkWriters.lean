import Nexus.Kanban.Dispatch

/-!
# The writers of run links

The calls that write `linked_run_id` and `current_execution_id` besides a dispatch: the projection
of a lifecycle event of a run, the sweep over a project's linked runs, and the inbound sync of an
external ticket. What they await on other tables (leases, run projections, operation logs) is an
operation without an effect on the board.
-/

set_option autoImplicit false

namespace Nexus

/-! ## Lifecycle events -/

/-- A `core.workflow.run.…` event, as far as its projection onto a work item depends on it. -/
structure RunLifecycleEvent where
  projectId : String
  workItemId : String
  runId : String
  status : WorkflowStatus
  /-- Whether the lease of the item is free when it is asked for. -/
  leaseAcquired : Bool := true

def isRealWorkItemId (value : String) : Bool := value ≠ "__orchestration_lifecycle__"

/-- `linkWorkItemRunFromLifecycleEvent`. The release of the lease is in a `finally`, and a failure
of it is logged. -/
def linkWorkItemRunFromLifecycleEvent (event : RunLifecycleEvent) : BoardProg Unit :=
  if event.status.isTerminal || !isRealWorkItemId event.workItemId then
    pure ()
  else do
    awaitBoard .other
    if event.leaseAcquired then
      let linked ← tryBoard (.linkRunIfUnlinked event.projectId event.workItemId event.runId)
      let _ ← tryBoard .other
      match linked with
      | .ok _ => pure ()
      | .error message => .fail (.error message)
    else
      pure ()

/-- `recordTerminalRunStatus`; `recordExecutionStatus` and the broadcast write no link. -/
def recordTerminalRunStatus (event : RunLifecycleEvent) : BoardProg Unit :=
  if !event.status.isTerminal || !isRealWorkItemId event.workItemId then
    pure ()
  else do
    if !(← awaitBoard (.clearRunLinksIfMatches event.projectId event.workItemId event.runId)) then
      awaitBoard .other
    awaitBoard .other

/-- The part of `processEntries` that projects one event onto its work item. -/
def projectLifecycleEvent (event : RunLifecycleEvent) : BoardProg Unit := do
  awaitBoard .other
  linkWorkItemRunFromLifecycleEvent event
  recordTerminalRunStatus event

/-! ## The sweep -/

/-- `reconcileProjectLinkedRuns`. -/
def reconcileProjectLinkedRuns (deps : DispatchCoreDeps) (projectId : String) :
    BoardProg DispatchResult := do
  let projectItems ← awaitBoard (.findByProjectId projectId)
  let (projectItems, result) ← reconcileAllLinkedRuns deps true projectItems {}
  let (_, result) ← reconcileOrphans deps projectItems result
  pure result

/-! ## Inbound sync -/

/-- An external ticket after the field mapping, and what the conflict resolver decides about an
existing item. -/
structure InboundTicket where
  projectId : String
  connectionId : String
  externalId : String
  status : WorkItemStatus
  metadata : Json
  /-- The id that a new item gets. -/
  newId : String
  /-- The ticket is newer than the item. -/
  applies : WorkItem → Bool

/-- `toSavePayload`, with the status and the metadata of the patch. -/
def toSavePayload (workItem : WorkItem) (status : WorkItemStatus) (metadata : Option Json) :
    WorkItemColumns where
  id := workItem.id
  project_id := some workItem.project_id
  status := some status
  type := some workItem.type
  assigned_agent_id := some workItem.assigned_agent_id
  current_execution_id := some workItem.current_execution_id
  execution_config := some workItem.execution_config
  metadata := some metadata
  linked_run_id := some workItem.linked_run_id

/-- The columns of the item that a new ticket creates. -/
def InboundTicket.created (ticket : InboundTicket) : WorkItemColumns where
  id := ticket.newId
  project_id := some ticket.projectId
  status := some ticket.status
  type := some .story
  assigned_agent_id := some none
  current_execution_id := some none
  execution_config := some none
  metadata := some (some ticket.metadata)
  linked_run_id := some none

def processTicket (ticket : InboundTicket) : BoardProg Unit := do
  awaitBoard .other
  match ← awaitBoard (.findByExternalSyncRef ticket.projectId ticket.connectionId
      ticket.externalId) with
  | none =>
      let _ ← awaitBoard (.save ticket.created)
      awaitBoard .other
  | some existing =>
      if ticket.applies existing then
        let _ ← awaitBoard (.save (toSavePayload existing ticket.status (some ticket.metadata)))
        awaitBoard .other
      else
        awaitBoard .other

/-- `withDeletionMarker`. -/
def withDeletionMarker (workItem : WorkItem) (deletedAt : String) : Json :=
  let metadata := recordFields workItem.metadata
  let existingSync := recordFields (OrderedMap.get? metadata "external_sync")
  .obj (OrderedMap.set metadata "external_sync"
    (.obj (OrderedMap.set (OrderedMap.set existingSync "deleted_at" (.str deletedAt))
      "deletion_seen" (.bool true))))

def processDeletedEvent (projectId connectionId externalId deletedAt : String) :
    BoardProg Unit := do
  awaitBoard .other
  match ← awaitBoard (.findByExternalSyncRef projectId connectionId externalId) with
  | none => awaitBoard .other
  | some existing =>
      let _ ← awaitBoard (.save (toSavePayload existing existing.status
        (some (withDeletionMarker existing deletedAt))))
      awaitBoard .other

/-! ## The calls -/

/-- The calls that write the links of work items, or rows that carry them. -/
inductive LinkCall where
  | updateStatus (projectId workItemId : String) (status : WorkItemStatus)
  | dispatchWorkItems (deps : DispatchCoreDeps) (options : DispatchCoreOptions)
  | reconcileProjectLinkedRuns (deps : DispatchCoreDeps) (projectId : String)
  | lifecycleEvent (event : RunLifecycleEvent)
  | processTicket (ticket : InboundTicket)
  | processDeletedEvent (projectId connectionId externalId deletedAt : String)

def LinkCall.program : LinkCall → BoardProg Unit
  | .updateStatus projectId workItemId status => Nexus.updateStatus projectId workItemId status
  | .dispatchWorkItems deps options => do
      let _ ← Nexus.dispatchWorkItems deps options
      pure ()
  | .reconcileProjectLinkedRuns deps projectId => do
      let _ ← Nexus.reconcileProjectLinkedRuns deps projectId
      pure ()
  | .lifecycleEvent event => projectLifecycleEvent event
  | .processTicket ticket => Nexus.processTicket ticket
  | .processDeletedEvent projectId connectionId externalId deletedAt =>
      Nexus.processDeletedEvent projectId connectionId externalId deletedAt

end Nexus
