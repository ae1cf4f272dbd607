import Nexus.Kanban.WorkItems

/-!
# The rules of a dispatch

The pure helpers of the dispatch core: who owns a target branch, which files a plan names, the
budgets of a project and of an agent, dependencies, containers and the refinement gate, and the
options and results of a pass.
-/

set_option autoImplicit false

namespace Nexus

/-! ## Target branches and planned files -/

/-- `BRANCH_OWNING_STATUSES`. -/
def branchOwningStatuses : List WorkItemStatus :=
  [.inProgress, .inReview, .readyToMerge, .awaitingPrMerge]

def ownsTargetBranch (item : WorkItem) : Bool :=
  isTruthyText item.linked_run_id || isTruthyText item.current_execution_id ||
    item.status ∈ branchOwningStatuses

def getTargetBranch (item : WorkItem) : Option String :=
  match item.execution_config.bind (Json.field? · "targetBranch") with
  | some (.str raw) => if jsTrim raw = "" then none else some (jsTrim raw)
  | _ => none

def collectActiveTargetBranches (items : List WorkItem) : List String :=
  (items.filter ownsTargetBranch).filterMap getTargetBranch

/-- The elements of an array property; every other value has none. -/
def arrayField (value : Json) (key : String) : List Json :=
  match value.field? key with
  | some (.arr xs) => xs
  | _ => []

/-- A text that is not empty. -/
def nonEmptyText? : Json → Option String
  | .str text => if text = "" then none else some text
  | _ => none

def extractTargetFiles (plan : Json) : List String :=
  (arrayField plan "milestones").flatMap fun milestone =>
    (arrayField milestone "tasks").flatMap fun task =>
      (arrayField task "target_files").filterMap nonEmptyText?

def planOf (item : WorkItem) : Json :=
  (item.execution_config.bind (Json.field? · "implementationPlan")).getD .null

def targetFiles (item : WorkItem) : List String := extractTargetFiles (planOf item)

/-- The first item in flight whose planned files overlap the candidate's. -/
def findTargetFileContention (candidate : WorkItem) (inFlight : List WorkItem) : Option String :=
  (inFlight.find? fun other =>
    other.id ≠ candidate.id && (targetFiles candidate).any (· ∈ targetFiles other)).map WorkItem.id

/-! ## Capacities -/

/-- `PROJECT_DISPATCH_ACTIVE_STATUSES`. -/
def projectDispatchActiveStatuses : List WorkItemStatus := [.inProgress, .inReview, .readyToMerge]

def isProjectDispatchActive (item : WorkItem) : Bool :=
  item.status ≠ .done &&
    (isTruthyText item.linked_run_id || isTruthyText item.current_execution_id ||
      item.status ∈ projectDispatchActiveStatuses)

def countActiveProjectDispatches (items : List WorkItem) : Nat :=
  (items.filter isProjectDispatchActive).length

/-- `canLaunchNewWork`; `none` is the infinite budget. -/
def canLaunchNewWork (initialActiveCount : Nat) (maxActive : Option Int) (acceptedLaunches : Nat) :
    Bool :=
  match maxActive with
  | none => true
  | some maxActive =>
      let activeCount : Int := (initialActiveCount : Int) + acceptedLaunches
      let availableSlots := max 0 (max 0 maxActive - activeCount)
      decide (0 < availableSlots)

/-- `item.assigned_agent_id`, when it is neither null nor empty. -/
def assignedAgent? (item : WorkItem) : Option String :=
  item.assigned_agent_id.bind fun agentId => if agentId = "" then none else some agentId

/-- `activeByAgent.get(agentId) ?? 0`. -/
def activeOf (activeByAgent : OrderedMap String Nat) (agentId : String) : Nat :=
  (OrderedMap.get? activeByAgent agentId).getD 0

def incrementActiveAgentCount (item : WorkItem) (activeByAgent : OrderedMap String Nat) :
    OrderedMap String Nat :=
  match assignedAgent? item with
  | none => activeByAgent
  | some agentId => OrderedMap.set activeByAgent agentId (activeOf activeByAgent agentId + 1)

def countActiveLinkedByAgent (items : List WorkItem) : OrderedMap String Nat :=
  items.foldl (fun activeByAgent item =>
    if isTruthyText item.linked_run_id then incrementActiveAgentCount item activeByAgent
    else activeByAgent) []

def agentCapacityReached (maxConcurrentPerAgent : Option Int) (item : WorkItem)
    (activeByAgent : OrderedMap String Nat) : Bool :=
  match assignedAgent? item, maxConcurrentPerAgent with
  | some agentId, some maximum => decide (maximum ≤ activeOf activeByAgent agentId)
  | _, _ => false

/-! ## Dependencies, containers and refinement -/

def groupDependencyIds (dependencies : List DependencyRecord) : OrderedMap String (List String) :=
  dependencies.foldl (fun grouped dependency =>
    OrderedMap.set grouped dependency.work_item_id
      ((OrderedMap.get? grouped dependency.work_item_id).getD [] ++
        [dependency.depends_on_work_item_id])) []

def dependenciesReady (item : WorkItem) (dependencyIdsByItem : OrderedMap String (List String))
    (itemById : OrderedMap String WorkItem) : Bool :=
  ((OrderedMap.get? dependencyIdsByItem item.id).getD []).all fun dependencyId =>
    (OrderedMap.get? itemById dependencyId).any fun dependency => dependency.status = .done

/-- `isDispatchable` of a type. -/
def isDispatchable (type : WorkItemType) (hasChildren : Bool) : Bool := type ≠ .epic && !hasChildren

def isContainerCandidate (item : WorkItem) (childrenParentIds : List String) : Bool :=
  !isDispatchable item.type (item.id ∈ childrenParentIds)

/-- `readRefinementRoutingMeta(metadata).hasClearedRefinementOnce`. -/
def hasClearedRefinementOnce (metadata : Option Json) : Bool :=
  match OrderedMap.get? (recordFields (OrderedMap.get? (recordFields metadata) "refinement"))
      "hasClearedRefinementOnce" with
  | some (.bool cleared) => cleared
  | _ => false

def shouldGateDispatchToRefinement (hasClearedRefinementOnce preflightRequired : Bool) : Bool :=
  preflightRequired && !hasClearedRefinementOnce

def isOrphanedInProgressItem (item : WorkItem) : Bool :=
  item.status = .inProgress && !isTruthyText item.linked_run_id &&
    !isTruthyText item.current_execution_id

/-! ## Options and results -/

/-- Which optional dependencies the core was given. -/
structure DispatchCoreDeps where
  workItemService : Bool := true
  resolveMaxActivePerProject : Bool := false
  projects : Bool := true

inductive SkipReason where
  | dependenciesNotReady
  | agentCapacityReached
  | coreStatusUnavailable
  | notDispatchableStatus
  | containerNotDispatchable
  | workItemNotFound
  | workItemCrossProject
  | targetBranchAlreadyDispatched
  | concurrencyExceeded
  | dispatchSlotLimitReached
  | projectWipLimitReached
  | dispatchFailed
  | targetFilesContentionDetected
  | refinementRequired
  deriving DecidableEq, Repr

/-- `DispatchCoreOptions`; numbers that are `none` are `undefined`. -/
structure DispatchCoreOptions where
  projectId : String
  workflowId : String
  selectedWorkItemIds : Option (List String) := none
  reconcileRunStatus : Option Bool := none
  reconcileOrphans : Option Bool := none
  checkTargetFileContention : Option Bool := none
  partialFailure : Bool := false
  limit : Option Int := none
  slots : Option Int := none
  capacitySkipReason : Option SkipReason := none
  maxConcurrentPerAgent : Option Int := none
  maxActivePerProject : Option Int := none
  releaseBranchOnFailure : Bool := true
  preflightRequired : Bool := false

structure DispatchedEntry where
  workItemId : String
  runId : String
  linkedRunId : String
  currentExecutionId : Option String
  status : WorkItemStatus
  idempotent : Bool
  deriving DecidableEq, Repr

structure SkippedEntry where
  workItemId : String
  reason : SkipReason
  status : Option WorkItemStatus := none
  detail : Option String := none
  deriving DecidableEq, Repr

structure ReconciledEntry where
  workItemId : String
  runId : String
  status : WorkflowStatus
  deriving DecidableEq, Repr

structure DispatchResult where
  dispatched : List DispatchedEntry := []
  skipped : List SkippedEntry := []
  reconciled : List ReconciledEntry := []
  /-- The ids of the orphans that were reset from `in-progress`. -/
  orphanReconciled : List String := []
  deriving DecidableEq, Repr

def DispatchResult.skip (result : DispatchResult) (entry : SkippedEntry) : DispatchResult :=
  { result with skipped := result.skipped ++ [entry] }

def DispatchResult.dispatch (result : DispatchResult) (entry : DispatchedEntry) : DispatchResult :=
  { result with dispatched := result.dispatched ++ [entry] }

end Nexus
