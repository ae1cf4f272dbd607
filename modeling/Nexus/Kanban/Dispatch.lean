import Nexus.Kanban.DispatchRules

/-!
# The dispatch core

`dispatchWorkItems`: the context that a pass prepares (its reads, the reconciliation of ended runs
and of orphaned items), and the loop over the candidates. What the source keeps in mutable maps and
counters is threaded through; the items a pass has read are copies, which the loop does not refresh.
-/

set_option autoImplicit false

namespace Nexus

/-! ## Links -/

/-- `linkAcceptedRun`. -/
def linkAcceptedRun (item : WorkItem) (runId : String) : BoardProg WorkItem := do
  if !(← awaitBoard (.linkRunIfUnlinked item.project_id item.id runId)) then
    .fail (.error s!"Work item {item.id} is already linked to a workflow run")
  else
    match ← awaitBoard (.save { item with
        status := .inProgress
        linked_run_id := some runId
        current_execution_id := some runId }.columns) with
    | some saved =>
        if saved.linked_run_id ≠ some runId ∨ saved.current_execution_id ≠ some runId ∨
            saved.status ≠ .inProgress then
          .fail (.error s!"Dispatch mutation was not confirmed for work item {item.id}")
        else
          pure saved
    | none => .fail (.error s!"Dispatch mutation was not confirmed for work item {item.id}")

/-! ## Reconciliation -/

/-- What a reconciliation has read and found: the copies of the items, and the result. -/
structure Reconciliation where
  projectItems : List WorkItem
  requestedById : OrderedMap String WorkItem := []
  result : DispatchResult := {}

/-- The copy of an item and the result after `clearTerminalLinkedRun`, and whether it cleared. -/
structure ClearedRun where
  item : WorkItem
  result : DispatchResult
  cleared : Bool

def clearTerminalLinkedRun (deps : DispatchCoreDeps) (item : WorkItem) (result : DispatchResult)
    (pushCoreStatusUnavailableSkip : Bool) : BoardProg ClearedRun :=
  match item.linked_run_id with
  | none => pure ⟨item, result, false⟩
  | some runId => do
      if runId = "" then
        pure ⟨item, result, false⟩
      else
        match ← tryBoard (.getWorkflowRunStatus runId) with
        | .error message =>
            if pushCoreStatusUnavailableSkip then
              pure ⟨item, result.skip
                { workItemId := item.id, reason := .coreStatusUnavailable, detail := some message },
                false⟩
            else
              pure ⟨item, result, false⟩
        | .ok report =>
            if !report.status.isTerminal then
              pure ⟨item, result, false⟩
            else if !(← awaitBoard (.clearRunLinksIfMatches item.project_id item.id runId)) then
              pure ⟨item, result, false⟩
            else
              let reconciled : DispatchResult :=
                { result with reconciled := result.reconciled ++ [⟨item.id, runId, report.status⟩] }
              if item.status = .inProgress ∧ report.status = .failed ∧
                  report.current_step_id = some "provision_worktree" ∧
                  deps.workItemService = true then
                updateStatus item.project_id item.id .todo
                pure ⟨{ item.withLinks none with status := .todo }, reconciled, true⟩
              else
                pure ⟨item.withLinks none, reconciled, true⟩

def reconcileAllLinkedRuns (deps : DispatchCoreDeps) (pushCoreStatusUnavailableSkip : Bool) :
    List WorkItem → DispatchResult → BoardProg (List WorkItem × DispatchResult)
  | [], result => pure ([], result)
  | item :: items, result => do
      let cleared ← clearTerminalLinkedRun deps item result pushCoreStatusUnavailableSkip
      let (rest, result) ← reconcileAllLinkedRuns deps pushCoreStatusUnavailableSkip items
        cleared.result
      pure (cleared.item :: rest, result)

/-- `ReconcileScope`. -/
structure ReconcileScope where
  selectedIds : List String
  selectedAgentIds : List String
  selectedTargetBranches : List String

def buildReconcileScope (requestedItems : List WorkItem) (options : DispatchCoreOptions) :
    ReconcileScope :=
  match options.selectedWorkItemIds with
  | none => ⟨[], [], []⟩
  | some selectedIds =>
      let projectItems := requestedItems.filter fun item => item.project_id = options.projectId
      ⟨selectedIds, projectItems.filterMap WorkItem.assigned_agent_id,
        projectItems.filterMap getTargetBranch⟩

def ReconcileScope.covers (scope : ReconcileScope) (item : WorkItem) : Bool :=
  item.id ∈ scope.selectedIds ||
    ((assignedAgent? item).any fun agentId => agentId ∈ scope.selectedAgentIds) ||
    ((getTargetBranch item).any fun branch => branch ∈ scope.selectedTargetBranches)

/-- The requested copy of an item loses its links. -/
def clearRequested (requestedById : OrderedMap String WorkItem) (id : String) :
    OrderedMap String WorkItem :=
  match OrderedMap.get? requestedById id with
  | none => requestedById
  | some requested => OrderedMap.set requestedById id (requested.withLinks none)

def reconcileSelectedScope (deps : DispatchCoreDeps) (scope : ReconcileScope) :
    List WorkItem → OrderedMap String WorkItem → DispatchResult →
      BoardProg (List WorkItem × OrderedMap String WorkItem × DispatchResult)
  | [], requestedById, result => pure ([], requestedById, result)
  | item :: items, requestedById, result => do
      if !isTruthyText item.linked_run_id || !scope.covers item then
        let (rest, requestedById, result) ← reconcileSelectedScope deps scope items requestedById
          result
        pure (item :: rest, requestedById, result)
      else
        let cleared ← clearTerminalLinkedRun deps item result false
        let requestedById :=
          if cleared.cleared then clearRequested requestedById item.id else requestedById
        let (rest, requestedById, result) ← reconcileSelectedScope deps scope items requestedById
          cleared.result
        pure (cleared.item :: rest, requestedById, result)

/-- The reset of one item by `reconcileOrphans`; a failed one is logged and the item left alone. -/
def resetOrphan (deps : DispatchCoreDeps) (item : WorkItem) (result : DispatchResult) :
    BoardProg (WorkItem × DispatchResult) :=
  if deps.workItemService && isOrphanedInProgressItem item then
    Prog.handle
      (do
        updateStatus item.project_id item.id .todo
        pure ({ item with status := .todo },
          { result with orphanReconciled := result.orphanReconciled ++ [item.id] }))
      fun _ => pure (item, result)
  else
    pure (item, result)

def reconcileOrphans (deps : DispatchCoreDeps) :
    List WorkItem → DispatchResult → BoardProg (List WorkItem × DispatchResult)
  | [], result => pure ([], result)
  | item :: items, result => do
      let (item, result) ← resetOrphan deps item result
      let (rest, result) ← reconcileOrphans deps items result
      pure (item :: rest, result)

/-- `new Map(items.map((item) => [item.id, item]))`. -/
def mapById (items : List WorkItem) : OrderedMap String WorkItem :=
  items.foldl (fun byId item => OrderedMap.set byId item.id item) []

/-- `refreshRequestedItems`; a failed read leaves the copies as they are. -/
def refreshRequestedItems (selectedWorkItemIds : List String)
    (requestedById : OrderedMap String WorkItem) : BoardProg (OrderedMap String WorkItem) :=
  Prog.handle
    (do pure (mapById (← KanbanWorkItemRepository.findByIds selectedWorkItemIds)))
    fun _ => pure requestedById

/-! ## The context of a pass -/

structure DispatchContext where
  options : DispatchCoreOptions
  deps : DispatchCoreDeps
  result : DispatchResult
  childrenParentIds : List String
  dependencyIdsByItem : OrderedMap String (List String)
  itemById : OrderedMap String WorkItem
  activeByAgent : OrderedMap String Nat
  claimedTargetBranches : List String
  inFlightItems : List WorkItem
  initialProjectActiveCount : Nat
  maxActivePerProject : Option Int
  requestedById : OrderedMap String WorkItem
  candidateIds : List String
  launchedCount : Nat := 0
  acceptedProjectLaunches : Nat := 0

namespace DispatchCoreOptions

def selectedMode (options : DispatchCoreOptions) : Bool := options.selectedWorkItemIds.isSome

/-- `options.limit ?? options.slots ?? Infinity`. -/
def maxItems (options : DispatchCoreOptions) : Option Int := options.limit <|> options.slots

def targetBranchCheck (options : DispatchCoreOptions) : Bool :=
  options.checkTargetFileContention.getD !options.selectedMode

end DispatchCoreOptions

/-- The items that are in flight before the loop. -/
def isInFlight (item : WorkItem) : Bool :=
  item.linked_run_id ≠ none || item.status = .inProgress || item.status = .inReview

def buildCandidateList (options : DispatchCoreOptions) (projectItems : List WorkItem) :
    List String :=
  options.selectedWorkItemIds.getD (projectItems.map WorkItem.id)

def resolveMaxActivePerProject (deps : DispatchCoreDeps) (override : Option Int) :
    BoardProg (Option Int) := do
  match override with
  | some maxActive => pure (some maxActive)
  | none =>
      if deps.resolveMaxActivePerProject then
        pure (some (← awaitBoard .maxActivePerProject))
      else
        pure none

/-- `loadProjectRuntimeToolchains`, a read of the project. -/
def loadProjectRuntimeToolchains (deps : DispatchCoreDeps) : BoardProg Unit :=
  if deps.projects then awaitBoard .other else pure ()

def loadRequestedItems (options : DispatchCoreOptions) : BoardProg (List WorkItem) :=
  match options.selectedWorkItemIds with
  | none => pure []
  | some ids => KanbanWorkItemRepository.findByIds ids

/-- `reconcileStaleRuns`. -/
def reconcileStaleRuns (deps : DispatchCoreDeps) (options : DispatchCoreOptions)
    (requestedItems : List WorkItem) (r : Reconciliation) : BoardProg Reconciliation := do
  if options.selectedMode then
    let (projectItems, requestedById, result) ← reconcileSelectedScope deps
      (buildReconcileScope requestedItems options) r.projectItems r.requestedById r.result
    pure ⟨projectItems, requestedById, result⟩
  else
    let (projectItems, result) ← reconcileAllLinkedRuns deps true r.projectItems r.result
    pure { r with projectItems := projectItems, result := result }

/-- The context of what has been read and reconciled. -/
def initialContext (deps : DispatchCoreDeps) (options : DispatchCoreOptions)
    (maxActivePerProject : Option Int) (dependencies : List DependencyRecord)
    (r : Reconciliation) : DispatchContext where
  options := options
  deps := deps
  result := r.result
  childrenParentIds := r.projectItems.filterMap WorkItem.parent_work_item_id
  dependencyIdsByItem := groupDependencyIds dependencies
  itemById := mapById r.projectItems
  activeByAgent := countActiveLinkedByAgent r.projectItems
  claimedTargetBranches := collectActiveTargetBranches r.projectItems
  inFlightItems := r.projectItems.filter isInFlight
  initialProjectActiveCount := countActiveProjectDispatches r.projectItems
  maxActivePerProject := maxActivePerProject
  requestedById := r.requestedById
  candidateIds := buildCandidateList options r.projectItems

/-- The stale runs are reconciled when the options or the mode ask for it. -/
def reconcileRunStatus (deps : DispatchCoreDeps) (options : DispatchCoreOptions)
    (requestedItems : List WorkItem) (r : Reconciliation) : BoardProg Reconciliation :=
  if options.reconcileRunStatus.getD options.selectedMode then
    reconcileStaleRuns deps options requestedItems r
  else
    pure r

/-- The orphans are reconciled when the options or the mode ask for it. -/
def reconcileOrphanStatus (deps : DispatchCoreDeps) (options : DispatchCoreOptions)
    (r : Reconciliation) : BoardProg Reconciliation :=
  if options.reconcileOrphans.getD !options.selectedMode then do
    let (projectItems, result) ← reconcileOrphans deps r.projectItems r.result
    pure { r with projectItems := projectItems, result := result }
  else
    pure r

/-- In the selected mode the requested items are read again. -/
def refreshRequested (options : DispatchCoreOptions) (r : Reconciliation) :
    BoardProg Reconciliation :=
  match options.selectedWorkItemIds with
  | none => pure r
  | some ids => do
      let requestedById ← refreshRequestedItems ids r.requestedById
      pure { r with requestedById := requestedById }

/-- The reads and the reconciliation of `prepareDispatchContext`. -/
def readAndReconcile (deps : DispatchCoreDeps) (options : DispatchCoreOptions) :
    BoardProg (List DependencyRecord × Reconciliation) := do
  let projectItems ← awaitBoard (.findByProjectId options.projectId)
  let dependencies ← KanbanWorkItemRepository.findDependenciesByWorkItemIds
    (projectItems.map WorkItem.id)
  let requestedItems ← loadRequestedItems options
  let r ← reconcileRunStatus deps options requestedItems
    { projectItems, requestedById := mapById requestedItems }
  let r ← reconcileOrphanStatus deps options r
  let r ← refreshRequested options r
  pure (dependencies, r)

def prepareDispatchContext (deps : DispatchCoreDeps) (options : DispatchCoreOptions) :
    BoardProg DispatchContext := do
  let maxActivePerProject ← resolveMaxActivePerProject deps options.maxActivePerProject
  loadProjectRuntimeToolchains deps
  let (dependencies, r) ← readAndReconcile deps options
  pure (initialContext deps options maxActivePerProject dependencies r)

/-! ## The loop -/

namespace DispatchContext

def skip (ctx : DispatchContext) (entry : SkippedEntry) : DispatchContext :=
  { ctx with result := ctx.result.skip entry }

/-- The candidate's copy, or the context with the skip of an id that has none. -/
def resolveCandidate (ctx : DispatchContext) (workItemId : String) :
    Except DispatchContext WorkItem :=
  if !ctx.options.selectedMode then
    match OrderedMap.get? ctx.itemById workItemId with
    | some item => .ok item
    | none => .error ctx
  else
    match OrderedMap.get? ctx.requestedById workItemId with
    | none => .error (ctx.skip { workItemId, reason := .workItemNotFound })
    | some requested =>
        if requested.project_id ≠ ctx.options.projectId then
          .error (ctx.skip { workItemId, reason := .workItemCrossProject })
        else .ok requested

/-- `wasCoreStatusUnavailable`. -/
def wasCoreStatusUnavailable (ctx : DispatchContext) (item : WorkItem) : Bool :=
  ctx.result.skipped.any fun entry =>
    entry.workItemId = item.id && entry.reason = .coreStatusUnavailable

/-- The entry of an item that already carries a linked run. -/
def alreadyLinked (item : WorkItem) (runId : String) : DispatchedEntry where
  workItemId := item.id
  runId := runId
  linkedRunId := runId
  currentExecutionId := item.current_execution_id
  status := item.status
  idempotent := true

def resolveCapacitySkipReason (options : DispatchCoreOptions) : SkipReason :=
  options.capacitySkipReason.getD
    (if options.selectedMode then .concurrencyExceeded else .agentCapacityReached)

/-- `launchedCount >= maxItems`. -/
def limitReached (ctx : DispatchContext) : Bool :=
  ctx.options.maxItems.any fun maxItems => decide (maxItems ≤ (ctx.launchedCount : Int))

/-- The context with the skip of a candidate that does not pass `runPreFlight`, or `none`. -/
def runPreFlight (ctx : DispatchContext) (item : WorkItem) : Option DispatchContext :=
  if ctx.limitReached then
    if ctx.options.selectedMode then
      some (ctx.skip { workItemId := item.id, reason := .dispatchSlotLimitReached })
    else some ctx
  else if !canLaunchNewWork ctx.initialProjectActiveCount ctx.maxActivePerProject
      ctx.acceptedProjectLaunches then
    some (ctx.skip { workItemId := item.id, reason := .projectWipLimitReached })
  else if !dependenciesReady item ctx.dependencyIdsByItem ctx.itemById then
    some (ctx.skip { workItemId := item.id, reason := .dependenciesNotReady })
  else if agentCapacityReached ctx.options.maxConcurrentPerAgent item ctx.activeByAgent then
    some (ctx.skip { workItemId := item.id, reason := resolveCapacitySkipReason ctx.options })
  else none

/-- The claim of the item's target branch. -/
def claimBranch (ctx : DispatchContext) (item : WorkItem) : Except DispatchContext DispatchContext :=
  match getTargetBranch item with
  | none => .ok ctx
  | some branch =>
      if branch ∈ ctx.claimedTargetBranches then
        .error (ctx.skip
          { workItemId := item.id, reason := .targetBranchAlreadyDispatched, detail := some branch })
      else .ok { ctx with claimedTargetBranches := branch :: ctx.claimedTargetBranches }

/-- `claimDispatchSlot`: the planned files, and then the target branch. -/
def claimDispatchSlot (ctx : DispatchContext) (item : WorkItem) :
    Except DispatchContext DispatchContext :=
  match findTargetFileContention item ctx.inFlightItems with
  | some contendingId =>
      .error (ctx.skip
        { workItemId := item.id
          reason := .targetFilesContentionDetected
          detail := some s!"Overlaps in-flight item {contendingId}" })
  | none => ctx.claimBranch item

def claimOrSkipBranch (ctx : DispatchContext) (item : WorkItem) :
    Except DispatchContext DispatchContext :=
  if ctx.options.targetBranchCheck then ctx.claimDispatchSlot item else ctx.claimBranch item

/-- The target branch of a failed launch is given back. -/
def releaseBranch (ctx : DispatchContext) (item : WorkItem) : DispatchContext :=
  match getTargetBranch item with
  | none => ctx
  | some branch =>
      if ctx.options.releaseBranchOnFailure then
        { ctx with claimedTargetBranches := ctx.claimedTargetBranches.filter (· ≠ branch) }
      else ctx

/-- The counters after an accepted launch. -/
def countLaunch (ctx : DispatchContext) : DispatchContext :=
  { ctx with
    launchedCount := ctx.launchedCount + 1
    acceptedProjectLaunches := ctx.acceptedProjectLaunches + 1 }

end DispatchContext

/-- The outcomes of `launchWithFailureMode` that do not throw. -/
inductive LaunchOutcome where
  | launched (ctx : DispatchContext)
  | claimedButFailed (detail : String)
  | skipped (ctx : DispatchContext) (detail : String)

namespace DispatchContext

/-- `buildRunRequest` for a candidate. -/
def runRequest (ctx : DispatchContext) (item : WorkItem) : WorkflowRunRequest where
  projectId := ctx.options.projectId
  workflowId := ctx.options.workflowId
  item := item
  dependencyIds := (OrderedMap.get? ctx.dependencyIdsByItem item.id).getD []

/-- `launchCandidate`; an error of the link is wrapped. -/
def launchCandidate (ctx : DispatchContext) (item : WorkItem) : BoardProg DispatchContext := do
  let runId ← awaitBoard (.requestWorkflowRun (ctx.runRequest item))
  let saved ← Prog.handle (linkAcceptedRun item runId)
    fun error => .fail (.acceptedRunLinkError error.message)
  pure { ctx with
    activeByAgent := incrementActiveAgentCount item ctx.activeByAgent
    result := ctx.result.dispatch
      { workItemId := item.id
        runId := runId
        linkedRunId := saved.linked_run_id.getD runId
        currentExecutionId := saved.current_execution_id
        status := saved.status
        idempotent := false } }

/-- `isAcceptedRunLinkError`. -/
def isAcceptedRunLinkError : BoardError → Bool
  | .acceptedRunLinkError message => message ≠ ""
  | .error _ => false

def launchWithFailureMode (ctx : DispatchContext) (item : WorkItem) : BoardProg LaunchOutcome :=
  if !ctx.options.partialFailure then do
    pure (.launched (← ctx.launchCandidate item))
  else
    Prog.handle (do pure (.launched (← ctx.launchCandidate item))) fun error =>
      if isAcceptedRunLinkError error then pure (.claimedButFailed error.message)
      else pure (.skipped (ctx.releaseBranch item) error.message)

/-- The context after a launch. -/
def afterLaunch (ctx : DispatchContext) (item : WorkItem) : LaunchOutcome → DispatchContext
  | .launched ctx => ctx.countLaunch
  | .claimedButFailed detail =>
      { ctx.countLaunch with
        activeByAgent := incrementActiveAgentCount item ctx.activeByAgent }.skip
        { workItemId := item.id, reason := .dispatchFailed, detail := some detail }
  | .skipped ctx detail =>
      ctx.skip { workItemId := item.id, reason := .dispatchFailed, detail := some detail }

/-- `applyRefinementGate`: whether the gate fires for the item. -/
def refinementGateFires (ctx : DispatchContext) (item : WorkItem) : Bool :=
  ctx.deps.workItemService &&
    shouldGateDispatchToRefinement (hasClearedRefinementOnce item.metadata)
      ctx.options.preflightRequired

/-- The rest of `processCandidate`, for a candidate that the gate lets pass. -/
def dispatchCandidate (ctx : DispatchContext) (item : WorkItem) : BoardProg DispatchContext :=
  match ctx.runPreFlight item with
  | some skipped => pure skipped
  | none =>
      match ctx.claimOrSkipBranch item with
      | .error skipped => pure skipped
      | .ok claimed => do
          let outcome ← claimed.launchWithFailureMode item
          pure (claimed.afterLaunch item outcome)

def processCandidate (ctx : DispatchContext) (workItemId : String) : BoardProg DispatchContext :=
  match ctx.resolveCandidate workItemId with
  | .error skipped => pure skipped
  | .ok item =>
      if ctx.wasCoreStatusUnavailable item then
        pure ctx
      else if isTruthyText item.linked_run_id then
        pure { ctx with
          result := ctx.result.dispatch (alreadyLinked item (item.linked_run_id.getD "")) }
      else if item.status ≠ .todo then
        pure (ctx.skip
          { workItemId := item.id, reason := .notDispatchableStatus, status := some item.status })
      else if isContainerCandidate item ctx.childrenParentIds then
        pure (ctx.skip
          { workItemId := item.id
            reason := .containerNotDispatchable
            status := some item.status })
      else if ctx.refinementGateFires item then do
        updateStatus item.project_id item.id .refinement
        pure (ctx.skip { workItemId := item.id, reason := .refinementRequired })
      else
        ctx.dispatchCandidate item

/-- The loop over the candidates. -/
def processCandidates (ctx : DispatchContext) : List String → BoardProg DispatchContext
  | [] => pure ctx
  | workItemId :: ids => do
      let ctx ← ctx.processCandidate workItemId
      processCandidates ctx ids

end DispatchContext

def dispatchWorkItems (deps : DispatchCoreDeps) (options : DispatchCoreOptions) :
    BoardProg DispatchResult := do
  let ctx ← prepareDispatchContext deps options
  let ctx ← ctx.processCandidates ctx.candidateIds
  pure ctx.result

end Nexus
