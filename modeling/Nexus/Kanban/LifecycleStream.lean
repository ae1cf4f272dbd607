import Nexus.Kanban.ConflictKeys
import Nexus.Kanban.LinkWriters
import Nexus.Kanban.WorkItemService
import Mathlib

/-!
# The lifecycle stream of Core

`CoreLifecycleStreamConsumerService`: the entries of `stream:core:lifecycle` after the stored cursor
are handled one after the other, an entry whose handling throws is kept as a dead letter, and
`replayDeadLetters` appends the kept entries to the stream again. The handling of a run event
records the projection of the run, links the work item, and, once the run has ended, adds the usage
of the run to the work item. Every awaited statement is one atomic step and may throw instead.

The ids of the stream are its positions. What `JSON.parse` and the schema of the envelopes make of a
text is a parameter. Leases, orchestrations, facts and wakeups are other tables: a statement on them
has an answer and no effect on the store.
-/

set_option autoImplicit false

namespace Nexus

/-! ## Events -/

/-- `ExecutionContextSchema`, as far as the consumer reads it. -/
structure RunContext where
  scopeId : Option String := none
  contextId : Option String := none
  metadata : Option (OrderedMap String Json) := none

/-- `CoreWorkflowRunUsageV1Schema`. -/
structure RunUsage where
  total_tokens : Option Nat := none
  input_tokens : Option Nat := none
  output_tokens : Option Nat := none
  estimated_cost_cents : Option Nat := none
  priced_turn_count : Option Nat := none
  model_breakdown : Option (List Json) := none

inductive RunEventType where
  | requested
  | accepted
  | statusChanged
  | completed
  deriving DecidableEq, Repr

/-- `CoreWorkflowRunEventEnvelopeV1Schema`; `occurred_at` in milliseconds, as `Date.parse` reads
it. -/
structure RunEvent where
  event_id : String
  event_type : RunEventType := .statusChanged
  occurred_at : Int
  correlation_id : String := "correlation"
  run_id : String
  workflow_id : String
  status : String
  context : Option RunContext := none
  usage : Option RunUsage := none

/-- `CoreWorkflowEventEnvelopeV1Schema`; nothing reads the envelope of a step. -/
inductive CoreWorkflowEvent where
  | run (event : RunEvent)
  | step

inductive TerminalWorkflowStatus where
  | completed
  | failed
  | cancelled
  deriving DecidableEq, Repr

inductive TerminalWorkItemRunKind where
  | other
  | completedWorkItem
  | failedWorkItem
  deriving DecidableEq, Repr

def readWorkItemId (metadata : Option (OrderedMap String Json)) : Option String :=
  match metadata.bind (OrderedMap.get? · "work_item_id") with
  | some (.str id) => some id
  | _ =>
      match metadata.bind (OrderedMap.get? · "workItemId") with
      | some (.str id) => some id
      | _ => none

def resolveProjectIdFromContext (context : Option RunContext) : Option String :=
  context.bind fun c => c.scopeId <|> c.contextId

def resolveWorkItemIdFromContext (context : Option RunContext) : Option String :=
  (readWorkItemId (context.bind RunContext.metadata)).filter (· ≠ "") <|>
    (context.bind RunContext.contextId).filter fun id =>
      id ≠ "" && some id ≠ resolveProjectIdFromContext context

def toTerminalWorkflowStatus (status : String) : Option TerminalWorkflowStatus :=
  if status = "COMPLETED" then some .completed
  else if status = "FAILED" then some .failed
  else if status = "CANCELLED" then some .cancelled
  else none

def classifyTerminalWorkItemRun (terminalStatus : TerminalWorkflowStatus)
    (workItemId : Option String) : TerminalWorkItemRunKind :=
  if !workItemId.any isRealWorkItemId then .other
  else if terminalStatus = .completed then .completedWorkItem
  else .failedWorkItem

def shouldStopAfterStaleLink (kind : TerminalWorkItemRunKind) (staleLinkCleared : Option Bool) :
    Bool :=
  kind = .other && staleLinkCleared = some false

def resolveContinuationTrigger (terminalStatus : TerminalWorkflowStatus)
    (kind : TerminalWorkItemRunKind) : String :=
  if kind = .completedWorkItem then "work_item_completed"
  else if terminalStatus = .completed then "workflow_completed"
  else "workflow_failed"

def readUsageTotalTokens (event : RunEvent) : Nat :=
  (event.usage.bind RunUsage.total_tokens).getD 0

def readUsageEstimatedCostCents (event : RunEvent) : Nat :=
  (event.usage.bind RunUsage.estimated_cost_cents).getD 0

namespace RunEvent

def terminalStatus (event : RunEvent) : Option TerminalWorkflowStatus :=
  toTerminalWorkflowStatus event.status

/-- The project that the context names, unless its id is empty. -/
def contextProject (event : RunEvent) : Option String :=
  (resolveProjectIdFromContext event.context).filter (· ≠ "")

/-- The work item that the context names, when it is a real one. -/
def realWorkItem (event : RunEvent) : Option String :=
  (resolveWorkItemIdFromContext event.context).filter isRealWorkItemId

end RunEvent

/-! ## The wake policy -/

inductive WakePolicy where
  | slotFreed
  | everyTerminal
  deriving DecidableEq, Repr

def shouldWakeForTerminalRun (policy : WakePolicy) (kind : TerminalWorkItemRunKind)
    (itemStillActive : Bool) : Bool :=
  if policy = .everyTerminal then true
  else if kind = .other then true
  else !itemStillActive

/-! ## Rows -/

/-- A record of texts: the fields of a stream entry, and the payload of a dead letter. -/
abbrev Fields := OrderedMap String String

/-- The raw fields of an entry, each with its value. -/
abbrev RawFields := List (String × String)

def toFields (rawFields : RawFields) : Fields :=
  rawFields.foldl (fun fields field => OrderedMap.set fields field.1 field.2) []

structure RedisStreamEntry where
  id : Nat
  rawFields : RawFields

/-- A row of `kanban_core_lifecycle_dead_letters`. -/
structure DeadLetterRow where
  id : Nat
  stream_id : Nat
  reason : String
  payload : Option Fields

/-- A row of `kanban_core_run_projections`. -/
structure RunProjectionRow where
  run_id : String
  workflow_id : String
  status : String
  project_id : Option String
  work_item_id : Option String
  occurred_at : Int
  last_event_id : String
  last_event_type : RunEventType

/-- `RecordRunCostAttemptInput`, whose two times are always null. -/
structure RunCostAttempt where
  work_item_id : String
  run_id : String
  workflow_id : String
  type : WorkItemType
  story_points : Option Int
  priority : String
  model_breakdown : List Json
  total_input_tokens : Nat
  total_output_tokens : Nat
  total_cost_cents : Nat
  priced_turn_count : Nat

/-- A row of `kanban_work_item_run_costs`. -/
structure WorkItemRunCostRow extends RunCostAttempt where
  attempt_number : Nat
  is_retry : Bool

inductive FailureClass where
  | qaRejection
  | systemFailure
  deriving DecidableEq, Repr

/-! ## Statements -/

inductive LifecycleOp where
  | getCursor
  | saveCursor (streamId : Nat)
  /-- `XRANGE`, from after an entry or from the first one. -/
  | xrange (after : Option Nat)
  | xadd (rawFields : RawFields)
  | saveDeadLetter (streamId : Nat) (reason : String) (payload : Fields)
  | listDeadLetters
  | deleteDeadLetter (id : Nat)
  | countRecent
  | findProjection (runId : String)
  | saveProjection (row : RunProjectionRow)
  | findByProjectAndId (projectId workItemId : String)
  | linkRunIfUnlinked (projectId workItemId runId : String)
  | clearRunLinksIfMatches (projectId workItemId runId lastExecutionStatus : String)
  | recordExecutionStatus (projectId workItemId runId status : String)
  | addTokenSpend (projectId workItemId : String) (amount : Nat)
  | addCostSpend (projectId workItemId : String) (amountCents : Nat)
  | findRunCost (runId : String)
  | countRunCosts (workItemId : String)
  | saveRunCost (row : WorkItemRunCostRow)
  /-- The dependencies and the subtasks of a broadcast item. -/
  | readRelations (workItemId : String)
  | acquireRunLease (projectId workItemId ownerId : String)
  | releaseRunLease (projectId ownerId : String)
  | heartbeatCycleLease (projectId : String)
  | releaseCycleLease (projectId : String)
  | enqueueCharter (projectId : String)
  | findByLinkedWorkflowRun (runId : String)
  | reconcileLinkedWorkflowRun (projectId runId : String) (status : TerminalWorkflowStatus)
  | recordFailedWorkItemRun (projectId runId workItemId : String)
      (status : TerminalWorkflowStatus) (failureClass : FailureClass)
  | resolveWakePolicy (projectId : String)
  | requestWakeup (projectId reason : String)
  /-- `CoreIntegrationEventRouter.route`. -/
  | route (eventType envelope : Option String)

abbrev LifecycleOp.Value : LifecycleOp → Type
  | .getCursor => Option Nat
  | .xrange _ => List RedisStreamEntry
  | .listDeadLetters => List DeadLetterRow
  | .countRecent => Nat
  | .findProjection _ => Option RunProjectionRow
  | .findByProjectAndId _ _ => Option KanbanWorkItemEntity
  | .linkRunIfUnlinked _ _ _ => Bool
  | .clearRunLinksIfMatches _ _ _ _ => Bool
  | .recordExecutionStatus _ _ _ _ => Bool
  | .addTokenSpend _ _ _ => Bool
  | .addCostSpend _ _ _ => Bool
  | .findRunCost _ => Option WorkItemRunCostRow
  | .countRunCosts _ => Nat
  | .acquireRunLease _ _ _ => Bool
  | .findByLinkedWorkflowRun _ => Option String
  | .reconcileLinkedWorkflowRun _ _ _ => Bool
  | .resolveWakePolicy _ => WakePolicy
  | _ => Unit

/-- The value of a statement, or the message of what it throws. -/
abbrev LifecycleOp.Ans (o : LifecycleOp) : Type := Except String o.Value

/-- What the outside does at a statement. -/
structure LifecycleOutcome where
  /-- The message the statement throws. -/
  error : Option String := none
  acquired : Bool := true
  /-- The project of the orchestration that a run is linked to. -/
  orchestration : Option String := none
  cleared : Bool := false
  policy : WakePolicy := .slotFreed

structure LifecycleStore where
  stream : List RawFields := []
  cursor : Option Nat := none
  deadLetters : List DeadLetterRow := []
  /-- The number of dead letters saved so far. -/
  parked : Nat := 0
  projections : List RunProjectionRow := []
  items : List KanbanWorkItemEntity := []
  runCosts : List WorkItemRunCostRow := []
  /-- The statements that have had an effect since a cursor was last saved or a dead letter last
  deleted, the last one first. -/
  recent : List LifecycleOp := []
  outcomes : Nat → LifecycleOutcome := fun _ => {}
  issued : Nat := 0

namespace LifecycleStore

/-- What the outside does at the next statement. -/
def outcome (db : LifecycleStore) : LifecycleOutcome := db.outcomes db.issued

/-- The outcome of the next statement is used up. -/
def tick (db : LifecycleStore) : LifecycleStore := { db with issued := db.issued + 1 }

/-- An update of the work items with a property. -/
def updateItems (db : LifecycleStore) (p : KanbanWorkItemEntity → Bool)
    (f : KanbanWorkItemEntity → KanbanWorkItemEntity) : LifecycleStore :=
  { db with items := db.items.map fun row => if p row then f row else row }

/-- The entries after a cursor, with their positions. -/
def entriesAfter (db : LifecycleStore) (after : Option Nat) : List RedisStreamEntry :=
  (db.stream.zipIdx.drop (after.elim 0 (· + 1))).map fun entry => ⟨entry.2, entry.1⟩

end LifecycleStore

namespace KanbanWorkItemEntity

/-- The row with both links written. -/
def withRun (row : KanbanWorkItemEntity) (link : Option String) : KanbanWorkItemEntity :=
  { row with linked_run_id := link, current_execution_id := link }

/-- The condition of `recordExecutionStatus`. -/
def runs (projectId workItemId runId : String) (row : KanbanWorkItemEntity) : Bool :=
  row.isRow projectId workItemId &&
    (row.current_execution_id = some runId || row.linked_run_id = some runId)

end KanbanWorkItemEntity

/-- What a statement does when it does not throw. -/
def LifecycleOp.effect (db : LifecycleStore) : (o : LifecycleOp) → LifecycleStore × o.Value
  | .getCursor => (db, db.cursor)
  | .saveCursor streamId => ({ db with cursor := some streamId }, ())
  | .xrange after => (db, db.entriesAfter after)
  | .xadd rawFields => ({ db with stream := db.stream ++ [rawFields] }, ())
  | .saveDeadLetter streamId reason payload =>
      ({ db with
          deadLetters := db.deadLetters ++ [⟨db.parked, streamId, reason, some payload⟩]
          parked := db.parked + 1 }, ())
  -- The oldest rows, at most `DEFAULT_LIST_LIMIT` of them.
  | .listDeadLetters => (db, db.deadLetters.take 100)
  | .deleteDeadLetter id =>
      ({ db with deadLetters := db.deadLetters.filter fun row => row.id ≠ id }, ())
  | .countRecent => (db, db.deadLetters.length)
  | .findProjection runId => (db, db.projections.find? fun row => row.run_id = runId)
  | .saveProjection row =>
      ({ db with
          projections := row :: db.projections.filter fun stored => stored.run_id ≠ row.run_id },
        ())
  | .findByProjectAndId projectId workItemId =>
      (db, db.items.find? fun row => row.isRow projectId workItemId)
  | .linkRunIfUnlinked projectId workItemId runId =>
      (db.updateItems (fun row => row.isRow projectId workItemId && row.isUnlinked)
          (KanbanWorkItemEntity.withRun · (some runId)),
        db.items.any fun row => row.isRow projectId workItemId && row.isUnlinked)
  | .clearRunLinksIfMatches projectId workItemId runId lastExecutionStatus =>
      (db.updateItems (fun row => row.isLinkedTo projectId workItemId runId) fun row =>
          { row.withRun none with last_execution_status := some lastExecutionStatus },
        db.items.any fun row => row.isLinkedTo projectId workItemId runId)
  | .recordExecutionStatus projectId workItemId runId status =>
      (db.updateItems (KanbanWorkItemEntity.runs projectId workItemId runId) fun row =>
          { row with last_execution_status := some status },
        db.items.any (KanbanWorkItemEntity.runs projectId workItemId runId))
  -- The two additions return at once for an amount that is not positive; they get no such amount.
  | .addTokenSpend projectId workItemId amount =>
      (db.updateItems (fun row => row.isRow projectId workItemId) fun row =>
          { row with token_spend := row.token_spend + amount },
        db.items.any fun row => row.isRow projectId workItemId)
  | .addCostSpend projectId workItemId amountCents =>
      (db.updateItems (fun row => row.isRow projectId workItemId) fun row =>
          { row with cost_cents := row.cost_cents + amountCents },
        db.items.any fun row => row.isRow projectId workItemId)
  | .findRunCost runId => (db, db.runCosts.find? fun row => row.run_id = runId)
  | .countRunCosts workItemId =>
      (db, (db.runCosts.filter fun row => row.work_item_id = workItemId).length)
  | .saveRunCost row => ({ db with runCosts := db.runCosts ++ [row] }, ())
  | .acquireRunLease _ _ _ => (db, db.outcome.acquired)
  | .findByLinkedWorkflowRun _ => (db, db.outcome.orchestration)
  | .reconcileLinkedWorkflowRun _ _ _ => (db, db.outcome.cleared)
  | .resolveWakePolicy _ => (db, db.outcome.policy)
  | .readRelations _ => (db, ())
  | .releaseRunLease _ _ => (db, ())
  | .heartbeatCycleLease _ => (db, ())
  | .releaseCycleLease _ => (db, ())
  | .enqueueCharter _ => (db, ())
  | .recordFailedWorkItemRun _ _ _ _ _ => (db, ())
  | .requestWakeup _ _ => (db, ())
  | .route _ _ => (db, ())

/-- The recent statements after one more had its effect. -/
def LifecycleOp.recorded (o : LifecycleOp) (recent : List LifecycleOp) : List LifecycleOp :=
  match o with
  | .saveCursor _ => []
  | .deleteDeadLetter _ => []
  | o => o :: recent

def LifecycleOp.exec (db : LifecycleStore) (o : LifecycleOp) : LifecycleStore × o.Ans :=
  match db.outcome.error with
  | some message => (db.tick, .error message)
  | none =>
      ({ (o.effect db).1 with issued := db.issued + 1, recent := o.recorded db.recent },
        .ok (o.effect db).2)

abbrev LifecycleProg (α : Type) := Prog LifecycleOp LifecycleOp.Ans String α

/-- Awaits one statement in a `try` block. -/
def tryLifecycle (o : LifecycleOp) : LifecycleProg o.Ans := Prog.op o

/-- Awaits one statement; what it throws is thrown on. -/
def awaitLifecycle (o : LifecycleOp) : LifecycleProg o.Value := do
  match ← tryLifecycle o with
  | .ok value => pure value
  | .error message => .fail message

/-- What the texts of envelopes are read as: `JSON.parse` with the schema of the consumer, and the
proposal id that `extractProposalId` finds. -/
structure EnvelopeReader where
  parse : String → Except String CoreWorkflowEvent
  proposalId : String → Option String

/-! ## The projection of a run -/

namespace CoreRunProjectionService

/-- `resolveContextIds`: the project and the work item of a projection. -/
def resolveContextIds (context : Option RunContext) : Option String × Option String :=
  let projectId := context.bind fun c => c.scopeId <|> c.contextId
  let field (key : String) : Option Json :=
    match (context.bind RunContext.metadata).bind (OrderedMap.get? · key) with
    | some .null => none
    | value => value
  let fallbackWorkItemId := (context.bind RunContext.contextId).filter fun id =>
    id ≠ "" && some id ≠ projectId
  match field "workItemId" <|> field "work_item_id" with
  | some (.str id) => (projectId, some id)
  | _ => (projectId, fallbackWorkItemId)

def isStale (existing : Option RunProjectionRow) (occurredAt : Int) : Bool :=
  existing.any fun row => occurredAt < row.occurred_at

def toRow (event : RunEvent) : RunProjectionRow where
  run_id := event.run_id
  workflow_id := event.workflow_id
  status := event.status
  project_id := (resolveContextIds event.context).1
  work_item_id := (resolveContextIds event.context).2
  occurred_at := event.occurred_at
  last_event_id := event.event_id
  last_event_type := event.event_type

def recordCoreLifecycleEvent (event : RunEvent) : LifecycleProg Unit := do
  let existing ← awaitLifecycle (.findProjection event.run_id)
  if existing.any fun row => row.last_event_id = event.event_id then
    pure ()
  else if isStale existing event.occurred_at then
    pure ()
  else
    awaitLifecycle (.saveProjection (toRow event))

end CoreRunProjectionService

namespace CoreLifecycleStreamConsumerService

/-! ## Links and statuses of the work item -/

/-- The project and the work item that a context names, when it names both. -/
def projectWorkItem (event : RunEvent) : Option (String × String) :=
  match event.contextProject, event.realWorkItem with
  | some projectId, some workItemId => some (projectId, workItemId)
  | _, _ => none

/-- The link under the lease of the work item, which is released afterwards. -/
def linkUnderLease (event : RunEvent) (projectId workItemId : String) : LifecycleProg Unit := do
  let ownerId := WorkItemRunLeaseService.deriveOwnerId projectId workItemId .lifecycleLink
  let acquired ← awaitLifecycle
    (.acquireRunLease projectId workItemId (ownerId ++ ":" ++ event.correlation_id))
  if !acquired then
    pure ()
  else
    let linked ← tryLifecycle (.linkRunIfUnlinked projectId workItemId event.run_id)
    let _ ← tryLifecycle (.releaseRunLease projectId ownerId)
    match linked with
    | .ok _ => pure ()
    | .error message => .fail message

/-- `linkWorkItemRunFromLifecycleEvent` of the helpers. -/
def linkWorkItemRun (event : RunEvent) : LifecycleProg Unit :=
  match projectWorkItem event with
  | none => pure ()
  | some (projectId, workItemId) => linkUnderLease event projectId workItemId

def broadcastWorkItemRunState (projectId workItemId : String) : LifecycleProg Unit := do
  match ← awaitLifecycle (.findByProjectAndId projectId workItemId) with
  | none => pure ()
  | some entity => awaitLifecycle (.readRelations entity.id)

def maybeHeartbeatCycleLease (event : RunEvent) : LifecycleProg Unit :=
  match event.contextProject with
  | some projectId =>
      if event.workflow_id = "project_orchestration_cycle_ceo" && event.status = "RUNNING" then do
        let _ ← tryLifecycle (.heartbeatCycleLease projectId)
        pure ()
      else pure ()
  | none => pure ()

def maybeMaterializeCharterOnRunStart (event : RunEvent) : LifecycleProg Unit :=
  match event.contextProject with
  | some projectId => do
      let _ ← tryLifecycle (.enqueueCharter projectId)
      pure ()
  | none => pure ()

/-- Records the status on the work item of the run, and broadcasts an item it was recorded on. -/
def recordRunStatus (event : RunEvent) : LifecycleProg Unit :=
  match projectWorkItem event with
  | none => pure ()
  | some (projectId, workItemId) => do
      let updated ← awaitLifecycle
        (.recordExecutionStatus projectId workItemId event.run_id event.status)
      if updated then broadcastWorkItemRunState projectId workItemId else pure ()

def linkWorkItemRunFromLifecycleEvent (event : RunEvent) : LifecycleProg Unit :=
  if event.terminalStatus.isSome then
    pure ()
  else do
    maybeHeartbeatCycleLease event
    maybeMaterializeCharterOnRunStart event
    linkWorkItemRun event
    recordRunStatus event

/-- Clears the links of the work item to the run; the status alone is recorded when there are
none. -/
def clearEndedRun (event : RunEvent) (projectId workItemId : String) : LifecycleProg Unit := do
  let cleared ← awaitLifecycle
    (.clearRunLinksIfMatches projectId workItemId event.run_id event.status)
  if cleared then broadcastWorkItemRunState projectId workItemId else recordRunStatus event

def recordTerminalRunStatus (event : RunEvent) : LifecycleProg Unit :=
  if event.terminalStatus.isNone then
    pure ()
  else
    match projectWorkItem event with
    | none => pure ()
    | some (projectId, workItemId) => clearEndedRun event projectId workItemId

/-! ## The end of a run -/

/-- The orchestration that is linked to the run names the project of a run without one. -/
def resolveProjectIdForWorkflowRun (event : RunEvent) : LifecycleProg (Option String) :=
  match event.contextProject with
  | some projectId => pure (some projectId)
  | none => do
      match ← tryLifecycle (.findByLinkedWorkflowRun event.run_id) with
      | .ok projectId => pure (projectId.filter (· ≠ ""))
      | .error _ => pure none

/-- One of the two additions; a failure of it is logged. -/
def accrue (amount : Nat) (addition : LifecycleOp) : LifecycleProg Unit :=
  if 0 < amount then do
    let _ ← tryLifecycle addition
    pure ()
  else
    pure ()

def accrueWorkItemTokenSpend (projectId : String) (event : RunEvent) : LifecycleProg Unit :=
  match event.realWorkItem with
  | none => pure ()
  | some workItemId => do
      let tokenAmount := readUsageTotalTokens event
      accrue tokenAmount (.addTokenSpend projectId workItemId tokenAmount)
      let costCents := readUsageEstimatedCostCents event
      accrue costCents (.addCostSpend projectId workItemId costCents)

/-- `KanbanWorkItemRunCostRepository.recordAttempt`. -/
def recordAttempt (input : RunCostAttempt) : LifecycleProg Unit := do
  match ← awaitLifecycle (.findRunCost input.run_id) with
  | some _ => pure ()
  | none =>
      let priorAttempts ← awaitLifecycle (.countRunCosts input.work_item_id)
      awaitLifecycle (.saveRunCost
        { input with attempt_number := priorAttempts + 1, is_retry := priorAttempts + 1 > 1 })

def toRunCostAttempt (event : RunEvent) (workItem : KanbanWorkItemEntity) (workItemId : String) :
    RunCostAttempt where
  work_item_id := workItemId
  run_id := event.run_id
  workflow_id := event.workflow_id
  type := workItem.type
  story_points := workItem.story_points
  priority := workItem.priority
  model_breakdown := (event.usage.bind RunUsage.model_breakdown).getD []
  total_input_tokens := (event.usage.bind RunUsage.input_tokens).getD 0
  total_output_tokens := (event.usage.bind RunUsage.output_tokens).getD 0
  total_cost_cents := readUsageEstimatedCostCents event
  priced_turn_count := (event.usage.bind RunUsage.priced_turn_count).getD 0

def recordWorkItemRunCostAttempt (projectId : String) (event : RunEvent) : LifecycleProg Unit :=
  match event.realWorkItem with
  | none => pure ()
  | some workItemId =>
      if readUsageEstimatedCostCents event = 0 then
        pure ()
      else do
        match ← awaitLifecycle (.findByProjectAndId projectId workItemId) with
        | none => pure ()
        | some workItem => recordAttempt (toRunCostAttempt event workItem workItemId)

/-- What `reconcileLinkedWorkflowRun` answers; a failure of it is logged. -/
def reconcileTerminalWorkflowRun (projectId : String) (event : RunEvent)
    (terminalStatus : TerminalWorkflowStatus) : LifecycleProg (Option Bool) := do
  match ← tryLifecycle (.reconcileLinkedWorkflowRun projectId event.run_id terminalStatus) with
  | .ok cleared => pure (some cleared)
  | .error _ => pure none

def releaseCycleLease (projectId : String) (event : RunEvent) : LifecycleProg Unit :=
  if event.workflow_id = "project_orchestration_cycle_ceo" then do
    let _ ← tryLifecycle (.releaseCycleLease projectId)
    pure ()
  else
    pure ()

/-- `resolveWorkItemRunFailureClass`. -/
def failureClassOf (item : Option KanbanWorkItemEntity) : FailureClass :=
  match (item.bind fun row => row.metadata).bind (Json.field? · "qa_decision") with
  | some (.str "reject") => .qaRejection
  | _ => .systemFailure

def resolveWorkItemRunFailureClass (projectId workItemId : String) :
    LifecycleProg FailureClass := do
  match ← tryLifecycle (.findByProjectAndId projectId workItemId) with
  | .ok item => pure (failureClassOf item)
  | .error _ => pure .systemFailure

def recordTerminalRepairEvidence (projectId : String) (event : RunEvent)
    (terminalStatus : TerminalWorkflowStatus) (kind : TerminalWorkItemRunKind) :
    LifecycleProg Unit :=
  match (resolveWorkItemIdFromContext event.context).filter (· ≠ "") with
  | none => pure ()
  | some workItemId =>
      if kind ≠ .failedWorkItem || terminalStatus = .completed then
        pure ()
      else do
        let failureClass ← resolveWorkItemRunFailureClass projectId workItemId
        awaitLifecycle (.recordFailedWorkItemRun projectId event.run_id workItemId terminalStatus
          failureClass)

def isWorkItemStillActive (projectId : String) (event : RunEvent)
    (kind : TerminalWorkItemRunKind) : LifecycleProg Bool :=
  match event.realWorkItem with
  | none => pure false
  | some workItemId =>
      if kind = .other then
        pure false
      else do
        match ← tryLifecycle (.findByProjectAndId projectId workItemId) with
        | .ok (some item) => pure (isProjectDispatchActive item.toWorkItem)
        | _ => pure false

/-- The wakeup of the orchestration, as far as the wake policy asks for one. -/
def wakeForTerminalRun (projectId : String) (event : RunEvent)
    (terminalStatus : TerminalWorkflowStatus) (kind : TerminalWorkItemRunKind) :
    LifecycleProg Unit := do
  let trigger := resolveContinuationTrigger terminalStatus kind
  let itemStillActive ← isWorkItemStillActive projectId event kind
  let policy ← awaitLifecycle (.resolveWakePolicy projectId)
  if shouldWakeForTerminalRun policy kind itemStillActive then
    let _ ← tryLifecycle (.requestWakeup projectId trigger)
    pure ()
  else
    pure ()

/-- The rest of the evaluation, after the usage has been added. -/
def continueAfterAccrual (projectId : String) (event : RunEvent)
    (terminalStatus : TerminalWorkflowStatus) : LifecycleProg Unit := do
  let kind := classifyTerminalWorkItemRun terminalStatus
    (resolveWorkItemIdFromContext event.context)
  recordWorkItemRunCostAttempt projectId event
  let cleared ← reconcileTerminalWorkflowRun projectId event terminalStatus
  releaseCycleLease projectId event
  recordTerminalRepairEvidence projectId event terminalStatus kind
  if shouldStopAfterStaleLink kind cleared then pure ()
  else wakeForTerminalRun projectId event terminalStatus kind

def evaluateContinuationForTerminalRun (event : RunEvent) : LifecycleProg Unit :=
  match event.terminalStatus with
  | none => pure ()
  | some terminalStatus => do
      match ← resolveProjectIdForWorkflowRun event with
      | none => pure ()
      | some projectId =>
          accrueWorkItemTokenSpend projectId event
          continueAfterAccrual projectId event terminalStatus

/-! ## The entries of the stream -/

/-- `CoreIntegrationEventRouter.handles`. -/
def routerHandles (eventType : Option String) : Bool :=
  eventType = some "core.integration.pr_merged.v1" ||
    eventType = some "core.integration.pr_status.v1" ||
    eventType = some "improvement.task.requested.v1"

def parseEnvelope (reader : EnvelopeReader) (value : Option String) :
    Except String CoreWorkflowEvent :=
  match value.filter (· ≠ "") with
  | none => .error "Malformed core lifecycle event: missing envelope"
  | some text => (reader.parse text).mapError fun reason =>
      "Malformed core lifecycle event: " ++ reason

/-- What is projected from a run event. -/
def projectRunEvent (event : RunEvent) : LifecycleProg Unit := do
  CoreRunProjectionService.recordCoreLifecycleEvent event
  linkWorkItemRunFromLifecycleEvent event
  recordTerminalRunStatus event

/-- The handling of a run event. -/
def handleRunEvent (event : RunEvent) : LifecycleProg Unit := do
  projectRunEvent event
  evaluateContinuationForTerminalRun event

/-- The body of the `try` block of `processEntries`. -/
def handleEntry (reader : EnvelopeReader) (fields : Fields) : LifecycleProg Unit :=
  let eventType := OrderedMap.get? fields "event_type"
  let envelope := OrderedMap.get? fields "envelope"
  if routerHandles eventType then
    awaitLifecycle (.route eventType envelope)
  else
    match parseEnvelope reader envelope with
    | .error message => .fail message
    | .ok .step => pure ()
    | .ok (.run event) => handleRunEvent event

/-- The `try` and the `catch` block: whether the entry was processed, and not kept as a dead
letter. -/
def handleOrPark (reader : EnvelopeReader) (streamId : Nat) (fields : Fields) :
    LifecycleProg Bool :=
  ((handleEntry reader fields).bind fun _ => pure true).handle fun reason => do
    awaitLifecycle (.saveDeadLetter streamId reason fields)
    pure false

def processEntry (reader : EnvelopeReader) (entry : RedisStreamEntry) : LifecycleProg Bool := do
  let processed ← handleOrPark reader entry.id (toFields entry.rawFields)
  awaitLifecycle (.saveCursor entry.id)
  pure processed

structure ProcessResult where
  processed : Nat := 0
  deadLettered : Nat := 0
  lastStreamId : Option Nat := none

def ProcessResult.count (result : ProcessResult) (streamId : Nat) (processed : Bool) :
    ProcessResult where
  processed := if processed then result.processed + 1 else result.processed
  deadLettered := if processed then result.deadLettered else result.deadLettered + 1
  lastStreamId := some streamId

def processEntries (reader : EnvelopeReader) :
    List RedisStreamEntry → ProcessResult → LifecycleProg ProcessResult
  | [], result => pure result
  | entry :: entries, result => do
      let processed ← processEntry reader entry
      processEntries reader entries (result.count entry.id processed)

def replayFromCursor (reader : EnvelopeReader) : LifecycleProg ProcessResult := do
  let cursor ← awaitLifecycle .getCursor
  let entries ← awaitLifecycle (.xrange cursor)
  processEntries reader entries {}

end CoreLifecycleStreamConsumerService

/-! ## The replay of dead letters -/

namespace DeadLetterReplay

def extractProposalId (reader : EnvelopeReader) (payload : Option Fields) : Option String :=
  (payload.bind (OrderedMap.get? · "envelope")).bind reader.proposalId

structure RowOutcome where
  replayed : Bool
  skipped : Bool
  deleted : Bool
  deriving DecidableEq, Repr

def republishDeadLetterPayload (payload : Option Fields) : LifecycleProg Unit :=
  match payload with
  | none => .fail "Dead letter row has no payload to replay"
  | some payload => awaitLifecycle (.xadd payload)

/-- The deletion of a row whose payload is on the stream again. -/
def deletePublished (row : DeadLetterRow) : LifecycleProg RowOutcome := do
  match ← tryLifecycle (.deleteDeadLetter row.id) with
  | .ok _ => pure ⟨true, false, true⟩
  | .error _ => pure ⟨true, false, false⟩

/-- Whether the filter of the call, if it has one, lets a row through. -/
def isSelected (reader : EnvelopeReader) (proposalIds : List String) (row : DeadLetterRow) : Bool :=
  proposalIds.isEmpty ||
    (extractProposalId reader row.payload).any fun id => id ≠ "" && id ∈ proposalIds

def processDeadLetterRow (reader : EnvelopeReader) (proposalIds : List String)
    (row : DeadLetterRow) : LifecycleProg RowOutcome :=
  if !isSelected reader proposalIds row then
    pure ⟨false, true, false⟩
  else do
    let published ←
      ((republishDeadLetterPayload row.payload).bind fun _ => pure true).handle fun _ => pure false
    if published then deletePublished row else pure ⟨false, true, false⟩

structure Tally where
  replayed : Nat := 0
  skipped : Nat := 0
  processedRowIds : List Nat := []
  deletedThisBatch : Nat := 0

def Tally.count (tally : Tally) (id : Nat) (outcome : RowOutcome) : Tally where
  replayed := if outcome.replayed then tally.replayed + 1 else tally.replayed
  skipped := if outcome.skipped then tally.skipped + 1 else tally.skipped
  processedRowIds := id :: tally.processedRowIds
  deletedThisBatch := if outcome.deleted then tally.deletedThisBatch + 1 else tally.deletedThisBatch

def replayBatch (reader : EnvelopeReader) (proposalIds : List String) :
    List DeadLetterRow → Tally → LifecycleProg Tally
  | [], tally => pure tally
  | row :: rows, tally =>
      if row.id ∈ tally.processedRowIds then
        replayBatch reader proposalIds rows tally
      else do
        let outcome ← processDeadLetterRow reader proposalIds row
        replayBatch reader proposalIds rows (tally.count row.id outcome)

/-- The loop over the batches, at most as many as the number says. -/
def replayBatches (reader : EnvelopeReader) (proposalIds : List String) :
    Nat → Tally → LifecycleProg Tally
  | 0, tally => pure tally
  | n + 1, tally => do
      let rows ← awaitLifecycle .listDeadLetters
      if rows.isEmpty then
        pure tally
      else
        let tally ← replayBatch reader proposalIds rows { tally with deletedThisBatch := 0 }
        if tally.deletedThisBatch = 0 then pure tally
        else replayBatches reader proposalIds n tally

structure ReplayResult where
  replayed : Nat
  skipped : Nat
  remaining : Nat
  deriving DecidableEq, Repr

def replayDeadLetters (reader : EnvelopeReader) (proposalIds : List String) (batches : Nat) :
    LifecycleProg ReplayResult := do
  let tally ← replayBatches reader proposalIds batches {}
  let remaining ← awaitLifecycle .countRecent
  pure ⟨tally.replayed, tally.skipped, remaining⟩

end DeadLetterReplay

/-! ## The statements that the handling of an event issues -/

/-- The statement writes neither the stream, its cursor and the dead letters, nor the usage of a work
item, nor the projection of a run. -/
def LifecycleOp.IsPlain : LifecycleOp → Prop
  | .saveCursor _ => False
  | .xadd _ => False
  | .saveDeadLetter _ _ _ => False
  | .deleteDeadLetter _ => False
  | .addTokenSpend _ _ _ => False
  | .addCostSpend _ _ _ => False
  | .saveProjection _ => False
  | _ => True

variable {o : LifecycleOp}

section Uses

variable {α β : Type} {allowed : LifecycleOp → Prop}

theorem uses_tryLifecycle (h : allowed o) : (tryLifecycle o).Uses allowed := Prog.uses_op h

theorem uses_awaitLifecycle (h : allowed o) : (awaitLifecycle o).Uses allowed := by
  apply Prog.uses_bind (uses_tryLifecycle h)
  intro ans
  cases ans with
  | ok value => exact trivial
  | error message => exact trivial

end Uses

namespace CoreLifecycleStreamConsumerService

variable (event : RunEvent) (projectId workItemId : String)

theorem broadcastWorkItemRunState_isPlain :
    (broadcastWorkItemRunState projectId workItemId).Uses LifecycleOp.IsPlain := by
  apply Prog.uses_bind (uses_awaitLifecycle trivial)
  intro entity
  cases entity with
  | none => exact trivial
  | some entity => exact uses_awaitLifecycle trivial

theorem maybeHeartbeatCycleLease_isPlain :
    (maybeHeartbeatCycleLease event).Uses LifecycleOp.IsPlain := by
  unfold maybeHeartbeatCycleLease
  cases event.contextProject with
  | none => exact trivial
  | some projectId =>
      apply Prog.uses_ite
      · exact Prog.uses_bind (uses_tryLifecycle trivial) fun _ => trivial
      · exact trivial

theorem maybeMaterializeCharterOnRunStart_isPlain :
    (maybeMaterializeCharterOnRunStart event).Uses LifecycleOp.IsPlain := by
  unfold maybeMaterializeCharterOnRunStart
  cases event.contextProject with
  | none => exact trivial
  | some projectId => exact Prog.uses_bind (uses_tryLifecycle trivial) fun _ => trivial

theorem linkWorkItemRun_isPlain : (linkWorkItemRun event).Uses LifecycleOp.IsPlain := by
  unfold linkWorkItemRun
  cases projectWorkItem event with
  | none => exact trivial
  | some target =>
      apply Prog.uses_bind (uses_awaitLifecycle trivial)
      intro acquired
      apply Prog.uses_ite
      · exact trivial
      · apply Prog.uses_bind (uses_tryLifecycle trivial)
        intro linked
        apply Prog.uses_bind (uses_tryLifecycle trivial)
        intro _
        cases linked with
        | ok _ => exact trivial
        | error message => exact trivial

theorem recordRunStatus_isPlain : (recordRunStatus event).Uses LifecycleOp.IsPlain := by
  unfold recordRunStatus
  cases projectWorkItem event with
  | none => exact trivial
  | some target =>
      apply Prog.uses_bind (uses_awaitLifecycle trivial)
      intro updated
      exact Prog.uses_ite (broadcastWorkItemRunState_isPlain _ _) trivial

theorem linkWorkItemRunFromLifecycleEvent_isPlain :
    (linkWorkItemRunFromLifecycleEvent event).Uses LifecycleOp.IsPlain := by
  apply Prog.uses_ite
  · exact trivial
  · apply Prog.uses_bind (maybeHeartbeatCycleLease_isPlain event)
    intro _
    apply Prog.uses_bind (maybeMaterializeCharterOnRunStart_isPlain event)
    intro _
    apply Prog.uses_bind (linkWorkItemRun_isPlain event)
    intro _
    exact recordRunStatus_isPlain event

theorem recordTerminalRunStatus_isPlain :
    (recordTerminalRunStatus event).Uses LifecycleOp.IsPlain := by
  apply Prog.uses_ite
  · exact trivial
  · cases projectWorkItem event with
    | none => exact trivial
    | some target =>
        apply Prog.uses_bind (uses_awaitLifecycle trivial)
        intro cleared
        exact Prog.uses_ite (broadcastWorkItemRunState_isPlain _ _) (recordRunStatus_isPlain event)

theorem recordCoreLifecycleEvent_uses {allowed : LifecycleOp → Prop}
    (hfind : allowed (.findProjection event.run_id))
    (hsave : allowed (.saveProjection (CoreRunProjectionService.toRow event))) :
    (CoreRunProjectionService.recordCoreLifecycleEvent event).Uses allowed := by
  apply Prog.uses_bind (uses_awaitLifecycle hfind)
  intro existing
  apply Prog.uses_ite
  · exact trivial
  · exact Prog.uses_ite trivial (uses_awaitLifecycle hsave)

theorem projectRunEvent_uses {allowed : LifecycleOp → Prop} (hplain : ∀ o, o.IsPlain → allowed o)
    (hsave : allowed (.saveProjection (CoreRunProjectionService.toRow event))) :
    (projectRunEvent event).Uses allowed := by
  apply Prog.uses_bind (recordCoreLifecycleEvent_uses event (hplain _ trivial) hsave)
  intro _
  apply Prog.uses_bind ((linkWorkItemRunFromLifecycleEvent_isPlain event).mono hplain)
  exact fun _ => (recordTerminalRunStatus_isPlain event).mono hplain

theorem resolveProjectIdForWorkflowRun_isPlain :
    (resolveProjectIdForWorkflowRun event).Uses LifecycleOp.IsPlain := by
  unfold resolveProjectIdForWorkflowRun
  cases event.contextProject with
  | some projectId => exact trivial
  | none =>
      apply Prog.uses_bind (uses_tryLifecycle trivial)
      intro ans
      cases ans with
      | ok projectId => exact trivial
      | error message => exact trivial

theorem recordWorkItemRunCostAttempt_isPlain :
    (recordWorkItemRunCostAttempt projectId event).Uses LifecycleOp.IsPlain := by
  unfold recordWorkItemRunCostAttempt
  cases event.realWorkItem with
  | none => exact trivial
  | some workItemId =>
      apply Prog.uses_ite
      · exact trivial
      · apply Prog.uses_bind (uses_awaitLifecycle trivial)
        intro workItem
        cases workItem with
        | none => exact trivial
        | some workItem =>
            apply Prog.uses_bind (uses_awaitLifecycle trivial)
            intro existing
            cases existing with
            | some row => exact trivial
            | none =>
                apply Prog.uses_bind (uses_awaitLifecycle trivial)
                exact fun _ => uses_awaitLifecycle trivial

theorem reconcileTerminalWorkflowRun_isPlain (terminalStatus : TerminalWorkflowStatus) :
    (reconcileTerminalWorkflowRun projectId event terminalStatus).Uses LifecycleOp.IsPlain := by
  apply Prog.uses_bind (uses_tryLifecycle trivial)
  intro ans
  cases ans with
  | ok cleared => exact trivial
  | error message => exact trivial

theorem releaseCycleLease_isPlain :
    (releaseCycleLease projectId event).Uses LifecycleOp.IsPlain := by
  apply Prog.uses_ite
  · exact Prog.uses_bind (uses_tryLifecycle trivial) fun _ => trivial
  · exact trivial

theorem recordTerminalRepairEvidence_isPlain (terminalStatus : TerminalWorkflowStatus)
    (kind : TerminalWorkItemRunKind) :
    (recordTerminalRepairEvidence projectId event terminalStatus kind).Uses
      LifecycleOp.IsPlain := by
  unfold recordTerminalRepairEvidence
  split
  · exact trivial
  · apply Prog.uses_ite
    · exact trivial
    · refine Prog.uses_bind (Prog.uses_bind (uses_tryLifecycle trivial) fun ans => ?_)
        fun _ => uses_awaitLifecycle trivial
      cases ans with
      | ok item => exact trivial
      | error message => exact trivial

theorem wakeForTerminalRun_isPlain (terminalStatus : TerminalWorkflowStatus)
    (kind : TerminalWorkItemRunKind) :
    (wakeForTerminalRun projectId event terminalStatus kind).Uses LifecycleOp.IsPlain := by
  have hactive : (isWorkItemStillActive projectId event kind).Uses LifecycleOp.IsPlain := by
    unfold isWorkItemStillActive
    split
    · exact trivial
    · apply Prog.uses_ite
      · exact trivial
      · apply Prog.uses_bind (uses_tryLifecycle trivial)
        intro ans
        split
        · exact trivial
        · exact trivial
  apply Prog.uses_bind hactive
  intro itemStillActive
  apply Prog.uses_bind (uses_awaitLifecycle trivial)
  intro policy
  apply Prog.uses_ite
  · exact Prog.uses_bind (uses_tryLifecycle trivial) fun _ => trivial
  · exact trivial

theorem continueAfterAccrual_isPlain (terminalStatus : TerminalWorkflowStatus) :
    (continueAfterAccrual projectId event terminalStatus).Uses LifecycleOp.IsPlain := by
  apply Prog.uses_bind (recordWorkItemRunCostAttempt_isPlain event projectId)
  intro _
  apply Prog.uses_bind (reconcileTerminalWorkflowRun_isPlain event projectId terminalStatus)
  intro cleared
  apply Prog.uses_bind (releaseCycleLease_isPlain event projectId)
  intro _
  apply Prog.uses_bind (recordTerminalRepairEvidence_isPlain event projectId terminalStatus _)
  intro _
  exact Prog.uses_ite trivial (wakeForTerminalRun_isPlain event projectId terminalStatus _)

theorem accrue_uses {allowed : LifecycleOp → Prop} {amount : Nat} (h : 0 < amount → allowed o) :
    (accrue amount o).Uses allowed := by
  unfold accrue
  split
  · rename_i hpos
    exact Prog.uses_bind (uses_tryLifecycle (h hpos)) fun _ => trivial
  · exact trivial

theorem evaluateContinuationForTerminalRun_uses {allowed : LifecycleOp → Prop}
    (hplain : ∀ o, o.IsPlain → allowed o)
    (htokens : ∀ projectId workItemId amount,
      allowed (.addTokenSpend projectId workItemId amount))
    (hcents : ∀ projectId workItemId amountCents,
      allowed (.addCostSpend projectId workItemId amountCents)) :
    (evaluateContinuationForTerminalRun event).Uses allowed := by
  unfold evaluateContinuationForTerminalRun
  cases event.terminalStatus with
  | none => exact trivial
  | some terminalStatus =>
      apply Prog.uses_bind ((resolveProjectIdForWorkflowRun_isPlain event).mono hplain)
      intro answer
      cases answer with
      | none => exact trivial
      | some projectId =>
          apply Prog.uses_bind
          · unfold accrueWorkItemTokenSpend
            cases event.realWorkItem with
            | none => exact trivial
            | some workItemId =>
                apply Prog.uses_bind (accrue_uses fun _ => htokens _ _ _)
                exact fun _ => accrue_uses fun _ => hcents _ _ _
          · exact fun _ => (continueAfterAccrual_isPlain event projectId terminalStatus).mono hplain

end CoreLifecycleStreamConsumerService

end Nexus
