import Nexus.Kanban.ConflictKeys
import Nexus.Lib.Pool
import Mathlib.Data.List.Sort
import Mathlib.Data.List.Nodup

/-!
# Orchestration leases

The table `kanban_orchestration_leases`, `KanbanOrchestrationLeaseRepository` over it and the calls
of `OrchestrationLeaseService`. `acquire` is one transaction, executed statement by statement with
the semantics of the database: the partial unique index refuses a second active lease of a key, and
after an error every further statement of the transaction fails. As a whole it is one step; every
other operation is one statement, which reads the clock when it is executed.
-/

set_option autoImplicit false

namespace Nexus

inductive OrchestrationLeaseStatus where
  | active
  | released
  | expired
  deriving DecidableEq, Repr, Inhabited

inductive OrchestrationLeaseOwnerKind where
  | cycleRequest
  | workflowRun
  | directMutation
  | workItemRunRequest
  deriving DecidableEq, Repr, Inhabited

structure OrchestrationLeaseOwner where
  kind : OrchestrationLeaseOwnerKind
  id : String
  deriving DecidableEq, Repr, Inhabited

/-- A row of `kanban_orchestration_leases`; ids are drawn by the database. -/
structure Lease where
  id : Nat
  project_id : String
  conflict_key : OrchestrationConflictKey
  lane : OrchestrationLane
  owner : OrchestrationLeaseOwner
  status : OrchestrationLeaseStatus
  acquired_at : Nat
  heartbeat_at : Nat
  expires_at : Nat
  released_at : Option Nat := none
  deriving DecidableEq, Repr, Inhabited

def Lease.isActive (lease : Lease) : Bool := lease.status = .active

/-- The columns of the partial unique index. -/
def Lease.holds (lease : Lease) (projectId : String) (key : OrchestrationConflictKey) : Bool :=
  lease.isActive && lease.project_id = projectId && lease.conflict_key = key

structure AcquireLeaseInput where
  projectId : String
  lane : OrchestrationLane
  owner : OrchestrationLeaseOwner
  conflictKeys : List OrchestrationConflictKey
  ttlMs : Nat
  deriving DecidableEq, Inhabited

structure LeaseConflict where
  conflictKey : OrchestrationConflictKey
  heldByOwner : OrchestrationLeaseOwner
  expiresAt : Nat
  deriving DecidableEq, Repr

inductive AcquireLeaseResult where
  | acquired (leaseIds : List Nat)
  | refused (conflicts : List LeaseConflict)
  deriving DecidableEq, Repr

/-- The rows, the next id, and the clock. -/
structure LeaseTable where
  rows : List Lease := []
  nextId : Nat := 0
  clock : Nat := 0

namespace LeaseTable

/-- An update of the rows with a property. -/
def updateWhere (w : LeaseTable) (p : Lease → Bool) (f : Lease → Lease) : LeaseTable :=
  { w with rows := w.rows.map fun lease => if p lease then f lease else lease }

end LeaseTable

/-! ## The transaction of `acquire` -/

/-- The errors of the database a lease statement can meet. -/
inductive PgError where
  /-- 23505. -/
  | uniqueViolation
  /-- 25P02: the transaction is aborted. -/
  | inFailedTransaction
  deriving DecidableEq, Repr

inductive LeaseStatement where
  | reclaim (projectId : String) (key : OrchestrationConflictKey) (now : Nat)
  | insert (input : AcquireLeaseInput) (key : OrchestrationConflictKey) (now : Nat)
  | selectActive (projectId : String) (key : OrchestrationConflictKey)

abbrev LeaseStatement.Rows : LeaseStatement → Type
  | .reclaim _ _ _ => Unit
  | .insert _ _ _ => Nat
  | .selectActive _ _ => List Lease

abbrev LeaseStatement.Ans (o : LeaseStatement) : Type := Except PgError o.Rows

/-- The state of a transaction. -/
structure LeaseTransaction where
  table : LeaseTable
  aborted : Bool := false

/-- The row an insert writes. -/
def newLease (id : Nat) (input : AcquireLeaseInput) (key : OrchestrationConflictKey) (now : Nat) :
    Lease where
  id := id
  project_id := input.projectId
  conflict_key := key
  lane := input.lane
  owner := input.owner
  status := .active
  acquired_at := now
  heartbeat_at := now
  expires_at := now + input.ttlMs

def LeaseTable.reclaim (w : LeaseTable) (projectId : String) (key : OrchestrationConflictKey)
    (now : Nat) : LeaseTable :=
  w.updateWhere (fun lease => lease.holds projectId key && decide (lease.expires_at < now))
    fun lease => { lease with status := .expired }

def LeaseTable.insert (w : LeaseTable) (input : AcquireLeaseInput)
    (key : OrchestrationConflictKey) (now : Nat) : LeaseTable :=
  { w with rows := w.rows ++ [newLease w.nextId input key now], nextId := w.nextId + 1 }

def LeaseStatement.exec (tx : LeaseTransaction) :
    (o : LeaseStatement) → LeaseTransaction × o.Ans
  | .reclaim projectId key now =>
      if tx.aborted then (tx, .error .inFailedTransaction)
      else ({ tx with table := tx.table.reclaim projectId key now }, .ok ())
  | .insert input key now =>
      if tx.aborted then (tx, .error .inFailedTransaction)
      else if tx.table.rows.any fun lease => lease.holds input.projectId key then
        ({ tx with aborted := true }, .error .uniqueViolation)
      else ({ tx with table := tx.table.insert input key now }, .ok tx.table.nextId)
  | .selectActive projectId key =>
      if tx.aborted then (tx, .error .inFailedTransaction)
      else (tx, .ok (tx.table.rows.filter fun lease => lease.holds projectId key))

/-- What the body of the transaction throws. -/
inductive LeaseError where
  | database (error : PgError)
  | leaseConflictRollback (conflicts : List LeaseConflict)

abbrev LeaseTxProg (α : Type) := Prog LeaseStatement LeaseStatement.Ans LeaseError α

/-- A statement; an error of the database is thrown. -/
def query (o : LeaseStatement) : LeaseTxProg o.Rows := do
  match ← (Prog.op o : LeaseTxProg (Except PgError o.Rows)) with
  | .ok rows => pure rows
  | .error error => .fail (.database error)

namespace KanbanOrchestrationLeaseRepository

def reclaimExpired (projectId : String) (now : Nat) :
    List OrchestrationConflictKey → LeaseTxProg Unit
  | [] => pure ()
  | key :: keys => do
      query (.reclaim projectId key now)
      reclaimExpired projectId now keys

def toLeaseConflict (lease : Lease) : LeaseConflict :=
  ⟨lease.conflict_key, lease.owner, lease.expires_at⟩

def loadConflicts (projectId : String) :
    List OrchestrationConflictKey → LeaseTxProg (List LeaseConflict)
  | [] => pure []
  | key :: keys => do
      let rows ← query (.selectActive projectId key)
      let conflicts ← loadConflicts projectId keys
      pure (rows.map toLeaseConflict ++ conflicts)

def insertKeys (input : AcquireLeaseInput) (now : Nat) :
    List OrchestrationConflictKey → LeaseTxProg (List Nat)
  | [] => pure []
  | key :: keys => do
      let id ← query (.insert input key now)
      let leaseIds ← insertKeys input now keys
      pure (id :: leaseIds)

/-- The `catch` of the inserts. -/
def onInsertError (projectId : String) (keys : List OrchestrationConflictKey) :
    LeaseError → LeaseTxProg (List Nat)
  | .database .uniqueViolation => do
      let conflicts ← loadConflicts projectId keys
      .fail (.leaseConflictRollback conflicts)
  | error => .fail error

/-- The body of the transaction. -/
def acquireIn (input : AcquireLeaseInput) (now : Nat) (keys : List OrchestrationConflictKey) :
    LeaseTxProg (List Nat) := do
  reclaimExpired input.projectId now keys
  Prog.handle (insertKeys input now keys) (onInsertError input.projectId keys)

/-- `dataSource.transaction`: an exception rolls back, and so does the commit of an aborted
transaction. -/
def transaction {α : Type} (body : LeaseTxProg α) (w : LeaseTable) :
    LeaseTable × Except LeaseError α :=
  match body.run LeaseStatement.exec { table := w } with
  | (tx, .ok a) => (if tx.aborted then w else tx.table, .ok a)
  | (_, .error error) => (w, .error error)

/-- The names of the kinds, as the text of a key has them. -/
def kindText : OrchestrationConflictKeyKind → String
  | .workItem => "work_item"
  | .targetBranch => "target_branch"
  | .filePath => "file_path"
  | .modulePath => "module_path"
  | .workflowScope => "workflow_scope"
  | .workflowRun => "workflow_run"

def keyText (key : OrchestrationConflictKey) : String := kindText key.kind ++ ":" ++ key.value

/-- The keys in the order of `localeCompare`, of which `localeLE` says when it is not positive. -/
def sortKeys (localeLE : String → String → Bool) (keys : List OrchestrationConflictKey) :
    List OrchestrationConflictKey :=
  keys.insertionSort fun a b => localeLE (keyText a) (keyText b) = true

/-- `acquire`, at the time `now` it has read. -/
def acquire (localeLE : String → String → Bool) (w : LeaseTable) (input : AcquireLeaseInput)
    (now : Nat) : LeaseTable × Except PgError AcquireLeaseResult :=
  match transaction (acquireIn input now (sortKeys localeLE input.conflictKeys)) w with
  | (w', .ok leaseIds) => (w', .ok (.acquired leaseIds))
  | (w', .error (.leaseConflictRollback conflicts)) => (w', .ok (.refused conflicts))
  | (w', .error (.database error)) => (w', .error error)

end KanbanOrchestrationLeaseRepository

/-! ## Operations -/

inductive LeaseOp where
  | now
  /-- Time passes. -/
  | elapse (ms : Nat)
  | acquire (input : AcquireLeaseInput) (now : Nat)
  | heartbeat (leaseId : Nat) (ttlMs : Nat)
  | release (leaseId : Nat) (ownerId : String)
  | findOverdue (now : Nat)
  | expireOverdue (now : Nat)
  | listActiveByProject (projectId : String)
  | countActiveByLane (projectId : String) (lane : OrchestrationLane)
  | listActiveByLane (projectId : String) (lane : OrchestrationLane)
  | releaseAllForProject (projectId : String)

abbrev LeaseOp.Ans : LeaseOp → Type
  | .now => Nat
  | .elapse _ => Unit
  | .acquire _ _ => Except PgError AcquireLeaseResult
  | .heartbeat _ _ => Unit
  | .release _ _ => Bool
  | .findOverdue _ => List Lease
  | .expireOverdue _ => Unit
  | .listActiveByProject _ => List Lease
  | .countActiveByLane _ _ => Nat
  | .listActiveByLane _ _ => List Lease
  | .releaseAllForProject _ => Nat

namespace Lease

def isActiveIn (projectId : String) (lease : Lease) : Bool :=
  lease.project_id = projectId && lease.isActive

def isOwned (leaseId : Nat) (ownerId : String) (lease : Lease) : Bool :=
  lease.id = leaseId && lease.owner.id = ownerId && lease.isActive

def isOverdue (instant : Nat) (lease : Lease) : Bool :=
  lease.isActive && decide (lease.expires_at < instant)

def released (instant : Nat) (lease : Lease) : Lease :=
  { lease with status := .released, released_at := some instant }

end Lease

open Lease

/-- The active leases of a lane that have not expired. -/
def LeaseTable.activeInLane (w : LeaseTable) (projectId : String) (lane : OrchestrationLane) :
    List Lease :=
  w.rows.filter fun lease =>
    lease.isActiveIn projectId && lease.lane = lane && decide (w.clock < lease.expires_at)

def LeaseOp.exec (localeLE : String → String → Bool) (w : LeaseTable) :
    (o : LeaseOp) → LeaseTable × o.Ans
  | .now => (w, w.clock)
  | .elapse ms => ({ w with clock := w.clock + ms }, ())
  | .acquire input instant => KanbanOrchestrationLeaseRepository.acquire localeLE w input instant
  | .heartbeat leaseId ttlMs =>
      (w.updateWhere (fun lease => lease.id = leaseId && lease.isActive)
        fun lease => { lease with heartbeat_at := w.clock, expires_at := w.clock + ttlMs }, ())
  | .release leaseId ownerId =>
      (w.updateWhere (isOwned leaseId ownerId) (Lease.released w.clock),
        w.rows.any (isOwned leaseId ownerId))
  | .findOverdue instant => (w, w.rows.filter (isOverdue instant))
  | .expireOverdue instant =>
      (w.updateWhere (isOverdue instant) fun lease => { lease with status := .expired }, ())
  | .listActiveByProject projectId => (w, w.rows.filter (isActiveIn projectId))
  | .countActiveByLane projectId lane => (w, (w.activeInLane projectId lane).length)
  | .listActiveByLane projectId lane => (w, w.activeInLane projectId lane)
  | .releaseAllForProject projectId =>
      (w.updateWhere (isActiveIn projectId) (Lease.released w.clock),
        (w.rows.filter (isActiveIn projectId)).length)

/-- The machine of the leases. -/
def leaseMachine (localeLE : String → String → Bool) : Machine LeaseOp LeaseOp.Ans LeaseTable :=
  ⟨LeaseOp.exec localeLE, fun _ _ => True⟩

instance (localeLE : String → String → Bool) (w : LeaseTable) (o : LeaseOp) :
    Decidable ((leaseMachine localeLE).enabled w o) :=
  inferInstanceAs (Decidable True)

/-- The programs over the leases; an exception is an error of the database. -/
abbrev LeaseProg (α : Type) := Prog LeaseOp LeaseOp.Ans PgError α

def awaitLease (o : LeaseOp) : LeaseProg o.Ans := Prog.op o

/-! ## The service -/

def cycleLeaseTtlMs : Nat := 10 * 60 * 1000

def workItemRunLeaseDefaultTtlMs : Nat := 30000

def laneCapacityConflictPrefix : String := "lane_capacity:"

def laneText : OrchestrationLane → String
  | .discovery => "discovery"
  | .specification => "specification"
  | .workItemGeneration => "work_item_generation"
  | .dispatch => "dispatch"
  | .implementation => "implementation"
  | .review => "review"
  | .merge => "merge"
  | .repair => "repair"
  | .upstreamAnalysis => "upstream_analysis"
  | .strategy => "strategy"
  | .workItemTransition => "work_item_transition"
  | .projectHealth => "project_health"

def defaultLaneCapacity : Nat := 2

/-- `LANE_CAPACITY`. -/
def laneCapacity : OrchestrationLane → Nat
  | .dispatch => 4
  | .implementation => 4
  | .strategy => 1
  | .workItemTransition => 4
  | _ => defaultLaneCapacity

/-- What `acquireMutationLeases` is given. -/
structure MutationLeaseInput where
  projectId : String
  lane : OrchestrationLane
  ownerId : String
  conflictKeys : List OrchestrationConflictKey
  laneCapacity : Nat
  ttlMs : Option Nat := none

namespace OrchestrationLeaseService

/-- `leases.acquire`: the time is read before the transaction. -/
def acquire (input : AcquireLeaseInput) : LeaseProg AcquireLeaseResult := do
  let instant ← awaitLease .now
  match ← awaitLease (.acquire input instant) with
  | .ok result => pure result
  | .error error => .fail error

def cycleConflictKey (projectId : String) : OrchestrationConflictKey :=
  ⟨.workflowScope, "project_orchestration_cycle_ceo:" ++ projectId⟩

def acquireCycleLease (projectId correlationId : String) : LeaseProg AcquireLeaseResult :=
  acquire
    { projectId := projectId
      lane := .strategy
      owner := ⟨.cycleRequest, correlationId⟩
      conflictKeys := [cycleConflictKey projectId]
      ttlMs := cycleLeaseTtlMs }

def heartbeatCycleLease (projectId : String) : LeaseProg Unit := do
  let active ← awaitLease (.listActiveByProject projectId)
  match active.find? fun lease => lease.conflict_key = cycleConflictKey projectId with
  | some cycle => awaitLease (.heartbeat cycle.id cycleLeaseTtlMs)
  | none => pure ()

/-- Releases the leases of a list that have a property, each under its own owner id. -/
def releaseLeases (p : Lease → Bool) : List Lease → LeaseProg Unit
  | [] => pure ()
  | lease :: leases => do
      if p lease then
        let _ ← awaitLease (.release lease.id lease.owner.id)
        releaseLeases p leases
      else
        releaseLeases p leases

def releaseCycleLease (projectId : String) : LeaseProg Unit := do
  let active ← awaitLease (.listActiveByProject projectId)
  releaseLeases (fun lease => lease.conflict_key = cycleConflictKey projectId) active

/-- The refusal of a full lane. -/
def laneConflict (lane : OrchestrationLane) (held : Lease) : LeaseConflict :=
  ⟨⟨.workflowScope, laneCapacityConflictPrefix ++ laneText lane⟩, held.owner, held.expires_at⟩

def acquireOfMutation (input : MutationLeaseInput) : AcquireLeaseInput where
  projectId := input.projectId
  lane := input.lane
  owner := ⟨.directMutation, input.ownerId⟩
  conflictKeys := input.conflictKeys
  ttlMs := input.ttlMs.getD cycleLeaseTtlMs

def acquireMutationLeases (input : MutationLeaseInput) : LeaseProg AcquireLeaseResult := do
  let active ← awaitLease (.countActiveByLane input.projectId input.lane)
  if input.laneCapacity ≤ active then
    let holders ← awaitLease (.listActiveByLane input.projectId input.lane)
    if holders = [] then
      -- the lane has been freed between the two reads
      acquire (acquireOfMutation input)
    else
      pure (.refused (holders.map (laneConflict input.lane)))
  else
    acquire (acquireOfMutation input)

def releaseOwned (projectId ownerId : String) : LeaseProg Unit := do
  let active ← awaitLease (.listActiveByProject projectId)
  releaseLeases (fun lease => lease.owner.id = ownerId) active

end OrchestrationLeaseService

/-- `OrchestrationLeaseSweeperService.sweep`, with the two statements of `expireOverdue`. -/
def sweepLeases : LeaseProg Unit := do
  let instant ← awaitLease .now
  let overdue ← awaitLease (.findOverdue instant)
  if overdue = [] then
    pure ()
  else
    awaitLease (.expireOverdue instant)

/-! ## Protected sections -/

/-- What `acquireRunLease` asks for. -/
def runLeaseInput (projectId workItemId : String) (action : WorkItemRunAction)
    (ttlMs : Option Nat) : MutationLeaseInput where
  projectId := projectId
  lane := .dispatch
  ownerId := WorkItemRunLeaseService.deriveOwnerId projectId workItemId action
  conflictKeys := [WorkItemRunLeaseService.buildConflictKey projectId workItemId]
  laneCapacity := laneCapacity .dispatch
  ttlMs := some (ttlMs.getD workItemRunLeaseDefaultTtlMs)

/-- What `executeDirectMutationDecision` asks for; `fingerprint` is the hash in the idempotency key
of the decision. -/
def decisionLeaseInput (fingerprint : StructuredOrchestrationDecision → String)
    (projectId requester : String) (decision : StructuredOrchestrationDecision) :
    MutationLeaseInput where
  projectId := projectId
  lane := decision.lane
  ownerId := requester ++ ":" ++ "ceo-decision:" ++ projectId ++ ":" ++ fingerprint decision
  conflictKeys := buildDecisionConflictKeys decision
  laneCapacity := laneCapacity decision.lane

/-- A section under leases: what it protects runs between the grant and the first step of the
`finally` block. A refusal and an error of `acquire` skip both. -/
def runUnderLeases (input : MutationLeaseInput) : LeaseProg Unit := do
  match ← OrchestrationLeaseService.acquireMutationLeases input with
  | .refused _ => pure ()
  | .acquired _ => OrchestrationLeaseService.releaseOwned input.projectId input.ownerId

/-- The calls on the leases. -/
inductive LeaseCall where
  | acquire (input : AcquireLeaseInput)
  | release (leaseId : Nat) (ownerId : String)
  | heartbeat (leaseId ttlMs : Nat)
  | sweep
  | releaseAllForProject (projectId : String)
  | acquireCycleLease (projectId correlationId : String)
  | heartbeatCycleLease (projectId : String)
  | releaseCycleLease (projectId : String)
  | releaseOwned (projectId ownerId : String)
  | underLeases (input : MutationLeaseInput)
  | elapse (ms : Nat)

def LeaseCall.program : LeaseCall → LeaseProg Unit
  | .acquire input => do
      let _ ← OrchestrationLeaseService.acquire input
      pure ()
  | .release leaseId ownerId => do
      let _ ← awaitLease (.release leaseId ownerId)
      pure ()
  | .heartbeat leaseId ttlMs => awaitLease (.heartbeat leaseId ttlMs)
  | .sweep => sweepLeases
  | .releaseAllForProject projectId => do
      let _ ← awaitLease (.releaseAllForProject projectId)
      pure ()
  | .acquireCycleLease projectId correlationId => do
      let _ ← OrchestrationLeaseService.acquireCycleLease projectId correlationId
      pure ()
  | .heartbeatCycleLease projectId => OrchestrationLeaseService.heartbeatCycleLease projectId
  | .releaseCycleLease projectId => OrchestrationLeaseService.releaseCycleLease projectId
  | .releaseOwned projectId ownerId => OrchestrationLeaseService.releaseOwned projectId ownerId
  | .underLeases input => runUnderLeases input
  | .elapse ms => awaitLease (.elapse ms)

/-- Configurations of the calls. -/
abbrev LeaseSystem := Config Nat LeaseOp LeaseOp.Ans PgError Unit LeaseTable

def LeaseSystem.init (w : LeaseTable) (calls : Nat → LeaseCall) : LeaseSystem :=
  Pool.start w fun t => (calls t).program

end Nexus
