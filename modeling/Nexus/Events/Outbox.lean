import Nexus.Lib.Pool
import Nexus.Lib.TableRows
import Nexus.Workflow.StateVariables
import Mathlib.Data.List.Sort
import Mathlib.Data.List.Nodup

/-!
# The outbox of domain events

`OutboxDomainEventBus.publish` appends an event to the table `domain_event_outbox` and fans it out
in the process; `DomainEventOutboxWorker.drainPending` fans out the pending rows and marks them. The
fan-out is one operation here, and the table of the configuration decides which fan-outs find a
failing handler.
-/

set_option autoImplicit false

namespace Nexus

inductive DomainEventDeliveryStatus where
  | pending
  | delivered
  | failed
  deriving DecidableEq, Repr

structure DomainEventEnvelope where
  eventId : String
  eventType : String
  aggregateId : String
  aggregateType : String
  payload : List (String × Json) := []
  correlationId : Option String := none
  causationId : Option String := none
  occurredAt : Nat := 0

/-- A row of `domain_event_outbox`; `persistedAt` is assigned when the row is inserted. -/
structure DomainEventOutboxEntity extends DomainEventEnvelope where
  deliveryStatus : DomainEventDeliveryStatus
  attemptCount : Nat
  lastError : Option String
  persistedAt : Nat := 0

/-- The rows of the outbox, one for an id, the clock, and what the `n`-th fan-out of the process
does: `none` when every handler succeeds, otherwise the message of the error. -/
structure Outbox where
  rows : List DomainEventOutboxEntity := []
  keys : (rows.map fun row => row.eventId).Nodup := by exact List.nodup_nil
  clock : Nat := 0
  fanOuts : Nat := 0
  handlers : Nat → DomainEventEnvelope → Option String

namespace Outbox

def find (w : Outbox) (id : String) : Option DomainEventOutboxEntity :=
  w.rows.find? fun row => row.eventId = id

theorem find_eq_none {w : Outbox} {id : String} :
    w.find id = none ↔ id ∉ w.rows.map fun row => row.eventId := by
  simp [find]

/-- Changes the columns of one row. -/
def update (w : Outbox) (id : String)
    (f : DomainEventOutboxEntity → DomainEventOutboxEntity)
    (hf : ∀ row, (f row).eventId = row.eventId) : Outbox :=
  { w with
    rows := w.rows.map fun row => if row.eventId = id then f row else row
    keys := by
      have hids : (w.rows.map fun row => if row.eventId = id then f row else row).map
          (fun row => row.eventId) = w.rows.map fun row => row.eventId := by
        rw [List.map_map]
        apply List.map_congr_left
        intro row _
        simp only [Function.comp]
        split
        · exact hf row
        · rfl
      rw [hids]
      exact w.keys }

/-- `save`: an update of the row with the id, or an insert. -/
def save (w : Outbox) (entity : DomainEventOutboxEntity) : Outbox :=
  match hfind : w.find entity.eventId with
  | some _ =>
      w.update entity.eventId
        (fun row => { entity with eventId := row.eventId, persistedAt := row.persistedAt })
        fun _ => rfl
  | none =>
      { w with
        rows := w.rows ++ [{ entity with persistedAt := w.clock }]
        keys := by
          rw [List.map_append, List.map_singleton, ← List.concat_eq_append]
          exact w.keys.concat (find_eq_none.1 hfind)
        clock := w.clock + 1 }

/-- `findPending`: the oldest pending rows. -/
def findPending (w : Outbox) (limit : Nat) : List DomainEventOutboxEntity :=
  ((w.rows.filter fun row => row.deliveryStatus = .pending).insertionSort
    fun row row' => row.persistedAt ≤ row'.persistedAt).take limit

end Outbox

/-! ## Operations -/

inductive OutboxOp where
  | save (entity : DomainEventOutboxEntity)
  | findPending (limit : Nat)
  | updateStatus (eventId : String) (status : DomainEventDeliveryStatus)
      (lastError : Option String)
  | incrementAttemptCount (eventId : String)
  /-- `localFanout.publish`. -/
  | fanOut (event : DomainEventEnvelope)

abbrev OutboxOp.Ans : OutboxOp → Type
  | .save _ => Unit
  | .findPending _ => List DomainEventOutboxEntity
  | .updateStatus _ _ _ => Unit
  | .incrementAttemptCount _ => Unit
  | .fanOut _ => Option String

def OutboxOp.exec (w : Outbox) : (o : OutboxOp) → Outbox × o.Ans
  | .save entity => (w.save entity, ())
  | .findPending limit => (w, w.findPending limit)
  | .updateStatus id status lastError =>
      (w.update id
        (fun row =>
          { row with deliveryStatus := status, lastError := lastError.or row.lastError })
        fun _ => rfl, ())
  | .incrementAttemptCount id =>
      (w.update id (fun row => { row with attemptCount := row.attemptCount + 1 }) fun _ => rfl, ())
  | .fanOut event => ({ w with fanOuts := w.fanOuts + 1 }, w.handlers w.fanOuts event)

/-- The machine of the outbox; every operation is one statement or one fan-out. -/
def outboxMachine : Machine OutboxOp OutboxOp.Ans Outbox := ⟨OutboxOp.exec, fun _ _ => True⟩

instance (w : Outbox) (o : OutboxOp) : Decidable (outboxMachine.enabled w o) :=
  inferInstanceAs (Decidable True)

/-- The programs over the outbox; an exception is the error of a handler. -/
abbrev OutboxProg (α : Type) := Prog OutboxOp OutboxOp.Ans String α

def awaitOutbox (o : OutboxOp) : OutboxProg o.Ans := Prog.op o

/-! ## The store -/

namespace DatabaseDomainEventOutboxStore

/-- The entity `append` builds. -/
def newEntity (event : DomainEventEnvelope) : DomainEventOutboxEntity :=
  { event with
    payload := stripNullBytesFields event.payload
    deliveryStatus := .pending
    attemptCount := 0
    lastError := none }

def append (event : DomainEventEnvelope) : OutboxProg Unit := awaitOutbox (.save (newEntity event))

def listPending (limit : Nat) : OutboxProg (List DomainEventOutboxEntity) :=
  awaitOutbox (.findPending limit)

def markDelivered (eventId : String) : OutboxProg Unit :=
  awaitOutbox (.updateStatus eventId .delivered none)

def markFailed (eventId : String) (message : String) : OutboxProg Unit := do
  awaitOutbox (.incrementAttemptCount eventId)
  awaitOutbox (.updateStatus eventId .failed (some message))

end DatabaseDomainEventOutboxStore

open DatabaseDomainEventOutboxStore

/-! ## The bus and the worker -/

namespace OutboxDomainEventBus

def publish (event : DomainEventEnvelope) : OutboxProg Unit := do
  append event
  match ← awaitOutbox (.fanOut event) with
  | none => pure ()
  | some message => .fail message

def publishAll : List DomainEventEnvelope → OutboxProg Unit
  | [] => pure ()
  | event :: events => do
      publish event
      publishAll events

end OutboxDomainEventBus

/-- What a pass returns. -/
structure DrainResult where
  delivered : Nat := 0
  failed : Nat := 0

namespace DomainEventOutboxWorker

/-- The loop of a pass over the events it listed. -/
def drainEvents : List DomainEventOutboxEntity → DrainResult → OutboxProg DrainResult
  | [], result => pure result
  | event :: events, result => do
      match ← awaitOutbox (.fanOut event.toDomainEventEnvelope) with
      | none => do
          markDelivered event.eventId
          drainEvents events { result with delivered := result.delivered + 1 }
      | some message => do
          markFailed event.eventId message
          drainEvents events { result with failed := result.failed + 1 }

def drainPending (limit : Nat := 100) : OutboxProg DrainResult := do
  let pending ← listPending limit
  drainEvents pending {}

end DomainEventOutboxWorker

/-- The calls on the outbox. -/
inductive OutboxCall where
  | publish (event : DomainEventEnvelope)
  | publishAll (events : List DomainEventEnvelope)
  | drainPending (limit : Nat)

def OutboxCall.program : OutboxCall → OutboxProg Unit
  | .publish event => OutboxDomainEventBus.publish event
  | .publishAll events => OutboxDomainEventBus.publishAll events
  | .drainPending limit => do
      let _ ← DomainEventOutboxWorker.drainPending limit
      pure ()

/-- Configurations of the calls. -/
abbrev OutboxSystem := Config Nat OutboxOp OutboxOp.Ans String Unit Outbox

def OutboxSystem.init (w : Outbox) (calls : Nat → OutboxCall) : OutboxSystem :=
  Pool.start w fun t => (calls t).program

/-! ## Delivery status under the operations -/

namespace Outbox

variable {w : Outbox} {id : String}

def statusOf (w : Outbox) (id : String) : Option DomainEventDeliveryStatus :=
  (w.find id).map fun row => row.deliveryStatus

variable {id' : String}

theorem find_update {f : DomainEventOutboxEntity → DomainEventOutboxEntity}
    {hf : ∀ row, (f row).eventId = row.eventId} :
    (w.update id' f hf).find id =
      if id = id' then (w.find id).map f else w.find id :=
  TableRows.find?_change (fun row hid => (hf row).trans hid) id

theorem statusOf_updateStatus {status : DomainEventDeliveryStatus} {lastError : Option String} :
    ((OutboxOp.updateStatus id' status lastError).exec w).1.statusOf id =
      if id = id' then (w.statusOf id).map fun _ => status else w.statusOf id := by
  simp only [statusOf, OutboxOp.exec, find_update]
  split
  · cases w.find id <;> rfl
  · rfl

theorem statusOf_incrementAttemptCount :
    ((OutboxOp.incrementAttemptCount id').exec w).1.statusOf id = w.statusOf id := by
  simp only [statusOf, OutboxOp.exec, find_update]
  split
  · cases w.find id <;> rfl
  · rfl

/-- A saved entity that is new is in the table with the status it has. -/
theorem statusOf_save {entity : DomainEventOutboxEntity} (h : w.find entity.eventId = none) :
    (w.save entity).statusOf id =
      if id = entity.eventId then some entity.deliveryStatus else w.statusOf id := by
  unfold save
  split
  · rename_i hfind
    rw [h] at hfind
    cases hfind
  · simp only [statusOf, find, List.find?_append]
    by_cases hid : id = entity.eventId
    · have hnone : w.rows.find? (fun row => decide (row.eventId = entity.eventId)) = none := h
      subst hid
      simp [hnone]
    · cases w.rows.find? fun row => decide (row.eventId = id) <;> simp [hid, Ne.symm hid]

variable {limit : Nat} {row : DomainEventOutboxEntity}

theorem mem_findPending (h : row ∈ w.findPending limit) :
    row ∈ w.rows ∧ row.deliveryStatus = .pending := by
  have hmem := (List.mem_insertionSort _).1 (List.mem_of_mem_take h)
  simpa using List.mem_filter.1 hmem

theorem find_of_mem (h : row ∈ w.rows) : w.find row.eventId = some row := by
  have hkeys := w.keys
  simp only [find]
  generalize w.rows = rows at h hkeys
  induction rows with
  | nil => cases h
  | cons first rest ih =>
      rw [List.map_cons, List.nodup_cons] at hkeys
      rcases List.mem_cons.1 h with rfl | hrest
      · simp
      · have hne : first.eventId ≠ row.eventId := by
          intro heq
          exact hkeys.1 (heq ▸ List.mem_map.2 ⟨row, hrest, rfl⟩)
        rw [List.find?_cons_of_neg (by simpa using hne)]
        exact ih hrest hkeys.2

theorem statusOf_findPending (h : row ∈ w.findPending limit) :
    w.statusOf row.eventId = some .pending := by
  obtain ⟨hmem, hpending⟩ := mem_findPending h
  rw [statusOf, find_of_mem hmem, Option.map_some, hpending]

theorem findPending_nodup : ((w.findPending limit).map fun row => row.eventId).Nodup := by
  have hperm := List.perm_insertionSort (fun row row' : DomainEventOutboxEntity =>
    row.persistedAt ≤ row'.persistedAt) (w.rows.filter fun row => row.deliveryStatus = .pending)
  have hsub : ((w.rows.filter fun row => row.deliveryStatus = .pending).map
      fun row => row.eventId).Nodup :=
    w.keys.sublist (List.filter_sublist.map _)
  exact ((hperm.map _).nodup_iff.2 hsub).sublist ((List.take_sublist _ _).map _)

/-- A pending event is listed by a pass whose page is long enough. -/
theorem mem_findPending_of_statusOf (h : w.statusOf id = some .pending) :
    id ∈ (w.findPending w.rows.length).map fun row => row.eventId := by
  obtain ⟨row, hrow, hpending⟩ := Option.map_eq_some_iff.1 h
  have hid : row.eventId = id := by simpa using List.find?_some hrow
  have hmem : row ∈ w.rows := List.mem_of_find?_eq_some hrow
  refine List.mem_map.2 ⟨row, ?_, hid⟩
  have hlength : ((w.rows.filter fun row => row.deliveryStatus = .pending).insertionSort
      fun row row' => row.persistedAt ≤ row'.persistedAt).length ≤ w.rows.length := by
    rw [List.length_insertionSort]
    exact List.length_filter_le _ _
  rw [findPending, List.take_of_length_le hlength, List.mem_insertionSort, List.mem_filter]
  exact ⟨hmem, by simpa using hpending⟩

end Outbox

end Nexus
