import Nexus.Kanban.LifecycleStream
import Nexus.Lib.Charges
import Nexus.Lib.Interruption

/-!
# The books of the lifecycle stream

What the stream, its cursor, the dead letters and the work items say about the usage of ended runs,
for one of the two columns that usage is added to. Most statements leave these books alone; the
effect of the others is stated here, with what it does to a balance: every emitted charge is in the
ledger of the amounts already added, or is still owed by an entry that is waiting or parked.
-/

set_option autoImplicit false

namespace Nexus

open CoreLifecycleStreamConsumerService

/-! ## Charges -/

structure WorkItemKey where
  id : String
  project_id : String
  deriving DecidableEq, Repr

def KanbanWorkItemEntity.key (row : KanbanWorkItemEntity) : WorkItemKey := ⟨row.id, row.project_id⟩

/-- The event is one of a run of the work item; an event whose context names no project is when it
names the item. -/
def RunEvent.concerns (event : RunEvent) (key : WorkItemKey) : Bool :=
  event.realWorkItem = some key.id && event.contextProject.all (· = key.project_id)

/-- The two columns that accumulate the usage of runs. -/
inductive SpendKind where
  | tokens
  | cents
  deriving DecidableEq, Repr

namespace SpendKind

/-- The usage of the run. -/
def amount : SpendKind → RunEvent → Nat
  | .tokens => readUsageTotalTokens
  | .cents => readUsageEstimatedCostCents

def spend : SpendKind → KanbanWorkItemEntity → Nat
  | .tokens => KanbanWorkItemEntity.token_spend
  | .cents => KanbanWorkItemEntity.cost_cents

/-- The addition to the column. -/
def addition : SpendKind → String → String → Nat → LifecycleOp
  | .tokens => .addTokenSpend
  | .cents => .addCostSpend

def charging (kind : SpendKind) : Charging RunEvent WorkItemKey String where
  key := RunEvent.run_id
  concerns := RunEvent.concerns
  amount := kind.amount

end SpendKind

/-- The terminal event in an entry, when its run used something and is one of a work item. -/
def chargedEvent (reader : EnvelopeReader) (keys : List WorkItemKey) (fields : Fields) :
    Option RunEvent :=
  if routerHandles (OrderedMap.get? fields "event_type") then
    none
  else
    match parseEnvelope reader (OrderedMap.get? fields "envelope") with
    | .ok (.run event) =>
        if event.terminalStatus.isSome && (0 < SpendKind.tokens.amount event ||
            0 < SpendKind.cents.amount event) && keys.any event.concerns then
          some event
        else none
    | _ => none

namespace LifecycleStore

def keys (db : LifecycleStore) : List WorkItemKey := db.items.map KanbanWorkItemEntity.key

/-- The number of entries up to the cursor. -/
def consumed (db : LifecycleStore) : Nat := db.cursor.elim 0 (· + 1)

end LifecycleStore

/-- The statement brings an amount, or an entry with one, to a second place. -/
def LifecycleOp.charges (reader : EnvelopeReader) (keys : List WorkItemKey) : LifecycleOp → Bool
  | .addTokenSpend projectId workItemId _ => ⟨workItemId, projectId⟩ ∈ keys
  | .addCostSpend projectId workItemId _ => ⟨workItemId, projectId⟩ ∈ keys
  | .saveDeadLetter _ _ payload => (chargedEvent reader keys payload).isSome
  | .xadd rawFields => (chargedEvent reader keys (toFields rawFields)).isSome
  | _ => false

/-- A charge is in two places: it has been added, parked or sent again, and neither the cursor nor
the deletion of a dead letter says so yet. -/
def LifecycleStore.unsettled (reader : EnvelopeReader) (db : LifecycleStore) : Bool :=
  db.recent.any (LifecycleOp.charges reader db.keys)

/-! ## Books -/

/-- The part of a store that says what is charged in one column. -/
structure Books where
  stream : List Fields
  consumed : Nat
  deadLetters : List (Nat × Option Fields)
  parked : Nat
  accounts : List (WorkItemKey × Nat)

def LifecycleStore.books (db : LifecycleStore) (kind : SpendKind) : Books where
  stream := db.stream.map toFields
  consumed := db.consumed
  deadLetters := db.deadLetters.map fun row => (row.id, row.payload)
  parked := db.parked
  accounts := db.items.map fun row => (row.key, kind.spend row)

namespace Books

variable (reader : EnvelopeReader) (b : Books)

def keys : List WorkItemKey := b.accounts.map Prod.fst

/-- The charges that were emitted on the stream. -/
def emitted : List RunEvent := b.stream.filterMap (chargedEvent reader b.keys)

/-- The charges of the dead letters. -/
def parkedCharges : List RunEvent :=
  b.deadLetters.filterMap fun row => row.2.bind (chargedEvent reader b.keys)

/-- The charges that are waiting from a position of the stream on, or parked. -/
def owed (n : Nat) : List RunEvent :=
  (b.stream.drop n).filterMap (chargedEvent reader b.keys) ++ b.parkedCharges reader

/-- The books after the deletion of a dead letter. -/
def discard (id : Nat) : Books :=
  { b with deadLetters := b.deadLetters.filter fun row => row.1 ≠ id }

/-- The books after an addition to an account. -/
def credit (key : WorkItemKey) (amount : Nat) : Books :=
  { b with accounts := b.accounts.map fun a => if a.1 = key then (a.1, a.2 + amount) else a }

/-- The columns are what they were at the start and the charges of the ledger, each of which has
been added once; the entries from position `n` on and the dead letters owe the rest. -/
structure Balanced (kind : SpendKind) (start : List (WorkItemKey × Nat)) (n : Nat) : Prop where
  bound : n ≤ b.stream.length
  ids : (b.deadLetters.map Prod.fst).Nodup
  fresh : ∀ row ∈ b.deadLetters, row.1 < b.parked
  payloads : ∀ row ∈ b.deadLetters, ∀ fields ∈ row.2, toFields fields = fields
  projects : ∀ key ∈ b.keys, key.project_id ≠ ""
  split : ∃ ledger, kind.charging.Splits (b.emitted reader) (b.owed reader n) ledger ∧
    ∀ a ∈ b.accounts, ∀ a₀ ∈ start, a₀.1 = a.1 → a.2 = a₀.2 + kind.charging.total ledger a.1

section Owed

variable {reader b} {n : Nat} {fields : Fields}

theorem drop_of_getElem? {l : List Fields} (h : l[n]? = some fields) :
    l.drop n = fields :: l.drop (n + 1) := by
  obtain ⟨hlt, rfl⟩ := List.getElem?_eq_some_iff.1 h
  exact List.drop_eq_getElem_cons hlt

theorem owed_of_none (h : b.stream[n]? = some fields)
    (hnone : chargedEvent reader b.keys fields = none) :
    b.owed reader n = b.owed reader (n + 1) := by
  rw [owed, owed, drop_of_getElem? h, List.filterMap_cons_none hnone]

theorem owed_of_some {event : RunEvent} (h : b.stream[n]? = some fields)
    (hsome : chargedEvent reader b.keys fields = some event) :
    b.owed reader n = event :: b.owed reader (n + 1) := by
  rw [owed, owed, drop_of_getElem? h, List.filterMap_cons_some hsome, List.cons_append]

end Owed

end Books

theorem nodup_keys_toFields (rawFields : RawFields) :
    (OrderedMap.keys (toFields rawFields)).Nodup := by
  have hgen : ∀ (l : RawFields) (m : Fields), (OrderedMap.keys m).Nodup → (OrderedMap.keys
      (l.foldl (fun fields field => OrderedMap.set fields field.1 field.2) m)).Nodup := by
    intro l
    induction l with
    | nil => exact fun m h => h
    | cons field l ih => exact fun m h => ih _ (OrderedMap.nodup_keys_set h field.1 field.2)
  exact hgen rawFields [] List.nodup_nil

/-- Fields that were read off an entry are read off again from the entry they are sent in. -/
theorem toFields_toFields (rawFields : RawFields) :
    toFields (toFields rawFields) = toFields rawFields := by
  have h := OrderedMap.foldl_set_nil Prod.fst Prod.snd (toFields rawFields)
    (nodup_keys_toFields rawFields)
  simpa [toFields] using h

/-- A list with distinct keys is one of its entries and the entries with the other keys. -/
theorem perm_cons_filter_key {β κ : Type} [DecidableEq κ] (key : β → κ) {l : List β}
    (hl : (l.map key).Nodup) {a : β} (ha : a ∈ l) :
    l.Perm (a :: l.filter fun b => key b ≠ key a) := by
  induction l with
  | nil => cases ha
  | cons b l ih =>
      rw [List.map_cons, List.nodup_cons] at hl
      rcases List.mem_cons.1 ha with rfl | hmem
      · have hrest : (l.filter fun b => key b ≠ key a) = l := by
          apply List.filter_eq_self.2
          intro b hb
          have : key b ≠ key a := fun heq => hl.1 (heq ▸ List.mem_map_of_mem hb)
          simpa using this
        rw [List.filter_cons_of_neg (by simp), hrest]
      · have hne : key b ≠ key a := fun heq => hl.1 (heq ▸ List.mem_map_of_mem hmem)
        rw [List.filter_cons_of_pos (by simpa using hne)]
        exact ((ih hl.2 hmem).cons b).trans (List.Perm.swap _ _ _)

/-! ## Balances -/

namespace Books

/-- The books after an entry was kept as a dead letter. -/
def park (b : Books) (fields : Fields) : Books :=
  { b with deadLetters := b.deadLetters ++ [(b.parked, some fields)], parked := b.parked + 1 }

/-- The books after an entry was appended to the stream. -/
def send (b : Books) (fields : Fields) : Books := { b with stream := b.stream ++ [fields] }

@[simp] theorem keys_discard (b : Books) (id : Nat) : (b.discard id).keys = b.keys := rfl

@[simp] theorem keys_park (b : Books) (fields : Fields) : (b.park fields).keys = b.keys := rfl

@[simp] theorem keys_send (b : Books) (fields : Fields) : (b.send fields).keys = b.keys := rfl

@[simp] theorem keys_credit (b : Books) (key : WorkItemKey) (amount : Nat) :
    (b.credit key amount).keys = b.keys := by
  simp only [keys, credit, List.map_map]
  apply List.map_congr_left
  intro a _
  by_cases h : a.1 = key <;> simp [h]

/-- Two books with the same stream, dead letters and keys owe the same. -/
theorem owed_congr (reader : EnvelopeReader) (b' b : Books) (hstream : b'.stream = b.stream)
    (hletters : b'.deadLetters = b.deadLetters) (hkeys : b'.keys = b.keys) :
    b'.emitted reader = b.emitted reader ∧ ∀ n, b'.owed reader n = b.owed reader n := by
  constructor
  · rw [emitted, emitted, hstream, hkeys]
  · intro n
    rw [owed, owed, parkedCharges, parkedCharges, hstream, hletters, hkeys]

namespace Balanced

variable {reader : EnvelopeReader} {b : Books} {kind : SpendKind}
  {start : List (WorkItemKey × Nat)} {n : Nat} {fields : Fields}

theorem lt_length (h : b.stream[n]? = some fields) : n < b.stream.length :=
  (List.getElem?_eq_some_iff.1 h).1

/-- An entry that charges nothing in the column is passed over. -/
theorem skip (h : b.Balanced reader kind start n) (hn : b.stream[n]? = some fields)
    (hzero : ∀ event ∈ chargedEvent reader b.keys fields, kind.amount event = 0) :
    b.Balanced reader kind start (n + 1) := by
  obtain ⟨ledger, hsplits, htotal⟩ := h.split
  refine ⟨lt_length hn, h.ids, h.fresh, h.payloads, h.projects, ?_⟩
  cases hcharged : chargedEvent reader b.keys fields with
  | none => exact ⟨ledger, owed_of_none hn hcharged ▸ hsplits, htotal⟩
  | some event =>
      rw [owed_of_some hn hcharged] at hsplits
      refine ⟨ledger ++ [event], hsplits.charge, fun a ha a₀ ha₀ hkey => ?_⟩
      have hamount : kind.charging.amount event = 0 := hzero event hcharged
      rw [htotal a ha a₀ ha₀ hkey, Charging.total_append, Charging.total_singleton, hamount,
        ite_self, Nat.add_zero]

/-- The addition of what an entry charges settles the entry. -/
theorem credit {event : RunEvent} {key : WorkItemKey} (h : b.Balanced reader kind start n)
    (hn : b.stream[n]? = some fields) (hcharged : chargedEvent reader b.keys fields = some event)
    (hkey : ∀ k ∈ b.keys, event.concerns k = decide (k = key)) :
    (b.credit key (kind.amount event)).Balanced reader kind start (n + 1) := by
  obtain ⟨ledger, hsplits, htotal⟩ := h.split
  rw [owed_of_some hn hcharged] at hsplits
  refine ⟨lt_length hn, h.ids, h.fresh, h.payloads, by simpa using h.projects,
    ledger ++ [event], ?_, ?_⟩
  · obtain ⟨hemitted, howed⟩ := owed_congr reader (b.credit key (kind.amount event)) b rfl rfl
      (keys_credit b key _)
    rw [hemitted, howed]
    exact hsplits.charge
  · intro a ha a₀ ha₀ hstart
    obtain ⟨row, hrow, rfl⟩ := List.mem_map.1 ha
    have hconcerns : kind.charging.concerns event row.1 = decide (row.1 = key) :=
      hkey row.1 (List.mem_map_of_mem hrow)
    have hamount : kind.charging.amount event = kind.amount event := rfl
    by_cases heq : row.1 = key
    · rw [if_pos heq] at hstart ⊢
      have hrowTotal := htotal row hrow a₀ ha₀ hstart
      dsimp only
      rw [Charging.total_append, Charging.total_singleton, hconcerns, decide_eq_true heq, if_pos rfl,
        hamount, hrowTotal, Nat.add_assoc]
    · rw [if_neg heq] at hstart ⊢
      have hrowTotal := htotal row hrow a₀ ha₀ hstart
      rw [Charging.total_append, Charging.total_singleton, hconcerns, decide_eq_false heq]
      simpa using hrowTotal

theorem parkedCharges_park (b : Books) (fields : Fields) :
    (b.park fields).parkedCharges reader =
      b.parkedCharges reader ++ (chargedEvent reader b.keys fields).toList := by
  rw [parkedCharges, keys_park, Books.park, parkedCharges, List.filterMap_append]
  congr 1

/-- What does not change when an entry is kept as a dead letter. -/
theorem park_of_splits {m : Nat} (h : b.Balanced reader kind start n)
    (hfields : toFields fields = fields) (hm : m ≤ b.stream.length)
    (howed : (b.owed reader n).Perm ((b.park fields).owed reader m)) :
    (b.park fields).Balanced reader kind start m where
  bound := hm
  ids := by
    rw [Books.park, List.map_append]
    refine List.nodup_append.2 ⟨h.ids, by simp, ?_⟩
    intro id hid id' hid' heq
    obtain ⟨row, hrow, rfl⟩ := List.mem_map.1 hid
    rw [List.map_singleton, List.mem_singleton] at hid'
    have := h.fresh row hrow
    omega
  fresh := by
    intro row hrow
    rcases List.mem_append.1 hrow with hrow | hrow
    · exact Nat.lt_succ_of_lt (h.fresh row hrow)
    · rw [List.mem_singleton.1 hrow]
      exact Nat.lt_succ_self _
  payloads := by
    intro row hrow
    rcases List.mem_append.1 hrow with hrow | hrow
    · exact h.payloads row hrow
    · rw [List.mem_singleton.1 hrow]
      intro fields' hfields'
      rw [← Option.mem_some_iff.1 hfields', hfields]
  projects := h.projects
  split := by
    obtain ⟨ledger, hsplits, htotal⟩ := h.split
    exact ⟨ledger, hsplits.perm howed, htotal⟩

/-- A dead letter owes what its entry owed. -/
theorem park (h : b.Balanced reader kind start n) (hn : b.stream[n]? = some fields)
    (hfields : toFields fields = fields) :
    (b.park fields).Balanced reader kind start (n + 1) := by
  apply h.park_of_splits hfields (lt_length hn)
  have howed : b.owed reader n =
      (chargedEvent reader b.keys fields).toList ++ b.owed reader (n + 1) := by
    cases hcharged : chargedEvent reader b.keys fields with
    | none => simpa using owed_of_none hn hcharged
    | some event => simpa using owed_of_some hn hcharged
  have hpark : (b.park fields).owed reader (n + 1) =
      b.owed reader (n + 1) ++ (chargedEvent reader b.keys fields).toList := by
    rw [owed, parkedCharges_park, ← List.append_assoc]
    rfl
  rw [howed, hpark]
  exact List.perm_append_comm

/-- A dead letter without a charge owes nothing. -/
theorem park_of_none (h : b.Balanced reader kind start n) (hfields : toFields fields = fields)
    (hnone : chargedEvent reader b.keys fields = none) :
    (b.park fields).Balanced reader kind start n := by
  apply h.park_of_splits hfields h.bound
  have hpark : (b.park fields).owed reader n = b.owed reader n := by
    rw [owed, parkedCharges_park, hnone, Option.toList_none, List.append_nil]
    rfl
  rw [hpark]

theorem emitted_send (b : Books) (fields : Fields) :
    (b.send fields).emitted reader =
      b.emitted reader ++ (chargedEvent reader b.keys fields).toList := by
  rw [emitted, keys_send, Books.send, emitted, List.filterMap_append]
  congr 1

theorem owed_send (h : b.Balanced reader kind start n) (fields : Fields) :
    ((b.send fields).owed reader n).Perm
      (b.owed reader n ++ (chargedEvent reader b.keys fields).toList) := by
  have hdrop : (b.send fields).stream.drop n = b.stream.drop n ++ [fields] :=
    List.drop_append_of_le_length h.bound
  have hlast : [fields].filterMap (chargedEvent reader b.keys) =
      (chargedEvent reader b.keys fields).toList := by
    cases hcharged : chargedEvent reader b.keys fields with
    | none => simp [hcharged]
    | some event => simp [hcharged]
  rw [owed, hdrop, keys_send, List.filterMap_append, hlast, owed, List.append_assoc,
    List.append_assoc]
  exact (List.perm_append_comm).append_left _

/-- An entry whose charge is of a run without one owes it. -/
theorem send_new (h : b.Balanced reader kind start n)
    (hnew : ∀ event ∈ chargedEvent reader b.keys fields,
      event.run_id ∉ (b.emitted reader).map RunEvent.run_id) :
    (b.send fields).Balanced reader kind start n := by
  obtain ⟨ledger, hsplits, htotal⟩ := h.split
  refine ⟨?_, h.ids, h.fresh, h.payloads, h.projects, ledger, ?_, htotal⟩
  · rw [Books.send, List.length_append]
    exact Nat.le_add_right_of_le h.bound
  · rw [emitted_send]
    apply Charging.Splits.perm _ (h.owed_send fields).symm
    cases hcharged : chargedEvent reader b.keys fields with
    | none => simpa using hsplits
    | some event => exact hsplits.emit (hnew event hcharged)

theorem parkedCharges_discard {id : Nat} (h : b.Balanced reader kind start n)
    (hrow : (id, some fields) ∈ b.deadLetters) :
    (b.parkedCharges reader).Perm ((b.discard id).parkedCharges reader ++
      (chargedEvent reader b.keys fields).toList) := by
  have hperm := (perm_cons_filter_key Prod.fst h.ids hrow).filterMap
    fun row => row.2.bind (chargedEvent reader b.keys)
  apply hperm.trans
  cases hcharged : chargedEvent reader b.keys fields with
  | none =>
      rw [List.filterMap_cons_none (by simpa using hcharged), Option.toList_none, List.append_nil]
      exact List.Perm.refl _
  | some event =>
      rw [List.filterMap_cons_some (by simpa using hcharged)]
      exact (List.perm_append_singleton event _).symm

/-- A dead letter that is sent again and then deleted is owed by the new entry. -/
theorem resend {id : Nat} (h : b.Balanced reader kind start n)
    (hrow : (id, some fields) ∈ b.deadLetters) :
    ((b.send fields).discard id).Balanced reader kind start n := by
  obtain ⟨ledger, hsplits, htotal⟩ := h.split
  have hsub : ∀ row ∈ ((b.send fields).discard id).deadLetters, row ∈ b.deadLetters :=
    fun row hrow => (List.mem_filter.1 hrow).1
  have howed : ((b.send fields).discard id).owed reader n =
      ((b.send fields).stream.drop n).filterMap (chargedEvent reader b.keys) ++
        (b.discard id).parkedCharges reader := rfl
  have hdrop : (b.send fields).stream.drop n = b.stream.drop n ++ [fields] :=
    List.drop_append_of_le_length h.bound
  have hlast : [fields].filterMap (chargedEvent reader b.keys) =
      (chargedEvent reader b.keys fields).toList := rfl
  -- What the row owed is owed by the entry that was appended.
  have hmoved : (b.owed reader n).Perm (((b.send fields).discard id).owed reader n) := by
    rw [howed, hdrop, List.filterMap_append, hlast, List.append_assoc, owed]
    exact ((h.parkedCharges_discard hrow).trans List.perm_append_comm).append_left _
  refine ⟨?_, h.ids.sublist (List.filter_sublist.map _),
    fun row hrow => h.fresh row (hsub row hrow), fun row hrow => h.payloads row (hsub row hrow), h.projects, ledger, ?_, htotal⟩
  · have := h.bound
    simp only [discard, Books.send, List.length_append]
    omega
  · have hemitted : ((b.send fields).discard id).emitted reader =
        b.emitted reader ++ (chargedEvent reader b.keys fields).toList := emitted_send b fields
    rw [hemitted]
    apply Charging.Splits.perm _ hmoved
    cases hcharged : chargedEvent reader b.keys fields with
    | none => simpa using hsplits
    | some event =>
        apply hsplits.again
        rw [hsplits.mem]
        have hparked : event ∈ b.parkedCharges reader :=
          List.mem_filterMap.2 ⟨_, hrow, by simpa using hcharged⟩
        exact List.mem_append_right _ (List.mem_append_right _ hparked)

/-- Sending a dead letter without a charge again changes nothing. -/
theorem send_of_none (h : b.Balanced reader kind start n)
    (hnone : chargedEvent reader b.keys fields = none) :
    (b.send fields).Balanced reader kind start n := by
  apply h.send_new
  intro event hevent
  rw [hnone] at hevent
  cases hevent

end Balanced

end Books

/-! ## What the statements do to the books -/

/-- The statement leaves the stream, its cursor and the dead letters alone, and adds nothing to the
column of an account. -/
def LifecycleOp.IsAside (kind : SpendKind) (keys : List WorkItemKey) : LifecycleOp → Prop
  | .saveCursor _ => False
  | .xadd _ => False
  | .saveDeadLetter _ _ _ => False
  | .deleteDeadLetter _ => False
  | .addTokenSpend projectId workItemId _ => kind = .cents ∨ ⟨workItemId, projectId⟩ ∉ keys
  | .addCostSpend projectId workItemId _ => kind = .tokens ∨ ⟨workItemId, projectId⟩ ∉ keys
  | _ => True

namespace LifecycleStore

variable {reader : EnvelopeReader} {kind : SpendKind} {db : LifecycleStore} {o : LifecycleOp}
  {message : String}

theorem exec_throws (h : db.outcome.error = some message) :
    o.exec db = (db.tick, .error message) := by
  simp [LifecycleOp.exec, h]

theorem exec_returns (h : db.outcome.error = none) :
    o.exec db = ({ (o.effect db).1 with issued := db.issued + 1, recent := o.recorded db.recent },
      .ok (o.effect db).2) := by
  simp [LifecycleOp.exec, h]

@[simp] theorem books_keys (db : LifecycleStore) (kind : SpendKind) :
    (db.books kind).keys = db.keys := by
  simp [Books.keys, books, keys]

variable {f : KanbanWorkItemEntity → KanbanWorkItemEntity}

/-- An update of the rows that keeps the keys and the column keeps the accounts. -/
theorem books_updateItems {p : KanbanWorkItemEntity → Bool} (hkey : ∀ row, (f row).key = row.key)
    (hspend : ∀ row ∈ db.items, p row → kind.spend (f row) = kind.spend row) :
    (db.updateItems p f).books kind = db.books kind := by
  simp only [books, updateItems, consumed, List.map_map, Books.mk.injEq, true_and]
  apply List.map_congr_left
  intro row hrow
  by_cases h : p row = true
  · simp [h, hkey, hspend row hrow h]
  · simp [h]

theorem keys_updateItems {p : KanbanWorkItemEntity → Bool} (hkey : ∀ row, (f row).key = row.key) :
    (db.updateItems p f).keys = db.keys := by
  rw [keys, updateItems, List.map_map]
  apply List.map_congr_left
  intro row _
  by_cases h : p row = true
  · simp [h, hkey]
  · simp [h]

/-- No statement creates, deletes or moves a work item. -/
theorem keys_exec (db : LifecycleStore) (o : LifecycleOp) : (o.exec db).1.keys = db.keys := by
  cases houtcome : db.outcome.error with
  | some message => rw [exec_throws houtcome]; rfl
  | none =>
      rw [exec_returns houtcome]
      show (o.effect db).1.keys = db.keys
      cases o with
      | linkRunIfUnlinked projectId workItemId runId => exact keys_updateItems fun _ => rfl
      | clearRunLinksIfMatches projectId workItemId runId lastExecutionStatus =>
          exact keys_updateItems fun _ => rfl
      | recordExecutionStatus projectId workItemId runId status =>
          exact keys_updateItems fun _ => rfl
      | addTokenSpend projectId workItemId amount => exact keys_updateItems fun _ => rfl
      | addCostSpend projectId workItemId amountCents => exact keys_updateItems fun _ => rfl
      | _ => rfl

variable {projectId workItemId : String}

theorem isRow_iff {row : KanbanWorkItemEntity} :
    row.isRow projectId workItemId = true ↔ row.key = ⟨workItemId, projectId⟩ := by
  simp [WorkItem.isRow, KanbanWorkItemEntity.key]

/-- An addition in the other column, or to a row that is not there, leaves the accounts alone. -/
theorem books_addition_aside (hkey : ∀ row, (f row).key = row.key)
    (h : (∀ row, kind.spend (f row) = kind.spend row) ∨ ⟨workItemId, projectId⟩ ∉ db.keys) :
    (db.updateItems (fun row => row.isRow projectId workItemId) f).books kind = db.books kind := by
  apply books_updateItems hkey
  intro row hrow hmatches
  rcases h with hspend | habsent
  · exact hspend row
  · exact absurd (isRow_iff.1 hmatches ▸ List.mem_map_of_mem hrow) habsent

theorem books_effect_aside (h : o.IsAside kind db.keys) :
    (o.effect db).1.books kind = db.books kind := by
  cases o with
  | saveCursor streamId => exact h.elim
  | xadd rawFields => exact h.elim
  | saveDeadLetter streamId reason payload => exact h.elim
  | deleteDeadLetter id => exact h.elim
  | addTokenSpend projectId workItemId amount =>
      have haside := h.imp_left fun hkind row => by
        show kind.spend { row with token_spend := row.token_spend + amount } = kind.spend row
        rw [hkind]
        rfl
      exact books_addition_aside (fun _ => rfl) haside
  | addCostSpend projectId workItemId amountCents =>
      have haside := h.imp_left fun hkind row => by
        show kind.spend { row with cost_cents := row.cost_cents + amountCents } = kind.spend row
        rw [hkind]
        rfl
      exact books_addition_aside (fun _ => rfl) haside
  | linkRunIfUnlinked projectId workItemId runId =>
      exact books_updateItems (fun _ => rfl) fun _ _ _ => by cases kind <;> rfl
  | clearRunLinksIfMatches projectId workItemId runId lastExecutionStatus =>
      exact books_updateItems (fun _ => rfl) fun _ _ _ => by cases kind <;> rfl
  | recordExecutionStatus projectId workItemId runId status =>
      exact books_updateItems (fun _ => rfl) fun _ _ _ => by cases kind <;> rfl
  | _ => rfl

/-- A statement that is aside leaves the books alone, whether or not it throws. -/
theorem books_exec_aside (kind : SpendKind) (db : LifecycleStore)
    (h : o.IsAside kind db.keys) :
    (o.exec db).1.books kind = db.books kind := by
  cases houtcome : db.outcome.error with
  | some message => rw [exec_throws houtcome]; rfl
  | none =>
      rw [exec_returns houtcome]
      exact books_effect_aside h

/-- Only a saved cursor and a deleted dead letter settle charges. -/
theorem unsettled_exec (hsave : ∀ streamId, o ≠ .saveCursor streamId)
    (hdelete : ∀ id, o ≠ .deleteDeadLetter id) (h : db.unsettled reader = true) :
    (o.exec db).1.unsettled reader = true := by
  rw [unsettled, keys_exec]
  cases houtcome : db.outcome.error with
  | some message => rw [exec_throws houtcome]; exact h
  | none =>
      rw [exec_returns houtcome]
      have hrecorded : o.recorded db.recent = o :: db.recent := by
        cases o with
        | saveCursor streamId => exact absurd rfl (hsave streamId)
        | deleteDeadLetter id => exact absurd rfl (hdelete id)
        | _ => rfl
      simp only [hrecorded, List.any_cons, Bool.or_eq_true]
      exact Or.inr h

/-! ### The statements that write the books -/

theorem saveCursor_books (reader : EnvelopeReader) (kind : SpendKind) (streamId : Nat)
    (h : db.outcome.error = none) :
    ((LifecycleOp.saveCursor streamId).exec db).1.books kind =
        { db.books kind with consumed := streamId + 1 } ∧
      ((LifecycleOp.saveCursor streamId).exec db).1.unsettled reader = false := by
  rw [exec_returns h]
  exact ⟨rfl, rfl⟩

theorem deleteDeadLetter_books (reader : EnvelopeReader) (kind : SpendKind) (id : Nat)
    (h : db.outcome.error = none) :
    ((LifecycleOp.deleteDeadLetter id).exec db).1.books kind = (db.books kind).discard id ∧
      ((LifecycleOp.deleteDeadLetter id).exec db).1.unsettled reader = false := by
  rw [exec_returns h]
  refine ⟨?_, rfl⟩
  simp only [books, LifecycleOp.effect, Books.discard, consumed, Books.mk.injEq, true_and, and_true]
  rw [List.filter_map]
  rfl

theorem saveDeadLetter_books (reader : EnvelopeReader) (kind : SpendKind) (streamId : Nat)
    (reason : String) (payload : Fields) (h : db.outcome.error = none) :
    ((LifecycleOp.saveDeadLetter streamId reason payload).exec db).1.books kind =
        (db.books kind).park payload ∧
      ((chargedEvent reader db.keys payload).isSome = true →
        ((LifecycleOp.saveDeadLetter streamId reason payload).exec db).1.unsettled reader = true) := by
  rw [exec_returns h]
  constructor
  · simp [books, LifecycleOp.effect, Books.park, consumed]
  · intro hcharged
    simp only [unsettled, LifecycleOp.recorded, List.any_cons, Bool.or_eq_true]
    exact Or.inl hcharged

theorem xadd_books (reader : EnvelopeReader) (kind : SpendKind) (rawFields : RawFields)
    (h : db.outcome.error = none) :
    ((LifecycleOp.xadd rawFields).exec db).1.books kind =
        (db.books kind).send (toFields rawFields) ∧
      ((chargedEvent reader db.keys (toFields rawFields)).isSome = true →
        ((LifecycleOp.xadd rawFields).exec db).1.unsettled reader = true) := by
  rw [exec_returns h]
  constructor
  · simp [books, LifecycleOp.effect, Books.send, consumed]
  · intro hcharged
    simp only [unsettled, LifecycleOp.recorded, List.any_cons, Bool.or_eq_true]
    exact Or.inl hcharged

theorem books_credit {amount : Nat} (hkey : ∀ row, (f row).key = row.key)
    (hspend : ∀ row, kind.spend (f row) = kind.spend row + amount) :
    (db.updateItems (fun row => row.isRow projectId workItemId) f).books kind =
      (db.books kind).credit ⟨workItemId, projectId⟩ amount := by
  simp only [books, Books.credit, updateItems, consumed, List.map_map, Books.mk.injEq, true_and]
  apply List.map_congr_left
  intro row _
  by_cases hrow : row.key = ⟨workItemId, projectId⟩
  · simp [isRow_iff.2 hrow, hkey, hspend, hrow]
  · have hother : row.isRow projectId workItemId = false := by
      rw [← Bool.not_eq_true, isRow_iff]
      exact hrow
    simp [hother, hrow]

theorem addition_books (reader : EnvelopeReader) (kind : SpendKind)
    (projectId workItemId : String) (amount : Nat) (h : db.outcome.error = none) :
    ((kind.addition projectId workItemId amount).exec db).1.books kind =
        (db.books kind).credit ⟨workItemId, projectId⟩ amount ∧
      (⟨workItemId, projectId⟩ ∈ db.keys →
        ((kind.addition projectId workItemId amount).exec db).1.unsettled reader = true) := by
  have heffect : ((kind.addition projectId workItemId amount).effect db).1.books kind =
      (db.books kind).credit ⟨workItemId, projectId⟩ amount := by
    cases kind with
    | tokens =>
        show (db.updateItems (fun row => row.isRow projectId workItemId) fun row =>
          { row with token_spend := row.token_spend + amount }).books .tokens = _
        apply books_credit
        · exact fun _ => rfl
        · exact fun _ => rfl
    | cents =>
        show (db.updateItems (fun row => row.isRow projectId workItemId) fun row =>
          { row with cost_cents := row.cost_cents + amount }).books .cents = _
        apply books_credit
        · exact fun _ => rfl
        · exact fun _ => rfl
  have hbooks : ((kind.addition projectId workItemId amount).exec db).1.books kind =
      (db.books kind).credit ⟨workItemId, projectId⟩ amount := by
    rw [exec_returns h]
    exact heffect
  refine ⟨hbooks, fun hmem => ?_⟩
  rw [unsettled, keys_exec, exec_returns h]
  cases kind with
  | tokens => simp [SpendKind.addition, LifecycleOp.recorded, LifecycleOp.charges, hmem]
  | cents => simp [SpendKind.addition, LifecycleOp.recorded, LifecycleOp.charges, hmem]

end LifecycleStore

end Nexus
