import Nexus.Kanban.RunCharges

/-!
# Each run is charged once

Runs of the consumer: entries are emitted, polls read from the stored cursor and dead letters are
replayed, and every poll and replay may be cut off after any number of statements. The usage that a
work item accumulates is the sum over its distinct terminal runs as long as every run ends with one
event and no charge is left in two places.
-/

set_option autoImplicit false

namespace Nexus

/-! ## Runs of calls -/

inductive LifecycleInput where
  /-- Core appends an entry to the stream. -/
  | emit (rawFields : RawFields)
  /-- `replayFromCursor`, cut off after a number of statements. -/
  | poll (statements : Nat)
  /-- `replayDeadLetters`, cut off after a number of statements. -/
  | replay (proposalIds : List String) (batches statements : Nat)

namespace LifecycleInput

variable (reader : EnvelopeReader) (db : LifecycleStore)

/-- The store after the call. -/
def next : LifecycleInput → LifecycleStore
  | .emit rawFields => { db with stream := db.stream ++ [rawFields] }
  | .poll statements =>
      (CoreLifecycleStreamConsumerService.replayFromCursor reader).runFor LifecycleOp.exec
        statements db
  | .replay proposalIds batches statements =>
      (DeadLetterReplay.replayDeadLetters reader proposalIds batches).runFor LifecycleOp.exec
        statements db

/-- The statements that the call issues, each with the store it is issued in. -/
def steps : LifecycleInput → List (LifecycleStore × LifecycleOp)
  | .emit _ => []
  | .poll statements =>
      (CoreLifecycleStreamConsumerService.replayFromCursor reader).stepsFor LifecycleOp.exec
        statements db
  | .replay proposalIds batches statements =>
      (DeadLetterReplay.replayDeadLetters reader proposalIds batches).stepsFor LifecycleOp.exec
        statements db

/-- A run that has a charge on the stream gets no second one; the statements of a call count once;
and the call does not stop while a charge is in two places. -/
def CountsOnce (input : LifecycleInput) : Prop :=
  match input with
  | .emit rawFields =>
      ∀ event ∈ chargedEvent reader db.keys (toFields rawFields),
        event.run_id ∉ (db.emitted reader).map RunEvent.run_id
  | input =>
      (∀ step ∈ input.steps reader db, step.2.CountsOnce reader step.1) ∧
        (input.next reader db).unsettled reader = false

end LifecycleInput

/-- The store after a run of calls. -/
def afterInputs (reader : EnvelopeReader) (inputs : List LifecycleInput) (db : LifecycleStore) :
    LifecycleStore :=
  inputs.foldl (fun db input => input.next reader db) db

/-- Every call of a run satisfies the condition. -/
def AllCountOnce (reader : EnvelopeReader) : List LifecycleInput → LifecycleStore → Prop
  | [], _ => True
  | input :: inputs, db =>
      input.CountsOnce reader db ∧ AllCountOnce reader inputs (input.next reader db)

namespace LifecycleStore

/-- A store before the first entry: the ids of the work items are distinct, and a project has one
that is not empty. -/
structure Fresh (db : LifecycleStore) : Prop where
  stream : db.stream = []
  cursor : db.cursor = none
  deadLetters : db.deadLetters = []
  recent : db.recent = []
  ids : (db.items.map fun row => row.id).Nodup
  projects : ∀ row ∈ db.items, row.project_id ≠ ""

/-- The charges of the entries after the cursor and of the dead letters. -/
def owed (reader : EnvelopeReader) (db : LifecycleStore) : List RunEvent :=
  ((db.stream.map toFields).drop db.consumed).filterMap (chargedEvent reader db.keys) ++
    db.deadLetters.filterMap fun row => row.payload.bind (chargedEvent reader db.keys)

/-- The sum of a usage over the distinct terminal runs of a work item, each with the usage of its
terminal event, without the runs whose event is still waiting or parked. -/
def runUsage (reader : EnvelopeReader) (db : LifecycleStore) (kind : SpendKind)
    (row : KanbanWorkItemEntity) : Nat :=
  ((kind.charging.settledKeys (db.emitted reader) (db.owed reader) row.key).map
    (kind.charging.amountOf (db.emitted reader))).sum

/-- Every work item has accumulated, in both columns, the usage of its runs. -/
def ChargedOnce (reader : EnvelopeReader) (db start : LifecycleStore) : Prop :=
  ∀ (kind : SpendKind), ∀ row₀ ∈ start.items, ∃ row ∈ db.items, row.key = row₀.key ∧
    kind.spend row = kind.spend row₀ + db.runUsage reader kind row

/-! ## The invariant -/

variable {reader : EnvelopeReader} {kind : SpendKind} {db start : LifecycleStore}

/-- The work items are the ones of the start, the books are balanced and no charge is in two
places. -/
structure Settled (reader : EnvelopeReader) (kind : SpendKind) (db start : LifecycleStore) :
    Prop where
  keys : db.keys = start.keys
  balanced : (db.books kind).Balanced reader kind (start.books kind).accounts db.consumed
  settled : db.unsettled reader = false

theorem Fresh.balanced (h : db.Fresh) :
    (db.books kind).Balanced reader kind (db.books kind).accounts db.consumed := by
  have hstream : (db.books kind).stream = [] := by rw [books, h.stream]; rfl
  have hletters : (db.books kind).deadLetters = [] := by rw [books, h.deadLetters]; rfl
  have hemitted : (db.books kind).emitted reader = [] := by rw [Books.emitted, hstream]; rfl
  have howed (n : Nat) : (db.books kind).owed reader n = [] := by
    rw [Books.owed, Books.parkedCharges, hstream, hletters, List.drop_nil]
    rfl
  refine ⟨?_, ?_, ?_, ?_, ?_, [], ?_, ?_⟩
  · rw [consumed, h.cursor]
    exact Nat.zero_le _
  · rw [hletters]
    exact List.nodup_nil
  · rw [hletters]
    simp
  · rw [hletters]
    simp
  · intro key hkey
    rw [books_keys] at hkey
    obtain ⟨row, hrow, rfl⟩ := List.mem_map.1 hkey
    exact h.projects row hrow
  · rw [hemitted, howed]
    exact Charging.Splits.nil
  · intro a ha a₀ ha₀ hkey
    obtain ⟨row, hrow, rfl⟩ := List.mem_map.1 ha
    obtain ⟨row₀, hrow₀, rfl⟩ := List.mem_map.1 ha₀
    have hid : row₀.id = row.id := congrArg WorkItemKey.id hkey
    rw [List.inj_on_of_nodup_map h.ids hrow₀ hrow hid]
    rfl

theorem Fresh.settled (h : db.Fresh) : db.Settled reader kind db where
  keys := rfl
  balanced := h.balanced
  settled := by rw [unsettled, h.recent]; rfl

/-- A call that may be cut off leaves settled books. -/
theorem Settled.run_for {α : Type} {p : LifecycleProg α} {n : Nat}
    (h : db.Settled reader kind start)
    (hp : p.Meets (countsOnce reader kind (start.books kind).accounts)
      (fun _ => Safe reader kind (start.books kind).accounts)
      (fun _ => Safe reader kind (start.books kind).accounts) db)
    (hsteps : ∀ step ∈ p.stepsFor LifecycleOp.exec n db, step.2.CountsOnce reader step.1)
    (hend : (p.runFor LifecycleOp.exec n db).unsettled reader = false) :
    (p.runFor LifecycleOp.exec n db).Settled reader kind start where
  keys := by
    refine Prog.runFor_keeps LifecycleOp.exec
      (I := fun db' : LifecycleStore => db'.keys = LifecycleStore.keys start) ?_ p n h.keys
    exact fun db' o h' => (keys_exec db' o).trans h'
  balanced := by
    have hsafe : (p.runFor LifecycleOp.exec n db).Safe reader kind
        (start.books kind).accounts := by
      refine Prog.Meets.runFor LifecycleOp.exec ?_ ?_ hp hsteps
      · exact fun _ _ h' => h'
      · exact fun _ _ h' => h'
    exact hsafe hend
  settled := hend

theorem Settled.emit {rawFields : RawFields} (h : db.Settled reader kind start)
    (hnew : (LifecycleInput.emit rawFields).CountsOnce reader db) :
    ((LifecycleInput.emit rawFields).next reader db).Settled reader kind start where
  keys := h.keys
  balanced := by
    have hbooks : ((LifecycleInput.emit rawFields).next reader db).books kind =
        (db.books kind).send (toFields rawFields) := by
      simp [LifecycleInput.next, books, Books.send, consumed]
    rw [hbooks]
    apply h.balanced.send_new
    rw [books_keys, Books.emitted, books_keys]
    exact hnew
  settled := h.settled

/-- **One call keeps the books settled.** -/
theorem Settled.next {input : LifecycleInput} (h : db.Settled reader kind start)
    (hinput : input.CountsOnce reader db) : (input.next reader db).Settled reader kind start := by
  cases input with
  | emit rawFields => exact h.emit hinput
  | poll statements =>
      obtain ⟨hsteps, hend⟩ := hinput
      exact h.run_for (meets_replayFromCursor h.balanced) hsteps hend
  | replay proposalIds batches statements =>
      obtain ⟨hsteps, hend⟩ := hinput
      exact h.run_for (meets_replayDeadLetters proposalIds batches h.balanced) hsteps hend

/-- A run of calls keeps them settled. -/
theorem Settled.after {inputs : List LifecycleInput} :
    ∀ {db : LifecycleStore}, db.Settled reader kind start → AllCountOnce reader inputs db →
      (afterInputs reader inputs db).Settled reader kind start := by
  induction inputs with
  | nil => exact fun h _ => h
  | cons input inputs ih => exact fun h hinputs => ih (h.next hinputs.1) hinputs.2

/-- Settled books charge every work item the usage of its runs. -/
theorem Settled.charged (h : db.Settled reader kind start) {row₀ : KanbanWorkItemEntity}
    (hrow₀ : row₀ ∈ start.items) :
    ∃ row ∈ db.items, row.key = row₀.key ∧
      kind.spend row = kind.spend row₀ + db.runUsage reader kind row := by
  obtain ⟨row, hrow, hkey⟩ : ∃ row ∈ db.items, row.key = row₀.key := by
    have hmem : row₀.key ∈ db.keys := h.keys ▸ List.mem_map_of_mem hrow₀
    exact List.mem_map.1 hmem
  refine ⟨row, hrow, hkey, ?_⟩
  obtain ⟨ledger, hsplits, htotal⟩ := h.balanced.split
  have hspend := htotal (row.key, kind.spend row) (List.mem_map_of_mem hrow)
    (row₀.key, kind.spend row₀) (List.mem_map_of_mem hrow₀) hkey.symm
  have hemitted : (db.books kind).emitted reader = db.emitted reader := by
    rw [Books.emitted, books_keys]
    rfl
  have howed : (db.books kind).owed reader db.consumed = db.owed reader := by
    rw [Books.owed, Books.parkedCharges, books_keys, owed, books, List.filterMap_map]
    rfl
  rw [hemitted, howed] at hsplits
  rw [runUsage, ← hsplits.total_eq row.key]
  exact hspend

end LifecycleStore

/-- **Each run is charged once.** -/
theorem run_usage_charged_once (reader : EnvelopeReader) (start : LifecycleStore)
    (hstart : start.Fresh) (inputs : List LifecycleInput)
    (hinputs : AllCountOnce reader inputs start) :
    (afterInputs reader inputs start).ChargedOnce reader start := by
  intro kind row₀ hrow₀
  have hsettled : start.Settled reader kind start := hstart.settled
  exact (hsettled.after hinputs).charged hrow₀

/-! ## Runs on one work item -/

instance (reader : EnvelopeReader) (db : LifecycleStore) (o : LifecycleOp) :
    Decidable (o.CountsOnce reader db) := by
  cases o <;> dsimp only [LifecycleOp.CountsOnce] <;> infer_instance

instance (reader : EnvelopeReader) (db : LifecycleStore) (input : LifecycleInput) :
    Decidable (input.CountsOnce reader db) := by
  cases input <;> dsimp only [LifecycleInput.CountsOnce] <;> infer_instance

instance decidableAllCountOnce (reader : EnvelopeReader) :
    ∀ (inputs : List LifecycleInput) (db : LifecycleStore),
      Decidable (AllCountOnce reader inputs db)
  | [], _ => .isTrue trivial
  | input :: inputs, db =>
      have := decidableAllCountOnce reader inputs (input.next reader db)
      inferInstanceAs (Decidable (_ ∧ _))

/-- A reader that knows one text: the end of run "r" of work item "w", which used five tokens for
two cents. -/
def endOfRunReader : EnvelopeReader where
  parse text :=
    if text = "end of r" then
      .ok (.run
        { event_id := "e"
          event_type := .completed
          occurred_at := 0
          run_id := "r"
          workflow_id := "work_item_dispatch"
          status := "COMPLETED"
          context := some { scopeId := some "p", contextId := some "w" }
          usage := some { total_tokens := some 5, estimated_cost_cents := some 2 } })
    else .error "unknown text"
  proposalId _ := none

def endOfRunEntry : RawFields :=
  [("event_type", "core.workflow.run.completed.v1"), ("envelope", "end of r")]

/-- A store with one work item, and the statements that throw. -/
def oneItemStore (throwing : List Nat) : LifecycleStore where
  items := [{ id := "w", project_id := "p", status := .inProgress, title := "item" }]
  outcomes n := if n ∈ throwing then { error := some "the connection was closed" } else {}

theorem oneItemStore_fresh (throwing : List Nat) : (oneItemStore throwing).Fresh where
  stream := rfl
  cursor := rfl
  deadLetters := rfl
  recent := rfl
  ids := by simp [oneItemStore]
  projects := by simp [oneItemStore]

/-- The first poll stops before the usage is added, the second one is complete, and a replay finds
nothing. -/
theorem run_usage_charged_once_cut_off :
    (afterInputs endOfRunReader
      [.emit endOfRunEntry, .poll 6, .poll 100, .replay [] 2 100, .poll 100]
      (oneItemStore [])).ChargedOnce endOfRunReader (oneItemStore []) :=
  run_usage_charged_once endOfRunReader (oneItemStore []) (oneItemStore_fresh [])
    [.emit endOfRunEntry, .poll 6, .poll 100, .replay [] 2 100, .poll 100] (by decide +kernel)

/-- The lookup of the cost attempt throws after the usage was added. The entry is kept as a dead
letter, sent again by a replay, and its usage is added a second time. -/
theorem replayed_run_charged_twice :
    ∃ (start : LifecycleStore) (inputs : List LifecycleInput), start.Fresh ∧
      ((afterInputs endOfRunReader inputs start).owed endOfRunReader).length = 0 ∧
      ¬ (afterInputs endOfRunReader inputs start).ChargedOnce endOfRunReader start := by
  refine ⟨oneItemStore [9], [.emit endOfRunEntry, .poll 100, .replay [] 2 100, .poll 100],
    oneItemStore_fresh [9], by decide +kernel, fun hcharged => ?_⟩
  obtain ⟨row, hrow, -, hspend⟩ := hcharged .tokens _ List.mem_cons_self
  have htwice : ∀ row ∈ (afterInputs endOfRunReader
      [.emit endOfRunEntry, .poll 100, .replay [] 2 100, .poll 100] (oneItemStore [9])).items,
      SpendKind.tokens.spend row ≠ 0 + (afterInputs endOfRunReader
        [.emit endOfRunEntry, .poll 100, .replay [] 2 100, .poll 100]
        (oneItemStore [9])).runUsage endOfRunReader .tokens row := by
    decide +kernel
  exact htwice row hrow hspend

end Nexus
