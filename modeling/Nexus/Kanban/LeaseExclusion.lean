import Nexus.Kanban.Leases
import Mathlib.Data.List.Pairwise

/-!
# Mutual exclusion by leases

`acquire` inserts an active lease for every key or rolls back (`acquire_eq`), and the index keeps
the active leases of a key apart in every run. The conflicts of a refused key are read inside the
transaction that the refusal has aborted: `acquire` throws there instead, so it reports conflicts
exactly when there are none to report (`lease_acquire_contract`).
-/

set_option autoImplicit false

namespace Nexus

open KanbanOrchestrationLeaseRepository

/-! ## The transaction -/

/-- `reclaimExpired` as one update of the table. -/
def LeaseTable.reclaimKeys (w : LeaseTable) (projectId : String) (now : Nat) :
    List OrchestrationConflictKey → LeaseTable
  | [] => w
  | key :: keys => (w.reclaim projectId key now).reclaimKeys projectId now keys

/-- A key has an active lease. -/
def LeaseTable.isHeld (w : LeaseTable) (projectId : String) (key : OrchestrationConflictKey) :
    Bool :=
  w.rows.any fun lease => lease.holds projectId key

/-- The inserts of a transaction, with the ids of the rows; `none` when the index refuses one. -/
def LeaseTable.insertKeys (w : LeaseTable) (input : AcquireLeaseInput) (now : Nat) :
    List OrchestrationConflictKey → Option (LeaseTable × List Nat)
  | [] => some (w, [])
  | key :: keys =>
      if w.isHeld input.projectId key then none
      else ((w.insert input key now).insertKeys input now keys).map fun r => (r.1, w.nextId :: r.2)

variable {projectId : String} {keys : List OrchestrationConflictKey}
  {key : OrchestrationConflictKey}

section Transaction

variable {w : LeaseTable} {input : AcquireLeaseInput} {now : Nat}

theorem run_query (o : LeaseStatement) (tx : LeaseTransaction) :
    (query o).run LeaseStatement.exec tx =
      match LeaseStatement.exec tx o with
      | (tx', .ok rows) => (tx', .ok rows)
      | (tx', .error error) => (tx', .error (.database error)) := by
  rw [query, Prog.bind_eq, Prog.op, Prog.call_bind, Prog.run_call, Prog.pure_bind]
  obtain ⟨tx', answer⟩ := LeaseStatement.exec tx o
  cases answer <;> rfl

theorem run_reclaimExpired (projectId : String) (keys : List OrchestrationConflictKey) :
    (reclaimExpired projectId now keys).run LeaseStatement.exec { table := w } =
      ({ table := w.reclaimKeys projectId now keys }, .ok ()) := by
  induction keys generalizing w with
  | nil => rfl
  | cons key keys ih =>
      have hquery : (query (.reclaim projectId key now)).run LeaseStatement.exec { table := w } =
          ({ table := w.reclaim projectId key now }, .ok ()) := by
        rw [run_query]
        rfl
      rw [reclaimExpired, Prog.bind_eq, Prog.run_bind_ok _ hquery]
      exact ih

/-- The inserts run to the end, or the transaction is aborted. -/
theorem run_insertKeys (keys : List OrchestrationConflictKey) :
    match w.insertKeys input now keys with
    | some (w', ids) =>
        (insertKeys input now keys).run LeaseStatement.exec { table := w } =
          ({ table := w' }, .ok ids)
    | none => ∃ w', (insertKeys input now keys).run LeaseStatement.exec { table := w } =
        ({ table := w', aborted := true }, .error (.database .uniqueViolation)) := by
  induction keys generalizing w with
  | nil => rfl
  | cons key keys ih =>
      rw [LeaseTable.insertKeys]
      by_cases hheld : w.isHeld input.projectId key = true
      · rw [if_pos hheld]
        have hany : (w.rows.any fun lease => lease.holds input.projectId key) = true := hheld
        have hquery : (query (.insert input key now)).run LeaseStatement.exec { table := w } =
            ({ table := w, aborted := true }, .error (.database .uniqueViolation)) := by
          rw [run_query]
          simp [LeaseStatement.exec, hany]
        refine ⟨w, ?_⟩
        rw [KanbanOrchestrationLeaseRepository.insertKeys, Prog.bind_eq,
          Prog.run_bind_error _ hquery]
      · rw [if_neg hheld]
        have hany : (w.rows.any fun lease => lease.holds input.projectId key) = false :=
          Bool.eq_false_iff.2 hheld
        have hquery : (query (.insert input key now)).run LeaseStatement.exec { table := w } =
            ({ table := w.insert input key now }, .ok w.nextId) := by
          rw [run_query]
          simp [LeaseStatement.exec, hany]
        have hrest := ih (w := w.insert input key now)
        rw [KanbanOrchestrationLeaseRepository.insertKeys, Prog.bind_eq,
          Prog.run_bind_ok _ hquery]
        cases hinsert : (w.insert input key now).insertKeys input now keys with
        | none =>
            rw [hinsert] at hrest
            obtain ⟨w', hw'⟩ := hrest
            exact ⟨w', by rw [Prog.bind_eq, Prog.run_bind_error _ hw']⟩
        | some r =>
            obtain ⟨w', ids⟩ := r
            rw [hinsert] at hrest
            rw [Option.map_some, Prog.bind_eq, Prog.run_bind_ok _ hrest]
            rfl

/-- The conflicts cannot be read in an aborted transaction. -/
theorem run_loadConflicts_aborted (hkeys : keys ≠ []) (w : LeaseTable) :
    (loadConflicts projectId keys).run LeaseStatement.exec { table := w, aborted := true } =
      ({ table := w, aborted := true }, .error (.database .inFailedTransaction)) := by
  cases keys with
  | nil => exact absurd rfl hkeys
  | cons key keys =>
      have hquery : (query (.selectActive projectId key)).run LeaseStatement.exec
          { table := w, aborted := true } =
          ({ table := w, aborted := true }, .error (.database .inFailedTransaction)) := by
        rw [run_query]
        rfl
      rw [loadConflicts, Prog.bind_eq, Prog.run_bind_error _ hquery]

/-- **The transaction.** All leases are inserted after the reclaim, or the table is as it was and
the error is the one of the aborted transaction. -/
theorem acquire_eq (localeLE : String → String → Bool) :
    acquire localeLE w input now =
      match (w.reclaimKeys input.projectId now (sortKeys localeLE input.conflictKeys)).insertKeys
        input now (sortKeys localeLE input.conflictKeys) with
      | some (w', ids) => (w', .ok (.acquired ids))
      | none => (w, .error .inFailedTransaction) := by
  generalize hkeys : sortKeys localeLE input.conflictKeys = keys
  have hreclaim : (reclaimExpired input.projectId now keys).run LeaseStatement.exec
      { table := w } = ({ table := w.reclaimKeys input.projectId now keys }, .ok ()) :=
    run_reclaimExpired input.projectId keys
  have hinserts := @run_insertKeys (w.reclaimKeys input.projectId now keys) input now keys
  have hbody : (acquireIn input now keys).run LeaseStatement.exec { table := w } =
      ((KanbanOrchestrationLeaseRepository.insertKeys input now keys).handle
        (onInsertError input.projectId keys)).run LeaseStatement.exec
          { table := w.reclaimKeys input.projectId now keys } := by
    rw [acquireIn, Prog.bind_eq, Prog.run_bind_ok _ hreclaim]
  rw [acquire, hkeys, KanbanOrchestrationLeaseRepository.transaction, hbody, Prog.run_handle]
  cases hresult : (w.reclaimKeys input.projectId now keys).insertKeys input now keys with
  | some r =>
      rw [hresult] at hinserts
      simp only [hinserts]
      rfl
  | none =>
      have hne : keys ≠ [] := by
        rintro rfl
        cases hresult
      rw [hresult] at hinserts
      obtain ⟨w', hw'⟩ := hinserts
      have hload : (loadConflicts input.projectId keys).run LeaseStatement.exec
          { table := w', aborted := true } =
          ({ table := w', aborted := true }, .error (.database .inFailedTransaction)) :=
        run_loadConflicts_aborted hne w'
      have hcatch : (onInsertError input.projectId keys (.database .uniqueViolation)).run
          LeaseStatement.exec { table := w', aborted := true } =
          ({ table := w', aborted := true }, .error (.database .inFailedTransaction)) := by
        rw [onInsertError, Prog.bind_eq, Prog.run_bind_error _ hload]
      simp only [hw', hcatch]

/-! ## What is inserted -/

/-- The rows for the keys, with ids from the next one on. -/
def newLeases (input : AcquireLeaseInput) (now : Nat) :
    Nat → List OrchestrationConflictKey → List Lease
  | _, [] => []
  | id, key :: keys => newLease id input key now :: newLeases input now (id + 1) keys

variable {id : Nat}

theorem holds_newLease {key' : OrchestrationConflictKey} :
    (newLease id input key now).holds projectId key' = true ↔
      input.projectId = projectId ∧ key = key' := by
  have hholds : (newLease id input key now).holds projectId key' =
      (decide (input.projectId = projectId) && decide (key = key')) := by
    rw [Lease.holds, Bool.and_assoc]
    rfl
  rw [hholds, Bool.and_eq_true, decide_eq_true_iff, decide_eq_true_iff]

theorem isHeld_insert {key' : OrchestrationConflictKey} :
    (w.insert input key now).isHeld input.projectId key' = true ↔
      w.isHeld input.projectId key' = true ∨ key = key' := by
  simp only [LeaseTable.isHeld, LeaseTable.insert, List.any_append, Bool.or_eq_true]
  refine or_congr_right ?_
  simp [holds_newLease]

/-- The inserts succeed when the keys are different and free. -/
theorem insertKeys_eq_some {r : LeaseTable × List Nat} (h : w.insertKeys input now keys = some r) :
    keys.Nodup ∧ (∀ key ∈ keys, w.isHeld input.projectId key = false) ∧
      r = ({ w with rows := w.rows ++ newLeases input now w.nextId keys
                    nextId := w.nextId + keys.length }, List.range' w.nextId keys.length) := by
  induction keys generalizing w r with
  | nil =>
      obtain rfl := Option.some.inj h
      refine ⟨List.nodup_nil, fun key hkey => absurd hkey List.not_mem_nil, ?_⟩
      simp [newLeases]
  | cons key keys ih =>
      rw [LeaseTable.insertKeys] at h
      split at h
      · cases h
      · rename_i hfree
        obtain ⟨r', hr', rfl⟩ := Option.map_eq_some_iff.1 h
        obtain ⟨hnodup, hfree', rfl⟩ := ih hr'
        have hnot : ∀ key' ∈ keys, w.isHeld input.projectId key' = false ∧ key ≠ key' := by
          intro key' hkey'
          have hnone := hfree' key' hkey'
          rw [Bool.eq_false_iff, Ne, isHeld_insert, not_or] at hnone
          exact ⟨Bool.eq_false_iff.2 hnone.1, hnone.2⟩
        refine ⟨List.nodup_cons.2 ⟨fun hmem => (hnot key hmem).2 rfl, hnodup⟩, ?_, ?_⟩
        · intro key' hkey'
          rcases List.mem_cons.1 hkey' with rfl | hkey'
          · exact Bool.eq_false_iff.2 hfree
          · exact (hnot key' hkey').1
        · simp [LeaseTable.insert, newLeases, List.range'_succ, Nat.add_assoc, Nat.add_comm 1]

theorem mem_newLeases {lease : Lease} (h : lease ∈ newLeases input now id keys) :
    ∃ key ∈ keys, ∃ i < keys.length, lease = newLease (id + i) input key now := by
  induction keys generalizing id with
  | nil => cases h
  | cons key keys ih =>
      rcases List.mem_cons.1 h with rfl | hrest
      · exact ⟨key, List.mem_cons_self, 0, Nat.succ_pos _, rfl⟩
      · obtain ⟨key', hkey', i, hi, rfl⟩ := ih hrest
        refine ⟨key', List.mem_cons_of_mem _ hkey', i + 1, Nat.succ_lt_succ hi, ?_⟩
        rw [Nat.add_assoc, Nat.add_comm 1 i]

theorem newLease_mem (h : key ∈ keys) :
    ∃ i < keys.length, newLease (id + i) input key now ∈ newLeases input now id keys := by
  induction keys generalizing id with
  | nil => cases h
  | cons key' keys ih =>
      rcases List.mem_cons.1 h with rfl | hrest
      · exact ⟨0, Nat.succ_pos _, List.mem_cons_self⟩
      · obtain ⟨i, hi, hmem⟩ : ∃ i < keys.length,
            newLease (id + 1 + i) input key now ∈ newLeases input now (id + 1) keys := ih hrest
        refine ⟨i + 1, Nat.succ_lt_succ hi, List.mem_cons_of_mem _ ?_⟩
        rw [Nat.add_assoc, Nat.add_comm 1 i] at hmem
        exact hmem

end Transaction

/-! ## Soundness of the table -/

/-- The ids are different and drawn before, and the index keeps the active leases of a key apart. -/
structure LeaseTable.Sound (w : LeaseTable) : Prop where
  fresh : ∀ lease ∈ w.rows, lease.id < w.nextId
  ids : (w.rows.map fun lease => lease.id).Nodup
  exclusive : w.rows.Pairwise fun a b =>
    ∀ projectId key, a.holds projectId key = true → b.holds projectId key = false

/-- The update keeps the id and the key of a row and does not activate it. -/
structure Lease.Deactivates (f : Lease → Lease) : Prop where
  id : ∀ lease, (f lease).id = lease.id
  holds : ∀ lease projectId key, (f lease).holds projectId key = true →
    lease.holds projectId key = true

theorem deactivates_status {f : Lease → Lease}
    (h : ∀ lease, (f lease).id = lease.id ∧ (f lease).isActive = false) : Lease.Deactivates f where
  id lease := (h lease).1
  holds lease projectId key hholds := by
    rw [Lease.holds, (h lease).2] at hholds
    cases hholds

theorem deactivates_heartbeat (heartbeat expires : Nat) :
    Lease.Deactivates fun lease =>
      { lease with heartbeat_at := heartbeat, expires_at := expires } where
  id _ := rfl
  holds _ _ _ h := h

section Soundness

variable {w : LeaseTable}

theorem LeaseTable.Sound.updateWhere (hw : w.Sound) {p : Lease → Bool} {f : Lease → Lease}
    (hf : Lease.Deactivates f) : (w.updateWhere p f).Sound := by
  have hid : ∀ lease, (if p lease then f lease else lease).id = lease.id := by
    intro lease
    split
    · exact hf.id lease
    · rfl
  have hholds : ∀ lease projectId key,
      (if p lease then f lease else lease).holds projectId key = true →
        lease.holds projectId key = true := by
    intro lease projectId key h
    split at h
    · exact hf.holds lease projectId key h
    · exact h
  refine ⟨?_, ?_, ?_⟩
  · intro lease hlease
    obtain ⟨row, hrow, rfl⟩ := List.mem_map.1 hlease
    rw [hid]
    exact hw.fresh row hrow
  · have hids : ((w.rows.map fun lease => if p lease then f lease else lease).map
        fun lease => lease.id) = w.rows.map fun lease => lease.id := by
      rw [List.map_map]
      exact List.map_congr_left fun lease _ => hid lease
    rw [LeaseTable.updateWhere, hids]
    exact hw.ids
  · refine List.pairwise_map.2 (hw.exclusive.imp ?_)
    intro a b hab projectId key ha
    have hb := hab projectId key (hholds a projectId key ha)
    rw [Bool.eq_false_iff] at hb ⊢
    exact fun h => hb (hholds b projectId key h)

theorem LeaseTable.Sound.reclaimKeys (hw : w.Sound) {now : Nat}
    (keys : List OrchestrationConflictKey) : (w.reclaimKeys projectId now keys).Sound := by
  induction keys generalizing w with
  | nil => exact hw
  | cons key keys ih =>
      exact ih (hw.updateWhere (deactivates_status fun _ => ⟨rfl, rfl⟩))

theorem LeaseTable.Sound.insert (hw : w.Sound) {input : AcquireLeaseInput} {now : Nat}
    (hfree : w.isHeld input.projectId key = false) :
    (w.insert input key now).Sound := by
  have hnone : ∀ lease ∈ w.rows, lease.holds input.projectId key = false := by
    simpa [LeaseTable.isHeld] using hfree
  refine ⟨?_, ?_, ?_⟩
  · intro lease hlease
    rcases List.mem_append.1 hlease with hold | hnew
    · exact Nat.lt_succ_of_lt (hw.fresh lease hold)
    · rw [List.mem_singleton.1 hnew]
      exact Nat.lt_succ_self _
  · rw [LeaseTable.insert, List.map_append]
    refine hw.ids.append (List.nodup_singleton _) ?_
    intro id hid hid'
    obtain ⟨lease, hlease, rfl⟩ := List.mem_map.1 hid
    have hnew : lease.id = w.nextId := by simpa [newLease] using hid'
    exact absurd hnew (Nat.ne_of_lt (hw.fresh lease hlease))
  · rw [LeaseTable.insert, List.pairwise_append]
    refine ⟨hw.exclusive, List.pairwise_singleton _ _, ?_⟩
    intro a ha b hb projectId key' hholds
    obtain rfl := List.mem_singleton.1 hb
    rw [Bool.eq_false_iff]
    intro hnew
    -- the key of the new row, in its project, has no active lease
    obtain ⟨rfl, rfl⟩ := holds_newLease.1 hnew
    rw [hnone a ha] at hholds
    cases hholds

theorem LeaseTable.Sound.insertKeys (hw : w.Sound) {input : AcquireLeaseInput} {now : Nat}
    {r : LeaseTable × List Nat} (h : w.insertKeys input now keys = some r) : r.1.Sound := by
  induction keys generalizing w r with
  | nil =>
      obtain rfl := Option.some.inj h
      exact hw
  | cons key keys ih =>
      rw [LeaseTable.insertKeys] at h
      split at h
      · cases h
      · rename_i hfree
        obtain ⟨r', hr', rfl⟩ := Option.map_eq_some_iff.1 h
        have hsound := ih (hw.insert (Bool.eq_false_iff.2 hfree)) hr'
        exact hsound

theorem LeaseTable.Sound.acquire (hw : w.Sound) (localeLE : String → String → Bool)
    (input : AcquireLeaseInput) (now : Nat) :
    (KanbanOrchestrationLeaseRepository.acquire localeLE w input now).1.Sound := by
  rw [acquire_eq]
  cases hinsert : (w.reclaimKeys input.projectId now
      (sortKeys localeLE input.conflictKeys)).insertKeys input now
        (sortKeys localeLE input.conflictKeys) with
  | none => exact hw
  | some r => exact (hw.reclaimKeys _).insertKeys hinsert

theorem LeaseTable.Sound.exec (hw : w.Sound) (localeLE : String → String → Bool) (o : LeaseOp) :
    (o.exec localeLE w).1.Sound := by
  cases o with
  | acquire input now => exact hw.acquire localeLE input now
  | heartbeat leaseId ttlMs => exact hw.updateWhere (deactivates_heartbeat _ _)
  | release leaseId ownerId => exact hw.updateWhere (deactivates_status fun _ => ⟨rfl, rfl⟩)
  | expireOverdue now => exact hw.updateWhere (deactivates_status fun _ => ⟨rfl, rfl⟩)
  | releaseAllForProject projectId =>
      exact hw.updateWhere (deactivates_status fun _ => ⟨rfl, rfl⟩)
  | elapse ms => exact ⟨hw.fresh, hw.ids, hw.exclusive⟩
  | now => exact hw
  | findOverdue now => exact hw
  | listActiveByProject projectId => exact hw
  | countActiveByLane projectId lane => exact hw
  | listActiveByLane projectId lane => exact hw

theorem sound_of_reach {localeLE : String → String → Bool}
    {cond : LeaseSystem → Nat → LeaseOp → Prop} {calls : Nat → LeaseCall} {c : LeaseSystem}
    (hw : w.Sound)
    (h : Pool.Reach (leaseMachine localeLE) cond (LeaseSystem.init w calls) c) :
    c.world.Sound := by
  have hstep : ∀ (c : LeaseSystem) (t : Nat) (o : LeaseOp) (k : o.Ans → LeaseProg Unit),
      c.world.Sound → c.threads t = .call o k → (leaseMachine localeLE).enabled c.world o →
      cond c t o → (Pool.advance (leaseMachine localeLE) c t o k).world.Sound :=
    fun _ _ o _ hsound _ _ _ => hsound.exec localeLE o
  have hstart : (LeaseSystem.init w calls).world.Sound := hw
  exact Pool.Reach.preserves hstart hstep h

end Soundness

/-- Two active leases of a key are the same row. -/
theorem LeaseTable.Sound.eq_of_holds {w : LeaseTable} (hw : w.Sound) {a b : Lease}
    (ha : a ∈ w.rows) (hb : b ∈ w.rows) (hholds : a.holds projectId key = true)
    (hholds' : b.holds projectId key = true) : a = b := by
  by_contra hne
  have hsymm : Std.Symm fun a b : Lease =>
      ∀ projectId key, a.holds projectId key = true → b.holds projectId key = false := by
    refine ⟨fun a b hab projectId key hbholds => ?_⟩
    rw [Bool.eq_false_iff]
    intro haholds
    rw [hab projectId key haholds] at hbholds
    cases hbholds
  have hapart := hw.exclusive.forall ha hb hne projectId key hholds
  rw [hapart] at hholds'
  cases hholds'

/-! ## The contract of `acquire` -/

/-- Leases for every key are granted, or the table is as it was. -/
def AllOrNothing (w : LeaseTable) (input : AcquireLeaseInput)
    (result : LeaseTable × Except PgError AcquireLeaseResult) : Prop :=
  (∀ ids, result.2 = .ok (.acquired ids) → ∀ key ∈ input.conflictKeys,
    ∃ lease ∈ result.1.rows, lease.holds input.projectId key = true ∧ lease.owner = input.owner ∧
      lease.id ∈ ids ∧ w.nextId ≤ lease.id) ∧
  ((∀ ids, result.2 ≠ .ok (.acquired ids)) → result.1 = w)

/-- A key has an active lease that has not expired. -/
def HeldKey (w : LeaseTable) (projectId : String) (now : Nat) (key : OrchestrationConflictKey) :
    Prop :=
  ∃ lease ∈ w.rows, lease.holds projectId key = true ∧ now ≤ lease.expires_at

/-- Some requested key is held by another owner. -/
def HeldByAnother (w : LeaseTable) (input : AcquireLeaseInput) (now : Nat) : Prop :=
  ∃ key ∈ input.conflictKeys, ∃ lease ∈ w.rows, lease.holds input.projectId key = true ∧
    now ≤ lease.expires_at ∧ lease.owner ≠ input.owner

/-- A key that another owner holds is refused with the held keys as conflicts. -/
def ReportsConflicts (w : LeaseTable) (input : AcquireLeaseInput) (now : Nat)
    (answer : Except PgError AcquireLeaseResult) : Prop :=
  HeldByAnother w input now →
    ∃ conflicts, answer = .ok (.refused conflicts) ∧
      ∀ key, key ∈ conflicts.map (fun conflict => conflict.conflictKey) ↔
        key ∈ input.conflictKeys ∧ HeldKey w input.projectId now key

section Contract

variable {w : LeaseTable} {input : AcquireLeaseInput} {now : Nat}

/-- A lease that has not expired is not reclaimed. -/
theorem mem_reclaimKeys {lease : Lease} (h : lease ∈ w.rows) (hlive : now ≤ lease.expires_at)
    (keys : List OrchestrationConflictKey) :
    lease ∈ (w.reclaimKeys projectId now keys).rows := by
  induction keys generalizing w with
  | nil => exact h
  | cons key keys ih =>
      apply ih
      refine List.mem_map.2 ⟨lease, h, ?_⟩
      have hnot : ¬ lease.expires_at < now := Nat.not_lt.2 hlive
      simp [hnot]

theorem reclaimKeys_nextId (keys : List OrchestrationConflictKey) :
    (w.reclaimKeys projectId now keys).nextId = w.nextId := by
  induction keys generalizing w with
  | nil => rfl
  | cons key keys ih => exact ih

theorem reclaimKeys_clock (keys : List OrchestrationConflictKey) :
    (w.reclaimKeys projectId now keys).clock = w.clock := by
  induction keys generalizing w with
  | nil => rfl
  | cons key keys ih => exact ih

theorem mem_sortKeys {localeLE : String → String → Bool} :
    key ∈ sortKeys localeLE keys ↔ key ∈ keys :=
  List.mem_insertionSort _

/-- What `acquire` can do: it inserts rows with new ids after the reclaim, or fails. -/
theorem acquire_cases (localeLE : String → String → Bool) (w : LeaseTable)
    (input : AcquireLeaseInput) (now : Nat) :
    (∃ w' ids, acquire localeLE w input now = (w', .ok (.acquired ids)) ∧
      w' = { w with
        rows := (w.reclaimKeys input.projectId now (sortKeys localeLE input.conflictKeys)).rows ++
          newLeases input now w.nextId (sortKeys localeLE input.conflictKeys)
        nextId := w.nextId + input.conflictKeys.length } ∧
      ids = List.range' w.nextId input.conflictKeys.length) ∨
    acquire localeLE w input now = (w, .error .inFailedTransaction) := by
  rw [acquire_eq]
  have hlength : (sortKeys localeLE input.conflictKeys).length = input.conflictKeys.length :=
    List.length_insertionSort _ _
  cases hinsert : (w.reclaimKeys input.projectId now
      (sortKeys localeLE input.conflictKeys)).insertKeys input now
        (sortKeys localeLE input.conflictKeys) with
  | none => exact Or.inr rfl
  | some r =>
      obtain ⟨-, -, rfl⟩ := insertKeys_eq_some hinsert
      refine Or.inl ⟨_, _, rfl, ?_, ?_⟩
      · rw [reclaimKeys_nextId, hlength, reclaimKeys_clock]
      · rw [reclaimKeys_nextId, hlength]

theorem allOrNothing_acquire (localeLE : String → String → Bool) :
    AllOrNothing w input (acquire localeLE w input now) := by
  rcases acquire_cases localeLE w input now with ⟨w', ids, hacquire, rfl, rfl⟩ | hacquire
  · rw [hacquire]
    refine ⟨fun ids h key hkey => ?_, fun h => absurd rfl (h _)⟩
    obtain rfl := AcquireLeaseResult.acquired.inj (Except.ok.inj h)
    have hsorted : key ∈ sortKeys localeLE input.conflictKeys := mem_sortKeys.2 hkey
    obtain ⟨i, hi, hmem⟩ : ∃ i < (sortKeys localeLE input.conflictKeys).length,
        newLease (w.nextId + i) input key now ∈
          newLeases input now w.nextId (sortKeys localeLE input.conflictKeys) :=
      newLease_mem hsorted
    rw [sortKeys, List.length_insertionSort] at hi
    refine ⟨_, List.mem_append_right _ hmem, holds_newLease.2 ⟨rfl, rfl⟩, rfl, ?_, ?_⟩
    · exact List.mem_range'_1.2 ⟨Nat.le_add_right _ _, Nat.add_lt_add_left hi _⟩
    · exact Nat.le_add_right _ _
  · rw [hacquire]
    exact ⟨(fun ids h => nomatch h), fun _ => rfl⟩

/-- A held key ends in the error of the aborted transaction. -/
theorem acquire_of_held (localeLE : String → String → Bool) (hkey : key ∈ input.conflictKeys)
    (hheld : HeldKey w input.projectId now key) :
    (acquire localeLE w input now).2 = .error .inFailedTransaction := by
  obtain ⟨lease, hlease, hholds, hlive⟩ := hheld
  rw [acquire_eq]
  cases hinsert : (w.reclaimKeys input.projectId now
      (sortKeys localeLE input.conflictKeys)).insertKeys input now
        (sortKeys localeLE input.conflictKeys) with
  | none => rfl
  | some r =>
      have hfree := (insertKeys_eq_some hinsert).2.1 key (mem_sortKeys.2 hkey)
      have hmem : lease ∈ (w.reclaimKeys input.projectId now
          (sortKeys localeLE input.conflictKeys)).rows := mem_reclaimKeys hlease hlive _
      have hany : (w.reclaimKeys input.projectId now
          (sortKeys localeLE input.conflictKeys)).isHeld input.projectId key = true :=
        List.any_eq_true.2 ⟨lease, hmem, hholds⟩
      rw [hany] at hfree
      cases hfree

end Contract

/-- **Leases exclude each other.** In every run two active leases of a key are one row, and
`acquire` grants leases for every key or leaves the table as it was. It reports the conflicts it is
asked about exactly when no requested key is held by another owner. -/
theorem lease_acquire_contract {localeLE : String → String → Bool} {w : LeaseTable}
    {calls : Nat → LeaseCall} {c : LeaseSystem} (hw : w.Sound)
    (h : Pool.Reach (leaseMachine localeLE) Pool.anyStep (LeaseSystem.init w calls) c) :
    (∀ a ∈ c.world.rows, ∀ b ∈ c.world.rows, ∀ projectId key,
      a.holds projectId key = true → b.holds projectId key = true → a = b) ∧
    ∀ (input : AcquireLeaseInput) (now : Nat),
      AllOrNothing c.world input (acquire localeLE c.world input now) ∧
      (ReportsConflicts c.world input now (acquire localeLE c.world input now).2 ↔
        ¬ HeldByAnother c.world input now) := by
  have hsound := sound_of_reach hw h
  refine ⟨fun a ha b hb projectId key => hsound.eq_of_holds ha hb, fun input now => ?_⟩
  refine ⟨allOrNothing_acquire localeLE, fun hreports hheld => ?_, fun hfree hheld => ?_⟩
  · obtain ⟨conflicts, hanswer, -⟩ := hreports hheld
    obtain ⟨key, hkey, lease, hlease, hholds, hlive, -⟩ := hheld
    rw [acquire_of_held localeLE hkey ⟨lease, hlease, hholds, hlive⟩] at hanswer
    cases hanswer
  · exact absurd hheld hfree

/-! ## Runs of two acquirers -/

/-- A request of one owner for work items. -/
def itemLeases (owner : String) (items : List String) : AcquireLeaseInput where
  projectId := "project"
  lane := .workItemTransition
  owner := ⟨.directMutation, owner⟩
  conflictKeys := items.map fun item => ⟨.workItem, item⟩
  ttlMs := 1000

/-- Two owners that ask for overlapping items. -/
def exclusionCalls : Nat → LeaseCall
  | 0 => .acquire (itemLeases "first" ["a", "b"])
  | _ => .acquire (itemLeases "second" ["b", "c"])

/-- A collation of texts, by code points. -/
def byCodePoint (a b : String) : Bool := decide (a ≤ b)

def exclusionStart : LeaseSystem := LeaseSystem.init {} exclusionCalls

/-- The configuration after the first owner has its leases. -/
def exclusionGranted : LeaseSystem :=
  Pool.play (leaseMachine byCodePoint) [(0, 2)] exclusionStart

theorem soundEmpty : ({} : LeaseTable).Sound :=
  ⟨fun _ h => absurd h List.not_mem_nil, List.nodup_nil, List.Pairwise.nil⟩

/-- The first owner holds two items; a request for a third one finds nothing to report. -/
theorem lease_acquire_contract_free :
    ReportsConflicts exclusionGranted.world (itemLeases "second" ["c"]) 0
      (acquire byCodePoint exclusionGranted.world (itemLeases "second" ["c"]) 0).2 := by
  have hreach : Pool.Reach (leaseMachine byCodePoint) Pool.anyStep exclusionStart
      exclusionGranted := Pool.reach_play _ _
  have hfree : ¬ HeldByAnother exclusionGranted.world (itemLeases "second" ["c"]) 0 := by
    unfold HeldByAnother
    decide +kernel
  exact ((lease_acquire_contract soundEmpty hreach).2 (itemLeases "second" ["c"]) 0).2.2 hfree

/-- The second owner asks for an item that the first one holds: `acquire` throws. -/
theorem held_lease_throws :
    Pool.Reach (leaseMachine byCodePoint) Pool.anyStep exclusionStart exclusionGranted ∧
    HeldByAnother exclusionGranted.world (itemLeases "second" ["b", "c"]) 0 ∧
    (acquire byCodePoint exclusionGranted.world (itemLeases "second" ["b", "c"]) 0).2 =
      .error .inFailedTransaction ∧
    ¬ ReportsConflicts exclusionGranted.world (itemLeases "second" ["b", "c"]) 0
      (acquire byCodePoint exclusionGranted.world (itemLeases "second" ["b", "c"]) 0).2 := by
  have hheld : HeldByAnother exclusionGranted.world (itemLeases "second" ["b", "c"]) 0 := by
    unfold HeldByAnother
    decide +kernel
  have hthrows : (acquire byCodePoint exclusionGranted.world
      (itemLeases "second" ["b", "c"]) 0).2 = .error .inFailedTransaction := by
    decide +kernel
  refine ⟨Pool.reach_play _ _, hheld, hthrows, fun hreports => ?_⟩
  obtain ⟨conflicts, hanswer, -⟩ := hreports hheld
  rw [hthrows] at hanswer
  cases hanswer

end Nexus
