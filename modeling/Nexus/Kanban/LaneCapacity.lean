import Nexus.Kanban.LeaseRelease
import Mathlib

/-!
# The capacity of a lane

`acquireMutationLeases` counts the leases of a lane and acquires later, and an acquisition has a
lease for each of its keys. The acquisitions that hold a grant stay within the capacity, and one is
refused only when that many others hold one, in every run in which each acquisition of the lane
has one key, the lane still has room when the leases are inserted, and a refusal still finds the
lane full (`LaneKept`).
-/

set_option autoImplicit false

namespace Nexus

/-- Acquisitions under the capacity of their lane, releases, expiries, and the passing of time. -/
inductive LaneCall where
  | mutation (input : MutationLeaseInput)
  | release (leaseId : Nat) (ownerId : String)
  | releaseOwned (projectId ownerId : String)
  | releaseAllForProject (projectId : String)
  | sweep
  | elapse (ms : Nat)

def LaneCall.call : LaneCall → LeaseCall
  | .mutation input => .underLeases input
  | .release leaseId ownerId => .release leaseId ownerId
  | .releaseOwned projectId ownerId => .releaseOwned projectId ownerId
  | .releaseAllForProject projectId => .releaseAllForProject projectId
  | .sweep => .sweep
  | .elapse ms => .elapse ms

/-- The grant of a call holds a slot of the lane: it has not expired, every lease of it is active,
and a grant without leases has not come to its `finally` block. -/
def HoldsSlot (c : LeaseSystem) (projectId : String) (lane : OrchestrationLane) (t : Nat) : Prop :=
  ∃ grant, (holdingOf c.log t).grant = some grant ∧ grant.input.projectId = projectId ∧
    grant.input.lane = lane ∧ c.world.clock < grant.expiresAt ∧
    (∀ id ∈ grant.leaseIds, ∃ lease ∈ c.world.rows, lease.id = id ∧ lease.isActive = true) ∧
    (grant.leaseIds = [] → (holdingOf c.log t).listed = none)

/-- An acquisition of the lane has one key and finds room when it inserts; the holders of a full lane
are listed when it is full or empty. -/
def LaneKept (projectId : String) (lane : OrchestrationLane) (capacity : Nat) (c : LeaseSystem)
    (_ : Nat) : LeaseOp → Prop
  | .acquire input _ => input.projectId = projectId → input.lane = lane →
      input.conflictKeys.length = 1 ∧ (c.world.activeInLane projectId lane).length < capacity
  | .listActiveByLane projectId' lane' => projectId' = projectId → lane' = lane →
      c.world.activeInLane projectId lane = [] ∨
        capacity ≤ (c.world.activeInLane projectId lane).length
  | _ => True

instance (projectId : String) (lane : OrchestrationLane) (capacity : Nat) (c : LeaseSystem)
    (t : Nat) (o : LeaseOp) : Decidable (LaneKept projectId lane capacity c t o) := by
  rcases o
  case acquire => exact inferInstanceAs (Decidable (_ → _ → _ ∧ _))
  case listActiveByLane => exact inferInstanceAs (Decidable (_ → _ → _ ∨ _))
  all_goals exact isTrue trivial

/-! ## The contract of the calls -/

/-- A call acquires once, and it lists the holders of a lane before. -/
def SlotIssues (g : Holding) : LeaseOp → Prop
  | .acquire _ _ => g.grant = none
  | .listActiveByLane _ _ => g.grant = none
  | .heartbeat _ _ => False
  | _ => True

abbrev KeepsSlot {α : Type} (p : LeaseProg α) (g : Holding) : Prop :=
  Prog.Meets (Pool.following Holding.next SlotIssues fun _ _ _ => True) (fun _ _ => True)
    (fun _ _ => True) p g

section Calls

variable {g : Holding}

theorem acquire_keepsSlot (input : AcquireLeaseInput) (hg : g.grant = none) :
    KeepsSlot (OrchestrationLeaseService.acquire input) g := by
  refine ⟨trivial, ?_⟩
  rintro instant g₁ ⟨rfl, -⟩
  refine ⟨hg, ?_⟩
  rintro answer g₂ -
  cases answer <;> trivial

theorem releaseLeases_keepsSlot (p : Lease → Bool) (leases : List Lease) (g : Holding) :
    KeepsSlot (OrchestrationLeaseService.releaseLeases p leases) g := by
  induction leases generalizing g with
  | nil => trivial
  | cons lease leases ih =>
      exact Prog.meets_ite (fun _ => ⟨trivial, fun _ g' _ => ih g'⟩) fun _ => ih g

theorem releaseOwned_keepsSlot (projectId ownerId : String) (g : Holding) :
    KeepsSlot (OrchestrationLeaseService.releaseOwned projectId ownerId) g :=
  ⟨trivial, fun _ g' _ => releaseLeases_keepsSlot _ _ g'⟩

theorem runUnderLeases_keepsSlot (input : MutationLeaseInput) (hg : g.grant = none) :
    KeepsSlot (runUnderLeases input) g := by
  have hacquire : KeepsSlot (OrchestrationLeaseService.acquireMutationLeases input) g := by
    refine ⟨trivial, ?_⟩
    rintro active g₁ ⟨rfl, -⟩
    refine Prog.meets_ite (fun _ => ?_) fun _ => acquire_keepsSlot _ hg
    refine ⟨hg, ?_⟩
    rintro holders g₂ ⟨rfl, -⟩
    exact Prog.meets_ite (fun _ => acquire_keepsSlot _ hg) fun _ => trivial
  refine hacquire.bind fun result g₁ _ => ?_
  cases result with
  | refused conflicts => trivial
  | acquired leaseIds => exact releaseOwned_keepsSlot _ _ g₁

theorem program_keepsSlot (call : LaneCall) : KeepsSlot call.call.program {} := by
  cases call with
  | mutation input => exact runUnderLeases_keepsSlot input rfl
  | release leaseId ownerId => exact ⟨trivial, fun _ _ _ => trivial⟩
  | releaseOwned projectId ownerId => exact releaseOwned_keepsSlot projectId ownerId {}
  | releaseAllForProject projectId => exact ⟨trivial, fun _ _ _ => trivial⟩
  | sweep =>
      refine ⟨trivial, fun instant g₁ _ => ⟨trivial, fun overdue g₂ _ => ?_⟩⟩
      exact Prog.meets_ite (fun _ => trivial) fun _ => ⟨trivial, fun _ _ _ => trivial⟩
  | elapse ms => exact ⟨trivial, fun _ _ _ => trivial⟩

end Calls

/-! ## The leases of a lane -/

/-- The leases have the same id, place and time of expiry. -/
structure Lease.SamePlace (lease row : Lease) : Prop where
  id : lease.id = row.id
  project : lease.project_id = row.project_id
  lane : lease.lane = row.lane
  expires : lease.expires_at = row.expires_at

/-- The update ends a lease and leaves it in its place. -/
structure Lease.Ends (f : Lease → Lease) : Prop where
  ended : ∀ lease, (f lease).isActive = false
  same : ∀ lease, (f lease).SamePlace lease

theorem ends_expired : Lease.Ends fun lease => { lease with status := .expired } :=
  ⟨fun _ => rfl, fun _ => ⟨rfl, rfl, rfl, rfl⟩⟩

theorem ends_released (instant : Nat) : Lease.Ends (Lease.released instant) :=
  ⟨fun _ => rfl, fun _ => ⟨rfl, rfl, rfl, rfl⟩⟩

/-- A lease of the lane that is active and has not expired. -/
def LeaseTable.inLane (w : LeaseTable) (projectId : String) (lane : OrchestrationLane)
    (lease : Lease) : Bool :=
  lease.isActiveIn projectId && lease.lane = lane && decide (w.clock < lease.expires_at)

section Lane

variable {w : LeaseTable} {projectId : String} {lane : OrchestrationLane}

theorem activeInLane_eq :
    w.activeInLane projectId lane = w.rows.filter (w.inLane projectId lane) := rfl

theorem inLane_iff {lease : Lease} :
    w.inLane projectId lane lease = true ↔
      lease.project_id = projectId ∧ lease.isActive = true ∧ lease.lane = lane ∧
        w.clock < lease.expires_at := by
  simp only [LeaseTable.inLane, Lease.isActiveIn, Bool.and_eq_true, decide_eq_true_eq, and_assoc]

theorem activeInLane_updateWhere {p : Lease → Bool} {f : Lease → Lease} (hf : Lease.Ends f) :
    ((w.updateWhere p f).activeInLane projectId lane).Sublist
      (w.activeInLane projectId lane) := by
  rw [activeInLane_eq, activeInLane_eq]
  have hclock : (w.updateWhere p f).inLane projectId lane = w.inLane projectId lane := rfl
  rw [hclock, LeaseTable.updateWhere]
  induction w.rows with
  | nil => exact List.Sublist.refl _
  | cons lease rows ih =>
      rw [List.map_cons]
      cases hp : p lease with
      | false =>
          rw [if_neg (by simp), List.filter_cons, List.filter_cons]
          split
          · exact ih.cons_cons lease
          · exact ih
      | true =>
          have hgone : w.inLane projectId lane (f lease) = false := by
            simp [LeaseTable.inLane, Lease.isActiveIn, hf.ended lease]
          rw [if_pos rfl, List.filter_cons_of_neg (by simp [hgone]), List.filter_cons]
          split
          · exact ih.cons lease
          · exact ih

theorem activeInLane_elapse (ms : Nat) :
    (LeaseTable.activeInLane { w with clock := w.clock + ms } projectId lane).Sublist
      (w.activeInLane projectId lane) := by
  rw [activeInLane_eq, activeInLane_eq]
  refine List.monotone_filter_right _ fun lease hlease => ?_
  rw [inLane_iff] at hlease ⊢
  obtain ⟨hproject, hactive, hlane, hlive⟩ := hlease
  exact ⟨hproject, hactive, hlane, Nat.lt_of_le_of_lt (Nat.le_add_right _ _) hlive⟩

theorem activeInLane_reclaimKeys {projectId' : String} {now : Nat}
    (keys : List OrchestrationConflictKey) :
    ((w.reclaimKeys projectId' now keys).activeInLane projectId lane).Sublist
      (w.activeInLane projectId lane) := by
  induction keys generalizing w with
  | nil => exact List.Sublist.refl _
  | cons key keys ih => exact ih.trans (activeInLane_updateWhere ends_expired)

theorem samePlace_updateWhere {p : Lease → Bool} {f : Lease → Lease} (hf : Lease.Ends f)
    {lease : Lease} (h : lease ∈ (w.updateWhere p f).rows) :
    ∃ row ∈ w.rows, lease.SamePlace row := by
  obtain ⟨row, hrow, rfl⟩ := List.mem_map.1 h
  refine ⟨row, hrow, ?_⟩
  split
  · exact hf.same row
  · exact ⟨rfl, rfl, rfl, rfl⟩

theorem samePlace_reclaimKeys {projectId' : String} {now : Nat}
    {keys : List OrchestrationConflictKey} {lease : Lease}
    (h : lease ∈ (w.reclaimKeys projectId' now keys).rows) :
    ∃ row ∈ w.rows, lease.SamePlace row := by
  induction keys generalizing w with
  | nil => exact ⟨lease, h, rfl, rfl, rfl, rfl⟩
  | cons key keys ih =>
      obtain ⟨row₁, hrow₁, hsame₁⟩ := ih h
      obtain ⟨row, hrow, hsame⟩ := samePlace_updateWhere ends_expired hrow₁
      exact ⟨row, hrow, hsame₁.id.trans hsame.id, hsame₁.project.trans hsame.project,
        hsame₁.lane.trans hsame.lane, hsame₁.expires.trans hsame.expires⟩

end Lane

/-! ## The invariant -/

/-- The grant of a call is in the lane. -/
def GrantIn (c : LeaseSystem) (projectId : String) (lane : OrchestrationLane) (t : Nat)
    (grant : LeaseGrant) : Prop :=
  (holdingOf c.log t).grant = some grant ∧ grant.input.projectId = projectId ∧
    grant.input.lane = lane

/-- The leases of the lane are those of the grants in it, one for each, within the capacity. -/
structure LaneHeld (projectId : String) (lane : OrchestrationLane) (capacity : Nat)
    (c : LeaseSystem) : Prop where
  sound : c.world.Sound
  bound : (c.world.activeInLane projectId lane).length ≤ capacity
  fresh : ∀ t grant, (holdingOf c.log t).grant = some grant →
    ∀ id ∈ grant.leaseIds, id < c.world.nextId
  apart : ∀ t u grant grant', t ≠ u → (holdingOf c.log t).grant = some grant →
    (holdingOf c.log u).grant = some grant' → ∀ id ∈ grant.leaseIds, id ∉ grant'.leaseIds
  single : ∀ t grant, GrantIn c projectId lane t grant → ∃ id, grant.leaseIds = [id]
  placed : ∀ t grant, GrantIn c projectId lane t grant → ∀ lease ∈ c.world.rows,
    lease.id ∈ grant.leaseIds → lease.project_id = projectId ∧ lease.lane = lane ∧
      lease.expires_at = grant.expiresAt
  owned : ∀ lease ∈ c.world.activeInLane projectId lane, ∃ t grant,
    GrantIn c projectId lane t grant ∧ grant.leaseIds = [lease.id]

section Step

variable {localeLE : String → String → Bool} {projectId : String} {lane : OrchestrationLane}
  {capacity : Nat} {c c' : LeaseSystem} {t : Nat}

theorem laneHeld_start {w : LeaseTable} (hw : w.Sound) (hlane : w.activeInLane projectId lane = [])
    (calls : Nat → LeaseCall) : LaneHeld projectId lane capacity (LeaseSystem.init w calls) where
  sound := hw
  bound := by
    have hnone : (LeaseSystem.init w calls).world.activeInLane projectId lane = [] := hlane
    rw [hnone]
    exact Nat.zero_le _
  fresh _ _ h := nomatch h
  apart _ _ _ _ _ h := nomatch h
  single _ _ h := nomatch h.1
  placed _ _ h := nomatch h.1
  owned lease h := by
    have hnone : (LeaseSystem.init w calls).world.activeInLane projectId lane = [] := hlane
    rw [hnone] at h
    cases h

/-- A step that grants nothing keeps the invariant when it only ends leases. -/
theorem LaneHeld.of_ended (hinv : LaneHeld projectId lane capacity c) (hsound : c'.world.Sound)
    (hnext : c.world.nextId ≤ c'.world.nextId)
    (hgrant : ∀ u, (holdingOf c'.log u).grant = (holdingOf c.log u).grant)
    (hsub : (c'.world.activeInLane projectId lane).Sublist (c.world.activeInLane projectId lane))
    (hrows : ∀ lease ∈ c'.world.rows, ∃ row ∈ c.world.rows, lease.SamePlace row) :
    LaneHeld projectId lane capacity c' := by
  have hin : ∀ u grant, GrantIn c' projectId lane u grant ↔ GrantIn c projectId lane u grant := by
    intro u grant
    rw [GrantIn, GrantIn, hgrant]
  refine ⟨hsound, hsub.length_le.trans hinv.bound, fun u grant h id hid => ?_,
    fun u v grant grant' hne h h' => ?_, fun u grant h => ?_,
    fun u grant h lease hlease hid => ?_, fun lease hlease => ?_⟩
  · rw [hgrant] at h
    exact Nat.lt_of_lt_of_le (hinv.fresh u grant h id hid) hnext
  · rw [hgrant] at h h'
    exact hinv.apart u v grant grant' hne h h'
  · exact hinv.single u grant ((hin u grant).1 h)
  · obtain ⟨row, hrow, hsame⟩ := hrows lease hlease
    obtain ⟨hproject, hlane, hexpires⟩ :=
      hinv.placed u grant ((hin u grant).1 h) row hrow (hsame.id ▸ hid)
    exact ⟨hsame.project.trans hproject, hsame.lane.trans hlane, hsame.expires.trans hexpires⟩
  · obtain ⟨u, grant, h, hids⟩ := hinv.owned lease (hsub.subset hlease)
    exact ⟨u, grant, (hin u grant).2 h, hids⟩

/-- An operation that changes no grant and only ends leases. -/
theorem LaneHeld.quiet (hinv : LaneHeld projectId lane capacity c) {o : LeaseOp}
    {k : o.Ans → LeaseProg Unit}
    (hgrant : ∀ g : Holding, (g.next o (o.exec localeLE c.world).2).grant = g.grant)
    (hnext : c.world.nextId ≤ (o.exec localeLE c.world).1.nextId)
    (hsub : ((o.exec localeLE c.world).1.activeInLane projectId lane).Sublist
      (c.world.activeInLane projectId lane))
    (hrows : ∀ lease ∈ (o.exec localeLE c.world).1.rows,
      ∃ row ∈ c.world.rows, lease.SamePlace row) :
    LaneHeld projectId lane capacity (Pool.advance (leaseMachine localeLE) c t o k) := by
  refine hinv.of_ended (hinv.sound.exec localeLE o) hnext (fun u => ?_) hsub hrows
  by_cases hu : u = t
  · subst hu
    rw [holdingOf_advance_self, hgrant]
  · rw [holdingOf_advance_of_ne hu]

theorem samePlace_self {w : LeaseTable} :
    ∀ lease ∈ w.rows, ∃ row ∈ w.rows, lease.SamePlace row :=
  fun lease hlease => ⟨lease, hlease, rfl, rfl, rfl, rfl⟩

/-- The leases an acquisition adds to the lane: one at most, and only when it is in the lane. -/
theorem activeInLane_acquired {w w' : LeaseTable} {input : AcquireLeaseInput} {instant : Nat}
    {keys : List OrchestrationConflictKey}
    (hw' : w' = { w with
      rows := (w.reclaimKeys input.projectId instant keys).rows ++
        newLeases input instant w.nextId keys
      nextId := w.nextId + input.conflictKeys.length })
    {lease : Lease} (h : lease ∈ w'.activeInLane projectId lane) :
    lease ∈ w.activeInLane projectId lane ∨
      (input.projectId = projectId ∧ input.lane = lane ∧
        lease ∈ newLeases input instant w.nextId keys) := by
  subst hw'
  rw [activeInLane_eq, List.filter_append, List.mem_append] at h
  rcases h with hold | hnew
  · have hsub : ((w.reclaimKeys input.projectId instant keys).activeInLane projectId lane).Sublist
        (w.activeInLane projectId lane) := activeInLane_reclaimKeys keys
    refine Or.inl (hsub.subset ?_)
    obtain ⟨hmem, hin⟩ := List.mem_filter.1 hold
    rw [activeInLane_eq]
    refine List.mem_filter.2 ⟨hmem, ?_⟩
    rw [inLane_iff] at hin ⊢
    rw [reclaimKeys_clock]
    exact hin
  · obtain ⟨hmem, hin⟩ := List.mem_filter.1 hnew
    obtain ⟨key, -, i, -, rfl⟩ := mem_newLeases hmem
    obtain ⟨hproject, -, hlane, -⟩ := inLane_iff.1 hin
    exact Or.inr ⟨hproject, hlane, hmem⟩

theorem newLeases_length {input : AcquireLeaseInput} {instant id : Nat}
    (keys : List OrchestrationConflictKey) :
    (newLeases input instant id keys).length = keys.length := by
  induction keys generalizing id with
  | nil => rfl
  | cons key keys ih => rw [newLeases, List.length_cons, List.length_cons, ih]

/-- A lane has room for the leases of an acquisition that has one key. -/
theorem length_activeInLane_acquired {w w' : LeaseTable} {input : AcquireLeaseInput}
    {instant : Nat} {keys : List OrchestrationConflictKey}
    (hw' : w' = { w with
      rows := (w.reclaimKeys input.projectId instant keys).rows ++
        newLeases input instant w.nextId keys
      nextId := w.nextId + input.conflictKeys.length })
    (hbound : (w.activeInLane projectId lane).length ≤ capacity)
    (hroom : input.projectId = projectId → input.lane = lane →
      keys.length = 1 ∧ (w.activeInLane projectId lane).length < capacity) :
    (w'.activeInLane projectId lane).length ≤ capacity := by
  have hreclaimed : ((w.reclaimKeys input.projectId instant keys).rows.filter
      (w'.inLane projectId lane)).length ≤ (w.activeInLane projectId lane).length := by
    have hsub : ((w.reclaimKeys input.projectId instant keys).activeInLane projectId lane).Sublist
        (w.activeInLane projectId lane) := activeInLane_reclaimKeys keys
    have hsame : w'.inLane projectId lane =
        (w.reclaimKeys input.projectId instant keys).inLane projectId lane := by
      funext lease
      rw [Bool.eq_iff_iff, inLane_iff, inLane_iff, reclaimKeys_clock, hw']
    rw [hsame]
    exact hsub.length_le
  have hlength : (w'.activeInLane projectId lane).length =
      ((w.reclaimKeys input.projectId instant keys).rows.filter
        (w'.inLane projectId lane)).length +
      ((newLeases input instant w.nextId keys).filter (w'.inLane projectId lane)).length := by
    rw [activeInLane_eq, ← List.length_append, ← List.filter_append, hw']
  have hnew : ((newLeases input instant w.nextId keys).filter
      (w'.inLane projectId lane)).length ≤ keys.length := by
    rw [← newLeases_length keys]
    exact List.length_filter_le _ _
  by_cases hin : input.projectId = projectId ∧ input.lane = lane
  · obtain ⟨hone, hless⟩ := hroom hin.1 hin.2
    omega
  · -- none of the new leases is in the lane
    have hnone : (newLeases input instant w.nextId keys).filter
        (w'.inLane projectId lane) = [] := by
      rw [List.filter_eq_nil_iff]
      intro lease hlease hlane
      obtain ⟨key, -, i, -, rfl⟩ := mem_newLeases hlease
      obtain ⟨hproject, -, hlane, -⟩ := inLane_iff.1 hlane
      exact hin ⟨hproject, hlane⟩
    rw [hnone, List.length_nil, Nat.add_zero] at hlength
    omega

/-- An acquisition that is granted. -/
theorem laneHeld_acquired (hinv : LaneHeld projectId lane capacity c) {input : AcquireLeaseInput}
    {instant : Nat} {k : (LeaseOp.acquire input instant).Ans → LeaseProg Unit} {w' : LeaseTable}
    {ids : List Nat} (hnone : (holdingOf c.log t).grant = none)
    (hcond : LaneKept projectId lane capacity c t (.acquire input instant))
    (hacquire : KanbanOrchestrationLeaseRepository.acquire localeLE c.world input instant =
      (w', .ok (.acquired ids)))
    (hw' : w' = { c.world with
      rows := (c.world.reclaimKeys input.projectId instant
          (KanbanOrchestrationLeaseRepository.sortKeys localeLE input.conflictKeys)).rows ++
        newLeases input instant c.world.nextId
          (KanbanOrchestrationLeaseRepository.sortKeys localeLE input.conflictKeys)
      nextId := c.world.nextId + input.conflictKeys.length })
    (hids : ids = List.range' c.world.nextId input.conflictKeys.length) :
    LaneHeld projectId lane capacity
      (Pool.advance (leaseMachine localeLE) c t (.acquire input instant) k) := by
  have hworld : (Pool.advance (leaseMachine localeLE) c t (.acquire input instant) k).world = w' :=
    congrArg Prod.fst hacquire
  have hself : (holdingOf (Pool.advance (leaseMachine localeLE) c t
      (.acquire input instant) k).log t).grant = some ⟨input, instant, ids⟩ := by
    rw [holdingOf_advance_self]
    have hanswer := congrArg Prod.snd hacquire
    simp only [LeaseOp.exec, hanswer, Holding.next]
  have hother : ∀ u, u ≠ t → holdingOf
      (Pool.advance (leaseMachine localeLE) c t (.acquire input instant) k).log u =
        holdingOf c.log u := fun u hu => holdingOf_advance_of_ne hu
  have hlength : (KanbanOrchestrationLeaseRepository.sortKeys localeLE input.conflictKeys).length =
      input.conflictKeys.length := List.length_insertionSort _ _
  have hnext : w'.nextId = c.world.nextId + input.conflictKeys.length := by rw [hw']
  have hnew : ∀ id ∈ ids, c.world.nextId ≤ id ∧ id < w'.nextId := by
    intro id hid
    rw [hids] at hid
    rw [hnext]
    exact List.mem_range'_1.1 hid
  have hone : input.projectId = projectId → input.lane = lane → ids = [c.world.nextId] := by
    intro hproject hlane
    rw [hids, (hcond hproject hlane).1]
    rfl
  have hrows : ∀ lease ∈ w'.rows, (∃ row ∈ c.world.rows, lease.SamePlace row) ∨
      (c.world.nextId ≤ lease.id ∧ lease.project_id = input.projectId ∧
        lease.lane = input.lane ∧ lease.expires_at = instant + input.ttlMs) := by
    intro lease hlease
    rw [hw'] at hlease
    rcases List.mem_append.1 hlease with hold | hadded
    · exact Or.inl (samePlace_reclaimKeys hold)
    · obtain ⟨key, -, i, -, rfl⟩ := mem_newLeases hadded
      exact Or.inr ⟨Nat.le_add_right _ _, rfl, rfl, rfl⟩
  refine ⟨hinv.sound.exec localeLE _, ?_, fun u grant h id hid => ?_,
    fun u v grant grant' hne h h' id hid hid' => ?_, fun u grant h => ?_,
    fun u grant h lease hlease hid => ?_, fun lease hlease => ?_⟩
  · rw [hworld]
    refine length_activeInLane_acquired hw' hinv.bound fun hproject hlane => ?_
    rw [hlength]
    exact hcond hproject hlane
  · rw [hworld]
    by_cases hu : u = t
    · rw [hu, hself, Option.some.injEq] at h
      subst h
      exact (hnew id hid).2
    · rw [hother u hu] at h
      rw [hnext]
      exact Nat.lt_of_lt_of_le (hinv.fresh u grant h id hid) (Nat.le_add_right _ _)
  · by_cases hu : u = t
    · have hv : v ≠ t := fun hv => hne (hu.trans hv.symm)
      rw [hu, hself, Option.some.injEq] at h
      rw [hother v hv] at h'
      subst h
      exact absurd (hinv.fresh v grant' h' id hid') (Nat.not_lt.2 (hnew id hid).1)
    · rw [hother u hu] at h
      by_cases hv : v = t
      · rw [hv, hself, Option.some.injEq] at h'
        subst h'
        exact absurd (hinv.fresh u grant h id hid) (Nat.not_lt.2 (hnew id hid').1)
      · rw [hother v hv] at h'
        exact hinv.apart u v grant grant' hne h h' id hid hid'
  · obtain ⟨hgrant, hproject, hlane⟩ := h
    by_cases hu : u = t
    · rw [hu, hself, Option.some.injEq] at hgrant
      subst hgrant
      exact ⟨_, hone hproject hlane⟩
    · rw [hother u hu] at hgrant
      exact hinv.single u grant ⟨hgrant, hproject, hlane⟩
  · rw [hworld] at hlease
    obtain ⟨hgrant, hproject, hlane⟩ := h
    by_cases hu : u = t
    · rw [hu, hself, Option.some.injEq] at hgrant
      subst hgrant
      rcases hrows lease hlease with ⟨row, hrow, hsame⟩ | ⟨-, hlproject, hllane, hexpires⟩
      · -- a row that was there has an older id
        have hold := hinv.sound.fresh row hrow
        rw [← hsame.id] at hold
        exact absurd hold (Nat.not_lt.2 (hnew lease.id hid).1)
      · exact ⟨hlproject.trans hproject, hllane.trans hlane, hexpires⟩
    · rw [hother u hu] at hgrant
      have hless := hinv.fresh u grant hgrant lease.id hid
      rcases hrows lease hlease with ⟨row, hrow, hsame⟩ | ⟨hge, -⟩
      · obtain ⟨hrproject, hrlane, hexpires⟩ :=
          hinv.placed u grant ⟨hgrant, hproject, hlane⟩ row hrow (hsame.id ▸ hid)
        exact ⟨hsame.project.trans hrproject, hsame.lane.trans hrlane,
          hsame.expires.trans hexpires⟩
      · exact absurd hless (Nat.not_lt.2 hge)
  · rw [hworld] at hlease
    rcases activeInLane_acquired hw' hlease with hold | ⟨hproject, hlane, hadded⟩
    · obtain ⟨u, grant, ⟨hgrant, hproject, hlane⟩, hids'⟩ := hinv.owned lease hold
      have hu : u ≠ t := by
        rintro rfl
        rw [hnone] at hgrant
        cases hgrant
      refine ⟨u, grant, ⟨?_, hproject, hlane⟩, hids'⟩
      rw [hother u hu]
      exact hgrant
    · obtain ⟨key, -, i, hi, rfl⟩ := mem_newLeases hadded
      have hzero : i = 0 := by
        rw [hlength, (hcond hproject hlane).1] at hi
        omega
      refine ⟨t, ⟨input, instant, ids⟩, ⟨hself, hproject, hlane⟩, ?_⟩
      rw [hone hproject hlane, hzero]
      rfl

theorem laneHeld_acquire (hinv : LaneHeld projectId lane capacity c) {input : AcquireLeaseInput}
    {instant : Nat} {k : (LeaseOp.acquire input instant).Ans → LeaseProg Unit}
    (hnone : (holdingOf c.log t).grant = none)
    (hcond : LaneKept projectId lane capacity c t (.acquire input instant)) :
    LaneHeld projectId lane capacity
      (Pool.advance (leaseMachine localeLE) c t (.acquire input instant) k) := by
  rcases acquire_cases localeLE c.world input instant with ⟨w', ids, hacquire, hw', hids⟩ | hfailed
  · exact laneHeld_acquired hinv hnone hcond hacquire hw' hids
  · have hanswer : ((LeaseOp.acquire input instant).exec localeLE c.world) =
        (c.world, .error .inFailedTransaction) := hfailed
    refine hinv.quiet (fun g => ?_) ?_ ?_ ?_
    · rw [hanswer]
      rfl
    · rw [hanswer]
    · rw [hanswer]
    · rw [hanswer]
      exact samePlace_self

/-- **One step.** Every operation a call may issue keeps the invariant under the condition. -/
theorem laneHeld_step {o : LeaseOp} {k : o.Ans → LeaseProg Unit}
    (hinv : LaneHeld projectId lane capacity c) (hissue : SlotIssues (holdingOf c.log t) o)
    (hcond : LaneKept projectId lane capacity c t o) :
    LaneHeld projectId lane capacity (Pool.advance (leaseMachine localeLE) c t o k) := by
  cases o with
  | acquire input instant => exact laneHeld_acquire hinv hissue hcond
  | heartbeat leaseId ttlMs => exact hissue.elim
  | release leaseId ownerId =>
      exact hinv.quiet (fun _ => rfl) le_rfl (activeInLane_updateWhere (ends_released _))
        fun _ h => samePlace_updateWhere (ends_released _) h
  | expireOverdue instant =>
      exact hinv.quiet (fun _ => rfl) le_rfl (activeInLane_updateWhere ends_expired)
        fun _ h => samePlace_updateWhere ends_expired h
  | releaseAllForProject projectId' =>
      exact hinv.quiet (fun _ => rfl) le_rfl (activeInLane_updateWhere (ends_released _))
        fun _ h => samePlace_updateWhere (ends_released _) h
  | elapse ms =>
      exact hinv.quiet (fun _ => rfl) le_rfl (activeInLane_elapse ms) samePlace_self
  | now => exact hinv.quiet (fun _ => rfl) le_rfl (List.Sublist.refl _) samePlace_self
  | findOverdue instant =>
      exact hinv.quiet (fun _ => rfl) le_rfl (List.Sublist.refl _) samePlace_self
  | listActiveByProject projectId' =>
      exact hinv.quiet (fun _ => rfl) le_rfl (List.Sublist.refl _) samePlace_self
  | countActiveByLane projectId' lane' =>
      exact hinv.quiet (fun _ => rfl) le_rfl (List.Sublist.refl _) samePlace_self
  | listActiveByLane projectId' lane' =>
      exact hinv.quiet (fun _ => rfl) le_rfl (List.Sublist.refl _) samePlace_self

/-! ## Holders and leases -/

/-- A slot that is held is a lease of the lane. -/
theorem LaneHeld.lease_of_holds (hinv : LaneHeld projectId lane capacity c)
    (h : HoldsSlot c projectId lane t) :
    ∃ lease ∈ c.world.activeInLane projectId lane, ∃ grant,
      (holdingOf c.log t).grant = some grant ∧ lease.id ∈ grant.leaseIds := by
  obtain ⟨grant, hgrant, hproject, hlane, hlive, hactive, -⟩ := h
  obtain ⟨id, hids⟩ := hinv.single t grant ⟨hgrant, hproject, hlane⟩
  have hmem : id ∈ grant.leaseIds := by rw [hids]; exact List.mem_singleton_self _
  obtain ⟨lease, hlease, rfl, hstatus⟩ := hactive id hmem
  obtain ⟨hlproject, hllane, hexpires⟩ :=
    hinv.placed t grant ⟨hgrant, hproject, hlane⟩ lease hlease hmem
  refine ⟨lease, ?_, grant, hgrant, hmem⟩
  rw [activeInLane_eq]
  refine List.mem_filter.2 ⟨hlease, inLane_iff.2 ⟨hlproject, hstatus, hllane, ?_⟩⟩
  rw [hexpires]
  exact hlive

/-- Different holders hold different leases, so there are at most as many as leases. -/
theorem LaneHeld.length_holders_le (hinv : LaneHeld projectId lane capacity c) {ts : List Nat}
    (hnodup : ts.Nodup) (hholds : ∀ t ∈ ts, HoldsSlot c projectId lane t) :
    ts.length ≤ (c.world.activeInLane projectId lane).length := by
  have hleases : ∀ t ∈ ts, ∃ lease : Lease, lease ∈ c.world.activeInLane projectId lane ∧
      ∃ grant, (holdingOf c.log t).grant = some grant ∧ lease.id ∈ grant.leaseIds := by
    intro t ht
    obtain ⟨lease, hlease, hgrant⟩ := hinv.lease_of_holds (hholds t ht)
    exact ⟨lease, hlease, hgrant⟩
  choose! leaseOf hmem hgrant using hleases
  have hinj : ∀ t ∈ ts, ∀ u ∈ ts, leaseOf t = leaseOf u → t = u := by
    intro t ht u hu hsame
    obtain ⟨grant, ht', hid⟩ := hgrant t ht
    obtain ⟨grant', hu', hid'⟩ := hgrant u hu
    by_contra hne
    exact hinv.apart t u grant grant' hne ht' hu' _ hid (hsame ▸ hid')
  have hsub : ts.map leaseOf ⊆ c.world.activeInLane projectId lane := by
    intro lease hlease
    obtain ⟨t, ht, rfl⟩ := List.mem_map.1 hlease
    exact hmem t ht
  have hle := List.Nodup.length_le_of_subset (hnodup.map_on hinj) hsub
  rwa [List.length_map] at hle

/-- Every lease of the lane is the slot of a holder. -/
theorem LaneHeld.holders_of_leases (hinv : LaneHeld projectId lane capacity c) :
    ∃ ts : List Nat, ts.Nodup ∧
      ts.length = (c.world.activeInLane projectId lane).length ∧
      ∀ t ∈ ts, HoldsSlot c projectId lane t := by
  choose! ownerOf grantOf hin hids using hinv.owned
  have hkeys : ((c.world.activeInLane projectId lane).map fun lease => lease.id).Nodup :=
    hinv.sound.ids.sublist (List.filter_sublist.map _)
  refine ⟨(c.world.activeInLane projectId lane).map ownerOf, ?_, List.length_map _, ?_⟩
  · refine hkeys.of_map.map_on fun lease hlease lease' hlease' hsame => ?_
    have hgrant := (hin lease hlease).1
    rw [hsame, (hin lease' hlease').1, Option.some.injEq] at hgrant
    have hid : lease'.id = lease.id := by
      have hlist := hids lease hlease
      rw [← hgrant, hids lease' hlease'] at hlist
      exact List.head_eq_of_cons_eq hlist
    exact List.inj_on_of_nodup_map hkeys hlease hlease' hid.symm
  · intro t ht
    obtain ⟨lease, hlease, rfl⟩ := List.mem_map.1 ht
    obtain ⟨hgrant, hproject, hlane⟩ := hin lease hlease
    obtain ⟨hmem, hinlane⟩ := List.mem_filter.1 hlease
    have hinlane' : c.world.inLane projectId lane lease = true := hinlane
    obtain ⟨-, hactive, -, hlive⟩ := inLane_iff.1 hinlane'
    have hid : lease.id ∈ (grantOf lease).leaseIds := by
      rw [hids lease hlease]
      exact List.mem_singleton_self _
    have hexpires := (hinv.placed _ _ (hin lease hlease) lease hmem hid).2.2
    refine ⟨grantOf lease, hgrant, hproject, hlane, hexpires ▸ hlive, ?_, ?_⟩
    · intro id hid'
      rw [hids lease hlease, List.mem_singleton] at hid'
      exact ⟨lease, hmem, hid'.symm, hactive⟩
    · intro hnil
      rw [hids lease hlease] at hnil
      cases hnil

end Step

/-- An acquisition of items in a lane of a given capacity. -/
def laneMutation (capacity : Nat) (owner : String) (items : List String) : MutationLeaseInput where
  projectId := "project"
  lane := .workItemTransition
  ownerId := owner
  conflictKeys := items.map fun item => ⟨.workItem, item⟩
  laneCapacity := capacity

/-- An acquisition of some items, and acquisitions of another one. -/
def laneCalls (capacity : Nat) (items : List String) : Nat → LaneCall
  | 0 => .mutation (laneMutation capacity "first" items)
  | _ => .mutation (laneMutation capacity "second" ["c"])

def laneStart (capacity : Nat) (items : List String) : LeaseSystem :=
  LeaseSystem.init {} fun t => (laneCalls capacity items t).call

/-- The configuration after a schedule. -/
def laneRun (capacity : Nat) (items : List String) (sched : List (Nat × Nat)) : LeaseSystem :=
  Pool.play (leaseMachine byCodePoint) sched (laneStart capacity items)

/-- Only a call that has taken a step has a grant. -/
theorem mem_log_of_grant {log : List (Entry Nat LeaseOp LeaseOp.Ans)} {t : Nat}
    {grant : LeaseGrant} (h : (holdingOf log t).grant = some grant) : ∃ e ∈ log, e.tid = t := by
  induction log with
  | nil => cases h
  | cons e log ih =>
      by_cases htid : e.tid = t
      · exact ⟨e, List.mem_cons_self, htid⟩
      · have hsame : holdingOf (e :: log) t = holdingOf log t := if_neg htid
        rw [hsame] at h
        obtain ⟨e', he', htid'⟩ := ih h
        exact ⟨e', List.mem_cons_of_mem _ he', htid'⟩

/-- The holders a call was shown. -/
def Entry.heldBy? : Entry Nat LeaseOp LeaseOp.Ans → Option (List Lease)
  | ⟨_, .listActiveByLane _ _, holders⟩ => some holders
  | _ => none

end Nexus
