import Nexus.Kanban.LeaseExclusion

/-!
# Releases of one's own leases

The `finally` block of a protected section releases the active leases of its owner id, which is
computed from the work item or the decision and so is the same for every attempt. The leases it
ends are its own in every run in which no active lease of another acquisition with the owner id is
there when they are listed (`OwnLeasesListed`); and then at most one section of a key runs under a
lease that has not expired.
-/

set_option autoImplicit false

namespace Nexus

/-- The calls that run a protected section, the sweep, and the passing of time. -/
inductive SectionCall where
  /-- A launch or a link of a run. -/
  | runLink (projectId workItemId : String) (action : WorkItemRunAction) (ttlMs : Option Nat)
  | decision (projectId requester : String) (d : StructuredOrchestrationDecision)
  | sweep
  | elapse (ms : Nat)

def SectionCall.call (fingerprint : StructuredOrchestrationDecision → String) :
    SectionCall → LeaseCall
  | .runLink projectId workItemId action ttlMs =>
      .underLeases (runLeaseInput projectId workItemId action ttlMs)
  | .decision projectId requester d =>
      .underLeases (decisionLeaseInput fingerprint projectId requester d)
  | .sweep => .sweep
  | .elapse ms => .elapse ms

/-! ## What a call holds -/

/-- What an acquisition was granted. -/
structure LeaseGrant where
  input : AcquireLeaseInput
  instant : Nat
  leaseIds : List Nat
  deriving DecidableEq, Inhabited

def LeaseGrant.expiresAt (grant : LeaseGrant) : Nat := grant.instant + grant.input.ttlMs

/-- The time a call has read, its grant, and the leases its `finally` block has listed. -/
structure Holding where
  instant : Nat := 0
  grant : Option LeaseGrant := none
  listed : Option (List Lease) := none

def Holding.next (g : Holding) : (o : LeaseOp) → o.Ans → Holding
  | .now, instant => { g with instant := instant }
  | .acquire input instant, .ok (.acquired leaseIds) =>
      { g with grant := some ⟨input, instant, leaseIds⟩ }
  | .listActiveByProject _, leases => { g with listed := some leases }
  | _, _ => g

def holdingOf (log : List (Entry Nat LeaseOp LeaseOp.Ans)) (t : Nat) : Holding :=
  Pool.track Holding.next (fun _ => {}) log t

/-- The lease an operation releases. -/
def LeaseOp.releasedId : LeaseOp → Option Nat
  | .release leaseId _ => some leaseId
  | _ => none

/-- The protected section of a call runs under a grant. -/
def Holding.RunsUnder (g : Holding) (grant : LeaseGrant) : Prop :=
  g.grant = some grant ∧ g.listed = none

/-- When a `finally` block lists the active leases, the ones with its owner id are its own. -/
def OwnLeasesListed (c : LeaseSystem) (t : Nat) : LeaseOp → Prop
  | .listActiveByProject projectId =>
      ∀ grant ∈ (holdingOf c.log t).grant.toList, ∀ lease ∈ c.world.rows,
        lease.isActiveIn projectId = true → lease.owner.id = grant.input.owner.id →
          lease.id ∈ grant.leaseIds
  | _ => True

instance (c : LeaseSystem) (t : Nat) (o : LeaseOp) : Decidable (OwnLeasesListed c t o) := by
  cases o <;> simp only [OwnLeasesListed] <;> exact inferInstance

/-! ## The contract of the calls -/

/-- A lease is acquired at the time that was read, and released when it was listed with the owner id
of the grant. -/
def HoldingIssues (g : Holding) : LeaseOp → Prop
  | .acquire _ instant => g.instant = instant ∧ g.grant = none ∧ g.listed = none
  | .expireOverdue instant => g.instant = instant
  | .listActiveByProject projectId => ∃ grant, g.grant = some grant ∧
      grant.input.projectId = projectId
  | .release leaseId ownerId => ∃ grant leases, g.grant = some grant ∧ g.listed = some leases ∧
      grant.input.owner.id = ownerId ∧ ∃ lease ∈ leases, lease.id = leaseId ∧
        lease.owner.id = ownerId
  | .heartbeat _ _ => False
  | .releaseAllForProject _ => False
  | _ => True

abbrev KeepsHolding {α : Type} (p : LeaseProg α) (Q : α → Holding → Prop) (g : Holding) : Prop :=
  Prog.Meets (Pool.following Holding.next HoldingIssues fun _ _ _ => True) Q
    (fun _ _ => True) p g

section Calls

variable {g : Holding}

theorem acquire_keepsHolding (input : AcquireLeaseInput) (hg : g.grant = none ∧ g.listed = none) :
    KeepsHolding (OrchestrationLeaseService.acquire input)
      (fun result g' => ∀ leaseIds, result = .acquired leaseIds →
        ∃ grant, g'.grant = some grant ∧ grant.input = input) g := by
  refine ⟨trivial, ?_⟩
  rintro instant g₁ ⟨rfl, -⟩
  refine ⟨⟨rfl, hg⟩, ?_⟩
  rintro answer g₂ ⟨rfl, -⟩
  cases answer with
  | error error => trivial
  | ok result =>
      cases result with
      | refused conflicts => exact fun _ h => nomatch h
      | acquired leaseIds => exact fun _ _ => ⟨_, rfl, rfl⟩

theorem acquireMutationLeases_keepsHolding (input : MutationLeaseInput) (hg : g.grant = none ∧ g.listed = none) :
    KeepsHolding (OrchestrationLeaseService.acquireMutationLeases input)
      (fun result g' => ∀ leaseIds, result = .acquired leaseIds →
        ∃ grant, g'.grant = some grant ∧
          grant.input = OrchestrationLeaseService.acquireOfMutation input) g := by
  refine ⟨trivial, ?_⟩
  rintro active g₁ ⟨rfl, -⟩
  refine Prog.meets_ite (fun _ => ?_) fun _ => acquire_keepsHolding _ hg
  refine ⟨trivial, ?_⟩
  rintro holders g₂ ⟨rfl, -⟩
  refine Prog.meets_ite (fun _ => acquire_keepsHolding _ hg) fun _ => ?_
  exact fun _ h => nomatch h

/-- The leases of the owner are released one by one. -/
theorem releaseLeases_keepsHolding {grant : LeaseGrant} {listed leases : List Lease}
    {ownerId : String} (hgrant : g.grant = some grant) (hlisted : g.listed = some listed)
    (howner : grant.input.owner.id = ownerId) (hsub : ∀ lease ∈ leases, lease ∈ listed) :
    KeepsHolding (OrchestrationLeaseService.releaseLeases (fun lease => lease.owner.id = ownerId)
      leases) (fun _ _ => True) g := by
  induction leases with
  | nil => trivial
  | cons lease leases ih =>
      have hrest := ih fun lease' hlease' => hsub lease' (List.mem_cons_of_mem _ hlease')
      refine Prog.meets_ite (fun howned => ?_) fun _ => hrest
      have hown : lease.owner.id = ownerId := by simpa using howned
      refine ⟨⟨grant, listed, hgrant, hlisted, howner.trans hown.symm, lease,
        hsub lease List.mem_cons_self, rfl, rfl⟩, ?_⟩
      rintro ended g₁ ⟨rfl, -⟩
      exact hrest

theorem runUnderLeases_keepsHolding (input : MutationLeaseInput) (hg : g.grant = none ∧ g.listed = none) :
    KeepsHolding (runUnderLeases input) (fun _ _ => True) g := by
  refine (acquireMutationLeases_keepsHolding input hg).bind ?_
  rintro result g₁ hresult
  cases result with
  | refused conflicts => trivial
  | acquired leaseIds =>
      obtain ⟨grant, hgrant, hinput⟩ := hresult leaseIds rfl
      refine ⟨⟨grant, hgrant, by rw [hinput]; rfl⟩, ?_⟩
      rintro listed g₂ ⟨rfl, -⟩
      exact releaseLeases_keepsHolding hgrant rfl (by rw [hinput]; rfl) fun _ h => h

theorem program_keepsHolding (fingerprint : StructuredOrchestrationDecision → String)
    (call : SectionCall) :
    KeepsHolding (call.call fingerprint).program (fun _ _ => True) {} := by
  cases call with
  | runLink projectId workItemId action ttlMs => exact runUnderLeases_keepsHolding _ ⟨rfl, rfl⟩
  | decision projectId requester d => exact runUnderLeases_keepsHolding _ ⟨rfl, rfl⟩
  | sweep =>
      refine ⟨trivial, ?_⟩
      rintro instant g₁ ⟨rfl, -⟩
      refine ⟨trivial, ?_⟩
      rintro overdue g₂ ⟨rfl, -⟩
      exact Prog.meets_ite (fun _ => trivial) fun _ => ⟨rfl, fun _ _ _ => trivial⟩
  | elapse ms => exact ⟨trivial, fun _ _ _ => trivial⟩

end Calls

/-! ## Leases behind a grant -/

/-- A lease of the grant stands for the key; it is active, or it has expired. -/
def LeaseTable.Backs (w : LeaseTable) (grant : LeaseGrant) (key : OrchestrationConflictKey) :
    Prop :=
  ∃ lease ∈ w.rows, lease.id ∈ grant.leaseIds ∧ lease.project_id = grant.input.projectId ∧
    lease.conflict_key = key ∧ lease.expires_at = grant.expiresAt ∧
    (lease.isActive = true ∨ lease.expires_at < w.clock)

variable {instant : Nat} {input : AcquireLeaseInput}

section Backs

variable {w : LeaseTable} {grant : LeaseGrant} {key : OrchestrationConflictKey}

/-- An update keeps a grant backed when it changes the status alone, and only of expired leases
among those of the grant. -/
theorem LeaseTable.Backs.updateWhere (h : w.Backs grant key) {p : Lease → Bool}
    {f : Lease → Lease}
    (hf : ∀ lease, (f lease).id = lease.id ∧ (f lease).project_id = lease.project_id ∧
      (f lease).conflict_key = lease.conflict_key ∧ (f lease).expires_at = lease.expires_at)
    (hp : ∀ lease ∈ w.rows, lease.id ∈ grant.leaseIds → p lease = true →
      lease.expires_at < w.clock) : (w.updateWhere p f).Backs grant key := by
  obtain ⟨lease, hlease, hid, hproject, hkey, hexpires, hlive⟩ := h
  refine ⟨_, List.mem_map.2 ⟨lease, hlease, rfl⟩, ?_⟩
  cases hchanged : p lease with
  | false =>
      rw [if_neg (by simp)]
      exact ⟨hid, hproject, hkey, hexpires, hlive⟩
  | true =>
      obtain ⟨hfid, hfproject, hfkey, hfexpires⟩ := hf lease
      rw [if_pos rfl, hfid, hfproject, hfkey, hfexpires]
      exact ⟨hid, hproject, hkey, hexpires, Or.inr (hp lease hlease hid hchanged)⟩

theorem LeaseTable.Backs.elapse (h : w.Backs grant key) (ms : Nat) :
    LeaseTable.Backs { w with clock := w.clock + ms } grant key := by
  obtain ⟨lease, hlease, hid, hproject, hkey, hexpires, hlive⟩ := h
  exact ⟨lease, hlease, hid, hproject, hkey, hexpires,
    hlive.imp_right fun hpast => Nat.lt_of_lt_of_le hpast (Nat.le_add_right _ _)⟩

/-- The reclaim ends expired leases only. -/
theorem LeaseTable.Backs.reclaimKeys (h : w.Backs grant key) {projectId : String}
    (hinstant : instant ≤ w.clock) (keys : List OrchestrationConflictKey) :
    (w.reclaimKeys projectId instant keys).Backs grant key := by
  induction keys generalizing w with
  | nil => exact h
  | cons key' keys ih =>
      refine ih (h.updateWhere (fun _ => ⟨rfl, rfl, rfl, rfl⟩) ?_) hinstant
      intro lease _ _ hreclaimed
      rw [Bool.and_eq_true, decide_eq_true_eq] at hreclaimed
      exact Nat.lt_of_lt_of_le hreclaimed.2 hinstant

/-- The leases of an acquisition stay backed while another one acquires. -/
theorem LeaseTable.Backs.acquire (h : w.Backs grant key) (localeLE : String → String → Bool)
    (input : AcquireLeaseInput) (hinstant : instant ≤ w.clock) :
    (KanbanOrchestrationLeaseRepository.acquire localeLE w input instant).1.Backs grant key := by
  rcases acquire_cases localeLE w input instant with ⟨w', ids, hacquire, rfl, -⟩ | hacquire
  · rw [hacquire]
    have hreclaimed : (w.reclaimKeys input.projectId instant
        (KanbanOrchestrationLeaseRepository.sortKeys localeLE input.conflictKeys)).Backs grant key :=
      h.reclaimKeys hinstant _
    obtain ⟨lease, hlease, hid, hproject, hkey, hexpires, hlive⟩ := hreclaimed
    rw [reclaimKeys_clock] at hlive
    exact ⟨lease, List.mem_append_left _ hlease, hid, hproject, hkey, hexpires, hlive⟩
  · rw [hacquire]
    exact h

/-- A new grant is backed. -/
theorem backs_of_acquired {localeLE : String → String → Bool} {ids : List Nat} {w' : LeaseTable}
    (h : KanbanOrchestrationLeaseRepository.acquire localeLE w input instant = (w', .ok
      (.acquired ids))) {key : OrchestrationConflictKey} (hkey : key ∈ input.conflictKeys) :
    w'.Backs ⟨input, instant, ids⟩ key := by
  rcases acquire_cases localeLE w input instant with ⟨w'', ids', hacquire, rfl, rfl⟩ | hacquire
  · rw [hacquire] at h
    obtain ⟨rfl, hids⟩ := Prod.mk.inj h
    obtain rfl := AcquireLeaseResult.acquired.inj (Except.ok.inj hids)
    have hsorted : key ∈ KanbanOrchestrationLeaseRepository.sortKeys localeLE input.conflictKeys :=
      mem_sortKeys.2 hkey
    obtain ⟨i, hi, hmem⟩ : ∃ i <
        (KanbanOrchestrationLeaseRepository.sortKeys localeLE input.conflictKeys).length,
        newLease (w.nextId + i) input key instant ∈ newLeases input instant w.nextId
          (KanbanOrchestrationLeaseRepository.sortKeys localeLE input.conflictKeys) :=
      newLease_mem hsorted
    rw [KanbanOrchestrationLeaseRepository.sortKeys, List.length_insertionSort] at hi
    refine ⟨_, List.mem_append_right _ hmem, ?_, rfl, rfl, rfl, Or.inl rfl⟩
    exact List.mem_range'_1.2 ⟨Nat.le_add_right _ _, Nat.add_lt_add_left hi _⟩
  · rw [hacquire] at h
    cases (Prod.mk.inj h).2

end Backs

/-! ## The invariant -/

/-- What holds between the table, the grants and the lists of the calls. -/
structure Holdings (c : LeaseSystem) : Prop where
  sound : c.world.Sound
  instant : ∀ t, (holdingOf c.log t).instant ≤ c.world.clock
  fresh : ∀ t grant, (holdingOf c.log t).grant = some grant →
    ∀ id ∈ grant.leaseIds, id < c.world.nextId
  apart : ∀ t u grant grant', t ≠ u → (holdingOf c.log t).grant = some grant →
    (holdingOf c.log u).grant = some grant' → ∀ id ∈ grant.leaseIds, id ∉ grant'.leaseIds
  listed : ∀ t grant leases, (holdingOf c.log t).grant = some grant →
    (holdingOf c.log t).listed = some leases → ∀ lease ∈ leases,
      lease.owner.id = grant.input.owner.id → lease.id ∈ grant.leaseIds
  backed : ∀ t grant, (holdingOf c.log t).RunsUnder grant →
    ∀ key ∈ grant.input.conflictKeys, c.world.Backs grant key

theorem holdings_start {w : LeaseTable} (hw : w.Sound) (calls : Nat → LeaseCall) :
    Holdings (LeaseSystem.init w calls) where
  sound := hw
  instant _ := Nat.zero_le _
  fresh _ _ h := nomatch h
  apart _ _ _ _ _ h := nomatch h
  listed _ _ _ h := nomatch h
  backed _ _ h := nomatch h.1

section Step

variable {localeLE : String → String → Bool} {c c' : LeaseSystem} {t : Nat}

/-- A step that changes no grant and no list keeps the invariant when the grants stay backed. -/
theorem Holdings.of_frame (hinv : Holdings c) (hsound : c'.world.Sound)
    (hinstant : ∀ u, (holdingOf c'.log u).instant ≤ c'.world.clock)
    (hnext : c.world.nextId ≤ c'.world.nextId)
    (hgrant : ∀ u, (holdingOf c'.log u).grant = (holdingOf c.log u).grant)
    (hlisted : ∀ u, (holdingOf c'.log u).listed = (holdingOf c.log u).listed)
    (hbacks : ∀ u grant, (holdingOf c.log u).RunsUnder grant → ∀ key,
      c.world.Backs grant key → c'.world.Backs grant key) : Holdings c' where
  sound := hsound
  instant := hinstant
  fresh u grant h id hid := by
    rw [hgrant] at h
    exact Nat.lt_of_lt_of_le (hinv.fresh u grant h id hid) hnext
  apart u v grant grant' hne h h' := by
    rw [hgrant] at h h'
    exact hinv.apart u v grant grant' hne h h'
  listed u grant leases h h' := by
    rw [hgrant] at h
    rw [hlisted] at h'
    exact hinv.listed u grant leases h h'
  backed u grant h key hkey := by
    have hrun : (holdingOf c.log u).RunsUnder grant := by
      rw [Holding.RunsUnder, ← hgrant, ← hlisted]
      exact h
    exact hbacks u grant hrun key (hinv.backed u grant hrun key hkey)

variable {o : LeaseOp}

variable {k : o.Ans → LeaseProg Unit}

theorem holdingOf_advance_self :
    holdingOf (Pool.advance (leaseMachine localeLE) c t o k).log t =
      (holdingOf c.log t).next o (o.exec localeLE c.world).2 :=
  Pool.track_advance_self

theorem holdingOf_advance_of_ne {u : Nat} (h : u ≠ t) :
    holdingOf (Pool.advance (leaseMachine localeLE) c t o k).log u = holdingOf c.log u :=
  Pool.track_advance_of_ne h

/-- Operations that leave the holding of their call alone. -/
theorem holdingOf_advance (hsame : ∀ g : Holding, g.next o (o.exec localeLE c.world).2 = g)
    (u : Nat) :
    holdingOf (Pool.advance (leaseMachine localeLE) c t o k).log u = holdingOf c.log u := by
  by_cases hu : u = t
  · subst hu
    rw [holdingOf_advance_self, hsame]
  · exact holdingOf_advance_of_ne hu

/-- An operation that is not seen in any holding. -/
theorem Holdings.quiet (hinv : Holdings c)
    (hsame : ∀ g : Holding, g.next o (o.exec localeLE c.world).2 = g)
    (hclock : c.world.clock ≤ (o.exec localeLE c.world).1.clock)
    (hnext : c.world.nextId ≤ (o.exec localeLE c.world).1.nextId)
    (hbacks : ∀ u grant, (holdingOf c.log u).RunsUnder grant → ∀ key, c.world.Backs grant key →
      (o.exec localeLE c.world).1.Backs grant key) :
    Holdings (Pool.advance (leaseMachine localeLE) c t o k) := by
  have hholding := holdingOf_advance (t := t) (k := k) hsame
  refine hinv.of_frame (hinv.sound.exec localeLE o) (fun u => ?_) hnext
    (fun u => by rw [hholding]) (fun u => by rw [hholding]) hbacks
  rw [hholding]
  exact (hinv.instant u).trans hclock

theorem holdings_now (hinv : Holdings c) {k : LeaseOp.now.Ans → LeaseProg Unit} :
    Holdings (Pool.advance (leaseMachine localeLE) c t .now k) := by
  refine hinv.of_frame hinv.sound (fun u => ?_) le_rfl (fun u => ?_) (fun u => ?_)
    fun _ _ _ _ h => h
  all_goals
    by_cases hu : u = t
    · subst hu
      rw [holdingOf_advance_self]
      first
        | exact le_rfl
        | rfl
    · rw [holdingOf_advance_of_ne hu]
      try exact hinv.instant u

/-- An acquisition that is granted. -/
theorem holdings_acquired (hinv : Holdings c)
    {k : (LeaseOp.acquire input instant).Ans → LeaseProg Unit} {w' : LeaseTable} {ids : List Nat}
    (hissue : HoldingIssues (holdingOf c.log t) (.acquire input instant))
    (hacquire : KanbanOrchestrationLeaseRepository.acquire localeLE c.world input instant = (w',
      .ok (.acquired ids))) :
    Holdings (Pool.advance (leaseMachine localeLE) c t (.acquire input instant) k) := by
  obtain ⟨hread, hnone, hunlisted⟩ := hissue
  have hclock : instant ≤ c.world.clock := hread ▸ hinv.instant t
  have hworld : (Pool.advance (leaseMachine localeLE) c t (.acquire input instant) k).world = w' :=
    congrArg Prod.fst hacquire
  have hself : holdingOf (Pool.advance (leaseMachine localeLE) c t (.acquire input instant) k).log
      t = { holdingOf c.log t with grant := some ⟨input, instant, ids⟩ } := by
    rw [holdingOf_advance_self]
    have hanswer := congrArg Prod.snd hacquire
    simp only [LeaseOp.exec, hanswer, Holding.next]
  have hother : ∀ u, u ≠ t → holdingOf
      (Pool.advance (leaseMachine localeLE) c t (.acquire input instant) k).log u =
        holdingOf c.log u := fun u hu => holdingOf_advance_of_ne hu
  obtain ⟨hsame, hnext, hnew⟩ : w'.clock = c.world.clock ∧ c.world.nextId ≤ w'.nextId ∧
      ∀ id ∈ ids, c.world.nextId ≤ id ∧ id < w'.nextId := by
    rcases acquire_cases localeLE c.world input instant with ⟨w'', ids', hcase, rfl, rfl⟩ | hcase
    · rw [hacquire] at hcase
      obtain ⟨rfl, hids⟩ := Prod.mk.inj hcase
      obtain rfl := AcquireLeaseResult.acquired.inj (Except.ok.inj hids)
      exact ⟨rfl, Nat.le_add_right _ _, fun id hid => List.mem_range'_1.1 hid⟩
    · rw [hacquire] at hcase
      cases (Prod.mk.inj hcase).2
  refine ⟨hinv.sound.exec localeLE _, fun u => ?_, fun u grant h id hid => ?_,
    fun u v grant grant' hne h h' id hid hid' => ?_, fun u grant leases h h' => ?_,
    fun u grant h key hkey => ?_⟩
  · rw [hworld, hsame]
    by_cases hu : u = t
    · rw [hu, hself]
      exact hinv.instant t
    · rw [hother u hu]
      exact hinv.instant u
  · rw [hworld]
    by_cases hu : u = t
    · rw [hu, hself, Option.some.injEq] at h
      subst h
      exact (hnew id hid).2
    · rw [hother u hu] at h
      exact Nat.lt_of_lt_of_le (hinv.fresh u grant h id hid) hnext
  · -- the ids of the new grant are drawn after those of every other grant
    by_cases hu : u = t
    · have hv : v ≠ t := fun hv => hne (hu.trans hv.symm)
      rw [hu, hself, Option.some.injEq] at h
      rw [hother v hv] at h'
      subst h
      exact absurd (hinv.fresh v grant' h' id hid') (Nat.not_lt.2 (hnew id hid).1)
    · rw [hother u hu] at h
      by_cases hv : v = t
      · rw [hv, hself, Option.some.injEq] at h'
        subst h'
        exact absurd (hinv.fresh u grant h id hid) (Nat.not_lt.2 (hnew id hid').1)
      · rw [hother v hv] at h'
        exact hinv.apart u v grant grant' hne h h' id hid hid'
  · by_cases hu : u = t
    · rw [hu, hself, hunlisted] at h'
      cases h'
    · rw [hother u hu] at h h'
      exact hinv.listed u grant leases h h'
  · rw [hworld]
    by_cases hu : u = t
    · rw [hu, hself] at h
      obtain rfl := Option.some.inj h.1
      exact backs_of_acquired hacquire hkey
    · rw [hother u hu] at h
      have hbacked := (hinv.backed u grant h key hkey).acquire localeLE input hclock
      rw [hacquire] at hbacked
      exact hbacked

theorem holdings_acquire (hinv : Holdings c)
    {k : (LeaseOp.acquire input instant).Ans → LeaseProg Unit}
    (hissue : HoldingIssues (holdingOf c.log t) (.acquire input instant)) :
    Holdings (Pool.advance (leaseMachine localeLE) c t (.acquire input instant) k) := by
  rcases acquire_cases localeLE c.world input instant with ⟨w', ids, hacquire, -⟩ | hacquire
  · exact holdings_acquired hinv hissue hacquire
  · have hanswer : ((LeaseOp.acquire input instant).exec localeLE c.world) =
        (c.world, .error .inFailedTransaction) := hacquire
    refine hinv.quiet (fun g => ?_) ?_ ?_ fun u grant _ key h => ?_
    · rw [hanswer]
      rfl
    · rw [hanswer]
    · rw [hanswer]
    · rw [hanswer]
      exact h

/-- The list of a `finally` block has no lease of another acquisition under the owner id. -/
theorem holdings_list (hinv : Holdings c) {projectId : String}
    {k : (LeaseOp.listActiveByProject projectId).Ans → LeaseProg Unit}
    (hcond : OwnLeasesListed c t (.listActiveByProject projectId)) :
    Holdings (Pool.advance (leaseMachine localeLE) c t (.listActiveByProject projectId) k) := by
  have hself : holdingOf
      (Pool.advance (leaseMachine localeLE) c t (.listActiveByProject projectId) k).log t =
        { holdingOf c.log t with
          listed := some (c.world.rows.filter (Lease.isActiveIn projectId)) } :=
    holdingOf_advance_self
  have hother : ∀ u, u ≠ t → holdingOf
      (Pool.advance (leaseMachine localeLE) c t (.listActiveByProject projectId) k).log u =
        holdingOf c.log u := fun u hu => holdingOf_advance_of_ne hu
  have hgrant : ∀ u, (holdingOf
      (Pool.advance (leaseMachine localeLE) c t (.listActiveByProject projectId) k).log u).grant =
        (holdingOf c.log u).grant := by
    intro u
    by_cases hu : u = t
    · rw [hu, hself]
    · rw [hother u hu]
  refine ⟨hinv.sound, fun u => ?_, fun u grant h => ?_, fun u v grant grant' hne h h' => ?_,
    fun u grant leases h h' => ?_, fun u grant h => ?_⟩
  · by_cases hu : u = t
    · rw [hu, hself]
      exact hinv.instant t
    · rw [hother u hu]
      exact hinv.instant u
  · rw [hgrant] at h
    exact hinv.fresh u grant h
  · rw [hgrant] at h h'
    exact hinv.apart u v grant grant' hne h h'
  · rw [hgrant] at h
    by_cases hu : u = t
    · rw [hu, hself, Option.some.injEq] at h'
      subst h'
      intro lease hlease howner
      obtain ⟨hmem, hactive⟩ := List.mem_filter.1 hlease
      rw [hu] at h
      exact hcond grant (by rw [h]; exact List.mem_singleton_self _) lease hmem hactive howner
    · rw [hother u hu] at h'
      exact hinv.listed u grant leases h h'
  · by_cases hu : u = t
    · rw [hu, hself] at h
      cases h.2
    · rw [hother u hu] at h
      exact hinv.backed u grant h

/-- A release ends a lease of the call itself, whose section is over. -/
theorem holdings_release (hinv : Holdings c) {leaseId : Nat} {ownerId : String}
    {k : (LeaseOp.release leaseId ownerId).Ans → LeaseProg Unit}
    (hissue : HoldingIssues (holdingOf c.log t) (.release leaseId ownerId)) :
    Holdings (Pool.advance (leaseMachine localeLE) c t (.release leaseId ownerId) k) := by
  obtain ⟨own, leases, hown, hlisted, howner, lease₁, hlease₁, rfl, howner₁⟩ := hissue
  have hid : lease₁.id ∈ own.leaseIds :=
    hinv.listed t own leases hown hlisted lease₁ hlease₁ (howner₁.trans howner.symm)
  refine hinv.quiet (fun _ => rfl) le_rfl le_rfl fun u grant hrun key hbacks => ?_
  refine hbacks.updateWhere (fun _ => ⟨rfl, rfl, rfl, rfl⟩) fun lease _ hmem howned => ?_
  have hne : t ≠ u := by
    rintro rfl
    have hnone := hrun.2
    rw [hlisted] at hnone
    cases hnone
  have hsame : lease.id = lease₁.id := by
    simp only [Lease.isOwned, Bool.and_eq_true, decide_eq_true_eq] at howned
    exact howned.1.1
  exact absurd (hsame ▸ hmem) (hinv.apart t u own grant hne hown hrun.1 _ hid)

theorem holdings_expireOverdue (hinv : Holdings c)
    {k : (LeaseOp.expireOverdue instant).Ans → LeaseProg Unit}
    (hissue : HoldingIssues (holdingOf c.log t) (.expireOverdue instant)) :
    Holdings (Pool.advance (leaseMachine localeLE) c t (.expireOverdue instant) k) := by
  have hread : (holdingOf c.log t).instant = instant := hissue
  refine hinv.quiet (fun _ => rfl) le_rfl le_rfl fun u grant _ key hbacks => ?_
  refine hbacks.updateWhere (fun _ => ⟨rfl, rfl, rfl, rfl⟩) fun lease _ _ hoverdue => ?_
  rw [Lease.isOverdue, Bool.and_eq_true, decide_eq_true_eq] at hoverdue
  exact Nat.lt_of_lt_of_le hoverdue.2 (hread ▸ hinv.instant t)

/-- **One step.** Every operation a call may issue keeps the invariant under the condition. -/
theorem holdings_step (hinv : Holdings c) (hissue : HoldingIssues (holdingOf c.log t) o)
    (hcond : OwnLeasesListed c t o) :
    Holdings (Pool.advance (leaseMachine localeLE) c t o k) := by
  cases o with
  | now => exact holdings_now hinv
  | elapse ms =>
      exact hinv.quiet (fun _ => rfl) (Nat.le_add_right _ _) le_rfl fun _ _ _ _ h => h.elapse ms
  | acquire input instant => exact holdings_acquire hinv hissue
  | heartbeat leaseId ttlMs => exact hissue.elim
  | release leaseId ownerId => exact holdings_release hinv hissue
  | findOverdue instant =>
      exact hinv.quiet (fun _ => rfl) le_rfl le_rfl fun _ _ _ _ h => h
  | expireOverdue instant => exact holdings_expireOverdue hinv hissue
  | listActiveByProject projectId => exact holdings_list hinv hcond
  | countActiveByLane projectId lane =>
      exact hinv.quiet (fun _ => rfl) le_rfl le_rfl fun _ _ _ _ h => h
  | listActiveByLane projectId lane =>
      exact hinv.quiet (fun _ => rfl) le_rfl le_rfl fun _ _ _ _ h => h
  | releaseAllForProject projectId => exact hissue.elim

end Step

/-- The section of a call runs under a lease for the key that has not expired. -/
def SectionRuns (c : LeaseSystem) (t : Nat) (projectId : String) (key : OrchestrationConflictKey) :
    Prop :=
  ∃ grant, (holdingOf c.log t).RunsUnder grant ∧ grant.input.projectId = projectId ∧
    key ∈ grant.input.conflictKeys ∧ c.world.clock ≤ grant.expiresAt

/-- **A holder releases its own leases.** In every run in which the `finally` blocks list no lease
of another acquisition under their owner id, every release is of a lease that the call itself was
granted, and at most one section of a key runs under a lease that has not expired. -/
theorem owned_leases_released {localeLE : String → String → Bool}
    {fingerprint : StructuredOrchestrationDecision → String} {w : LeaseTable}
    {calls : Nat → SectionCall} {c : LeaseSystem} (hw : w.Sound)
    (h : Pool.Reach (leaseMachine localeLE) OwnLeasesListed
      (LeaseSystem.init w fun t => (calls t).call fingerprint) c) :
    (∀ t leaseId ownerId k, c.threads t = .call (.release leaseId ownerId) k →
      ∃ grant, (holdingOf c.log t).grant = some grant ∧ leaseId ∈ grant.leaseIds) ∧
    ∀ t u projectId key, SectionRuns c t projectId key → SectionRuns c u projectId key → t = u := by
  have hmeets : ∀ t, Prog.Meets (Pool.following Holding.next HoldingIssues fun _ _ _ => True)
      (fun _ _ => True) (fun _ _ => True)
      ((LeaseSystem.init w fun t => (calls t).call fingerprint).threads t)
      (Pool.track Holding.next (fun _ => {})
        (LeaseSystem.init w fun t => (calls t).call fingerprint).log t) :=
    fun t => program_keepsHolding fingerprint (calls t)
  obtain ⟨hinv, hkeeps⟩ : Holdings c ∧ ∀ t, Prog.Meets
      (Pool.following Holding.next HoldingIssues fun _ _ _ => True) (fun _ _ => True)
      (fun _ _ => True) (c.threads t) (holdingOf c.log t) := by
    refine Pool.Reach.follows hmeets (holdings_start hw _) ?_ h
    intro c t o k hinv _ hissue _ hcond
    exact ⟨trivial, holdings_step hinv hissue hcond⟩
  refine ⟨fun t leaseId ownerId k hthread => ?_, ?_⟩
  · have hissue := hkeeps t
    rw [hthread, Prog.meets_call] at hissue
    obtain ⟨grant, leases, hgrant, hlisted, howner, lease, hlease, rfl, hlowner⟩ := hissue.1
    exact ⟨grant, hgrant, hinv.listed t grant leases hgrant hlisted lease hlease
      (hlowner.trans howner.symm)⟩
  · rintro t u projectId key ⟨grant, hrun, hproject, hkey, hlive⟩
      ⟨grant', hrun', hproject', hkey', hlive'⟩
    -- both keys have an active lease, which the index keeps unique
    have hactive : ∀ (grant : LeaseGrant), c.world.Backs grant key →
        grant.input.projectId = projectId → c.world.clock ≤ grant.expiresAt →
        ∃ lease ∈ c.world.rows, lease.id ∈ grant.leaseIds ∧ lease.holds projectId key = true := by
      rintro grant ⟨lease, hlease, hid, hlproject, hlkey, hexpires, hstatus⟩ hproject hlive
      refine ⟨lease, hlease, hid, ?_⟩
      have hstill : lease.isActive = true := by
        refine hstatus.resolve_right fun hpast => ?_
        rw [hexpires] at hpast
        exact absurd hpast (Nat.not_lt.2 hlive)
      simp [Lease.holds, hstill, hlproject, hproject, hlkey]
    obtain ⟨lease, hlease, hid, hholds⟩ :=
      hactive grant (hinv.backed t grant hrun key hkey) hproject hlive
    obtain ⟨lease', hlease', hid', hholds'⟩ :=
      hactive grant' (hinv.backed u grant' hrun' key hkey') hproject' hlive'
    have hsame := hinv.sound.eq_of_holds hlease hlease' hholds hholds'
    by_contra hne
    exact hinv.apart t u grant grant' hne hrun.1 hrun'.1 lease.id hid (hsame ▸ hid')

/-! ## Runs on one work item -/

/-- Two dispatches of one item, a review of it, and time that passes. -/
def itemSections : Nat → SectionCall
  | 0 => .runLink "project" "item" .dispatch none
  | 1 => .runLink "project" "item" .dispatch none
  | 2 => .runLink "project" "item" .review none
  | _ => .elapse 40000

def itemStart : LeaseSystem :=
  LeaseSystem.init {} fun t => (itemSections t).call fun _ => ""

/-- The configuration after a schedule. -/
def itemRun (sched : List (Nat × Nat)) : LeaseSystem :=
  Pool.play (leaseMachine byCodePoint) sched itemStart

/-- What `acquireRunLease` asks for with an action. -/
def itemRequest (action : WorkItemRunAction) : AcquireLeaseInput :=
  OrchestrationLeaseService.acquireOfMutation (runLeaseInput "project" "item" action none)

/-- A dispatch is over before the review begins: the section of the review is the only one. -/
theorem owned_leases_released_in_turn :
    SectionRuns (itemRun [(0, 5), (2, 3)]) 2 "project"
      (WorkItemRunLeaseService.buildConflictKey "project" "item") ∧
    ¬ SectionRuns (itemRun [(0, 5), (2, 3)]) 0 "project"
      (WorkItemRunLeaseService.buildConflictKey "project" "item") := by
  have hadmitted : Pool.admits (leaseMachine byCodePoint) OwnLeasesListed [(0, 5), (2, 3)]
      itemStart = true := by decide +kernel
  have hruns : SectionRuns (itemRun [(0, 5), (2, 3)]) 2 "project"
      (WorkItemRunLeaseService.buildConflictKey "project" "item") := by
    refine ⟨⟨itemRequest .review, 0, [1]⟩, ⟨?_, ?_⟩, rfl, List.mem_cons_self, ?_⟩ <;>
      decide +kernel
  refine ⟨hruns, fun hfirst => ?_⟩
  have hsame : 2 = 0 :=
    (owned_leases_released soundEmpty (Pool.reach_play_of_admits _ _ hadmitted)).2 _ _ _ _
      hruns hfirst
  cases hsame

/-- The first dispatch outlasts its lease, the second one takes over, and the `finally` block of the
first ends the lease of the second: a review of the item is granted while the second runs. -/
theorem foreign_lease_released :
    ∃ c : LeaseSystem, Pool.Reach (leaseMachine byCodePoint) Pool.anyStep itemStart c ∧
      (holdingOf c.log 0).grant = some ⟨itemRequest .dispatch, 0, [0]⟩ ∧
      (holdingOf c.log 1).grant = some ⟨itemRequest .dispatch, 40000, [1]⟩ ∧
      (∃ e ∈ c.log, e.tid = 0 ∧ e.op.releasedId = some 1) ∧
      SectionRuns c 1 "project" (WorkItemRunLeaseService.buildConflictKey "project" "item") ∧
      SectionRuns c 2 "project" (WorkItemRunLeaseService.buildConflictKey "project" "item") := by
  refine ⟨itemRun [(0, 3), (3, 1), (1, 3), (0, 2), (2, 3)], Pool.reach_play _ _,
    by decide +kernel, by decide +kernel, by decide +kernel, ?_, ?_⟩
  · refine ⟨⟨itemRequest .dispatch, 40000, [1]⟩, ⟨?_, ?_⟩, rfl, List.mem_cons_self, ?_⟩ <;>
      decide +kernel
  · refine ⟨⟨itemRequest .review, 40000, [2]⟩, ⟨?_, ?_⟩, rfl, List.mem_cons_self, ?_⟩ <;>
      decide +kernel

end Nexus
