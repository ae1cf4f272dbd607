import Nexus.Execution.Lifecycle
import Nexus.Lib.LeaseCell
import Mathlib.Data.Int.Order.Basic
import Mathlib.Data.List.Induction

/-!
# Owner leases

`ExecutionOwnerLeaseService.claim` writes the instance and an expiry into the row of an execution,
renews the expiry by a timer and releases the row when it is stopped. The writes are conditional on
the instance, not on the claim, so the claims of one instance share its lease: an instance may claim
again what it holds, and any of its claims releases the row. Between instances the lease excludes
(`owner_leases_exclude`).
-/

set_option autoImplicit false

namespace Nexus

namespace ExecutionOwnerLeaseService

/-! ## The row -/

/-- The columns of `executions` that the lease is about. -/
structure OwnerLeaseRow where
  state : ExecutionState := .running
  owner_instance_id : Option String := none
  owner_lease_expires_at : Option Int := none
  last_progress_at : Option Int := none
  deriving DecidableEq, Repr

structure OwnerLeaseParams where
  ownerInstanceId : String
  now : Int
  leaseExpiresAt : Int

def EXECUTION_OWNER_LEASE_TTL_MS : Int := 2 * 60000

def buildParams (instanceId : String) (now : Int) : OwnerLeaseParams where
  ownerInstanceId := instanceId
  now := now
  leaseExpiresAt := now + EXECUTION_OWNER_LEASE_TTL_MS

/-- The condition of `claimOwnerLease` on the columns of the lease. -/
def OwnerLeaseRow.isClaimable (row : OwnerLeaseRow) (params : OwnerLeaseParams) : Bool :=
  row.owner_instance_id.isNone || row.owner_instance_id = some params.ownerInstanceId ||
    row.owner_lease_expires_at.any fun expiresAt => expiresAt < params.now

/-- `claimOwnerLease`: the row, and whether it was written. -/
def claimOwnerLease (row : OwnerLeaseRow) (params : OwnerLeaseParams) : OwnerLeaseRow × Bool :=
  if isTerminalState row.state = false ∧ row.isClaimable params = true then
    ({ row with
        owner_instance_id := some params.ownerInstanceId
        owner_lease_expires_at := some params.leaseExpiresAt
        last_progress_at := some params.now }, true)
  else (row, false)

/-- `renewOwnerLease`. -/
def renewOwnerLease (row : OwnerLeaseRow) (params : OwnerLeaseParams) : OwnerLeaseRow × Bool :=
  if row.owner_instance_id = some params.ownerInstanceId ∧ isTerminalState row.state = false then
    ({ row with
        owner_lease_expires_at := some params.leaseExpiresAt
        last_progress_at := some params.now }, true)
  else (row, false)

/-- `releaseOwnerLease`. -/
def releaseOwnerLease (row : OwnerLeaseRow) (ownerInstanceId : String) : OwnerLeaseRow :=
  if row.owner_instance_id = some ownerInstanceId then
    { row with owner_instance_id := none, owner_lease_expires_at := none }
  else row

/-! ## Claims -/

inductive ClaimPhase where
  | fresh
  /-- The clock is read, the update under way. -/
  | claiming (now : Int)
  /-- `claimed: true` was returned, and the timer runs. -/
  | active
  | refused
  | stopped
  deriving DecidableEq, Repr

/-- A call of `claim`, with its renewals and releases under way. -/
structure OwnerClaim where
  instanceId : String := ""
  phase : ClaimPhase := .fresh
  /-- The clock readings of the renewals. -/
  renewals : List Int := []
  releases : Nat := 0
  deriving DecidableEq, Repr

/-- One execution and the claims on it. `leaseUntil` is what each instance knows of its lease: the
expiry that its last successful claim or renewal wrote. -/
structure LeaseSystem where
  row : OwnerLeaseRow := {}
  clock : Int := 0
  claims : Nat → OwnerClaim := fun _ => {}
  leaseUntil : String → Option Int := fun _ => none

inductive LeaseAction where
  | advance (ms : Nat)
  /-- `claim` is called on the instance. -/
  | claim (c : Nat) (instanceId : String)
  | claimLands (c : Nat)
  | claimFails (c : Nat)
  /-- The timer of the claim fires. -/
  | tick (c : Nat)
  | renewLands (c : Nat) (now : Int)
  | renewFails (c : Nat) (now : Int)
  /-- `stop` is called. -/
  | stop (c : Nat)
  | releaseLands (c : Nat)
  | releaseFails (c : Nat)
  /-- Something else moves the execution to another state. -/
  | transition (state : ExecutionState)
  deriving DecidableEq, Repr

def LeaseSystem.setClaim (s : LeaseSystem) (c : Nat) (claim : OwnerClaim) : LeaseSystem :=
  { s with claims := Function.update s.claims c claim }

/-- A successful write by an instance. -/
def LeaseSystem.extend (s : LeaseSystem) (row : OwnerLeaseRow) (params : OwnerLeaseParams) :
    LeaseSystem :=
  { s with
    row := row
    leaseUntil := Function.update s.leaseUntil params.ownerInstanceId (some params.leaseExpiresAt) }

/-- One step; an action that cannot happen changes nothing. -/
def step (s : LeaseSystem) : LeaseAction → LeaseSystem
  | .advance ms => { s with clock := s.clock + ms }
  | .claim c instanceId =>
      if (s.claims c).phase = .fresh then
        s.setClaim c { s.claims c with instanceId := instanceId, phase := .claiming s.clock }
      else s
  | .claimLands c =>
      match (s.claims c).phase with
      | .claiming now =>
          let params := buildParams (s.claims c).instanceId now
          match claimOwnerLease s.row params with
          | (row, true) => (s.extend row params).setClaim c { s.claims c with phase := .active }
          | (_, false) => s.setClaim c { s.claims c with phase := .refused }
      | _ => s
  | .claimFails c =>
      match (s.claims c).phase with
      | .claiming _ => s.setClaim c { s.claims c with phase := .refused }
      | _ => s
  | .tick c =>
      if (s.claims c).phase = .active then
        s.setClaim c { s.claims c with renewals := s.clock :: (s.claims c).renewals }
      else s
  | .renewLands c now =>
      if now ∈ (s.claims c).renewals then
        let params := buildParams (s.claims c).instanceId now
        let claim := { s.claims c with renewals := (s.claims c).renewals.erase now }
        match renewOwnerLease s.row params with
        | (row, true) => (s.extend row params).setClaim c claim
        | (_, false) => s.setClaim c claim
      else s
  | .renewFails c now =>
      s.setClaim c { s.claims c with renewals := (s.claims c).renewals.erase now }
  | .stop c =>
      if (s.claims c).phase = .active ∨ (s.claims c).phase = .stopped then
        s.setClaim c { s.claims c with
          phase := .stopped, releases := (s.claims c).releases + 1 }
      else s
  | .releaseLands c =>
      if 0 < (s.claims c).releases then
        { s with row := releaseOwnerLease s.row (s.claims c).instanceId }.setClaim c
          { s.claims c with releases := (s.claims c).releases - 1 }
      else s
  | .releaseFails c =>
      s.setClaim c { s.claims c with releases := (s.claims c).releases - 1 }
  | .transition state => { s with row := { s.row with state := state } }

/-- A run from a row that nobody has claimed in the run. -/
def run (row : OwnerLeaseRow) (clock : Int) (actions : List LeaseAction) : LeaseSystem :=
  actions.foldl step { row := row, clock := clock }

/-! ## Held claims -/

/-- The claim returned `claimed: true`, is not stopped, and the lease of its instance has not
expired. -/
def LeaseSystem.Held (s : LeaseSystem) (c : Nat) : Prop :=
  (s.claims c).phase = .active ∧
    ∃ u, s.leaseUntil (s.claims c).instanceId = some u ∧ s.clock ≤ u

/-- No claim releases the row while another claim of its instance is held. -/
def NoSiblingRelease (row : OwnerLeaseRow) (clock : Int) (actions : List LeaseAction) : Prop :=
  ∀ before c after, actions = before ++ .releaseLands c :: after →
    ∀ c', c' ≠ c → (run row clock before).Held c' →
      ((run row clock before).claims c').instanceId ≠ ((run row clock before).claims c).instanceId

/-! ## The invariant -/

/-- The lease in the row. -/
def LeaseSystem.cell (s : LeaseSystem) : LeaseCell String Int :=
  ⟨s.row.owner_instance_id, s.row.owner_lease_expires_at⟩

/-- An instance with a claim that is not stopped. -/
def LeaseSystem.Live (s : LeaseSystem) (instanceId : String) : Prop :=
  ∃ c, (s.claims c).phase = .active ∧ (s.claims c).instanceId = instanceId

/-- What the claims under way have read and done. -/
structure ClaimsInv (claims : Nat → OwnerClaim) (clock : Int) : Prop where
  read : ∀ c now, (claims c).phase = .claiming now → now ≤ clock
  stopped : ∀ c, 0 < (claims c).releases → (claims c).phase = .stopped

structure LeaseInv (s : LeaseSystem) : Prop where
  covers : s.cell.Covers s.leaseUntil s.Live s.clock
  claims : ClaimsInv s.claims s.clock

section Steps

variable {s : LeaseSystem} {c : Nat} {claim : OwnerClaim} {params : OwnerLeaseParams}
  {row : OwnerLeaseRow} {instanceId : String}

theorem ClaimsInv.update {claims : Nat → OwnerClaim} {clock : Int} (h : ClaimsInv claims clock)
    (hread : ∀ now, claim.phase = .claiming now → now ≤ clock)
    (hstopped : 0 < claim.releases → claim.phase = .stopped) :
    ClaimsInv (Function.update claims c claim) clock where
  read := by
    intro c' now hclaiming
    by_cases hc : c' = c
    · subst hc
      rw [Function.update_self] at hclaiming
      exact hread now hclaiming
    · rw [Function.update_of_ne hc] at hclaiming
      exact h.read c' now hclaiming
  stopped := by
    intro c' hreleases
    by_cases hc : c' = c
    · subst hc
      rw [Function.update_self] at hreleases ⊢
      exact hstopped hreleases
    · rw [Function.update_of_ne hc] at hreleases ⊢
      exact h.stopped c' hreleases

/-- A changed claim makes an instance live only as an active claim of it. -/
theorem live_setClaim (h : (s.setClaim c claim).Live instanceId) :
    s.Live instanceId ∨ claim.phase = .active ∧ claim.instanceId = instanceId := by
  obtain ⟨c', hactive, hinstance⟩ := h
  simp only [LeaseSystem.setClaim] at hactive hinstance
  by_cases hc : c' = c
  · subst hc
    rw [Function.update_self] at hactive hinstance
    exact .inr ⟨hactive, hinstance⟩
  · rw [Function.update_of_ne hc] at hactive hinstance
    exact .inl ⟨c', hactive, hinstance⟩

/-- A changed claim that is not newly active. -/
theorem LeaseInv.setClaim (h : LeaseInv s)
    (hactive : claim.phase = .active →
      (s.claims c).phase = .active ∧ claim.instanceId = (s.claims c).instanceId)
    (hread : ∀ now, claim.phase = .claiming now → now ≤ s.clock)
    (hstopped : 0 < claim.releases → claim.phase = .stopped) :
    LeaseInv (s.setClaim c claim) where
  covers := by
    apply h.covers.mono
    intro i hlive
    rcases live_setClaim hlive with hlive | ⟨hphase, rfl⟩
    · exact hlive
    · obtain ⟨hold, hsame⟩ := hactive hphase
      exact ⟨c, hold, hsame.symm⟩
  claims := h.claims.update hread hstopped

/-- A changed claim of the same phase. -/
theorem LeaseInv.setClaim_samePhase (h : LeaseInv s) (hphase : claim.phase = (s.claims c).phase)
    (hinstance : claim.instanceId = (s.claims c).instanceId)
    (hreleases : 0 < claim.releases → 0 < (s.claims c).releases) :
    LeaseInv (s.setClaim c claim) := by
  apply h.setClaim
  · intro hactive
    exact ⟨hphase ▸ hactive, hinstance⟩
  · intro now hclaiming
    exact h.claims.read c now (hphase ▸ hclaiming)
  · intro hpos
    exact hphase.trans (h.claims.stopped c (hreleases hpos))

/-- A successful write of the row by the instance of a claim. -/
theorem LeaseInv.write {now : Int} (h : LeaseInv s)
    (hclaimable : s.cell.Claimable params.ownerInstanceId now) (hnow : now ≤ s.clock)
    (howner : row.owner_instance_id = some params.ownerInstanceId)
    (hexpires : row.owner_lease_expires_at = some params.leaseExpiresAt)
    (hinstance : claim.instanceId = params.ownerInstanceId)
    (hread : ∀ now, claim.phase = .claiming now → now ≤ s.clock)
    (hstopped : 0 < claim.releases → claim.phase = .stopped) :
    LeaseInv ((s.extend row params).setClaim c claim) where
  covers := by
    have hcell : ((s.extend row params).setClaim c claim).cell =
        ⟨some params.ownerInstanceId, some params.leaseExpiresAt⟩ := by
      rw [LeaseSystem.cell, ← howner, ← hexpires]
      rfl
    rw [hcell]
    apply h.covers.write hclaimable hnow
    intro i hlive hne
    rcases live_setClaim hlive with hlive | ⟨-, hsame⟩
    · exact hlive
    · exact absurd (hsame.symm.trans hinstance) hne
  claims := h.claims.update hread hstopped

/-- What a claim writes: its instance and expiry, into a row that was claimable. -/
theorem claimOwnerLease_written (h : claimOwnerLease s.row params = (row, true)) :
    row.owner_instance_id = some params.ownerInstanceId ∧
      row.owner_lease_expires_at = some params.leaseExpiresAt ∧
      s.cell.Claimable params.ownerInstanceId params.now := by
  unfold claimOwnerLease at h
  split at h
  · rename_i hcan
    obtain ⟨rfl, -⟩ := Prod.mk.inj h
    refine ⟨rfl, rfl, ?_⟩
    have hclaimable := hcan.2
    rw [OwnerLeaseRow.isClaimable, Bool.or_eq_true, Bool.or_eq_true] at hclaimable
    rcases hclaimable with (hnone | hself) | hexpired
    · exact .inl (Option.isNone_iff_eq_none.1 hnone)
    · exact .inr (.inl (of_decide_eq_true hself))
    · obtain ⟨u, hu, hlt⟩ := (Option.any_eq_true _ _).1 hexpired
      exact .inr (.inr ⟨u, hu, of_decide_eq_true hlt⟩)
  · exact absurd (Prod.mk.inj h).2 (by decide)

/-- What a renewal writes: the expiry, into a row of its instance. -/
theorem renewOwnerLease_written (h : renewOwnerLease s.row params = (row, true)) :
    row.owner_instance_id = some params.ownerInstanceId ∧
      row.owner_lease_expires_at = some params.leaseExpiresAt ∧
      s.row.owner_instance_id = some params.ownerInstanceId := by
  unfold renewOwnerLease at h
  split at h
  · rename_i hcan
    obtain ⟨rfl, -⟩ := Prod.mk.inj h
    exact ⟨hcan.1, rfl, hcan.1⟩
  · exact absurd (Prod.mk.inj h).2 (by decide)

/-- A release when no other claim of the instance is held. -/
theorem LeaseInv.release (h : LeaseInv s) (hreleases : 0 < (s.claims c).releases)
    (halone : ∀ c', c' ≠ c → s.Held c' → (s.claims c').instanceId ≠ (s.claims c).instanceId) :
    LeaseInv (step s (.releaseLands c)) := by
  have hstopped := h.claims.stopped c hreleases
  simp only [step, if_pos hreleases]
  refine ⟨?_, h.claims.update ?_ fun _ => hstopped⟩
  · have hlive : ∀ i, ({ s with row := releaseOwnerLease s.row (s.claims c).instanceId
        }.setClaim c { s.claims c with releases := (s.claims c).releases - 1 }).Live i →
        s.Live i := by
      intro i hlive
      rcases live_setClaim hlive with hlive | ⟨hactive, -⟩
      · exact hlive
      · rw [hstopped] at hactive
        cases hactive
    by_cases howner : s.row.owner_instance_id = some (s.claims c).instanceId
    · have hcell : ({ s with row := releaseOwnerLease s.row (s.claims c).instanceId
          }.setClaim c { s.claims c with releases := (s.claims c).releases - 1 }).cell =
          ⟨none, none⟩ := by
        simp only [LeaseSystem.cell, LeaseSystem.setClaim, releaseOwnerLease, if_pos howner]
      rw [hcell]
      apply h.covers.clear howner hlive
      intro u hown hledger hu
      obtain ⟨c', hactive, hinstance⟩ := hlive _ hown
      have hne : c' ≠ c := by
        rintro rfl
        rw [hstopped] at hactive
        cases hactive
      exact halone c' hne ⟨hactive, u, hinstance ▸ hledger, hu⟩ hinstance
    · have hrow : releaseOwnerLease s.row (s.claims c).instanceId = s.row := if_neg howner
      have hcovers := h.covers.mono hlive
      rw [hrow] at hcovers ⊢
      exact hcovers
  · intro now hclaiming
    rw [hstopped] at hclaiming
    cases hclaiming

/-- Every step keeps the invariant, but for a release while another claim of the instance is
held. -/
theorem LeaseInv.next (h : LeaseInv s) (action : LeaseAction)
    (halone : ∀ c, action = .releaseLands c → ∀ c', c' ≠ c → s.Held c' →
      (s.claims c').instanceId ≠ (s.claims c).instanceId) :
    LeaseInv (step s action) := by
  cases action with
  | advance ms =>
      have hle : s.clock ≤ s.clock + ms := by omega
      refine ⟨h.covers.advance hle, fun c now hclaiming => ?_, h.claims.stopped⟩
      exact (h.claims.read c now hclaiming).trans hle
  | claim c instanceId =>
      simp only [step]
      split
      · rename_i hfresh
        apply h.setClaim
        · rintro ⟨⟩
        · rintro now ⟨⟩
          exact le_refl _
        · intro hreleases
          rw [h.claims.stopped c hreleases] at hfresh
          cases hfresh
      · exact h
  | claimLands c =>
      simp only [step]
      split
      · rename_i now hclaiming
        have hnone : ¬ 0 < (s.claims c).releases := by
          intro hreleases
          rw [h.claims.stopped c hreleases] at hclaiming
          cases hclaiming
        split
        · rename_i row hwritten
          obtain ⟨howner, hexpires, hclaimable⟩ := claimOwnerLease_written hwritten
          refine h.write hclaimable (h.claims.read c now hclaiming) howner hexpires ?_ ?_ ?_
          · rfl
          · rintro now' ⟨⟩
          · intro hreleases
            exact absurd hreleases hnone
        · apply h.setClaim
          · rintro ⟨⟩
          · rintro now' ⟨⟩
          · intro hreleases
            exact absurd hreleases hnone
      · exact h
  | claimFails c =>
      simp only [step]
      split
      · rename_i now hclaiming
        apply h.setClaim
        · rintro ⟨⟩
        · rintro now' ⟨⟩
        · intro hreleases
          rw [h.claims.stopped c hreleases] at hclaiming
          cases hclaiming
      · exact h
  | tick c =>
      simp only [step]
      split
      · exact h.setClaim_samePhase rfl rfl fun hreleases => hreleases
      · exact h
  | renewLands c now =>
      simp only [step]
      split
      · split
        · rename_i row hwritten
          obtain ⟨howner, hexpires, hself⟩ := renewOwnerLease_written hwritten
          refine h.write (.inr (.inl hself)) (le_refl s.clock) howner hexpires ?_ ?_ ?_
          · rfl
          · exact h.claims.read c
          · exact h.claims.stopped c
        · exact h.setClaim_samePhase rfl rfl fun hreleases => hreleases
      · exact h
  | renewFails c now => exact h.setClaim_samePhase rfl rfl fun hreleases => hreleases
  | stop c =>
      simp only [step]
      split
      · apply h.setClaim
        · rintro ⟨⟩
        · rintro now ⟨⟩
        · exact fun _ => rfl
      · exact h
  | releaseLands c =>
      by_cases hreleases : 0 < (s.claims c).releases
      · exact h.release hreleases (halone c rfl)
      · simp only [step, if_neg hreleases]
        exact h
  | releaseFails c =>
      exact h.setClaim_samePhase rfl rfl fun hreleases => Nat.lt_of_lt_of_le hreleases
        (Nat.sub_le _ _)
  | transition state => exact ⟨h.covers, h.claims⟩

end Steps

/-! ## Runs -/

section Runs

variable {row : OwnerLeaseRow} {clock : Int} {actions : List LeaseAction}

theorem run_snoc (action : LeaseAction) :
    run row clock (actions ++ [action]) = step (run row clock actions) action :=
  List.foldl_concat ..

theorem leaseInv_start (row : OwnerLeaseRow) (clock : Int) :
    LeaseInv { row := row, clock := clock } where
  covers := by
    rintro i u ⟨c, ⟨⟩, -⟩
  claims := ⟨by rintro c now ⟨⟩, by rintro c ⟨⟩⟩

theorem leaseInv_run (h : NoSiblingRelease row clock actions) :
    LeaseInv (run row clock actions) := by
  induction actions using List.reverseRecOn with
  | nil => exact leaseInv_start row clock
  | append_singleton actions action ih =>
      rw [run_snoc]
      have hbefore : NoSiblingRelease row clock actions := by
        rintro before c after rfl
        exact h before c (after ++ [action]) (by simp)
      apply (ih hbefore).next
      rintro c rfl
      exact h actions c [] rfl

/-- The row names the instance of a held claim. -/
theorem row_of_held {c : Nat} (h : LeaseInv (run row clock actions))
    (hheld : (run row clock actions).Held c) :
    (run row clock actions).row.owner_instance_id =
      some ((run row clock actions).claims c).instanceId := by
  obtain ⟨hactive, u, hledger, hu⟩ := hheld
  exact (h.covers _ u ⟨c, hactive, rfl⟩ hledger hu).1

end Runs

/-- **Owner leases exclude between instances.** Whenever no claim releases the row while another
claim of its instance is held, held claims are claims of one instance, the row names it, and the
release of a claim of another instance leaves the row alone. -/
theorem owner_leases_exclude (row : OwnerLeaseRow) (clock : Int) (actions : List LeaseAction)
    (h : NoSiblingRelease row clock actions) :
    let s := run row clock actions
    (∀ c c', s.Held c → s.Held c' → (s.claims c).instanceId = (s.claims c').instanceId) ∧
    (∀ c, s.Held c → s.row.owner_instance_id = some (s.claims c).instanceId) ∧
    ∀ c c', s.Held c' → (s.claims c).instanceId ≠ (s.claims c').instanceId →
      (step s (.releaseLands c)).row = s.row := by
  have hinv := leaseInv_run h
  refine ⟨fun c c' hheld hheld' => ?_, fun c => row_of_held hinv, fun c c' hheld' hne => ?_⟩
  · obtain ⟨hactive, u, hledger, hu⟩ := hheld
    obtain ⟨hactive', u', hledger', hu'⟩ := hheld'
    exact hinv.covers.exclusive ⟨c, hactive, rfl⟩ hledger hu ⟨c', hactive', rfl⟩ hledger' hu'
  · have hrow : releaseOwnerLease (run row clock actions).row
        ((run row clock actions).claims c).instanceId = (run row clock actions).row := by
      apply if_neg
      rw [row_of_held hinv hheld']
      exact fun heq => hne (Option.some.inj heq).symm
    unfold step
    dsimp only
    split
    · exact hrow
    · rfl

/-- One instance claims, renews and is asked by another one in vain. -/
theorem owner_leases_exclude_renewed :
    let s := run {} 0 [.claim 0 "a", .claimLands 0, .advance 30000, .tick 0, .renewLands 0 30000,
      .claim 1 "b", .claimLands 1]
    (∀ c c', s.Held c → s.Held c' → (s.claims c).instanceId = (s.claims c').instanceId) ∧
    (∀ c, s.Held c → s.row.owner_instance_id = some (s.claims c).instanceId) ∧
    ∀ c c', s.Held c' → (s.claims c).instanceId ≠ (s.claims c').instanceId →
      (step s (.releaseLands c)).row = s.row := by
  apply owner_leases_exclude
  intro before c after heq
  have hmem : LeaseAction.releaseLands c ∈ before ++ .releaseLands c :: after := by simp
  rw [← heq] at hmem
  simp at hmem

/-- Two claims of one instance are held, and the release of one clears the lease of the other. -/
theorem claims_share_lease :
    ¬ ∀ (row : OwnerLeaseRow) (clock : Int) (actions : List LeaseAction) (c c' : Nat), c ≠ c' →
      (run row clock actions).Held c' →
      ¬ (run row clock actions).Held c ∧
        (step (run row clock actions) (.releaseLands c)).row = (run row clock actions).row := by
  intro h
  have hheld : (run {} 0 [.claim 0 "a", .claimLands 0, .claim 1 "a", .claimLands 1]).Held 0 :=
    ⟨by decide, 120000, by decide, by decide⟩
  have hheld' : (run {} 0 [.claim 0 "a", .claimLands 0, .claim 1 "a", .claimLands 1]).Held 1 :=
    ⟨by decide, 120000, by decide, by decide⟩
  exact (h {} 0 _ 0 1 (by decide) hheld').1 hheld

end ExecutionOwnerLeaseService

end Nexus
