import Nexus.Auth.Invitations
import Mathlib

/-!
# Invitations are single use

The accept holds the lock of the row from its read to its commit, so accepts cannot overtake each
other. The revocation and the flip of an expired invitation write what they read without a lock.
When neither writes after another call has changed the status it has read, at most one accept
commits, an end state is final, and a revoked invitation has not been accepted
(`invitations_single_use`).
-/

set_option autoImplicit false

namespace Nexus

/-! ## What a call has done with the invitation -/

/-- How far a call has come. -/
inductive InvitationPhase where
  /-- An accept before its transaction. -/
  | fresh
  | begun (manager : Nat)
  /-- The transaction holds the lock of the row it has read. -/
  | locked (manager : Nat) (row : Invitation)
  /-- The transaction has saved the row as accepted. -/
  | staged (manager : Nat) (row : Invitation)
  | committed
  /-- The transaction is rolled back, with the row it had read. -/
  | rolledBack (row : Option Invitation)
  /-- A revocation before its read. -/
  | unread
  | read (row : Invitation)
  | saved
  | ended
  deriving DecidableEq

/-- The phase after a step of the call. -/
def InvitationPhase.next : InvitationPhase → (o : InvitationOp) → o.Ans → InvitationPhase
  | .fresh, .txBegin, manager => .begun manager
  | .begun manager, .txSelectForUpdate _ _, ans => Option.elim ans (.begun manager) (.locked manager)
  | .locked manager row, .txSave _ _, _ => .staged manager row
  | .staged _ _, .txCommit _, _ => .committed
  | .begun _, .txRollback _, _ => .rolledBack none
  | .locked _ row, .txRollback _, _ => .rolledBack (some row)
  | .rolledBack _, .update _ _, _ => .ended
  | .unread, .findOneBy _, ans => Option.elim ans .ended .read
  | .read _, .save _, _ => .saved
  | phase, _, _ => phase

/-- The operations a call issues in a phase. -/
def InvitationPhase.Issues : InvitationPhase → InvitationOp → Prop
  | phase, .txBegin => phase = .fresh
  | phase, .txSelectForUpdate manager _ => phase = .begun manager
  | phase, .txFindAssignment manager _ => ∃ row, phase = .locked manager row
  | phase, .txSaveAssignment manager _ => ∃ row, phase = .locked manager row
  | phase, .txSaveUser manager _ _ _ => ∃ row, phase = .locked manager row
  | phase, .txSave manager row' => ∃ row, phase = .locked manager row ∧ row.status = .pending ∧
      row'.id = row.id ∧ row'.status = .accepted
  | phase, .txCommit manager => ∃ row, phase = .staged manager row
  | phase, .txRollback manager =>
      phase = .begun manager ∨ ∃ row, phase = .locked manager row
  | phase, .findOneBy _ => phase = .unread
  | phase, .save row' => ∃ row, phase = .read row ∧ row.status = .pending ∧
      row'.id = row.id ∧ row'.status = .revoked
  | phase, .update id status => ∃ row, phase = .rolledBack (some row) ∧ row.status = .pending ∧
      id = row.id ∧ status = .expired
  | _, _ => True

/-- A call that returns has committed its transaction or saved the revocation. -/
def InvitationPhase.Returns : InvitationOutcome → InvitationPhase → Prop
  | .accepted _, phase => phase = .committed
  | .revoked, phase => phase = .saved

/-- The contract of a call between two phases. -/
abbrev InvitationSpec {α : Type} (p : Inviting α) (phase : InvitationPhase)
    (Q : α → InvitationPhase → Prop) (E : InvitationError → InvitationPhase → Prop) : Prop :=
  Prog.Meets (Pool.following InvitationPhase.next InvitationPhase.Issues fun _ _ _ => True) Q E
    p phase

variable {manager : Nat}

section Calls

variable {env : InvitationEnv} {phase : InvitationPhase}
  {E : InvitationError → InvitationPhase → Prop}

/-- One operation moves the phase. -/
theorem invitationSpec_await {o : InvitationOp} (hissues : phase.Issues o) :
    InvitationSpec (awaitInvitation o) phase (fun ans phase' => phase' = phase.next o ans) E := by
  apply Prog.meets_op hissues
  rintro ans phase' ⟨rfl, -⟩
  rfl

/-- The exceptions of the body of the transaction: the lock is held or the row was not found, and an
expired invitation was read pending. -/
def InvitationPhase.Fails (manager : Nat) (error : InvitationError) (phase : InvitationPhase) :
    Prop :=
  (phase = .begun manager ∧ ∀ id, error ≠ .expiredInvitation id) ∨
    ∃ row, phase = .locked manager row ∧
      ∀ id, error = .expiredInvitation id → row.status = .pending ∧ id = row.id

theorem loadAcceptableInvitation_spec (manager : Nat) (tokenHash : String) :
    InvitationSpec (loadAcceptableInvitation manager tokenHash) (.begun manager)
      (fun row phase' => phase' = .locked manager row ∧ row.status = .pending)
      (InvitationPhase.Fails manager) := by
  refine Prog.Meets.bind (invitationSpec_await (by rfl)) ?_
  rintro ans phase₁ rfl
  cases ans with
  | none => exact Or.inl ⟨rfl, fun id h => nomatch h⟩
  | some invitation =>
      refine Prog.meets_ite (fun _ => Or.inr ⟨invitation, rfl, fun id h => nomatch h⟩) ?_
      intro hpending
      refine Prog.Meets.bind (invitationSpec_await trivial) ?_
      rintro now phase₂ rfl
      refine Prog.meets_ite (fun _ => Or.inr ⟨invitation, rfl, fun id h => ?_⟩) fun _ => ?_
      · cases h
        exact ⟨not_not.1 hpending, rfl⟩
      · exact ⟨rfl, not_not.1 hpending⟩

/-- An exception other than the expiry, with the lock held. -/
theorem fails_of_locked {row : Invitation} {error : InvitationError}
    (h : ∀ id, error ≠ .expiredInvitation id) :
    InvitationPhase.Fails manager error (.locked manager row) :=
  Or.inr ⟨row, rfl, fun id hid => absurd hid (h id)⟩

theorem resolveAcceptingUserId_spec (manager : Nat) (input : AcceptInvitationInput)
    (row : Invitation) :
    InvitationSpec (resolveAcceptingUserId env manager input row) (.locked manager row)
      (fun _ phase' => phase' = .locked manager row) (InvitationPhase.Fails manager) := by
  refine Prog.meets_ite (fun _ => rfl) fun _ => ?_
  · cases input.newUser with
    | none => exact fails_of_locked fun id => by simp
    | some newUser =>
        dsimp only
        cases newUser.email <|> row.email with
        | none => exact fails_of_locked fun id => by simp
        | some email =>
            refine Prog.meets_ite (fun _ => fails_of_locked fun id => by simp) fun _ => ?_
            · refine Prog.Meets.bind (invitationSpec_await trivial) ?_
              rintro found phase₁ rfl
              cases found with
              | some user => exact fails_of_locked fun id => by simp
              | none =>
                  refine Prog.Meets.bind (invitationSpec_await trivial) ?_
                  rintro found phase₂ rfl
                  cases found with
                  | some user => exact fails_of_locked fun id => by simp
                  | none =>
                      refine Prog.Meets.bind (invitationSpec_await ⟨row, rfl⟩) ?_
                      rintro user phase₃ rfl
                      exact rfl

theorem assignRole_spec (manager : Nat) (row : Invitation) (assignment : RoleAssignment) :
    InvitationSpec (assignRole manager assignment) (.locked manager row)
      (fun _ phase' => phase' = .locked manager row) (InvitationPhase.Fails manager) := by
  refine Prog.Meets.bind (invitationSpec_await ⟨row, rfl⟩) ?_
  rintro found phase₁ rfl
  cases found with
  | some existing => exact rfl
  | none =>
      have hissues : (InvitationPhase.locked manager row).Issues
          (.txSaveAssignment manager assignment) := ⟨row, rfl⟩
      exact invitationSpec_await hissues

theorem acceptInTransaction_spec (input : AcceptInvitationInput) (manager : Nat) :
    InvitationSpec (acceptInTransaction env input manager) (.begun manager)
      (fun _ phase' => ∃ row, phase' = .staged manager row) (InvitationPhase.Fails manager) := by
  refine Prog.Meets.bind (loadAcceptableInvitation_spec manager _) ?_
  rintro row phase₁ ⟨rfl, hpending⟩
  refine Prog.Meets.bind (resolveAcceptingUserId_spec manager input row) ?_
  rintro userId phase₂ rfl
  refine Prog.Meets.bind (assignRole_spec manager row _) ?_
  rintro _ phase₃ rfl
  refine Prog.Meets.bind (invitationSpec_await ⟨row, rfl, hpending, rfl, rfl⟩) ?_
  rintro _ phase₄ rfl
  exact ⟨row, rfl⟩

/-- After the rollback of an expired accept, the row it had read is pending. -/
def InvitationPhase.RolledBack (error : InvitationError) (phase : InvitationPhase) : Prop :=
  ∀ id, error = .expiredInvitation id →
    ∃ row, phase = .rolledBack (some row) ∧ row.status = .pending ∧ id = row.id

theorem transaction_spec (input : AcceptInvitationInput) :
    InvitationSpec (transaction (acceptInTransaction env input)) .fresh
      (fun _ phase' => phase' = .committed) InvitationPhase.RolledBack := by
  refine Prog.Meets.bind (invitationSpec_await (by rfl)) ?_
  rintro manager phase₁ rfl
  refine Prog.Meets.bind (Prog.meets_handle
    ((acceptInTransaction_spec input manager).mono (fun _ _ h => h) ?_)) ?_
  · rintro error phase₂ (⟨rfl, herror⟩ | ⟨row, rfl, herror⟩)
    · refine Prog.Meets.bind (invitationSpec_await (Or.inl rfl)) ?_
      rintro _ phase₃ rfl
      exact fun id h => absurd h (herror id)
    · refine Prog.Meets.bind (invitationSpec_await (Or.inr ⟨row, rfl⟩)) ?_
      rintro _ phase₃ rfl
      exact fun id h => ⟨row, rfl, herror id h⟩
  · rintro userId phase₂ ⟨row, rfl⟩
    refine Prog.Meets.bind (invitationSpec_await ⟨row, rfl⟩) ?_
    rintro _ phase₃ rfl
    exact rfl

theorem acceptInvitation_spec (input : AcceptInvitationInput) :
    InvitationSpec (acceptInvitation env input) .fresh (fun _ phase' => phase' = .committed)
      fun _ _ => True := by
  refine Prog.meets_handle ((transaction_spec input).mono (fun _ _ h => h) ?_)
  intro error phase₁ herror
  cases error with
  | expiredInvitation id =>
      obtain ⟨row, rfl, hpending, hid⟩ := herror id rfl
      refine Prog.Meets.bind (invitationSpec_await ⟨row, rfl, hpending, hid, rfl⟩) ?_
      rintro _ phase₂ -
      exact trivial
  | _ => exact trivial

theorem revokeInvitation_spec (id actorUserId : String) :
    InvitationSpec (revokeInvitation id actorUserId) .unread (fun _ phase' => phase' = .saved)
      fun _ _ => True := by
  refine Prog.Meets.bind (invitationSpec_await (by rfl)) ?_
  rintro ans phase₁ rfl
  cases ans with
  | none => exact trivial
  | some row =>
      refine Prog.Meets.bind (Q := fun _ phase' => phase' = .read row) ?_ ?_
      · refine Prog.Meets.bind (invitationSpec_await trivial) ?_
        rintro scopes phase₂ rfl
        exact Prog.meets_ite (fun _ => rfl) fun _ => trivial
      · rintro _ phase₂ rfl
        refine Prog.meets_ite (fun _ => trivial) fun hpending => ?_
        have hissues : (InvitationPhase.read row).Issues (.save { row with status := .revoked }) :=
          ⟨row, rfl, not_not.1 hpending, rfl, rfl⟩
        exact invitationSpec_await hissues

end Calls

/-- The phase a call starts in. -/
def InvitationCall.phase : InvitationCall → InvitationPhase
  | .accept _ => .fresh
  | .revoke _ _ => .unread

/-- The calls keep to their contract. -/
theorem invitationProgram_spec {env : InvitationEnv} (call : InvitationCall) :
    InvitationSpec (call.program env) call.phase InvitationPhase.Returns fun _ _ => True := by
  cases call with
  | accept input =>
      refine Prog.Meets.bind (acceptInvitation_spec input) ?_
      rintro userId phase' rfl
      rfl
  | revoke id actorUserId =>
      refine Prog.Meets.bind (revokeInvitation_spec id actorUserId) ?_
      rintro _ phase' rfl
      rfl

/-! ## Operations on the store -/

/-- The manager an operation goes through. -/
def InvitationOp.manager? : InvitationOp → Option Nat
  | .txSelectForUpdate manager _ => some manager
  | .txFindAssignment manager _ => some manager
  | .txSaveAssignment manager _ => some manager
  | .txSaveUser manager _ _ _ => some manager
  | .txSave manager _ => some manager
  | .txCommit manager => some manager
  | .txRollback manager => some manager
  | _ => none

/-- The status an operation writes; a transaction is committed after the row is saved accepted. -/
def InvitationOp.writes? : InvitationOp → Option InvitationStatus
  | .save row => some row.status
  | .update _ status => some status
  | .txCommit _ => some .accepted
  | _ => none

/-- The reads a call decides by. -/
def InvitationOp.isRead : InvitationOp → Bool
  | .txSelectForUpdate _ _ => true
  | .findOneBy _ => true
  | _ => false

/-- The status of the committed row. -/
def InvitationStore.status (s : InvitationStore) : InvitationStatus := s.committed.invitation.status

section Store

variable {times : Nat → Nat} {s : InvitationStore} {o : InvitationOp}

/-- The transaction with the lock has saved the row as accepted, if the operation commits it. -/
def CommitsAccepted (s : InvitationStore) (o : InvitationOp) : Prop :=
  ∀ manager, o = .txCommit manager → ∃ tables, s.holder = some (manager, tables) ∧
    tables.invitation.status = .accepted ∧ tables.invitation.id = s.committed.invitation.id

variable {tables : InvitationTables}

theorem seen_of_holder (h : s.holder = some (manager, tables)) : s.seen manager = tables := by
  simp [InvitationStore.seen, h]

theorem write_status {id : String} {f : Invitation → Invitation} {status : InvitationStatus}
    (hf : (f tables.invitation).status = status) :
    (tables.write id f).invitation.status = tables.invitation.status ∨
      (tables.write id f).invitation.status = status := by
  unfold InvitationTables.write
  split
  · exact Or.inr hf
  · exact Or.inl rfl

/-- The committed status changes to the status the operation writes, or not at all. -/
theorem status_exec (hcommit : CommitsAccepted s o) :
    (o.exec times s).1.status = s.status ∨
      o.writes? = some (o.exec times s).1.status := by
  cases o with
  | txSelectForUpdate manager tokenHash =>
      simp only [InvitationOp.exec]
      split <;> exact Or.inl rfl
  | txCommit manager =>
      obtain ⟨tables, hholder, haccepted, -⟩ := hcommit manager rfl
      refine Or.inr ?_
      simp only [InvitationOp.exec, InvitationStore.release, InvitationStore.status,
        seen_of_holder hholder, haccepted, InvitationOp.writes?]
  | save row =>
      rcases write_status (f := fun _ => row) rfl with h | h
      · exact Or.inl h
      · exact Or.inr (congrArg some h.symm)
  | update id status =>
      rcases write_status (f := fun row => { row with status := status }) rfl with h | h
      · exact Or.inl h
      · exact Or.inr (congrArg some h.symm)
  | _ => exact Or.inl rfl

theorem write_id {id : String} {f : Invitation → Invitation}
    (hf : tables.invitation.id = id → (f tables.invitation).id = id) :
    (tables.write id f).invitation.id = tables.invitation.id := by
  unfold InvitationTables.write
  split
  · rename_i h
    exact (hf h).trans h.symm
  · rfl

theorem id_exec (hcommit : CommitsAccepted s o) :
    (o.exec times s).1.committed.invitation.id = s.committed.invitation.id := by
  cases o with
  | txSelectForUpdate manager tokenHash =>
      simp only [InvitationOp.exec]
      split <;> rfl
  | txCommit manager =>
      obtain ⟨tables, hholder, -, hid⟩ := hcommit manager rfl
      simp only [InvitationOp.exec, InvitationStore.release, seen_of_holder hholder, hid]
  | save row => exact write_id fun _ => rfl
  | update id status => exact write_id fun h => h
  | _ => rfl

/-- The lock of a transaction is not disturbed by the operations that other transactions and the
calls without one issue. -/
theorem holder_exec (hholder : s.holder = some (manager, tables))
    (hother : o.manager? ≠ some manager) (henabled : (invitationStore times).enabled s o) :
    (o.exec times s).1.holder = some (manager, tables) ∧
      (o.exec times s).1.committed.invitation = s.committed.invitation := by
  have hrow : o.needsRow s.committed.invitation = false := by
    have henabled' : (o.needsRow s.committed.invitation && s.holder.isSome) = false := henabled
    rwa [hholder, Option.isSome_some, Bool.and_true] at henabled'
  cases o with
  | txSelectForUpdate manager' tokenHash =>
      have hne : ¬ s.committed.invitation.tokenHash = tokenHash := of_decide_eq_false hrow
      simp only [InvitationOp.exec, if_neg hne]
      exact ⟨hholder, trivial⟩
  | save row =>
      have hne : ¬ s.committed.invitation.id = row.id := of_decide_eq_false hrow
      simp only [InvitationOp.exec, InvitationTables.write, if_neg hne]
      exact ⟨hholder, trivial⟩
  | update id status =>
      have hne : ¬ s.committed.invitation.id = id := of_decide_eq_false hrow
      simp only [InvitationOp.exec, InvitationTables.write, if_neg hne]
      exact ⟨hholder, trivial⟩
  | txSaveAssignment manager' assignment =>
      have hne : ¬ manager = manager' := fun h => hother (congrArg some h.symm)
      simp [InvitationOp.exec, InvitationStore.change, hholder, hne]
  | txSaveUser manager' username email passwordHash =>
      have hne : ¬ manager = manager' := fun h => hother (congrArg some h.symm)
      simp [InvitationOp.exec, InvitationStore.change, hholder, hne]
  | txSave manager' row =>
      have hne : ¬ manager = manager' := fun h => hother (congrArg some h.symm)
      simp [InvitationOp.exec, InvitationStore.change, hholder, hne]
  | txCommit manager' =>
      have hne : ¬ manager = manager' := fun h => hother (congrArg some h.symm)
      simp [InvitationOp.exec, InvitationStore.release, InvitationStore.seen, hholder, hne]
  | txRollback manager' =>
      have hne : ¬ manager = manager' := fun h => hother (congrArg some h.symm)
      simp [InvitationOp.exec, InvitationStore.release, hholder, hne]
  | _ => exact ⟨hholder, rfl⟩

end Store

/-! ## The state of one call -/

namespace InvitationPhase

/-- The manager of the transaction that is open. -/
def manager? : InvitationPhase → Option Nat
  | .begun manager => some manager
  | .locked manager _ => some manager
  | .staged manager _ => some manager
  | _ => none

/-- The transaction that holds the lock, with the row it has read. -/
def held? : InvitationPhase → Option (Nat × Invitation)
  | .locked manager row => some (manager, row)
  | .staged manager row => some (manager, row)
  | _ => none

/-- The row the call has read and may still decide by. -/
def row? : InvitationPhase → Option Invitation
  | .locked _ row => some row
  | .staged _ row => some row
  | .rolledBack row => row
  | .read row => some row
  | _ => none

end InvitationPhase

/-- What holds of one call in a phase; `written` are the statuses other calls have written since its
read. -/
structure InvitationCallInv (s : InvitationStore) (written : List InvitationStatus)
    (phase : InvitationPhase) : Prop where
  held : ∀ manager row, phase.held? = some (manager, row) →
    s.committed.invitation = row ∧
      ∃ tables, s.holder = some (manager, tables) ∧ tables.invitation.id = row.id
  staged : ∀ manager row, phase = .staged manager row → row.status = .pending ∧
    ∃ tables, s.holder = some (manager, tables) ∧ tables.invitation.status = .accepted
  since : ∀ row, phase.row? = some row → row.id = s.committed.invitation.id ∧
    (row.status = .pending → s.status = .pending ∨ s.status ∈ written)
  accepted : phase = .committed → s.status = .accepted
  revoked : phase = .saved → s.status = .revoked

/-- A write finds every status written since the read of the call to be the one it writes. -/
def InvitationOp.NotOvertaken (written : List InvitationStatus) : InvitationOp → Prop
  | .save row => ∀ status ∈ written, status = row.status
  | .update _ status' => ∀ status ∈ written, status = status'
  | _ => True

section CallInv

variable {times : Nat → Nat} {s : InvitationStore} {o : InvitationOp} {phase : InvitationPhase}
  {written : List InvitationStatus}

theorem commitsAccepted_of_issues (h : InvitationCallInv s written phase)
    (hissues : phase.Issues o) : CommitsAccepted s o := by
  rintro manager rfl
  obtain ⟨row, rfl⟩ := hissues
  obtain ⟨hrow, tables, hholder, hid⟩ := h.held manager row rfl
  obtain ⟨-, tables', hholder', haccepted⟩ := h.staged manager row rfl
  have hsame : tables' = tables := by
    rw [hholder, Option.some.injEq, Prod.mk.injEq] at hholder'
    exact hholder'.2.symm
  subst hsame
  exact ⟨tables', hholder, haccepted, hrow ▸ hid⟩

/-- A write that has not been overtaken changes a pending status, or none. -/
theorem status_step (h : InvitationCallInv s written phase) (hissues : phase.Issues o)
    (hcond : o.NotOvertaken written) :
    (o.exec times s).1.status = s.status ∨
      (s.status = .pending ∧ o.writes? = some (o.exec times s).1.status) := by
  have hexec : (o.exec times s).1.status = s.status ∨
      o.writes? = some (o.exec times s).1.status :=
    status_exec (commitsAccepted_of_issues h hissues)
  rcases hexec with hsame | hwrites
  · exact Or.inl hsame
  · generalize hstatus : (o.exec times s).1.status = status' at hwrites ⊢
    cases o with
    | save row' =>
        obtain ⟨row, rfl, hpending, hid, hrevoked⟩ := hissues
        have hvalue : row'.status = status' := Option.some.inj hwrites
        rcases (h.since row rfl).2 hpending with hs | hs
        · exact Or.inr ⟨hs, hwrites⟩
        · exact Or.inl (hvalue.symm.trans (hcond _ hs).symm)
    | update id status =>
        obtain ⟨row, rfl, hpending, hid, hexpired⟩ := hissues
        have hvalue : status = status' := Option.some.inj hwrites
        rcases (h.since row rfl).2 hpending with hs | hs
        · exact Or.inr ⟨hs, hwrites⟩
        · exact Or.inl (hvalue.symm.trans (hcond _ hs).symm)
    | txCommit manager =>
        obtain ⟨row, rfl⟩ := hissues
        have hs : s.status = .pending := by
          rw [InvitationStore.status, (h.held manager row rfl).1]
          exact (h.staged manager row rfl).1
        exact Or.inr ⟨hs, hwrites⟩
    | _ => cases hwrites

/-- A call keeps its state over a step of another call. -/
theorem invitationCallInv_other (h : InvitationCallInv s written phase)
    (hcommit : CommitsAccepted s o)
    (hstatus : (o.exec times s).1.status = s.status ∨
      (s.status = .pending ∧ o.writes? = some (o.exec times s).1.status))
    (henabled : (invitationStore times).enabled s o)
    (hother : ∀ manager, phase.manager? = some manager → o.manager? ≠ some manager) :
    InvitationCallInv (o.exec times s).1 (o.writes?.toList ++ written) phase := by
  have hmanager : ∀ manager row, phase.held? = some (manager, row) →
      phase.manager? = some manager := by
    intro manager row hheld
    cases phase <;> simp_all [InvitationPhase.held?, InvitationPhase.manager?]
  have hfinal : s.status ≠ .pending → (o.exec times s).1.status = s.status := by
    intro hne
    rcases hstatus with hsame | ⟨hpending, -⟩
    · exact hsame
    · exact absurd hpending hne
  constructor
  · intro manager row hheld
    obtain ⟨hrow, tables, hholder, hid⟩ := h.held manager row hheld
    obtain ⟨hholder', hrow'⟩ :=
      holder_exec hholder (hother manager (hmanager manager row hheld)) henabled
    exact ⟨hrow'.trans hrow, tables, hholder', hid⟩
  · intro manager row hstaged
    obtain ⟨hpending, tables, hholder, haccepted⟩ := h.staged manager row hstaged
    have hheld : phase.held? = some (manager, row) := by rw [hstaged]; rfl
    have hholder' := holder_exec hholder (hother manager (hmanager manager row hheld)) henabled
    exact ⟨hpending, tables, hholder'.1, haccepted⟩
  · intro row hrow
    obtain ⟨hid, hsince⟩ := h.since row hrow
    refine ⟨hid.trans (id_exec hcommit).symm, fun hpending => ?_⟩
    rcases hstatus with hsame | ⟨-, hwrites⟩
    · rw [hsame]
      exact (hsince hpending).imp_right fun hmem => List.mem_append_right _ hmem
    · rw [hwrites]
      exact Or.inr (by simp)
  · intro hphase
    have haccepted := h.accepted hphase
    rw [hfinal (by rw [haccepted]; decide), haccepted]
  · intro hphase
    have hrevoked := h.revoked hphase
    rw [hfinal (by rw [hrevoked]; decide), hrevoked]

/-- A phase without a row to decide by asks for nothing. -/
theorem invitationCallInv_of_no_row (hheld : phase.held? = none) (hrow : phase.row? = none)
    (haccepted : phase ≠ .committed) (hrevoked : phase ≠ .saved) :
    InvitationCallInv s written phase := by
  constructor
  · intro manager row h
    rw [hheld] at h
    cases h
  · rintro manager row rfl
    cases hheld
  · intro row h
    rw [hrow] at h
    cases h
  · exact fun h => absurd h haccepted
  · exact fun h => absurd h hrevoked

/-- The operations that neither move a call nor touch the row and its lock. -/
def InvitationOp.IsPlain : InvitationOp → Prop
  | .findByUsername _ => True
  | .findByEmail _ => True
  | .getAccessibleScopeIds _ => True
  | .now => True
  | _ => False

theorem next_plain (ho : o.IsPlain) (ans : o.Ans) : phase.next o ans = phase := by
  cases o <;> first | exact ho.elim | (cases phase <;> rfl)

theorem invitationCallInv_plain {s' : InvitationStore} {phase' : InvitationPhase}
    (h : InvitationCallInv s written phase) (hcommitted : s'.committed = s.committed)
    (hholder : s'.holder = s.holder) (hphase : phase' = phase) :
    InvitationCallInv s' written phase' := by
  subst hphase
  constructor
  · rw [hcommitted, hholder]
    exact h.held
  · rw [hholder]
    exact h.staged
  · rw [InvitationStore.status, hcommitted]
    exact h.since
  · rw [InvitationStore.status, hcommitted]
    exact h.accepted
  · rw [InvitationStore.status, hcommitted]
    exact h.revoked

/-- A change of other tables by the transaction with the lock. -/
theorem invitationCallInv_change {row : Invitation} {f : InvitationTables → InvitationTables}
    (h : InvitationCallInv s written (.locked manager row))
    (hf : ∀ tables, (f tables).invitation = tables.invitation) :
    InvitationCallInv (s.change manager f) written (.locked manager row) := by
  obtain ⟨hrow, tables, hholder, hid⟩ := h.held manager row rfl
  constructor
  · rintro manager' row' ⟨⟩
    refine ⟨hrow, f tables, ?_, ?_⟩
    · simp [InvitationStore.change, hholder]
    · rw [hf]
      exact hid
  · rintro manager' row' ⟨⟩
  · exact h.since
  · exact fun h => nomatch h
  · exact fun h => nomatch h

/-- A call keeps its state over its own step. -/
theorem invitationCallInv_self (h : InvitationCallInv s written phase)
    (hissues : phase.Issues o) :
    InvitationCallInv (o.exec times s).1 (if o.isRead then [] else written)
      (phase.next o (o.exec times s).2) := by
  cases o with
  | txBegin =>
      have hphase : phase = .fresh := hissues
      subst hphase
      exact invitationCallInv_of_no_row rfl rfl nofun nofun
  | txSelectForUpdate manager tokenHash =>
      have hphase : phase = .begun manager := hissues
      subst hphase
      by_cases hhash : s.committed.invitation.tokenHash = tokenHash
      · simp only [InvitationOp.exec, if_pos hhash, InvitationOp.isRead, if_true]
        constructor
        · rintro manager' row' ⟨⟩
          exact ⟨rfl, s.committed, rfl, rfl⟩
        · rintro manager' row' ⟨⟩
        · rintro row' ⟨⟩
          exact ⟨rfl, fun hpending => Or.inl hpending⟩
        · exact fun h => nomatch h
        · exact fun h => nomatch h
      · simp only [InvitationOp.exec, if_neg hhash]
        exact invitationCallInv_of_no_row rfl rfl nofun nofun
  | txFindAssignment manager assignment =>
      obtain ⟨row, rfl⟩ := hissues
      exact h
  | txSaveAssignment manager assignment =>
      obtain ⟨row, rfl⟩ := hissues
      exact invitationCallInv_change (f := fun tables =>
        { tables with assignments := tables.assignments ++ [assignment] }) h fun _ => rfl
  | txSaveUser manager username email passwordHash =>
      obtain ⟨row, rfl⟩ := hissues
      exact invitationCallInv_change (f := fun tables =>
        { tables with users := tables.users ++ [_] }) h fun _ => rfl
  | txSave manager row' =>
      obtain ⟨row, rfl, hpending, hid', haccepted⟩ := hissues
      obtain ⟨hrow, tables, hholder, hid⟩ := h.held manager row rfl
      have hwrite : tables.write row'.id (fun _ => row') = { tables with invitation := row' } :=
        if_pos (hid.trans hid'.symm)
      have hholder' : ((InvitationOp.txSave manager row').exec times s).1.holder =
          some (manager, { tables with invitation := row' }) := by
        simp [InvitationOp.exec, InvitationStore.change, hholder, hwrite]
      constructor
      · rintro manager' x ⟨⟩
        exact ⟨hrow, _, hholder', hid'⟩
      · rintro manager' x ⟨⟩
        exact ⟨hpending, _, hholder', haccepted⟩
      · rintro x ⟨⟩
        exact h.since row rfl
      · exact fun h => nomatch h
      · exact fun h => nomatch h
  | txCommit manager =>
      have hcommit := commitsAccepted_of_issues h hissues
      obtain ⟨row, rfl⟩ := hissues
      obtain ⟨tables, hholder, haccepted, -⟩ := hcommit manager rfl
      constructor
      · rintro manager' x ⟨⟩
      · rintro manager' x ⟨⟩
      · rintro x ⟨⟩
      · intro _
        simp only [InvitationOp.exec, InvitationStore.release, InvitationStore.status,
          seen_of_holder hholder, haccepted]
      · exact fun h => nomatch h
  | txRollback manager =>
      rcases hissues with rfl | ⟨row, rfl⟩
      · exact invitationCallInv_of_no_row rfl rfl nofun nofun
      · constructor
        · rintro manager' x ⟨⟩
        · rintro manager' x ⟨⟩
        · rintro x ⟨⟩
          exact h.since row rfl
        · exact fun h => nomatch h
        · exact fun h => nomatch h
  | findOneBy id =>
      have hphase : phase = .unread := hissues
      subst hphase
      by_cases hid : s.committed.invitation.id = id
      · have hans : ((InvitationOp.findOneBy id).exec times s).2 = some s.committed.invitation :=
          if_pos hid
        rw [hans]
        constructor
        · rintro manager' x ⟨⟩
        · rintro manager' x ⟨⟩
        · rintro x ⟨⟩
          exact ⟨rfl, fun hpending => Or.inl hpending⟩
        · exact fun h => nomatch h
        · exact fun h => nomatch h
      · have hans : ((InvitationOp.findOneBy id).exec times s).2 = none := if_neg hid
        rw [hans]
        exact invitationCallInv_of_no_row rfl rfl nofun nofun
  | save row' =>
      obtain ⟨row, rfl, hpending, hid', hrevoked⟩ := hissues
      have hid := (h.since row rfl).1
      constructor
      · rintro manager' x ⟨⟩
      · rintro manager' x ⟨⟩
      · rintro x ⟨⟩
      · exact fun h => nomatch h
      · intro _
        have hsame : s.committed.invitation.id = row'.id := hid.symm.trans hid'.symm
        simp only [InvitationOp.exec, InvitationTables.write, if_pos hsame, InvitationStore.status,
          hrevoked]
  | update id status =>
      obtain ⟨row, rfl, -⟩ := hissues
      exact invitationCallInv_of_no_row rfl rfl nofun nofun
  | findByUsername username =>
      exact invitationCallInv_plain h rfl rfl (next_plain (o := .findByUsername username) trivial _)
  | findByEmail email =>
      exact invitationCallInv_plain h rfl rfl (next_plain (o := .findByEmail email) trivial _)
  | getAccessibleScopeIds userId =>
      exact invitationCallInv_plain h rfl rfl
        (next_plain (o := .getAccessibleScopeIds userId) trivial _)
  | now => exact invitationCallInv_plain h rfl rfl (next_plain (o := .now) trivial _)

/-- The transaction that is open was open before, or has just begun. -/
theorem manager_next (h : (phase.next o (o.exec times s).2).manager? = some manager) :
    phase.manager? = some manager ∨ (o = .txBegin ∧ s.begun = manager) := by
  cases phase with
  | fresh =>
      cases o with
      | txBegin => exact Or.inr ⟨rfl, Option.some.inj h⟩
      | _ => cases h
  | begun manager' =>
      refine Or.inl ?_
      cases o with
      | txSelectForUpdate manager'' tokenHash =>
          simp only [InvitationOp.exec] at h
          split at h <;> exact h
      | txRollback manager'' => cases h
      | _ => exact h
  | locked manager' row =>
      refine Or.inl ?_
      cases o with
      | txRollback manager'' => cases h
      | _ => exact h
  | staged manager' row =>
      refine Or.inl ?_
      cases o with
      | txCommit manager'' => cases h
      | _ => exact h
  | unread =>
      cases o with
      | findOneBy id =>
          generalize ((InvitationOp.findOneBy id).exec times s).2 = ans at h
          cases ans <;> cases h
      | _ => cases h
  | _ => cases o <;> cases h

theorem committed_next {ans : o.Ans} (h : phase.next o ans = .committed) :
    phase = .committed ∨ ∃ manager row, phase = .staged manager row := by
  cases phase with
  | committed => exact Or.inl rfl
  | staged manager row => exact Or.inr ⟨manager, row, rfl⟩
  | fresh => cases o <;> cases h
  | begun manager =>
      cases o with
      | txSelectForUpdate manager' tokenHash => cases ans <;> cases h
      | _ => cases h
  | locked manager row => cases o <;> cases h
  | rolledBack row => cases o <;> cases h
  | unread =>
      cases o with
      | findOneBy id => cases ans <;> cases h
      | _ => cases h
  | read row => cases o <;> cases h
  | saved => cases o <;> cases h
  | ended => cases o <;> cases h

end CallInv

/-! ## The system of calls -/

section System

variable {ι : Type} [DecidableEq ι]

/-- Configurations of the calls. -/
abbrev InvitationSystem (ι : Type) :=
  Config ι InvitationOp InvitationOp.Ans InvitationError InvitationOutcome InvitationStore

/-- The calls before their first step. -/
def InvitationSystem.init (env : InvitationEnv) (s : InvitationStore)
    (calls : ι → InvitationCall) : InvitationSystem ι :=
  Pool.start s fun t => (calls t).program env

/-- How far a call has come. -/
def InvitationSystem.phase (calls : ι → InvitationCall) (c : InvitationSystem ι) (t : ι) :
    InvitationPhase :=
  Pool.track InvitationPhase.next (fun u => (calls u).phase) c.log t

/-- The statuses other calls have written since the read of a call. -/
def writtenSince (t : ι) : List (Entry ι InvitationOp InvitationOp.Ans) → List InvitationStatus
  | [] => []
  | e :: log =>
      if e.tid = t then if e.op.isRead then [] else writtenSince t log
      else e.op.writes?.toList ++ writtenSince t log

/-- The condition on a step: neither the revocation nor the flip to expired writes after another
call has written another status since the read of the call. -/
def NotOvertaken (c : InvitationSystem ι) (t : ι) (o : InvitationOp) : Prop :=
  o.NotOvertaken (writtenSince t c.log)

/-- What holds of the store and the calls. -/
structure InvitationInv (calls : ι → InvitationCall) (c : InvitationSystem ι) : Prop where
  call : ∀ t, InvitationCallInv c.world (writtenSince t c.log) (c.phase calls t)
  managers : ∀ t manager, (c.phase calls t).manager? = some manager → manager < c.world.begun
  distinct : ∀ t u manager, (c.phase calls t).manager? = some manager →
    (c.phase calls u).manager? = some manager → t = u
  one : ∀ t u, c.phase calls t = .committed → c.phase calls u = .committed → t = u

section Step

variable {calls : ι → InvitationCall} {times : Nat → Nat} {c : InvitationSystem ι} {t u : ι}
  {o : InvitationOp} {k : o.Ans → Inviting InvitationOutcome}

/-- The configuration after a step of a call. -/
abbrev InvitationSystem.after (times : Nat → Nat) (c : InvitationSystem ι) (t : ι)
    (o : InvitationOp) (k : o.Ans → Inviting InvitationOutcome) : InvitationSystem ι :=
  Pool.advance (invitationStore times) c t o k

theorem invitationPhase_after_self :
    (c.after times t o k).phase calls t = (c.phase calls t).next o (o.exec times c.world).2 :=
  Pool.track_advance_self

theorem invitationPhase_after_of_ne (h : u ≠ t) :
    (c.after times t o k).phase calls u = c.phase calls u :=
  Pool.track_advance_of_ne h

theorem writtenSince_after_self :
    writtenSince t (c.after times t o k).log =
      if o.isRead then [] else writtenSince t c.log := by
  simp [Pool.advance, writtenSince]

theorem writtenSince_after_of_ne (h : u ≠ t) :
    writtenSince u (c.after times t o k).log = o.writes?.toList ++ writtenSince u c.log := by
  simp [Pool.advance, writtenSince, Ne.symm h]

theorem begun_exec {s : InvitationStore} :
    s.begun ≤ (o.exec times s).1.begun ∧ (o = .txBegin → (o.exec times s).1.begun = s.begun + 1) := by
  cases o with
  | txBegin => exact ⟨Nat.le_succ s.begun, fun _ => rfl⟩
  | txSelectForUpdate manager tokenHash =>
      simp only [InvitationOp.exec]
      split <;> exact ⟨Nat.le_refl _, nofun⟩
  | _ => exact ⟨Nat.le_refl _, nofun⟩

/-- An operation through a manager is issued by the call whose transaction is open. -/
theorem manager_of_issues {phase : InvitationPhase} (hissues : phase.Issues o)
    (h : o.manager? = some manager) : phase.manager? = some manager := by
  cases o with
  | txRollback manager' =>
      cases h
      rcases hissues with rfl | ⟨row, rfl⟩ <;> rfl
  | txSelectForUpdate manager' tokenHash =>
      cases h
      have hphase : phase = .begun manager := hissues
      rw [hphase]
      rfl
  | txSave manager' row' =>
      cases h
      obtain ⟨row, rfl, -⟩ := hissues
      rfl
  | txFindAssignment manager' assignment =>
      cases h
      obtain ⟨row, rfl⟩ := hissues
      rfl
  | txSaveAssignment manager' assignment =>
      cases h
      obtain ⟨row, rfl⟩ := hissues
      rfl
  | txSaveUser manager' username email passwordHash =>
      cases h
      obtain ⟨row, rfl⟩ := hissues
      rfl
  | txCommit manager' =>
      cases h
      obtain ⟨row, rfl⟩ := hissues
      rfl
  | _ => cases h

/-- A step whose write has not been overtaken keeps the invariant, and an end state stays. -/
theorem invitationInv_after (hinv : InvitationInv calls c)
    (hissues : (c.phase calls t).Issues o) (henabled : (invitationStore times).enabled c.world o)
    (hcond : NotOvertaken c t o) : InvitationInv calls (c.after times t o k) := by
  have hcommit := commitsAccepted_of_issues (hinv.call t) hissues
  have hstatus : (o.exec times c.world).1.status = c.world.status ∨
      (c.world.status = .pending ∧ o.writes? = some (o.exec times c.world).1.status) :=
    status_step (hinv.call t) hissues hcond
  have hself : InvitationCallInv (o.exec times c.world).1
      (writtenSince t (c.after times t o k).log) ((c.after times t o k).phase calls t) := by
    rw [writtenSince_after_self, invitationPhase_after_self]
    exact invitationCallInv_self (hinv.call t) hissues
  -- a transaction of another call is not the one the operation goes through
  have hother : ∀ u, u ≠ t → ∀ manager, (c.phase calls u).manager? = some manager →
      o.manager? ≠ some manager := by
    intro u hut manager hu ho
    exact hut (hinv.distinct u t manager hu (manager_of_issues hissues ho))
  have hmanager : ∀ manager, ((c.after times t o k).phase calls t).manager? = some manager →
      (c.phase calls t).manager? = some manager ∨ (o = .txBegin ∧ c.world.begun = manager) := by
    intro manager h
    rw [invitationPhase_after_self] at h
    exact manager_next h
  have hunique : ∀ u, u ≠ t → ∀ manager,
      ((c.after times t o k).phase calls t).manager? = some manager →
      (c.phase calls u).manager? ≠ some manager := by
    intro u hut manager ht hu
    rcases hmanager manager ht with ht | ⟨-, ht⟩
    · exact hut (hinv.distinct u t manager hu ht)
    · exact absurd (hinv.managers u manager hu) (by omega)
  have hsingle : ∀ u, u ≠ t → (c.after times t o k).phase calls t = .committed →
      c.phase calls u ≠ .committed := by
    intro u hut ht hu
    rw [invitationPhase_after_self] at ht
    rcases committed_next ht with ht | ⟨manager, row, ht⟩
    · exact hut (hinv.one u t hu ht)
    · have haccepted := (hinv.call u).accepted hu
      have hrow := (hinv.call t).held manager row (by rw [ht]; rfl)
      have hpending := ((hinv.call t).staged manager row ht).1
      rw [InvitationStore.status, hrow.1, hpending] at haccepted
      cases haccepted
  constructor
  · intro u
    by_cases hut : u = t
    · subst hut
      exact hself
    · rw [writtenSince_after_of_ne hut, invitationPhase_after_of_ne hut]
      exact invitationCallInv_other (hinv.call u) hcommit hstatus henabled (hother u hut)
  · intro u manager hu
    by_cases hut : u = t
    · subst hut
      rcases hmanager manager hu with hu | ⟨hbegin, rfl⟩
      · exact Nat.lt_of_lt_of_le (hinv.managers u manager hu) begun_exec.1
      · exact Nat.lt_of_lt_of_eq (Nat.lt_succ_self _) (begun_exec.2 hbegin).symm
    · rw [invitationPhase_after_of_ne hut] at hu
      exact Nat.lt_of_lt_of_le (hinv.managers u manager hu) begun_exec.1
  · intro u v manager hu hv
    by_cases hut : u = t <;> by_cases hvt : v = t
    · rw [hut, hvt]
    · subst hut
      rw [invitationPhase_after_of_ne hvt] at hv
      exact absurd hv (hunique v hvt manager hu)
    · subst hvt
      rw [invitationPhase_after_of_ne hut] at hu
      exact absurd hu (hunique u hut manager hv)
    · rw [invitationPhase_after_of_ne hut] at hu
      rw [invitationPhase_after_of_ne hvt] at hv
      exact hinv.distinct u v manager hu hv
  · intro u v hu hv
    by_cases hut : u = t <;> by_cases hvt : v = t
    · rw [hut, hvt]
    · subst hut
      rw [invitationPhase_after_of_ne hvt] at hv
      exact absurd hv (hsingle v hvt hu)
    · subst hvt
      rw [invitationPhase_after_of_ne hut] at hu
      exact absurd hu (hsingle u hut hv)
    · rw [invitationPhase_after_of_ne hut] at hu
      rw [invitationPhase_after_of_ne hvt] at hv
      exact hinv.one u v hu hv

theorem invitationInv_init {env : InvitationEnv} {s : InvitationStore} :
    InvitationInv calls (InvitationSystem.init env s calls) := by
  have hstart : ∀ t, (calls t).phase = .fresh ∨ (calls t).phase = .unread := by
    intro t
    cases calls t
    · exact Or.inl rfl
    · exact Or.inr rfl
  have hphase : ∀ t, (InvitationSystem.init env s calls).phase calls t = (calls t).phase :=
    fun _ => rfl
  constructor
  · intro t
    rw [hphase]
    rcases hstart t with h | h <;> rw [h] <;> exact invitationCallInv_of_no_row rfl rfl nofun nofun
  · intro t manager h
    rw [hphase] at h
    rcases hstart t with h' | h' <;> rw [h'] at h <;> cases h
  · intro t u manager h
    rw [hphase] at h
    rcases hstart t with h' | h' <;> rw [h'] at h <;> cases h
  · intro t u h
    rw [hphase] at h
    rcases hstart t with h' | h' <;> rw [h'] at h <;> cases h

/-- The calls keep to their contract, from any configuration in which they do. -/
theorem invitationInv_of_reach {c₁ : InvitationSystem ι}
    (hmeets : ∀ t, InvitationSpec (c₁.threads t) (InvitationSystem.phase calls c₁ t)
      InvitationPhase.Returns fun _ _ => True)
    (hinv : InvitationInv calls c₁) (h : Pool.Reach (invitationStore times) NotOvertaken c₁ c) :
    InvitationInv calls c ∧ ∀ t, InvitationSpec (c.threads t) (c.phase calls t)
      InvitationPhase.Returns fun _ _ => True := by
  refine Pool.Reach.follows hmeets hinv ?_ h
  intro c t o k hinv hthread hissues henabled hcond
  exact ⟨trivial, invitationInv_after hinv hissues henabled hcond⟩

/-- The invariant, with the status the row has had. -/
def InvitationInvAt (calls : ι → InvitationCall) (status : InvitationStatus)
    (c : InvitationSystem ι) : Prop :=
  InvitationInv calls c ∧ c.world.status = status

/-- A status other than pending is final. -/
theorem status_final {c₁ : InvitationSystem ι}
    (hmeets : ∀ t, InvitationSpec (c₁.threads t) (InvitationSystem.phase calls c₁ t)
      InvitationPhase.Returns fun _ _ => True)
    (hinv : InvitationInv calls c₁) (hend : c₁.world.status ≠ .pending)
    (h : Pool.Reach (invitationStore times) NotOvertaken c₁ c) :
    c.world.status = c₁.world.status := by
  have hfollows : InvitationInvAt calls c₁.world.status c ∧
      ∀ t, InvitationSpec (c.threads t) (c.phase calls t) InvitationPhase.Returns
        fun _ _ => True := by
    refine Pool.Reach.follows hmeets ⟨hinv, rfl⟩ ?_ h
    rintro c t o k ⟨hinv, hstatus⟩ hthread hissues henabled hcond
    refine ⟨trivial, invitationInv_after hinv hissues henabled hcond, ?_⟩
    have hstep : (o.exec times c.world).1.status = c.world.status ∨
        (c.world.status = .pending ∧ o.writes? = some (o.exec times c.world).1.status) :=
      status_step (hinv.call t) hissues hcond
    rcases hstep with hsame | ⟨hpending, -⟩
    · exact hsame.trans hstatus
    · exact absurd (hstatus.symm.trans hpending) hend
  exact hfollows.1.2

/-- **Invitations are single use, and their end states are final**, while no revocation and no flip
to expired overwrites a status that another call has written since its read: one accept commits at
most, every accept that returns has committed, a status other than pending does not change, and when
a revocation has returned no accept has committed. -/
theorem invitations_single_use {env : InvitationEnv} {s : InvitationStore}
    (h : Pool.Reach (invitationStore times) NotOvertaken (InvitationSystem.init env s calls) c) :
    (∀ t u, c.phase calls t = .committed → c.phase calls u = .committed → t = u) ∧
    (∀ t userId, c.threads t = .pure (.accepted userId) → c.phase calls t = .committed) ∧
    (∀ c', Pool.Reach (invitationStore times) NotOvertaken c c' → c.world.status ≠ .pending →
      c'.world.status = c.world.status) ∧
    ∀ t u, c.threads t = .pure .revoked → c.phase calls u ≠ .committed := by
  obtain ⟨hinv, hmeets⟩ := invitationInv_of_reach (fun t => invitationProgram_spec (calls t))
    invitationInv_init h
  refine ⟨hinv.one, ?_, ?_, ?_⟩
  · intro t userId hthread
    have ht := hmeets t
    rw [hthread] at ht
    exact ht
  · intro c' h' hend
    exact status_final hmeets hinv hend h'
  · intro t u hthread hu
    have ht := hmeets t
    rw [hthread] at ht
    have hrevoked := (hinv.call t).revoked ht
    rw [(hinv.call u).accepted hu] at hrevoked
    cases hrevoked

end Step

end System

/-! ## An accept and a revocation -/

instance (written : List InvitationStatus) : (o : InvitationOp) → Decidable (o.NotOvertaken written)
  | .save row => inferInstanceAs (Decidable (∀ status ∈ written, status = row.status))
  | .update _ status' => inferInstanceAs (Decidable (∀ status ∈ written, status = status'))
  | .txBegin => inferInstanceAs (Decidable True)
  | .txSelectForUpdate _ _ => inferInstanceAs (Decidable True)
  | .txFindAssignment _ _ => inferInstanceAs (Decidable True)
  | .txSaveAssignment _ _ => inferInstanceAs (Decidable True)
  | .txSaveUser _ _ _ _ => inferInstanceAs (Decidable True)
  | .txSave _ _ => inferInstanceAs (Decidable True)
  | .txCommit _ => inferInstanceAs (Decidable True)
  | .txRollback _ => inferInstanceAs (Decidable True)
  | .findByUsername _ => inferInstanceAs (Decidable True)
  | .findByEmail _ => inferInstanceAs (Decidable True)
  | .findOneBy _ => inferInstanceAs (Decidable True)
  | .getAccessibleScopeIds _ => inferInstanceAs (Decidable True)
  | .now => inferInstanceAs (Decidable True)

instance {ι : Type} [DecidableEq ι] (c : InvitationSystem ι) (t : ι) (o : InvitationOp) :
    Decidable (NotOvertaken c t o) :=
  inferInstanceAs (Decidable (o.NotOvertaken (writtenSince t c.log)))

/-- A pending invitation, and its owner. -/
def invitedStore : InvitationStore where
  committed :=
    { invitation :=
        { id := "invitation", tokenHash := "token", scopeNodeId := "team", roleId := "member",
          expiresAt := 10 } }
  accessible := [("owner", ["team"])]

def invitedEnv : InvitationEnv where
  hashRefreshToken token := token
  hashPassword password := password

/-- A guest accepts, and the owner revokes. -/
def acceptAndRevoke : Bool → InvitationCall
  | false => .accept { rawToken := "token", existingUserId := some "guest" }
  | true => .revoke "invitation" "owner"

/-- The calls after a schedule, with a clock that stands still. -/
def invitationRun (sched : List (Bool × Nat)) : InvitationSystem Bool :=
  Pool.play (invitationStore fun _ => 0) sched
    (InvitationSystem.init invitedEnv invitedStore acceptAndRevoke)

/-- A revocation after the accept leaves the invitation accepted. -/
theorem invitations_single_use_sequential :
    (invitationRun [(false, 7), (true, 3)]).world.status =
      (invitationRun [(false, 7)]).world.status := by
  have haccept : Pool.admits (invitationStore fun _ => 0) NotOvertaken [(false, 7)]
      (InvitationSystem.init invitedEnv invitedStore acceptAndRevoke) = true := by decide +kernel
  have hrevoke : Pool.admits (invitationStore fun _ => 0) NotOvertaken [(true, 3)]
      (invitationRun [(false, 7)]) = true := by decide +kernel
  have hreach : Pool.Reach (invitationStore fun _ => 0) NotOvertaken
      (InvitationSystem.init invitedEnv invitedStore acceptAndRevoke)
      (invitationRun [(false, 7)]) := Pool.reach_play_of_admits _ _ haccept
  have hend : (invitationRun [(false, 7)]).world.status ≠ .pending := by decide +kernel
  exact (invitations_single_use hreach).2.2.1 _ (Pool.reach_play_of_admits _ _ hrevoke) hend

/-- A revocation that has read the pending row before the accept overwrites the accepted status and
returns, after the role has been granted. -/
theorem revoked_after_accept :
    ∃ c₁ c : InvitationSystem Bool,
      Pool.Reach (invitationStore fun _ => 0) Pool.anyStep
        (InvitationSystem.init invitedEnv invitedStore acceptAndRevoke) c₁ ∧
      c₁.world.status = .accepted ∧
      Pool.Reach (invitationStore fun _ => 0) Pool.anyStep c₁ c ∧
      c.world.status = .revoked ∧ c.threads true = .pure .revoked ∧
      c.phase acceptAndRevoke false = .committed ∧
      c.world.committed.assignments =
        [{ userId := "guest", roleId := "member", scopeNodeId := "team" }] := by
  refine ⟨invitationRun [(true, 2), (false, 7)],
    Pool.play (invitationStore fun _ => 0) [(true, 1)] (invitationRun [(true, 2), (false, 7)]),
    Pool.reach_play _ _, by decide +kernel, Pool.reach_play _ _, by decide +kernel, ?_,
    by decide +kernel, by decide +kernel⟩
  exact Prog.value?_eq_some.1 (by decide +kernel)

end Nexus
