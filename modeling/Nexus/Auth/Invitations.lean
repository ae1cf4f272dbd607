import Nexus.Lib.Pool

/-!
# Invitations

`InvitationService` on one invitation: the accept in a transaction that locks the row, the status
flip of an expired invitation after the rollback, and the revocation. Every repository call is one
atomic step; a write of another call waits for the lock of the row.
-/

set_option autoImplicit false

namespace Nexus

/-! ## The store -/

inductive InvitationStatus where
  | pending
  | accepted
  | revoked
  | expired
  deriving DecidableEq, Repr

/-- A row of `invitations`. -/
structure Invitation where
  id : String
  tokenHash : String
  scopeNodeId : String
  roleId : String
  email : Option String := none
  status : InvitationStatus := .pending
  expiresAt : Nat
  acceptedByUserId : Option String := none
  deriving DecidableEq

/-- A row of `role_assignments`. -/
structure RoleAssignment where
  userId : String
  roleId : String
  scopeNodeId : String
  deriving DecidableEq

/-- A row of `users`. -/
structure User where
  id : String
  username : String
  email : String
  passwordHash : String
  deriving DecidableEq

/-- The tables the calls read and write. -/
structure InvitationTables where
  invitation : Invitation
  assignments : List RoleAssignment := []
  users : List User := []

/-- The committed tables, and the transaction that holds the row lock with the tables as it sees
them. -/
structure InvitationStore where
  committed : InvitationTables
  holder : Option (Nat × InvitationTables) := none
  /-- The number of transactions begun. -/
  begun : Nat := 0
  /-- The scopes a user can manage. -/
  accessible : List (String × List String) := []
  /-- The number of readings of the clock. -/
  readings : Nat := 0

/-- The operations of the calls. Those with the prefix `tx` go through the manager of a
transaction. -/
inductive InvitationOp where
  | txBegin
  /-- `SELECT ... FOR UPDATE` of the row with a token hash, which takes its lock. -/
  | txSelectForUpdate (manager : Nat) (tokenHash : String)
  | txFindAssignment (manager : Nat) (assignment : RoleAssignment)
  | txSaveAssignment (manager : Nat) (assignment : RoleAssignment)
  | txSaveUser (manager : Nat) (username email passwordHash : String)
  | txSave (manager : Nat) (row : Invitation)
  | txCommit (manager : Nat)
  | txRollback (manager : Nat)
  | findByUsername (username : String)
  | findByEmail (email : String)
  | findOneBy (id : String)
  | getAccessibleScopeIds (userId : String)
  | save (row : Invitation)
  /-- `update(id, { status })`. -/
  | update (id : String) (status : InvitationStatus)
  /-- `Date.now()`. -/
  | now

/-- What an operation answers. -/
def InvitationOp.Ans : InvitationOp → Type
  | .txBegin => Nat
  | .txSelectForUpdate _ _ => Option Invitation
  | .txFindAssignment _ _ => Option RoleAssignment
  | .txSaveUser _ _ _ _ => User
  | .findByUsername _ => Option User
  | .findByEmail _ => Option User
  | .findOneBy _ => Option Invitation
  | .getAccessibleScopeIds _ => List String
  | .now => Nat
  | _ => Unit

/-- The tables after a write of the invitation with an id. -/
def InvitationTables.write (tables : InvitationTables) (id : String)
    (f : Invitation → Invitation) : InvitationTables :=
  if tables.invitation.id = id then { tables with invitation := f tables.invitation } else tables

/-- The tables as a transaction sees them. -/
def InvitationStore.seen (s : InvitationStore) (manager : Nat) : InvitationTables :=
  match s.holder with
  | some (tx, tables) => if tx = manager then tables else s.committed
  | none => s.committed

/-- A change of the tables by the transaction that holds the lock. -/
def InvitationStore.change (s : InvitationStore) (manager : Nat)
    (f : InvitationTables → InvitationTables) : InvitationStore :=
  { s with holder := s.holder.map fun tx => if tx.1 = manager then (tx.1, f tx.2) else tx }

/-- The end of a transaction, which gives its lock back. -/
def InvitationStore.release (s : InvitationStore) (manager : Nat) : InvitationStore :=
  { s with holder := s.holder.filter fun tx => tx.1 ≠ manager }

/-- `times` are the readings of the clock. -/
def InvitationOp.exec (times : Nat → Nat) (s : InvitationStore) :
    (o : InvitationOp) → InvitationStore × o.Ans
  | .txBegin => ({ s with begun := s.begun + 1 }, s.begun)
  | .txSelectForUpdate manager tokenHash =>
      if s.committed.invitation.tokenHash = tokenHash then
        ({ s with holder := some (manager, s.committed) }, some s.committed.invitation)
      else (s, none)
  | .txFindAssignment manager assignment =>
      (s, (s.seen manager).assignments.find? fun x => x = assignment)
  | .txSaveAssignment manager assignment =>
      (s.change manager fun tables =>
        { tables with assignments := tables.assignments ++ [assignment] }, ())
  | .txSaveUser manager username email passwordHash =>
      let user : User :=
        { id := toString (s.seen manager).users.length, username := username, email := email,
          passwordHash := passwordHash }
      (s.change manager fun tables => { tables with users := tables.users ++ [user] }, user)
  | .txSave manager row => (s.change manager fun tables => tables.write row.id fun _ => row, ())
  | .txCommit manager =>
      ({ s with committed := s.seen manager }.release manager, ())
  | .txRollback manager => (s.release manager, ())
  | .findByUsername username =>
      (s, s.committed.users.find? fun user => user.username = username)
  | .findByEmail email => (s, s.committed.users.find? fun user => user.email = email)
  | .findOneBy id =>
      (s, if s.committed.invitation.id = id then some s.committed.invitation else none)
  | .getAccessibleScopeIds userId =>
      (s, ((s.accessible.find? fun e => e.1 = userId).map Prod.snd).getD [])
  | .save row => ({ s with committed := s.committed.write row.id fun _ => row }, ())
  | .update id status =>
      ({ s with committed := s.committed.write id fun row => { row with status := status } }, ())
  | .now => ({ s with readings := s.readings + 1 }, times s.readings)

/-- Whether an operation needs the lock of the row, or its absence. -/
def InvitationOp.needsRow (row : Invitation) : InvitationOp → Bool
  | .txSelectForUpdate _ tokenHash => row.tokenHash = tokenHash
  | .save saved => row.id = saved.id
  | .update id _ => row.id = id
  | _ => false

/-- The store as the shared state of a pool of calls: an operation on the row waits while a
transaction holds its lock. -/
def invitationStore (times : Nat → Nat) :
    Machine InvitationOp InvitationOp.Ans InvitationStore where
  exec := InvitationOp.exec times
  enabled s o := (o.needsRow s.committed.invitation && s.holder.isSome) = false

instance (times : Nat → Nat) (s : InvitationStore) (o : InvitationOp) :
    Decidable ((invitationStore times).enabled s o) :=
  inferInstanceAs (Decidable ((o.needsRow s.committed.invitation && s.holder.isSome) = false))

/-! ## InvitationService -/

/-- The exceptions of the service. -/
inductive InvitationError where
  | notFound (message : String)
  | badRequest (message : String)
  | conflict (message : String)
  | forbidden (message : String)
  /-- `ExpiredInvitationError`, which does not leave the service. -/
  | expiredInvitation (invitationId : String)
  deriving DecidableEq

/-- The programs of the service. -/
abbrev Inviting (α : Type) := Prog InvitationOp InvitationOp.Ans InvitationError α

def awaitInvitation (o : InvitationOp) : Inviting o.Ans := Prog.op o

def dateNow : Inviting Nat := awaitInvitation .now

def beginTransaction : Inviting Nat := awaitInvitation .txBegin

/-- The code outside the service: the hashing of tokens and of passwords. -/
structure InvitationEnv where
  hashRefreshToken : String → String
  hashPassword : String → String

structure NewUserInput where
  username : String
  password : String
  email : Option String := none

structure AcceptInvitationInput where
  rawToken : String
  existingUserId : Option String := none
  newUser : Option NewUserInput := none

def invalidOrExpiredInvitationMessage : String := "Invalid or expired invitation"

/-- `dataSource.transaction`: an exception rolls the transaction back. -/
def transaction {α : Type} (body : Nat → Inviting α) : Inviting α := do
  let manager ← beginTransaction
  let result ← (body manager).handle fun error => do
    awaitInvitation (.txRollback manager)
    .fail error
  awaitInvitation (.txCommit manager)
  pure result

section Service

variable (env : InvitationEnv)

def loadAcceptableInvitation (manager : Nat) (tokenHash : String) : Inviting Invitation := do
  match ← awaitInvitation (.txSelectForUpdate manager tokenHash) with
  | none => .fail (.notFound invalidOrExpiredInvitationMessage)
  | some invitation =>
      if invitation.status ≠ .pending then
        .fail (.notFound invalidOrExpiredInvitationMessage)
      else
        let now ← dateNow
        if invitation.expiresAt ≤ now then .fail (.expiredInvitation invitation.id)
        else pure invitation

def resolveAcceptingUserId (manager : Nat) (input : AcceptInvitationInput)
    (invitation : Invitation) : Inviting String :=
  if input.existingUserId.getD "" ≠ "" then pure (input.existingUserId.getD "")
  else
    match input.newUser with
    | none =>
        .fail (.badRequest "newUser is required when existingUserId is not supplied")
    | some newUser =>
        match newUser.email <|> invitation.email with
        | none =>
            .fail (.badRequest "An email is required to create an account for this invitation")
        | some email =>
            if email = "" then
              .fail (.badRequest "An email is required to create an account for this invitation")
            else do
              match ← awaitInvitation (.findByUsername newUser.username) with
              | some _ => .fail (.conflict "Username already exists")
              | none =>
                  match ← awaitInvitation (.findByEmail email) with
                  | some _ => .fail (.conflict "Email already exists")
                  | none =>
                      let user ← awaitInvitation
                        (.txSaveUser manager newUser.username email
                          (env.hashPassword newUser.password))
                      pure (user : User).id

/-- `assignRole` through the manager of the transaction. -/
def assignRole (manager : Nat) (assignment : RoleAssignment) : Inviting Unit := do
  match ← awaitInvitation (.txFindAssignment manager assignment) with
  | some _ => pure ()
  | none => awaitInvitation (.txSaveAssignment manager assignment)

/-- The body of the transaction of `acceptInvitation`. -/
def acceptInTransaction (input : AcceptInvitationInput) (manager : Nat) : Inviting String := do
  let invitation ← loadAcceptableInvitation manager (env.hashRefreshToken input.rawToken)
  let userId ← resolveAcceptingUserId env manager input invitation
  assignRole manager
    { userId := userId, roleId := invitation.roleId, scopeNodeId := invitation.scopeNodeId }
  awaitInvitation
    (.txSave manager { invitation with status := .accepted, acceptedByUserId := some userId })
  pure userId

def markInvitationExpired (invitationId : String) : Inviting Unit :=
  awaitInvitation (.update invitationId .expired)

def acceptInvitation (input : AcceptInvitationInput) : Inviting String :=
  (transaction (acceptInTransaction env input)).handle fun error =>
    match error with
    | .expiredInvitation invitationId => do
        markInvitationExpired invitationId
        .fail (.notFound invalidOrExpiredInvitationMessage)
    | e => .fail e

/-- `assertIssuerCanManageScope`. -/
def assertIssuerCanManageScope (userId scopeNodeId : String) : Inviting Unit := do
  let accessibleScopeIds ← awaitInvitation (.getAccessibleScopeIds userId)
  if (accessibleScopeIds : List String).contains scopeNodeId then pure ()
  else .fail (.forbidden "Not allowed to invite at this scope")

def revokeInvitation (id actorUserId : String) : Inviting Unit := do
  match ← awaitInvitation (.findOneBy id) with
  | none => .fail (.notFound "Invitation not found")
  | some invitation =>
      assertIssuerCanManageScope actorUserId invitation.scopeNodeId
      if invitation.status ≠ .pending then .fail (.conflict "Invitation is not pending")
      else awaitInvitation (.save { invitation with status := .revoked })

/-! ## The system of calls -/

/-- The calls that interleave. -/
inductive InvitationCall where
  | accept (input : AcceptInvitationInput)
  | revoke (id actorUserId : String)

/-- What a call that returns has done. -/
inductive InvitationOutcome where
  | accepted (userId : String)
  | revoked
  deriving DecidableEq

/-- The program of a call. -/
def InvitationCall.program : InvitationCall → Inviting InvitationOutcome
  | .accept input => do
      let userId ← acceptInvitation env input
      pure (.accepted userId)
  | .revoke id actorUserId => do
      revokeInvitation id actorUserId
      pure .revoked

end Service

end Nexus
