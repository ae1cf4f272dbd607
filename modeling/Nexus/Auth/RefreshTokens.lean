import Nexus.Lib.Pool

/-!
# Refresh tokens

`RefreshTokenService` and the calls of `AuthService` that use it: the exchange of a refresh token
for a new pair, the logouts and the issue of a token at a login. Every repository call is one atomic
step, and calls interleave.
-/

set_option autoImplicit false

namespace Nexus

/-! ## The store -/

/-- A row of `refresh_tokens`. -/
structure RefreshToken where
  id : Nat
  userId : String
  tokenHash : String
  expiresAt : Nat
  isRevoked : Bool := false
  deriving DecidableEq

/-- The columns `create({ user, tokenHash, expiresAt, deviceInfo })` sets. -/
structure NewRefreshToken where
  userId : String
  tokenHash : String
  expiresAt : Nat

/-- The tables behind the calls, the clock and the number of random strings drawn. -/
structure AuthStore where
  tokens : List RefreshToken := []
  nextId : Nat := 0
  /-- The roles of the users that exist. -/
  roles : List (String × List String) := []
  clock : Nat := 0
  drawn : Nat := 0

/-- The calls of the repositories, of the clock and of the source of randomness. -/
inductive AuthOp where
  /-- `findOne({ where: { tokenHash, isRevoked: false }, relations: { user: true } })`. -/
  | findByTokenHash (tokenHash : String)
  | save (row : RefreshToken)
  | create (row : NewRefreshToken)
  /-- `update({ user: { id: userId }, isRevoked: false }, { isRevoked: true })`. -/
  | revokeAll (userId : String)
  | findWithRoles (userId : String)
  | now
  | randomBytes

/-- What an operation answers. -/
def AuthOp.Ans : AuthOp → Type
  | .findByTokenHash _ => Option RefreshToken
  | .findWithRoles _ => Option (List String)
  | .now => Nat
  | .randomBytes => Nat
  | _ => Unit

/-- The rows after a change of `isRevoked`. -/
def AuthStore.setRevoked (s : AuthStore) (p : RefreshToken → Bool) (isRevoked : Bool) : AuthStore :=
  { s with tokens := s.tokens.map fun x => if p x then { x with isRevoked := isRevoked } else x }

/-- The unrevoked row with a hash. -/
def AuthStore.findUnrevoked (s : AuthStore) (tokenHash : String) : Option RefreshToken :=
  s.tokens.find? fun x => x.tokenHash = tokenHash && !x.isRevoked

def AuthOp.exec (s : AuthStore) : (o : AuthOp) → AuthStore × o.Ans
  | .findByTokenHash tokenHash => (s, s.findUnrevoked tokenHash)
  | .save row => (s.setRevoked (fun x => x.id = row.id) row.isRevoked, ())
  | .create row =>
      ({ s with
          tokens := s.tokens ++
            [{ id := s.nextId, userId := row.userId, tokenHash := row.tokenHash,
               expiresAt := row.expiresAt }]
          nextId := s.nextId + 1 }, ())
  | .revokeAll userId => (s.setRevoked (fun x => x.userId = userId && !x.isRevoked) true, ())
  | .findWithRoles userId => (s, (s.roles.find? fun e => e.1 = userId).map Prod.snd)
  | .now => ({ s with clock := s.clock + 1 }, s.clock)
  | .randomBytes => ({ s with drawn := s.drawn + 1 }, s.drawn)

/-- The store as the shared state of a pool of calls. -/
def authStore : Machine AuthOp AuthOp.Ans AuthStore where
  exec := AuthOp.exec
  enabled _ _ := True

instance (s : AuthStore) (o : AuthOp) : Decidable (authStore.enabled s o) :=
  inferInstanceAs (Decidable True)

/-! ## RefreshTokenService -/

/-- The exception of a rejected token. -/
inductive AuthError where
  | unauthorized (message : String)
  deriving DecidableEq

abbrev Auth (α : Type) := Prog AuthOp AuthOp.Ans AuthError α

def awaitAuth (o : AuthOp) : Auth o.Ans := Prog.op o

/-- `new Date()`. -/
def authDate : Auth Nat := awaitAuth .now

/-- The code outside the services: hashing, the random strings, the expiry of a new token and the
signing of access tokens. -/
structure AuthEnv where
  /-- `hashRefreshToken(plainToken, hmacKey)`. -/
  hashRefreshToken : String → String
  /-- The `n`-th `crypto.randomBytes(64).toString('hex')`. -/
  randomHex : Nat → String
  /-- The current date plus the configured days, with or without `rememberMe`. -/
  expiresAt : Nat → Bool → Nat
  /-- `generateTokens(user, roles)`: the access token and its `expiresIn`. -/
  generateTokens : String → List String → String × Nat

section Service

variable (env : AuthEnv)

def createRefreshToken (userId : String) (rememberMe : Bool) : Auth String := do
  let bytes ← awaitAuth .randomBytes
  let plainToken := env.randomHex bytes
  let now ← authDate
  awaitAuth (.create
    { userId := userId, tokenHash := env.hashRefreshToken plainToken,
      expiresAt := env.expiresAt now rememberMe })
  pure plainToken

def validateRefreshToken (plainToken : String) : Auth (Option RefreshToken) := do
  match ← awaitAuth (.findByTokenHash (env.hashRefreshToken plainToken)) with
  | none => pure none
  | some row =>
      let now ← authDate
      if row.expiresAt < now then pure none
      else if row.isRevoked then pure none
      else pure (some row)

def revokeRefreshToken (plainToken : String) : Auth (Option RefreshToken) := do
  match ← awaitAuth (.findByTokenHash (env.hashRefreshToken plainToken)) with
  | none => pure none
  | some row =>
      if row.isRevoked then pure none
      else
        awaitAuth (.save { row with isRevoked := true })
        pure (some { row with isRevoked := true })

def revokeAllUserTokens (userId : String) : Auth Unit := awaitAuth (.revokeAll userId)

/-! ## AuthService -/

structure RefreshTokenResponse where
  accessToken : String
  refreshToken : String
  expiresIn : Nat
  deriving DecidableEq

/-- `AuthService.refreshToken`; the result of the revocation is not looked at. -/
def refreshToken (dto : String) : Auth RefreshTokenResponse := do
  match ← validateRefreshToken env dto with
  | none => .fail (.unauthorized "Invalid refresh token")
  | some row =>
      let _ ← revokeRefreshToken env dto
      let userWithRoles ← awaitAuth (.findWithRoles row.userId)
      let roles := userWithRoles.getD []
      let tokens := env.generateTokens row.userId roles
      let newRefreshToken ← createRefreshToken env row.userId false
      pure ⟨tokens.1, newRefreshToken, tokens.2⟩

/-- `logout`; an absent token revokes nothing. -/
def logout (token : Option String) : Auth Unit :=
  match token with
  | none => pure ()
  | some plainToken =>
      if plainToken = "" then pure ()
      else do
        let _ ← revokeRefreshToken env plainToken
        pure ()

/-! ## The system of calls -/

/-- The calls that interleave. -/
inductive AuthCall where
  | refreshToken (dto : String)
  | logout (token : Option String)
  | logoutAll (userId : String)
  /-- The issue of a token by a login or a registration. -/
  | issue (userId : String) (rememberMe : Bool)

/-- The program of a call; a refresh returns the pair it hands out. -/
def AuthCall.program : AuthCall → Auth (Option RefreshTokenResponse)
  | .refreshToken dto => do
      let response ← Nexus.refreshToken env dto
      pure (some response)
  | .logout token => do
      Nexus.logout env token
      pure none
  | .logoutAll userId => do
      revokeAllUserTokens userId
      pure none
  | .issue userId rememberMe => do
      let _ ← createRefreshToken env userId rememberMe
      pure none

end Service

end Nexus
