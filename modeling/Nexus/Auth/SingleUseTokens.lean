import Nexus.Auth.RefreshTokens
import Mathlib.Data.Fintype.Basic
import Mathlib.Data.List.Nodup

/-!
# Refresh tokens are single use

`refreshToken` validates a token, revokes it and issues a new pair, and it does not look at the
result of the revocation. When no call revokes a token that another `refreshToken` call has read and
not revoked yet, every token is exchanged at most once (`refresh_tokens_single_use`); two calls that
both read the token first exchange it twice (`token_exchanged_twice`).
-/

set_option autoImplicit false

namespace Nexus

/-! ## What a call has done with its token -/

/-- How far an exchange has come. Every phase after the first read keeps the row that was read. -/
inductive ExchangePhase where
  /-- Not an exchange. -/
  | other
  | reading
  | rejected
  /-- The validation has found the row. -/
  | accepted (row : RefreshToken)
  /-- The revocation has found a row, the second one. -/
  | revoking (row found : RefreshToken)
  /-- The revocation has been saved. -/
  | revoked (row : RefreshToken)
  /-- The revocation has found no unrevoked row. -/
  | lost (row : RefreshToken)
  deriving DecidableEq

/-- The phase after a step of the call. -/
def ExchangePhase.next : ExchangePhase → (o : AuthOp) → o.Ans → ExchangePhase
  | .reading, .findByTokenHash _, ans => Option.elim ans .rejected .accepted
  | .accepted row, .findByTokenHash _, ans => Option.elim ans (.lost row) (.revoking row)
  | .revoking row _, .save _, _ => .revoked row
  | phase, _, _ => phase

/-- The row the exchange has read and that it has not revoked yet. -/
def ExchangePhase.held? : ExchangePhase → Option RefreshToken
  | .accepted row => some row
  | .revoking row _ => some row
  | _ => none

/-- The row the validation has read. -/
def ExchangePhase.row? : ExchangePhase → Option RefreshToken
  | .accepted row => some row
  | .revoking row _ => some row
  | .revoked row => some row
  | .lost row => some row
  | _ => none

/-- The phase a call starts in. -/
def AuthCall.phase : AuthCall → ExchangePhase
  | .refreshToken _ => .reading
  | _ => .other

/-- The operations a call issues in a phase: the revocation asks for the token it has read, and
saves the row it has found. -/
def ExchangePhase.Issues : ExchangePhase → AuthOp → Prop
  | .other, .save row => row.isRevoked = true
  | .revoking _ found, .save row => row = { found with isRevoked := true }
  | _, .save _ => False
  | .other, .revokeAll _ => True
  | _, .revokeAll _ => False
  | .accepted row, .findByTokenHash tokenHash => tokenHash = row.tokenHash
  | _, _ => True

/-- What is known of an answer: a row that is found has the hash and is not revoked. -/
def ExchangePhase.Answers (_ : ExchangePhase) : (o : AuthOp) → o.Ans → Prop
  | .findByTokenHash tokenHash, ans =>
      ∀ row, (ans : Option RefreshToken) = some row →
        row.tokenHash = tokenHash ∧ row.isRevoked = false
  | _, _ => True

/-- A call that has handed out a pair has looked for its token twice. -/
def ExchangePhase.Returns (response : Option RefreshTokenResponse) (phase : ExchangePhase) : Prop :=
  response.isSome → ∃ row, phase = .revoked row ∨ phase = .lost row

/-- The contract of a call between two phases. -/
abbrev ExchangeSpec {α : Type} (p : Auth α) (phase : ExchangePhase)
    (Q : α → ExchangePhase → Prop) : Prop :=
  Prog.Meets (Pool.following ExchangePhase.next ExchangePhase.Issues ExchangePhase.Answers) Q
    (fun _ _ => True) p phase

variable {tokenHash : String}

section Calls

variable {env : AuthEnv} {phase : ExchangePhase}

/-- The operations that do not concern the exchange itself. -/
def AuthOp.IsNeutral : AuthOp → Prop
  | .findByTokenHash _ => False
  | .save _ => False
  | .revokeAll _ => False
  | _ => True

theorem issues_of_isNeutral {o : AuthOp} (ho : o.IsNeutral) : phase.Issues o := by
  cases o <;> first | exact ho.elim | (cases phase <;> exact trivial)

theorem next_of_isNeutral {o : AuthOp} (ho : o.IsNeutral) (ans : o.Ans) :
    phase.next o ans = phase := by
  cases o <;> first | exact ho.elim | (cases phase <;> rfl)

/-- A neutral operation leaves the phase as it is. -/
theorem neutral_spec {o : AuthOp} (ho : o.IsNeutral) :
    ExchangeSpec (awaitAuth o) phase (fun _ phase' => phase' = phase) := by
  apply Prog.meets_op (issues_of_isNeutral ho)
  rintro ans phase' ⟨rfl, -⟩
  exact next_of_isNeutral ho ans

/-- A search answers an unrevoked row with the hash. -/
theorem find_spec (hissues : phase.Issues (.findByTokenHash tokenHash)) :
    ExchangeSpec (awaitAuth (.findByTokenHash tokenHash)) phase (fun ans phase' =>
      phase' = phase.next (.findByTokenHash tokenHash) ans ∧
        ∀ row, (ans : Option RefreshToken) = some row →
          row.tokenHash = tokenHash ∧ row.isRevoked = false) := by
  apply Prog.meets_op hissues
  rintro ans phase' ⟨rfl, hanswer⟩
  exact ⟨rfl, hanswer⟩

theorem createRefreshToken_spec (userId : String) (rememberMe : Bool) :
    ExchangeSpec (createRefreshToken env userId rememberMe) phase (fun _ phase' =>
      phase' = phase) := by
  refine Prog.Meets.bind (neutral_spec trivial) ?_
  rintro bytes _ rfl
  refine Prog.Meets.bind (neutral_spec trivial) ?_
  rintro now phase₁ rfl
  refine Prog.Meets.bind (neutral_spec trivial) ?_
  rintro _ phase₂ rfl
  exact rfl

/-- The validation accepts the row it has read. -/
theorem validateRefreshToken_spec (dto : String) :
    ExchangeSpec (validateRefreshToken env dto) .reading (fun row phase' =>
      ∀ x, row = some x → phase' = .accepted x ∧ x.tokenHash = env.hashRefreshToken dto) := by
  refine Prog.Meets.bind (find_spec trivial) ?_
  rintro ans _ ⟨rfl, hanswer⟩
  cases ans with
  | none => exact fun x hx => nomatch hx
  | some row =>
      refine Prog.Meets.bind (neutral_spec trivial) ?_
      rintro now phase₁ rfl
      have hhash := (hanswer row rfl).1
      by_cases hexpired : row.expiresAt < now
      · rw [if_pos hexpired]
        exact fun x hx => nomatch hx
      · rw [if_neg hexpired]
        by_cases hrevoked : row.isRevoked = true
        · rw [if_pos hrevoked]
          exact fun x hx => nomatch hx
        · rw [if_neg hrevoked]
          rintro x hx
          cases hx
          exact ⟨rfl, hhash⟩

/-- The revocation of an exchange ends with the row saved, or finds no row. -/
theorem revokeRefreshToken_spec {row : RefreshToken} {dto : String}
    (hhash : row.tokenHash = env.hashRefreshToken dto) :
    ExchangeSpec (revokeRefreshToken env dto) (.accepted row) (fun _ phase' =>
      phase' = .revoked row ∨ phase' = .lost row) := by
  refine Prog.Meets.bind (find_spec hhash.symm) ?_
  rintro ans _ ⟨rfl, hanswer⟩
  cases ans with
  | none => exact Or.inr rfl
  | some found =>
      have hfound := (hanswer found rfl).2
      have hnot : ¬ found.isRevoked = true := by rw [hfound]; decide
      show Prog.Meets _ _ _ (if found.isRevoked = true then _ else _) _
      rw [if_neg hnot]
      refine ⟨rfl, ?_⟩
      rintro _ _ ⟨rfl, -⟩
      exact Or.inl rfl

theorem logout_spec (token : Option String) :
    ExchangeSpec (logout env token) .other (fun _ _ => True) := by
  cases token with
  | none => exact trivial
  | some plainToken =>
      show Prog.Meets _ _ _ (if plainToken = "" then _ else _) _
      by_cases hempty : plainToken = ""
      · rw [if_pos hempty]
        exact trivial
      · rw [if_neg hempty]
        refine Prog.Meets.bind (Q := fun _ _ => True) ?_ fun _ _ _ => trivial
        refine Prog.Meets.bind (find_spec trivial) ?_
        rintro ans _ ⟨rfl, -⟩
        cases ans with
        | none => exact trivial
        | some found =>
            show Prog.Meets _ _ _ (if found.isRevoked = true then _ else _) _
            split
            · exact trivial
            · exact ⟨rfl, fun _ _ _ => trivial⟩

/-- A refresh that hands out a pair has asked for the revocation of its token. -/
theorem refreshToken_spec (dto : String) :
    ExchangeSpec (refreshToken env dto) .reading (fun _ phase' =>
      ∃ row, phase' = .revoked row ∨ phase' = .lost row) := by
  refine Prog.Meets.bind (validateRefreshToken_spec dto) ?_
  intro accepted phase₁ haccepted
  cases accepted with
  | none => exact trivial
  | some row =>
      obtain ⟨rfl, hhash⟩ := haccepted row rfl
      refine Prog.Meets.bind (revokeRefreshToken_spec hhash) ?_
      intro _ phase₂ hrevoked
      refine Prog.Meets.bind (neutral_spec trivial) ?_
      rintro userWithRoles phase₃ rfl
      refine Prog.Meets.bind (createRefreshToken_spec row.userId false) ?_
      rintro token phase₄ rfl
      exact ⟨row, hrevoked⟩

/-- The calls keep to their contract. -/
theorem program_spec (call : AuthCall) :
    ExchangeSpec (call.program env) call.phase ExchangePhase.Returns := by
  cases call with
  | refreshToken dto =>
      refine Prog.Meets.bind (refreshToken_spec dto) ?_
      intro response phase' hphase
      exact fun _ => hphase
  | logout token =>
      refine Prog.Meets.bind (logout_spec token) ?_
      rintro _ phase' -
      exact fun h => nomatch h
  | logoutAll userId =>
      refine ⟨trivial, ?_⟩
      rintro _ phase' -
      exact fun h => nomatch h
  | issue userId rememberMe =>
      refine Prog.Meets.bind (createRefreshToken_spec userId rememberMe) ?_
      rintro _ phase' -
      exact fun h => nomatch h

end Calls

/-! ## Searches and revocations -/

section Store

variable {s : AuthStore} {row : RefreshToken} {id : Nat}

/-- The operation does not revoke the row. -/
def AuthOp.Spares (row : RefreshToken) : AuthOp → Prop
  | .save saved => row.id ≠ saved.id
  | .revokeAll userId => row.userId ≠ userId
  | _ => True

instance (row : RefreshToken) : (o : AuthOp) → Decidable (o.Spares row)
  | .save saved => inferInstanceAs (Decidable (row.id ≠ saved.id))
  | .revokeAll userId => inferInstanceAs (Decidable (row.userId ≠ userId))
  | .findByTokenHash _ => inferInstanceAs (Decidable True)
  | .create _ => inferInstanceAs (Decidable True)
  | .findWithRoles _ => inferInstanceAs (Decidable True)
  | .now => inferInstanceAs (Decidable True)
  | .randomBytes => inferInstanceAs (Decidable True)

/-- The operation leaves no row unrevoked that it saves. -/
def AuthOp.Revokes (o : AuthOp) : Prop := ∀ saved, o = .save saved → saved.isRevoked = true

theorem findUnrevoked_some (h : s.findUnrevoked tokenHash = some row) :
    row ∈ s.tokens ∧ row.tokenHash = tokenHash ∧ row.isRevoked = false := by
  have hrow := List.find?_some h
  simp only [Bool.and_eq_true, decide_eq_true_eq, Bool.not_eq_true'] at hrow
  exact ⟨List.mem_of_find?_eq_some h, hrow⟩

variable {p : RefreshToken → Bool}

/-- The rows before the one that is found are not found after a revocation either. -/
theorem findUnrevoked_setRevoked (h : s.findUnrevoked tokenHash = some row) (hp : p row = false) :
    (s.setRevoked p true).findUnrevoked tokenHash = some row := by
  obtain ⟨hrow, before, after, htokens, hbefore⟩ := List.find?_eq_some_iff_append.1 h
  have hfound : (s.tokens.map fun x => if p x then { x with isRevoked := true } else x) =
      before.map (fun x => if p x then { x with isRevoked := true } else x) ++ row ::
        after.map (fun x => if p x then { x with isRevoked := true } else x) := by
    rw [htokens, List.map_append, List.map_cons, hp]
    rfl
  refine List.find?_eq_some_iff_append.2 ⟨hrow, _, _, hfound, ?_⟩
  intro x hx
  obtain ⟨y, hy, rfl⟩ := List.mem_map.1 hx
  have := hbefore y hy
  cases hpy : p y <;> simp_all

/-- A row that is found stays found while the operations spare it. -/
theorem findUnrevoked_exec {o : AuthOp} (h : s.findUnrevoked row.tokenHash = some row)
    (hspares : o.Spares row) (hrevokes : o.Revokes) :
    (o.exec s).1.findUnrevoked row.tokenHash = some row := by
  cases o with
  | save saved =>
      have hsaved : saved.isRevoked = true := hrevokes saved rfl
      have hne : row.id ≠ saved.id := hspares
      simp only [AuthOp.exec, hsaved]
      exact findUnrevoked_setRevoked h (by simp [hne])
  | revokeAll userId =>
      have hne : row.userId ≠ userId := hspares
      exact findUnrevoked_setRevoked h (by simp [hne])
  | create new =>
      have hrow : s.tokens.find? (fun x => x.tokenHash = row.tokenHash && !x.isRevoked) =
        some row := h
      simp only [AuthOp.exec, AuthStore.findUnrevoked, List.find?_append, hrow, Option.some_or]
  | _ => exact h

theorem answers_exec {phase : ExchangePhase} {o : AuthOp} : phase.Answers o (o.exec s).2 := by
  cases o with
  | findByTokenHash tokenHash =>
      intro row hrow
      exact (findUnrevoked_some hrow).2
  | _ => exact trivial

/-- The ids of the rows are distinct, and older than the next one. -/
structure AuthStore.Sound (s : AuthStore) : Prop where
  keys : (s.tokens.map RefreshToken.id).Nodup
  fresh : ∀ x ∈ s.tokens, x.id < s.nextId

/-- The row with an id is revoked, and no row will get the id. -/
def AuthStore.IsSpent (s : AuthStore) (id : Nat) : Prop :=
  id < s.nextId ∧ ∀ x ∈ s.tokens, x.id = id → x.isRevoked = true

variable {b : Bool}

theorem mem_setRevoked {x : RefreshToken} (hx : x ∈ (s.setRevoked p b).tokens) :
    ∃ y ∈ s.tokens, y.id = x.id ∧ x.isRevoked = if p y then b else y.isRevoked := by
  obtain ⟨y, hy, rfl⟩ := List.mem_map.1 hx
  refine ⟨y, hy, ?_⟩
  cases p y <;> simp

theorem map_id_setRevoked :
    (s.setRevoked p b).tokens.map RefreshToken.id = s.tokens.map RefreshToken.id := by
  simp only [AuthStore.setRevoked, List.map_map]
  apply List.map_congr_left
  intro x _
  simp only [Function.comp]
  split <;> rfl

theorem sound_setRevoked (h : s.Sound) : (s.setRevoked p b).Sound := by
  constructor
  · rw [map_id_setRevoked]
    exact h.keys
  · intro x hx
    obtain ⟨y, hy, hid, -⟩ := mem_setRevoked hx
    exact hid ▸ h.fresh y hy

theorem sound_exec {o : AuthOp} (h : s.Sound) : (o.exec s).1.Sound := by
  cases o with
  | save saved => exact sound_setRevoked h
  | revokeAll userId => exact sound_setRevoked h
  | create new =>
      constructor
      · simp only [AuthOp.exec, List.map_append, List.map_cons, List.map_nil]
        refine List.nodup_append.2 ⟨h.keys, List.nodup_singleton _, ?_⟩
        intro i hi j hj
        obtain ⟨x, hx, rfl⟩ := List.mem_map.1 hi
        rw [List.mem_singleton.1 hj]
        exact Nat.ne_of_lt (h.fresh x hx)
      · intro x hx
        rcases List.mem_append.1 hx with hx | hx
        · exact Nat.lt_succ_of_lt (h.fresh x hx)
        · rw [List.mem_singleton.1 hx]
          exact Nat.lt_succ_self s.nextId
  | _ => exact ⟨h.keys, h.fresh⟩

/-- A spent id stays spent. -/
theorem isSpent_exec {o : AuthOp} (h : s.IsSpent id) (hrevokes : o.Revokes) :
    (o.exec s).1.IsSpent id := by
  cases o with
  | save saved =>
      refine ⟨h.1, fun x hx hid => ?_⟩
      obtain ⟨y, hy, hy', hrevoked⟩ := mem_setRevoked hx
      have hold := h.2 y hy (hy'.trans hid)
      rw [hrevoked, hrevokes saved rfl, hold, ite_self]
  | revokeAll userId =>
      refine ⟨h.1, fun x hx hid => ?_⟩
      obtain ⟨y, hy, hy', hrevoked⟩ := mem_setRevoked hx
      rw [hrevoked, h.2 y hy (hy'.trans hid), ite_self]
  | create new =>
      refine ⟨Nat.lt_succ_of_lt h.1, fun x hx hid => ?_⟩
      rcases List.mem_append.1 hx with hx | hx
      · exact h.2 x hx hid
      · rw [List.mem_singleton.1 hx] at hid
        exact absurd hid (Nat.ne_of_gt h.1)
  | _ => exact h

/-- A saved revocation spends the row. -/
theorem isSpent_save {saved : RefreshToken} (hsound : s.Sound) (hrevoked : saved.isRevoked = true)
    (hmem : ∃ x ∈ s.tokens, x.id = saved.id) :
    ((AuthOp.save saved).exec s).1.IsSpent saved.id := by
  obtain ⟨y, hy, hid⟩ := hmem
  refine ⟨hid ▸ hsound.fresh y hy, fun x hx hx' => ?_⟩
  obtain ⟨z, -, hz, hz'⟩ := mem_setRevoked hx
  rw [hz', hrevoked]
  simp [hz, hx']

/-- The revocation of the tokens of a user spends each of them. -/
theorem isSpent_revokeAll (hsound : s.Sound) (hrow : row ∈ s.tokens) :
    ((AuthOp.revokeAll row.userId).exec s).1.IsSpent row.id := by
  refine ⟨hsound.fresh row hrow, fun x hx hid => ?_⟩
  obtain ⟨y, hy, hy', hrevoked⟩ := mem_setRevoked hx
  have hsame : y = row := List.inj_on_of_nodup_map hsound.keys hy hrow (hy'.trans hid)
  rw [hrevoked, hsame]
  cases row.isRevoked <;> simp

theorem findUnrevoked_ne_of_isSpent (h : s.IsSpent id)
    (hfound : s.findUnrevoked tokenHash = some row) : row.id ≠ id := by
  obtain ⟨hmem, -, hrevoked⟩ := findUnrevoked_some hfound
  intro hid
  rw [h.2 row hmem hid] at hrevoked
  cases hrevoked

end Store

/-! ## The system of calls -/

section System

variable {ι : Type} [DecidableEq ι]

/-- Configurations of the calls. -/
abbrev AuthSystem (ι : Type) :=
  Config ι AuthOp AuthOp.Ans AuthError (Option RefreshTokenResponse) AuthStore

/-- The calls before their first step. -/
def AuthSystem.init (env : AuthEnv) (s : AuthStore) (calls : ι → AuthCall) : AuthSystem ι :=
  Pool.start s fun t => (calls t).program env

/-- How far a call has come. -/
def AuthSystem.phase (calls : ι → AuthCall) (c : AuthSystem ι) (t : ι) : ExchangePhase :=
  Pool.track ExchangePhase.next (fun u => (calls u).phase) c.log t

/-- A call that has not ended has read the row as unrevoked and has not revoked it yet. -/
def AuthSystem.Holds (calls : ι → AuthCall) (c : AuthSystem ι) (t : ι) (row : RefreshToken) :
    Prop :=
  (c.threads t).isRunning = true ∧ row ∈ (c.phase calls t).held?

/-- The condition on a step: a row is not revoked while another call holds it. -/
def SparesHeld (calls : ι → AuthCall) (c : AuthSystem ι) (t : ι) (o : AuthOp) : Prop :=
  ∀ u, u ≠ t → (c.threads u).isRunning = true → ∀ row ∈ (c.phase calls u).held?, o.Spares row

instance [Fintype ι] (calls : ι → AuthCall) (c : AuthSystem ι) (t : ι) (o : AuthOp) :
    Decidable (SparesHeld calls c t o) :=
  inferInstanceAs (Decidable (∀ u, u ≠ t → (c.threads u).isRunning = true →
    ∀ row ∈ (c.phase calls u).held?, o.Spares row))

/-- A call has returned a pair. -/
def AuthSystem.HandedOut (c : AuthSystem ι) (t : ι) : Prop :=
  ((c.threads t).value?.bind fun response => response).isSome = true

/-- A call has exchanged the token with an id for a pair. -/
def AuthSystem.Exchanged (calls : ι → AuthCall) (c : AuthSystem ι) (t : ι) (id : Nat) : Prop :=
  c.HandedOut t ∧ ∃ row ∈ (c.phase calls t).row?, row.id = id

instance (calls : ι → AuthCall) (c : AuthSystem ι) (t : ι) (id : Nat) :
    Decidable (c.Exchanged calls t id) :=
  inferInstanceAs (Decidable
    (((c.threads t).value?.bind fun response => response).isSome = true ∧
      ∃ row ∈ (c.phase calls t).row?, row.id = id))

section Step

variable {calls : ι → AuthCall} {c : AuthSystem ι} {t u : ι} {o : AuthOp}
  {k : o.Ans → Auth (Option RefreshTokenResponse)} {row : RefreshToken}

/-- The configuration after a step of a call. -/
abbrev AuthSystem.after (c : AuthSystem ι) (t : ι) (o : AuthOp)
    (k : o.Ans → Auth (Option RefreshTokenResponse)) : AuthSystem ι :=
  Pool.advance authStore c t o k

theorem phase_after_self :
    (c.after t o k).phase calls t = (c.phase calls t).next o (o.exec c.world).2 :=
  Pool.track_advance_self

theorem phase_after_of_ne (h : u ≠ t) : (c.after t o k).phase calls u = c.phase calls u :=
  Pool.track_advance_of_ne h

/-- An operation that revokes issued in a phase saves a revoked row. -/
theorem revokes_of_issues {phase : ExchangePhase} (h : phase.Issues o) : o.Revokes := by
  rintro saved rfl
  cases phase with
  | other => exact h
  | revoking row found =>
      have hsaved : saved = { found with isRevoked := true } := h
      rw [hsaved]
  | _ => exact h.elim

/-- What a step of a call does to its phase: nothing, the first search, the second one, or the
revocation. -/
inductive ExchangeStep (s : AuthStore) (o : AuthOp) : ExchangePhase → ExchangePhase → Prop where
  | same {phase : ExchangePhase} (hspares : ∀ row ∈ phase.held?, o.Spares row) :
      ExchangeStep s o phase phase
  | reject (hstore : (o.exec s).1 = s) : ExchangeStep s o .reading .rejected
  | accept {row : RefreshToken} (hstore : (o.exec s).1 = s)
      (hfind : s.findUnrevoked row.tokenHash = some row) :
      ExchangeStep s o .reading (.accepted row)
  | lose {row : RefreshToken} (hfind : s.findUnrevoked row.tokenHash = none) :
      ExchangeStep s o (.accepted row) (.lost row)
  | find {row found : RefreshToken} (hstore : (o.exec s).1 = s)
      (hfind : s.findUnrevoked row.tokenHash = some found) :
      ExchangeStep s o (.accepted row) (.revoking row found)
  | revoke {row found : RefreshToken} (hsave : o = .save { found with isRevoked := true }) :
      ExchangeStep s o (.revoking row found) (.revoked row)

theorem exchangeStep {phase : ExchangePhase} {s : AuthStore} (hissues : phase.Issues o) :
    ExchangeStep s o phase (phase.next o (o.exec s).2) := by
  cases o with
  | findByTokenHash tokenHash =>
      have hans : ((AuthOp.findByTokenHash tokenHash).exec s).2 = s.findUnrevoked tokenHash := rfl
      rw [hans]
      cases phase with
      | reading =>
          show ExchangeStep s _ _ ((s.findUnrevoked tokenHash).elim .rejected .accepted)
          cases hfind : s.findUnrevoked tokenHash with
          | none => exact .reject rfl
          | some row => exact .accept rfl ((findUnrevoked_some hfind).2.1 ▸ hfind)
      | accepted row =>
          have hhash : tokenHash = row.tokenHash := hissues
          show ExchangeStep s _ _ ((s.findUnrevoked tokenHash).elim (.lost row) (.revoking row))
          cases hfind : s.findUnrevoked tokenHash with
          | none => exact .lose (hhash ▸ hfind)
          | some found => exact .find rfl (hhash ▸ hfind)
      | _ => exact .same fun _ _ => trivial
  | save saved =>
      cases phase with
      | other => exact .same fun _ h => nomatch h
      | revoking row found => exact .revoke (congrArg AuthOp.save hissues)
      | _ => exact hissues.elim
  | revokeAll userId =>
      cases phase with
      | other => exact .same fun _ h => nomatch h
      | _ => exact hissues.elim
  | create new => exact next_of_isNeutral (o := .create new) trivial _ ▸ .same fun _ _ => trivial
  | findWithRoles userId =>
      exact next_of_isNeutral (o := .findWithRoles userId) trivial _ ▸ .same fun _ _ => trivial
  | now => exact next_of_isNeutral (o := .now) trivial _ ▸ .same fun _ _ => trivial
  | randomBytes =>
      exact next_of_isNeutral (o := .randomBytes) trivial _ ▸ .same fun _ _ => trivial

/-- What the invariant says of one call. -/
structure ExchangeOf (s : AuthStore) (phase : ExchangePhase) : Prop where
  held : ∀ row ∈ phase.held?, s.findUnrevoked row.tokenHash = some row
  found : ∀ row found, phase = .revoking row found → found = row
  not_lost : ∀ row, phase ≠ .lost row
  spent : ∀ row, phase = .revoked row → s.IsSpent row.id

/-- A running call finds its row in the store, revokes it, or leaves it as it is. -/
theorem exchangeOf_next {phase phase' : ExchangePhase} {s : AuthStore} (hsound : s.Sound)
    (hrevokes : o.Revokes) (h : ExchangeOf s phase) (hstep : ExchangeStep s o phase phase') :
    ExchangeOf (o.exec s).1 phase' := by
  cases hstep with
  | same hspares =>
      constructor
      · intro row hrow
        exact findUnrevoked_exec (h.held row hrow) (hspares row hrow) hrevokes
      · exact h.found
      · exact h.not_lost
      · intro row hrow
        exact isSpent_exec (h.spent row hrow) hrevokes
  | reject hstore =>
      constructor
      · intro row hrow
        cases hrow
      · intro row found hphase
        cases hphase
      · intro row hphase
        cases hphase
      · intro row hphase
        cases hphase
  | @accept row hstore hfind =>
      constructor
      · intro row' hrow
        cases hrow
        rw [hstore]
        exact hfind
      · intro row' found hphase
        cases hphase
      · intro row' hphase
        cases hphase
      · intro row' hphase
        cases hphase
  | @lose row hfind =>
      -- a row that is held is found
      have hheld := h.held row rfl
      rw [hfind] at hheld
      cases hheld
  | @find row found hstore hfind =>
      have hheld := h.held row rfl
      have hsame : found = row := Option.some.inj (hfind.symm.trans hheld)
      subst hsame
      constructor
      · intro row' hrow
        cases hrow
        rw [hstore]
        exact hfind
      · intro row' found' hphase
        cases hphase
        rfl
      · intro row' hphase
        cases hphase
      · intro row' hphase
        cases hphase
  | @revoke row found hsave =>
      subst hsave
      have hsame := h.found row found rfl
      subst hsame
      have hmem := (findUnrevoked_some (h.held found rfl)).1
      constructor
      · intro row' hrow
        cases hrow
      · intro row' found' hphase
        cases hphase
      · intro row' hphase
        cases hphase
      · intro row' hphase
        cases hphase
        exact isSpent_save hsound rfl ⟨found, hmem, rfl⟩

/-- A call that revokes its row finds it unspent before. -/
theorem not_spent_of_revoked {phase : ExchangePhase} {s : AuthStore} (h : ExchangeOf s phase)
    (hstep : ExchangeStep s o phase (.revoked row)) :
    phase = .revoked row ∨ ¬ s.IsSpent row.id := by
  cases hstep with
  | same hspares => exact Or.inl rfl
  | @revoke _ found hsave =>
      have hheld := h.held row rfl
      exact Or.inr fun hspent => findUnrevoked_ne_of_isSpent hspent hheld rfl

/-- What holds of the store and the phases of the calls; of a call that has ended, the rows it may
still hold do not matter. -/
structure ExchangeInv (calls : ι → AuthCall) (c : AuthSystem ι) : Prop where
  sound : c.world.Sound
  running : ∀ t, (c.threads t).isRunning = true → ExchangeOf c.world (c.phase calls t)
  not_lost : ∀ t row, c.phase calls t ≠ .lost row
  spent : ∀ t row, c.phase calls t = .revoked row → c.world.IsSpent row.id
  unique : ∀ t u row row', c.phase calls t = .revoked row → c.phase calls u = .revoked row' →
    row.id = row'.id → t = u

/-- A step of a call keeps the invariant when it spares the rows that other calls hold. -/
theorem exchangeInv_after (hinv : ExchangeInv calls c) (hthread : c.threads t = .call o k)
    (hissues : (c.phase calls t).Issues o) (hspares : SparesHeld calls c t o) :
    ExchangeInv calls (c.after t o k) := by
  have hrevokes := revokes_of_issues hissues
  have hrunning : (c.threads t).isRunning = true := by rw [hthread]; rfl
  have hphase : (c.after t o k).phase calls t = (c.phase calls t).next o (o.exec c.world).2 :=
    phase_after_self
  have hstep : ExchangeStep c.world o (c.phase calls t) ((c.after t o k).phase calls t) :=
    hphase ▸ exchangeStep hissues
  have hself : ExchangeOf (o.exec c.world).1 ((c.after t o k).phase calls t) :=
    exchangeOf_next hinv.sound hrevokes (hinv.running t hrunning) hstep
  -- a row revoked by another call is spent, and the stepping call revokes an unspent one
  have hdiffer : ∀ u row row', u ≠ t → (c.after t o k).phase calls t = .revoked row →
      c.phase calls u = .revoked row' → row.id ≠ row'.id := by
    intro u row row' hu ht hu' hid
    have hspent := hinv.spent u row' hu'
    rw [ht] at hstep
    rcases not_spent_of_revoked (hinv.running t hrunning) hstep with hbefore | hunspent
    · exact hu (hinv.unique u t row' row hu' hbefore hid.symm)
    · exact hunspent (hid ▸ hspent)
  refine ⟨sound_exec hinv.sound, ?_, ?_, ?_, ?_⟩
  · intro u hu
    by_cases hut : u = t
    · subst hut
      exact hself
    · rw [phase_after_of_ne hut]
      simp only [Pool.advance, Function.update_of_ne hut] at hu
      have hold := hinv.running u hu
      exact ⟨fun row hrow => findUnrevoked_exec (hold.held row hrow) (hspares u hut hu row hrow)
        hrevokes, hold.found, hold.not_lost, fun row hrow => isSpent_exec (hold.spent row hrow)
        hrevokes⟩
  · intro u row
    by_cases hut : u = t
    · subst hut
      exact hself.not_lost row
    · rw [phase_after_of_ne hut]
      exact hinv.not_lost u row
  · intro u row hrow
    by_cases hut : u = t
    · subst hut
      exact hself.spent row hrow
    · rw [phase_after_of_ne hut] at hrow
      exact isSpent_exec (hinv.spent u row hrow) hrevokes
  · intro u v row row' hu hv hid
    by_cases hut : u = t <;> by_cases hvt : v = t
    · rw [hut, hvt]
    · subst hut
      rw [phase_after_of_ne hvt] at hv
      exact absurd hid (hdiffer v row row' hvt hu hv)
    · subst hvt
      rw [phase_after_of_ne hut] at hu
      exact absurd hid.symm (hdiffer u row' row hut hv hu)
    · rw [phase_after_of_ne hut] at hu
      rw [phase_after_of_ne hvt] at hv
      exact hinv.unique u v row row' hu hv hid

theorem exchangeOf_start {s : AuthStore} (call : AuthCall) : ExchangeOf s call.phase := by
  constructor <;> intros <;> cases call <;> simp_all [AuthCall.phase, ExchangePhase.held?]

theorem exchangeInv_init {env : AuthEnv} {s : AuthStore} (hsound : s.Sound) :
    ExchangeInv calls (AuthSystem.init env s calls) := by
  have hstart : ∀ t, ExchangeOf s (AuthSystem.phase calls (AuthSystem.init env s calls) t) := fun t =>
    exchangeOf_start (calls t)
  refine ⟨hsound, fun t _ => hstart t, fun t => (hstart t).not_lost, fun t => (hstart t).spent, ?_⟩
  intro t u row row' ht
  have ht' : (calls t).phase = .revoked row := ht
  cases hcall : calls t <;> simp [hcall, AuthCall.phase] at ht'

/-! ## Single use -/

variable {env : AuthEnv} {s : AuthStore}

/-- In a run whose steps spare the rows that other calls hold, the invariant holds, and a call that
has handed out a pair has revoked the row it read. -/
theorem exchangeInv_of_reach (hsound : s.Sound)
    (h : Pool.Reach authStore (SparesHeld calls) (AuthSystem.init env s calls) c) :
    ExchangeInv calls c ∧
      ∀ t, ExchangeSpec (c.threads t) (c.phase calls t) ExchangePhase.Returns := by
  refine Pool.Reach.follows (fun t => program_spec (calls t)) (exchangeInv_init hsound) ?_ h
  intro c t o k hinv hthread hissues _ hspares
  exact ⟨answers_exec, exchangeInv_after hinv hthread hissues hspares⟩

/-- A call that has handed out a pair has revoked the row it read. -/
theorem revoked_of_handedOut (hinv : ExchangeInv calls c)
    (hmeets : ExchangeSpec (c.threads t) (c.phase calls t) ExchangePhase.Returns)
    (hout : c.HandedOut t) : ∃ row, c.phase calls t = .revoked row := by
  unfold AuthSystem.HandedOut at hout
  cases hthread : c.threads t with
  | pure response =>
      rw [hthread] at hmeets hout
      obtain ⟨row, hrow | hrow⟩ := hmeets hout
      · exact ⟨row, hrow⟩
      · exact absurd hrow (hinv.not_lost t row)
  | fail e =>
      rw [hthread] at hout
      cases hout
  | call o k =>
      rw [hthread] at hout
      cases hout

/-- The row a step makes a call read is unrevoked. -/
theorem row_next {phase phase' : ExchangePhase} {id : Nat} (hstep : ExchangeStep s o phase phase')
    (hspent : s.IsSpent id) (h : ∀ row ∈ phase.row?, row.id ≠ id) :
    ∀ row ∈ phase'.row?, row.id ≠ id := by
  cases hstep with
  | same hspares => exact h
  | reject hstore => exact fun row hrow => nomatch hrow
  | @accept row hstore hfind =>
      intro row' hrow
      cases hrow
      exact findUnrevoked_ne_of_isSpent hspent hfind
  | lose hfind => exact h
  | find hstore hfind => exact h
  | revoke hsave => exact h

/-- An id is spent, and a call has not read the row with it. -/
def IsUnreadSpent (calls : ι → AuthCall) (u : ι) (id : Nat) (c : AuthSystem ι) : Prop :=
  c.world.IsSpent id ∧ ∀ row ∈ (c.phase calls u).row?, row.id ≠ id

/-- A call that has not read by the time an id is spent never reads its token. -/
theorem isUnreadSpent_of_reach {cond : AuthSystem ι → ι → AuthOp → Prop} {c₁ : AuthSystem ι}
    {id : Nat}
    (hmeets : ∀ t, ExchangeSpec (c₁.threads t) (AuthSystem.phase calls c₁ t)
      ExchangePhase.Returns)
    (h : Pool.Reach authStore cond c₁ c) (hunread : IsUnreadSpent calls u id c₁) :
    IsUnreadSpent calls u id c := by
  have hfollows : IsUnreadSpent calls u id c ∧
      ∀ t, ExchangeSpec (c.threads t) (c.phase calls t) ExchangePhase.Returns := by
    refine Pool.Reach.follows hmeets hunread ?_ h
    rintro c t o k ⟨hspent, hu⟩ hthread hissues _ _
    refine ⟨answers_exec, isSpent_exec hspent (revokes_of_issues hissues), ?_⟩
    by_cases hut : u = t
    · subst hut
      rw [phase_after_self]
      exact row_next (exchangeStep hissues) hspent hu
    · rw [phase_after_of_ne hut]
      exact hu
  exact hfollows.1

/-- **Refresh tokens are single use** while no call revokes a token that another exchange has read
and not revoked yet: a token is exchanged by one call at most, a call whose revocation finds no
unrevoked row hands out nothing, and no call that reads a token after it has been revoked with all
tokens of its user exchanges it. -/
theorem refresh_tokens_single_use (hsound : s.Sound)
    (h : Pool.Reach authStore (SparesHeld calls) (AuthSystem.init env s calls) c) :
    (∀ t u id, c.Exchanged calls t id → c.Exchanged calls u id → t = u) ∧
    (∀ t row, c.phase calls t = .lost row → ¬ c.HandedOut t) ∧
    ∀ (c₁ : AuthSystem ι) (t : ι) (x : RefreshToken)
      (k : (AuthOp.revokeAll x.userId).Ans → Auth (Option RefreshTokenResponse)),
      Pool.Reach authStore (SparesHeld calls) (AuthSystem.init env s calls) c₁ →
      c₁.threads t = .call (.revokeAll x.userId) k → x ∈ c₁.world.tokens →
      Pool.Reach authStore (SparesHeld calls) (AuthSystem.after c₁ t (.revokeAll x.userId) k) c →
      ∀ u, AuthSystem.phase calls c₁ u = .reading → ¬ c.Exchanged calls u x.id := by
  obtain ⟨hinv, hmeets⟩ := exchangeInv_of_reach hsound h
  refine ⟨?_, ?_, ?_⟩
  · rintro t u id ⟨ht, row, hrow, rfl⟩ ⟨hu, row', hrow', hid⟩
    obtain ⟨x, hx⟩ := revoked_of_handedOut hinv (hmeets t) ht
    obtain ⟨y, hy⟩ := revoked_of_handedOut hinv (hmeets u) hu
    rw [hx] at hrow
    rw [hy] at hrow'
    cases hrow
    cases hrow'
    exact hinv.unique t u row row' hx hy hid.symm
  · intro t row hlost
    exact absurd hlost (hinv.not_lost t row)
  · rintro c₁ t x k h₁ hthread hx hafter u hu ⟨-, row, hrow, hid⟩
    obtain ⟨hinv₁, hmeets₁⟩ := exchangeInv_of_reach hsound h₁
    have hspent : (AuthSystem.after c₁ t (.revokeAll x.userId) k).world.IsSpent x.id :=
      isSpent_revokeAll hinv₁.sound hx
    have hunread : IsUnreadSpent calls u x.id (AuthSystem.after c₁ t (.revokeAll x.userId) k) := by
      refine ⟨hspent, ?_⟩
      by_cases hut : u = t
      · subst hut
        rw [phase_after_self, hu]
        exact fun _ hrow => nomatch hrow
      · rw [phase_after_of_ne hut, hu]
        exact fun _ hrow => nomatch hrow
    have hafter' := isUnreadSpent_of_reach
      (Pool.follows_advance hmeets₁ hthread (answers_exec (s := c₁.world))) hafter hunread
    exact hafter'.2 row hrow hid

end Step

end System

/-! ## Two calls for one token -/

/-- A hash, random strings, a validity of seven days, and access tokens. -/
def exchangeEnv : AuthEnv where
  hashRefreshToken plainToken := "hmac:" ++ plainToken
  randomHex n := toString n
  expiresAt now _ := now + 7
  generateTokens userId _ := (userId, 900)

/-- One issued token. -/
def issuedStore : AuthStore where
  tokens := [{ id := 0, userId := "user", tokenHash := "hmac:token", expiresAt := 7 }]
  nextId := 1

/-- Two exchanges of the issued token. -/
def twoExchanges (_ : Bool) : AuthCall := .refreshToken "token"

/-- The calls after a schedule. -/
def exchangeRun (sched : List (Bool × Nat)) : AuthSystem Bool :=
  Pool.play authStore sched (AuthSystem.init exchangeEnv issuedStore twoExchanges)

/-- Two calls after each other: the second one is not the one that exchanges the token. -/
theorem refresh_tokens_single_use_sequential :
    (exchangeRun [(false, 8), (true, 8)]).Exchanged twoExchanges false 0 ∧
      ¬ (exchangeRun [(false, 8), (true, 8)]).Exchanged twoExchanges true 0 := by
  have hsound : issuedStore.Sound := ⟨by decide, by decide⟩
  have hspares : Pool.admits authStore (SparesHeld twoExchanges) [(false, 8), (true, 8)]
      (AuthSystem.init exchangeEnv issuedStore twoExchanges) = true := by decide +kernel
  have hreach : Pool.Reach authStore (SparesHeld twoExchanges)
      (AuthSystem.init exchangeEnv issuedStore twoExchanges)
      (exchangeRun [(false, 8), (true, 8)]) := Pool.reach_play_of_admits _ _ hspares
  have hfirst : (exchangeRun [(false, 8), (true, 8)]).Exchanged twoExchanges false 0 := by
    decide +kernel
  refine ⟨hfirst, fun hsecond => ?_⟩
  have hsame : true = false :=
    (refresh_tokens_single_use hsound hreach).1 true false 0 hsecond hfirst
  exact Bool.noConfusion hsame

/-- Two calls that both validate the token before either revokes it both hand out a pair, the second
one after its revocation has found nothing to revoke. -/
theorem token_exchanged_twice :
    ∃ c : AuthSystem Bool,
      Pool.Reach authStore Pool.anyStep
        (AuthSystem.init exchangeEnv issuedStore twoExchanges) c ∧
      c.Exchanged twoExchanges false 0 ∧ c.Exchanged twoExchanges true 0 ∧
      ∃ row, c.phase twoExchanges true = .lost row := by
  refine ⟨exchangeRun [(false, 2), (true, 2), (false, 6), (true, 6)], Pool.reach_play _ _,
    by decide +kernel, by decide +kernel, ?_⟩
  exact ⟨{ id := 0, userId := "user", tokenHash := "hmac:token", expiresAt := 7 },
    by decide +kernel⟩

end Nexus
