import Nexus.Await.ResumeAttempts
import Mathlib

/-!
# A parent is resumed once

The listener, the reconciler and the cancellation, interleaved. `markSatisfied` saves whole copies,
which may carry a status the row has left; the reconciler works on records it listed earlier; giving
up does not look at what its compare-and-set answered. As long as each of these acts on a status
that the row still has, an await that has ended stays as it ended, the parent is resumed once, and
it is failed only by the call that cancelled the await (`agent_await_resumed_once`).
-/

set_option autoImplicit false

namespace Nexus

/-! ## Runs of the calls -/

section Definitions

variable {ι : Type} [DecidableEq ι]

/-- How far a call has come with the await. -/
def resumePhase (awaitId : String) (log : List (Entry ι AwaitOp AwaitOp.Ans)) (t : ι) :
    ResumePhase :=
  Pool.track (ResumePhase.next awaitId) (fun _ => {}) log t

/-- The number of calls of `resumeJobWithMessage` for the await. -/
def resumptions (awaitId : String) (log : List (Entry ι AwaitOp AwaitOp.Ans)) : Nat :=
  log.countP fun entry => entry.op.resumes awaitId

/-- The time at which a call has moved the await from WAITING to RESUMING, in a run that began at a
time. -/
def promotedAt (awaitId : String) (begun : Nat) (t : ι) :
    List (Entry ι AwaitOp AwaitOp.Ans) → Option Nat
  | [] => none
  | entry :: log =>
      if entry.tid = t ∧ entry.op.promotes awaitId entry.ans = true then some (begun + log.length)
      else promotedAt awaitId begun t log

/-- The condition on a step: it acts on a status that the row still has. A copy is saved with the
status of the row, the reconciler makes an attempt on a row that is RESUMING, and so does the
compare-and-set of giving up. -/
def StatusHeld (awaitId : String) (c : Config ι AwaitOp AwaitOp.Ans AwaitError Unit AwaitStore)
    (_ : ι) : AwaitOp → Prop
  | .save entity => entity.id = awaitId →
      ∀ row ∈ c.world.find awaitId, entity.status = row.status
  | .attemptsFor id => id = awaitId → ∀ row ∈ c.world.find awaitId, row.status = .resuming
  | .compareAndSetStatus id sourceStatus targetStatus =>
      id = awaitId → sourceStatus = .resuming → targetStatus = .cancelled →
        ∀ row ∈ c.world.find awaitId, row.status = .resuming
  | _ => True

instance (awaitId : String) (c : Config ι AwaitOp AwaitOp.Ans AwaitError Unit AwaitStore) (t : ι)
    (o : AwaitOp) : Decidable (StatusHeld awaitId c t o) :=
  match o with
  | .save entity =>
      inferInstanceAs (Decidable (entity.id = awaitId →
        ∀ row ∈ c.world.find awaitId, entity.status = row.status))
  | .attemptsFor id =>
      inferInstanceAs (Decidable (id = awaitId →
        ∀ row ∈ c.world.find awaitId, row.status = .resuming))
  | .compareAndSetStatus id sourceStatus targetStatus =>
      inferInstanceAs (Decidable (id = awaitId → sourceStatus = .resuming →
        targetStatus = .cancelled → ∀ row ∈ c.world.find awaitId, row.status = .resuming))
  | .findById _ | .findWaitingByAwaitedChild _ | .cancelOpenForParentRun _ | .findNonTerminal
  | .publishProcessEvent _ _ | .findRun _ | .findSessionTreeByWorkflowRunId _
  | .appendSystemResultNode _ _ | .clearWaitState _ | .resumeJobWithMessage _ _ _ _ _
  | .handleJobFailed _ _ _ | .now | .beginReconcile | .endReconcile | .recordAttempt _
  | .deleteAttempts _ => inferInstanceAs (Decidable True)

/-- The call of `resumeJobWithMessage` for the await throws at a time. -/
def AwaitOp.throws (e : AwaitSurroundings) (awaitId : String) (time : Nat) : AwaitOp → Bool
  | .resumeJobWithMessage id runId _ _ _ => id = awaitId && (e.resumedJob time runId).isNone
  | _ => false

/-- No resume attempt throws, and no attempt of the listener, from the promotion on, outlives the
grace window: the clock has not moved on by the window since any moment of an attempt. -/
def InTime (e : AwaitSurroundings) (awaitId : String) (grace begun : Nat) (calls : ι → AwaitCall)
    (c : Config ι AwaitOp AwaitOp.Ans AwaitError Unit AwaitStore) (o : AwaitOp) : Prop :=
  o.throws e awaitId c.world.time = false ∧
    ∀ u, (calls u).reconciles = false →
      (resumePhase awaitId c.log u).attempt = .promoted ∨
        (resumePhase awaitId c.log u).attempt = .called →
      ∀ b ∈ promotedAt awaitId begun u c.log, ∀ τ ≤ c.world.time, b ≤ τ →
        e.clock c.world.time < e.clock τ + grace

/-- Whenever a call fails a parent, it has given up an await before; when that is this await, the
call itself has moved it from RESUMING to CANCELLED. -/
def FailsOnlyGivenUp (awaitId : String) (log : List (Entry ι AwaitOp AwaitOp.Ans)) : Prop :=
  ∀ newer older t runId jobId reason ans,
    log = newer ++ ⟨t, .handleJobFailed runId jobId reason, ans⟩ :: older →
      ∃ id won, (resumePhase awaitId older t).gaveUp = some (id, won) ∧ (id = awaitId → won = true)

end Definitions

/-! ## Runs -/

section Runs

variable {ι : Type} [DecidableEq ι] {e : AwaitSurroundings} {awaitId : String} {grace begun : Nat}
  {calls : ι → AwaitCall} {s : AwaitStore} {row : AgentAwait}
  {c c₁ c₂ : Config ι AwaitOp AwaitOp.Ans AwaitError Unit AwaitStore} {t : ι} {o : AwaitOp}
  {k : o.Ans → Awaiting Unit}

/-- The programs of the calls keep to their contracts. -/
abbrev CallsMeet (awaitId : String) (grace : Nat) (calls : ι → AwaitCall)
    (c : Config ι AwaitOp AwaitOp.Ans AwaitError Unit AwaitStore) : Prop :=
  ∀ t, ResumeSpec awaitId grace (calls t).reconciles (c.threads t) (resumePhase awaitId c.log t)
    (fun _ _ => True) (fun _ _ => False)

theorem callsMeet_start : CallsMeet awaitId grace calls (resumeStart grace calls s) :=
  fun t => awaitCall_spec (calls t)

theorem resumePhase_advance :
    resumePhase awaitId (Pool.advance (awaitStore e) c t o k).log =
      Function.update (resumePhase awaitId c.log) t
        ((resumePhase awaitId c.log t).next awaitId o (o.exec e c.world).2) :=
  Pool.track_advance (k := k)

/-- A step that acts on a status that the row still has. -/
theorem awaitStep_of_held (hkeys : c.world.KeysDistinct) (hrow : c.world.find awaitId = some row)
    (hissues : (resumePhase awaitId c.log t).Issues awaitId grace (calls t).reconciles o)
    (hheld : StatusHeld awaitId c t o) :
    AwaitStep e c.world awaitId grace (fun u => (calls u).reconciles) (resumePhase awaitId c.log)
      row t o where
  keys := hkeys
  found := hrow
  issues := hissues
  saves := by
    rintro entity rfl hid
    exact hheld hid row hrow
  attempts := by
    rintro rfl
    exact hheld rfl row hrow

/-! ### The status of the row -/

/-- The row is there, and has not come back from a status in which the await has ended. -/
def RowKept (awaitId : String) (status : Option AgentAwaitStatus)
    (c : Config ι AwaitOp AwaitOp.Ans AwaitError Unit AwaitStore) : Prop :=
  c.world.KeysDistinct ∧ ∃ row, c.world.find awaitId = some row ∧
    ∀ ended ∈ status, row.status = ended ∧ row.isOpen = false

theorem rowKept_step {status : Option AgentAwaitStatus} (h : RowKept awaitId status c)
    (hissues : (resumePhase awaitId c.log t).Issues awaitId grace (calls t).reconciles o)
    (hheld : StatusHeld awaitId c t o) :
    RowKept awaitId status (Pool.advance (awaitStore e) c t o k) := by
  obtain ⟨hkeys, row, hrow, hended⟩ := h
  refine ⟨keysDistinct_exec hkeys, row.after (e.clock c.world.time) o, find_exec hrow, ?_⟩
  intro ended hmem
  obtain ⟨hstatus, hclosed⟩ := hended ended hmem
  have hstep : AwaitStep e c.world awaitId grace (fun u => (calls u).reconciles)
      (resumePhase awaitId c.log) row t o := awaitStep_of_held hkeys hrow hissues hheld
  have hsame := ended_of_step hstep.status hclosed
  refine ⟨hsame.trans hstatus, ?_⟩
  rw [AgentAwait.isOpen, hsame]
  exact hclosed

theorem rowKept_of_reach {status : Option AgentAwaitStatus}
    (hmeets : CallsMeet awaitId grace calls c₁) (hrow : RowKept awaitId status c₁)
    (hreach : Pool.Reach (awaitStore e) (StatusHeld awaitId) c₁ c₂) :
    RowKept awaitId status c₂ ∧ CallsMeet awaitId grace calls c₂ := by
  refine Pool.Reach.follows hmeets hrow ?_ hreach
  intro c t o k hkept _ hissues _ hheld
  exact ⟨resumeAnswers_exec hkept.1, rowKept_step hkept hissues hheld⟩

/-! ### Who fails the parent -/

/-- What a call has given up it has moved itself, if it is this await. -/
structure GivesUpSound (awaitId : String)
    (c : Config ι AwaitOp AwaitOp.Ans AwaitError Unit AwaitStore) : Prop where
  kept : RowKept awaitId none c
  gaveUp : ∀ t won, (resumePhase awaitId c.log t).gaveUp = some (awaitId, won) → won = true
  fails : FailsOnlyGivenUp awaitId c.log

theorem gaveUp_step (h : GivesUpSound awaitId c) (hheld : StatusHeld awaitId c t o) {u : ι}
    {won : Bool}
    (hgaveUp : (resumePhase awaitId (Pool.advance (awaitStore e) c t o k).log u).gaveUp =
      some (awaitId, won)) : won = true := by
  rw [resumePhase_advance] at hgaveUp
  by_cases hut : u = t
  · subst hut
    rw [Function.update_self] at hgaveUp
    rcases gaveUp_next hgaveUp with hbefore | ⟨ans, hans, rfl, rfl⟩
    · exact h.gaveUp u won hbefore
    · obtain ⟨hkeys, row, hrow, -⟩ := h.kept
      have hresuming : row.status = .resuming := hheld rfl rfl rfl row hrow
      rw [← eq_of_heq hans, compareAndSet_ans hkeys hrow, hresuming]
      rfl
  · rw [Function.update_of_ne hut] at hgaveUp
    exact h.gaveUp u won hgaveUp

theorem failsOnlyGivenUp_cons {log : List (Entry ι AwaitOp AwaitOp.Ans)}
    (h : FailsOnlyGivenUp awaitId log) {ans : o.Ans}
    (hfail : ∀ runId jobId reason, o = .handleJobFailed runId jobId reason →
      ∃ id won, (resumePhase awaitId log t).gaveUp = some (id, won) ∧
        (id = awaitId → won = true)) : FailsOnlyGivenUp awaitId (⟨t, o, ans⟩ :: log) := by
  intro newer older u runId jobId reason ans' hlog
  cases newer with
  | nil =>
      obtain ⟨hentry, rfl⟩ := List.cons.inj hlog
      cases hentry
      exact hfail runId jobId reason rfl
  | cons entry newer => exact h newer older u runId jobId reason ans' (List.cons.inj hlog).2

theorem givesUpSound_step (h : GivesUpSound awaitId c)
    (hissues : (resumePhase awaitId c.log t).Issues awaitId grace (calls t).reconciles o)
    (hheld : StatusHeld awaitId c t o) :
    GivesUpSound awaitId (Pool.advance (awaitStore e) c t o k) where
  kept := rowKept_step h.kept hissues hheld
  gaveUp := fun _ _ hgaveUp => gaveUp_step h hheld hgaveUp
  fails := by
    apply failsOnlyGivenUp_cons h.fails
    rintro runId jobId reason rfl
    obtain ⟨⟨id, won⟩, hgaveUp⟩ := Option.isSome_iff_exists.1 hissues
    refine ⟨id, won, hgaveUp, ?_⟩
    rintro rfl
    exact h.gaveUp t won hgaveUp

/-! ### How often the parent is resumed -/

/-- The invariant of the runs in which no attempt throws or outlives the grace window. -/
structure ResumedOnce (e : AwaitSurroundings) (awaitId : String) (grace begun : Nat)
    (calls : ι → AwaitCall) (c : Config ι AwaitOp AwaitOp.Ans AwaitError Unit AwaitStore)
    (row : AgentAwait) : Prop where
  keys : c.world.KeysDistinct
  found : c.world.find awaitId = some row
  time_eq : c.world.time = begun + c.log.length
  flights : Flights (fun t => (calls t).reconciles) (resumePhase awaitId c.log)
    c.world.reconcileInFlight
  promotions : Promotions e.clock (fun t => (calls t).reconciles) row (resumePhase awaitId c.log)
    (fun t => promotedAt awaitId begun t c.log) c.world.time (resumptions awaitId c.log)
  attempts : Attempts grace (fun t => (calls t).reconciles) row (resumePhase awaitId c.log)
    (resumptions awaitId c.log)

/-- A call of `resumeJobWithMessage` that does not throw takes its attempt on. -/
theorem called_of_returns {phase : ResumePhase} (hreturns : o.throws e awaitId s.time = false)
    (hresumes : o.resumes awaitId = true) :
    (phase.next awaitId o (o.exec e s).2).attempt = .called := by
  cases o with
  | resumeJobWithMessage id runId sessionTreeId message sessionRef =>
      obtain rfl : id = awaitId := of_decide_eq_true hresumes
      have hsome : (e.resumedJob s.time runId).isSome = true := by
        simpa [AwaitOp.throws] using hreturns
      have hans : Option.isSome ((AwaitOp.resumeJobWithMessage id runId sessionTreeId message
          sessionRef).exec e s).2 = true := hsome
      simp only [ResumePhase.next, if_true, hans]
  | _ => exact absurd hresumes (by simp [AwaitOp.resumes])

theorem promotedAt_advance (htime : c.world.time = begun + c.log.length) :
    (fun u => promotedAt awaitId begun u (Pool.advance (awaitStore e) c t o k).log) =
      promotedAfter (fun u => promotedAt awaitId begun u c.log) t c.world.time
        (o.promotes awaitId (o.exec e c.world).2) := by
  funext u
  rw [htime]
  rfl

theorem resumptions_advance :
    resumptions awaitId (Pool.advance (awaitStore e) c t o k).log =
      resumptions awaitId c.log + if o.resumes awaitId = true then 1 else 0 :=
  List.countP_cons

theorem resumedOnce_step (h : ResumedOnce e awaitId grace begun calls c row)
    (hissues : (resumePhase awaitId c.log t).Issues awaitId grace (calls t).reconciles o)
    (hheld : StatusHeld awaitId c t o) (hintime : InTime e awaitId grace begun calls c o) :
    ResumedOnce e awaitId grace begun calls (Pool.advance (awaitStore e) c t o k)
      (row.after (e.clock c.world.time) o) := by
  have hstep : AwaitStep e c.world awaitId grace (fun u => (calls u).reconciles)
      (resumePhase awaitId c.log) row t o := awaitStep_of_held h.keys h.found hissues hheld
  refine ⟨keysDistinct_exec h.keys, find_exec h.found, ?_, ?_, ?_, ?_⟩
  · show c.world.time + 1 = begun + (c.log.length + 1)
    rw [h.time_eq, Nat.add_assoc]
  · rw [resumePhase_advance]
    exact h.flights.step hissues
  · rw [resumePhase_advance, promotedAt_advance h.time_eq, resumptions_advance]
    exact h.promotions.step hstep fun u hu => h.flights.listener hu
  · rw [resumePhase_advance, resumptions_advance]
    exact h.attempts.step hstep h.flights h.promotions (called_of_returns hintime.1) hintime.2

theorem resumedOnce_start (hkeys : s.KeysDistinct) (hrow : s.find awaitId = some row) :
    ResumedOnce e awaitId grace s.time calls (resumeStart grace calls s) row where
  keys := hkeys
  found := hrow
  time_eq := rfl
  flights := by
    refine ⟨fun t h => ?_, fun t h => ?_, fun t u h => ?_, fun t h => ?_⟩
    · cases h
    · cases h
    · cases h
    · simp [resumePhase, Pool.track, resumeStart, Pool.start] at h
  promotions := by
    constructor
    case waiting =>
      refine fun _ => ⟨rfl, fun t => ⟨rfl, fun h => ?_, fun h => ?_⟩⟩
      all_goals cases h
    case called =>
      intro _ _ h
      cases h
    all_goals
      intro t
      intros
      contradiction
  attempts := by
    refine ⟨?_, fun _ _ => rfl, Nat.zero_le 1, fun h => absurd rfl h, ?_⟩
    · rintro t u ((h | ⟨-, h⟩) | h)
      all_goals cases h
    · rintro t ⟨record, now, h, -⟩
      cases h

/-- The invariant for some row. -/
def HasResumedOnce (e : AwaitSurroundings) (awaitId : String) (grace begun : Nat)
    (calls : ι → AwaitCall) (c : Config ι AwaitOp AwaitOp.Ans AwaitError Unit AwaitStore) : Prop :=
  ∃ row, ResumedOnce e awaitId grace begun calls c row

/-- The condition on the steps of a run in which the parent is resumed at most once. -/
def HeldInTime (e : AwaitSurroundings) (awaitId : String) (grace begun : Nat)
    (calls : ι → AwaitCall) (c : Config ι AwaitOp AwaitOp.Ans AwaitError Unit AwaitStore) (t : ι)
    (o : AwaitOp) : Prop :=
  StatusHeld awaitId c t o ∧ InTime e awaitId grace begun calls c o

theorem resumedOnce_of_reach (hkeys : s.KeysDistinct) (hrow : s.find awaitId = some row)
    (hreach : Pool.Reach (awaitStore e) (HeldInTime e awaitId grace s.time calls)
      (resumeStart grace calls s) c) :
    HasResumedOnce e awaitId grace s.time calls c := by
  have hstart : HasResumedOnce e awaitId grace s.time calls (resumeStart grace calls s) :=
    ⟨row, resumedOnce_start hkeys hrow⟩
  have hfollows : HasResumedOnce e awaitId grace s.time calls c ∧
      CallsMeet awaitId grace calls c := by
    refine Pool.Reach.follows callsMeet_start hstart ?_ hreach
    rintro c t o k ⟨row', h⟩ _ hissues _ ⟨hheld, hintime⟩
    exact ⟨resumeAnswers_exec h.keys, _, resumedOnce_step h hissues hheld hintime⟩
  exact hfollows.1

/-! ### The runs of one await -/

/-- **A parent is resumed once per await, and never after its await ended**, in every run whose
steps act on a status that the row still has. An await that is RESUMED or CANCELLED keeps its
status; `resumeJobWithMessage` is called at most once for it, as long as no attempt throws or
outlives the grace window; and a call that fails the parent because it gave up the await has moved
the await from RESUMING to CANCELLED itself. -/
theorem agent_await_resumed_once (hkeys : s.KeysDistinct) (hrow : s.find awaitId = some row) :
    (∀ c₁ c₂ row₁,
      Pool.Reach (awaitStore e) (StatusHeld awaitId) (resumeStart grace calls s) c₁ →
      c₁.world.find awaitId = some row₁ → row₁.isOpen = false →
      Pool.Reach (awaitStore e) (StatusHeld awaitId) c₁ c₂ →
      ∃ row₂, c₂.world.find awaitId = some row₂ ∧ row₂.status = row₁.status) ∧
    (∀ c, Pool.Reach (awaitStore e) (HeldInTime e awaitId grace s.time calls)
      (resumeStart grace calls s) c → resumptions awaitId c.log ≤ 1) ∧
    ∀ c, Pool.Reach (awaitStore e) (StatusHeld awaitId) (resumeStart grace calls s) c →
      FailsOnlyGivenUp awaitId c.log := by
  have hkept : RowKept awaitId none (resumeStart grace calls s) := ⟨hkeys, row, hrow, nofun⟩
  refine ⟨?_, ?_, ?_⟩
  · intro c₁ c₂ row₁ hreach₁ hrow₁ hended hreach₂
    obtain ⟨⟨hkeys₁, -⟩, hmeets₁⟩ := rowKept_of_reach callsMeet_start hkept hreach₁
    have hkept₁ : RowKept awaitId (some row₁.status) c₁ := by
      refine ⟨hkeys₁, row₁, hrow₁, ?_⟩
      rintro ended ⟨⟩
      exact ⟨rfl, hended⟩
    obtain ⟨⟨-, row₂, hrow₂, hstatus⟩, -⟩ := rowKept_of_reach hmeets₁ hkept₁ hreach₂
    exact ⟨row₂, hrow₂, (hstatus row₁.status rfl).1⟩
  · intro c hreach
    obtain ⟨row', h⟩ := resumedOnce_of_reach hkeys hrow hreach
    exact h.attempts.le_one
  · intro c hreach
    have hstart : GivesUpSound awaitId (resumeStart grace calls s) := by
      refine ⟨hkept, nofun, ?_⟩
      intro newer older t runId jobId reason ans hlog
      exact absurd hlog (by simp [resumeStart, Pool.start])
    have hfollows : GivesUpSound awaitId c ∧ CallsMeet awaitId grace calls c := by
      refine Pool.Reach.follows callsMeet_start hstart ?_ hreach
      intro c t o k h _ hissues _ hheld
      exact ⟨resumeAnswers_exec h.kept.1, givesUpSound_step h hissues hheld⟩
    exact hfollows.1.fails

end Runs

/-! ## A child that completes and a parent that is cancelled -/

/-- A parent that waits for one child. -/
def parkedAwait : AgentAwait where
  id := "await"
  parent_run_id := "parent"
  parent_step_id := "step"
  parent_session_tree_id := some "tree"
  awaited_run_ids := ["child"]

def parkedStore : AwaitStore where
  awaits := [parkedAwait]

/-- A clock that shows the number of operations, and a queue that takes every job. -/
def parkedSurroundings : AwaitSurroundings where
  clock time := time
  run _ _ := none
  sessionTree _ _ := none
  resumedJob _ _ := some "step"

/-- The end of the child and the cancellation of the parent. -/
def completeAndCancel : Bool → AwaitCall
  | false => .runCompleted "child"
  | true => .runCancelled "parent"

/-- The calls after a schedule. -/
def resumeRun (sched : List (Bool × Nat)) :
    Config Bool AwaitOp AwaitOp.Ans AwaitError Unit AwaitStore :=
  Pool.play (awaitStore parkedSurroundings) sched (resumeStart 100 completeAndCancel parkedStore)

instance (c : Config Bool AwaitOp AwaitOp.Ans AwaitError Unit AwaitStore) (t : Bool)
    (o : AwaitOp) :
    Decidable (HeldInTime parkedSurroundings "await" 100 0 completeAndCancel c t o) := by
  unfold HeldInTime InTime
  infer_instance

/-- The child completes before the parent is cancelled: the parent is resumed once, and the await
stays RESUMED. -/
theorem agent_await_resumed_once_sequential :
    (∃ row₂, (resumeRun [(false, 15), (true, 2)]).world.find "await" = some row₂ ∧
      row₂.status = .resumed) ∧
    resumptions "await" (resumeRun [(false, 15), (true, 2)]).log ≤ 1 ∧
    FailsOnlyGivenUp "await" (resumeRun [(false, 15), (true, 2)]).log := by
  have hkeys : parkedStore.KeysDistinct := List.nodup_singleton _
  have hrow : parkedStore.find "await" = some parkedAwait := rfl
  have hintime : Pool.admits (awaitStore parkedSurroundings)
      (HeldInTime parkedSurroundings "await" 100 0 completeAndCancel) [(false, 15), (true, 2)]
      (resumeStart 100 completeAndCancel parkedStore) = true := by decide +kernel
  have hreach : Pool.Reach (awaitStore parkedSurroundings)
      (HeldInTime parkedSurroundings "await" 100 0 completeAndCancel)
      (resumeStart 100 completeAndCancel parkedStore) (resumeRun [(false, 15), (true, 2)]) :=
    Pool.reach_play_of_admits _ _ hintime
  have hheld : Pool.admits (awaitStore parkedSurroundings) (StatusHeld "await")
      [(false, 15), (true, 2)] (resumeStart 100 completeAndCancel parkedStore) = true := by
    decide +kernel
  have hfirst : Pool.admits (awaitStore parkedSurroundings) (StatusHeld "await") [(false, 15)]
      (resumeStart 100 completeAndCancel parkedStore) = true := by decide +kernel
  have hthen : Pool.admits (awaitStore parkedSurroundings) (StatusHeld "await") [(true, 2)]
      (resumeRun [(false, 15)]) = true := by decide +kernel
  have hresumed : (resumeRun [(false, 15)]).world.find "await" = some { parkedAwait with
      satisfied_run_ids := [⟨"child", .completed⟩]
      status := .resumed
      updated_at := 13 } := by decide +kernel
  refine ⟨?_, ?_, ?_⟩
  · exact (agent_await_resumed_once hkeys hrow).1 _ _ _ (Pool.reach_play_of_admits _ _ hfirst)
      hresumed rfl (Pool.reach_play_of_admits _ _ hthen)
  · exact (agent_await_resumed_once hkeys hrow).2.1 _ hreach
  · exact (agent_await_resumed_once hkeys hrow).2.2 _ (Pool.reach_play_of_admits _ _ hheld)

/-- The child completes while the parent is cancelled: the call of the child has read the await
before it is cancelled, saves its copy afterwards, and resumes the cancelled parent. -/
theorem cancelled_await_resumed :
    ∃ c₁ c₂ c₃ : Config Bool AwaitOp AwaitOp.Ans AwaitError Unit AwaitStore, ∃ row₁ row₂,
      Pool.Reach (awaitStore parkedSurroundings) Pool.anyStep
        (resumeStart 100 completeAndCancel parkedStore) c₁ ∧
      c₁.world.find "await" = some row₁ ∧ row₁.status = .cancelled ∧
      Pool.Reach (awaitStore parkedSurroundings) Pool.anyStep c₁ c₂ ∧
      c₂.world.find "await" = some row₂ ∧ row₂.status = .waiting ∧
      Pool.Reach (awaitStore parkedSurroundings) Pool.anyStep c₂ c₃ ∧
      resumptions "await" c₃.log = 1 := by
  refine ⟨resumeRun [(false, 2), (true, 1)], resumeRun [(false, 2), (true, 1), (false, 1)],
    resumeRun [(false, 2), (true, 1), (false, 1), (false, 12)],
    { parkedAwait with status := .cancelled, updated_at := 2 },
    { parkedAwait with satisfied_run_ids := [⟨"child", .completed⟩], updated_at := 3 },
    ?_, by decide +kernel, rfl, ?_, by decide +kernel, rfl, ?_, by decide +kernel⟩
  · exact Pool.reach_play (M := awaitStore parkedSurroundings) [(false, 2), (true, 1)]
      (resumeStart 100 completeAndCancel parkedStore)
  · exact Pool.reach_play (M := awaitStore parkedSurroundings) [(false, 1)]
      (resumeRun [(false, 2), (true, 1)])
  · exact Pool.reach_play (M := awaitStore parkedSurroundings) [(false, 12)]
      (resumeRun [(false, 2), (true, 1), (false, 1)])

end Nexus
