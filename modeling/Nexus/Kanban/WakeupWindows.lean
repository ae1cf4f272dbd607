import Nexus.Kanban.Wakeups
import Mathlib

/-!
# Wakeups coalesce

Two automatic wakeups that both emit are a coalesce window apart, and a call whose launch fails ends
no cycle lease but its own, in every run in which an automatic call that launches has read the
cooldown state after every other automatic wakeup was recorded, no other wakeup is recorded over an
automatic one within the window, and no call releases after another call has taken the lease over
(`automatic_wakeups_coalesce`).
-/

set_option autoImplicit false

namespace Nexus

namespace ProjectOrchestrationWakeupService

variable {ι : Type}

abbrev WakeupEntry (ι : Type) : Type := Entry ι WakeupOp WakeupOp.Ans

abbrev WakeupConfig (ι : Type) : Type :=
  Config ι WakeupOp WakeupOp.Ans String (Option RequestWakeupResult) WakeupStore

/-! ## The log -/

/-- A launch that succeeds. -/
def emits : WakeupEntry ι → Bool
  | ⟨_, .requestOrchestrationCycle _ _ _, .ok ()⟩ => true
  | _ => false

def reads : WakeupEntry ι → Bool
  | ⟨_, .getWakeupCooldownState, _⟩ => true
  | _ => false

def records : WakeupEntry ι → Bool
  | ⟨_, .recordWakeup _ _, _⟩ => true
  | _ => false

def acquired : WakeupEntry ι → Option Nat
  | ⟨_, .acquireCycleLease _, id⟩ => id
  | _ => none

def released : WakeupEntry ι → List Nat
  | ⟨_, .releaseCycleLease, ids⟩ => ids
  | _ => []

/-- The entries of a log with the numbers of their steps. -/
def stamped : List (WakeupEntry ι) → List (WakeupEntry ι × Nat)
  | [] => []
  | e :: log => (e, log.length) :: stamped log

variable {log : List (WakeupEntry ι)}

theorem mem_of_mem_stamped {r : WakeupEntry ι × Nat} (h : r ∈ stamped log) :
    r.1 ∈ log ∧ r.2 < log.length := by
  induction log with
  | nil => nomatch h
  | cons e log ih =>
      rcases List.mem_cons.1 h with rfl | h
      · exact ⟨List.mem_cons_self, Nat.lt_succ_self _⟩
      · exact ⟨List.mem_cons_of_mem _ (ih h).1, Nat.lt_succ_of_lt (ih h).2⟩

variable {e : WakeupEntry ι}

theorem exists_stamped (h : e ∈ log) : ∃ n, (e, n) ∈ stamped log := by
  induction log with
  | nil => nomatch h
  | cons e' log ih =>
      rcases List.mem_cons.1 h with rfl | h
      · exact ⟨_, List.mem_cons_self⟩
      · obtain ⟨n, hn⟩ := ih h
        exact ⟨n, List.mem_cons_of_mem _ hn⟩

/-! ## The laws -/

section Laws

variable (env : WakeupEnv) (calls : ι → WakeupCaller)

def isAutomaticCall (t : ι) : Bool :=
  match calls t with
  | .requestWakeup input => isAutomaticWakeup input
  | _ => false

def isRequestCall (t : ι) : Bool :=
  match calls t with
  | .requestWakeup _ => true
  | _ => false

/-- The launch of an automatic wakeup. -/
def emitsAutomatic (e : WakeupEntry ι) : Bool := emits e && isAutomaticCall calls e.tid

/-- Of two automatic wakeups that emit, the first is recorded a coalesce window before the second
emits. -/
def WakeupsSpaced (log : List (WakeupEntry ι)) : Prop :=
  (stamped log).Pairwise fun later earlier =>
    emitsAutomatic calls later.1 = true → emitsAutomatic calls earlier.1 = true →
      earlier.1.tid ≠ later.1.tid →
        ∃ r ∈ stamped log, r.1.tid = earlier.1.tid ∧ records r.1 = true ∧
          env.clock r.2 + AUTOMATIC_WAKEUP_COALESCE_MS ≤ env.clock later.2

/-- A lease that a call of `requestWakeup` releases is one that it has acquired. -/
def ReleasesOwn (log : List (WakeupEntry ι)) : Prop :=
  ∀ e ∈ log, isRequestCall calls e.tid = true → ∀ id ∈ released e,
    ∃ a ∈ log, a.tid = e.tid ∧ acquired a = some id

/-- The calls before the first step. -/
def wakeupStart (projectId : String) (s : WakeupStore) : WakeupConfig ι :=
  Pool.start { s with steps := 0 } fun t => (calls t).program projectId

end Laws

/-! ## What a call knows -/

/-- What a call has read, the times it has looked at the clock since, and whether it has acquired
the lease. -/
structure WakeupView where
  cooldownState : Option (Option WakeupCooldownState) := none
  nows : List Int := []
  holds : Bool := false

def WakeupView.next (g : WakeupView) : (o : WakeupOp) → o.Ans → WakeupView
  | .getWakeupCooldownState, state => { g with cooldownState := some state, nows := [] }
  | .now, nowTime => { g with nows := nowTime :: g.nows }
  | .acquireCycleLease _, some _ => { g with holds := true }
  | _, _ => g

@[simp] theorem WakeupView.next_acquire_nows (g : WakeupView) (correlationId : String)
    (ans : Option Nat) : (g.next (.acquireCycleLease correlationId) ans).nows = g.nows := by
  cases ans with
  | none => rfl
  | some id => rfl

@[simp] theorem WakeupView.next_acquire_cooldownState (g : WakeupView) (correlationId : String)
    (ans : Option Nat) :
    (g.next (.acquireCycleLease correlationId) ans).cooldownState = g.cooldownState := by
  cases ans with
  | none => rfl
  | some id => rfl

/-- The coalesce window of the wakeup that was read has passed at one of the times. -/
def Passed (state : Option WakeupCooldownState) (nows : List Int) : Prop :=
  isAutomaticSource (state.bind (·.source)) = true → ∀ lastWakeupAt,
    state.bind (·.lastWakeupAt) = some lastWakeupAt → ∃ n ∈ nows,
      ¬ (0 ≤ n - lastWakeupAt ∧ n - lastWakeupAt < AUTOMATIC_WAKEUP_COALESCE_MS)

/-- The operations that a call issues. -/
def WakeupIssue (calls : ι → WakeupCaller) (t : ι) (g : WakeupView) : WakeupOp → Prop
  | .requestOrchestrationCycle _ _ _ =>
      isAutomaticCall calls t = true → ∃ state, g.cooldownState = some state ∧ Passed state g.nows
  | .releaseCycleLease => isRequestCall calls t = true → g.holds = true
  | .recordWakeup source _ => isAutomaticSource (some source) = isAutomaticCall calls t
  | _ => True

section Calls

variable {calls : ι → WakeupCaller} {t : ι} {g : WakeupView} {input : RequestWakeupInput}
  {state : Option WakeupCooldownState}

abbrev wakeupContract (calls : ι → WakeupCaller) (t : ι) :
    Contract WakeupOp WakeupOp.Ans WakeupView :=
  Pool.following WakeupView.next (WakeupIssue calls t) fun _ _ _ => True

variable {E : String → WakeupView → Prop}

/-- A program goes on with every answer of its first operation. -/
theorem meets_awaitWakeup_bind {α : Type} {o : WakeupOp} {f : o.Ans → WakeupProg α}
    {Q : α → WakeupView → Prop} (hissue : WakeupIssue calls t g o)
    (hnext : ∀ ans, (f ans).Meets (wakeupContract calls t) Q E (g.next o ans)) :
    (awaitWakeup o >>= f).Meets (wakeupContract calls t) Q E g := by
  refine ⟨hissue, fun ans g' hpost => ?_⟩
  obtain ⟨rfl, -⟩ := hpost
  exact hnext ans

/-- The call has read the cooldown state, and an automatic one has found the window passed. -/
def Ready (input : RequestWakeupInput) (state : Option WakeupCooldownState) (g : WakeupView) :
    Prop :=
  g.cooldownState = some state ∧ (isAutomaticWakeup input = true → Passed state g.nows)

theorem Ready.now (h : Ready input state g) (n : Int) :
    Ready input state (g.next .now n) := by
  refine ⟨h.1, fun hauto hsource lastWakeupAt hlast => ?_⟩
  obtain ⟨m, hm, hout⟩ := h.2 hauto hsource lastWakeupAt hlast
  exact ⟨m, List.mem_cons_of_mem _ hm, hout⟩

/-- The answer says whether the window has passed. -/
theorem meets_isInsideAutomaticWakeupCoalesceWindow (hread : g.cooldownState = some state) :
    (isInsideAutomaticWakeupCoalesceWindow input state).Meets (wakeupContract calls t)
      (fun inside g' => inside = false → Ready input state g') E g := by
  unfold isInsideAutomaticWakeupCoalesceWindow
  split
  · rename_i hauto
    split
    · rename_i lastWakeupAt hlast
      refine meets_awaitWakeup_bind trivial fun n hinside => ?_
      refine ⟨hread, fun _ _ at' hat' => ⟨n, List.mem_cons_self, ?_⟩⟩
      rw [hlast] at hat'
      obtain rfl := Option.some.inj hat'
      exact of_decide_eq_false hinside
    · rename_i hnone
      intro _
      refine ⟨hread, fun _ _ at' hat' => ?_⟩
      rw [hnone] at hat'
      nomatch hat'
  · rename_i hauto
    intro _
    refine ⟨hread, fun hinput hsource => ?_⟩
    exact absurd (by rw [Bool.and_eq_true]; exact ⟨hinput, hsource⟩) hauto

theorem meets_isInsideStaleWakeupCooldown (h : Ready input state g) :
    (isInsideStaleWakeupCooldown input state).Meets (wakeupContract calls t)
      (fun _ g' => Ready input state g') E g := by
  unfold isInsideStaleWakeupCooldown
  split
  · exact h
  · split
    · exact h
    · exact meets_awaitWakeup_bind trivial h.now

theorem meets_buildAcceptedWakeupWindowId (projectId : String) (nowTime windowMs : Int) :
    (buildAcceptedWakeupWindowId projectId input nowTime state windowMs).Meets
      (wakeupContract calls t) (fun _ g' => g' = g) E g := by
  unfold buildAcceptedWakeupWindowId
  dsimp only
  split
  · exact meets_awaitWakeup_bind trivial fun _ => rfl
  · refine meets_awaitWakeup_bind trivial fun _ => ?_
    exact Prog.meets_ite (fun _ => rfl) fun _ => rfl

theorem meets_buildWakeupDedupeKey (projectId : String) (nowTime : Int) :
    (buildWakeupDedupeKey projectId input nowTime state).Meets (wakeupContract calls t)
      (fun _ g' => g' = g) E g := by
  unfold buildWakeupDedupeKey
  split
  · rfl
  · split
    · rfl
    · split
      · exact (meets_buildAcceptedWakeupWindowId projectId _ _).bind fun _ _ hnext => hnext
      · exact (meets_buildAcceptedWakeupWindowId projectId _ _).bind fun _ _ hnext => hnext

/-- A launch keeps to the contract, with the lease in hand. -/
theorem meets_launchCycle (projectId : String) (hcall : calls t = .requestWakeup input)
    (h : Ready input state g) (hholds : g.holds = true) :
    (launchCycle projectId input state).Meets (wakeupContract calls t) (fun _ _ => True)
      (fun _ _ => True) g := by
  have hauto : isAutomaticCall calls t = isAutomaticWakeup input := by
    rw [isAutomaticCall, hcall]
  unfold launchCycle
  refine meets_awaitWakeup_bind trivial fun n => ?_
  refine (meets_buildWakeupDedupeKey projectId n).bind fun dedupeKey g' hg' => ?_
  obtain rfl := hg'
  have hready := h.now n
  refine meets_awaitWakeup_bind ?_ fun outcome => ?_
  · intro hcallAuto
    exact ⟨state, hready.1, hready.2 (hauto.symm.trans hcallAuto)⟩
  · cases outcome with
    | error message => exact meets_awaitWakeup_bind (fun _ => hholds) fun _ => trivial
    | ok _ =>
        dsimp only
        split
        · exact trivial
        · rename_i source hsource
          refine Prog.meets_ite (fun _ => trivial) fun _ => ?_
          refine meets_awaitWakeup_bind ?_ fun _ => trivial
          rw [WakeupIssue, hauto, isAutomaticWakeup, hsource]

/-- **Every thread keeps to the contract.** -/
theorem meets_program (projectId : String) :
    ((calls t).program projectId).Meets (wakeupContract calls t) (fun _ _ => True)
      (fun _ _ => True) {} := by
  cases hcall : calls t with
  | endOfCycle =>
      refine ⟨fun hrequest => ?_, fun _ _ _ => trivial⟩
      rw [isRequestCall, hcall] at hrequest
      nomatch hrequest
  | heartbeat => exact ⟨trivial, fun _ _ _ => trivial⟩
  | expireOverdue => exact ⟨trivial, fun _ _ _ => trivial⟩
  | requestWakeup input =>
      refine Prog.Meets.bind (Q := fun _ _ => True) ?_ fun _ _ _ => trivial
      unfold requestWakeup
      refine meets_awaitWakeup_bind trivial fun suppressed => ?_
      refine Prog.meets_ite (fun _ => trivial) fun _ => ?_
      refine meets_awaitWakeup_bind trivial fun state => ?_
      refine (meets_isInsideAutomaticWakeupCoalesceWindow rfl).bind fun inside g₁ hg₁ => ?_
      cases inside with
      | true => exact trivial
      | false =>
          refine (meets_isInsideStaleWakeupCooldown (hg₁ rfl)).bind fun stale g₂ hg₂ => ?_
          cases stale with
          | true => exact trivial
          | false =>
              refine meets_awaitWakeup_bind trivial fun lease => ?_
              cases lease with
              | none => exact trivial
              | some id => exact meets_launchCycle projectId hcall hg₂ rfl

end Calls

/-! ## Runs that keep the windows -/

section Runs

variable [DecidableEq ι]

/-- The log up to the read of the cooldown state by a call. -/
def beforeRead (t : ι) (log : List (WakeupEntry ι)) : List (WakeupEntry ι) :=
  log.dropWhile fun e => !(decide (e.tid = t) && reads e)

/-- The log since a call has acquired the lease. -/
def sinceAcquired (t : ι) (log : List (WakeupEntry ι)) : List (WakeupEntry ι) :=
  log.takeWhile fun e => !(decide (e.tid = t) && (acquired e).isSome)

/-- The lease of the latest acquisition. -/
def lastAcquired (log : List (WakeupEntry ι)) : Option Nat := log.findSome? acquired

theorem stamped_beforeRead (t : ι) (log : List (WakeupEntry ι)) :
    stamped (beforeRead t log) ⊆ stamped log := by
  induction log with
  | nil => exact List.Subset.refl _
  | cons e log ih =>
      rw [beforeRead, List.dropWhile_cons]
      split
      · exact fun r hr => List.mem_cons_of_mem _ (ih hr)
      · exact List.Subset.refl _

/-- Only its own read moves what a call has read. -/
theorem beforeRead_cons {t : ι} (h : e.tid ≠ t ∨ reads e = false) :
    beforeRead t (e :: log) = beforeRead t log := by
  rw [beforeRead, List.dropWhile_cons, if_pos]
  · rfl
  · rcases h with h | h
    · simp [h]
    · simp [h]

theorem beforeRead_read {t : ι} (ht : e.tid = t) (hreads : reads e = true) :
    beforeRead t (e :: log) = e :: log := by
  rw [beforeRead, List.dropWhile_cons, if_neg]
  simp [ht, hreads]

/-- When no call has acquired the lease since, the latest acquisition is the call's own. -/
theorem lastAcquired_own {t : ι} (hown : ∃ e ∈ log, e.tid = t ∧ (acquired e).isSome = true)
    (hsince : ∀ e ∈ sinceAcquired t log, acquired e = none) :
    ∃ e ∈ log, e.tid = t ∧ ∃ id, acquired e = some id ∧ lastAcquired log = some id := by
  induction log with
  | nil =>
      obtain ⟨e, he, -⟩ := hown
      nomatch he
  | cons e log ih =>
      rw [sinceAcquired, List.takeWhile_cons] at hsince
      by_cases hacquired : e.tid = t ∧ (acquired e).isSome = true
      · obtain ⟨ht, hsome⟩ := hacquired
        obtain ⟨id, hid⟩ := Option.isSome_iff_exists.1 hsome
        exact ⟨e, List.mem_cons_self, ht, id, hid, by rw [lastAcquired, List.findSome?_cons, hid]⟩
      · rw [if_pos (by
          rw [Bool.not_eq_true', Bool.and_eq_false_iff]
          rcases not_and_or.1 hacquired with h | h
          · exact .inl (decide_eq_false h)
          · exact .inr (Bool.eq_false_iff.2 h))] at hsince
        have hnone : acquired e = none := hsince e List.mem_cons_self
        have hown' : ∃ e ∈ log, e.tid = t ∧ (acquired e).isSome = true := by
          obtain ⟨e', he', ht, hsome⟩ := hown
          rcases List.mem_cons.1 he' with rfl | he'
          · rw [hnone] at hsome
            nomatch hsome
          · exact ⟨e', he', ht, hsome⟩
        obtain ⟨e', he', ht, id, hid, hlast⟩ :=
          ih hown' fun e' he' => hsince e' (List.mem_cons_of_mem _ he')
        refine ⟨e', List.mem_cons_of_mem _ he', ht, id, hid, ?_⟩
        rw [lastAcquired, List.findSome?_cons, hnone]
        exact hlast

/-- An automatic call that launches read the cooldown state after all other automatic wakeups that
emitted were recorded; no other wakeup is recorded over an automatic one within the window; and no
call of `requestWakeup` releases after another call has acquired the lease. -/
def KeepsWindows (env : WakeupEnv) (calls : ι → WakeupCaller) (c : WakeupConfig ι) (t : ι) :
    WakeupOp → Prop
  | .requestOrchestrationCycle _ _ _ =>
      isAutomaticCall calls t = true → env.launchError c.world.steps = none →
        ∀ e ∈ c.log, emitsAutomatic calls e = true → e.tid ≠ t →
          ∃ r ∈ beforeRead t c.log, r.tid = e.tid ∧ records r = true
  | .recordWakeup source _ =>
      isAutomaticSource (some source) = false → ∀ w ∈ c.world.lastWakeup,
        isAutomaticSource (some w.source) = true →
          w.lastWakeupAt + AUTOMATIC_WAKEUP_COALESCE_MS ≤ env.clock c.world.steps
  | .releaseCycleLease =>
      isRequestCall calls t = true → ∀ e ∈ sinceAcquired t c.log, acquired e = none
  | _ => True

/-- What a call knows after a log. -/
abbrev viewOf (log : List (WakeupEntry ι)) (t : ι) : WakeupView :=
  Pool.track WakeupView.next (fun _ => {}) log t

/-- What is known of a wakeup that was recorded earlier: an automatic wakeup that is not older is in
the state, or the window has passed. -/
def Covered (state : Option WakeupCooldownState) (nows : List Int) (recordedAt now : Int) : Prop :=
  (∃ last, isAutomaticSource (state.bind (·.source)) = true ∧
    state.bind (·.lastWakeupAt) = some last ∧ recordedAt ≤ last ∧ last ≤ now ∧
      ∀ n ∈ nows, last ≤ n) ∨
    recordedAt + AUTOMATIC_WAKEUP_COALESCE_MS ≤ now

theorem Covered.later {state : Option WakeupCooldownState} {nows : List Int}
    {recordedAt now now' : Int} (h : Covered state nows recordedAt now) (hle : now ≤ now') :
    Covered state nows recordedAt now' := by
  rcases h with ⟨last, hauto, hlast, hafter, hbefore, hnows⟩ | hpassed
  · exact .inl ⟨last, hauto, hlast, hafter, Int.le_trans hbefore hle, hnows⟩
  · exact .inr (Int.le_trans hpassed hle)

structure WakeupInv (env : WakeupEnv) (calls : ι → WakeupCaller) (c : WakeupConfig ι) : Prop where
  steps : c.world.steps = c.log.length
  last : ∀ r ∈ stamped c.log, records r.1 = true → isAutomaticCall calls r.1.tid = true →
    Covered c.world.getWakeupCooldownState [] (env.clock r.2) (env.clock c.log.length)
  nows : ∀ t, ∀ n ∈ (viewOf c.log t).nows, n ≤ env.clock c.log.length
  views : ∀ t state, (viewOf c.log t).cooldownState = some state →
    ∀ r ∈ stamped (beforeRead t c.log), records r.1 = true →
      isAutomaticCall calls r.1.tid = true →
        Covered state (viewOf c.log t).nows (env.clock r.2) (env.clock c.log.length)
  lease : ∀ lease, c.world.lease = some lease → ∀ id, lastAcquired c.log = some id → id = lease.id
  holds : ∀ t, (viewOf c.log t).holds = true → ∃ e ∈ c.log, e.tid = t ∧ (acquired e).isSome = true
  spaced : WakeupsSpaced env calls c.log
  owns : ReleasesOwn calls c.log

variable {env : WakeupEnv} {calls : ι → WakeupCaller} {c : WakeupConfig ι} {t : ι} {o : WakeupOp}

/-- The entry of a step. -/
abbrev entryOf (env : WakeupEnv) (c : WakeupConfig ι) (t : ι) (o : WakeupOp) : WakeupEntry ι :=
  ⟨t, o, o.answer env c.world⟩

/-- The operations but `recordWakeup` leave the cooldown state as it is. -/
theorem getWakeupCooldownState_write {s : WakeupStore} (h : ∀ source reason,
    o ≠ .recordWakeup source reason) :
    (o.write env s).getWakeupCooldownState = s.getWakeupCooldownState := by
  cases o with
  | recordWakeup source reason => exact absurd rfl (h source reason)
  | acquireCycleLease correlationId =>
      rw [WakeupOp.write, WakeupStore.acquire]
      split
      · rfl
      · rfl
  | _ => rfl

omit [DecidableEq ι] in
theorem clock_step (env : WakeupEnv) (log : List (WakeupEntry ι)) (e : WakeupEntry ι) :
    env.clock log.length ≤ env.clock (e :: log).length := env.clock_mono _ _ (Nat.le_succ _)

namespace WakeupInv

variable (h : WakeupInv env calls c)

include h

theorem last_step (hissue : WakeupIssue calls t (viewOf c.log t) o)
    (hkeeps : KeepsWindows env calls c t o) :
    ∀ r ∈ stamped (entryOf env c t o :: c.log), records r.1 = true →
      isAutomaticCall calls r.1.tid = true →
        Covered (o.write env c.world).getWakeupCooldownState [] (env.clock r.2)
          (env.clock (entryOf env c t o :: c.log).length) := by
  have hclock := clock_step env c.log (entryOf env c t o)
  intro r hr hrecords hauto
  by_cases hop : ∃ source reason, o = .recordWakeup source reason
  · obtain ⟨source, reason, rfl⟩ := hop
    have hle : env.clock r.2 ≤ env.clock c.log.length := by
      rcases List.mem_cons.1 hr with rfl | hold
      · exact Int.le_refl _
      · exact env.clock_mono _ _ (Nat.le_of_lt (mem_of_mem_stamped hold).2)
    by_cases hsource : isAutomaticSource (some source) = true
    · exact .inl ⟨env.clock c.world.steps, hsource, rfl, by rw [h.steps]; exact hle,
        by rw [h.steps]; exact hclock, nofun⟩
    · rw [Bool.not_eq_true] at hsource
      rcases List.mem_cons.1 hr with rfl | hold
      · rw [WakeupIssue, hsource] at hissue
        rw [← hissue] at hauto
        nomatch hauto
      · right
        -- the wakeup that is recorded over has been there for the window
        rcases h.last r hold hrecords hauto with ⟨last, hlastAuto, hlast, hafter, -, -⟩ | hpassed
        · rw [WakeupStore.getWakeupCooldownState] at hlastAuto hlast
          cases hwakeup : c.world.lastWakeup with
          | none =>
              split at hlast
              · nomatch hlast
              · rw [hwakeup] at hlast
                nomatch hlast
          | some w =>
              rw [if_neg (by simp [hwakeup])] at hlastAuto hlast
              rw [hwakeup] at hlastAuto hlast
              obtain rfl : w.lastWakeupAt = last := Option.some.inj hlast
              have hold := hkeeps hsource w hwakeup hlastAuto
              rw [h.steps] at hold
              omega
        · exact Int.le_trans hpassed hclock
  · rw [getWakeupCooldownState_write fun source reason heq => hop ⟨source, reason, heq⟩]
    rcases List.mem_cons.1 hr with rfl | hold
    · cases o with
      | recordWakeup source reason => exact absurd ⟨source, reason, rfl⟩ hop
      | _ => nomatch hrecords
    · exact (h.last r hold hrecords hauto).later hclock

theorem nows_step (u : ι) : ∀ n ∈ (viewOf (entryOf env c t o :: c.log) u).nows,
    n ≤ env.clock (entryOf env c t o :: c.log).length := by
  have hclock := clock_step env c.log (entryOf env c t o)
  intro n hn
  have hold : n ∈ (viewOf c.log u).nows → n ≤ env.clock (entryOf env c t o :: c.log).length :=
    fun hn => Int.le_trans (h.nows u n hn) hclock
  by_cases hu : t = u
  · rw [viewOf, Pool.track, if_pos hu] at hn
    cases o with
    | getWakeupCooldownState => cases hn
    | now =>
        rcases List.mem_cons.1 hn with rfl | hn
        · change env.clock c.world.steps ≤ _
          rw [h.steps]
          exact hclock
        · exact hold hn
    | acquireCycleLease correlationId =>
        rw [WakeupView.next_acquire_nows] at hn
        exact hold hn
    | _ => exact hold hn
  · rw [viewOf, Pool.track, if_neg hu] at hn
    exact hold hn

theorem views_step (u : ι) (state : Option WakeupCooldownState)
    (hstate : (viewOf (entryOf env c t o :: c.log) u).cooldownState = some state) :
    ∀ r ∈ stamped (beforeRead u (entryOf env c t o :: c.log)), records r.1 = true →
      isAutomaticCall calls r.1.tid = true →
        Covered state (viewOf (entryOf env c t o :: c.log) u).nows (env.clock r.2)
          (env.clock (entryOf env c t o :: c.log).length) := by
  have hclock := clock_step env c.log (entryOf env c t o)
  intro r hr hrecords hauto
  have hold : (viewOf c.log u).cooldownState = some state → r ∈ stamped (beforeRead u c.log) →
      Covered state (viewOf c.log u).nows (env.clock r.2)
        (env.clock (entryOf env c t o :: c.log).length) := fun hstate hr =>
    (h.views u state hstate r hr hrecords hauto).later hclock
  by_cases hu : t = u
  · rw [viewOf, Pool.track, if_pos hu] at hstate ⊢
    by_cases hreads : reads (entryOf env c t o) = true
    · rw [beforeRead_read hu hreads] at hr
      cases o with
      | getWakeupCooldownState =>
          obtain rfl : c.world.getWakeupCooldownState = state := Option.some.inj hstate
          rcases List.mem_cons.1 hr with rfl | hr
          · cases hrecords
          · exact (h.last r hr hrecords hauto).later hclock
      | _ => cases hreads
    · rw [beforeRead_cons (.inr (Bool.not_eq_true _ ▸ hreads))] at hr
      cases o with
      | getWakeupCooldownState => exact absurd rfl hreads
      | now =>
          rcases h.views u state hstate r hr hrecords hauto with
            ⟨last, hlastAuto, hlast, hafter, hbefore, hnows⟩ | hpassed
          · refine .inl ⟨last, hlastAuto, hlast, hafter, Int.le_trans hbefore hclock, ?_⟩
            intro n hn
            rcases List.mem_cons.1 hn with rfl | hn
            · change last ≤ env.clock c.world.steps
              rw [h.steps]
              exact hbefore
            · exact hnows n hn
          · exact .inr (Int.le_trans hpassed hclock)
      | acquireCycleLease correlationId =>
          rw [WakeupView.next_acquire_cooldownState] at hstate
          rw [WakeupView.next_acquire_nows]
          exact hold hstate hr
      | _ => exact hold hstate hr
  · rw [viewOf, Pool.track, if_neg hu] at hstate ⊢
    rw [beforeRead_cons (.inl hu)] at hr
    exact hold hstate hr

theorem lease_step : ∀ lease, (o.write env c.world).lease = some lease →
    ∀ id, lastAcquired (entryOf env c t o :: c.log) = some id → id = lease.id := by
  intro lease hlease id hid
  have hsame : acquired (entryOf env c t o) = none → lastAcquired c.log = some id := by
    intro hnone
    rwa [lastAcquired, List.findSome?_cons, hnone] at hid
  cases o with
  | acquireCycleLease correlationId =>
      change (c.world.acquire (env.clock c.world.steps) correlationId).lease = some lease at hlease
      cases hholding : c.world.holding (env.clock c.world.steps) with
      | some held =>
          have hnone : acquired (entryOf env c t (.acquireCycleLease correlationId)) = none := by
            change WakeupOp.answer env c.world (.acquireCycleLease correlationId) = none
            simp only [WakeupOp.answer, hholding]
          rw [WakeupStore.acquire, hholding] at hlease
          exact h.lease lease hlease id (hsame hnone)
      | none =>
          have hsome : acquired (entryOf env c t (.acquireCycleLease correlationId)) =
              some c.world.leases := by
            change WakeupOp.answer env c.world (.acquireCycleLease correlationId) = _
            simp only [WakeupOp.answer, hholding]
          rw [WakeupStore.acquire, hholding] at hlease
          rw [lastAcquired, List.findSome?_cons, hsome] at hid
          rw [← Option.some.inj hlease]
          exact (Option.some.inj hid).symm
  | releaseCycleLease => nomatch hlease
  | heartbeatCycleLease =>
      obtain ⟨old, hold, rfl⟩ := Option.map_eq_some_iff.1 hlease
      exact h.lease old hold id (hsame rfl)
  | expireOverdue =>
      exact h.lease lease (Option.filter_eq_some_iff.1 hlease).1 id (hsame rfl)
  | _ => exact h.lease lease hlease id (hsame rfl)

theorem holds_step (u : ι) (hholds : (viewOf (entryOf env c t o :: c.log) u).holds = true) :
    ∃ e ∈ entryOf env c t o :: c.log, e.tid = u ∧ (acquired e).isSome = true := by
  have hold : (viewOf c.log u).holds = true →
      ∃ e ∈ entryOf env c t o :: c.log, e.tid = u ∧ (acquired e).isSome = true := by
    intro hholds
    obtain ⟨e, he, hown⟩ := h.holds u hholds
    exact ⟨e, List.mem_cons_of_mem _ he, hown⟩
  by_cases hu : t = u
  · by_cases hacquired : (acquired (entryOf env c t o)).isSome = true
    · exact ⟨_, List.mem_cons_self, hu, hacquired⟩
    · apply hold
      rw [viewOf, Pool.track, if_pos hu] at hholds
      cases o with
      | acquireCycleLease correlationId =>
          have hnone : WakeupOp.answer env c.world (.acquireCycleLease correlationId) = none :=
            Option.not_isSome_iff_eq_none.1 hacquired
          dsimp only [entryOf] at hholds
          rw [hnone] at hholds
          exact hholds
      | _ => exact hholds
  · rw [viewOf, Pool.track, if_neg hu] at hholds
    exact hold hholds

/-- What a call has read and waited for puts a wakeup that it has read about out of the window. -/
theorem recorded_before {state : Option WakeupCooldownState}
    (hstate : (viewOf c.log t).cooldownState = some state)
    (hpassed : Passed state (viewOf c.log t).nows) {r : WakeupEntry ι × Nat}
    (hr : r ∈ stamped (beforeRead t c.log)) (hrecords : records r.1 = true)
    (hrAuto : isAutomaticCall calls r.1.tid = true) :
    env.clock r.2 + AUTOMATIC_WAKEUP_COALESCE_MS ≤ env.clock c.log.length := by
  rcases h.views t state hstate r hr hrecords hrAuto with
    ⟨last, hlastAuto, hlast, hafter, hbefore, hnows⟩ | hout
  · obtain ⟨n, hn, hwindow⟩ := hpassed hlastAuto last hlast
    have hlate := hnows n hn
    have hnow := h.nows t n hn
    omega
  · exact hout

theorem spaced_step (hissue : WakeupIssue calls t (viewOf c.log t) o)
    (hkeeps : KeepsWindows env calls c t o) :
    WakeupsSpaced env calls (entryOf env c t o :: c.log) := by
  rw [WakeupsSpaced, stamped, List.pairwise_cons]
  constructor
  · intro earlier hearlier hemits hemits' hne
    obtain ⟨hlaunched, hauto⟩ := Bool.and_eq_true_iff.1 hemits
    cases o with
    | requestOrchestrationCycle reason source dedupeKey =>
        have herror : env.launchError c.world.steps = none := by
          cases herror : env.launchError c.world.steps with
          | none => rfl
          | some message =>
              have hanswer : WakeupOp.answer env c.world
                  (.requestOrchestrationCycle reason source dedupeKey) = .error message := by
                simp only [WakeupOp.answer, herror]
              dsimp only [entryOf] at hlaunched
              rw [hanswer] at hlaunched
              nomatch hlaunched
        obtain ⟨r, hr, htid, hrecords⟩ :=
          hkeeps hauto herror earlier.1 (mem_of_mem_stamped hearlier).1 hemits' hne
        obtain ⟨state, hstate, hpassed⟩ := hissue hauto
        obtain ⟨n, hn⟩ := exists_stamped hr
        have hrAuto : isAutomaticCall calls r.tid = true := by
          rw [htid]
          exact (Bool.and_eq_true_iff.1 hemits').2
        exact ⟨(r, n), List.mem_cons_of_mem _ (stamped_beforeRead t c.log hn), htid, hrecords,
          h.recorded_before hstate hpassed hn hrecords hrAuto⟩
    | _ => nomatch hlaunched
  · refine h.spaced.imp ?_
    intro later earlier hspaced hemits hemits' hne
    obtain ⟨r, hr, hrest⟩ := hspaced hemits hemits' hne
    exact ⟨r, List.mem_cons_of_mem _ hr, hrest⟩

theorem owns_step (hissue : WakeupIssue calls t (viewOf c.log t) o)
    (hkeeps : KeepsWindows env calls c t o) :
    ReleasesOwn calls (entryOf env c t o :: c.log) := by
  intro e he hrequest id hid
  rcases List.mem_cons.1 he with rfl | hold
  · cases o with
    | releaseCycleLease =>
        obtain ⟨lease, hlease, rfl⟩ := List.mem_map.1 hid
        obtain ⟨own, hown, htid, id', hacquired, hlast⟩ :=
          lastAcquired_own (h.holds t (hissue hrequest)) (hkeeps hrequest)
        refine ⟨own, List.mem_cons_of_mem _ hown, htid, ?_⟩
        rw [hacquired, h.lease lease (Option.mem_toList.1 hlease) id' hlast]
    | _ => nomatch hid
  · obtain ⟨a, ha, hrest⟩ := h.owns e hold hrequest id hid
    exact ⟨a, List.mem_cons_of_mem _ ha, hrest⟩

theorem advance (hissue : WakeupIssue calls t (viewOf c.log t) o)
    (hkeeps : KeepsWindows env calls c t o)
    (k : o.Ans → Prog WakeupOp WakeupOp.Ans String (Option RequestWakeupResult)) :
    WakeupInv env calls (Pool.advance (wakeupMachine env) c t o k) where
  steps := congrArg Nat.succ h.steps
  last := h.last_step hissue hkeeps
  nows := h.nows_step
  views := h.views_step
  lease := h.lease_step
  holds := h.holds_step
  spaced := h.spaced_step hissue hkeeps
  owns := h.owns_step hissue hkeeps

end WakeupInv

theorem wakeupInv_start (projectId : String) (s : WakeupStore) :
    WakeupInv env calls (wakeupStart calls projectId s) where
  steps := rfl
  last _ hr := absurd hr List.not_mem_nil
  nows _ _ hn := absurd hn List.not_mem_nil
  views _ _ hview := absurd hview.symm (Option.some_ne_none _)
  lease _ _ _ hid := absurd hid.symm (Option.some_ne_none _)
  holds _ hholds := absurd hholds Bool.false_ne_true
  spaced := List.Pairwise.nil
  owns _ he := absurd he List.not_mem_nil

/-- **Automatic wakeups coalesce, and a failed launch ends no lease but its own.** In every run that
keeps the windows. -/
theorem automatic_wakeups_coalesce (env : WakeupEnv) (projectId : String) (s : WakeupStore)
    (calls : ι → WakeupCaller) {c : WakeupConfig ι}
    (hrun : Pool.Reach (wakeupMachine env) (KeepsWindows env calls)
      (wakeupStart calls projectId s) c) :
    WakeupsSpaced env calls c.log ∧ ReleasesOwn calls c.log := by
  have hinv : WakeupInv env calls c ∧ _ := Pool.Reach.follows
    (fun t => meets_program (t := t) projectId) (wakeupInv_start projectId s)
    (fun c t o k hinv _ hissue _ hkeeps => ⟨trivial, hinv.advance hissue hkeeps k⟩) hrun
  exact ⟨hinv.1.spaced, hinv.1.owns⟩

/-! ## Runs on fixed schedules -/

instance (env : WakeupEnv) (calls : ι → WakeupCaller) (log : List (WakeupEntry ι)) :
    Decidable (WakeupsSpaced env calls log) := by
  unfold WakeupsSpaced
  infer_instance

instance (calls : ι → WakeupCaller) (log : List (WakeupEntry ι)) :
    Decidable (ReleasesOwn calls log) := by
  unfold ReleasesOwn
  infer_instance

instance (env : WakeupEnv) (calls : ι → WakeupCaller) (c : WakeupConfig ι) (t : ι)
    (o : WakeupOp) : Decidable (KeepsWindows env calls c t o) := by
  unfold KeepsWindows
  split <;> infer_instance

end Runs

/-- A clock that moves by a fixed time with every step; the launches that fail are given. -/
def steadyEnv (period : Nat) (launchError : Nat → Option String) : WakeupEnv where
  clock n := n * period
  clock_mono m n hmn := by
    exact_mod_cast Nat.mul_le_mul_right period hmn
  suppressed _ := false
  launchError := launchError

/-- Two automatic wakeups, a manual one, and the ends of cycles. -/
def wakeupCalls : Nat → WakeupCaller
  | 0 => .requestWakeup { reason := "run_completed", source := some LIFECYCLE_STREAM_SOURCE }
  | 1 => .requestWakeup { reason := "revision", source := some REVISION_COMPLETE_SOURCE }
  | 2 => .requestWakeup { reason := "manual" }
  | _ => .endOfCycle

/-- A wakeup, the end of its cycle, and the next wakeup after the window. -/
theorem wakeups_apart :
    let env := steadyEnv 20000 fun _ => none
    let c := Pool.play (wakeupMachine env) [(0, 7), (3, 1), (1, 8)]
      (wakeupStart wakeupCalls "p" {})
    c.log.countP (emitsAutomatic wakeupCalls) = 2 ∧ WakeupsSpaced env wakeupCalls c.log ∧
      ReleasesOwn wakeupCalls c.log := by
  refine ⟨by decide +kernel, ?_⟩
  exact automatic_wakeups_coalesce (steadyEnv 20000 fun _ => none) "p" {} wakeupCalls
    (Pool.reach_play_of_admits _ _ (by decide +kernel))

/-- Two calls read the cooldown state before either launches, and the first cycle ends before the
second launch: both emit within the window. And a launch fails whose lease has expired and been
taken over: the call releases the lease of the other one. -/
theorem wakeups_not_coalesced :
    (let env := steadyEnv 1000 fun _ => none
      ∃ c, Pool.Reach (wakeupMachine env) Pool.anyStep (wakeupStart wakeupCalls "p" {}) c ∧
        ¬ WakeupsSpaced env wakeupCalls c.log) ∧
      (let env := steadyEnv 400000 fun n => if n = 8 then some "launch failed" else none
        ∃ c, Pool.Reach (wakeupMachine env) Pool.anyStep (wakeupStart wakeupCalls "p" {}) c ∧
          ¬ ReleasesOwn wakeupCalls c.log) := by
  constructor
  · exact ⟨_, Pool.reach_play [(0, 2), (1, 2), (0, 5), (3, 1), (1, 4)] _, by decide +kernel⟩
  · exact ⟨_, Pool.reach_play [(0, 3), (2, 3), (0, 4)] _, by decide +kernel⟩

end ProjectOrchestrationWakeupService

end Nexus
