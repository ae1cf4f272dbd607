import Nexus.Lib.OrderedMap
import Nexus.Lib.Pool

/-!
# Orchestration wakeups

`ProjectOrchestrationWakeupService.requestWakeup` for one project: the throttles, the cycle lease,
the launch of a cycle and the record of the wakeup. Every call of a service is one atomic step. The
environment decides the clock, whether automatic wakeups are suppressed, and which launches fail;
the ends of cycles, the heartbeats and the expiry of overdue leases are threads of their own.
-/

set_option autoImplicit false

namespace Nexus

namespace ProjectOrchestrationWakeupService

def STALE_RECONCILER_REASON : String := "stale_reconciler"

def LIFECYCLE_STREAM_SOURCE : String := "core_lifecycle_stream"

def STALE_RECONCILER_SOURCE : String := "orchestration_continuation_reconciler"

def REVISION_COMPLETE_SOURCE : String := "revision_complete"

def AUTOMATIC_WAKEUP_SOURCES : List String :=
  [LIFECYCLE_STREAM_SOURCE, STALE_RECONCILER_SOURCE, REVISION_COMPLETE_SOURCE]

def AUTOMATIC_WAKEUP_COALESCE_MS : Int := 60 * 1000

def STALE_RECONCILER_WAKEUP_COOLDOWN_MS : Int := 5 * 60 * 1000

def CYCLE_LEASE_TTL_MS : Int := 10 * 60 * 1000

structure RequestWakeupInput where
  reason : String
  source : Option String := none
  dedupeKey : Option String := none

structure RequestWakeupResult where
  emitted : Bool
  reason : Option String := none
  deriving DecidableEq, Repr

/-- An instant is in milliseconds; the source keeps it as an ISO text. -/
structure WakeupRecord where
  lastWakeupAt : Int
  source : String
  reason : String
  deriving DecidableEq, Repr

structure WakeupCooldownState where
  lastWakeupAt : Option Int := none
  source : Option String := none
  reason : Option String := none
  lastStaleWakeupAt : Option Int := none
  lastStaleSource : Option String := none
  lastStaleReason : Option String := none
  deriving DecidableEq, Repr

def isAutomaticSource (source : Option String) : Bool :=
  source.any fun s => AUTOMATIC_WAKEUP_SOURCES.contains s

def isAutomaticWakeup (input : RequestWakeupInput) : Bool := isAutomaticSource input.source

def isStaleReconcilerWakeup (input : RequestWakeupInput) : Bool :=
  input.reason = STALE_RECONCILER_REASON && input.source = some STALE_RECONCILER_SOURCE

/-! ## The store -/

/-- The active lease of the key of the cycle; the table has at most one active row of a key. -/
structure CycleLease where
  id : Nat
  ownerId : String
  expiresAt : Int
  deriving DecidableEq, Repr

/-- What the environment decides, by the number of the step. -/
structure WakeupEnv where
  clock : Nat → Int
  clock_mono : ∀ m n, m ≤ n → clock m ≤ clock n
  suppressed : Nat → Bool
  /-- The error of a launch that fails at the step. -/
  launchError : Nat → Option String

structure WakeupStore where
  steps : Nat := 0
  lastWakeup : Option WakeupRecord := none
  lastStaleWakeup : Option WakeupRecord := none
  lease : Option CycleLease := none
  /-- The number of leases that have been inserted. -/
  leases : Nat := 0
  fallbackWakeupAnchors : OrderedMap String Int := []

inductive WakeupOp where
  | getAutoWakeSuppressionState
  | getWakeupCooldownState
  | now
  | acquireCycleLease (correlationId : String)
  | resolveFallbackWakeupAnchor (anchorKey : String) (now windowMs : Int)
  | deleteFallbackWakeupAnchor (anchorKey : String)
  | requestOrchestrationCycle (reason : String) (source dedupeKey : Option String)
  | releaseCycleLease
  | recordWakeup (source reason : String)
  | heartbeatCycleLease
  | expireOverdue
  deriving DecidableEq

abbrev WakeupOp.Ans : WakeupOp → Type
  | .getAutoWakeSuppressionState => Bool
  | .getWakeupCooldownState => Option WakeupCooldownState
  | .now => Int
  | .acquireCycleLease _ => Option Nat
  | .resolveFallbackWakeupAnchor _ _ _ => Int
  | .requestOrchestrationCycle _ _ _ => Except String Unit
  | .releaseCycleLease => List Nat
  | _ => Unit

namespace WakeupStore

def getWakeupCooldownState (s : WakeupStore) : Option WakeupCooldownState :=
  if s.lastWakeup = none ∧ s.lastStaleWakeup = none then none
  else
    some
      { lastWakeupAt := s.lastWakeup.map (·.lastWakeupAt)
        source := s.lastWakeup.map (·.source)
        reason := s.lastWakeup.map (·.reason)
        lastStaleWakeupAt := s.lastStaleWakeup.map (·.lastWakeupAt)
        lastStaleSource := s.lastStaleWakeup.map (·.source)
        lastStaleReason := s.lastStaleWakeup.map (·.reason) }

def isStaleReconcilerWakeupMetadata (wakeup : Option WakeupRecord) : Bool :=
  wakeup.any fun w => w.reason = STALE_RECONCILER_REASON && w.source = STALE_RECONCILER_SOURCE

def recordWakeup (s : WakeupStore) (now : Int) (source reason : String) : WakeupStore :=
  let kept :=
    if !isStaleReconcilerWakeupMetadata s.lastStaleWakeup &&
        isStaleReconcilerWakeupMetadata s.lastWakeup then
      s.lastWakeup
    else s.lastStaleWakeup
  let wakeup : WakeupRecord := { lastWakeupAt := now, source := source, reason := reason }
  { s with
    lastWakeup := some wakeup
    lastStaleWakeup :=
      if isStaleReconcilerWakeup { reason := reason, source := some source } then some wakeup
      else kept }

/-- The lease that is in the way of an acquisition: an expired one is reclaimed. -/
def holding (s : WakeupStore) (now : Int) : Option CycleLease :=
  s.lease.filter fun lease => !(lease.expiresAt < now)

def acquire (s : WakeupStore) (now : Int) (ownerId : String) : WakeupStore :=
  match s.holding now with
  | some _ => s
  | none =>
      { s with
        lease := some { id := s.leases, ownerId := ownerId, expiresAt := now + CYCLE_LEASE_TTL_MS }
        leases := s.leases + 1 }

/-- The anchor of a key is kept within its window. -/
def resolveFallbackWakeupAnchor (s : WakeupStore) (anchorKey : String) (now windowMs : Int) : Int :=
  match OrderedMap.get? s.fallbackWakeupAnchors anchorKey with
  | some anchor => if anchor ≤ now ∧ now - anchor < windowMs then anchor else now
  | none => now

end WakeupStore

def WakeupOp.write (env : WakeupEnv) (s : WakeupStore) : WakeupOp → WakeupStore
  | .acquireCycleLease correlationId => s.acquire (env.clock s.steps) correlationId
  | .resolveFallbackWakeupAnchor anchorKey nowTime windowMs =>
      { s with
        fallbackWakeupAnchors := OrderedMap.set s.fallbackWakeupAnchors anchorKey
          (s.resolveFallbackWakeupAnchor anchorKey nowTime windowMs) }
  | .deleteFallbackWakeupAnchor anchorKey =>
      { s with fallbackWakeupAnchors := OrderedMap.erase s.fallbackWakeupAnchors anchorKey }
  | .releaseCycleLease => { s with lease := none }
  | .recordWakeup source reason => s.recordWakeup (env.clock s.steps) source reason
  | .heartbeatCycleLease =>
      { s with
        lease := s.lease.map fun lease =>
          { lease with expiresAt := env.clock s.steps + CYCLE_LEASE_TTL_MS } }
  | .expireOverdue => { s with lease := s.holding (env.clock s.steps) }
  | .getAutoWakeSuppressionState | .getWakeupCooldownState | .now
  | .requestOrchestrationCycle _ _ _ => s

def WakeupOp.answer (env : WakeupEnv) (s : WakeupStore) : (o : WakeupOp) → o.Ans
  | .getAutoWakeSuppressionState => env.suppressed s.steps
  | .getWakeupCooldownState => s.getWakeupCooldownState
  | .now => env.clock s.steps
  | .acquireCycleLease _ =>
      match s.holding (env.clock s.steps) with
      | some _ => none
      | none => some s.leases
  | .resolveFallbackWakeupAnchor anchorKey nowTime windowMs =>
      s.resolveFallbackWakeupAnchor anchorKey nowTime windowMs
  | .requestOrchestrationCycle _ _ _ =>
      match env.launchError s.steps with
      | some message => .error message
      | none => .ok ()
  | .releaseCycleLease => s.lease.toList.map (·.id)
  | .deleteFallbackWakeupAnchor _ | .recordWakeup _ _ | .heartbeatCycleLease | .expireOverdue => ()

def WakeupOp.exec (env : WakeupEnv) (s : WakeupStore) (o : WakeupOp) : WakeupStore × o.Ans :=
  ({ o.write env s with steps := s.steps + 1 }, o.answer env s)

def wakeupMachine (env : WakeupEnv) : Machine WakeupOp WakeupOp.Ans WakeupStore :=
  ⟨WakeupOp.exec env, fun _ _ => True⟩

instance (env : WakeupEnv) (s : WakeupStore) (o : WakeupOp) :
    Decidable ((wakeupMachine env).enabled s o) :=
  inferInstanceAs (Decidable True)

/-! ## The service -/

abbrev WakeupProg (α : Type) := Prog WakeupOp WakeupOp.Ans String α

/-- One call of a service. -/
def awaitWakeup (o : WakeupOp) : WakeupProg o.Ans := .call o .pure

def isInsideWindow (lastWakeupAt windowMs : Int) : WakeupProg Bool := do
  let now ← awaitWakeup .now
  .pure (decide (0 ≤ now - lastWakeupAt ∧ now - lastWakeupAt < windowMs))

def isInsideAutomaticWakeupCoalesceWindow (input : RequestWakeupInput)
    (cooldownState : Option WakeupCooldownState) : WakeupProg Bool :=
  if isAutomaticSource input.source && isAutomaticSource (cooldownState.bind (·.source)) then
    match cooldownState.bind (·.lastWakeupAt) with
    | some lastWakeupAt => isInsideWindow lastWakeupAt AUTOMATIC_WAKEUP_COALESCE_MS
    | none => .pure false
  else .pure false

def resolveLastStaleWakeupAt : Option WakeupCooldownState → Option Int
  | none => none
  | some state =>
      if state.lastStaleSource = some STALE_RECONCILER_SOURCE ∧
          state.lastStaleReason = some STALE_RECONCILER_REASON ∧
          state.lastStaleWakeupAt.isSome = true then
        state.lastStaleWakeupAt
      else if state.source = some STALE_RECONCILER_SOURCE ∧
          state.reason = some STALE_RECONCILER_REASON ∧ state.lastWakeupAt.isSome = true then
        state.lastWakeupAt
      else none

def isInsideStaleWakeupCooldown (input : RequestWakeupInput)
    (cooldownState : Option WakeupCooldownState) : WakeupProg Bool :=
  if !isStaleReconcilerWakeup input then .pure false
  else
    match resolveLastStaleWakeupAt cooldownState with
    | none => .pure false
    | some staleWakeupAt => isInsideWindow staleWakeupAt STALE_RECONCILER_WAKEUP_COOLDOWN_MS

def buildFallbackWakeupAnchorKey (projectId : String) (input : RequestWakeupInput) : String :=
  projectId ++ ":" ++ input.source.getD "" ++ ":" ++ input.reason

def buildAcceptedWakeupWindowId (projectId : String) (input : RequestWakeupInput) (now : Int)
    (cooldownState : Option WakeupCooldownState) (windowMs : Int) : WakeupProg String :=
  let anchorWakeupAt :=
    if isStaleReconcilerWakeup input then resolveLastStaleWakeupAt cooldownState
    else cooldownState.bind (·.lastWakeupAt)
  let anchorKey := buildFallbackWakeupAnchorKey projectId input
  match anchorWakeupAt with
  | none => do
      let fallbackAnchor ← awaitWakeup (.resolveFallbackWakeupAnchor anchorKey now windowMs)
      .pure ("initial:" ++ toString fallbackAnchor)
  | some anchorTime => do
      awaitWakeup (.deleteFallbackWakeupAnchor anchorKey)
      let elapsedMs := now - anchorTime
      if elapsedMs < 0 then .pure (toString now ++ ":0")
      else .pure (toString anchorTime ++ ":" ++ toString (elapsedMs / windowMs))

def buildWakeupDedupeKey (projectId : String) (input : RequestWakeupInput) (now : Int)
    (cooldownState : Option WakeupCooldownState) : WakeupProg (Option String) :=
  if input.dedupeKey.any fun key => key ≠ "" then .pure input.dedupeKey
  else if !isAutomaticWakeup input then .pure none
  else if isStaleReconcilerWakeup input then do
    let windowId ← buildAcceptedWakeupWindowId projectId input now cooldownState
      STALE_RECONCILER_WAKEUP_COOLDOWN_MS
    .pure (some ("project-orchestration-cycle:" ++ projectId ++ ":" ++ STALE_RECONCILER_SOURCE ++
      ":" ++ STALE_RECONCILER_REASON ++ ":" ++ windowId))
  else do
    let windowId ← buildAcceptedWakeupWindowId projectId input now cooldownState
      AUTOMATIC_WAKEUP_COALESCE_MS
    .pure (some ("project-orchestration-cycle:" ++ projectId ++ ":" ++ input.source.getD "" ++
      ":" ++ input.reason ++ ":" ++ windowId))

/-- The launch with the lease in hand, and the record of the wakeup. -/
def launchCycle (projectId : String) (input : RequestWakeupInput)
    (cooldownState : Option WakeupCooldownState) : WakeupProg RequestWakeupResult := do
  let now ← awaitWakeup .now
  let dedupeKey ← buildWakeupDedupeKey projectId input now cooldownState
  match ← awaitWakeup (.requestOrchestrationCycle input.reason input.source dedupeKey) with
  | .error message => do
      let _ ← awaitWakeup .releaseCycleLease
      .fail message
  | .ok () =>
      match input.source with
      | none => .pure { emitted := true }
      | some source =>
          if source = "" then .pure { emitted := true }
          else do
            awaitWakeup (.recordWakeup source input.reason)
            .pure { emitted := true }

def requestWakeup (projectId : String) (input : RequestWakeupInput) :
    WakeupProg RequestWakeupResult := do
  let suppressed ← awaitWakeup .getAutoWakeSuppressionState
  if suppressed && isAutomaticWakeup input then
    .pure { emitted := false, reason := some "orchestration_auto_wake_suppressed" }
  else do
    let cooldownState ← awaitWakeup .getWakeupCooldownState
    if ← isInsideAutomaticWakeupCoalesceWindow input cooldownState then
      .pure { emitted := false, reason := some "automatic_wakeup_coalesced" }
    else if ← isInsideStaleWakeupCooldown input cooldownState then
      .pure { emitted := false, reason := some "stale_wakeup_cooldown" }
    else do
      let correlationId := input.source.getD "manual" ++ ":" ++ input.reason
      match ← awaitWakeup (.acquireCycleLease correlationId) with
      | none => .pure { emitted := false, reason := some "active_cycle_exists" }
      | some _ => launchCycle projectId input cooldownState

/-! ## The threads -/

/-- A call of `requestWakeup`, the end of a cycle, a heartbeat, or the expiry of overdue leases. -/
inductive WakeupCaller where
  | requestWakeup (input : RequestWakeupInput)
  | endOfCycle
  | heartbeat
  | expireOverdue

def WakeupCaller.program (projectId : String) :
    WakeupCaller → WakeupProg (Option RequestWakeupResult)
  | .requestWakeup input => do
      let result ← ProjectOrchestrationWakeupService.requestWakeup projectId input
      .pure (some result)
  | .endOfCycle => .call .releaseCycleLease fun _ => .pure none
  | .heartbeat => .call .heartbeatCycleLease fun _ => .pure none
  | .expireOverdue => .call .expireOverdue fun _ => .pure none

end ProjectOrchestrationWakeupService

end Nexus
