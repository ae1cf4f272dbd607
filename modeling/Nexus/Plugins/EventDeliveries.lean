import Nexus.Plugins.PluginPolicy
import Nexus.Lib.Json
import Nexus.Lib.TableRows
import Nexus.Lib.Pool
import Nexus.Workflow.Definition
import Mathlib

/-!
# Deliveries of plugin events

`PluginEventDeliveryEngineService.deliver` writes a row for every matching subscription and calls
the runtime of the plugin in line; `PluginEventDeliveryWorkerService.processDueDeliveries` claims
the rows that are due and calls the runtime for each of them. A call of the runtime is two
operations here, its beginning and its end, so that other calls may step while it is in progress.
-/

set_option autoImplicit false

namespace Nexus

open EventTopics PluginPolicy

/-! ## Subscriptions and registry entries -/

inductive PluginEventDeliveryMode where
  | blocking
  | nonBlocking
  deriving DecidableEq, Repr

/-- The retries of a subscription, within the bounds of `eventSubscriptionRetryConfigSchema`. -/
structure PluginEventRetry where
  maxAttempts : Nat := 3
  initialDelayMs : Nat := 1000
  backoffMultiplier : ℚ := 2
  maxAttempts_bounds : 1 ≤ maxAttempts ∧ maxAttempts ≤ 10 := by decide
  initialDelayMs_bounds : 100 ≤ initialDelayMs ∧ initialDelayMs ≤ 60000 := by decide
  backoffMultiplier_bounds : 1 ≤ backoffMultiplier ∧ backoffMultiplier ≤ 10 := by norm_num

/-- A subscription with what a delivery reads of it; `deadLetter` is `deadLetter?.enabled`. -/
structure DeliverableSubscription extends PluginEventSubscription where
  filters : Option (List (String × Json)) := none
  deliveryMode : PluginEventDeliveryMode := .nonBlocking
  retry : PluginEventRetry := {}
  deadLetter : Option Bool := none
  requiredPermissions : Option (List String) := none

/-- The columns of `plugin_registry_entries` that a delivery is decided on; `scanResult` and
`compatibilityResult` are the `status` of the two reports. -/
structure PluginRegistryEntry where
  pluginId : String
  version : String
  trustLevel : PluginTrustLevel
  isolationMode : PluginIsolationMode
  lifecycleState : PluginLifecycleState
  enabled : Bool
  grantedPermissions : Option (List PluginPermission)
  scanResult : Option String
  compatibilityResult : Option String

def PluginPolicyReasonCode.code : PluginPolicyReasonCode → String
  | .quarantinedTrust => "quarantined_trust"
  | .unsafeIsolationForTrustLevel => "unsafe_isolation_for_trust_level"
  | .unsafeIsolationOverrideRequired => "unsafe_isolation_override_required"
  | .scanRequired => "scan_required"
  | .compatibilityFailed => "compatibility_failed"
  | .pluginDisabled => "plugin_disabled"
  | .runtimeUnhealthy => "runtime_unhealthy"
  | .permissionNotGranted => "permission_not_granted"
  | .networkHostNotGranted => "network_host_not_granted"
  | .contributionNotDeclared => "contribution_not_declared"
  | .unsupportedContributionOperation => "unsupported_contribution_operation"
  | .eventTopicNotApproved => "event_topic_not_approved"
  | .eventSubscriptionNotDeclared => "event_subscription_not_declared"
  | .eventTopicNotSubscribed => "event_topic_not_subscribed"
  | .eventNamespaceNotOwned => "event_namespace_not_owned"

structure PluginEventEnvelope where
  topic : String
  eventName : String
  correlationId : Option String := none
  payload : List (String × Json) := []

/-- `===` of two values; values of different documents are never the same object. -/
def strictEquals : Json → Json → Bool
  | .null, .null => true
  | .bool b, .bool b' => b = b'
  | .num n, .num n' => n = n'
  | .str s, .str s' => s = s'
  | _, _ => false

def matchesFilters (filters : Option (List (String × Json))) (payload : List (String × Json)) :
    Bool :=
  match filters with
  | none => true
  | some filters =>
      filters.all fun (key, value) =>
        match OrderedMap.get? payload key with
        | some value' => strictEquals value' value
        | none => false

def findMatchingSubscriptions (subscriptions : List DeliverableSubscription) (topic : String)
    (payload : List (String × Json)) : List DeliverableSubscription :=
  subscriptions.filter fun subscription =>
    subscription.topics.any (fun topicPattern => matchesTopicPattern topicPattern topic) &&
      matchesFilters subscription.filters payload

/-! ## The table -/

inductive PluginEventDeliveryStatus where
  | pending
  | delivering
  | delivered
  | failed
  | deadLettered
  deriving DecidableEq, Repr

/-- A row of `plugin_event_deliveries`. -/
structure PluginEventDelivery where
  id : Nat
  pluginId : String
  pluginVersion : String
  contributionId : String
  topic : String
  eventName : String
  payload : List (String × Json)
  correlationId : Option String
  deliveryMode : PluginEventDeliveryMode
  status : PluginEventDeliveryStatus
  attemptCount : Nat
  maxAttempts : Nat
  retryInitialDelayMs : Nat
  retryBackoffMultiplier : ℚ
  deadLetterEnabled : Bool
  nextAttemptAt : Int
  deliveredAt : Option Int := none
  errorCode : Option String := none
  errorMessage : Option String := none
  errorMetadata : Option (List (String × Json)) := none

structure PluginRuntimeEventDeliveryRequest where
  pluginId : String
  version : String
  actorId : String
  contributionId : String
  requiredPermissions : Option (List String) := none
  topic : String
  eventName : String
  payload : List (String × Json)

structure PluginRuntimeError where
  code : String
  message : String
  retryable : Bool

/-- The rows, and what the calls read from around them: the number of steps taken, the clock, the
projected subscriptions and the registry at every step, and what the runtime answers at every step,
where an error text is a rejected promise. A row is named by its place. -/
structure DeliveryStore where
  deliveries : List PluginEventDelivery := []
  ids : ∀ (i : Nat) (row : PluginEventDelivery), deliveries[i]? = some row → row.id = i
  steps : Nat := 0
  clock : Nat → Int
  clock_mono : Monotone clock
  subscriptions : Nat → List DeliverableSubscription
  registry : Nat → List PluginRegistryEntry
  runtime : Nat → PluginRuntimeEventDeliveryRequest →
    Except String (Except PluginRuntimeError Unit)

structure CreatePendingPluginEventDeliveryInput where
  pluginId : String
  pluginVersion : String
  contributionId : String
  topic : String
  eventName : String
  payload : List (String × Json)
  correlationId : Option String
  deliveryMode : PluginEventDeliveryMode
  maxAttempts : Nat
  retryInitialDelayMs : Nat
  retryBackoffMultiplier : ℚ
  deadLetterEnabled : Bool
  nextAttemptAt : Int

structure MarkFailedPluginEventDeliveryInput where
  id : Nat
  nextAttemptAt : Option Int := none
  errorCode : String
  errorMessage : String
  errorMetadata : Option (List (String × Json)) := none
  incrementAttemptCount : Bool

structure MarkDeadLetteredPluginEventDeliveryInput where
  id : Nat
  errorCode : String
  errorMessage : String
  errorMetadata : Option (List (String × Json)) := none

/-- `CLAIMABLE_STATUSES`. -/
def claimableStatuses : List PluginEventDeliveryStatus := [.pending, .failed]

/-- The row `createPending` builds. -/
def CreatePendingPluginEventDeliveryInput.entity (input : CreatePendingPluginEventDeliveryInput)
    (id : Nat) : PluginEventDelivery where
  id := id
  pluginId := input.pluginId
  pluginVersion := input.pluginVersion
  contributionId := input.contributionId
  topic := input.topic
  eventName := input.eventName
  payload := input.payload
  correlationId := input.correlationId
  deliveryMode := input.deliveryMode
  status := .pending
  attemptCount := 0
  maxAttempts := input.maxAttempts
  retryInitialDelayMs := input.retryInitialDelayMs
  retryBackoffMultiplier := input.retryBackoffMultiplier
  deadLetterEnabled := input.deadLetterEnabled
  nextAttemptAt := input.nextAttemptAt

/-! The columns the marks write. -/

def deliveredRow (deliveredAt : Int) (row : PluginEventDelivery) : PluginEventDelivery :=
  { row with
    status := .delivered, deliveredAt := some deliveredAt, errorCode := none,
    errorMessage := none, errorMetadata := none }

def failedRow (input : MarkFailedPluginEventDeliveryInput) (row : PluginEventDelivery) :
    PluginEventDelivery :=
  { row with
    status := .failed
    errorCode := some input.errorCode
    errorMessage := some input.errorMessage
    errorMetadata := input.errorMetadata
    nextAttemptAt := input.nextAttemptAt.getD row.nextAttemptAt
    attemptCount :=
      if input.incrementAttemptCount then row.attemptCount + 1 else row.attemptCount }

def deadLetteredRow (input : MarkDeadLetteredPluginEventDeliveryInput) (now : Int)
    (row : PluginEventDelivery) : PluginEventDelivery :=
  { row with
    status := .deadLettered
    errorCode := some input.errorCode
    errorMessage := some input.errorMessage
    errorMetadata := input.errorMetadata
    nextAttemptAt := now }

namespace DeliveryStore

def find (w : DeliveryStore) (id : Nat) : Option PluginEventDelivery := w.deliveries[id]?

theorem ids_nil (i : Nat) (row : PluginEventDelivery)
    (hrow : ([] : List PluginEventDelivery)[i]? = some row) : row.id = i := by
  cases hrow

/-- The store before the first row. -/
def withoutRows (w : DeliveryStore) : DeliveryStore := { w with deliveries := [], ids := ids_nil }

/-- Changes the columns of the rows. -/
def mapRows (w : DeliveryStore) (f : PluginEventDelivery → PluginEventDelivery)
    (hf : ∀ row, (f row).id = row.id) : DeliveryStore :=
  { w with
    deliveries := w.deliveries.map f
    ids := TableRows.map w.ids hf }

/-- Changes the columns of one row. -/
def update (w : DeliveryStore) (id : Nat) (f : PluginEventDelivery → PluginEventDelivery)
    (hf : ∀ row, (f row).id = row.id) : DeliveryStore :=
  w.mapRows (fun row => if row.id = id then f row else row) fun row => by
    split
    · exact hf row
    · rfl

def createPending (w : DeliveryStore) (input : CreatePendingPluginEventDeliveryInput) :
    DeliveryStore :=
  { w with
    deliveries := w.deliveries ++ [input.entity w.deliveries.length]
    ids := TableRows.append w.ids rfl }

/-- The rows `claimDueDeliveries` selects: the ones due first, up to the limit. -/
def dueDeliveries (w : DeliveryStore) (limit : Nat) (now : Int) : List PluginEventDelivery :=
  ((w.deliveries.filter fun row =>
      row.status ∈ claimableStatuses && decide (row.nextAttemptAt ≤ now)).insertionSort
    fun row row' => row.nextAttemptAt ≤ row'.nextAttemptAt).take (max 1 limit)

def claimDueDeliveries (w : DeliveryStore) (limit : Nat) (now : Int) : DeliveryStore :=
  w.mapRows
    (fun row => if row.id ∈ (w.dueDeliveries limit now).map (fun due => due.id) then
      { row with status := .delivering } else row)
    fun row => by split <;> rfl

def markDelivered (w : DeliveryStore) (id : Nat) (deliveredAt : Int) : DeliveryStore :=
  w.update id (deliveredRow deliveredAt) fun _ => rfl

def markFailed (w : DeliveryStore) (input : MarkFailedPluginEventDeliveryInput) : DeliveryStore :=
  w.update input.id (failedRow input) fun _ => rfl

def markDeadLettered (w : DeliveryStore) (input : MarkDeadLetteredPluginEventDeliveryInput) :
    DeliveryStore :=
  w.update input.id (deadLetteredRow input (w.clock w.steps)) fun _ => rfl

end DeliveryStore

/-! ## Operations -/

inductive DeliveryOp where
  /-- `new Date()`. -/
  | newDate
  | findMatchingSubscriptions (topic : String) (payload : List (String × Json))
  | createPending (input : CreatePendingPluginEventDeliveryInput)
  | findByPluginIdAndVersion (pluginId version : String)
  | listActiveSubscriptions
  /-- The call of `runtimeManager.deliverEvent` for a row begins; the request has no row. -/
  | callRuntime (delivery : Nat) (request : PluginRuntimeEventDeliveryRequest)
  /-- The call ends. -/
  | awaitRuntime (delivery : Nat) (request : PluginRuntimeEventDeliveryRequest)
  | claimDueDeliveries (limit : Nat) (now : Int)
  | markDelivered (id : Nat) (deliveredAt : Int)
  | markFailed (input : MarkFailedPluginEventDeliveryInput)
  | markDeadLettered (input : MarkDeadLetteredPluginEventDeliveryInput)

abbrev DeliveryOp.Ans : DeliveryOp → Type
  | .newDate => Int
  | .findMatchingSubscriptions _ _ => List DeliverableSubscription
  | .createPending _ => PluginEventDelivery
  | .findByPluginIdAndVersion _ _ => Option PluginRegistryEntry
  | .listActiveSubscriptions => List PluginEventSubscription
  | .callRuntime _ _ => Unit
  | .awaitRuntime _ _ => Except String (Except PluginRuntimeError Unit)
  | .claimDueDeliveries _ _ => List PluginEventDelivery
  | .markDelivered _ _ => Option PluginEventDelivery
  | .markFailed _ => Option PluginEventDelivery
  | .markDeadLettered _ => Option PluginEventDelivery

/-- The rows after an operation. -/
def DeliveryOp.write (w : DeliveryStore) : DeliveryOp → DeliveryStore
  | .createPending input => w.createPending input
  | .claimDueDeliveries limit now => w.claimDueDeliveries limit now
  | .markDelivered id deliveredAt => w.markDelivered id deliveredAt
  | .markFailed input => w.markFailed input
  | .markDeadLettered input => w.markDeadLettered input
  | .newDate | .findMatchingSubscriptions _ _ | .findByPluginIdAndVersion _ _ | .listActiveSubscriptions
  | .callRuntime _ _ | .awaitRuntime _ _ => w

/-- The answer to an operation; `written` are the rows after it. -/
def DeliveryOp.answer (w written : DeliveryStore) : (o : DeliveryOp) → o.Ans
  | .newDate => w.clock w.steps
  | .findMatchingSubscriptions topic payload =>
      Nexus.findMatchingSubscriptions (w.subscriptions w.steps) topic payload
  | .createPending input => input.entity w.deliveries.length
  | .findByPluginIdAndVersion pluginId version =>
      (w.registry w.steps).find? fun entry => entry.pluginId = pluginId ∧ entry.version = version
  | .listActiveSubscriptions =>
      (w.subscriptions w.steps).map fun subscription => subscription.toPluginEventSubscription
  | .callRuntime _ _ => ()
  | .awaitRuntime _ request => w.runtime w.steps request
  | .claimDueDeliveries limit now =>
      (w.dueDeliveries limit now).map fun row => { row with status := .delivering }
  | .markDelivered id _ => written.find id
  | .markFailed input => written.find input.id
  | .markDeadLettered input => written.find input.id

def DeliveryOp.exec (w : DeliveryStore) (o : DeliveryOp) : DeliveryStore × o.Ans :=
  ({ o.write w with steps := w.steps + 1 }, o.answer w (o.write w))

/-- The machine of the deliveries. -/
def deliveryMachine : Machine DeliveryOp DeliveryOp.Ans DeliveryStore :=
  ⟨DeliveryOp.exec, fun _ _ => True⟩

instance (w : DeliveryStore) (o : DeliveryOp) : Decidable (deliveryMachine.enabled w o) :=
  inferInstanceAs (Decidable True)

abbrev DeliveryProg (α : Type) := Prog DeliveryOp DeliveryOp.Ans String α

def awaitDelivery (o : DeliveryOp) : DeliveryProg o.Ans := Prog.op o

/-! ## Failures of the runtime -/

/-- `computeBackoffDelayMs`, the same in both services. -/
def computeBackoffDelayMs (initialDelayMs : Nat) (backoffMultiplier : ℚ) (attemptCount : Nat) :
    Int :=
  let boundedInitialDelay := min (max initialDelayMs 100) 60000
  let boundedMultiplier := min (max backoffMultiplier 1) 10
  let computedDelay := (boundedInitialDelay : ℚ) * boundedMultiplier ^ attemptCount
  min (computedDelay + 1 / 2).floor 300000

/-- Calls the runtime for a row; a rejected promise is thrown. -/
def deliverEvent (delivery : Nat) (request : PluginRuntimeEventDeliveryRequest) :
    DeliveryProg (Except PluginRuntimeError Unit) := do
  awaitDelivery (.callRuntime delivery request)
  match ← awaitDelivery (.awaitRuntime delivery request) with
  | .ok result => pure result
  | .error message => .fail message

/-- What both services do after an error of the runtime; they differ in the message and in the
metadata of a retry. -/
def recordFailure (delivery : PluginEventDelivery) (error : PluginRuntimeError)
    (errorMessage : String) (retryMetadata : Int → List (String × Json)) : DeliveryProg Unit :=
  let exhausted := decide (delivery.attemptCount + 1 ≥ delivery.maxAttempts)
  if error.retryable && !exhausted then do
    let now ← awaitDelivery .newDate
    let nextAttemptAt := now + computeBackoffDelayMs delivery.retryInitialDelayMs
      delivery.retryBackoffMultiplier delivery.attemptCount
    let _ ← awaitDelivery (.markFailed
      { id := delivery.id, nextAttemptAt := some nextAttemptAt, errorCode := error.code,
        errorMessage := errorMessage, errorMetadata := some (retryMetadata nextAttemptAt),
        incrementAttemptCount := true })
    pure ()
  else if delivery.deadLetterEnabled then do
    let _ ← awaitDelivery (.markDeadLettered
      { id := delivery.id, errorCode := error.code, errorMessage := errorMessage,
        errorMetadata := some [("retryable", .bool error.retryable),
          ("exhausted", .bool exhausted)] })
    pure ()
  else do
    let _ ← awaitDelivery (.markFailed
      { id := delivery.id, errorCode := error.code, errorMessage := errorMessage,
        errorMetadata := some [("retryable", .bool error.retryable),
          ("exhausted", .bool exhausted)],
        incrementAttemptCount := true })
    pure ()

/-! ## The engine -/

inductive PluginEventCandidateStatus where
  | delivered
  | policyDenied
  | deliveryFailed
  deriving DecidableEq, Repr

structure PluginEventCandidateDeliveryResult where
  pluginId : String
  version : String
  contributionId : String
  topic : String
  correlationId : Option String
  status : PluginEventCandidateStatus
  deliveryMode : PluginEventDeliveryMode
  errorCode : Option String := none

structure PluginEventDeliveryEngineResult where
  ok : Bool
  deliveries : List PluginEventCandidateDeliveryResult
  blockingFailure : Option PluginEventCandidateDeliveryResult := none

namespace PluginEventDeliveryEngine

def toDeliveryResult (envelope : PluginEventEnvelope) (subscription : DeliverableSubscription)
    (status : PluginEventCandidateStatus) (errorCode : Option String) :
    PluginEventCandidateDeliveryResult where
  pluginId := subscription.pluginId
  version := subscription.version
  contributionId := subscription.contributionId
  topic := envelope.topic
  correlationId := envelope.correlationId
  status := status
  deliveryMode := subscription.deliveryMode
  errorCode := errorCode.filter fun code => code ≠ ""

def pendingInput (envelope : PluginEventEnvelope) (subscription : DeliverableSubscription)
    (now : Int) : CreatePendingPluginEventDeliveryInput where
  pluginId := subscription.pluginId
  pluginVersion := subscription.version
  contributionId := subscription.contributionId
  topic := envelope.topic
  eventName := envelope.eventName
  payload := envelope.payload
  correlationId := envelope.correlationId
  deliveryMode := subscription.deliveryMode
  maxAttempts := subscription.retry.maxAttempts
  retryInitialDelayMs := subscription.retry.initialDelayMs
  retryBackoffMultiplier := subscription.retry.backoffMultiplier
  deadLetterEnabled := subscription.deadLetter.getD false
  nextAttemptAt := now

/-- The context the engine hands to the policy. -/
def policyContext (entry : PluginRegistryEntry) : PluginPolicyContext where
  pluginId := entry.pluginId
  version := entry.version
  trustLevel := entry.trustLevel
  isolationMode := entry.isolationMode
  lifecycleState := entry.lifecycleState
  enabled := entry.enabled
  grantedPermissions := entry.grantedPermissions.getD []
  scanStatus := if entry.scanResult = some "passed" then .passed else .failed
  compatibilityStatus := if entry.compatibilityResult = some "passed" then .passed else .failed
  runtimeHealth := .healthy

/-- The metadata of a delivery that policy denied. -/
def policyDeniedMetadata : List (String × Json) := [("status", .str "policy_denied")]

def markPolicyFailure (deliveryId : Nat) (envelope : PluginEventEnvelope)
    (subscription : DeliverableSubscription) (code message : String) :
    DeliveryProg (PluginEventCandidateDeliveryResult × Bool) := do
  let _ ← awaitDelivery (.markFailed
    { id := deliveryId, errorCode := code, errorMessage := message,
      errorMetadata := some policyDeniedMetadata, incrementAttemptCount := false })
  pure (toDeliveryResult envelope subscription .policyDenied (some code),
    subscription.deliveryMode = .blocking)

def handleRuntimeFailure (delivery : PluginEventDelivery) (error : PluginRuntimeError) :
    DeliveryProg Unit :=
  recordFailure delivery error "Plugin event delivery failed."
    fun _ => [("retryable", .bool true)]

def markRuntimeFailure (delivery : PluginEventDelivery) (envelope : PluginEventEnvelope)
    (subscription : DeliverableSubscription) (error : PluginRuntimeError) :
    DeliveryProg (PluginEventCandidateDeliveryResult × Bool) := do
  handleRuntimeFailure delivery error
  pure (toDeliveryResult envelope subscription .deliveryFailed (some error.code),
    subscription.deliveryMode = .blocking)

def eventRequest (envelope : PluginEventEnvelope) (subscription : DeliverableSubscription) :
    PluginRuntimeEventDeliveryRequest where
  pluginId := subscription.pluginId
  version := subscription.version
  actorId := "plugin-event-delivery-engine"
  contributionId := subscription.contributionId
  requiredPermissions := subscription.requiredPermissions
  topic := envelope.topic
  eventName := envelope.eventName
  payload := envelope.payload

/-- The delivery of a row whose plugin policy allows it. -/
def deliverInLine (createdDelivery : PluginEventDelivery) (envelope : PluginEventEnvelope)
    (subscription : DeliverableSubscription) :
    DeliveryProg (PluginEventCandidateDeliveryResult × Bool) := do
  match ← deliverEvent createdDelivery.id (eventRequest envelope subscription) with
  | .error error => markRuntimeFailure createdDelivery envelope subscription error
  | .ok () => do
      let now ← awaitDelivery .newDate
      let _ ← awaitDelivery (.markDelivered createdDelivery.id now)
      pure (toDeliveryResult envelope subscription .delivered none, false)

def deliverToSubscription (envelope : PluginEventEnvelope)
    (subscription : DeliverableSubscription) :
    DeliveryProg (PluginEventCandidateDeliveryResult × Bool) := do
  let now ← awaitDelivery .newDate
  let createdDelivery ← awaitDelivery (.createPending (pendingInput envelope subscription now))
  match ← awaitDelivery (.findByPluginIdAndVersion subscription.pluginId subscription.version) with
  | none =>
      markPolicyFailure createdDelivery.id envelope subscription "plugin_not_found"
        "Plugin runtime target is unavailable."
  | some registryEntry => do
      let active ← awaitDelivery .listActiveSubscriptions
      match decideEventDelivery (some active) (policyContext registryEntry) envelope.topic
          (some subscription.contributionId) (subscription.requiredPermissions.getD []) with
      | .deny reasonCode message =>
          markPolicyFailure createdDelivery.id envelope subscription reasonCode.code message
      | .allow => deliverInLine createdDelivery envelope subscription

/-- The loop of `deliver` over the subscriptions. -/
def deliverToSubscriptions (envelope : PluginEventEnvelope) :
    List DeliverableSubscription → List PluginEventCandidateDeliveryResult →
      DeliveryProg PluginEventDeliveryEngineResult
  | [], deliveries => pure { ok := true, deliveries := deliveries }
  | subscription :: subscriptions, deliveries => do
      let deliveryResult ← deliverToSubscription envelope subscription
      if deliveryResult.2 then
        pure { ok := false, deliveries := deliveries ++ [deliveryResult.1],
               blockingFailure := some deliveryResult.1 }
      else deliverToSubscriptions envelope subscriptions (deliveries ++ [deliveryResult.1])

def deliver (envelope : PluginEventEnvelope) : DeliveryProg PluginEventDeliveryEngineResult := do
  let subscriptions ←
    awaitDelivery (.findMatchingSubscriptions envelope.topic envelope.payload)
  deliverToSubscriptions envelope subscriptions []

end PluginEventDeliveryEngine

/-! ## The worker -/

namespace PluginEventDeliveryWorker

def toSafeMessage (message : String) : String :=
  let trimmed := jsTrim message
  if trimmed.toList = [] then "Plugin event delivery failed."
  else if trimmed.toList.length > 256 then String.ofList (trimmed.toList.take 253) ++ "..."
  else trimmed

def eventRequest (delivery : PluginEventDelivery) : PluginRuntimeEventDeliveryRequest where
  pluginId := delivery.pluginId
  version := delivery.pluginVersion
  actorId := "plugin-event-delivery-worker"
  contributionId := delivery.contributionId
  topic := delivery.topic
  eventName := delivery.eventName
  payload := delivery.payload

section Worker

variable (toISOString : Int → String)

def processOneDelivery (delivery : PluginEventDelivery) : DeliveryProg Unit := do
  match ← deliverEvent delivery.id (eventRequest delivery) with
  | .ok () => do
      let now ← awaitDelivery .newDate
      let _ ← awaitDelivery (.markDelivered delivery.id now)
      pure ()
  | .error error =>
      recordFailure delivery error (toSafeMessage error.message) fun nextAttemptAt =>
        [("retryable", .bool true), ("nextAttemptAt", .str (toISOString nextAttemptAt))]

/-- The loop of a pass over the rows it claimed. -/
def processDeliveries : List PluginEventDelivery → DeliveryProg Unit
  | [] => pure ()
  | delivery :: deliveries => do
      processOneDelivery toISOString delivery
      processDeliveries deliveries

def processDueDeliveries (limit : Nat := 20) : DeliveryProg Nat := do
  let now ← awaitDelivery .newDate
  let dueDeliveries ← awaitDelivery (.claimDueDeliveries limit now)
  processDeliveries toISOString dueDeliveries
  pure dueDeliveries.length

end Worker

end PluginEventDeliveryWorker

/-! ## Systems of calls -/

/-- The calls on the deliveries. -/
inductive DeliveryCall where
  | deliver (envelope : PluginEventEnvelope)
  | processDueDeliveries (limit : Nat)

def DeliveryCall.program (toISOString : Int → String) : DeliveryCall → DeliveryProg Unit
  | .deliver envelope => do
      let _ ← PluginEventDeliveryEngine.deliver envelope
      pure ()
  | .processDueDeliveries limit => do
      let _ ← PluginEventDeliveryWorker.processDueDeliveries toISOString limit
      pure ()

abbrev DeliverySystem := Config Nat DeliveryOp DeliveryOp.Ans String Unit DeliveryStore

/-- The configuration before the first step; no row has been written yet. -/
def DeliverySystem.init (toISOString : Int → String) (w : DeliveryStore)
    (calls : Nat → DeliveryCall) : DeliverySystem :=
  Pool.start w.withoutRows fun t => (calls t).program toISOString

/-! ## Rows under the operations -/

namespace DeliveryStore

variable {w : DeliveryStore} {id : Nat}

variable {row : PluginEventDelivery}

theorem id_of_find (h : w.find id = some row) : row.id = id :=
  w.ids id row h

theorem find_of_mem (h : row ∈ w.deliveries) : w.find row.id = some row := by
  obtain ⟨i, hi⟩ := List.mem_iff_getElem?.1 h
  rw [w.ids i row hi]
  exact hi

theorem find_mapRows {f : PluginEventDelivery → PluginEventDelivery}
    {hf : ∀ row, (f row).id = row.id} : (w.mapRows f hf).find id = (w.find id).map f :=
  List.getElem?_map ..

theorem find_update {id' : Nat} {f : PluginEventDelivery → PluginEventDelivery}
    (hf : ∀ row, (f row).id = row.id) :
    (w.update id' f hf).find id = if id = id' then (w.find id).map f else w.find id := by
  rw [update, find_mapRows]
  cases hfind : w.find id with
  | none => simp
  | some row =>
      have hid := id_of_find hfind
      simp only [Option.map_some, hid]
      split <;> rfl

theorem find_markDelivered (marked : Nat) (deliveredAt : Int) :
    (w.markDelivered marked deliveredAt).find id =
      if id = marked then (w.find id).map (deliveredRow deliveredAt) else w.find id :=
  find_update (f := deliveredRow deliveredAt) fun _ => rfl

theorem find_markFailed (input : MarkFailedPluginEventDeliveryInput) :
    (w.markFailed input).find id =
      if id = input.id then (w.find id).map (failedRow input) else w.find id :=
  find_update (f := failedRow input) fun _ => rfl

theorem find_markDeadLettered (input : MarkDeadLetteredPluginEventDeliveryInput) :
    (w.markDeadLettered input).find id =
      if id = input.id then (w.find id).map (deadLetteredRow input (w.clock w.steps))
      else w.find id :=
  find_update (f := deadLetteredRow input (w.clock w.steps)) fun _ => rfl

theorem find_createPending {input : CreatePendingPluginEventDeliveryInput} :
    (w.createPending input).find id =
      if id = w.deliveries.length then some (input.entity id) else w.find id := by
  refine (TableRows.getElem?_append id).trans (ite_congr rfl (fun hid => ?_) fun _ => rfl)
  rw [hid]

theorem find_length : w.find w.deliveries.length = none := List.getElem?_eq_none (Nat.le_refl _)

variable {limit : Nat} {now : Int}

theorem find_claimDueDeliveries :
    (w.claimDueDeliveries limit now).find id =
      if id ∈ (w.dueDeliveries limit now).map fun due => due.id then
        (w.find id).map fun row => { row with status := .delivering }
      else w.find id := by
  rw [claimDueDeliveries, find_mapRows]
  cases hfind : w.find id with
  | none => simp
  | some row =>
      obtain rfl := id_of_find hfind
      rw [Option.map_some, Option.map_some]
      split <;> rfl

theorem mem_dueDeliveries (h : row ∈ w.dueDeliveries limit now) :
    w.find row.id = some row ∧ row.status ∈ claimableStatuses := by
  have hmem := (List.mem_insertionSort _).1 (List.mem_of_mem_take h)
  obtain ⟨hrow, hdue⟩ := List.mem_filter.1 hmem
  rw [Bool.and_eq_true, decide_eq_true_eq] at hdue
  exact ⟨find_of_mem hrow, hdue.1⟩

theorem ids_nodup : (w.deliveries.map fun row => row.id).Nodup := by
  have hrange : (w.deliveries.map fun row => row.id) = List.range w.deliveries.length := by
    apply List.ext_getElem?
    intro i
    rw [List.getElem?_map]
    rcases Nat.lt_or_ge i w.deliveries.length with hlt | hge
    · rw [List.getElem?_range hlt, List.getElem?_eq_getElem hlt, Option.map_some,
        w.ids i _ (List.getElem?_eq_getElem hlt)]
    · rw [List.getElem?_eq_none hge, List.getElem?_eq_none (by rw [List.length_range]; exact hge)]
      rfl
  rw [hrange]
  exact List.nodup_range

theorem dueDeliveries_nodup : ((w.dueDeliveries limit now).map fun row => row.id).Nodup := by
  have hperm := List.perm_insertionSort (fun row row' : PluginEventDelivery =>
    row.nextAttemptAt ≤ row'.nextAttemptAt) (w.deliveries.filter fun row =>
      row.status ∈ claimableStatuses && decide (row.nextAttemptAt ≤ now))
  have hsub : ((w.deliveries.filter fun row =>
      row.status ∈ claimableStatuses && decide (row.nextAttemptAt ≤ now)).map
        fun row => row.id).Nodup :=
    ids_nodup.sublist (List.filter_sublist.map _)
  exact ((hperm.map _).nodup_iff.2 hsub).sublist ((List.take_sublist _ _).map _)

end DeliveryStore

end Nexus
