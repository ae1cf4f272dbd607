import Nexus.Plugins.EventDeliveries

/-!
# Calls of the plugin runtime

`PluginRuntimeManagerService` resolves the registry entry of a plugin and the adapter of its
isolation mode, asks the policy, and calls the adapter with a time limit. A start, an invocation and
an event have a decision of their own in the policy; a health check and a shutdown are decided as
the delivery of an event of the topics `runtime.health` and `runtime.shutdown`.

`runtime_gate_iff`: no call passes the policy that should not, and no health check and no shutdown
passes it at all, for no plugin can receive these two topics.
-/

set_option autoImplicit false

namespace Nexus

open EventTopics

/-! ## Entries and their policy contexts -/

/-- The columns of `plugin_registry_entries` that a call of the runtime is decided on. -/
structure RuntimeRegistryEntry extends PluginRegistryEntry where
  contributions : List (List (String × Json)) := []
  metadata : Option (List (String × Json)) := none

namespace PluginRuntime

/-- `statusFromResult(entry.scan_result, 'not_scanned')`. -/
def scanStatusFromResult : Option String → PluginPolicyScanStatus
  | none => .notScanned
  | some "passed" => .passed
  | some "not_scanned" => .notScanned
  | some _ => .failed

/-- `statusFromResult(entry.compatibility_result, 'unknown')`. -/
def compatibilityStatusFromResult : Option String → PluginPolicyCompatibilityStatus
  | none => .unknown
  | some "passed" => .passed
  | some "unknown" => .unknown
  | some _ => .failed

/-- A property of the metadata. -/
def metadataValue (metadata : Option (List (String × Json))) (key : String) : Option Json :=
  metadata.bind (OrderedMap.get? · key)

/-- Every text that is not `healthy` is as good as `unhealthy` for the policy. -/
def runtimeHealthFromMetadata (metadata : Option (List (String × Json))) :
    PluginPolicyRuntimeHealth :=
  match metadataValue metadata "runtimeHealth" with
  | some (.str "healthy") => .healthy
  | some (.str "not_started") => .notStarted
  | some (.str "crash_loop") => .crashLoop
  | some (.str _) => .unhealthy
  | _ => .healthy

def isInvocationContributionType (type : Option Json) : Bool :=
  match type with
  | some (.str type) => type = "tool" || type = "workflow.step"
  | _ => false

/-- The operation of a contribution that can be invoked, with the id of the contribution. -/
def contributionOperation (contribution : List (String × Json)) : Option (String × String) :=
  if !isInvocationContributionType (OrderedMap.get? contribution "type") then none
  else
    match OrderedMap.get? contribution "id",
        (OrderedMap.get? contribution "config").bind (Json.field? · "operation") with
    | some (.str id), some (.str operation) => if operation = "" then none else some (id, operation)
    | _, _ => none

/-- `Object.keys(operations).length > 0 ? operations : undefined`. -/
def nonEmptyOperations (operations : List (String × List String)) :
    Option (List (String × List String)) :=
  if operations = [] then none else some operations

def supportedOperationsFromContributions (contributions : List (List (String × Json))) :
    Option (List (String × List String)) :=
  nonEmptyOperations <| (contributions.filterMap contributionOperation).foldl
    (fun operations entry => OrderedMap.set operations entry.1 [entry.2]) []

/-- The texts among the operations that are not empty. -/
def validOperations (operations : List Json) : List String :=
  operations.filterMap fun operation =>
    match operation with
    | .str operation => if operation = "" then none else some operation
    | _ => none

/-- An entry of the configured operations; what is no list or has no valid operation is left out. -/
def configuredOperation (entry : String × Json) : Option (String × List String) :=
  match entry.2 with
  | .arr operations =>
      if validOperations operations = [] then none else some (entry.1, validOperations operations)
  | _ => none

def supportedOperationsFromMetadata (metadata : Option (List (String × Json)))
    (contributions : List (List (String × Json))) : Option (List (String × List String)) :=
  match metadataValue metadata "supportedContributionOperations" with
  | some (.obj configured) =>
      match nonEmptyOperations (configured.filterMap configuredOperation) with
      | some operations => some operations
      | none => supportedOperationsFromContributions contributions
  | _ => supportedOperationsFromContributions contributions

def buildPolicyContext (entry : RuntimeRegistryEntry) : PluginPolicyContext where
  pluginId := entry.pluginId
  version := entry.version
  trustLevel := entry.trustLevel
  isolationMode := entry.isolationMode
  lifecycleState := entry.lifecycleState
  enabled := entry.enabled
  grantedPermissions := entry.grantedPermissions.getD []
  scanStatus := scanStatusFromResult entry.scanResult
  compatibilityStatus := compatibilityStatusFromResult entry.compatibilityResult
  runtimeHealth := runtimeHealthFromMetadata entry.metadata
  approvedUnsafeIsolation :=
    match metadataValue entry.metadata "approvedUnsafeIsolation" with
    | some (.bool true) => some true
    | _ => none
  contributions := entry.contributions
  supportedContributionOperations :=
    supportedOperationsFromMetadata entry.metadata entry.contributions

/-! ## Requests and results -/

structure BaseRequest where
  pluginId : String
  version : String
  actorId : String
  timeoutMs : Option Nat := none
  deriving DecidableEq

/-- A value that `JSON.stringify` is given: it has a text, is left out, or cannot be written. -/
inductive RuntimePayload where
  | json (value : Json)
  | undefined
  | notSerializable

structure InvokeRequest extends BaseRequest where
  contributionId : String
  operation : String
  input : RuntimePayload
  maxRequestBytes : Option Nat := none
  metadata : Option (List (String × Json)) := none

structure EventRequest extends BaseRequest where
  contributionId : Option String := none
  topic : String
  eventName : String
  payload : RuntimePayload
  requiredPermissions : Option (List String) := none
  maxRequestBytes : Option Nat := none

structure ShutdownRequest extends BaseRequest where
  reason : String
  deadlineMs : Option Nat := none

structure RuntimeError where
  code : String
  message : String
  retryable : Bool
  reasonCode : Option String := none
  deriving DecidableEq

/-- The result of an operation; a health check that succeeds says whether the plugin is healthy. -/
inductive OperationResult where
  | ok (healthy : Option Bool)
  | error (error : RuntimeError)
  deriving DecidableEq

def runtimeError (code message : String) (retryable : Bool) (reasonCode : Option String) :
    OperationResult :=
  .error { code, message, retryable, reasonCode }

/-- The operations of an adapter with what the manager passes on. -/
inductive AdapterCall where
  | start (request : BaseRequest)
  | invoke (request : InvokeRequest)
  | deliverEvent (request : EventRequest)
  | healthCheck (request : BaseRequest)
  | shutdown (request : ShutdownRequest)

/-- What becomes of an operation: it ends in time, after the time limit or never; `none` is a
rejection. -/
inductive AdapterOutcome where
  | inTime (result : Option OperationResult)
  | late (result : Option OperationResult)
  | never

/-- The calls of adapters, each with the mode of the adapter, and the result. -/
structure RuntimeReport where
  calls : List (PluginIsolationMode × AdapterCall) := []
  result : OperationResult

/-! ## Sizes -/

/-- A field of a payload, when there is one. -/
def payloadField (key : String) : RuntimePayload → Option (List (String × Json))
  | .json value => some [(key, value)]
  | .undefined => some []
  | .notSerializable => none

def numberField (key : String) : Option Nat → List (String × Json)
  | none => []
  | some n => [(key, .num n)]

def adapterBoundInvokePayload (request : InvokeRequest) : Option (List (String × Json)) :=
  (payloadField "input" request.input).map fun input =>
    [("pluginId", .str request.pluginId), ("version", .str request.version),
        ("actorId", .str request.actorId), ("contributionId", .str request.contributionId),
        ("operation", .str request.operation)] ++ input ++
      numberField "timeoutMs" request.timeoutMs ++
      numberField "maxRequestBytes" request.maxRequestBytes ++
      (request.metadata.map fun metadata => [("metadata", Json.obj metadata)]).getD []

def adapterBoundEventPayload (request : EventRequest) : Option (List (String × Json)) :=
  (payloadField "payload" request.payload).map fun payload =>
    [("pluginId", .str request.pluginId), ("version", .str request.version),
        ("actorId", .str request.actorId), ("topic", .str request.topic),
        ("eventName", .str request.eventName)] ++ payload ++
      numberField "timeoutMs" request.timeoutMs ++
      numberField "maxRequestBytes" request.maxRequestBytes

def defaultMaxRequestBytes : Nat := 1048576

def defaultTimeoutMs : Nat := 30000

/-- The error of a request that is too large or has no text. -/
def enforceRequestSize (payload : Option (List (String × Json))) (maxRequestBytes : Nat) :
    Option OperationResult :=
  match payload with
  | none =>
      some (runtimeError "request_not_serializable"
        "Plugin runtime request payload must be JSON serializable." false none)
  | some fields =>
      if maxRequestBytes < (jsonStringify (.obj fields)).utf8ByteSize then
        some (runtimeError "request_too_large"
          s!"Plugin runtime request payload exceeds {maxRequestBytes} bytes." false none)
      else none

/-! ## The manager -/

/-- The registry, with one entry for a plugin and version, the modes of the registered adapters and
the active subscriptions, where there is a projection of them. -/
structure RuntimeManager where
  registry : List RuntimeRegistryEntry
  adapters : List PluginIsolationMode
  subscriptions : Option (List PluginEventSubscription)
  registry_unique : (registry.map fun entry => (entry.pluginId, entry.version)).Nodup

namespace RuntimeManager

def findByPluginIdAndVersion (m : RuntimeManager) (pluginId version : String) :
    Option RuntimeRegistryEntry :=
  m.registry.find? fun entry => entry.pluginId = pluginId ∧ entry.version = version

/-- The text of an isolation mode in a message. -/
def modeText : PluginIsolationMode → String
  | .none => "none"
  | .workerProcess => "worker_process"
  | .container => "container"

/-- The entry of the request, when there is an adapter for its isolation mode. -/
def resolveRuntime (m : RuntimeManager) (request : BaseRequest) :
    Except OperationResult RuntimeRegistryEntry :=
  match m.findByPluginIdAndVersion request.pluginId request.version with
  | none =>
      .error (runtimeError "plugin_not_found"
        s!"Plugin {request.pluginId}@{request.version} is not registered." false none)
  | some entry =>
      if entry.isolationMode ∈ m.adapters then .ok entry
      else
        .error (runtimeError "adapter_not_found"
          ("No plugin runtime adapter is registered for isolation mode " ++
            modeText entry.isolationMode ++ ".") false none)

def denyRuntimeCall (reasonCode : PluginPolicyReasonCode) (message : String) : OperationResult :=
  runtimeError "policy_denied" message false (some reasonCode.code)

def normalizeAdapterResult : OperationResult → OperationResult
  | .ok healthy => .ok healthy
  | .error error =>
      runtimeError (if error.code = "adapter_failed" then error.code else "runtime_error")
        "Plugin runtime call failed." error.retryable none

def normalizeAdapterError : OperationResult :=
  runtimeError "runtime_error" "Plugin runtime call failed." true none

def isOk : OperationResult → Bool
  | .ok _ => true
  | .error _ => false

/-- The call and its result within the time limit. `onLateSuccess` is called when the operation
succeeds after the limit. -/
def executeRuntimeOperation (entry : RuntimeRegistryEntry) (adapterCall : AdapterCall)
    (timeoutMs : Option Nat) (outcome : AdapterOutcome)
    (onLateSuccess : Option AdapterCall) : RuntimeReport :=
  let timeoutError := runtimeError "runtime_timeout"
    s!"Plugin runtime call timed out after {timeoutMs.getD defaultTimeoutMs}ms." true none
  match outcome with
  | .inTime result =>
      { calls := [(entry.isolationMode, adapterCall)]
        result := (result.map normalizeAdapterResult).getD normalizeAdapterError }
  | .never => { calls := [(entry.isolationMode, adapterCall)], result := timeoutError }
  | .late result =>
      let cleanup := if result.any isOk then onLateSuccess.toList else []
      { calls := (adapterCall :: cleanup).map (entry.isolationMode, ·), result := timeoutError }

/-- The adapter is called when the entry and its adapter are found and the policy allows it. -/
def guarded (m : RuntimeManager) (request : BaseRequest)
    (decision : PluginPolicyContext → PluginPolicyDecision)
    (execute : RuntimeRegistryEntry → RuntimeReport) : RuntimeReport :=
  match m.resolveRuntime request with
  | .error result => { result }
  | .ok entry =>
      match decision (buildPolicyContext entry) with
      | .deny reasonCode message => { result := denyRuntimeCall reasonCode message }
      | .allow => execute entry

def startPlugin (m : RuntimeManager) (request : BaseRequest) (outcome : AdapterOutcome) :
    RuntimeReport :=
  m.guarded request PluginPolicy.decideRuntimeStart fun entry =>
    executeRuntimeOperation entry (.start request) request.timeoutMs outcome
      (some (.shutdown { request with timeoutMs := none, reason := "startup-timeout-cleanup" }))

def invokePlugin (m : RuntimeManager) (request : InvokeRequest) (outcome : AdapterOutcome) :
    RuntimeReport :=
  match enforceRequestSize (adapterBoundInvokePayload request)
      (request.maxRequestBytes.getD defaultMaxRequestBytes) with
  | some result => { result }
  | none =>
      m.guarded request.toBaseRequest
        (PluginPolicy.decideRuntimeInvocation · request.contributionId request.operation)
        fun entry =>
          executeRuntimeOperation entry (.invoke request) request.timeoutMs outcome none

def deliverEvent (m : RuntimeManager) (request : EventRequest) (outcome : AdapterOutcome) :
    RuntimeReport :=
  match enforceRequestSize (adapterBoundEventPayload request)
      (request.maxRequestBytes.getD defaultMaxRequestBytes) with
  | some result => { result }
  | none =>
      m.guarded request.toBaseRequest
        (PluginPolicy.decideEventDelivery m.subscriptions · request.topic request.contributionId
          (request.requiredPermissions.getD []))
        fun entry =>
          executeRuntimeOperation entry (.deliverEvent request) request.timeoutMs outcome none

def checkHealth (m : RuntimeManager) (request : BaseRequest) (outcome : AdapterOutcome) :
    RuntimeReport :=
  m.guarded request
    (PluginPolicy.decideEventDelivery m.subscriptions · "runtime.health" none [])
    fun entry => executeRuntimeOperation entry (.healthCheck request) request.timeoutMs outcome none

def shutdownPlugin (m : RuntimeManager) (request : ShutdownRequest) (outcome : AdapterOutcome) :
    RuntimeReport :=
  m.guarded request.toBaseRequest
    (PluginPolicy.decideEventDelivery m.subscriptions · "runtime.shutdown" none [])
    fun entry => executeRuntimeOperation entry (.shutdown request) request.timeoutMs outcome none

end RuntimeManager

/-! ## The gate -/

/-- The isolation mode is one that the trust level permits. -/
def PermitsIsolation (entry : RuntimeRegistryEntry) : Prop :=
  entry.isolationMode ≠ .none ∨ entry.trustLevel = .bundled ∨
    (entry.trustLevel = .localTrusted ∧
      (buildPolicyContext entry).approvedUnsafeIsolation = some true)

/-- The entry may run. -/
structure MayRun (entry : RuntimeRegistryEntry) : Prop where
  enabled : entry.enabled = true
  lifecycleState : entry.lifecycleState = .enabled
  trustLevel : entry.trustLevel ≠ .quarantined
  scan : entry.scanResult = some "passed"
  compatibility : entry.compatibilityResult = some "passed"
  isolation : PermitsIsolation entry

def IsHealthy (entry : RuntimeRegistryEntry) : Prop :=
  runtimeHealthFromMetadata entry.metadata = .healthy

section Policy

variable {entry : RuntimeRegistryEntry} {context : PluginPolicyContext}

theorem scanStatusFromResult_eq_passed {result : Option String} :
    scanStatusFromResult result = .passed ↔ result = some "passed" := by
  unfold scanStatusFromResult
  split <;> simp_all

theorem compatibilityStatusFromResult_eq_passed {result : Option String} :
    compatibilityStatusFromResult result = .passed ↔ result = some "passed" := by
  unfold compatibilityStatusFromResult
  split <;> simp_all

@[simp] theorem allowed_deny (reasonCode : PluginPolicyReasonCode) :
    (PluginPolicy.deny reasonCode).allowed = false := rfl

@[simp] theorem allowed_allow : PluginPolicyDecision.allow.allowed = true := rfl

theorem decideIsolation_allowed_iff :
    (PluginPolicy.decideIsolation (buildPolicyContext entry) entry.isolationMode).allowed = true ↔
      PermitsIsolation entry := by
  have htrust : (buildPolicyContext entry).trustLevel = entry.trustLevel := rfl
  unfold PluginPolicy.decideIsolation PermitsIsolation
  rw [htrust]
  by_cases hmode : entry.isolationMode = .none
  · rw [if_neg (not_not.2 hmode)]
    cases entry.trustLevel with
    | localTrusted =>
        by_cases happroved : (buildPolicyContext entry).approvedUnsafeIsolation = some true
        · simp [happroved]
        · simp [hmode, happroved]
    | bundled => simp
    | thirdParty => simp [hmode]
    | quarantined => simp [hmode]
  · simp [hmode]

theorem decideTrust_allowed_iff :
    (PluginPolicy.decideTrust (buildPolicyContext entry)).allowed = true ↔
      entry.trustLevel ≠ .quarantined := by
  have htrust : (buildPolicyContext entry).trustLevel = entry.trustLevel := rfl
  rw [PluginPolicy.decideTrust, htrust]
  by_cases hquarantined : entry.trustLevel = .quarantined
  · simp [hquarantined]
  · simp [hquarantined]

theorem decideStaticSafety_allowed_iff :
    (PluginPolicy.decideStaticSafety (buildPolicyContext entry)).allowed = true ↔
      entry.trustLevel ≠ .quarantined ∧ entry.scanResult = some "passed" ∧
        entry.compatibilityResult = some "passed" ∧ PermitsIsolation entry := by
  have hscan : (buildPolicyContext entry).scanStatus = .passed ↔
      entry.scanResult = some "passed" := scanStatusFromResult_eq_passed
  have hcompatibility : (buildPolicyContext entry).compatibilityStatus = .passed ↔
      entry.compatibilityResult = some "passed" := compatibilityStatusFromResult_eq_passed
  have hmode : (buildPolicyContext entry).isolationMode = entry.isolationMode := rfl
  rw [← decideIsolation_allowed_iff, ← decideTrust_allowed_iff, ← hscan, ← hcompatibility,
    PluginPolicy.decideStaticSafety, hmode]
  cases htrust : (PluginPolicy.decideTrust (buildPolicyContext entry)).allowed with
  | false => simp [htrust]
  | true =>
      by_cases hpassed : (buildPolicyContext entry).scanStatus = .passed
      · by_cases hpassed' : (buildPolicyContext entry).compatibilityStatus = .passed
        · simp [hpassed, hpassed']
        · simp [hpassed, hpassed']
      · simp [hpassed]

/-- The checks on the state of a plugin. -/
theorem decideRuntimeActivity_allowed_iff :
    (PluginPolicy.decideRuntimeActivity (buildPolicyContext entry)).allowed = true ↔
      MayRun entry ∧ IsHealthy entry := by
  have hactivity : (PluginPolicy.decideRuntimeActivity (buildPolicyContext entry)).allowed = true ↔
      (PluginPolicy.decideStaticSafety (buildPolicyContext entry)).allowed = true ∧
        entry.enabled = true ∧ entry.lifecycleState = .enabled ∧ IsHealthy entry := by
    have henabled : (buildPolicyContext entry).enabled = entry.enabled := rfl
    have hlifecycle : (buildPolicyContext entry).lifecycleState = entry.lifecycleState := rfl
    have hhealth : (buildPolicyContext entry).runtimeHealth =
        runtimeHealthFromMetadata entry.metadata := rfl
    rw [PluginPolicy.decideRuntimeActivity, henabled, hlifecycle, hhealth, IsHealthy]
    cases hsafety : (PluginPolicy.decideStaticSafety (buildPolicyContext entry)).allowed with
    | false => simp [hsafety]
    | true =>
        by_cases hactive : entry.enabled = true ∧ entry.lifecycleState = .enabled
        · by_cases hhealthy : runtimeHealthFromMetadata entry.metadata = .healthy
          · simp [hactive.1, hactive.2, hhealthy]
          · simp [hactive.1, hactive.2, hhealthy]
        · cases henabled : entry.enabled with
          | false => simp
          | true =>
              have hstate : entry.lifecycleState ≠ .enabled := fun h => hactive ⟨henabled, h⟩
              simp [hstate]
  rw [hactivity, decideStaticSafety_allowed_iff]
  constructor
  · rintro ⟨⟨htrust, hscan, hcompatibility, hisolation⟩, henabled, hlifecycle, hhealthy⟩
    exact ⟨⟨henabled, hlifecycle, htrust, hscan, hcompatibility, hisolation⟩, hhealthy⟩
  · rintro ⟨⟨henabled, hlifecycle, htrust, hscan, hcompatibility, hisolation⟩, hhealthy⟩
    exact ⟨⟨htrust, hscan, hcompatibility, hisolation⟩, henabled, hlifecycle, hhealthy⟩

theorem activity_of_decideRuntimeInvocation {contributionId operation : String}
    (h : (PluginPolicy.decideRuntimeInvocation context contributionId operation).allowed = true) :
    (PluginPolicy.decideRuntimeActivity context).allowed = true := by
  by_contra hdenied
  unfold PluginPolicy.decideRuntimeInvocation at h
  rw [Bool.not_eq_true] at hdenied
  simp [hdenied] at h

theorem activity_of_decideEventDelivery {subscriptions : Option (List PluginEventSubscription)}
    {topic : String} {contributionId : Option String} {requiredPermissions : List String}
    (h : (PluginPolicy.decideEventDelivery subscriptions context topic contributionId
      requiredPermissions).allowed = true) :
    (PluginPolicy.decideRuntimeActivity context).allowed = true := by
  by_contra hdenied
  unfold PluginPolicy.decideEventDelivery at h
  rw [Bool.not_eq_true] at hdenied
  simp [hdenied] at h

/-- A topic that is neither approved nor of the namespace of plugins is delivered to no plugin. -/
theorem decideEventDelivery_of_foreign {topic : String}
    (happroved : isApprovedExactPluginEventTopic topic = false)
    (hnamespace : isPluginNamespaceTopic topic = false)
    (subscriptions : Option (List PluginEventSubscription)) (context : PluginPolicyContext)
    (contributionId : Option String) (requiredPermissions : List String) :
    (PluginPolicy.decideEventDelivery subscriptions context topic contributionId
      requiredPermissions).allowed = false := by
  have howns : doesPluginOwnNamespaceTopic context.pluginId topic = false := by
    simp [doesPluginOwnNamespaceTopic, hnamespace]
  have hforeign : isApprovedTopicForPlugin topic (some context.pluginId) = false := by
    simp [isApprovedTopicForPlugin, happroved, howns]
  unfold PluginPolicy.decideEventDelivery
  cases hactivity : (PluginPolicy.decideRuntimeActivity context).allowed with
  | true => simp [hactivity, hforeign]
  | false => simp [hactivity]

end Policy

/-! ## What reaches an adapter -/

/-- A request to the manager. -/
inductive RuntimeRequest where
  | start (request : BaseRequest)
  | invoke (request : InvokeRequest)
  | event (request : EventRequest)
  | health (request : BaseRequest)
  | shutdown (request : ShutdownRequest)

def RuntimeRequest.base : RuntimeRequest → BaseRequest
  | .start request => request
  | .invoke request => request.toBaseRequest
  | .event request => request.toBaseRequest
  | .health request => request
  | .shutdown request => request.toBaseRequest

/-- The request names the plugin and version of the entry. -/
def BaseRequest.Names (request : BaseRequest) (entry : RuntimeRegistryEntry) : Prop :=
  entry.pluginId = request.pluginId ∧ entry.version = request.version

namespace RuntimeManager

def serve (m : RuntimeManager) (request : RuntimeRequest) (outcome : AdapterOutcome) :
    RuntimeReport :=
  match request with
  | .start request => m.startPlugin request outcome
  | .invoke request => m.invokePlugin request outcome
  | .event request => m.deliverEvent request outcome
  | .health request => m.checkHealth request outcome
  | .shutdown request => m.shutdownPlugin request outcome

/-- Calls of an adapter are made for entries that may run. -/
def OnlyGated (m : RuntimeManager) : Prop :=
  ∀ request outcome, ∀ call ∈ (m.serve request outcome).calls,
    ∃ entry ∈ m.registry, request.base.Names entry ∧ call.1 = entry.isolationMode ∧ MayRun entry

/-- Health checks and shutdowns reach the adapter of an entry that may run and is healthy. -/
def ReachesAdapter (m : RuntimeManager) : Prop :=
  ∀ entry ∈ m.registry, MayRun entry → IsHealthy entry → entry.isolationMode ∈ m.adapters →
    (∀ (request : BaseRequest) outcome, request.Names entry →
        (entry.isolationMode, .healthCheck request) ∈ (m.serve (.health request) outcome).calls) ∧
      ∀ (request : ShutdownRequest) outcome, request.toBaseRequest.Names entry →
        (entry.isolationMode, .shutdown request) ∈ (m.serve (.shutdown request) outcome).calls

variable {m : RuntimeManager}

theorem findByPluginIdAndVersion_some {pluginId version : String} {entry : RuntimeRegistryEntry}
    (h : m.findByPluginIdAndVersion pluginId version = some entry) :
    entry ∈ m.registry ∧ entry.pluginId = pluginId ∧ entry.version = version :=
  ⟨List.mem_of_find?_eq_some h, by simpa using List.find?_some h⟩

/-- A call goes to the adapter of the entry that the request names, and the decision allowed it. -/
theorem mem_calls_guarded {request : BaseRequest}
    {decision : PluginPolicyContext → PluginPolicyDecision}
    {execute : RuntimeRegistryEntry → RuntimeReport} {call : PluginIsolationMode × AdapterCall}
    (h : call ∈ (m.guarded request decision execute).calls) :
    ∃ entry ∈ m.registry, request.Names entry ∧
      (decision (buildPolicyContext entry)).allowed = true ∧ call ∈ (execute entry).calls := by
  unfold guarded resolveRuntime at h
  cases hfind : m.findByPluginIdAndVersion request.pluginId request.version with
  | none =>
      rw [hfind] at h
      nomatch h
  | some entry =>
      obtain ⟨hmem, hid, hversion⟩ := findByPluginIdAndVersion_some hfind
      rw [hfind] at h
      by_cases hadapter : entry.isolationMode ∈ m.adapters
      · simp only [if_pos hadapter] at h
        cases hdecision : decision (buildPolicyContext entry) with
        | deny reasonCode message =>
            rw [hdecision] at h
            nomatch h
        | allow =>
            rw [hdecision] at h
            exact ⟨entry, hmem, ⟨hid, hversion⟩, by rw [hdecision]; rfl, h⟩
      · simp only [if_neg hadapter] at h
        nomatch h

theorem mode_of_mem_calls {entry : RuntimeRegistryEntry} {adapterCall : AdapterCall}
    {timeoutMs : Option Nat} {outcome : AdapterOutcome} {onLateSuccess : Option AdapterCall}
    {call : PluginIsolationMode × AdapterCall}
    (h : call ∈ (executeRuntimeOperation entry adapterCall timeoutMs outcome onLateSuccess).calls) :
    call.1 = entry.isolationMode := by
  cases outcome with
  | inTime result => rw [List.mem_singleton.1 h]
  | never => rw [List.mem_singleton.1 h]
  | late result =>
      obtain ⟨adapterCall', -, rfl⟩ := List.mem_map.1 h
      rfl

/-- No call passes the policy for an entry that may not run. -/
theorem onlyGated (m : RuntimeManager) : m.OnlyGated := by
  intro request outcome call hcall
  have hgate : ∀ {base : BaseRequest} {decision : PluginPolicyContext → PluginPolicyDecision}
      {adapterCall : AdapterCall} {timeoutMs : Option Nat} {onLateSuccess : Option AdapterCall},
      (∀ context, (decision context).allowed = true →
        (PluginPolicy.decideRuntimeActivity context).allowed = true) →
      call ∈ (m.guarded base decision fun entry =>
        executeRuntimeOperation entry adapterCall timeoutMs outcome onLateSuccess).calls →
      ∃ entry ∈ m.registry, base.Names entry ∧ call.1 = entry.isolationMode ∧ MayRun entry := by
    intro base decision adapterCall timeoutMs onLateSuccess hactivity hcall
    obtain ⟨entry, hmem, hnames, hallowed, hcall⟩ := mem_calls_guarded hcall
    have hrun := decideRuntimeActivity_allowed_iff.1 (hactivity _ hallowed)
    exact ⟨entry, hmem, hnames, mode_of_mem_calls hcall, hrun.1⟩
  cases request with
  | start request => exact hgate (fun _ => id) hcall
  | invoke request =>
      change call ∈ (m.invokePlugin request outcome).calls at hcall
      unfold invokePlugin at hcall
      split at hcall
      · nomatch hcall
      · exact hgate (fun _ => activity_of_decideRuntimeInvocation) hcall
  | event request =>
      change call ∈ (m.deliverEvent request outcome).calls at hcall
      unfold deliverEvent at hcall
      split at hcall
      · nomatch hcall
      · exact hgate (fun _ => activity_of_decideEventDelivery) hcall
  | health request => exact hgate (fun _ => activity_of_decideEventDelivery) hcall
  | shutdown request => exact hgate (fun _ => activity_of_decideEventDelivery) hcall

/-- No health check reaches an adapter: its topic is neither approved nor of a plugin. -/
theorem calls_checkHealth (m : RuntimeManager) (request : BaseRequest) (outcome : AdapterOutcome) :
    (m.checkHealth request outcome).calls = [] := by
  rw [List.eq_nil_iff_forall_not_mem]
  intro call hcall
  obtain ⟨entry, -, -, hallowed, -⟩ := mem_calls_guarded hcall
  rw [decideEventDelivery_of_foreign (by decide +kernel) (by decide +kernel)] at hallowed
  nomatch hallowed

theorem calls_shutdownPlugin (m : RuntimeManager) (request : ShutdownRequest)
    (outcome : AdapterOutcome) : (m.shutdownPlugin request outcome).calls = [] := by
  rw [List.eq_nil_iff_forall_not_mem]
  intro call hcall
  obtain ⟨entry, -, -, hallowed, -⟩ := mem_calls_guarded hcall
  rw [decideEventDelivery_of_foreign (by decide +kernel) (by decide +kernel)] at hallowed
  nomatch hallowed

/-- **The gate of the runtime.** Calls are made only for entries that may run; health checks and
shutdowns reach the adapters that they should exactly when there is no entry whose health could be
checked. -/
theorem runtime_gate_iff (m : RuntimeManager) :
    m.OnlyGated ∧ m.ReachesAdapter ↔
      ∀ entry ∈ m.registry, ¬ (MayRun entry ∧ IsHealthy entry ∧
        entry.isolationMode ∈ m.adapters) := by
  constructor
  · rintro ⟨-, hreaches⟩ entry hmem ⟨hrun, hhealthy, hadapter⟩
    have hcall := (hreaches entry hmem hrun hhealthy hadapter).1
      { pluginId := entry.pluginId, version := entry.version, actorId := "" } .never ⟨rfl, rfl⟩
    rw [serve, calls_checkHealth] at hcall
    nomatch hcall
  · intro hnone
    exact ⟨m.onlyGated, fun entry hmem hrun hhealthy hadapter =>
      absurd ⟨hrun, hhealthy, hadapter⟩ (hnone entry hmem)⟩

/-- A registry with one plugin that runs. -/
def healthyPlugin : RuntimeManager where
  registry := [{
    pluginId := "com.acme.workflow-tools"
    version := "1.2.3"
    trustLevel := .localTrusted
    isolationMode := .workerProcess
    lifecycleState := .enabled
    enabled := true
    grantedPermissions := none
    scanResult := some "passed"
    compatibilityResult := some "passed" }]
  adapters := [.none, .workerProcess, .container]
  subscriptions := none
  registry_unique := by decide

theorem healthy_plugin_cannot_be_stopped :
    ¬ (healthyPlugin.OnlyGated ∧ healthyPlugin.ReachesAdapter) := by
  rintro ⟨-, hreaches⟩
  have hrun : ∀ entry ∈ healthyPlugin.registry, MayRun entry := by
    intro entry hmem
    rw [List.mem_singleton.1 hmem]
    exact ⟨rfl, rfl, by decide, rfl, rfl, .inl (by decide)⟩
  have hcall := (hreaches _ List.mem_cons_self (hrun _ List.mem_cons_self) rfl (by decide)).2
    { pluginId := "com.acme.workflow-tools", version := "1.2.3", actorId := "operator-1",
      reason := "operator-request" } .never ⟨rfl, rfl⟩
  rw [serve, calls_shutdownPlugin] at hcall
  nomatch hcall

end RuntimeManager

end PluginRuntime

end Nexus
