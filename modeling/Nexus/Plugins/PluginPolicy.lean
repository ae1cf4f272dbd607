import Nexus.Plugins.EventTopics
import Nexus.Lib.Json

/-!
# The policy of event deliveries and runtime calls

`decideEventDelivery`, `decideRuntimeStart` and `decideRuntimeInvocation` of the plugin policy
service, with the checks on the state of the plugin that come before the checks on the topic, on the
subscription and on the contribution.
-/

set_option autoImplicit false

namespace Nexus

open EventTopics

/-! ## The context of a decision -/

inductive PluginTrustLevel where
  | bundled
  | localTrusted
  | thirdParty
  | quarantined
  deriving DecidableEq, Repr

inductive PluginIsolationMode where
  | none
  | workerProcess
  | container
  deriving DecidableEq, Repr

inductive PluginLifecycleState where
  | discovered
  | installed
  | scanned
  | enabled
  | disabled
  | quarantined
  | uninstalled
  deriving DecidableEq, Repr

inductive PluginPolicyScanStatus where
  | notScanned
  | passed
  | failed
  deriving DecidableEq, Repr

inductive PluginPolicyCompatibilityStatus where
  | unknown
  | passed
  | failed
  deriving DecidableEq, Repr

inductive PluginPolicyRuntimeHealth where
  | notStarted
  | healthy
  | unhealthy
  | crashLoop
  deriving DecidableEq, Repr

inductive PluginPermission where
  | network (hosts : List String)
  | filesystem (access : String) (paths : List String)
  | environment (names : List String)
  | secrets (names : List String)
  | internalCapability (capabilities : List String)
  deriving DecidableEq, Repr

/-- The part of `PluginPolicyContext` that the modelled decisions read. -/
structure PluginPolicyContext where
  pluginId : String
  version : String
  trustLevel : PluginTrustLevel
  isolationMode : PluginIsolationMode
  lifecycleState : PluginLifecycleState
  enabled : Bool
  grantedPermissions : List PluginPermission
  scanStatus : PluginPolicyScanStatus
  compatibilityStatus : PluginPolicyCompatibilityStatus
  runtimeHealth : PluginPolicyRuntimeHealth
  approvedUnsafeIsolation : Option Bool := none
  contributions : List (List (String × Json)) := []
  supportedContributionOperations : Option (List (String × List String)) := none

/-- What the policy reads of an active subscription. -/
structure PluginEventSubscription where
  pluginId : String
  version : String
  contributionId : String
  topics : List String
  deriving DecidableEq, Repr

/-! ## Decisions -/

/-- The reasons for which the modelled decisions deny. -/
inductive PluginPolicyReasonCode where
  | quarantinedTrust
  | unsafeIsolationForTrustLevel
  | unsafeIsolationOverrideRequired
  | scanRequired
  | compatibilityFailed
  | pluginDisabled
  | runtimeUnhealthy
  | permissionNotGranted
  | networkHostNotGranted
  | contributionNotDeclared
  | unsupportedContributionOperation
  | eventTopicNotApproved
  | eventSubscriptionNotDeclared
  | eventTopicNotSubscribed
  | eventNamespaceNotOwned
  deriving DecidableEq, Repr

/-- `DENIAL_MESSAGES`. -/
def PluginPolicyReasonCode.message : PluginPolicyReasonCode → String
  | .quarantinedTrust => "Quarantined plugins cannot perform this action."
  | .unsafeIsolationForTrustLevel =>
      "Selected isolation mode is not allowed for this plugin trust level."
  | .unsafeIsolationOverrideRequired =>
      "Unsafe local plugin isolation requires an explicit operator override."
  | .scanRequired => "Plugin must pass scan before this action is allowed."
  | .compatibilityFailed => "Plugin compatibility must pass before this action is allowed."
  | .pluginDisabled => "Plugin must be enabled before this action is allowed."
  | .runtimeUnhealthy => "Plugin runtime is not healthy enough for this action."
  | .permissionNotGranted => "Required plugin permission was not granted."
  | .networkHostNotGranted => "Network host is not included in granted plugin permissions."
  | .contributionNotDeclared => "Contribution is not declared by this plugin."
  | .unsupportedContributionOperation =>
      "Contribution operation is not supported by this plugin policy."
  | .eventTopicNotApproved => "Event topic is not approved by plugin policy."
  | .eventSubscriptionNotDeclared =>
      "Event subscription contribution is not declared for this plugin."
  | .eventTopicNotSubscribed => "Event topic is not covered by the subscription topic patterns."
  | .eventNamespaceNotOwned =>
      "Plugin cannot receive extension events for another plugin namespace."

inductive PluginPolicyDecision where
  | allow
  | deny (reasonCode : PluginPolicyReasonCode) (message : String)
  deriving DecidableEq, Repr

def PluginPolicyDecision.allowed : PluginPolicyDecision → Bool
  | .allow => true
  | .deny _ _ => false

namespace PluginPolicy

def deny (reasonCode : PluginPolicyReasonCode) : PluginPolicyDecision :=
  .deny reasonCode reasonCode.message

def decideTrust (context : PluginPolicyContext) : PluginPolicyDecision :=
  if context.trustLevel = .quarantined then deny .quarantinedTrust else .allow

def decideIsolation (context : PluginPolicyContext) (isolationMode : PluginIsolationMode) :
    PluginPolicyDecision :=
  if isolationMode ≠ .none then .allow
  else if context.trustLevel = .bundled then .allow
  else if context.trustLevel = .localTrusted then
    if context.approvedUnsafeIsolation = some true then .allow
    else deny .unsafeIsolationOverrideRequired
  else deny .unsafeIsolationForTrustLevel

def decideStaticSafety (context : PluginPolicyContext) : PluginPolicyDecision :=
  let trustDecision := decideTrust context
  if !trustDecision.allowed then trustDecision
  else if context.scanStatus ≠ .passed then deny .scanRequired
  else if context.compatibilityStatus ≠ .passed then deny .compatibilityFailed
  else decideIsolation context context.isolationMode

def decideRuntimeActivity (context : PluginPolicyContext) : PluginPolicyDecision :=
  let safetyDecision := decideStaticSafety context
  if !safetyDecision.allowed then safetyDecision
  else if !context.enabled || context.lifecycleState ≠ .enabled then deny .pluginDisabled
  else if context.runtimeHealth ≠ .healthy then deny .runtimeUnhealthy
  else .allow

def decideRuntimeStart (context : PluginPolicyContext) : PluginPolicyDecision :=
  decideRuntimeActivity context

/-- `context.supportedContributionOperations?.[contributionId] ?? []`. -/
def supportedOperations (context : PluginPolicyContext) (contributionId : String) : List String :=
  (context.supportedContributionOperations.bind
    (OrderedMap.get? · contributionId)).getD []

/-- `contribution.id === contributionId`. -/
def hasContributionId (contributionId : String) (contribution : List (String × Json)) : Bool :=
  match OrderedMap.get? contribution "id" with
  | some (.str id) => id = contributionId
  | _ => false

def decideRuntimeInvocation (context : PluginPolicyContext) (contributionId operation : String) :
    PluginPolicyDecision :=
  let activityDecision := decideRuntimeActivity context
  if !activityDecision.allowed then activityDecision
  else if !context.contributions.any (hasContributionId contributionId) then
    deny .contributionNotDeclared
  else if operation ∉ supportedOperations context contributionId then
    deny .unsupportedContributionOperation
  else .allow

def grantedInternalCapabilities (context : PluginPolicyContext) : List String :=
  context.grantedPermissions.flatMap fun permission =>
    match permission with
    | .internalCapability capabilities => capabilities
    | _ => []

/-- `'internal_capability:name'` is written as `name` in the grants. -/
def normalizedPermission (requiredPermission : String) : String :=
  if startsWith requiredPermission "internal_capability:" then
    String.ofList (requiredPermission.toList.drop "internal_capability:".toList.length)
  else requiredPermission

def hasRequiredCapabilityPermissions (context : PluginPolicyContext)
    (requiredPermissions : List String) : Bool :=
  requiredPermissions.all fun permission =>
    normalizedPermission permission ∈ grantedInternalCapabilities context

/-- The checks on the subscription that an event is delivered to; `subscriptions` is `none` where
the service has no projection. -/
def decideSubscription (subscriptions : Option (List PluginEventSubscription))
    (context : PluginPolicyContext) (topic contributionId : String)
    (requiredPermissions : List String) : PluginPolicyDecision :=
  match subscriptions with
  | none => deny .eventSubscriptionNotDeclared
  | some active =>
      match active.find? fun candidate => candidate.pluginId = context.pluginId ∧
          candidate.version = context.version ∧ candidate.contributionId = contributionId with
      | none => deny .eventSubscriptionNotDeclared
      | some subscription =>
          if !subscription.topics.any fun pattern => matchesTopicPattern pattern topic then
            deny .eventTopicNotSubscribed
          else if !hasRequiredCapabilityPermissions context requiredPermissions then
            deny .permissionNotGranted
          else .allow

def decideEventDelivery (subscriptions : Option (List PluginEventSubscription))
    (context : PluginPolicyContext) (topic : String) (contributionId : Option String)
    (requiredPermissions : List String) : PluginPolicyDecision :=
  let activityDecision := decideRuntimeActivity context
  if !activityDecision.allowed then activityDecision
  else if !isApprovedTopicForPlugin topic (some context.pluginId) then
    deny .eventTopicNotApproved
  else if startsWith topic "plugin." && !doesPluginOwnNamespaceTopic context.pluginId topic then
    deny .eventNamespaceNotOwned
  else
    match contributionId with
    | none => .allow
    | some contributionId =>
        -- an empty id is no id
        if contributionId = "" then .allow
        else decideSubscription subscriptions context topic contributionId requiredPermissions

end PluginPolicy

end Nexus
