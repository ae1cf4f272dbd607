import Nexus.Workflow.Definition
import Nexus.Lib.PathParts

/-!
# Plugin event topics

The topic catalog of plugin events: which topics and topic patterns are approved, whom a topic of
the namespace `plugin.` belongs to, and which topics a pattern matches. A topic is a text of
segments with dots in between; an id of a plugin may have dots of its own.
-/

set_option autoImplicit false

namespace Nexus

namespace EventTopics

def approvedExactTopics : List String :=
  ["workflow.run.started.v1", "workflow.run.completed.v1", "workflow.run.failed.v1",
    "workflow.step.started.v1", "workflow.step.completed.v1", "workflow.step.failed.v1",
    "tool.invoked.v1", "memory.recorded.v1"]

def suffixWildcard : String := ".*"

def pluginTopicPrefix : String := "plugin."

def startsWith (text start : String) : Bool := decide (start.toList <+: text.toList)

def endsWith (text ending : String) : Bool := decide (ending.toList <:+ text.toList)

/-- `topicPattern.slice(0, -SUFFIX_WILDCARD.length)`. -/
def withoutWildcard (text : String) : String :=
  String.ofList (text.toList.take (text.toList.length - suffixWildcard.toList.length))

/-! ## Segments and ids -/

/-- `[a-z0-9]`. -/
def isAlphanumeric (c : Char) : Bool := ('a' ≤ c && c ≤ 'z') || ('0' ≤ c && c ≤ '9')

/-- `/^[a-z0-9](?:[…]*[a-z0-9])?$/`, where `inner` is the class in the middle. -/
def isEnclosed (inner : Char → Bool) (cs : List Char) : Bool :=
  cs.head?.any isAlphanumeric && cs.getLast?.any isAlphanumeric && cs.all inner

/-- `TOPIC_SEGMENT_PATTERN`. -/
def isTopicSegment (cs : List Char) : Bool :=
  isEnclosed (fun c => isAlphanumeric c || c = '_' || c = '-') cs

/-- `PLUGIN_ID_PATTERN`. -/
def isPluginId (cs : List Char) : Bool :=
  isEnclosed (fun c => isAlphanumeric c || c = '_' || c = '.' || c = '-') cs

/-- `topic.split('.').filter((segment) => segment.length > 0)`. -/
def topicSegments (cs : List Char) : List (List Char) :=
  (cs.splitOn '.').filter fun segment => segment ≠ []

def isValidConcreteTopic (cs : List Char) : Bool :=
  1 < (topicSegments cs).length && (topicSegments cs).all isTopicSegment

def isAllowedEventTopicTail (eventTail : String) : Bool :=
  if eventTail = "" then false
  else if endsWith eventTail suffixWildcard then
    isValidConcreteTopic (withoutWildcard eventTail).toList
  else isValidConcreteTopic eventTail.toList

/-! ## Ownership -/

def isApprovedExactPluginEventTopic (topic : String) : Bool := topic ∈ approvedExactTopics

/-- The id of the plugin is what comes before the first dot after the prefix. -/
def isPluginNamespaceTopic (topic : String) : Bool :=
  if !startsWith topic pluginTopicPrefix then false
  else
    match (topic.toList.drop pluginTopicPrefix.toList.length).span (fun c => c ≠ '.') with
    | (_, []) => false
    | (pluginId, _ :: eventName) =>
        pluginId ≠ [] && isPluginId pluginId && isAllowedEventTopicTail (String.ofList eventName)

def doesPluginOwnNamespaceTopic (pluginId topic : String) : Bool :=
  if !isPluginId pluginId.toList || !isPluginNamespaceTopic topic then false
  else startsWith topic (pluginTopicPrefix ++ pluginId ++ ".")

def isApprovedTopicForPlugin (topic : String) (pluginId : Option String) : Bool :=
  if isApprovedExactPluginEventTopic topic then true
  else
    match pluginId with
    | none => false
    | some pluginId => if pluginId = "" then false else doesPluginOwnNamespaceTopic pluginId topic

/-! ## Patterns -/

def isValidTopicPattern (topicPattern : String) : Bool :=
  if topicPattern = "" || ('*' ∈ topicPattern.toList && !endsWith topicPattern suffixWildcard) then
    false
  else if endsWith topicPattern suffixWildcard then
    isValidConcreteTopic (withoutWildcard topicPattern).toList
  else isValidConcreteTopic topicPattern.toList

def matchesTopicPattern (topicPattern topic : String) : Bool :=
  if !isValidTopicPattern topicPattern then false
  else if !isValidConcreteTopic topic.toList then false
  else if endsWith topicPattern suffixWildcard then
    startsWith topic (withoutWildcard topicPattern ++ ".")
  else topicPattern = topic

def isApprovedTopicPatternForPlugin (topicPattern pluginId : String) : Bool :=
  if !isValidTopicPattern topicPattern then false
  else if endsWith topicPattern suffixWildcard then
    if startsWith (withoutWildcard topicPattern) pluginTopicPrefix then
      doesPluginOwnNamespaceTopic pluginId topicPattern
    else approvedExactTopics.any fun topic =>
      startsWith topic (withoutWildcard topicPattern ++ ".")
  else isApprovedTopicForPlugin topicPattern (some pluginId)

end EventTopics

/-! ## Ids of manifests -/

/-- An id that `pluginManifestSchema` gives: trimmed and not empty. -/
def PluginManifestId : Type := {id : String // id ≠ "" ∧ jsTrim id = id}

end Nexus
