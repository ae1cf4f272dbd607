import Nexus.Lib.RankedChoice
import Nexus.Tools.PolicyEvaluator
import Mathlib

/-!
# Tool approval rules

`ToolApprovalRuleService` chooses one of the active rules of a tool for a context: among the rules
in scope, in the order of the scope and of the priority, the first whose argument patterns match.
Before a call there is no payload, and only rules without patterns are looked at. The engine of the
regular expressions is a parameter, as for the policy evaluator.
-/

set_option autoImplicit false

namespace Nexus

/-! ## Rules -/

inductive ArgumentOperator where
  | eq
  | contains
  | regex
  | glob
  | other (text : String)
  deriving DecidableEq, Repr

structure ArgumentPattern where
  path : String
  operator : ArgumentOperator
  value : String
  deriving DecidableEq, Repr

inductive ToolApprovalRuleScope where
  | global
  | project
  | agent_profile
  | workflow_run
  | chat_session
  | scope_node
  | other (text : String)
  deriving DecidableEq, Repr

inductive ToolApprovalRuleEffect where
  | allow
  | deny
  | require_approval
  deriving DecidableEq, Repr

structure ToolApprovalRule where
  id : String
  scopeType : ToolApprovalRuleScope
  scopeId : Option String := none
  effect : ToolApprovalRuleEffect
  priority : Int := 0
  argumentPatterns : Option (List ArgumentPattern) := none
  deriving DecidableEq, Repr

structure RuleContext where
  scopeId : Option String := none
  workflowRunId : Option String := none
  chatSessionId : Option String := none
  agentProfile : Option String := none

/-- A value of the payload as `matchesPattern` sees it: a number by the text that it is written as,
and what is no text, number or truth value only as such. -/
inductive PayloadValue where
  | str (text : String)
  | number (text : String)
  | bool (value : Bool)
  | other
  deriving DecidableEq, Repr

abbrev Payload : Type := OrderedMap String PayloadValue

namespace ToolApprovalRuleService

/-! ## Patterns -/

/-- `cs.replaceAll(c, text)`. -/
def replaceChar (c : Char) (text cs : List Char) : List Char :=
  cs.flatMap fun d => if d = c then text else [d]

/-- The source of `globToRegex(pattern)`. -/
def globToRegex (pattern : String) : String :=
  let escaped := replaceChar '*' ['.', '*'] (replaceChar '?' ['.']
    (replaceChar '.' ['\\', '.'] (replaceChar '\\' ['\\', '\\'] pattern.toList)))
  String.ofList ('^' :: escaped ++ ['$'])

/-- `str.includes(value)`. -/
def includesText (str value : String) : Bool := decide (value.toList <:+: str.toList)

/-- The text that a pattern is compared with. -/
def text? : PayloadValue → Option String
  | .str text => some text
  | .number text => some text
  | .bool true => some "true"
  | .bool false => some "false"
  | .other => none

/-- `new RegExp(source).test(str)`, which throws where the source is no regular expression. -/
def testRegExp (regExp : RegExpTest) (source str : String) : Except ToolPolicyError Bool :=
  match regExp source str with
  | some found => .ok found
  | none => .error (.invalidRegExp source)

section Matching

variable (regExp : RegExpTest)

def matchesPattern (value : PayloadValue) (pattern : ArgumentPattern) :
    Except ToolPolicyError Bool :=
  match text? value with
  | none => .ok false
  | some str =>
      match pattern.operator with
      | .eq => .ok (str = pattern.value)
      | .contains => .ok (includesText str pattern.value)
      | .glob => testRegExp regExp (globToRegex pattern.value) str
      | .regex => testRegExp regExp pattern.value str
      | .other _ => .ok false

/-- `rule.argumentPatterns.every(...)`, which ends at the first pattern that does not match. -/
def everyPattern (payload : Payload) : List ArgumentPattern → Except ToolPolicyError Bool
  | [] => .ok true
  | pattern :: patterns =>
      match matchesPattern regExp ((OrderedMap.get? payload pattern.path).getD .other) pattern with
      | .error e => .error e
      | .ok false => .ok false
      | .ok true => everyPattern payload patterns

/-- `!rule.argumentPatterns || rule.argumentPatterns.length === 0`. -/
def hasNoPatterns (rule : ToolApprovalRule) : Bool :=
  (rule.argumentPatterns.getD []).isEmpty

/-- The test of a rule in the loop of `findBestMatchingRule`. -/
def matchesPayload (payload : Payload) (rule : ToolApprovalRule) : Except ToolPolicyError Bool :=
  if hasNoPatterns rule then .ok true
  else everyPattern regExp payload (rule.argumentPatterns.getD [])

end Matching

/-! ## Scopes -/

/-- `actual === expected`, where only the field of the rule may be null. -/
def sameId (actual expected : Option String) : Bool := actual.isSome && actual = expected

def ruleMatchesScope (rule : ToolApprovalRule) (context : RuleContext)
    (ancestorIds : List String) : Bool :=
  match rule.scopeType with
  | .global => true
  | .project => sameId context.scopeId rule.scopeId
  | .scope_node => rule.scopeId.any fun scopeId => scopeId ∈ ancestorIds
  | .agent_profile => sameId context.agentProfile rule.scopeId
  | .workflow_run => sameId context.workflowRunId rule.scopeId
  | .chat_session => sameId context.chatSessionId rule.scopeId
  | .other _ => false

def scopePriority : ToolApprovalRuleScope → Rat
  | .workflow_run => 5
  | .chat_session => 4
  | .project => 3
  | .agent_profile => 2
  | .scope_node => 5 / 2
  | .global => 1
  | .other _ => 0

/-- The comparison of the sort. -/
def compareRules (a b : ToolApprovalRule) : Rat :=
  let scopeDiff := scopePriority b.scopeType - scopePriority a.scopeType
  if scopeDiff ≠ 0 then scopeDiff else (b.priority - a.priority : Int)

/-- `scoped.sort(...)`. -/
def sortRules (rules : List ToolApprovalRule) : List ToolApprovalRule :=
  rules.insertionSort fun a b => compareRules a b ≤ 0

/-! ## Selection -/

section Selection

variable (regExp : RegExpTest)

/-- `findBestMatchingRule` without a payload. -/
def findPreflightRule (inScope : List ToolApprovalRule) : Option ToolApprovalRule :=
  let hasArgumentRules := inScope.any fun rule => !hasNoPatterns rule
  match inScope.find? hasNoPatterns with
  | none => none
  | some firstNoPattern =>
      if firstNoPattern.effect = .deny ∧ hasArgumentRules = true then none else some firstNoPattern

def findBestMatchingRule (rules : List ToolApprovalRule) (context : RuleContext)
    (payload : Option Payload) (ancestorIds : List String) :
    Except ToolPolicyError (Option ToolApprovalRule) :=
  let inScope := sortRules (rules.filter fun rule => ruleMatchesScope rule context ancestorIds)
  match payload with
  | none => .ok (findPreflightRule inScope)
  | some payload => RankedChoice.firstMatch (matchesPayload regExp payload) inScope

/-- The ancestors that count: none without a rule for a scope node, or without a scope. -/
def resolveAncestorIds (getAncestorIds : String → List String) (rules : List ToolApprovalRule)
    (context : RuleContext) : List String :=
  if rules.any fun rule => rule.scopeType = .scope_node then
    match context.scopeId with
    | none => []
    | some "" => []
    | some scopeId => getAncestorIds scopeId
  else []

variable (getAncestorIds : String → List String) (rules : List ToolApprovalRule)
  (context : RuleContext)

/-- `resolveToolEffectPreflight`; `rules` are the active rules of the tool. -/
def resolveToolEffectPreflight : Except ToolPolicyError (Option ToolApprovalRuleEffect) :=
  (findBestMatchingRule regExp rules context none
    (resolveAncestorIds getAncestorIds rules context)).map fun rule => rule.map (·.effect)

/-- `resolveToolEffectExecution`; `rules` are the active rules of the tool. -/
def resolveToolEffectExecution (payload : Payload) :
    Except ToolPolicyError (Option ToolApprovalRuleEffect) :=
  (findBestMatchingRule regExp rules context (some payload)
    (resolveAncestorIds getAncestorIds rules context)).map fun rule => rule.map (·.effect)

end Selection

end ToolApprovalRuleService

end Nexus
