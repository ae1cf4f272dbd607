import Nexus.Tools.ToolPolicy

/-!
# The tool policy evaluator

`ToolPolicyEvaluatorService.evaluate` decides one call of a tool: the first rule whose tool pattern
and argument patterns match decides, and the default of the document when none does. A rule is a
record or a text (`parseStringRule`). Patterns with a star become regular expressions; the engine of
the regular expressions is a parameter, `none` where the pattern is no regular expression.
-/

set_option autoImplicit false

namespace Nexus

/-! ## Documents -/

inductive ToolPolicyEffect where
  | allow
  | deny
  | requireApproval
  | guardrailDeny
  deriving DecidableEq, Repr

def ToolPolicyEffect.text : ToolPolicyEffect → String
  | .allow => "allow"
  | .deny => "deny"
  | .requireApproval => "require_approval"
  | .guardrailDeny => "guardrail_deny"

def toolPolicyEffects : List ToolPolicyEffect := [.allow, .deny, .requireApproval, .guardrailDeny]

/-- `isToolPolicyEffect`, with the effect. -/
def ToolPolicyEffect.ofText? (text : String) : Option ToolPolicyEffect :=
  toolPolicyEffects.find? fun effect => effect.text = text

/-- `deny` or `guardrail_deny`. -/
def ToolPolicyEffect.denies : ToolPolicyEffect → Bool
  | .deny => true
  | .guardrailDeny => true
  | _ => false

structure ToolPolicyRule where
  id : Option Json := none
  effect : ToolPolicyEffect
  tool : String
  arguments : Option Json := none

/-- `ToolPolicyRule | string`. -/
inductive ToolPolicyEntry where
  | rule (rule : ToolPolicyRule)
  | text (text : String)

structure ToolPolicyDocument where
  default : ToolPolicyEffect
  rules : List ToolPolicyEntry

structure ToolPolicyDecision where
  effect : ToolPolicyEffect
  matchedRuleId : Option Json := none
  explanation : String

/-! ## Errors -/

inductive ToolPolicyError where
  | invalidRuleFormat (rule : String)
  | unknownEffect (effect : String)
  | invalidRegExp (source : String)
  deriving DecidableEq, Repr

/-- The message of a thrown error; the engine words the errors of regular expressions itself. -/
def ToolPolicyError.message : ToolPolicyError → String
  | .invalidRuleFormat rule => s!"Invalid rule format: {rule}"
  | .unknownEffect effect => s!"Unknown effect: {effect}"
  | .invalidRegExp source => s!"Invalid regular expression: {source}"

/-! ## parseStringRule -/

/-- The characters that `.` does not match. -/
def isDotExcluded (c : Char) : Bool :=
  c = '\n' || c = '\r' || c.toNat = 0x2028 || c.toNat = 0x2029

/-- The letter case matters for ASCII letters only: no other letter becomes part of an effect. -/
def lowerCase (cs : List Char) : String := String.ofList (cs.map Char.toLower)

/-- The groups of `/^(\S+)\s+(\S+)(?:\s+(.*))?$/` on the characters of a trimmed text. -/
def ruleGroups (trimmed : List Char) : Option (List Char × List Char × Option (List Char)) :=
  let (effect, rest) := trimmed.span fun c => !isJsWhitespace c
  let (tool, rest) := (rest.dropWhile isJsWhitespace).span fun c => !isJsWhitespace c
  if effect = [] ∨ tool = [] then none
  else if rest = [] then some (effect, tool, none)
  else
    let args := rest.dropWhile isJsWhitespace
    if args.any isDotExcluded then none else some (effect, tool, some args)

/-- The field `arguments` of a parsed text; an empty group gives none. -/
def commandArguments : Option (List Char) → Option Json
  | none => none
  | some [] => none
  | some args => some (.obj [("command", .str (String.ofList (trimChars args)))])

def parseStringRule (ruleStr : String) : Except ToolPolicyError ToolPolicyRule :=
  match ruleGroups (trimChars ruleStr.toList) with
  | none => .error (.invalidRuleFormat ruleStr)
  | some (effectStr, tool, args) =>
      match ToolPolicyEffect.ofText? (lowerCase effectStr) with
      | none => .error (.unknownEffect (lowerCase effectStr))
      | some effect =>
          .ok { effect, tool := String.ofList tool, arguments := commandArguments args }

/-- The rule that an entry stands for. -/
def ToolPolicyEntry.parse : ToolPolicyEntry → Except ToolPolicyError ToolPolicyRule
  | .rule parsed => .ok parsed
  | .text ruleStr => parseStringRule ruleStr

/-! ## Matching -/

/-- `new RegExp(source).test(text)`. -/
abbrev RegExpTest : Type := String → String → Option Bool

/-- `'^' + pattern.replace(/\*/g, '.*') + '$'`; nothing else is escaped. -/
def globSource (pattern : String) : String :=
  String.ofList ('^' :: (pattern.toList.flatMap fun c => if c = '*' then ['.', '*'] else [c]) ++ ['$'])

section Matching

variable (regExp : RegExpTest)

def matchesTool (actual pattern : String) : Except ToolPolicyError Bool :=
  if pattern = "*" then .ok true
  else if '*' ∈ pattern.toList then
    match regExp (globSource pattern) actual with
    | some found => .ok found
    | none => .error (.invalidRegExp (globSource pattern))
  else .ok (actual = pattern)

def isAbsentMatcher : Json → Bool
  | .obj fields =>
      match OrderedMap.get? fields "operator" with
      | some (.str operator) => operator = "absent"
      | _ => false
  | _ => false

/-- The keys and values of an object or an array; `none` for what `deepEqual` does not look into. -/
def objectEntries : Json → Option (List (String × Json))
  | .arr xs => some (xs.mapIdx fun i x => (toString i, x))
  | .obj fields => some fields
  | _ => none

mutual

/-- `deepEqual`: an array is compared by its indices, like a record. -/
def deepEqual : Json → Json → Bool
  | .null, .null => true
  | .bool b, .bool b' => b = b'
  | .num n, .num n' => n = n'
  | .str s, .str s' => s = s'
  | .arr xs, v =>
      match objectEntries v with
      | some fields => xs.length = fields.length && deepEqualElements 0 xs fields
      | none => false
  | .obj fields, v =>
      match objectEntries v with
      | some fields' => fields.length = fields'.length && deepEqualFields fields fields'
      | none => false
  | _, _ => false

def deepEqualElements : Nat → List Json → List (String × Json) → Bool
  | _, [], _ => true
  | i, x :: xs, fields =>
      (match OrderedMap.get? fields (toString i) with
        | none => false
        | some v => deepEqual x v) && deepEqualElements (i + 1) xs fields

def deepEqualFields : List (String × Json) → List (String × Json) → Bool
  | [], _ => true
  | (k, v) :: rest, fields =>
      (match OrderedMap.get? fields k with
        | none => false
        | some v' => deepEqual v v') && deepEqualFields rest fields

end

/-- `!ruleArgs` is false. -/
def isTruthyValue : Option Json → Bool
  | none => false
  | some .null => false
  | some (.bool b) => b
  | some (.num n) => n ≠ 0
  | some (.str s) => s ≠ ""
  | some _ => true

/-- `Object.keys(ruleArgs)` with the values: a text has its characters. -/
def argumentEntries : Json → List (String × Json)
  | .str s => s.toList.mapIdx fun i c => (toString i, .str (String.singleton c))
  | v => (objectEntries v).getD []

/-- The loop body of `matchesArguments`. -/
def matchesArgument (actualArgs : OrderedMap String Json) (key : String) (ruleVal : Json) :
    Except ToolPolicyError Bool :=
  if isAbsentMatcher ruleVal then .ok (OrderedMap.get? actualArgs key).isNone
  else
    match ruleVal, OrderedMap.get? actualArgs key with
    | .str "*", _ => .ok true
    | .str pattern, some (.str actualVal) => matchesTool regExp actualVal pattern
    | ruleVal, some actualVal => .ok (deepEqual actualVal ruleVal)
    | _, none => .ok false

/-- The loop of `matchesArguments`, which ends at the first argument that does not match. -/
def matchesEntries (actualArgs : OrderedMap String Json) :
    List (String × Json) → Except ToolPolicyError Bool
  | [] => .ok true
  | (key, ruleVal) :: rest =>
      match matchesArgument regExp actualArgs key ruleVal with
      | .error e => .error e
      | .ok false => .ok false
      | .ok true => matchesEntries actualArgs rest

def matchesArguments (actualArgs : OrderedMap String Json) (ruleArgs : Option Json) :
    Except ToolPolicyError Bool :=
  match ruleArgs with
  | none => .ok true
  | some ruleVals =>
      if !isTruthyValue (some ruleVals) then .ok true
      else matchesEntries regExp actualArgs (argumentEntries ruleVals)

/-! ## evaluate -/

/-- Does a rule match a call? -/
def matchesCall (tool : String) (args : OrderedMap String Json) (rule : ToolPolicyRule) :
    Except ToolPolicyError Bool :=
  match matchesTool regExp tool rule.tool with
  | .error e => .error e
  | .ok false => .ok false
  | .ok true => matchesArguments regExp args rule.arguments

/-- The decision of a rule. -/
def ToolPolicyRule.decision (rule : ToolPolicyRule) : ToolPolicyDecision where
  effect := rule.effect
  matchedRuleId := rule.id
  explanation := s!"Matched rule for tool {rule.tool}"

/-- The loop of `evaluate` over the rules. -/
def evaluateRules (tool : String) (args : OrderedMap String Json) (default : ToolPolicyEffect) :
    List ToolPolicyEntry → Except ToolPolicyError ToolPolicyDecision
  | [] => .ok { effect := default, explanation := "No rules matched. Using default effect." }
  | entry :: entries =>
      match entry.parse with
      | .error e => .error e
      | .ok rule =>
          match matchesCall regExp tool args rule with
          | .error e => .error e
          | .ok true => .ok rule.decision
          | .ok false => evaluateRules tool args default entries

def evaluateToolPolicy (tool : String) (args : OrderedMap String Json)
    (policy : ToolPolicyDocument) : Except ToolPolicyError ToolPolicyDecision :=
  evaluateRules regExp tool args policy.default policy.rules

end Matching

/-! ## Validation of workflows -/

/-- `typeof value === 'string' && isToolPolicyEffect(value)`. -/
def readEffect : Option Json → Option ToolPolicyEffect
  | some (.str text) => ToolPolicyEffect.ofText? text
  | _ => none

/-- `validateSingleRule`: the messages about one rule. -/
def validateSingleRule (label : String) (i : Nat) : Json → List String
  | .str rule =>
      let rest := (trimChars rule.toList).dropWhile fun c => !isJsWhitespace c
      if (trimChars rule.toList).takeWhile (fun c => !isJsWhitespace c) ≠ [] ∧
          rest.dropWhile isJsWhitespace ≠ [] then []
      else [s!"{label}.tool_policy.rules[{i}] invalid format: " ++
        "expected \"<effect> <tool-glob> [args...]\""]
  | .null => [s!"{label}.tool_policy.rules[{i}] must be a rule object or string"]
  | .bool _ => [s!"{label}.tool_policy.rules[{i}] must be a rule object or string"]
  | .num _ => [s!"{label}.tool_policy.rules[{i}] must be a rule object or string"]
  | rule =>
      (if (readEffect (rule.field? "effect")).isNone then
        [s!"{label}.tool_policy.rules[{i}].effect must be a valid ToolPolicyEffect"] else []) ++
      match rule.field? "tool" with
      | some (.str tool) =>
          if trimChars tool.toList = [] then
            [s!"{label}.tool_policy.rules[{i}].tool is required and must be non-empty"] else []
      | _ => [s!"{label}.tool_policy.rules[{i}].tool is required and must be non-empty"]

/-- `validateToolPolicyShape` on permissions; `label` is the scope with the job. -/
def validateToolPolicyShape (label : String) (policy : Json) : List String :=
  match policy.field? "tool_policy" with
  | none => []
  | some doc =>
      (if (readEffect (doc.field? "default")).isNone then
        [s!"{label}.tool_policy.default must be a valid ToolPolicyEffect " ++
          "(allow, deny, require_approval, guardrail_deny)"] else []) ++
      match doc.field? "rules" with
      | some (.arr rules) => (rules.mapIdx (validateSingleRule label)).flatten
      | _ => [s!"{label}.tool_policy.rules must be an array"]

/-! ## Typed documents -/

/-- A rule as the evaluator reads it. -/
def readEntry : Json → Option ToolPolicyEntry
  | .str text => some (.text text)
  | rule =>
      match readEffect (rule.field? "effect"), rule.field? "tool" with
      | some effect, some (.str tool) => some (.rule {
          id := rule.field? "id"
          effect
          tool
          arguments := rule.field? "arguments" })
      | _, _ => none

/-- The document of permissions as the evaluator reads it. -/
def readToolPolicy (policy : Json) : Option ToolPolicyDocument := do
  let doc ← policy.field? "tool_policy"
  let default ← readEffect (doc.field? "default")
  match doc.field? "rules" with
  | some (.arr rules) => return { default, rules := ← rules.mapM readEntry }
  | _ => none

end Nexus
