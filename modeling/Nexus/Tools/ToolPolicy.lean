import Nexus.Lib.Json
import Nexus.Workflow.Definition

/-!
# Tool policies

The rules of a `tool_policy` document (`normalizeToolPolicy`) and the tool names a step may use
(`resolveAllowedToolNamesForStep`): the profile, the workflow permissions and the job permissions
are applied after each other, companion tools are added, and the profile is intersected again. A
set of names is a list; `addName` and `filter` stand for `add` and `delete`.
-/

set_option autoImplicit false

namespace Nexus

/-! ## Rules -/

/-- `set.add(name)`. -/
def addName (names : List String) (name : String) : List String :=
  if name ∈ names then names else names ++ [name]

@[simp] theorem mem_addName {names : List String} {name x : String} :
    x ∈ addName names name ↔ x ∈ names ∨ x = name := by
  by_cases h : name ∈ names
  · rw [addName, if_pos h]
    constructor
    · exact .inl
    · rintro (hx | rfl)
      · exact hx
      · exact h
  · rw [addName, if_neg h, List.mem_append, List.mem_singleton]

structure NormalizedToolPolicy where
  allow : List String := []
  deny : List String := []
  deriving DecidableEq

def toolPolicyAllowEffects : List String := ["allow", "require_approval"]

def toolPolicyDenyEffects : List String := ["deny", "guardrail_deny"]

/-- `split(/\s+/)`; `inRun` says whether the character before was white space. -/
def splitWhitespace : List Char → Bool → List Char → List (List Char)
  | piece, _, [] => [piece]
  | piece, inRun, c :: cs =>
      if isJsWhitespace c then
        if inRun then splitWhitespace piece true cs else piece :: splitWhitespace [] true cs
      else splitWhitespace (piece ++ [c]) false cs

def addToolPolicyRule (policy : NormalizedToolPolicy) (effect tool : Option Json) :
    NormalizedToolPolicy :=
  match effect, tool with
  | some (.str effect), some (.str tool) =>
      let normalizedTool := jsTrim tool
      if normalizedTool = "" then policy
      else {
        allow := if effect ∈ toolPolicyAllowEffects then addName policy.allow normalizedTool
          else policy.allow
        deny := if effect ∈ toolPolicyDenyEffects then addName policy.deny normalizedTool
          else policy.deny }
  | _, _ => policy

/-- The effect and the tool of a rule, which is a text or a record. -/
def toolPolicyRuleParts : Json → Option Json × Option Json
  | .str rule =>
      let pieces := ((splitWhitespace [] false (trimChars rule.toList)).take 3).map
        fun piece => Json.str (String.ofList piece)
      (pieces[0]?, pieces[1]?)
  | rule => (rule.field? "effect", rule.field? "tool")

/-- The loop body of `addStructuredToolPolicyRules`. -/
def addRule (policy : NormalizedToolPolicy) (rule : Json) : NormalizedToolPolicy :=
  addToolPolicyRule policy (toolPolicyRuleParts rule).1 (toolPolicyRuleParts rule).2

/-- The default of the document, which allows everything when it is `allow`. -/
def addDefault (policy : NormalizedToolPolicy) (toolPolicy : Option Json) : NormalizedToolPolicy :=
  match toolPolicy.bind fun record => record.field? "default" with
  | some (.str "allow") => { policy with allow := addName policy.allow "*" }
  | _ => policy

def addStructuredToolPolicyRules (policy : NormalizedToolPolicy) (toolPolicy : Option Json) :
    NormalizedToolPolicy :=
  match toolPolicy.bind fun record => record.field? "rules" with
  | some (.arr rules) => rules.foldl addRule (addDefault policy toolPolicy)
  | _ => addDefault policy toolPolicy

def normalizeToolPolicy (policy : Option Json) : NormalizedToolPolicy :=
  addStructuredToolPolicyRules {} (policy.bind fun record => record.field? "tool_policy")

/-! ## One layer -/

/-- The name before the first colon, when there is one. -/
def baseName? (toolName : String) : Option String :=
  let name := toolName.toList.takeWhile fun c => c ≠ ':'
  if 0 < name.length ∧ name.length < toolName.toList.length then some (String.ofList name) else none

/-- The loop body over the allowed names in `resolveAllowedFromPolicy`. -/
def addAllowed (baseToolNames candidateToolNames resolved : List String) (toolName : String) :
    List String :=
  let resolved := if toolName ∈ candidateToolNames then addName resolved toolName else resolved
  match baseName? toolName with
  | some baseName =>
      if baseName ∈ baseToolNames ∨ baseName ∈ candidateToolNames then addName resolved baseName
      else resolved
  | none => resolved

def resolveAllowedFromPolicy (allow baseToolNames candidateToolNames : List String) : List String :=
  allow.foldl (addAllowed baseToolNames candidateToolNames)
    (baseToolNames.filter fun toolName => toolName ∈ allow)

def applyPolicyToToolNames (baseToolNames candidateToolNames : List String) (policy : Option Json) :
    List String :=
  let { allow, deny } := normalizeToolPolicy policy
  let resolved :=
    if allow = [] then baseToolNames
    else if "*" ∈ allow then candidateToolNames.foldl addName baseToolNames
    else resolveAllowedFromPolicy allow baseToolNames candidateToolNames
  if "*" ∈ deny then [] else resolved.filter fun toolName => toolName ∉ deny

/-! ## The layers of a step -/

inductive ToolPolicyStrategy where
  | layered
  | profileOnly
  deriving DecidableEq, Repr

/-- What is read of a job. -/
structure ToolJob where
  output_contract : Option Json := none
  permissions : Option Json := none

/-- The parameters of `resolveAllowedToolNamesForStep`; `applyPolicyToToolNames` is the one above. -/
structure StepToolParams where
  tools : List String
  job : ToolJob := {}
  workflowPermissions : Option Json := none
  agentProfile : Option String := none
  policyStrategy : Option ToolPolicyStrategy := none
  canProfileUseTool : String → String → Bool

structure CompanionToolRule where
  primaryTool : String
  companionTool : String

def defaultCompanionRules : List CompanionToolRule :=
  [⟨"spawn_subagent_async", "wait_for_subagents"⟩]

/-- The loop body of `resolveAllowedToolNamesForExecution` over the companion rules. -/
def applyCompanionRule (requestedTools result : List String) (rule : CompanionToolRule) :
    List String :=
  if rule.primaryTool ∈ result then
    if rule.companionTool ∈ requestedTools then addName result rule.companionTool else result
  else result.filter fun tool => tool ≠ rule.companionTool

def resolveAllowedToolNamesForExecution (requestedTools profileAllowed : List String)
    (companionRules : List CompanionToolRule) : List String :=
  companionRules.foldl (applyCompanionRule requestedTools)
    (requestedTools.filter fun tool => tool ∈ profileAllowed)

def isToolExplicitlyDenied (policy : Option Json) : Bool :=
  let deny := (normalizeToolPolicy policy).deny
  "set_job_output" ∈ deny || "*" ∈ deny

/-- The names denied by the permissions, none without permissions. -/
def denyOf (permissions : Option Json) : List String :=
  match permissions with
  | some policy => (normalizeToolPolicy (some policy)).deny
  | none => []

/-- The loop body of `expandCompanionsInJobScoped` over the companion rules. -/
def addCompanion (allCandidateNames jobDeny workflowDeny names : List String)
    (rule : CompanionToolRule) : List String :=
  if rule.primaryTool ∈ names ∧ rule.companionTool ∈ allCandidateNames ∧
      rule.companionTool ∉ jobDeny ∧ rule.companionTool ∉ workflowDeny then
    addName names rule.companionTool
  else names

def expandCompanionsInJobScoped (jobScoped allCandidateNames : List String)
    (jobPermissions workflowPermissions : Option Json) : List String :=
  defaultCompanionRules.foldl
    (addCompanion allCandidateNames (denyOf jobPermissions) (denyOf workflowPermissions)) jobScoped

namespace StepToolParams

variable (params : StepToolParams)

/-- The agent profile, which an empty text does not name. -/
def profile? : Option String :=
  match params.agentProfile with
  | some "" => none
  | profile => profile

def allCandidateNames : List String :=
  let names := params.tools.foldl addName []
  if params.job.output_contract.isSome then addName names "set_job_output" else names

def resolveAllowedByProfile : List String :=
  match params.profile? with
  | none => params.tools.foldl addName []
  | some agentProfile =>
      (params.tools.filter fun tool => params.canProfileUseTool agentProfile tool).foldl addName []

/-- What the profile allows, and `set_job_output` when it is a candidate. -/
def allowedByProfile : List String :=
  if "set_job_output" ∈ params.allCandidateNames then
    addName params.resolveAllowedByProfile "set_job_output"
  else params.resolveAllowedByProfile

def workflowScoped : List String :=
  if params.policyStrategy = some .profileOnly then params.allowedByProfile
  else applyPolicyToToolNames params.allowedByProfile params.allCandidateNames
    params.workflowPermissions

def shouldPreserveSetJobOutput : Bool :=
  "set_job_output" ∈ params.allCandidateNames &&
    (params.policyStrategy = some .profileOnly ||
      !isToolExplicitlyDenied params.workflowPermissions) &&
    !isToolExplicitlyDenied params.job.permissions

/-- The names the policies of the job leave. -/
def jobScoped : List String :=
  applyPolicyToToolNames params.workflowScoped params.allCandidateNames params.job.permissions

/-- The names before the last intersection with the profile. -/
def expandedScope : List String :=
  expandCompanionsInJobScoped
    (if params.shouldPreserveSetJobOutput then addName params.jobScoped "set_job_output"
      else params.jobScoped)
    params.allCandidateNames params.job.permissions params.workflowPermissions

end StepToolParams

def resolveAllowedToolNamesForStep (params : StepToolParams) : List String :=
  match params.profile? with
  | none => params.expandedScope
  | some _ =>
      resolveAllowedToolNamesForExecution params.expandedScope params.allowedByProfile
        defaultCompanionRules

end Nexus
