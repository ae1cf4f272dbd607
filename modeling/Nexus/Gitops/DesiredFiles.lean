import Nexus.Gitops.Schemas
import Nexus.Lib.SlashPath
import Mathlib.Data.List.Infix

/-!
# The desired state as files

`serializeDesiredState` gives every object of a desired state its file, and `parseDesiredStateFiles`
recognises the kind of a file by its path: the manifest is skipped, a file `scope.yaml` in any
directory is a scope node, then come `assignments.yaml`, the directories `roles`, `agents`,
`workflows` and `skills` at the top, and the same three as directories anywhere in between.
-/

set_option autoImplicit false

namespace Nexus

/-! ## State -/

/-- `PlacedScopeNodeSchema`. -/
structure PlacedScopeNode (zod : Zod) where
  path : ScopePath
  doc : ScopeNodeDoc zod

/-- `DesiredStateSchema`, the state of `@nexus/gitops-contracts`. -/
structure ContractsDesiredState (zod : Zod) where
  nodes : List (PlacedScopeNode zod) := []
  roles : List RoleDoc := []
  assignments : List Assignment := []
  agents : List DefinitionDoc := []
  workflows : List DefinitionDoc := []
  skills : List DefinitionDoc := []
  agentOverrides : List OverrideDoc := []
  workflowOverrides : List OverrideDoc := []
  skillOverrides : List OverrideDoc := []

structure DesiredStateFile where
  path : String
  content : Json

/-! ## Layout -/

namespace GitopsLayout

def manifest : String := "gitops.yaml"
def scopesDir : String := "scopes"
def rolesDir : String := "roles"
def assignmentsFile : String := "assignments.yaml"
def scopeFile : String := "scope.yaml"
def agentsDir : String := "agents"
def workflowsDir : String := "workflows"
def skillsDir : String := "skills"

end GitopsLayout

open GitopsLayout

def pathStartsWith (s start : String) : Bool := decide (start.toList <+: s.toList)

def pathEndsWith (s ending : String) : Bool := decide (ending.toList <:+ s.toList)

def pathIncludes (s part : String) : Bool := decide (part.toList <:+: s.toList)

/-- `text.replace(pattern, '')`: without the first occurrence. -/
def removeFirst (pattern : List Char) : List Char → List Char
  | [] => []
  | c :: cs =>
      if pattern <+: c :: cs then (c :: cs).drop pattern.length
      else c :: removeFirst pattern cs

/-! ## serializeDesiredState -/

def scopeFilePath (path : String) : String :=
  if path = "/" then scopesDir ++ "/" ++ scopeFile else scopesDir ++ path ++ "/" ++ scopeFile

def scopeDirOf (filePath : String) : String :=
  let rel := String.ofList
    (removeFirst ("/" ++ scopeFile).toList (filePath.toList.drop scopesDir.length))
  if rel = "" then "/" else rel

/-- The path of a file in one of the directories at the top. -/
def platformFilePath (dir name : String) : String := dir ++ "/" ++ name ++ ".yaml"

def overrideDir (scope dir : String) : String :=
  if scope = "/" then scopesDir ++ "/" ++ dir else scopesDir ++ scope ++ "/" ++ dir

def overrideFilePath (scope dir name : String) : String :=
  overrideDir scope dir ++ "/" ++ name ++ ".yaml"

section Serialize

variable {zod : Zod}

def nodeFile (node : PlacedScopeNode zod) : DesiredStateFile :=
  ⟨scopeFilePath node.path.val, node.doc.toJson⟩

def roleFile (role : RoleDoc) : DesiredStateFile :=
  ⟨platformFilePath rolesDir role.name.val, role.toJson⟩

def assignmentsListFile (assignments : List Assignment) : DesiredStateFile :=
  ⟨assignmentsFile, assignmentList assignments⟩

def definitionFile (dir kind : String) (doc : DefinitionDoc) : DesiredStateFile :=
  ⟨platformFilePath dir doc.name.val, doc.toJson kind⟩

def overrideFile (dir kind : String) (doc : OverrideDoc) : DesiredStateFile :=
  ⟨overrideFilePath doc.val.scope.val dir doc.val.name.val, doc.val.toJson kind⟩

def serializeDesiredState (state : ContractsDesiredState zod) : List DesiredStateFile :=
  state.nodes.map nodeFile ++ state.roles.map roleFile ++
    [assignmentsListFile state.assignments] ++
    state.agents.map (definitionFile agentsDir "AgentProfile") ++
    state.workflows.map (definitionFile workflowsDir "Workflow") ++
    state.skills.map (definitionFile skillsDir "Skill") ++
    state.agentOverrides.map (overrideFile agentsDir "AgentOverride") ++
    state.workflowOverrides.map (overrideFile workflowsDir "WorkflowOverride") ++
    state.skillOverrides.map (overrideFile skillsDir "SkillOverride")

end Serialize

/-! ## parseDesiredStateFiles -/

structure FileError where
  path : String
  message : String
  deriving DecidableEq, Repr

/-- The draft of the state; the paths of its nodes are not checked yet. -/
structure Draft (zod : Zod) where
  nodes : List (String × ScopeNodeDoc zod) := []
  roles : List RoleDoc := []
  assignments : List Assignment := []
  agents : List DefinitionDoc := []
  workflows : List DefinitionDoc := []
  skills : List DefinitionDoc := []
  agentOverrides : List OverrideDoc := []
  workflowOverrides : List OverrideDoc := []
  skillOverrides : List OverrideDoc := []

structure ParseState (zod : Zod) where
  draft : Draft zod := {}
  errors : List FileError := []

section Parse

variable {zod : Zod}

/-- `tryParse`, followed by `push` when the content is valid. -/
def tryParse {α : Type} (schema : ZodSchema α) (file : DesiredStateFile)
    (push : α → Draft zod → Draft zod) (st : ParseState zod) : ParseState zod :=
  match schema (some file.content) with
  | .ok doc => { st with draft := push doc st.draft }
  | .error issues => { st with errors :=
      st.errors ++ [⟨file.path, "; ".intercalate (issues.map zod.message)⟩] }

/-- `none` where the source returns `false`. -/
def dispatchPlatformConfigFile (file : DesiredStateFile) (st : ParseState zod) :
    Option (ParseState zod) :=
  if pathStartsWith file.path (agentsDir ++ "/") then
    some (tryParse agentProfileDocSchema file
      (fun doc draft => { draft with agents := draft.agents ++ [doc] }) st)
  else if pathStartsWith file.path (workflowsDir ++ "/") then
    some (tryParse workflowDocSchema file
      (fun doc draft => { draft with workflows := draft.workflows ++ [doc] }) st)
  else if pathStartsWith file.path (skillsDir ++ "/") then
    some (tryParse skillDocSchema file
      (fun doc draft => { draft with skills := draft.skills ++ [doc] }) st)
  else none

def dispatchScopedConfigFile (file : DesiredStateFile) (st : ParseState zod) :
    Option (ParseState zod) :=
  if pathIncludes file.path ("/" ++ agentsDir ++ "/") then
    some (tryParse agentOverrideDocSchema file
      (fun doc draft => { draft with agentOverrides := draft.agentOverrides ++ [doc] }) st)
  else if pathIncludes file.path ("/" ++ workflowsDir ++ "/") then
    some (tryParse workflowOverrideDocSchema file
      (fun doc draft => { draft with workflowOverrides := draft.workflowOverrides ++ [doc] }) st)
  else if pathIncludes file.path ("/" ++ skillsDir ++ "/") then
    some (tryParse skillOverrideDocSchema file
      (fun doc draft => { draft with skillOverrides := draft.skillOverrides ++ [doc] }) st)
  else none

def dispatchFile (st : ParseState zod) (file : DesiredStateFile) : ParseState zod :=
  if file.path = manifest then st
  else if pathEndsWith file.path ("/" ++ scopeFile) then
    tryParse (scopeNodeDocSchema zod) file
      (fun doc draft => { draft with nodes := draft.nodes ++ [(scopeDirOf file.path, doc)] }) st
  else if file.path = assignmentsFile then
    tryParse assignmentDocSchema file
      (fun list draft => { draft with assignments := draft.assignments ++ list }) st
  else if pathStartsWith file.path (rolesDir ++ "/") then
    tryParse roleDocSchema file
      (fun doc draft => { draft with roles := draft.roles ++ [doc] }) st
  else
    match dispatchPlatformConfigFile file st with
    | some st' => st'
    | none => (dispatchScopedConfigFile file st).getD st

/-- The nodes of the draft with their paths checked, or the issues of the paths. -/
def placedNodes : List (String × ScopeNodeDoc zod) → Checked (List (PlacedScopeNode zod))
  | [] => .ok []
  | (path, doc) :: rest =>
      (((Checked.ok fun path rest => { path, doc } :: rest).field
        (ZodSchema.string Checks.scopePath (some (.str path)))).field (placedNodes rest))

/-- `DesiredStateSchema.safeParse(draft)`: the documents of a draft are valid already. -/
def finalState (draft : Draft zod) : Checked (ContractsDesiredState zod) :=
  (placedNodes draft.nodes).map fun nodes => {
    nodes
    roles := draft.roles
    assignments := draft.assignments
    agents := draft.agents
    workflows := draft.workflows
    skills := draft.skills
    agentOverrides := draft.agentOverrides
    workflowOverrides := draft.workflowOverrides
    skillOverrides := draft.skillOverrides }

def parseDesiredStateFiles (zod : Zod) (files : List DesiredStateFile) :
    Except (List FileError) (ContractsDesiredState zod) :=
  let parsed : ParseState zod := files.foldl dispatchFile {}
  if parsed.errors ≠ [] then .error parsed.errors
  else
    match finalState parsed.draft with
    | .ok state => .ok state
    | .error issues =>
        .error [⟨"<aggregate>", "; ".intercalate (issues.map zod.message)⟩]

end Parse

end Nexus
