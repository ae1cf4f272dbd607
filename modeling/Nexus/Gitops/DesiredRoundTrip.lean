import Nexus.Gitops.DesiredPaths
import Nexus.Gitops.SchemaFacts
import Nexus.Lib.Uuid
import Mathlib.Data.List.Nodup

/-!
# The round trip of the desired state

`parseDesiredStateFiles` reads a state back from its files exactly when the state is `LayoutSafe`:
nothing but a scope node has a file named `scope.yaml`, and no scope of a workflow or skill
override runs through a directory that is taken for another kind of override. Otherwise a file is
read with the schema of another kind, which refuses it, and the whole parse fails.
-/

set_option autoImplicit false

namespace Nexus

open GitopsLayout

variable {zod : Zod}

/-! ## The kinds of the written files -/

variable {dir : String}

section Kinds

theorem scopeFile_iff {name : Slug} :
    (name.val ++ ".yaml").toList = scopeFile.toList ↔ name.val = "scope" := fileName_eq_scopeFile

theorem fileKind_node (node : PlacedScopeNode zod) : fileKind (nodeFile node).path = some .node := by
  rw [nodeFile, fileKind_parts (pathParts_scopeFilePath node.path), if_pos rfl]

/-- A file at the top level in the directory `dir`. -/
theorem fileKind_platform (name : Slug) (hdir : '/' ∉ dir.toList) :
    fileKind (platformFilePath dir name.val) =
      if name.val = "scope" then some .node
      else if dir = rolesDir then some .role
      else if dir = agentsDir then some .agent
      else if dir = workflowsDir then some .workflow
      else if dir = skillsDir then some .skill
      else none := by
  have hparts : pathParts (platformFilePath dir name.val) =
      dir.toList :: ([] ++ [(name.val ++ ".yaml").toList]) := pathParts_platformFilePath name hdir
  rw [fileKind_parts hparts]
  simp only [scopeFile_iff]
  simp only [String.toList_inj, List.not_mem_nil, if_false]

/-- The directory among the slugs of the scope and the one of the override. -/
theorem mem_overrideDirs {path : ScopePath} {part : String} :
    part.toList ∈ path.parts ++ [dir.toList] ↔ part ∈ path.slugs ∨ part = dir := by
  rw [List.mem_append, ScopePath.mem_parts, List.mem_singleton, String.toList_inj]

/-- A file of an override; its scope is looked through from the first kind on. -/
theorem fileKind_override (path : ScopePath) (name : Slug) (hdir : '/' ∉ dir.toList) :
    fileKind (overrideFilePath path.val dir name.val) =
      if name.val = "scope" then some .node
      else if agentsDir ∈ path.slugs ∨ agentsDir = dir then some .agentOverride
      else if workflowsDir ∈ path.slugs ∨ workflowsDir = dir then some .workflowOverride
      else if skillsDir ∈ path.slugs ∨ skillsDir = dir then some .skillOverride
      else none := by
  rw [fileKind_parts (pathParts_overrideFilePath path name hdir)]
  simp only [scopeFile_iff, mem_overrideDirs]
  have hroles : scopesDir.toList ≠ rolesDir.toList := by decide
  have hagents : scopesDir.toList ≠ agentsDir.toList := by decide
  have hworkflows : scopesDir.toList ≠ workflowsDir.toList := by decide
  have hskills : scopesDir.toList ≠ skillsDir.toList := by decide
  rw [if_neg hroles, if_neg hagents, if_neg hworkflows, if_neg hskills]

end Kinds

/-! ## One file -/

section OneFile

variable {file : DesiredStateFile} {kind : FileKind} {α : Type} {schema : ZodSchema α}
  {push : α → Draft zod → Draft zod}

theorem dispatchFile_of_kind (h : fileKind file.path = some kind) (st : ParseState zod) :
    dispatchFile st file = parseAs kind file st := by
  rw [dispatchFile_eq, h]
  rfl

theorem tryParse_ok {doc : α} (h : schema (some file.content) = .ok doc) (st : ParseState zod) :
    tryParse schema file push st = { st with draft := push doc st.draft } := by
  rw [tryParse, h]

theorem tryParse_fails (h : (schema (some file.content)).Fails) (st : ParseState zod) :
    (tryParse schema file push st).errors ≠ [] := by
  obtain ⟨issues, hissues⟩ := h
  rw [tryParse, hissues]
  exact List.append_ne_nil_of_right_ne_nil _ (List.cons_ne_nil _ _)

variable {st : ParseState zod}

theorem tryParse_keeps_errors (h : st.errors ≠ []) :
    (tryParse schema file push st).errors ≠ [] := by
  unfold tryParse
  split
  · exact h
  · exact List.append_ne_nil_of_left_ne_nil h _

/-- An error stays until the end. -/
theorem dispatchFile_keeps_errors (h : st.errors ≠ []) : (dispatchFile st file).errors ≠ [] := by
  rw [dispatchFile_eq]
  cases fileKind file.path with
  | none => exact h
  | some kind =>
      rw [Option.map_some, Option.getD_some]
      cases kind <;> exact tryParse_keeps_errors h

theorem foldl_keeps_errors (files : List DesiredStateFile) (h : st.errors ≠ []) :
    (files.foldl dispatchFile st).errors ≠ [] := by
  induction files generalizing st with
  | nil => exact h
  | cons file files ih => exact ih (dispatchFile_keeps_errors h)

/-- The file is an error in whatever state it is reached. -/
def Refused (zod : Zod) (file : DesiredStateFile) : Prop :=
  ∀ st : ParseState zod, (dispatchFile st file).errors ≠ []

/-- A state that is read has no file that is refused. -/
theorem not_refused_of_parse {files : List DesiredStateFile} {state : ContractsDesiredState zod}
    (h : parseDesiredStateFiles zod files = .ok state) (hfile : file ∈ files) :
    ¬ Refused zod file := by
  intro hrefused
  obtain ⟨before, after, rfl⟩ := List.append_of_mem hfile
  have herrors : ((before ++ file :: after).foldl dispatchFile ({} : ParseState zod)).errors ≠ [] := by
    rw [List.foldl_append, List.foldl_cons]
    exact foldl_keeps_errors after (hrefused _)
  rw [parseDesiredStateFiles, if_pos herrors] at h
  cases h

theorem refused_as_node (hkind : fileKind file.path = some .node)
    (hdoc : docKind file.content ≠ some (.str "ScopeNode")) : Refused zod file := fun st => by
  rw [dispatchFile_of_kind hkind]
  exact tryParse_fails (scopeNodeDocSchema_fails hdoc) st

theorem refused_as_agentOverride (hkind : fileKind file.path = some .agentOverride)
    (hdoc : docKind file.content ≠ some (.str "AgentOverride")) : Refused zod file := fun st => by
  rw [dispatchFile_of_kind hkind]
  exact tryParse_fails (overrideSchema_fails hdoc) st

theorem refused_as_workflowOverride (hkind : fileKind file.path = some .workflowOverride)
    (hdoc : docKind file.content ≠ some (.str "WorkflowOverride")) :
    Refused zod file := fun st => by
  rw [dispatchFile_of_kind hkind]
  exact tryParse_fails (overrideSchema_fails hdoc) st

end OneFile

/-! ## States that fit the layout -/

/-- No object but a scope node is written to a file `scope.yaml`, and the scopes of the workflow and
skill overrides have no directory of a kind that is looked for before theirs. -/
structure LayoutSafe (s : ContractsDesiredState zod) : Prop where
  roles : ∀ role ∈ s.roles, role.name.val ≠ "scope"
  agents : ∀ doc ∈ s.agents, doc.name.val ≠ "scope"
  workflows : ∀ doc ∈ s.workflows, doc.name.val ≠ "scope"
  skills : ∀ doc ∈ s.skills, doc.name.val ≠ "scope"
  agentOverrides : ∀ doc ∈ s.agentOverrides, doc.val.name.val ≠ "scope"
  workflowOverrides : ∀ doc ∈ s.workflowOverrides,
    doc.val.name.val ≠ "scope" ∧ agentsDir ∉ doc.val.scope.slugs
  skillOverrides : ∀ doc ∈ s.skillOverrides,
    doc.val.name.val ≠ "scope" ∧ agentsDir ∉ doc.val.scope.slugs ∧
      workflowsDir ∉ doc.val.scope.slugs

section FileKinds

theorem fileKind_role {role : RoleDoc} (h : role.name.val ≠ "scope") :
    fileKind (roleFile role).path = some .role := by
  rw [roleFile, fileKind_platform role.name (by decide), if_neg h, if_pos rfl]

theorem fileKind_agent {doc : DefinitionDoc} {kind : String} (h : doc.name.val ≠ "scope") :
    fileKind (definitionFile agentsDir kind doc).path = some .agent := by
  rw [definitionFile, fileKind_platform doc.name (by decide), if_neg h]
  rfl

theorem fileKind_workflow {doc : DefinitionDoc} {kind : String} (h : doc.name.val ≠ "scope") :
    fileKind (definitionFile workflowsDir kind doc).path = some .workflow := by
  rw [definitionFile, fileKind_platform doc.name (by decide), if_neg h]
  rfl

theorem fileKind_skill {doc : DefinitionDoc} {kind : String} (h : doc.name.val ≠ "scope") :
    fileKind (definitionFile skillsDir kind doc).path = some .skill := by
  rw [definitionFile, fileKind_platform doc.name (by decide), if_neg h]
  rfl

variable {doc : OverrideDoc} {kind : String}

theorem fileKind_agentOverride (h : doc.val.name.val ≠ "scope") :
    fileKind (overrideFile agentsDir kind doc).path = some .agentOverride := by
  rw [overrideFile, fileKind_override doc.val.scope doc.val.name (by decide), if_neg h,
    if_pos (.inr rfl)]

theorem fileKind_workflowOverride
    (h : doc.val.name.val ≠ "scope" ∧ agentsDir ∉ doc.val.scope.slugs) :
    fileKind (overrideFile workflowsDir kind doc).path = some .workflowOverride := by
  have hagents : ¬ (agentsDir ∈ doc.val.scope.slugs ∨ agentsDir = workflowsDir) := by
    rintro (hmem | heq)
    · exact h.2 hmem
    · exact absurd heq (by decide)
  rw [overrideFile, fileKind_override doc.val.scope doc.val.name (by decide), if_neg h.1,
    if_neg hagents, if_pos (.inr rfl)]

theorem fileKind_skillOverride
    (h : doc.val.name.val ≠ "scope" ∧ agentsDir ∉ doc.val.scope.slugs ∧
      workflowsDir ∉ doc.val.scope.slugs) :
    fileKind (overrideFile skillsDir kind doc).path = some .skillOverride := by
  have hagents : ¬ (agentsDir ∈ doc.val.scope.slugs ∨ agentsDir = skillsDir) := by
    rintro (hmem | heq)
    · exact h.2.1 hmem
    · exact absurd heq (by decide)
  have hworkflows : ¬ (workflowsDir ∈ doc.val.scope.slugs ∨ workflowsDir = skillsDir) := by
    rintro (hmem | heq)
    · exact h.2.2 hmem
    · exact absurd heq (by decide)
  rw [overrideFile, fileKind_override doc.val.scope doc.val.name (by decide), if_neg h.1,
    if_neg hagents, if_neg hworkflows, if_pos (.inr rfl)]

/-- A file of another object that is called `scope` is refused. -/
theorem refused_override_scope (hdir : '/' ∉ dir.toList) (hkind : kind ≠ "ScopeNode")
    (hname : doc.val.name.val = "scope") :
    Refused zod (overrideFile dir kind doc) := by
  apply refused_as_node
  · rw [overrideFile, fileKind_override doc.val.scope doc.val.name hdir, if_pos hname]
  · rw [overrideFile, docKind_override]
    simpa using hkind

theorem refused_definition_scope {doc : DefinitionDoc} (hdir : '/' ∉ dir.toList)
    (hkind : kind ≠ "ScopeNode") (hname : doc.name.val = "scope") :
    Refused zod (definitionFile dir kind doc) := by
  apply refused_as_node
  · rw [definitionFile, fileKind_platform doc.name hdir, if_pos hname]
  · rw [definitionFile, docKind_definition]
    simpa using hkind

theorem refused_role_scope {role : RoleDoc} (hname : role.name.val = "scope") :
    Refused zod (roleFile role) := by
  apply refused_as_node
  · rw [roleFile, fileKind_platform role.name (by decide), if_pos hname]
  · rw [roleFile, docKind_role]
    simp

/-- An override below a directory `agents` is taken for an agent override. -/
theorem refused_below_agents (hdir : '/' ∉ dir.toList) (hkind : kind ≠ "AgentOverride")
    (hname : doc.val.name.val ≠ "scope") (hslug : agentsDir ∈ doc.val.scope.slugs) :
    Refused zod (overrideFile dir kind doc) := by
  apply refused_as_agentOverride
  · rw [overrideFile, fileKind_override doc.val.scope doc.val.name hdir, if_neg hname,
      if_pos (.inl hslug)]
  · rw [overrideFile, docKind_override]
    simpa using hkind

/-- An override below a directory `workflows` is taken for a workflow override. -/
theorem refused_below_workflows (hname : doc.val.name.val ≠ "scope")
    (hagents : agentsDir ∉ doc.val.scope.slugs) (hslug : workflowsDir ∈ doc.val.scope.slugs) :
    Refused zod (overrideFile skillsDir "SkillOverride" doc) := by
  have hnot : ¬ (agentsDir ∈ doc.val.scope.slugs ∨ agentsDir = skillsDir) := by
    rintro (hmem | heq)
    · exact hagents hmem
    · exact absurd heq (by decide)
  apply refused_as_workflowOverride
  · rw [overrideFile, fileKind_override doc.val.scope doc.val.name (by decide), if_neg hname,
      if_neg hnot, if_pos (.inl hslug)]
  · rw [overrideFile, docKind_override]
    simp

end FileKinds

/-! ## Reading a safe state back -/

section Reading

variable {s : ContractsDesiredState zod}

/-- Files that are read one by one: `add` is what all of them add to the draft. -/
theorem foldl_dispatchFile_map {α : Type} {toFile : α → DesiredStateFile} {xs : List α}
    (add : List α → ParseState zod → ParseState zod) (hnil : ∀ st, add [] st = st)
    (hcons : ∀ x ∈ xs, ∀ rest st, add rest (dispatchFile st (toFile x)) = add (x :: rest) st)
    (st : ParseState zod) : (xs.map toFile).foldl dispatchFile st = add xs st := by
  induction xs generalizing st with
  | nil => exact (hnil st).symm
  | cons x xs ih =>
      rw [List.map_cons, List.foldl_cons,
        ih fun x' hx' => hcons x' (List.mem_cons_of_mem _ hx')]
      exact hcons x List.mem_cons_self xs st

theorem read_nodes (st : ParseState zod) : (s.nodes.map nodeFile).foldl dispatchFile st =
    { st with draft := { st.draft with
        nodes := st.draft.nodes ++ s.nodes.map fun node => (node.path.val, node.doc) } } := by
  apply foldl_dispatchFile_map (fun nodes st => { st with draft := { st.draft with
    nodes := st.draft.nodes ++ nodes.map fun node : PlacedScopeNode zod =>
      (node.path.val, node.doc) } })
  · intro st
    simp
  · intro node _ rest st
    rw [dispatchFile_of_kind (fileKind_node node), parseAs,
      tryParse_ok (scopeNodeDocSchema_toJson node.doc), nodeFile, scopeDirOf_scopeFilePath]
    simp

theorem read_roles (h : LayoutSafe s) (st : ParseState zod) :
    (s.roles.map roleFile).foldl dispatchFile st =
      { st with draft := { st.draft with roles := st.draft.roles ++ s.roles } } := by
  apply foldl_dispatchFile_map (fun roles st =>
    { st with draft := { st.draft with roles := st.draft.roles ++ roles } })
  · intro st
    simp
  · intro role hrole rest st
    rw [dispatchFile_of_kind (fileKind_role (h.roles role hrole)), parseAs,
      tryParse_ok (roleDocSchema_toJson role)]
    simp

theorem read_assignments (st : ParseState zod) :
    dispatchFile st (assignmentsListFile s.assignments) =
      { st with draft := { st.draft with
          assignments := st.draft.assignments ++ s.assignments } } := by
  have hkind : fileKind (assignmentsListFile s.assignments).path = some .assignments := by
    show fileKind assignmentsFile = some .assignments
    decide +kernel
  rw [dispatchFile_of_kind hkind, parseAs, tryParse_ok (assignmentDocSchema_list s.assignments)]

theorem read_agents (h : LayoutSafe s) (st : ParseState zod) :
    (s.agents.map (definitionFile agentsDir "AgentProfile")).foldl dispatchFile st =
      { st with draft := { st.draft with agents := st.draft.agents ++ s.agents } } := by
  apply foldl_dispatchFile_map (fun agents st =>
    { st with draft := { st.draft with agents := st.draft.agents ++ agents } })
  · intro st
    simp
  · intro doc hdoc rest st
    rw [dispatchFile_of_kind (fileKind_agent (h.agents doc hdoc)), parseAs,
      tryParse_ok (definitionSchema_toJson "AgentProfile" doc)]
    simp

theorem read_workflows (h : LayoutSafe s) (st : ParseState zod) :
    (s.workflows.map (definitionFile workflowsDir "Workflow")).foldl dispatchFile st =
      { st with draft := { st.draft with workflows := st.draft.workflows ++ s.workflows } } := by
  apply foldl_dispatchFile_map (fun workflows st =>
    { st with draft := { st.draft with workflows := st.draft.workflows ++ workflows } })
  · intro st
    simp
  · intro doc hdoc rest st
    rw [dispatchFile_of_kind (fileKind_workflow (h.workflows doc hdoc)), parseAs,
      tryParse_ok (definitionSchema_toJson "Workflow" doc)]
    simp

theorem read_skills (h : LayoutSafe s) (st : ParseState zod) :
    (s.skills.map (definitionFile skillsDir "Skill")).foldl dispatchFile st =
      { st with draft := { st.draft with skills := st.draft.skills ++ s.skills } } := by
  apply foldl_dispatchFile_map (fun skills st =>
    { st with draft := { st.draft with skills := st.draft.skills ++ skills } })
  · intro st
    simp
  · intro doc hdoc rest st
    rw [dispatchFile_of_kind (fileKind_skill (h.skills doc hdoc)), parseAs,
      tryParse_ok (definitionSchema_toJson "Skill" doc)]
    simp

theorem read_agentOverrides (h : LayoutSafe s) (st : ParseState zod) :
    (s.agentOverrides.map (overrideFile agentsDir "AgentOverride")).foldl dispatchFile st =
      { st with draft := { st.draft with
          agentOverrides := st.draft.agentOverrides ++ s.agentOverrides } } := by
  apply foldl_dispatchFile_map (fun docs st => { st with draft := { st.draft with
    agentOverrides := st.draft.agentOverrides ++ docs } })
  · intro st
    simp
  · intro doc hdoc rest st
    rw [dispatchFile_of_kind (fileKind_agentOverride (h.agentOverrides doc hdoc)), parseAs,
      tryParse_ok (overrideSchema_toJson "AgentOverride" doc)]
    simp

theorem read_workflowOverrides (h : LayoutSafe s) (st : ParseState zod) :
    (s.workflowOverrides.map (overrideFile workflowsDir "WorkflowOverride")).foldl
        dispatchFile st =
      { st with draft := { st.draft with
          workflowOverrides := st.draft.workflowOverrides ++ s.workflowOverrides } } := by
  apply foldl_dispatchFile_map (fun docs st => { st with draft := { st.draft with
    workflowOverrides := st.draft.workflowOverrides ++ docs } })
  · intro st
    simp
  · intro doc hdoc rest st
    rw [dispatchFile_of_kind (fileKind_workflowOverride (h.workflowOverrides doc hdoc)), parseAs,
      tryParse_ok (overrideSchema_toJson "WorkflowOverride" doc)]
    simp

theorem read_skillOverrides (h : LayoutSafe s) (st : ParseState zod) :
    (s.skillOverrides.map (overrideFile skillsDir "SkillOverride")).foldl dispatchFile st =
      { st with draft := { st.draft with
          skillOverrides := st.draft.skillOverrides ++ s.skillOverrides } } := by
  apply foldl_dispatchFile_map (fun docs st => { st with draft := { st.draft with
    skillOverrides := st.draft.skillOverrides ++ docs } })
  · intro st
    simp
  · intro doc hdoc rest st
    rw [dispatchFile_of_kind (fileKind_skillOverride (h.skillOverrides doc hdoc)), parseAs,
      tryParse_ok (overrideSchema_toJson "SkillOverride" doc)]
    simp

/-- The paths of the nodes pass the final check again. -/
theorem placedNodes_map (nodes : List (PlacedScopeNode zod)) :
    placedNodes (nodes.map fun node => (node.path.val, node.doc)) = .ok nodes := by
  induction nodes with
  | nil => rfl
  | cons node nodes ih =>
      rw [List.map_cons, placedNodes, ZodSchema.string_passing, ih]
      rfl

/-- **A safe state is read back from its files as it is.** -/
theorem parse_serialize (h : LayoutSafe s) :
    parseDesiredStateFiles zod (serializeDesiredState s) = .ok s := by
  rw [parseDesiredStateFiles, serializeDesiredState]
  simp only [List.foldl_append, List.foldl_cons, List.foldl_nil]
  rw [read_nodes, read_roles h, read_assignments, read_agents h, read_workflows h, read_skills h,
    read_agentOverrides h, read_workflowOverrides h, read_skillOverrides h]
  simp [finalState, placedNodes_map, Checked.map]

end Reading

/-! ## The canonical paths -/

/-- An object of a desired state, or its list of assignments. -/
inductive StateItem (zod : Zod) where
  | node (placed : PlacedScopeNode zod)
  | role (doc : RoleDoc)
  | assignments (list : List Assignment)
  | agent (doc : DefinitionDoc)
  | workflow (doc : DefinitionDoc)
  | skill (doc : DefinitionDoc)
  | agentOverride (doc : OverrideDoc)
  | workflowOverride (doc : OverrideDoc)
  | skillOverride (doc : OverrideDoc)

namespace StateItem

/-- The kind of file that an item belongs to. -/
def kind : StateItem zod → FileKind
  | .node _ => .node
  | .role _ => .role
  | .assignments _ => .assignments
  | .agent _ => .agent
  | .workflow _ => .workflow
  | .skill _ => .skill
  | .agentOverride _ => .agentOverride
  | .workflowOverride _ => .workflowOverride
  | .skillOverride _ => .skillOverride

/-- The directories and the file of an item: what belongs to a scope lies below the slugs of the
scope. -/
def location : StateItem zod → List String
  | .node placed => scopesDir :: (placed.path.slugs ++ [scopeFile])
  | .role doc => [rolesDir, doc.name.val ++ ".yaml"]
  | .assignments _ => [assignmentsFile]
  | .agent doc => [agentsDir, doc.name.val ++ ".yaml"]
  | .workflow doc => [workflowsDir, doc.name.val ++ ".yaml"]
  | .skill doc => [skillsDir, doc.name.val ++ ".yaml"]
  | .agentOverride doc => scopesDir :: (doc.val.scope.slugs ++ [agentsDir, doc.val.name.val ++ ".yaml"])
  | .workflowOverride doc =>
      scopesDir :: (doc.val.scope.slugs ++ [workflowsDir, doc.val.name.val ++ ".yaml"])
  | .skillOverride doc => scopesDir :: (doc.val.scope.slugs ++ [skillsDir, doc.val.name.val ++ ".yaml"])

def content : StateItem zod → Json
  | .node placed => placed.doc.toJson
  | .role doc => doc.toJson
  | .assignments list => assignmentList list
  | .agent doc => doc.toJson "AgentProfile"
  | .workflow doc => doc.toJson "Workflow"
  | .skill doc => doc.toJson "Skill"
  | .agentOverride doc => doc.val.toJson "AgentOverride"
  | .workflowOverride doc => doc.val.toJson "WorkflowOverride"
  | .skillOverride doc => doc.val.toJson "SkillOverride"

/-- The location as a path. -/
def canonicalPath (item : StateItem zod) : String :=
  String.ofList (['/'].intercalate (item.location.map String.toList))

def file : StateItem zod → DesiredStateFile
  | .node placed => nodeFile placed
  | .role doc => roleFile doc
  | .assignments list => assignmentsListFile list
  | .agent doc => definitionFile agentsDir "AgentProfile" doc
  | .workflow doc => definitionFile workflowsDir "Workflow" doc
  | .skill doc => definitionFile skillsDir "Skill" doc
  | .agentOverride doc => overrideFile agentsDir "AgentOverride" doc
  | .workflowOverride doc => overrideFile workflowsDir "WorkflowOverride" doc
  | .skillOverride doc => overrideFile skillsDir "SkillOverride" doc

theorem pathParts_file (item : StateItem zod) :
    pathParts item.file.path = item.location.map String.toList := by
  cases item with
  | node placed =>
      rw [file, nodeFile, pathParts_scopeFilePath]
      simp [location, ScopePath.parts]
  | role doc =>
      have hdir : '/' ∉ rolesDir.toList := by decide
      exact pathParts_platformFilePath doc.name hdir
  | assignments _ =>
      have hfile : '/' ∉ assignmentsFile.toList := by decide
      exact pathParts_of_plain hfile
  | agent doc =>
      have hdir : '/' ∉ agentsDir.toList := by decide
      exact pathParts_platformFilePath doc.name hdir
  | workflow doc =>
      have hdir : '/' ∉ workflowsDir.toList := by decide
      exact pathParts_platformFilePath doc.name hdir
  | skill doc =>
      have hdir : '/' ∉ skillsDir.toList := by decide
      exact pathParts_platformFilePath doc.name hdir
  | agentOverride doc =>
      have hdir : '/' ∉ agentsDir.toList := by decide
      rw [file, overrideFile, pathParts_overrideFilePath _ _ hdir]
      simp [location, ScopePath.parts]
  | workflowOverride doc =>
      have hdir : '/' ∉ workflowsDir.toList := by decide
      rw [file, overrideFile, pathParts_overrideFilePath _ _ hdir]
      simp [location, ScopePath.parts]
  | skillOverride doc =>
      have hdir : '/' ∉ skillsDir.toList := by decide
      rw [file, overrideFile, pathParts_overrideFilePath _ _ hdir]
      simp [location, ScopePath.parts]

theorem file_path (item : StateItem zod) : item.file.path = item.canonicalPath := by
  have hpath := Parts.intercalate_parts '/' item.file.path.toList
  change ['/'].intercalate (pathParts item.file.path) = _ at hpath
  rw [canonicalPath, ← pathParts_file, hpath, String.ofList_toList]

theorem file_content (item : StateItem zod) : item.file.content = item.content := by
  cases item <;> rfl

end StateItem

/-- The items of a state in the order in which they are written. -/
def ContractsDesiredState.items (s : ContractsDesiredState zod) : List (StateItem zod) :=
  s.nodes.map .node ++ s.roles.map .role ++ [.assignments s.assignments] ++
    s.agents.map .agent ++ s.workflows.map .workflow ++ s.skills.map .skill ++
    s.agentOverrides.map .agentOverride ++ s.workflowOverrides.map .workflowOverride ++
    s.skillOverrides.map .skillOverride

theorem serialize_items (s : ContractsDesiredState zod) :
    serializeDesiredState s = s.items.map StateItem.file := by
  simp only [ContractsDesiredState.items, List.map_append, List.map_map, List.map_cons,
    List.map_nil]
  rfl

/-- Every object is written to its canonical path. -/
theorem serialize_canonical (s : ContractsDesiredState zod) :
    serializeDesiredState s = s.items.map fun item => ⟨item.canonicalPath, item.content⟩ := by
  rw [serialize_items]
  apply List.map_congr_left
  intro item _
  rw [← item.file_path, ← item.file_content]

/-! ## Safe states have distinct paths -/

/-- No two objects of one kind, and of one scope, have the same name. -/
structure DuplicateFree (s : ContractsDesiredState zod) : Prop where
  nodes : (s.nodes.map fun node => node.path.val).Nodup
  roles : (s.roles.map fun role => role.name.val).Nodup
  agents : (s.agents.map fun doc => doc.name.val).Nodup
  workflows : (s.workflows.map fun doc => doc.name.val).Nodup
  skills : (s.skills.map fun doc => doc.name.val).Nodup
  agentOverrides : (s.agentOverrides.map fun doc => (doc.val.scope.val, doc.val.name.val)).Nodup
  workflowOverrides :
    (s.workflowOverrides.map fun doc => (doc.val.scope.val, doc.val.name.val)).Nodup
  skillOverrides : (s.skillOverrides.map fun doc => (doc.val.scope.val, doc.val.name.val)).Nodup

section Distinct

variable {s : ContractsDesiredState zod}

/-- The file of an item of a safe state is taken for what it is. -/
theorem LayoutSafe.fileKind_item (h : LayoutSafe s) {item : StateItem zod} (hitem : item ∈ s.items) :
    fileKind item.file.path = some item.kind := by
  simp only [ContractsDesiredState.items, List.mem_append, List.mem_map, List.mem_singleton]
    at hitem
  rcases hitem with (((((((h' | h') | h') | h') | h') | h') | h') | h') | h'
  · obtain ⟨node, -, rfl⟩ := h'
    exact fileKind_node node
  · obtain ⟨role, hrole, rfl⟩ := h'
    exact fileKind_role (h.roles role hrole)
  · obtain rfl := h'
    show fileKind assignmentsFile = some .assignments
    decide +kernel
  · obtain ⟨doc, hdoc, rfl⟩ := h'
    exact fileKind_agent (h.agents doc hdoc)
  · obtain ⟨doc, hdoc, rfl⟩ := h'
    exact fileKind_workflow (h.workflows doc hdoc)
  · obtain ⟨doc, hdoc, rfl⟩ := h'
    exact fileKind_skill (h.skills doc hdoc)
  · obtain ⟨doc, hdoc, rfl⟩ := h'
    exact fileKind_agentOverride (h.agentOverrides doc hdoc)
  · obtain ⟨doc, hdoc, rfl⟩ := h'
    exact fileKind_workflowOverride (h.workflowOverrides doc hdoc)
  · obtain ⟨doc, hdoc, rfl⟩ := h'
    exact fileKind_skillOverride (h.skillOverrides doc hdoc)

/-- Objects with distinct keys have distinct paths, where the path determines the key. -/
theorem pairwise_paths {α κ : Type} {xs : List α} {key : α → κ} {toFile : α → DesiredStateFile}
    (hkeys : (xs.map key).Nodup)
    (hinj : ∀ x y, (toFile x).path = (toFile y).path → key x = key y) :
    xs.Pairwise fun x y => (toFile x).path ≠ (toFile y).path := by
  rw [List.Nodup, List.pairwise_map] at hkeys
  exact hkeys.imp fun hne hpath => hne (hinj _ _ hpath)

theorem pairwise_definitions {docs : List DefinitionDoc} {kind : String} (hdir : '/' ∉ dir.toList)
    (h : (docs.map fun doc => doc.name.val).Nodup) :
    docs.Pairwise fun a b => (definitionFile dir kind a).path ≠ (definitionFile dir kind b).path :=
  pairwise_paths h fun _ _ hpath => platformFilePath_inj hdir hpath

theorem pairwise_overrides {docs : List OverrideDoc} {kind : String} (hdir : '/' ∉ dir.toList)
    (h : (docs.map fun doc => (doc.val.scope.val, doc.val.name.val)).Nodup) :
    docs.Pairwise fun a b => (overrideFile dir kind a).path ≠ (overrideFile dir kind b).path := by
  apply pairwise_paths h
  intro a b hpath
  obtain ⟨hscope, hname⟩ := overrideFilePath_inj hdir hpath
  exact Prod.ext hscope hname

/-- Two items of one kind have different paths; that is what the names are for. -/
theorem DuplicateFree.pairwise (h : DuplicateFree s) :
    s.items.Pairwise fun a b => a.kind = b.kind → a.file.path ≠ b.file.path := by
  have hagents : '/' ∉ agentsDir.toList := by decide
  have hworkflows : '/' ∉ workflowsDir.toList := by decide
  have hskills : '/' ∉ skillsDir.toList := by decide
  have hroles : '/' ∉ rolesDir.toList := by decide
  simp only [ContractsDesiredState.items, List.pairwise_append, List.pairwise_map,
    List.pairwise_singleton, List.mem_append, List.mem_map, List.mem_singleton]
  -- items of different segments have different kinds
  simp only [or_imp, forall_and, forall_exists_index, and_imp, forall_apply_eq_imp_iff₂, forall_eq,
    StateItem.kind, reduceCtorEq, false_imp_iff, implies_true, and_true, true_imp_iff]
  refine ⟨⟨⟨⟨⟨⟨⟨?_, ?_⟩, ?_⟩, ?_⟩, ?_⟩, ?_⟩, ?_⟩, ?_⟩
  · exact pairwise_paths h.nodes fun _ _ hpath => scopeFilePath_inj hpath
  · exact pairwise_paths h.roles fun _ _ hpath => platformFilePath_inj hroles hpath
  · exact pairwise_definitions hagents h.agents
  · exact pairwise_definitions hworkflows h.workflows
  · exact pairwise_definitions hskills h.skills
  · exact pairwise_overrides hagents h.agentOverrides
  · exact pairwise_overrides hworkflows h.workflowOverrides
  · exact pairwise_overrides hskills h.skillOverrides

/-- Items of different kinds have files of different kinds. -/
theorem LayoutSafe.nodup_paths (hsafe : LayoutSafe s) (hfree : DuplicateFree s) :
    ((serializeDesiredState s).map DesiredStateFile.path).Nodup := by
  rw [serialize_items, List.map_map, List.Nodup, List.pairwise_map]
  apply hfree.pairwise.imp_of_mem
  intro a b ha hb hne hpath
  have hkind : some a.kind = some b.kind := by
    rw [← hsafe.fileKind_item ha, ← hsafe.fileKind_item hb]
    exact congrArg fileKind hpath
  exact hne (Option.some.inj hkind) hpath

end Distinct

/-! ## The round trip -/

/-- The same objects in another order. -/
structure SameObjects (s t : ContractsDesiredState zod) : Prop where
  nodes : s.nodes.Perm t.nodes
  roles : s.roles.Perm t.roles
  assignments : s.assignments.Perm t.assignments
  agents : s.agents.Perm t.agents
  workflows : s.workflows.Perm t.workflows
  skills : s.skills.Perm t.skills
  agentOverrides : s.agentOverrides.Perm t.agentOverrides
  workflowOverrides : s.workflowOverrides.Perm t.workflowOverrides
  skillOverrides : s.skillOverrides.Perm t.skillOverrides

/-- The files of a state have distinct paths, and are read as the state up to the order. -/
def RoundTrips (s : ContractsDesiredState zod) : Prop :=
  ((serializeDesiredState s).map DesiredStateFile.path).Nodup ∧
    ∃ t, parseDesiredStateFiles zod (serializeDesiredState s) = .ok t ∧ SameObjects s t

section RoundTrip

variable {s : ContractsDesiredState zod}

theorem LayoutSafe.roundTrips (hsafe : LayoutSafe s) (hfree : DuplicateFree s) : RoundTrips s :=
  ⟨hsafe.nodup_paths hfree, s, parse_serialize hsafe,
    ⟨.refl _, .refl _, .refl _, .refl _, .refl _, .refl _, .refl _, .refl _, .refl _⟩⟩

/-- A state whose files are read at all fits the layout: any other object has a file that is
refused. -/
theorem layoutSafe_of_parse {t : ContractsDesiredState zod}
    (h : parseDesiredStateFiles zod (serializeDesiredState s) = .ok t) : LayoutSafe s := by
  have hnot : ∀ item ∈ s.items, ¬ Refused zod item.file := by
    intro item hitem
    apply not_refused_of_parse h
    rw [serialize_items]
    exact List.mem_map_of_mem hitem
  simp only [ContractsDesiredState.items, List.mem_append, List.mem_map, List.mem_singleton]
    at hnot
  have hagents : '/' ∉ agentsDir.toList := by decide
  have hworkflows : '/' ∉ workflowsDir.toList := by decide
  have hskills : '/' ∉ skillsDir.toList := by decide
  have hworkflowOverride : ∀ doc ∈ s.workflowOverrides, doc.val.name.val ≠ "scope" :=
    fun doc hdoc hname => hnot (.workflowOverride doc) (by simp [hdoc])
      (refused_override_scope hworkflows (by decide) hname)
  have hskillOverride : ∀ doc ∈ s.skillOverrides, doc.val.name.val ≠ "scope" :=
    fun doc hdoc hname => hnot (.skillOverride doc) (by simp [hdoc])
      (refused_override_scope hskills (by decide) hname)
  have hskillAgents : ∀ doc ∈ s.skillOverrides, agentsDir ∉ doc.val.scope.slugs :=
    fun doc hdoc hslug => hnot (.skillOverride doc) (by simp [hdoc])
      (refused_below_agents hskills (by decide) (hskillOverride doc hdoc) hslug)
  exact {
    roles := fun role hrole hname => hnot (.role role) (by simp [hrole]) (refused_role_scope hname)
    agents := fun doc hdoc hname => hnot (.agent doc) (by simp [hdoc])
      (refused_definition_scope hagents (by decide) hname)
    workflows := fun doc hdoc hname => hnot (.workflow doc) (by simp [hdoc])
      (refused_definition_scope hworkflows (by decide) hname)
    skills := fun doc hdoc hname => hnot (.skill doc) (by simp [hdoc])
      (refused_definition_scope hskills (by decide) hname)
    agentOverrides := fun doc hdoc hname => hnot (.agentOverride doc) (by simp [hdoc])
      (refused_override_scope hagents (by decide) hname)
    workflowOverrides := fun doc hdoc => ⟨hworkflowOverride doc hdoc, fun hslug =>
      hnot (.workflowOverride doc) (by simp [hdoc])
        (refused_below_agents hworkflows (by decide) (hworkflowOverride doc hdoc) hslug)⟩
    skillOverrides := fun doc hdoc => ⟨hskillOverride doc hdoc, hskillAgents doc hdoc,
      fun hslug => hnot (.skillOverride doc) (by simp [hdoc])
        (refused_below_workflows (hskillOverride doc hdoc) (hskillAgents doc hdoc) hslug)⟩ }

end RoundTrip

/-- **The round trip holds exactly for the states that fit the layout.** What is read from files is
written to the canonical paths. -/
theorem desired_state_round_trips_iff (zod : Zod) :
    (∀ s : ContractsDesiredState zod, DuplicateFree s → (RoundTrips s ↔ LayoutSafe s)) ∧
    ∀ (files : List DesiredStateFile) (s : ContractsDesiredState zod),
      parseDesiredStateFiles zod files = .ok s → DuplicateFree s →
        serializeDesiredState s = s.items.map fun item => ⟨item.canonicalPath, item.content⟩ := by
  constructor
  · intro s hfree
    constructor
    · rintro ⟨-, t, hparse, -⟩
      exact layoutSafe_of_parse hparse
    · exact fun hsafe => hsafe.roundTrips hfree
  · intro files s _ _
    exact serialize_canonical s

/-- The uuid format with one text for all issues. -/
def zodDefaults : Zod := ⟨isUuidText, fun _ => "Invalid input"⟩

def auditor (name : String) (h : Checks.slug.all (fun check => check.1 name) = true) : RoleDoc where
  name := ⟨name, h⟩
  permissions := ⟨[⟨"work_items:read", by decide +kernel⟩], List.cons_ne_nil _ _⟩

/-- A state with nothing but the role `auditor`. -/
def auditorState : ContractsDesiredState zodDefaults where
  roles := [auditor "auditor" (by decide +kernel)]

/-- A state with nothing but a role called `scope`. -/
def scopeRoleState : ContractsDesiredState zodDefaults where
  roles := [auditor "scope" (by decide +kernel)]

theorem auditorState_duplicateFree : DuplicateFree auditorState := by
  constructor <;> simp [auditorState]

theorem scopeRoleState_duplicateFree : DuplicateFree scopeRoleState := by
  constructor <;> simp [scopeRoleState]

theorem desired_state_round_trips_auditor : RoundTrips auditorState := by
  apply ((desired_state_round_trips_iff zodDefaults).1 _ auditorState_duplicateFree).2
  constructor <;> simp [auditorState, auditor]

/-- The file of a role called `scope` is read as a scope node. -/
theorem scope_role_does_not_round_trip :
    ¬ ∀ s : ContractsDesiredState zodDefaults, DuplicateFree s → RoundTrips s := by
  intro h
  obtain ⟨-, t, hparse, -⟩ := h scopeRoleState scopeRoleState_duplicateFree
  exact (layoutSafe_of_parse hparse).roles _ List.mem_cons_self rfl

end Nexus
