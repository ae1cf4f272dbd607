import Nexus.Scope.ScopeService

/-!
# The schemas of the desired state

The documents of a GitOps repository and their schemas, as Zod reads them: every field is checked,
the issues of all fields come together in the order of the fields, absent fields get their defaults,
and unknown keys are refused. A document is a structure whose fields have passed their checks, so
that only valid documents can be written down. The uuid format and the texts of the built-in issues
belong to Zod and are parameters.
-/

set_option autoImplicit false

namespace Nexus

/-! ## Validation -/

inductive ZodIssue where
  | invalidType (expected : String)
  | invalidValue (values : List String)
  | tooSmall (minimum : Nat)
  | tooBig (maximum : Nat)
  | invalidFormat (format : String)
  | unrecognizedKeys (keys : List String)
  | custom (message : String)
  deriving DecidableEq, Repr

/-- What belongs to Zod: the format `uuid`, and the texts of the issues without a message. -/
structure Zod where
  isUuid : String → Bool
  text : ZodIssue → String

def Zod.message (zod : Zod) : ZodIssue → String
  | .custom message => message
  | issue => zod.text issue

/-- The result of `safeParse`. -/
inductive Checked (α : Type) where
  | ok (a : α)
  | error (issues : List ZodIssue)

namespace Checked

variable {α β : Type}

def map (f : α → β) : Checked α → Checked β
  | .ok a => .ok (f a)
  | .error issues => .error issues

/-- Another field of an object; the issues of both sides come together. -/
def field (f : Checked (α → β)) (x : Checked α) : Checked β :=
  match f, x with
  | .ok f, .ok a => .ok (f a)
  | .ok _, .error issues => .error issues
  | .error issues, .ok _ => .error issues
  | .error issues, .error issues' => .error (issues ++ issues')

@[simp] theorem field_ok (f : α → β) (a : α) : field (.ok f) (.ok a) = .ok (f a) := rfl

theorem field_error {f : Checked (α → β)} {x : Checked α} {issues : List ZodIssue}
    (h : f = .error issues ∨ x = .error issues) : ∃ issues', field f x = .error issues' := by
  rcases h with rfl | rfl
  · cases x <;> exact ⟨_, rfl⟩
  · cases f <;> exact ⟨_, rfl⟩

end Checked

/-- A schema; `none` is `undefined`. -/
abbrev ZodSchema (α : Type) := Option Json → Checked α

namespace ZodSchema

variable {α : Type}

def literal (value : String) : ZodSchema Unit
  | some (.str s) => if s = value then .ok () else .error [.invalidValue [value]]
  | _ => .error [.invalidValue [value]]

/-- `z.enum`; `read` finds the member with a text. -/
def enum (values : List String) (read : String → Option α) : ZodSchema α
  | some (.str s) =>
      match read s with
      | some a => .ok a
      | none => .error [.invalidValue values]
  | _ => .error [.invalidValue values]

/-- A text that passes all checks. -/
def Passing (checks : List ((String → Bool) × ZodIssue)) : Type :=
  {s : String // checks.all (fun check => check.1 s) = true}

/-- A text; there is an issue for every check that it does not pass. -/
def string (checks : List ((String → Bool) × ZodIssue)) : ZodSchema (Passing checks)
  | some (.str s) =>
      if h : checks.all (fun check => check.1 s) = true then .ok ⟨s, h⟩
      else .error ((checks.filter fun check => !check.1 s).map Prod.snd)
  | _ => .error [.invalidType "string"]

def boolean : ZodSchema Bool
  | some (.bool b) => .ok b
  | _ => .error [.invalidType "boolean"]

/-- `z.record(z.string(), z.unknown())`. -/
def record : ZodSchema (OrderedMap String Json)
  | some (.obj fields) => .ok fields
  | _ => .error [.invalidType "record"]

def optional (schema : ZodSchema α) : ZodSchema (Option α)
  | none => .ok none
  | some v => (schema (some v)).map some

def nullable (schema : ZodSchema α) : ZodSchema (Option α)
  | some .null => .ok none
  | v => (schema v).map some

def default (value : α) (schema : ZodSchema α) : ZodSchema α
  | none => .ok value
  | some v => schema (some v)

/-- The elements of an array with the issues of all of them. -/
def elements (schema : ZodSchema α) : List Json → Checked (List α)
  | [] => .ok []
  | x :: xs =>
      ((Checked.field (.ok fun a as => a :: as) (schema (some x))).field (elements schema xs))

def array (schema : ZodSchema α) : ZodSchema (List α)
  | some (.arr xs) => elements schema xs
  | _ => .error [.invalidType "array"]

/-- `z.array(…).min(1)`. -/
def nonEmptyArray (schema : ZodSchema α) : ZodSchema {xs : List α // xs ≠ []} := fun v =>
  match array schema v with
  | .ok [] => .error [.tooSmall 1]
  | .ok (x :: xs) => .ok ⟨x :: xs, List.cons_ne_nil x xs⟩
  | .error issues => .error issues

/-- `z.object(shape).strict()`: the fields of the shape, and no others. -/
def strict (keys : List String) (shape : OrderedMap String Json → Checked α) : ZodSchema α
  | some (.obj fields) =>
      let unknown := (OrderedMap.keys fields).filter fun key => key ∉ keys
      if unknown = [] then shape fields
      else (Checked.field (.ok fun a (_ : Unit) => a) (shape fields)).field
        (.error [.unrecognizedKeys unknown])
  | _ => .error [.invalidType "object"]

end ZodSchema

/-- Reads the next field of a shape. -/
def Checked.andField {α β : Type} (f : Checked (α → β)) (fields : OrderedMap String Json)
    (key : String) (schema : ZodSchema α) : Checked β :=
  f.field (schema (OrderedMap.get? fields key))

/-! ## Texts -/

def gitopsApiVersion : String := "nexus.gitops/v1"

def isSlugChar (c : Char) : Bool := ('a' ≤ c && c ≤ 'z') || ('0' ≤ c && c ≤ '9')

/-- `/^[a-z0-9]+(?:-[a-z0-9]+)*$/`. -/
def isSlug (s : String) : Bool :=
  (s.toList.splitOn '-').all fun part => part ≠ [] && part.all isSlugChar

/-- `p === "/"` or `/^(\/[a-z0-9]+(?:-[a-z0-9]+)*)+$/`. -/
def isScopePath (p : String) : Bool :=
  p = "/" ||
    match p.toList.splitOn '/' with
    | [] :: slug :: slugs => (slug :: slugs).all fun s => isSlug (String.ofList s)
    | _ => false

/-- `/^[a-z_]+:[a-z]+$/`. -/
def isPermissionName (s : String) : Bool :=
  match s.toList.splitOn ':' with
  | [resource, action] =>
      resource ≠ [] && resource.all (fun c => ('a' ≤ c && c ≤ 'z') || c = '_') &&
        action ≠ [] && action.all fun c => 'a' ≤ c && c ≤ 'z'
  | _ => false

namespace Checks

def nonEmpty : List ((String → Bool) × ZodIssue) := [(fun s => s ≠ "", .tooSmall 1)]

/-- `z.string().min(1).max(maximum)`. -/
def bounded (maximum : Nat) : List ((String → Bool) × ZodIssue) :=
  [(fun s => s ≠ "", .tooSmall 1), (fun s => s.length ≤ maximum, .tooBig maximum)]

def slug : List ((String → Bool) × ZodIssue) :=
  [(fun s => s ≠ "", .tooSmall 1),
    (isSlug, .custom "slug must be lowercase alphanumeric with single hyphens")]

def scopePath : List ((String → Bool) × ZodIssue) :=
  [(isScopePath, .custom "scope path must be \"/\" or a /slug/slug chain of lowercase slugs")]

def permissionName : List ((String → Bool) × ZodIssue) :=
  [(isPermissionName, .custom "permission must be \"resource:action\"")]

def uuid (zod : Zod) : List ((String → Bool) × ZodIssue) :=
  [(zod.isUuid, .invalidFormat "uuid")]

def description : List ((String → Bool) × ZodIssue) :=
  [(fun s => s.length ≤ 1024, .tooBig 1024)]

end Checks

open ZodSchema (Passing)

abbrev Slug : Type := Passing Checks.slug

abbrev ScopePath : Type := Passing Checks.scopePath

abbrev NonEmptyText : Type := Passing Checks.nonEmpty

/-! ## Scope nodes -/

/-- `ScopeNodeDocSchema`; `apiVersion` and `kind` are literals. -/
structure ScopeNodeDoc (zod : Zod) where
  id : Option (Passing (Checks.uuid zod)) := none
  type : ScopeNodeType
  name : Passing (Checks.bounded 255)
  slug : Slug
  metadata : Option (OrderedMap String Json) := none

/-- The entry of a field that may be absent. -/
def optionalEntry (key : String) (value : Option Json) : OrderedMap String Json :=
  match value with
  | none => []
  | some v => [(key, v)]

/-- A record or `null`. -/
def recordOrNull : Option (OrderedMap String Json) → Json
  | none => .null
  | some fields => .obj fields

def ScopeNodeDoc.toJson {zod : Zod} (doc : ScopeNodeDoc zod) : Json :=
  .obj ([("apiVersion", .str gitopsApiVersion), ("kind", .str "ScopeNode")] ++
    optionalEntry "id" (doc.id.map fun id => .str id.val) ++
    [("type", .str doc.type.text), ("name", .str doc.name.val), ("slug", .str doc.slug.val),
      ("metadata", recordOrNull doc.metadata)])

def scopeNodeDocSchema (zod : Zod) : ZodSchema (ScopeNodeDoc zod) :=
  .strict ["apiVersion", "kind", "id", "type", "name", "slug", "metadata"] fun fields =>
    (.ok fun _ _ id type name slug metadata => { id, type, name, slug, metadata } :
        Checked (Unit → Unit → _ → _ → _ → _ → _ → ScopeNodeDoc zod))
      |>.andField fields "apiVersion" (.literal gitopsApiVersion)
      |>.andField fields "kind" (.literal "ScopeNode")
      |>.andField fields "id" (.optional (.string (Checks.uuid zod)))
      |>.andField fields "type"
        (.enum (scopeNodeTypes.map ScopeNodeType.text) ScopeNodeType.ofText?)
      |>.andField fields "name" (.string (Checks.bounded 255))
      |>.andField fields "slug" (.string Checks.slug)
      |>.andField fields "metadata" (.default none (.nullable .record))

/-! ## Roles and assignments -/

/-- `RoleDocSchema`. -/
structure RoleDoc where
  name : Slug
  description : Option (Passing Checks.description) := none
  ownerScope : Option ScopePath := none
  permissions : {xs : List (Passing Checks.permissionName) // xs ≠ []}

def RoleDoc.toJson (doc : RoleDoc) : Json :=
  .obj ([("apiVersion", .str gitopsApiVersion), ("kind", .str "Role"),
      ("name", .str doc.name.val)] ++
    optionalEntry "description" (doc.description.map fun text => .str text.val) ++
    [("ownerScope", (doc.ownerScope.map fun path => Json.str path.val).getD .null),
      ("permissions", .arr (doc.permissions.val.map fun name => .str name.val))])

def roleDocSchema : ZodSchema RoleDoc :=
  .strict ["apiVersion", "kind", "name", "description", "ownerScope", "permissions"] fun fields =>
    (.ok fun _ _ name description ownerScope permissions =>
        { name, description, ownerScope, permissions } :
        Checked (Unit → Unit → _ → _ → _ → _ → RoleDoc))
      |>.andField fields "apiVersion" (.literal gitopsApiVersion)
      |>.andField fields "kind" (.literal "Role")
      |>.andField fields "name" (.string Checks.slug)
      |>.andField fields "description" (.optional (.string Checks.description))
      |>.andField fields "ownerScope" (.default none (.nullable (.string Checks.scopePath)))
      |>.andField fields "permissions" (.nonEmptyArray (.string Checks.permissionName))

/-- `AssignmentSchema`. -/
structure Assignment where
  user : NonEmptyText
  role : NonEmptyText
  scope : ScopePath

def Assignment.toJson (assignment : Assignment) : Json :=
  .obj [("user", .str assignment.user.val), ("role", .str assignment.role.val),
    ("scope", .str assignment.scope.val)]

def assignmentSchema : ZodSchema Assignment :=
  .strict ["user", "role", "scope"] fun fields =>
    (.ok fun user role scope => { user, role, scope } : Checked (_ → _ → _ → Assignment))
      |>.andField fields "user" (.string Checks.nonEmpty)
      |>.andField fields "role" (.string Checks.nonEmpty)
      |>.andField fields "scope" (.string Checks.scopePath)

/-- The document of `AssignmentDocSchema`. -/
def assignmentList (assignments : List Assignment) : Json :=
  .obj [("apiVersion", .str gitopsApiVersion), ("kind", .str "AssignmentList"),
    ("assignments", .arr (assignments.map Assignment.toJson))]

def assignmentDocSchema : ZodSchema (List Assignment) :=
  .strict ["apiVersion", "kind", "assignments"] fun fields =>
    (.ok fun _ _ assignments => assignments : Checked (Unit → Unit → _ → List Assignment))
      |>.andField fields "apiVersion" (.literal gitopsApiVersion)
      |>.andField fields "kind" (.literal "AssignmentList")
      |>.andField fields "assignments" (.array assignmentSchema)

/-! ## Definitions and overrides -/

/-- `OverrideSourceSchema`. -/
inductive OverrideSource where
  | seeded
  | admin
  | repository
  | imported
  | agentFactory
  deriving DecidableEq, Repr

def OverrideSource.text : OverrideSource → String
  | .seeded => "seeded"
  | .admin => "admin"
  | .repository => "repository"
  | .imported => "imported"
  | .agentFactory => "agent_factory"

def overrideSources : List OverrideSource := [.seeded, .admin, .repository, .imported, .agentFactory]

def OverrideSource.ofText? (text : String) : Option OverrideSource :=
  overrideSources.find? fun source => source.text = text

/-- `OverrideStrategySchema`. -/
inductive OverrideStrategy where
  | replace
  | merge
  deriving DecidableEq, Repr

def OverrideStrategy.text : OverrideStrategy → String
  | .replace => "replace"
  | .merge => "merge"

def OverrideStrategy.ofText? (text : String) : Option OverrideStrategy :=
  [OverrideStrategy.replace, .merge].find? fun strategy => strategy.text = text

/-- The documents of the schemas over `baseDefinition`. -/
structure DefinitionDoc where
  name : Slug
  source : OverrideSource
  locked : Bool := false
  definition : OrderedMap String Json

def DefinitionDoc.toJson (kind : String) (doc : DefinitionDoc) : Json :=
  .obj [("apiVersion", .str gitopsApiVersion), ("name", .str doc.name.val),
    ("source", .str doc.source.text), ("locked", .bool doc.locked),
    ("definition", .obj doc.definition), ("kind", .str kind)]

/-- A schema over `baseDefinition`. -/
def definitionSchema (kind : String) : ZodSchema DefinitionDoc :=
  .strict ["apiVersion", "name", "source", "locked", "definition", "kind"] fun fields =>
    (.ok fun _ name source locked definition _ => { name, source, locked, definition } :
        Checked (Unit → _ → _ → _ → _ → Unit → DefinitionDoc))
      |>.andField fields "apiVersion" (.literal gitopsApiVersion)
      |>.andField fields "name" (.string Checks.slug)
      |>.andField fields "source"
        (.enum (overrideSources.map OverrideSource.text) OverrideSource.ofText?)
      |>.andField fields "locked" (.default false .boolean)
      |>.andField fields "definition" .record
      |>.andField fields "kind" (.literal kind)

def agentProfileDocSchema : ZodSchema DefinitionDoc := definitionSchema "AgentProfile"

def workflowDocSchema : ZodSchema DefinitionDoc := definitionSchema "Workflow"

def skillDocSchema : ZodSchema DefinitionDoc := definitionSchema "Skill"

/-- `OverrideDocShape` with what identifies the override. -/
structure OverrideShape where
  name : Slug
  scope : ScopePath
  source : OverrideSource
  locked : Bool := false
  strategy : OverrideStrategy
  definition : Option (OrderedMap String Json) := none
  overrides : Option (OrderedMap String Json) := none
  bodyRef : Option NonEmptyText := none

/-- The issues of `withBodyRule`. -/
def OverrideShape.bodyIssues (doc : OverrideShape) : List ZodIssue :=
  (if doc.strategy = .replace ∧ doc.definition.isNone ∧ doc.bodyRef.isNone then
    [.custom "replace override requires definition or bodyRef"] else []) ++
  (if doc.strategy = .merge ∧ doc.overrides.isNone then
    [.custom "merge override requires an overrides patch"] else [])

/-- An override with a body. -/
abbrev OverrideDoc : Type := {doc : OverrideShape // doc.bodyIssues = []}

def OverrideShape.toJson (kind : String) (doc : OverrideShape) : Json :=
  .obj ([("apiVersion", .str gitopsApiVersion), ("name", .str doc.name.val),
      ("scope", .str doc.scope.val), ("source", .str doc.source.text),
      ("locked", .bool doc.locked), ("strategy", .str doc.strategy.text),
      ("definition", recordOrNull doc.definition), ("overrides", recordOrNull doc.overrides)] ++
    optionalEntry "bodyRef" (doc.bodyRef.map fun text => .str text.val) ++
    [("kind", .str kind)])

/-- The object of `withBodyRule` before its refinement. -/
def overrideShapeSchema (kind : String) : ZodSchema OverrideShape :=
  .strict ["apiVersion", "name", "scope", "source", "locked", "strategy", "definition", "overrides",
      "bodyRef", "kind"] fun fields =>
    (.ok fun _ name scope source locked strategy definition overrides bodyRef _ =>
        { name, scope, source, locked, strategy, definition, overrides, bodyRef } :
        Checked (Unit → _ → _ → _ → _ → _ → _ → _ → _ → Unit → OverrideShape))
      |>.andField fields "apiVersion" (.literal gitopsApiVersion)
      |>.andField fields "name" (.string Checks.slug)
      |>.andField fields "scope" (.string Checks.scopePath)
      |>.andField fields "source"
        (.enum (overrideSources.map OverrideSource.text) OverrideSource.ofText?)
      |>.andField fields "locked" (.default false .boolean)
      |>.andField fields "strategy" (.enum ["replace", "merge"] OverrideStrategy.ofText?)
      |>.andField fields "definition" (.default none (.nullable .record))
      |>.andField fields "overrides" (.default none (.nullable .record))
      |>.andField fields "bodyRef" (.optional (.string Checks.nonEmpty))
      |>.andField fields "kind" (.literal kind)

/-- `withBodyRule`. -/
def overrideSchema (kind : String) : ZodSchema OverrideDoc := fun v =>
  match overrideShapeSchema kind v with
  | .error issues => .error issues
  | .ok doc => if h : doc.bodyIssues = [] then .ok ⟨doc, h⟩ else .error doc.bodyIssues

def agentOverrideDocSchema : ZodSchema OverrideDoc := overrideSchema "AgentOverride"

def workflowOverrideDocSchema : ZodSchema OverrideDoc := overrideSchema "WorkflowOverride"

def skillOverrideDocSchema : ZodSchema OverrideDoc := overrideSchema "SkillOverride"

end Nexus
