import Nexus.Gitops.Reconciliation
import Nexus.Gitops.ScopePaths

/-!
# The tables that a plan is applied to

The rows of scopes, roles, role assignments, workflows, agent profiles and skills, and the statements
that `ReconciliationApplyService` and the handlers of the objects issue through the manager of the
transaction. A statement is a function of the tables that throws where a constraint of the database
is violated. The columns of a workflow, an agent profile or a skill that no statement looks at are
an ordered record.
-/

set_option autoImplicit false

namespace Nexus

/-! ## Values of fields -/

/-- A value as the parameter of a statement. -/
def Json.parameter : Json → String
  | .str s => s
  | v => jsonStringify v

namespace ObjectFields

/-- `fields[key] ?? value`. -/
def orElse (fields : ObjectFields) (key : String) (value : Json) : Json :=
  match OrderedMap.get? fields key with
  | none | some .null => value
  | some v => v

/-- A destructured field with a default, which stands for `undefined` only. -/
def withDefault (fields : ObjectFields) (key : String) (value : Json) : Json :=
  (OrderedMap.get? fields key).getD value

/-- The text of a field that is neither `null` nor `undefined`. -/
def text (fields : ObjectFields) (key : String) : Option String :=
  match OrderedMap.get? fields key with
  | none | some .null => none
  | some v => some v.parameter

/-- The text of a field that is truthy. -/
def truthyText (fields : ObjectFields) (key : String) : Option String :=
  match OrderedMap.get? fields key with
  | none | some .null | some (.bool false) | some (.num 0) | some (.str "") => none
  | some v => some v.parameter

end ObjectFields

/-- `field.replace(/[A-Z]/g, …)`: camel case to snake case. -/
def toColumn (field : String) : String :=
  String.ofList (field.toList.flatMap fun c => if c.isUpper then ['_', c.toLower] else [c])

/-- The exception's message. -/
def ScopeError.message : ScopeError → String
  | .badRequest message => message
  | .forbidden message => message
  | .database constraint => constraint

/-! ## Rows -/

structure UserRecord where
  id : String
  username : String

structure RoleRecord where
  id : String
  name : String
  description : String
  managedBy : Option String := none
  ownerScopeNodeId : Option String := none

structure AssignmentRecord where
  userId : String
  roleId : String
  scopeNodeId : String
  managedBy : Option String := none

inductive ConfigTable where
  | workflows
  | agentProfiles
  | skills
  deriving DecidableEq, Repr

/-- A row of `workflows`, `agent_profiles` or `skills`. -/
structure ConfigRow where
  table : ConfigTable
  name : String
  scopeNodeId : Option String
  managedBy : Option String := none
  managedBindingId : Option String := none
  isActive : Bool := true
  columns : OrderedMap String Json := []

/-- The tables; `scopeManagedBy` is the column `managed_by` of `scope_nodes`, by the id. -/
structure ApplyTables where
  scopes : ScopeView
  scopeManagedBy : OrderedMap String String := []
  users : List UserRecord := []
  roles : List RoleRecord := []
  roleAssignments : List AssignmentRecord := []
  configs : List ConfigRow := []

namespace ApplyTables

def setScopes (t : ApplyTables) (scopes : ScopeTables) : ApplyTables :=
  { t with scopes := { t.scopes with tables := scopes } }

def findByUsername (t : ApplyTables) (username : String) : Option UserRecord :=
  t.users.find? fun user => user.username = username

def findRole (t : ApplyTables) (name : String) : Option RoleRecord :=
  t.roles.find? fun role => role.name = name

def hasScopeNode (t : ApplyTables) (id : String) : Bool :=
  t.scopes.tables.nodes.any fun node => node.id = id

/-- A parameter for a column of type `uuid`. -/
def uuidColumn (text : String) : Except String Unit :=
  (uuidParameter text).mapError ScopeError.message

/-- A parameter for a column of type `varchar(n)`. -/
def varcharColumn (n : Nat) (text : String) : Except String String :=
  if n < text.length then .error s!"value too long for type character varying({n})" else .ok text

/-- A parameter for a column that is not nullable. -/
def notNull (value : Option Json) : Except String String :=
  match value with
  | none | some .null => .error "null value violates not-null constraint"
  | some v => .ok v.parameter

/-- One assignment after another; a column may be set once. -/
def assignColumns {α : Type} (set : α → String → Option Json → Except String α)
    (pairs : List (String × Option Json)) (row : α) : Except String α :=
  if (pairs.map Prod.fst).Nodup then pairs.foldlM (fun row pair => set row pair.1 pair.2) row
  else .error "multiple assignments to same column"

/-! ## Statements on `scope_nodes` -/

/-- `SET column = value` in a row of `scope_nodes`. -/
def setNodeColumn (node : ScopeNode) (column : String) (value : Option Json) :
    Except String ScopeNode :=
  match column with
  | "name" => do
      let name ← varcharColumn 255 (← notNull value)
      .ok { node with name }
  | "slug" => do
      let slug ← varcharColumn 255 (← notNull value)
      .ok { node with slug }
  | "type" => do
      let type ← notNull value
      match ScopeNodeType.ofText? type with
      | some type => .ok { node with type }
      | none => .error "scope_nodes.type"
  | "parent_id" =>
      match value with
      | none | some .null => .ok { node with parentId := none }
      | some v => do
          uuidColumn v.parameter
          .ok { node with parentId := some v.parameter }
  | "metadata" => .ok { node with metadata := value }
  | _ => .ok node

/-- The constraints on a row that has been updated. -/
def checkUpdatedNode (t : ApplyTables) (node : ScopeNode) : Except String Unit :=
  if node.parentId.any fun parentId => !t.hasScopeNode parentId then
    .error "scope_nodes_parent_id_fkey"
  else if t.scopes.tables.nodes.any fun x => x.id ≠ node.id ∧ x.slugKey = node.slugKey then
    .error "uq_scope_nodes_parent_slug"
  else .ok ()

/-- `UPDATE scope_nodes SET …, managed_by = 'gitops' WHERE id = $1`. -/
def updateScopeNode (t : ApplyTables) (id : String) (pairs : List (String × Option Json)) :
    Except String ApplyTables := do
  uuidColumn id
  match t.scopes.tables.findNode id with
  | none => .ok t
  | some node => do
      let updated ← assignColumns setNodeColumn pairs node
      t.checkUpdatedNode updated
      let nodes := t.scopes.tables.nodes.map fun x => if x.id = id then updated else x
      .ok { t.setScopes { t.scopes.tables with nodes } with
        scopeManagedBy := OrderedMap.set t.scopeManagedBy id gitopsManagedBy }

/-- `UPDATE scope_nodes SET managed_by = 'gitops' WHERE id = $1`. -/
def tagScopeNode (t : ApplyTables) (id : String) : Except String ApplyTables := do
  uuidColumn id
  if t.hasScopeNode id then
    .ok { t with scopeManagedBy := OrderedMap.set t.scopeManagedBy id gitopsManagedBy }
  else .ok t

/-- What the foreign keys with `ON DELETE CASCADE` delete with a scope node. -/
def withoutScopeNode (t : ApplyTables) (id : String) : ApplyTables :=
  let ownedRoles := (t.roles.filter fun role => role.ownerScopeNodeId = some id).map RoleRecord.id
  { t.setScopes {
      nodes := t.scopes.tables.nodes.filter fun node => node.id ≠ id
      closure := t.scopes.tables.closure.filter fun row =>
        row.ancestorId ≠ id ∧ row.descendantId ≠ id } with
    scopeManagedBy := OrderedMap.erase t.scopeManagedBy id
    roles := t.roles.filter fun role => role.ownerScopeNodeId ≠ some id
    roleAssignments := t.roleAssignments.filter fun row =>
      row.scopeNodeId ≠ id ∧ row.roleId ∉ ownedRoles
    configs := t.configs.filter fun row => row.table = .skills ∨ row.scopeNodeId ≠ some id }

/-- `DELETE FROM scope_nodes WHERE id = $1 AND managed_by = 'gitops'`. -/
def deleteScopeNode (t : ApplyTables) (id : String) : Except String ApplyTables := do
  uuidColumn id
  if !t.hasScopeNode id || OrderedMap.get? t.scopeManagedBy id ≠ some gitopsManagedBy then .ok t
  else if t.scopes.tables.nodes.any fun node => node.parentId = some id then
    .error "scope_nodes_parent_id_fkey"
  else .ok (t.withoutScopeNode id)

/-! ## Statements on `roles` and `role_assignments` -/

/-- `INSERT INTO roles … ON CONFLICT (name) DO NOTHING`. -/
def insertRole (t : ApplyTables) (generated name description : String) :
    Except String ApplyTables := do
  let name ← varcharColumn 50 name
  let description ← varcharColumn 255 description
  if (t.findRole name).isSome then .ok t
  else .ok { t with roles := t.roles ++ [{
    id := generated, name, description, managedBy := some gitopsManagedBy }] }

/-- `SET column = value` in a row of `roles`. -/
def setRoleColumn (role : RoleRecord) (column : String) (value : Option Json) :
    Except String RoleRecord :=
  match column with
  | "name" => do
      let name ← varcharColumn 50 (← notNull value)
      .ok { role with name }
  | "description" => do
      let description ← varcharColumn 255 (← notNull value)
      .ok { role with description }
  | _ => .ok role

/-- `UPDATE roles SET … WHERE name = $1`. -/
def updateRole (t : ApplyTables) (name : String) (pairs : List (String × Option Json)) :
    Except String ApplyTables := do
  match t.findRole name with
  | none => .ok t
  | some role => do
      let updated ← assignColumns setRoleColumn pairs role
      if t.roles.any fun x => x.id ≠ role.id ∧ x.name = updated.name then
        .error "roles_name_key"
      else .ok { t with roles := t.roles.map fun x => if x.id = role.id then updated else x }

/-- `DELETE FROM roles WHERE name = $1 AND managed_by = 'gitops'`; assignments of the role go with
it. -/
def deleteRole (t : ApplyTables) (name : String) : ApplyTables :=
  let gone := t.roles.filter fun role =>
    role.name = name ∧ role.managedBy = some gitopsManagedBy
  { t with
    roles := t.roles.filter fun role =>
      ¬ (role.name = name ∧ role.managedBy = some gitopsManagedBy)
    roleAssignments := t.roleAssignments.filter fun row => row.roleId ∉ gone.map RoleRecord.id }

/-- `INSERT INTO role_assignments … ON CONFLICT (user_id, role_id, scope_node_id) DO NOTHING`. -/
def insertAssignment (t : ApplyTables) (userId roleId scopeNodeId : String) :
    Except String ApplyTables := do
  uuidColumn userId
  uuidColumn roleId
  uuidColumn scopeNodeId
  if t.roleAssignments.any fun row =>
      row.userId = userId ∧ row.roleId = roleId ∧ row.scopeNodeId = scopeNodeId then .ok t
  else if !t.users.any fun user => user.id = userId then .error "role_assignments_user_id_fkey"
  else if !t.roles.any fun role => role.id = roleId then .error "role_assignments_role_id_fkey"
  else if !t.hasScopeNode scopeNodeId then .error "role_assignments_scope_node_id_fkey"
  else .ok { t with roleAssignments := t.roleAssignments ++ [{
    userId, roleId, scopeNodeId, managedBy := some gitopsManagedBy }] }

/-- `DELETE FROM role_assignments WHERE …`. -/
def deleteAssignment (t : ApplyTables) (userId roleId scopeNodeId : String) :
    Except String ApplyTables := do
  uuidColumn userId
  uuidColumn roleId
  uuidColumn scopeNodeId
  .ok { t with roleAssignments := t.roleAssignments.filter fun row =>
    ¬ (row.userId = userId ∧ row.roleId = roleId ∧ row.scopeNodeId = scopeNodeId ∧
      row.managedBy = some gitopsManagedBy) }

/-! ## Statements on `workflows`, `agent_profiles` and `skills` -/

/-- `INSERT INTO … ON CONFLICT (name, scope_node_id) DO NOTHING`. Rows without a scope do not
conflict; for `workflows` and `agent_profiles` another index keeps their names distinct. -/
def insertConfig (t : ApplyTables) (row : ConfigRow) : Except String ApplyTables := do
  match row.scopeNodeId with
  | none =>
      if row.table ≠ .skills ∧ t.configs.any fun x =>
          x.table = row.table ∧ x.name = row.name ∧ x.scopeNodeId = none then
        .error "default_name"
      else .ok { t with configs := t.configs ++ [row] }
  | some scopeNodeId => do
      uuidColumn scopeNodeId
      if t.configs.any fun x =>
          x.table = row.table ∧ x.name = row.name ∧ x.scopeNodeId = some scopeNodeId then .ok t
      else if row.table ≠ .skills ∧ !t.hasScopeNode scopeNodeId then .error "scope_node_id_fkey"
      else .ok { t with configs := t.configs ++ [row] }

/-- `SET column = value`. -/
def setConfigColumn (row : ConfigRow) (pair : String × Json) : ConfigRow :=
  if pair.1 = "managed_binding_id" then { row with managedBindingId := some pair.2.parameter }
  else if pair.1 = "is_active" then { row with isActive := pair.2.parameter == "true" }
  else { row with columns := OrderedMap.set row.columns pair.1 pair.2 }

/-- `UPDATE … SET … WHERE name = $1 AND scope_node_id IS NOT DISTINCT FROM $2 AND
managed_by = 'gitops' AND managed_binding_id = …`. -/
def updateConfig (t : ApplyTables) (table : ConfigTable) (name : String)
    (scopeNodeId : Option String) (bindingId : String) (pairs : List (String × Json)) :
    Except String ApplyTables := do
  match scopeNodeId with
  | none => .ok ()
  | some id => uuidColumn id
  uuidColumn bindingId
  .ok { t with configs := t.configs.map fun row =>
    if row.table = table ∧ row.name = name ∧ row.scopeNodeId = scopeNodeId ∧
        row.managedBy = some gitopsManagedBy ∧ row.managedBindingId = some bindingId then
      pairs.foldl setConfigColumn row
    else row }

end ApplyTables

/-- The statements that are issued through the manager of the transaction. -/
inductive ManagerStatement where
  | tagScopeNode (id : String)
  | updateScopeNode (id : String) (pairs : List (String × Option Json))
  | deleteScopeNode (id : String)
  | insertRole (name description : String)
  | updateRole (name : String) (pairs : List (String × Option Json))
  | deleteRole (name : String)
  | insertAssignment (userId roleId scopeNodeId : String)
  | deleteAssignment (userId roleId scopeNodeId : String)
  | insertConfig (row : ConfigRow)
  | updateConfig (table : ConfigTable) (name : String) (scopeNodeId : Option String)
      (bindingId : String) (pairs : List (String × Json))

/-- The tables after a statement; `generated` is the id that the database generates. -/
def ManagerStatement.effect (generated : String) :
    ManagerStatement → ApplyTables → Except String ApplyTables
  | .tagScopeNode id, t => t.tagScopeNode id
  | .updateScopeNode id pairs, t => t.updateScopeNode id pairs
  | .deleteScopeNode id, t => t.deleteScopeNode id
  | .insertRole name description, t => t.insertRole generated name description
  | .updateRole name pairs, t => t.updateRole name pairs
  | .deleteRole name, t => .ok (t.deleteRole name)
  | .insertAssignment userId roleId scopeNodeId, t => t.insertAssignment userId roleId scopeNodeId
  | .deleteAssignment userId roleId scopeNodeId, t => t.deleteAssignment userId roleId scopeNodeId
  | .insertConfig row, t => t.insertConfig row
  | .updateConfig table name scopeNodeId bindingId pairs, t =>
      t.updateConfig table name scopeNodeId bindingId pairs

end Nexus
