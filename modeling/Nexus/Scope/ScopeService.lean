import Nexus.Lib.Json
import Nexus.Lib.Uuid
import Mathlib.Data.List.ProdSigma

/-!
# The scope hierarchy

`ScopeService`: the tables `scope_nodes` and `scope_node_closure`, and the transactions of
`createNode` and `moveNode`. A transaction is one step; one that fails leaves the tables as they
were. Ids are the canonical texts of uuids; the database rejects other texts.
-/

set_option autoImplicit false

namespace Nexus

/-! ## Types -/

inductive ScopeNodeType where
  | platform
  | org
  | region
  | team
  | project
  deriving DecidableEq, Repr

def ScopeNodeType.text : ScopeNodeType → String
  | .platform => "platform"
  | .org => "org"
  | .region => "region"
  | .team => "team"
  | .project => "project"

def scopeNodeTypes : List ScopeNodeType := [.platform, .org, .region, .team, .project]

/-- The type with a text, when there is one. -/
def ScopeNodeType.ofText? (text : String) : Option ScopeNodeType :=
  scopeNodeTypes.find? fun type => type.text = text

def parentChildTypeMatrix : ScopeNodeType → List ScopeNodeType
  | .platform => [.org]
  | .org => [.org, .region, .team, .project]
  | .region => [.team, .project]
  | .team => [.team, .project]
  | .project => []

/-- The exceptions; those of the database name the constraint that is violated. -/
inductive ScopeError where
  | badRequest (message : String)
  | forbidden (message : String)
  | database (constraint : String)
  deriving DecidableEq

def assertValidParentChildType (parentType childType : ScopeNodeType) : Except ScopeError Unit :=
  let allowedChildren := parentChildTypeMatrix parentType
  if allowedChildren = [] then
    .error (.badRequest ("A '" ++ parentType.text ++ "' scope is a leaf and cannot contain a '" ++
      childType.text ++ "' child."))
  else if childType ∉ allowedChildren then
    .error (.badRequest ("A '" ++ childType.text ++ "' scope cannot nest under a '" ++
      parentType.text ++ "' scope. Allowed children of '" ++ parentType.text ++ "': " ++
      ", ".intercalate (allowedChildren.map ScopeNodeType.text) ++ "."))
  else .ok ()

/-- `isTenantRoot` may only be set on an organisation or the platform. -/
def assertValidTenantRootType (isTenantRoot : Bool) (type : ScopeNodeType) :
    Except ScopeError Unit :=
  if isTenantRoot ∧ type ∉ [.org, .platform] then
    .error (.badRequest ("isTenantRoot may only be set on 'org' or 'platform' scope nodes. Got: '" ++
      type.text ++ "'."))
  else .ok ()

/-! ## Tables -/

def globalScopeNodeId : String := "00000000-0000-0000-0000-000000000000"

/-- A row of `scope_nodes`. -/
structure ScopeNode where
  id : String
  parentId : Option String
  type : ScopeNodeType
  name : String
  slug : String
  metadata : Option Json := none
  isTenantRoot : Bool := false

/-- A row of `scope_node_closure`. -/
structure ScopeNodeClosure where
  ancestorId : String
  descendantId : String
  depth : Nat
  deriving DecidableEq, Repr

/-- The primary key of a closure row. -/
def ScopeNodeClosure.key (row : ScopeNodeClosure) : String × String :=
  (row.ancestorId, row.descendantId)

structure ScopeTables where
  nodes : List ScopeNode
  closure : List ScopeNodeClosure

/-- The root with its own closure row, which the migration creates. -/
def seededTables : ScopeTables where
  nodes := [{
    id := globalScopeNodeId
    parentId := none
    type := .platform
    name := "Platform"
    slug := "platform" }]
  closure := [⟨globalScopeNodeId, globalScopeNodeId, 0⟩]

/-- A transaction; an exception rolls it back. -/
def scopeTransaction {α : Type} (body : ScopeTables → Except ScopeError (ScopeTables × α))
    (tables : ScopeTables) : ScopeTables × Except ScopeError α :=
  match body tables with
  | .ok (tables', a) => (tables', .ok a)
  | .error e => (tables, .error e)

def ScopeTables.findNode (tables : ScopeTables) (id : String) : Option ScopeNode :=
  tables.nodes.find? fun node => node.id = id

/-- The columns of the index `uq_scope_nodes_parent_slug`. -/
def ScopeNode.slugKey (node : ScopeNode) : String × String :=
  (node.parentId.getD globalScopeNodeId, node.slug)

/-- A parameter of a statement for a column of type `uuid`. -/
def uuidParameter (text : String) : Except ScopeError Unit :=
  if isUuidText text then .ok () else .error (.database "invalid input syntax for type uuid")

/-- `INSERT INTO scope_nodes`. -/
def ScopeTables.insertNode (tables : ScopeTables) (node : ScopeNode) :
    Except ScopeError ScopeTables := do
  uuidParameter node.id
  if 255 < node.name.length ∨ 255 < node.slug.length then .error (.database "varchar(255)")
  else if tables.nodes.any fun x => x.id = node.id then .error (.database "scope_nodes_pkey")
  else if tables.nodes.any fun x => x.slugKey = node.slugKey then
    .error (.database "uq_scope_nodes_parent_slug")
  else .ok { tables with nodes := tables.nodes ++ [node] }

/-- `INSERT INTO scope_node_closure`, which fails when the pair is there. -/
def insertRows : List ScopeNodeClosure → List ScopeNodeClosure →
    Except ScopeError (List ScopeNodeClosure)
  | closure, [] => .ok closure
  | closure, row :: rows =>
      if closure.any fun x => x.key = row.key then .error (.database "scope_node_closure_pkey")
      else insertRows (closure ++ [row]) rows

/-- `INSERT INTO scope_node_closure … ON CONFLICT DO NOTHING`. -/
def insertMissing : List ScopeNodeClosure → List ScopeNodeClosure → List ScopeNodeClosure
  | closure, [] => closure
  | closure, row :: rows =>
      if closure.any fun x => x.key = row.key then insertMissing closure rows
      else insertMissing (closure ++ [row]) rows

/-! ## createNode -/

structure CreateScopeNodeInput where
  id : Option String := none
  parentId : Option String := none
  type : String
  name : String
  slug : String
  metadata : Option Json := none
  isTenantRoot : Bool := false

/-- The transaction of `createNode`; `generated` is the result of `gen_random_uuid()`. -/
def createNodeBody (input : CreateScopeNodeInput) (type : ScopeNodeType) (generated : String)
    (tables : ScopeTables) : Except ScopeError (ScopeTables × ScopeNode) := do
  let parentId := input.parentId.getD globalScopeNodeId
  let id := input.id.getD generated
  uuidParameter parentId
  match tables.findNode parentId with
  | none => .error (.badRequest ("Parent scope node " ++ parentId ++ " does not exist."))
  | some parent =>
      assertValidParentChildType parent.type type
      let node : ScopeNode := {
        id, type
        parentId := some parentId
        name := input.name
        slug := input.slug
        metadata := input.metadata
        isTenantRoot := input.isTenantRoot }
      let inserted ← tables.insertNode node
      let inherited ← insertRows inserted.closure
        ((inserted.closure.filter fun row => row.descendantId = parentId).map fun row =>
          ⟨row.ancestorId, id, row.depth + 1⟩)
      .ok ({ inserted with closure := insertMissing inherited [⟨id, id, 0⟩] }, node)

def createNode (input : CreateScopeNodeInput) (generated : String) (tables : ScopeTables) :
    ScopeTables × Except ScopeError ScopeNode :=
  match ScopeNodeType.ofText? input.type with
  | none => (tables, .error (.badRequest ("Unknown scope node type: " ++ input.type)))
  | some type =>
      match assertValidTenantRootType input.isTenantRoot type with
      | .error e => (tables, .error e)
      | .ok () => scopeTransaction (createNodeBody input type generated) tables

/-! ## moveNode -/

/-- Removes the links between the subtree of a node and its old ancestors. -/
def detachSubtree (closure : List ScopeNodeClosure) (nodeId : String) : List ScopeNodeClosure :=
  closure.filter fun row =>
    !((closure.any fun sub => sub.ancestorId = nodeId && sub.descendantId = row.descendantId) &&
      closure.any fun super => super.descendantId = nodeId && super.ancestorId ≠ nodeId &&
        super.ancestorId = row.ancestorId)

/-- The rows that connect the ancestors of the new parent to the subtree, a cross join. -/
def connectingRows (closure : List ScopeNodeClosure) (newParentId nodeId : String) :
    List ScopeNodeClosure :=
  let supers := closure.filter fun super => super.descendantId = newParentId
  let subs := closure.filter fun sub => sub.ancestorId = nodeId
  (supers.product subs).map fun (super, sub) =>
    ⟨super.ancestorId, sub.descendantId, super.depth + sub.depth + 1⟩

/-- The row after `SET parent_id` where the id matches. -/
def ScopeNode.moved (nodeId newParentId : String) (node : ScopeNode) : ScopeNode :=
  if node.id = nodeId then { node with parentId := some newParentId } else node

/-- `UPDATE scope_nodes SET parent_id`. -/
def ScopeTables.setParent (tables : ScopeTables) (nodeId newParentId : String) :
    Except ScopeError (List ScopeNode) :=
  let updated := tables.nodes.map (ScopeNode.moved nodeId newParentId)
  if updated.any fun node => node.id = nodeId &&
      updated.any fun other => other.id ≠ nodeId && other.slugKey = node.slugKey then
    .error (.database "uq_scope_nodes_parent_slug")
  else .ok updated

/-- The transaction of `moveNode`; it returns the old parent. -/
def moveNodeBody (nodeId newParentId : String) (tables : ScopeTables) :
    Except ScopeError (ScopeTables × Option String) := do
  uuidParameter newParentId
  match tables.findNode newParentId with
  | none => .error (.badRequest ("Target parent node " ++ newParentId ++ " does not exist."))
  | some parent =>
      uuidParameter nodeId
      if tables.closure.any fun row =>
          row.ancestorId = nodeId && row.descendantId = newParentId then
        .error (.badRequest ("Cannot move node " ++ nodeId ++ " under " ++ newParentId ++
          ": would create a cycle."))
      else
        match tables.findNode nodeId with
        | none => .error (.badRequest ("Scope node " ++ nodeId ++ " does not exist."))
        | some node =>
            assertValidParentChildType parent.type node.type
            let detached := detachSubtree tables.closure nodeId
            let connected := insertMissing detached (connectingRows detached newParentId nodeId)
            let nodes ← tables.setParent nodeId newParentId
            .ok ({ nodes, closure := connected }, node.parentId)

/-- `moveNode`; `allowedDestinations` is what the access check has answered, if it is made. -/
def moveNode (nodeId newParentId : String) (allowedDestinations : Option (List String))
    (tables : ScopeTables) : ScopeTables × Except ScopeError (Option String) :=
  match allowedDestinations with
  | some destinations =>
      if newParentId ∉ destinations then
        (tables, .error
          (.forbidden "Not authorized to move a node under the requested parent"))
      else scopeTransaction (moveNodeBody nodeId newParentId) tables
  | none => scopeTransaction (moveNodeBody nodeId newParentId) tables

/-! ## Sequences of calls -/

inductive ScopeCall where
  | createNode (input : CreateScopeNodeInput) (generated : String)
  | moveNode (nodeId newParentId : String) (allowedDestinations : Option (List String))

/-- The exception of a result. -/
def exceptionOf {α : Type} : Except ScopeError α → Option ScopeError
  | .ok _ => none
  | .error e => some e

/-- The tables after a call, and its exception if it is rejected. -/
def ScopeCall.exec (tables : ScopeTables) : ScopeCall → ScopeTables × Option ScopeError
  | .createNode input generated =>
      let result := Nexus.createNode input generated tables
      (result.1, exceptionOf result.2)
  | .moveNode nodeId newParentId allowedDestinations =>
      let result := Nexus.moveNode nodeId newParentId allowedDestinations tables
      (result.1, exceptionOf result.2)

/-- The tables after a sequence of calls. -/
def runScopeCalls (calls : List ScopeCall) (tables : ScopeTables) : ScopeTables :=
  calls.foldl (fun tables call => (call.exec tables).1) tables

end Nexus
