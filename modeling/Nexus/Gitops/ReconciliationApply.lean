import Nexus.Gitops.ApplyTables
import Nexus.Lib.Transactions

/-!
# Applying a plan

`ReconciliationApplyService.apply`: one transaction around the entries of a plan that are no noops,
each followed by its audit row. Most statements go through the manager of the transaction. The
creation of a scope node is a call of `ScopeService.createNode`, which opens a transaction of its own
on another connection; the audit rows and the reads of users, roles and the scope tree are on other
connections too and see what is committed. Every awaited statement is one atomic step and may throw
instead; one that throws has changed nothing.
-/

set_option autoImplicit false

namespace Nexus

/-! ## Statements -/

/-- A row of `audit_logs`. -/
structure AuditEntry where
  event_type : String
  actor_id : String
  resource_id : String
  action : String
  result : String
  type : String
  key : String
  diff : Option (List (String × FieldDifference))

inductive ApplyOp where
  | startTransaction
  | commitTransaction
  | rollbackTransaction
  | query (statement : ManagerStatement)
  /-- The transaction of `ScopeService.createNode`; `path` is the key of the entry. -/
  | createNode (path : String) (input : CreateScopeNodeInput)
  | recordScopeCreated (scopeNodeId : String) (parentId : Option String) (type : String)
  | getTree
  | findByUsername (username : String)
  | findByName (name : String)
  | log (entry : AuditEntry)

namespace ApplyOp

def Value : ApplyOp → Type
  | createNode _ _ => ScopeNode
  | getTree => ScopeView
  | findByUsername _ => Option UserRecord
  | findByName _ => Option RoleRecord
  | _ => Unit

abbrev Ans (o : ApplyOp) : Type := Except String o.Value

end ApplyOp

/-- What the environment adds to a statement. -/
structure ApplyOutcome where
  /-- The message the statement throws. -/
  error : Option String := none
  /-- The result of `gen_random_uuid()`. -/
  generated : String := ""

structure ApplyStore where
  tables : Transactional ApplyTables
  auditLogs : List AuditEntry := []
  outcomes : Nat → ApplyOutcome := fun _ => {}
  issued : Nat := 0

namespace ApplyStore

def outcome (s : ApplyStore) : ApplyOutcome := s.outcomes s.issued

def tick (s : ApplyStore) : ApplyStore := { s with issued := s.issued + 1 }

/-- The store between two calls. -/
def idle (tables : ApplyTables) (outcomes : Nat → ApplyOutcome) : ApplyStore where
  tables := ⟨tables, none⟩
  outcomes := outcomes

end ApplyStore

/-- The transaction of `createNode` on the tables. -/
def ApplyTables.createNode (input : CreateScopeNodeInput) (generated : String) (t : ApplyTables) :
    Except String (ApplyTables × ScopeNode) :=
  match Nexus.createNode input generated t.scopes.tables with
  | (scopes, .ok node) => .ok (t.setScopes scopes, node)
  | (_, .error e) => .error e.message

/-- The store and the value after a statement that does not fail by itself. -/
def ApplyOp.effect (s : ApplyStore) : (o : ApplyOp) → Except String (ApplyStore × o.Value)
  | .startTransaction => .ok ({ s with tables := s.tables.start }, ())
  | .commitTransaction => .ok ({ s with tables := s.tables.commit }, ())
  | .rollbackTransaction => .ok ({ s with tables := s.tables.rollback }, ())
  | .query statement =>
      (s.tables.inside (statement.effect s.outcome.generated)).map fun tables =>
        ({ s with tables }, ())
  | .createNode _ input =>
      (s.tables.outside (ApplyTables.createNode input s.outcome.generated)).map fun r =>
        ({ s with tables := r.1 }, r.2)
  | .recordScopeCreated _ _ _ => .ok (s, ())
  | .getTree => .ok (s, s.tables.committed.scopes)
  | .findByUsername username => .ok (s, s.tables.committed.findByUsername username)
  | .findByName name => .ok (s, s.tables.committed.findRole name)
  | .log entry => .ok ({ s with auditLogs := s.auditLogs ++ [entry] }, ())

/-- One statement. -/
def ApplyOp.exec (s : ApplyStore) (o : ApplyOp) : ApplyStore × o.Ans :=
  match s.outcome.error with
  | some message => (s.tick, .error message)
  | none =>
      match o.effect s with
      | .ok (s', value) => (s'.tick, .ok value)
      | .error message => (s.tick, .error message)

abbrev ApplyProg (α : Type) := Prog ApplyOp ApplyOp.Ans String α

/-- Awaits one statement; what it throws is thrown on. -/
def awaitApply (o : ApplyOp) : ApplyProg o.Value := do
  match ← Prog.op o with
  | .ok value => pure value
  | .error message => .fail message

/-- A pure step that may throw. -/
def throwIfError {α : Type} : Except String α → ApplyProg α
  | .ok a => .pure a
  | .error message => .fail message

/-- `dataSource.transaction(body)`. -/
def inTransaction {α : Type} (body : ApplyProg α) : ApplyProg α :=
  Prog.transactional (awaitApply .startTransaction) (awaitApply .commitTransaction)
    (awaitApply .rollbackTransaction) body

/-- `ScopeService.createNode`, called for the entry with the key `path`. -/
def ScopeService.createNode (path : String) (input : CreateScopeNodeInput) :
    ApplyProg ScopeNode := do
  let node ← awaitApply (.createNode path input)
  awaitApply (.recordScopeCreated node.id node.parentId input.type)
  pure node

/-! ## Helpers of the handlers -/

namespace GitOpsObjectHelpers

def resolveScopeNodeId (scopePath : Option String) : ApplyProg (Option String) :=
  if scopePath.any fun path => path.toList.head? = some '/' then
    (awaitApply .getTree).bind fun view => .pure (view.resolveScopeNodeId scopePath)
  else .pure (scopePath.filter (· ≠ ""))

def resolveNameFromKey (key : String) : String :=
  let suffix := (key.toList.reverse.takeWhile fun c => c ≠ ':').reverse
  String.ofList (suffix.dropWhile fun c => c = '/')

/-- `value.join(',')`, unless the value is `null`. -/
def toDbArray : Json → Except String Json
  | .null => .ok .null
  | .arr xs => .ok (.str (",".intercalate (xs.map fun x =>
      match x with
      | .null => ""
      | v => v.parameter)))
  | _ => .error "value.join is not a function"

def requireGitOpsBindingId (bindingId : Option String) : ApplyProg String :=
  match bindingId.filter (· ≠ "") with
  | some id => .pure id
  | none => .fail "GitOps apply requires a repository binding id"

end GitOpsObjectHelpers

open GitOpsObjectHelpers

structure GitOpsApplyContext where
  actorId : String
  bindingId : Option String := none

/-- `GitOpsObjectPlan`, as far as the handlers read it. -/
structure GitOpsObjectPlan where
  key : String
  op : ReconcileOp
  desired : Option ObjectFields
  actual : Option DesiredObject

/-! ## Workflows, agent profiles and skills -/

/-- What the handlers of the three kinds differ in. -/
structure ConfigHandler where
  table : ConfigTable
  createColumns : ObjectFields → Except String (OrderedMap String Json)
  updateColumns : ObjectFields → String → Except String (List (String × Json))
  deletedName : GitOpsObjectPlan → DesiredObject → String

namespace ConfigHandler

variable (handler : ConfigHandler)

/-- The name and the scope that `resolveDesired` finds. -/
def resolveDesired (key : String) (fields : ObjectFields) :
    ApplyProg (String × Option String) := do
  let scopeNodeId ← resolveScopeNodeId (fields.text "scope")
  pure ((fields.text "name").getD (resolveNameFromKey key), scopeNodeId)

def applyCreate (key : String) (fields : ObjectFields) (context : GitOpsApplyContext) :
    ApplyProg Unit := do
  let (name, scopeNodeId) ← resolveDesired key fields
  let bindingId ← requireGitOpsBindingId context.bindingId
  let columns ← throwIfError (handler.createColumns fields)
  awaitApply (.query (.insertConfig {
    table := handler.table, name, scopeNodeId, columns
    managedBy := some gitopsManagedBy
    managedBindingId := some bindingId }))

def applyDelete (plan : GitOpsObjectPlan) (actual : DesiredObject) (context : GitOpsApplyContext) :
    ApplyProg Unit := do
  let scopeNodeId ← resolveScopeNodeId (actual.fields.text "scope")
  let bindingId ← requireGitOpsBindingId context.bindingId
  awaitApply (.query (.updateConfig handler.table (handler.deletedName plan actual) scopeNodeId
    bindingId [("is_active", .bool false)]))

def applyUpdate (key : String) (fields : ObjectFields) (context : GitOpsApplyContext) :
    ApplyProg Unit := do
  let (name, scopeNodeId) ← resolveDesired key fields
  let bindingId ← requireGitOpsBindingId context.bindingId
  let pairs ← throwIfError (handler.updateColumns fields bindingId)
  awaitApply (.query (.updateConfig handler.table name scopeNodeId bindingId pairs))

def apply (plan : GitOpsObjectPlan) (context : GitOpsApplyContext) : ApplyProg Unit :=
  match plan.op, plan.desired, plan.actual with
  | .create, some fields, _ => handler.applyCreate plan.key fields context
  | .delete, _, some actual => handler.applyDelete plan actual context
  | .update, some fields, _ => handler.applyUpdate plan.key fields context
  | _, _, _ => .pure ()

end ConfigHandler

/-- The columns of the provenance; `get` reads a field with its default. -/
def sharedAssignments (get : String → Json → Json) (bindingId : String) : List (String × Json) :=
  [("source", .str "repository"),
    ("locked", get "locked" (.bool false)),
    ("managed_revision", get "managedRevision" .null),
    ("last_git_hash", get "lastGitHash" .null),
    ("sync_state", get "syncState" .null),
    ("managed_binding_id", .str bindingId)]

/-- `resolveDesiredStrategy` of workflows and skills is `merge`. -/
def mergesOverrides (fields : ObjectFields) : Bool :=
  match fields.truthyText "strategy" with
  | some strategy => strategy = "merge"
  | none => (fields.truthyText "overrides").isSome || (fields.truthyText "baseRef").isSome

namespace WorkflowGitopsHandler

def createColumns (fields : ObjectFields) : Except String (OrderedMap String Json) :=
  .ok [("yaml_definition", fields.orElse "definition" (.str "")),
    ("source", .str "repository"),
    ("locked", fields.orElse "locked" (.bool false)),
    ("overrides", fields.orElse "overrides" .null),
    ("base_ref", fields.orElse "baseRef" .null),
    ("base_workflow_id", fields.orElse "baseWorkflowId" .null),
    ("managed_revision", fields.orElse "managedRevision" .null),
    ("last_git_hash", fields.orElse "lastGitHash" .null),
    ("sync_state", fields.orElse "syncState" .null)]

def updateColumns (fields : ObjectFields) (bindingId : String) :
    Except String (List (String × Json)) :=
  let shared := sharedAssignments fields.orElse bindingId
  if mergesOverrides fields then
    .ok (shared ++ [("overrides", fields.orElse "overrides" .null),
      ("base_ref", fields.orElse "baseRef" .null),
      ("base_workflow_id", fields.orElse "baseWorkflowId" .null)])
  else
    .ok (("yaml_definition", fields.orElse "definition" (.str "")) :: shared ++
      [("overrides", .null), ("base_ref", .null), ("base_workflow_id", .null)])

def handler : ConfigHandler where
  table := .workflows
  createColumns := createColumns
  updateColumns := updateColumns
  deletedName plan actual := (actual.fields.text "name").getD plan.key

end WorkflowGitopsHandler

namespace AgentProfileGitopsHandler

/-- The columns of `resolveDesiredContent` without the tool policy. -/
def contentColumns (fields : ObjectFields) : Except String (List (String × Json)) := do
  let allowed ← toDbArray (fields.withDefault "allowedMountAliases" .null)
  let denied ← toDbArray (fields.withDefault "deniedMountAliases" .null)
  let allowRw ← toDbArray (fields.withDefault "allowRwMountAliases" .null)
  let skills ← toDbArray (fields.withDefault "assignedSkills" .null)
  .ok [("system_prompt", fields.withDefault "systemPrompt" .null),
    ("model_name", fields.withDefault "modelName" .null),
    ("provider_name", fields.withDefault "providerName" .null),
    ("provider_id", fields.withDefault "providerId" .null),
    ("provider_source", fields.withDefault "providerSource" .null),
    ("tier_preference", fields.withDefault "tierPreference" .null),
    ("supports_vision", fields.withDefault "supportsVision" .null),
    ("allowed_mount_aliases", allowed),
    ("denied_mount_aliases", denied),
    ("allow_rw_mount_aliases", allowRw),
    ("assigned_skills", skills)]

def createColumns (fields : ObjectFields) : Except String (OrderedMap String Json) := do
  let content ← contentColumns fields
  .ok (content ++ [("source", .str "repository"),
    ("locked", fields.withDefault "locked" (.bool false)),
    ("overrides", fields.withDefault "overrides" .null),
    ("base_ref", fields.withDefault "baseRef" .null),
    ("base_profile_id", fields.withDefault "baseProfileId" .null),
    ("tool_policy", fields.withDefault "toolPolicy" .null),
    ("managed_revision", fields.withDefault "managedRevision" .null),
    ("last_git_hash", fields.withDefault "lastGitHash" .null),
    ("sync_state", fields.withDefault "syncState" .null)])

def mergesBase (fields : ObjectFields) : Bool :=
  match fields.text "strategy" with
  | some strategy => strategy = "merge"
  | none =>
      (fields.truthyText "overrides").isSome || (fields.truthyText "baseRef").isSome ||
        (fields.truthyText "baseProfileId").isSome

/-- `buildAgentProfileAssignments`, with the `is_active = true` of the statement. -/
def updateColumns (fields : ObjectFields) (bindingId : String) :
    Except String (List (String × Json)) := do
  let shared := sharedAssignments fields.withDefault bindingId
  if mergesBase fields then
    .ok (shared ++ [("overrides", fields.withDefault "overrides" .null),
      ("base_ref", fields.withDefault "baseRef" .null),
      ("base_profile_id", fields.withDefault "baseProfileId" .null),
      ("tool_policy", fields.withDefault "toolPolicy" .null),
      ("is_active", .bool true)])
  else
    let content ← contentColumns fields
    .ok (content ++ shared ++ [("overrides", .null), ("base_ref", .null),
      ("base_profile_id", .null),
      ("tool_policy", fields.withDefault "toolPolicy" .null),
      ("is_active", .bool true)])

def handler : ConfigHandler where
  table := .agentProfiles
  createColumns := createColumns
  updateColumns := updateColumns
  deletedName _ actual := (actual.fields.text "name").getD (resolveNameFromKey actual.key)

end AgentProfileGitopsHandler

namespace SkillGitopsHandler

/-- The columns of `resolveDesiredContent`. -/
def contentColumns (fields : ObjectFields) : Except String (List (String × Json)) := do
  let tags ← toDbArray (fields.withDefault "tags" .null)
  .ok [("description", fields.withDefault "description" (.str "")),
    ("skill_markdown", fields.withDefault "skillMarkdown" (.str "")),
    ("category", fields.withDefault "category" .null),
    ("tags", tags),
    ("metadata", fields.withDefault "metadata" .null),
    ("version", fields.withDefault "version" (.num 1))]

def createColumns (fields : ObjectFields) : Except String (OrderedMap String Json) := do
  let content ← contentColumns fields
  .ok (content ++ [("source", .str "repository"),
    ("locked", fields.withDefault "locked" (.bool false)),
    ("overrides", fields.withDefault "overrides" .null),
    ("base_ref", fields.withDefault "baseRef" .null),
    ("managed_revision", fields.withDefault "managedRevision" .null),
    ("last_git_hash", fields.withDefault "lastGitHash" .null),
    ("sync_state", fields.withDefault "syncState" .null)])

/-- `buildAssignments`, with the `is_active = true` of the statement. -/
def updateColumns (fields : ObjectFields) (bindingId : String) :
    Except String (List (String × Json)) := do
  let shared := sharedAssignments fields.withDefault bindingId
  if mergesOverrides fields then
    .ok (shared ++ [("overrides", fields.withDefault "overrides" .null),
      ("base_ref", fields.withDefault "baseRef" .null),
      ("is_active", .bool true)])
  else
    let content ← contentColumns fields
    .ok (content ++ shared ++ [("overrides", .null), ("base_ref", .null),
      ("is_active", .bool true)])

def handler : ConfigHandler where
  table := .skills
  createColumns := createColumns
  updateColumns := updateColumns
  deletedName _ actual := (actual.fields.text "name").getD (resolveNameFromKey actual.key)

end SkillGitopsHandler

/-! ## Role assignments -/

namespace RoleAssignmentGitopsHandler

structure ResolvedIdentifiers where
  userId : String
  roleId : String
  scopeNodeId : String

def resolveScopePathOrId (scopeValue : String) : ApplyProg String :=
  if scopeValue.toList.head? ≠ some '/' then .pure scopeValue
  else (awaitApply .getTree).bind fun view =>
    match view.resolveScopeNodeId (some scopeValue) with
    | some id => .pure id
    | none => .fail ("Unknown scope path '" ++ scopeValue ++ "'")

/-- The identifiers of fields that name the user, the role and the scope. -/
def resolveNames (user role scope : String) : ApplyProg ResolvedIdentifiers :=
  (awaitApply (.findByUsername user)).bind fun found =>
    match found with
    | none => .fail ("Unknown user '" ++ user ++ "'")
    | some userRow =>
        (awaitApply (.findByName role)).bind fun found =>
          match found with
          | none => .fail ("Unknown role '" ++ role ++ "'")
          | some roleRow =>
              (resolveScopePathOrId scope).bind fun scopeNodeId =>
                .pure ⟨userRow.id, roleRow.id, scopeNodeId⟩

def resolveDesiredIdentifiers (fields : ObjectFields) : ApplyProg ResolvedIdentifiers :=
  match fields.truthyText "userId", fields.truthyText "roleId",
      fields.truthyText "scopeNodeId" with
  | some userId, some roleId, some scopeNodeId =>
      (resolveScopePathOrId scopeNodeId).bind fun id => .pure ⟨userId, roleId, id⟩
  | _, _, _ =>
      match fields.truthyText "user", fields.truthyText "role", fields.truthyText "scope" with
      | some user, some role, some scope => resolveNames user role scope
      | _, _, _ =>
          .fail "role_assignment requires either userId/roleId/scopeNodeId or user/role/scope"

def insert (ids : ResolvedIdentifiers) : ApplyProg Unit :=
  awaitApply (.query (.insertAssignment ids.userId ids.roleId ids.scopeNodeId))

def delete (ids : ResolvedIdentifiers) : ApplyProg Unit :=
  awaitApply (.query (.deleteAssignment ids.userId ids.roleId ids.scopeNodeId))

def apply (plan : GitOpsObjectPlan) : ApplyProg Unit :=
  match plan.op, plan.desired, plan.actual with
  | .create, some fields, _ => do
      let ids ← resolveDesiredIdentifiers fields
      insert ids
  | .delete, _, some actual => do
      let ids ← resolveDesiredIdentifiers actual.fields
      delete ids
  | .update, some fields, some actual => do
      let resolved ← resolveDesiredIdentifiers fields
      let current ← resolveDesiredIdentifiers actual.fields
      delete current
      insert resolved
  | _, _, _ => .pure ()

end RoleAssignmentGitopsHandler

/-! ## ReconciliationApplyService -/

structure ApplyOptions where
  actorId : String
  dryRun : Bool := false
  desiredObjects : OrderedMap String ObjectFields
  actualObjects : OrderedMap String ActualObject := []
  bindingId : Option String := none

structure ApplyResult where
  planned : Nat
  applied : Nat
  skipped : Nat
  dryRun : Bool
  deriving DecidableEq, Repr

namespace ReconciliationApplyService

def scopeNodeAllowedColumns : List String := ["name", "slug", "type", "parent_id", "metadata"]

def roleAllowedColumns : List String := ["description", "name"]

/-- The assignments of a diff to the columns that may be written. -/
def allowedPairs (allowed : List String) (diff : List (String × FieldDifference)) :
    List (String × Option Json) :=
  (diff.map fun pair => (toColumn pair.1, pair.2.toValue)).filter fun pair => pair.1 ∈ allowed

/-- `key.replace(/^.*\//, '')`; the dot does not match the end of a line. -/
def lastSegment (key : String) : String :=
  let line := key.toList.takeWhile fun c => c ∉ ['\n', '\r', '\u2028', '\u2029']
  String.ofList (key.toList.drop
    (line.length - (line.reverse.takeWhile fun c => c ≠ '/').length))

/-- The input of `createNode` for the desired fields of a scope node. -/
def createInput (key : String) (fields : ObjectFields) : CreateScopeNodeInput where
  parentId := fields.text "parentId"
  type := (fields.text "type").getD "org"
  name := (fields.text "name").getD key
  slug := (fields.text "slug").getD (lastSegment key)

def createScopeNode (key : String) (fields : ObjectFields) : ApplyProg Unit := do
  let created ← ScopeService.createNode key (createInput key fields)
  awaitApply (.query (.tagScopeNode created.id))

/-- The id of the node in the actual state. -/
def actualId (actual : Option ActualObject) : Option String :=
  actual.bind fun entry => entry.fields.truthyText "id"

def deleteScopeNode (actual : Option ActualObject) : ApplyProg Unit :=
  match actualId actual with
  | none => .pure ()
  | some id => awaitApply (.query (.deleteScopeNode id))

def updateScopeNode (diff : List (String × FieldDifference)) (actual : Option ActualObject) :
    ApplyProg Unit :=
  match actualId actual with
  | none => .pure ()
  | some id =>
      let pairs := allowedPairs scopeNodeAllowedColumns diff
      if pairs = [] then .pure () else awaitApply (.query (.updateScopeNode id pairs))

def applyScopeNode (change : ReconcileChange) (options : ApplyOptions) : ApplyProg Unit :=
  let key := reconcileKey change.type change.key
  let actual := OrderedMap.get? options.actualObjects key
  match change.op, change.diff with
  | .create, _ =>
      createScopeNode change.key ((OrderedMap.get? options.desiredObjects key).getD [])
  | .delete, _ => deleteScopeNode actual
  | .update, some diff => updateScopeNode diff actual
  | _, _ => .pure ()

def applyRole (change : ReconcileChange) (options : ApplyOptions) : ApplyProg Unit :=
  let fields :=
    (OrderedMap.get? options.desiredObjects (reconcileKey change.type change.key)).getD []
  match change.op, change.diff with
  | .create, _ =>
      awaitApply (.query (.insertRole change.key (fields.orElse "description" (.str "")).parameter))
  | .update, some diff =>
      let pairs := allowedPairs roleAllowedColumns diff
      if pairs = [] then .pure () else awaitApply (.query (.updateRole change.key pairs))
  | .delete, _ => awaitApply (.query (.deleteRole change.key))
  | _, _ => .pure ()

/-- The plan of one object that a handler is given. -/
def objectPlan (change : ReconcileChange) (options : ApplyOptions) : GitOpsObjectPlan :=
  let key := reconcileKey change.type change.key
  { key := change.key
    op := change.op
    desired := if change.op = .delete then none else OrderedMap.get? options.desiredObjects key
    actual := (OrderedMap.get? options.actualObjects key).map fun actual =>
      { actual.toDesiredObject with type := change.type, key := change.key } }

def applyAssignment (change : ReconcileChange) (options : ApplyOptions) : ApplyProg Unit :=
  RoleAssignmentGitopsHandler.apply (objectPlan change options)

def applyRegistryObject (handler : ConfigHandler) (change : ReconcileChange)
    (options : ApplyOptions) : ApplyProg Unit :=
  handler.apply (objectPlan change options)
    { actorId := options.actorId, bindingId := options.bindingId }

def applyOverride (change : ReconcileChange) : ApplyProg Unit :=
  .fail ("config_override apply not yet implemented for key: " ++ change.key)

def applyChange (change : ReconcileChange) (options : ApplyOptions) : ApplyProg Unit :=
  match change.type with
  | .scopeNode => applyScopeNode change options
  | .role => applyRole change options
  | .roleAssignment => applyAssignment change options
  | .workflow => applyRegistryObject WorkflowGitopsHandler.handler change options
  | .agentProfile => applyRegistryObject AgentProfileGitopsHandler.handler change options
  | .skill => applyRegistryObject SkillGitopsHandler.handler change options
  | .configOverride => applyOverride change

def ReconcileOp.text : ReconcileOp → String
  | .create => "create"
  | .update => "update"
  | .delete => "delete"
  | .noop => "noop"

def auditEntry (change : ReconcileChange) (options : ApplyOptions) : AuditEntry where
  event_type := "GitOpsReconcile"
  actor_id := options.actorId
  resource_id := reconcileKey change.type change.key
  action := ReconcileOp.text change.op
  result := "success"
  type := change.type.text
  key := change.key
  diff := change.diff

/-- The loop of the transaction; it returns how many entries have been applied. -/
def applyChanges (options : ApplyOptions) : List ReconcileChange → Nat → ApplyProg Nat
  | [], applied => .pure applied
  | change :: rest, applied =>
      (applyChange change options).bind fun _ =>
        (awaitApply (.log (auditEntry change options))).bind fun _ =>
          applyChanges options rest (applied + 1)

/-- The entries that are applied. -/
def actionable (plan : ReconciliationPlan) : List ReconcileChange :=
  plan.changes.filter fun change => change.op ≠ .noop

def apply (plan : ReconciliationPlan) (options : ApplyOptions) : ApplyProg ApplyResult :=
  let planned := (actionable plan).length
  let skipped := plan.changes.length - planned
  if options.dryRun then .pure ⟨planned, 0, skipped, true⟩
  else
    (inTransaction (applyChanges options (actionable plan) 0)).bind fun applied =>
      .pure ⟨planned, applied, skipped, false⟩

end ReconciliationApplyService

end Nexus
