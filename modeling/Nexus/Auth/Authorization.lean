import Nexus.Scope.ScopeService
import Mathlib.Data.List.Dedup

/-!
# Permission checks

`AuthorizationService` answers one check (`can`), `ScopeAccessService` lists the scopes a user may
access (`getAccessibleScopeIds`). Both join the assignments of roles with the closure table. A user
id that is no uuid belongs to an agent or a service and is checked by the roles of its token.
-/

set_option autoImplicit false

namespace Nexus

/-! ## Tables -/

/-- A row of `roles`. -/
structure RoleRow where
  id : String
  name : String

/-- A row of `permissions`. -/
structure PermissionRow where
  id : String
  name : String

/-- A row of `role_permissions`. -/
structure RolePermissionRow where
  roleId : Option String
  permissionId : Option String

/-- A row of `role_assignments`. -/
structure RoleAssignmentRow where
  userId : String
  roleId : String
  scopeNodeId : String

structure AuthTables where
  roles : List RoleRow := []
  permissions : List PermissionRow := []
  rolePermissions : List RolePermissionRow := []
  roleAssignments : List RoleAssignmentRow := []

/-- `JOIN role_permissions` and `JOIN permissions`: the names of the permissions of a role. -/
def AuthTables.permissionNames (auth : AuthTables) (roleId : String) : List String :=
  (auth.rolePermissions.filter fun rp => rp.roleId = some roleId).flatMap fun rp =>
    (auth.permissions.filter fun p => rp.permissionId = some p.id).map PermissionRow.name

/-! ## User ids -/

/-- `UUID_PATTERN`. -/
def uuidPattern : List (Char → Bool) :=
  uuidPatternOf isHexDigit (fun c => '1' ≤ c && c ≤ '5') fun c => c ∈ ['8', '9', 'a', 'b', 'A', 'B']

/-- `UUID_PATTERN.test`. -/
def isUuid (text : String) : Bool := matchesPattern uuidPattern text.toList

/-! ## AuthorizationService -/

/-- The functions on texts: `toLowerCase`, and `LOWER` of the database. -/
structure TextFunctions where
  toLowerCase : String → String
  lower : String → String

/-- The map of a request from keys to sets of permissions. -/
abbrev PermissionCache := List (String × List String)

/-- The permissions of the roles of a token. -/
def rolePermissionNames (text : TextFunctions) (auth : AuthTables) (roles : List String) :
    List String :=
  let normalizedRoleNames := roles.map text.toLowerCase
  ((auth.roles.filter fun r => text.lower r.name ∈ normalizedRoleNames).flatMap fun r =>
    auth.permissionNames r.id).dedup

/-- The permissions of the assignments of a user at a scope node and above it. -/
def assignedPermissionNames (scope : ScopeTables) (auth : AuthTables) (userId scopeNodeId : String) :
    List String :=
  ((auth.roleAssignments.filter fun ra => ra.userId = userId).flatMap fun ra =>
    (scope.closure.filter fun c =>
      c.ancestorId = ra.scopeNodeId && c.descendantId = scopeNodeId).flatMap fun _ =>
      auth.permissionNames ra.roleId).dedup

/-- Reads the cache, or computes the permissions and stores them. -/
def memoized (cache : PermissionCache) (key : String) (compute : List String) :
    List String × PermissionCache :=
  match cache.lookup key with
  | some cached => (cached, cache)
  | none => (compute, (key, compute) :: cache)

def getEffectivePermissions (text : TextFunctions) (scope : ScopeTables) (auth : AuthTables)
    (cache : PermissionCache) (userId scopeNodeId : String) (roles : Option (List String)) :
    List String × PermissionCache :=
  if isUuid userId then
    memoized cache (userId ++ "|" ++ scopeNodeId)
      (assignedPermissionNames scope auth userId scopeNodeId)
  else
    match roles with
    | none | some [] => ([], cache)
    | some roles =>
        memoized cache (userId ++ "|" ++ scopeNodeId ++ "|" ++
            ",".intercalate (roles.mergeSort fun a b => a ≤ b))
          (rolePermissionNames text auth roles)

/-- `permissionName.split(':')[0]`. -/
def resourceOf (permissionName : String) : String :=
  String.ofList (permissionName.toList.takeWhile fun c => c ≠ ':')

/-- The permission that includes every permission of the resource. -/
def managePermission (permissionName : String) : String := resourceOf permissionName ++ ":manage"

/-- `can`, with the cache of the request. -/
def authorizationCan (text : TextFunctions) (scope : ScopeTables) (auth : AuthTables)
    (cache : PermissionCache) (userId permissionName scopeNodeId : String)
    (roles : Option (List String)) : Bool × PermissionCache :=
  let result := getEffectivePermissions text scope auth cache userId scopeNodeId roles
  (permissionName ∈ result.1 || managePermission permissionName ∈ result.1, result.2)

/-- A check that a request makes. -/
structure PermissionCheck where
  userId : String
  permissionName : String
  scopeNodeId : String
  roles : Option (List String) := none

/-- The cache of a request after some checks. -/
def cacheAfter (text : TextFunctions) (scope : ScopeTables) (auth : AuthTables)
    (checks : List PermissionCheck) : PermissionCache :=
  checks.foldl (fun cache check => (authorizationCan text scope auth cache check.userId
    check.permissionName check.scopeNodeId check.roles).2) []

/-! ## ScopeAccessService -/

def getAccessibleScopeIds (scope : ScopeTables) (auth : AuthTables)
    (userId permissionName : String) : List String :=
  ((auth.roleAssignments.filter fun ra => ra.userId = userId).flatMap fun ra =>
    ((auth.permissionNames ra.roleId).filter fun name =>
      name ∈ [permissionName, managePermission permissionName]).flatMap fun _ =>
      (scope.closure.filter fun c => c.ancestorId = ra.scopeNodeId).map
        ScopeNodeClosure.descendantId).dedup

def restrictToAccessibleScopes (scope : ScopeTables) (auth : AuthTables)
    (userId permissionName : String) (requestedScopeId : Option String) : List String :=
  let accessible := getAccessibleScopeIds scope auth userId permissionName
  match requestedScopeId with
  | none | some "" => accessible
  | some requested => if requested ∈ accessible then [requested] else []

end Nexus
