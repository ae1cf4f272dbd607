import Nexus.Auth.Authorization
import Nexus.Scope.ScopeClosure

/-!
# Permissions are inherited along the scope tree

A check of a stored user, the list of the scopes the user may access, and the assignments at a scope
or above it say the same (`permission_inheritance_exact`), on every tree that `createNode` and
`moveNode` build.
-/

set_option autoImplicit false

namespace Nexus

/-! ## User ids -/

/-- A stored user id passes the test for uuids. -/
theorem isUuid_of_isUuidV4 {text : String} (h : isUuidV4 text = true) : isUuid text = true := by
  apply matchesPattern_of_refines (refines_uuidPatternOf _ _ _) h
  · intro c hc
    simp only [isLowerHexDigit, Bool.or_eq_true] at hc
    simp only [isHexDigit, Bool.or_eq_true]
    exact .inl hc
  · intro c hc
    obtain rfl := of_decide_eq_true hc
    decide
  · intro c hc
    have hmem : c ∈ ['8', '9', 'a', 'b'] := of_decide_eq_true hc
    exact decide_eq_true (List.mem_append_left ['A', 'B'] hmem)

/-- The separator of the keys of the cache is in no uuid. -/
theorem bar_not_mem_of_isUuid {text : String} (h : isUuid text = true) : '|' ∉ text.toList :=
  not_mem_of_uuid (by decide) (by decide) (by decide) (by decide) h

theorem bar_not_mem_of_isUuidText {text : String} (h : isUuidText text = true) :
    '|' ∉ text.toList :=
  not_mem_of_uuid (by decide) (by decide) (by decide) (by decide) h

/-! ## The cache -/

section Cache

variable {text : TextFunctions} {scope : ScopeTables} {auth : AuthTables} {cache : PermissionCache}
  {userId permissionName s : String} {roles : Option (List String)}

/-- What the cache holds for a user and a scope node is what would be read. -/
def CacheAgrees (scope : ScopeTables) (auth : AuthTables) (cache : PermissionCache) : Prop :=
  ∀ userId s perms, isUuid userId = true → '|' ∉ s.toList →
    cache.lookup (userId ++ "|" ++ s) = some perms →
      perms = assignedPermissionNames scope auth userId s

theorem toList_key (a b : String) : (a ++ "|" ++ b).toList = a.toList ++ '|' :: b.toList := by
  simp

/-- The keys of two users and scope nodes are the same only if both are. -/
theorem key_injective {userId' s' : String} (h : '|' ∉ userId.toList) (hs : '|' ∉ s.toList)
    (hkey : userId ++ "|" ++ s = userId' ++ "|" ++ s') : userId = userId' ∧ s = s' := by
  have hlist := congrArg String.toList hkey
  rw [toList_key, toList_key, List.append_cons_inj_of_notMem h hs] at hlist
  exact ⟨String.toList_injective hlist.1, String.toList_injective hlist.2.2⟩

/-- The key of a token with roles is not the key of a user and a scope node. -/
theorem key_ne_role_key {token s' joined : String} (h : '|' ∉ userId.toList)
    (hs : '|' ∉ s.toList) : userId ++ "|" ++ s ≠ token ++ "|" ++ s' ++ "|" ++ joined := by
  intro hkey
  have hcount := congrArg (fun key => key.toList.count '|') hkey
  simp only [toList_key, List.count_append, List.count_cons_self,
    List.count_eq_zero_of_not_mem h, List.count_eq_zero_of_not_mem hs] at hcount
  omega

theorem CacheAgrees.memoized {key : String} {compute : List String}
    (h : CacheAgrees scope auth cache)
    (hkey : ∀ userId s, isUuid userId = true → '|' ∉ s.toList → userId ++ "|" ++ s = key →
      compute = assignedPermissionNames scope auth userId s) :
    CacheAgrees scope auth (Nexus.memoized cache key compute).2 := by
  unfold Nexus.memoized
  split
  · exact h
  · intro userId s perms huser hs hlookup
    rw [List.lookup_cons] at hlookup
    by_cases heq : userId ++ "|" ++ s = key
    · rw [heq, beq_self_eq_true] at hlookup
      rw [← Option.some.inj hlookup]
      exact hkey userId s huser hs heq
    · rw [beq_false_of_ne heq] at hlookup
      exact h userId s perms huser hs hlookup

/-- A check keeps the cache in agreement with the tables. -/
theorem CacheAgrees.check (h : CacheAgrees scope auth cache) :
    CacheAgrees scope auth
      (authorizationCan text scope auth cache userId permissionName s roles).2 := by
  show CacheAgrees scope auth (getEffectivePermissions text scope auth cache userId s roles).2
  unfold getEffectivePermissions
  split
  · rename_i huser
    apply h.memoized
    intro userId' s' huser' hs' hkey
    obtain ⟨rfl, rfl⟩ := key_injective (bar_not_mem_of_isUuid huser') hs' hkey
    rfl
  · split
    · exact h
    · exact h
    · apply h.memoized
      intro userId' s' huser' hs' hkey
      exact absurd hkey (key_ne_role_key (bar_not_mem_of_isUuid huser') hs')

theorem cacheAgrees_cacheAfter (checks : List PermissionCheck) :
    CacheAgrees scope auth (cacheAfter text scope auth checks) := by
  have hfold : ∀ (checks : List PermissionCheck) (cache : PermissionCache),
      CacheAgrees scope auth cache → CacheAgrees scope auth
        (checks.foldl (fun cache check => (authorizationCan text scope auth cache check.userId
          check.permissionName check.scopeNodeId check.roles).2) cache) := by
    intro checks
    induction checks with
    | nil => exact fun _ h => h
    | cons check checks ih => exact fun _ h => ih _ h.check
  exact hfold checks [] fun _ _ _ _ _ hlookup => absurd hlookup (by simp)

/-- The permissions of a stored user at a scope node, cached or not. -/
theorem effectivePermissions_eq (h : CacheAgrees scope auth cache) (huser : isUuid userId = true)
    (hs : '|' ∉ s.toList) :
    (getEffectivePermissions text scope auth cache userId s roles).1 =
      assignedPermissionNames scope auth userId s := by
  unfold getEffectivePermissions
  rw [if_pos huser]
  unfold Nexus.memoized
  split
  · rename_i cached hlookup
    exact h userId s cached huser hs hlookup
  · rfl

end Cache

/-! ## Grants -/

section Grants

variable {scope : ScopeTables} {auth : AuthTables} {userId permissionName roleId s name : String}

/-- The role contains a permission of that name. -/
def AuthTables.RoleContains (auth : AuthTables) (roleId name : String) : Prop :=
  ∃ rp ∈ auth.rolePermissions, rp.roleId = some roleId ∧
    ∃ p ∈ auth.permissions, rp.permissionId = some p.id ∧ p.name = name

/-- The user has an assignment at the scope node or above it, by `parent_id`, whose role contains
the permission or the manage permission of its resource. -/
def HasGrant (scope : ScopeTables) (auth : AuthTables) (userId permissionName s : String) : Prop :=
  ∃ ra ∈ auth.roleAssignments, ra.userId = userId ∧
    (∃ n, ParentPath scope.parentOf ra.scopeNodeId s n) ∧
    (auth.RoleContains ra.roleId permissionName ∨
      auth.RoleContains ra.roleId (managePermission permissionName))

theorem mem_permissionNames : name ∈ auth.permissionNames roleId ↔ auth.RoleContains roleId name := by
  unfold AuthTables.permissionNames AuthTables.RoleContains
  simp only [List.mem_flatMap, List.mem_filter, List.mem_map, decide_eq_true_eq, and_assoc]

/-- The closure table has a row for the pair. -/
theorem exists_row {a : String} :
    (∃ c ∈ scope.closure, c.ancestorId = a ∧ c.descendantId = s) ↔ ∃ n, scope.HasRow a s n := by
  constructor
  · rintro ⟨⟨a', d, n⟩, hmem, rfl, rfl⟩
    exact ⟨n, hmem⟩
  · rintro ⟨n, hmem⟩
    exact ⟨_, hmem, rfl, rfl⟩

/-- The permissions of a user at a scope node. -/
theorem mem_assignedPermissionNames : name ∈ assignedPermissionNames scope auth userId s ↔
    ∃ ra ∈ auth.roleAssignments, ra.userId = userId ∧ (∃ n, scope.HasRow ra.scopeNodeId s n) ∧
      auth.RoleContains ra.roleId name := by
  unfold assignedPermissionNames
  simp only [List.mem_dedup, List.mem_flatMap, List.mem_filter, decide_eq_true_eq,
    Bool.and_eq_true, mem_permissionNames]
  constructor
  · rintro ⟨ra, ⟨hra, huser⟩, c, ⟨hc, hkey⟩, hrole⟩
    exact ⟨ra, hra, huser, exists_row.1 ⟨c, hc, hkey⟩, hrole⟩
  · rintro ⟨ra, hra, huser, hrow, hrole⟩
    obtain ⟨c, hc, hkey⟩ := exists_row.2 hrow
    exact ⟨ra, ⟨hra, huser⟩, c, ⟨hc, hkey⟩, hrole⟩

/-- The scopes a user may access. -/
theorem mem_getAccessibleScopeIds : s ∈ getAccessibleScopeIds scope auth userId permissionName ↔
    ∃ ra ∈ auth.roleAssignments, ra.userId = userId ∧ (∃ n, scope.HasRow ra.scopeNodeId s n) ∧
      (auth.RoleContains ra.roleId permissionName ∨
        auth.RoleContains ra.roleId (managePermission permissionName)) := by
  unfold getAccessibleScopeIds
  simp only [List.mem_dedup, List.mem_flatMap, List.mem_filter, List.mem_map, decide_eq_true_eq,
    mem_permissionNames, List.mem_pair]
  constructor
  · rintro ⟨ra, ⟨hra, huser⟩, name, ⟨hrole, hname⟩, c, ⟨hc, ha⟩, hd⟩
    refine ⟨ra, hra, huser, exists_row.1 ⟨c, hc, ha, hd⟩, ?_⟩
    rcases hname with rfl | rfl
    · exact .inl hrole
    · exact .inr hrole
  · rintro ⟨ra, hra, huser, hrow, hrole⟩
    obtain ⟨c, hc, ha, hd⟩ := exists_row.2 hrow
    rcases hrole with hrole | hrole
    · exact ⟨ra, ⟨hra, huser⟩, _, ⟨hrole, .inl rfl⟩, c, ⟨hc, ha⟩, hd⟩
    · exact ⟨ra, ⟨hra, huser⟩, _, ⟨hrole, .inr rfl⟩, c, ⟨hc, ha⟩, hd⟩

/-- What the closure table says about grants is what the parents say. -/
theorem hasGrant_iff (hclosure : Forest.IsClosure scope.parentOf scope.ids scope.HasRow)
    (hs : s ∈ scope.ids) : HasGrant scope auth userId permissionName s ↔
      ∃ ra ∈ auth.roleAssignments, ra.userId = userId ∧ (∃ n, scope.HasRow ra.scopeNodeId s n) ∧
        (auth.RoleContains ra.roleId permissionName ∨
          auth.RoleContains ra.roleId (managePermission permissionName)) := by
  have hchain : ∀ a, (∃ n, ParentPath scope.parentOf a s n) ↔ ∃ n, scope.HasRow a s n := by
    intro a
    apply exists_congr
    intro n
    rw [Forest.parentPath_iff, hclosure a s n]
    exact ⟨fun h => ⟨hs, h⟩, fun h => h.2⟩
  simp only [HasGrant, hchain]

/-- A check of a stored user, after other checks of the request. -/
theorem authorizationCan_iff {text : TextFunctions} {cache : PermissionCache}
    {roles : Option (List String)} (hcache : CacheAgrees scope auth cache)
    (huser : isUuid userId = true) (hs : '|' ∉ s.toList) :
    (authorizationCan text scope auth cache userId permissionName s roles).1 = true ↔
      ∃ ra ∈ auth.roleAssignments, ra.userId = userId ∧ (∃ n, scope.HasRow ra.scopeNodeId s n) ∧
        (auth.RoleContains ra.roleId permissionName ∨
          auth.RoleContains ra.roleId (managePermission permissionName)) := by
  unfold authorizationCan
  dsimp only
  rw [effectivePermissions_eq hcache huser hs]
  simp only [Bool.or_eq_true, decide_eq_true_eq, mem_assignedPermissionNames]
  constructor
  · rintro (⟨ra, hra, hid, hrow, hrole⟩ | ⟨ra, hra, hid, hrow, hrole⟩)
    · exact ⟨ra, hra, hid, hrow, .inl hrole⟩
    · exact ⟨ra, hra, hid, hrow, .inr hrole⟩
  · rintro ⟨ra, hra, hid, hrow, hrole | hrole⟩
    · exact .inl ⟨ra, hra, hid, hrow, hrole⟩
    · exact .inr ⟨ra, hra, hid, hrow, hrole⟩

/-- **Permission inheritance is exact and its two implementations agree.** On every tree that calls
have built, for every stored user and every scope node, after any checks of the same request: the
check, the list of accessible scopes, and the assignments at the node or above it say the same. -/
theorem permission_inheritance_exact {text : TextFunctions} {roles : Option (List String)}
    (calls : List ScopeCall) (checks : List PermissionCheck) (users : List String)
    (husers : ∀ id ∈ users, isUuidV4 id = true) (huser : userId ∈ users)
    (hs : s ∈ (runScopeCalls calls seededTables).ids) :
    ((authorizationCan text (runScopeCalls calls seededTables) auth
        (cacheAfter text (runScopeCalls calls seededTables) auth checks) userId permissionName s
        roles).1 = true ↔
      s ∈ getAccessibleScopeIds (runScopeCalls calls seededTables) auth userId permissionName) ∧
    (s ∈ getAccessibleScopeIds (runScopeCalls calls seededTables) auth userId permissionName ↔
      HasGrant (runScopeCalls calls seededTables) auth userId permissionName s) := by
  have hsound := runScopeCalls_sound calls seededTables_sound
  have hbar : '|' ∉ s.toList := by
    obtain ⟨node, hnode, rfl⟩ := id hs
    exact bar_not_mem_of_isUuidText (hsound.uuids node hnode)
  rw [authorizationCan_iff (cacheAgrees_cacheAfter checks)
    (isUuid_of_isUuidV4 (husers userId huser)) hbar, mem_getAccessibleScopeIds,
    hasGrant_iff hsound.closure hs]
  exact ⟨Iff.rfl, Iff.rfl⟩

end Grants

/-! ## An organisation and a project -/

/-- The ids of an organisation, a project below it, and a user. -/
def orgId : String := "00000000-0000-4000-8000-000000000001"

def projectId : String := "00000000-0000-4000-8000-000000000002"

def memberId : String := "00000000-0000-4000-8000-000000000003"

/-- Creates the organisation and the project. -/
def orgCalls : List ScopeCall := [
  .createNode { id := some orgId, type := "org", name := "Org", slug := "org" } "",
  .createNode
    { id := some projectId, parentId := some orgId, type := "project", name := "P", slug := "p" } ""]

/-- The user manages the workflows of the organisation. -/
def orgAuth : AuthTables where
  roles := [⟨"role", "Manager"⟩]
  permissions := [⟨"permission", "workflows:manage"⟩]
  rolePermissions := [⟨some "role", some "permission"⟩]
  roleAssignments := [⟨memberId, "role", orgId⟩]

/-- The two functions on plain texts. -/
def plainText : TextFunctions where
  toLowerCase := String.toLower
  lower := String.toLower

/-- The permission at the organisation allows the update of the workflows of the project. -/
theorem permission_inherited_by_project :
    (authorizationCan plainText (runScopeCalls orgCalls seededTables) orgAuth [] memberId
      "workflows:update" projectId none).1 = true ∧
    HasGrant (runScopeCalls orgCalls seededTables) orgAuth memberId "workflows:update"
      projectId := by
  have hs : projectId ∈ (runScopeCalls orgCalls seededTables).ids := by
    show ∃ node ∈ (runScopeCalls orgCalls seededTables).nodes, node.id = projectId
    decide +kernel
  have haccessible : projectId ∈ getAccessibleScopeIds (runScopeCalls orgCalls seededTables)
      orgAuth memberId "workflows:update" := by decide +kernel
  have hexact : ((authorizationCan plainText (runScopeCalls orgCalls seededTables) orgAuth []
        memberId "workflows:update" projectId none).1 = true ↔
        projectId ∈ getAccessibleScopeIds (runScopeCalls orgCalls seededTables) orgAuth memberId
          "workflows:update") ∧
      (projectId ∈ getAccessibleScopeIds (runScopeCalls orgCalls seededTables) orgAuth memberId
          "workflows:update" ↔
        HasGrant (runScopeCalls orgCalls seededTables) orgAuth memberId "workflows:update"
          projectId) :=
    permission_inheritance_exact orgCalls [] [memberId] (by decide +kernel)
      (List.mem_singleton_self memberId) hs
  exact ⟨hexact.1.2 haccessible, hexact.2.1 haccessible⟩

end Nexus
