import Nexus.Gitops.Reconciliation

/-!
# The plan of an inbound reconcile

`GitOpsInboundReconcileService.buildPlan` puts the desired state of a repository, the objects that
the handlers of a binding read and the pending changes of the binding together into a plan. The
guarantee of a plan is that it leaves alone what the binding does not own; the exact inputs for
which it holds are those in which the flags that the diff decides from say as much.
-/

set_option autoImplicit false

namespace Nexus

structure GitOpsSerializedObject where
  objectType : ReconcileObjectType
  key : String
  fields : ObjectFields
  managedBy : Option String
  locked : Bool

/-- A row of `gitops_repository_bindings`. -/
structure GitOpsRepositoryBinding where
  id : String
  scopeNodeId : String
  defaultRef : String := "main"
  includedObjectTypes : List ReconcileObjectType := []
  conflictPolicy : String := "require_review"
  lastAppliedRevision : Option String := none

/-- The types with a handler, in the order of the registry. -/
def gitopsObjectHandlers : List ReconcileObjectType :=
  [.scopeNode, .role, .roleAssignment, .workflow, .agentProfile, .skill]

def getHandlersForBinding (binding : GitOpsRepositoryBinding) : List ReconcileObjectType :=
  if binding.includedObjectTypes = [] then gitopsObjectHandlers
  else gitopsObjectHandlers.filter fun type => type ∈ binding.includedObjectTypes

/-- `findByBindingId`: the pending changes, the newest first. -/
def findPendingByBindingId (rows : List GitOpsPendingChange) (bindingId : String) :
    List GitOpsPendingChange :=
  (rows.filter fun row => row.bindingId = bindingId && row.status = "pending").insertionSort
    fun a b => b.createdAt ≤ a.createdAt

/-- The desired objects of types that the binding includes; no handler changes one. -/
def normalizedDesired (binding : GitOpsRepositoryBinding) (desired : DesiredState) :
    DesiredState where
  prune := desired.prune
  objects := desired.objects.filter fun o =>
    o.type.isSyncable && o.type ∈ getHandlersForBinding binding

/-- The object of a row; nothing tells whether it has foreign descendants. -/
def GitOpsSerializedObject.toActual (row : GitOpsSerializedObject) : ActualObject where
  type := row.objectType
  key := row.key
  fields := row.fields
  managedBy := row.managedBy
  locked := row.locked

/-- What the handlers of the binding read in its scope. -/
def inboundActual (binding : GitOpsRepositoryBinding)
    (readActual : ReconcileObjectType → String → List GitOpsSerializedObject) : ActualState where
  objects := (getHandlersForBinding binding).flatMap fun type =>
    (readActual type binding.scopeNodeId).map GitOpsSerializedObject.toActual

def inboundOptions (binding : GitOpsRepositoryBinding) (pendingRows : List GitOpsPendingChange) :
    ReconciliationDiffOptions where
  pendingChanges := findPendingByBindingId pendingRows binding.id
  lastAppliedRevision := binding.lastAppliedRevision

/-- The plan of `buildPlan` for a binding that was found. -/
def buildPlan (localeLE : String → String → Bool) (binding : GitOpsRepositoryBinding)
    (desired : DesiredState)
    (readActual : ReconcileObjectType → String → List GitOpsSerializedObject)
    (pendingRows : List GitOpsPendingChange) : ReconciliationPlan :=
  computePlan localeLE (normalizedDesired binding desired) (inboundActual binding readActual)
    (inboundOptions binding pendingRows)

/-! ## Ownership -/

/-- Whether the rows of a type have a column for the binding that manages them. -/
def ReconcileObjectType.hasBindingColumn : ReconcileObjectType → Bool
  | .workflow | .agentProfile | .skill => true
  | _ => false

/-- GitOps manages the object, under this binding where the row can tell. -/
def ownedUnder (binding : GitOpsRepositoryBinding) (o : ActualObject) : Bool :=
  isGitopsManaged o && (!o.type.hasBindingColumn ||
    (OrderedMap.get? o.fields "managedBindingId").map jsonStringify ==
      some (jsonStringify (.str binding.id)))

/-- A path below another one. -/
def pathBelow (path other : String) : Bool :=
  if path = "/" then other ≠ "/" else (path ++ "/").toList.isPrefixOf other.toList

/-- The scope path an object is bound to, besides its own path. -/
def scopeOf (o : ActualObject) : Option String :=
  match OrderedMap.get? o.fields (if o.type = .role then "ownerScope" else "scope") with
  | some (.str path) => some path
  | _ => none

/-- An object lives below a scope node: a node below its path, or another object bound to that path
or to one below it. -/
def livesBelow (type : ReconcileObjectType) (path : String) (o : ActualObject) : Bool :=
  decide (type = .scopeNode) &&
    if o.type = .scopeNode then pathBelow path o.key
    else (scopeOf o).any fun scope => scope = path || pathBelow path scope

/-- A plan touches only what the binding owns. -/
structure RespectsOwnership (binding : GitOpsRepositoryBinding) (desired : DesiredState)
    (actual : ActualState) (pending : List GitOpsPendingChange) (plan : ReconciliationPlan) :
    Prop where
  owned : ∀ c ∈ plan.changes, c.op = .update ∨ c.op = .delete →
    ∀ o ∈ actual.objects, o.type = c.type → o.key = c.key →
      ownedUnder binding o = true ∧ o.locked = false
  pruned : ∀ c ∈ plan.changes, c.op = .delete → desired.prune = true ∧
    ∀ o ∈ actual.objects, livesBelow c.type c.key o = true → ownedUnder binding o = true
  unsynced : ∀ p ∈ pending, p.baseRevision ≠ binding.lastAppliedRevision →
    ∀ c ∈ plan.changes, c.type = p.objectType → c.key = p.objectKey → c.op = .noop

/-- The inputs whose flags make a plan respect the ownership: what is due for an update or a delete
is owned and unlocked, nothing foreign lives below what is due for a delete, and where a pending
change stands on an old revision, so does the one the plan takes for its object. -/
structure OwnershipFlagged (binding : GitOpsRepositoryBinding) (desired : DesiredState)
    (actual : ActualState) (options : ReconciliationDiffOptions) : Prop where
  owned : ∀ o ∈ actual.objects, options.isSynced o.reconcileKey = true →
    UpdateDue desired actual o.reconcileKey ∨ PruneDue desired actual o.reconcileKey →
      ownedUnder binding o = true ∧ o.locked = false
  below : ∀ type path, options.isSynced (reconcileKey type path) = true →
    PruneDue desired actual (reconcileKey type path) →
      ∀ o ∈ actual.objects, livesBelow type path o = true → ownedUnder binding o = true
  current : ∀ p ∈ options.pendingChanges, p.baseRevision ≠ binding.lastAppliedRevision →
    options.isSynced p.reconcileKey = true →
      ¬CreateDue desired actual p.reconcileKey ∧ ¬UpdateDue desired actual p.reconcileKey ∧
        ¬PruneDue desired actual p.reconcileKey

section Plan

variable (localeLE : String → String → Bool) {binding : GitOpsRepositoryBinding}
  {desired : DesiredState} {actual : ActualState} {options : ReconciliationDiffOptions}

variable {key : String}

theorem PruneDue.prune (h : PruneDue desired actual key) : desired.prune = true := by
  obtain ⟨-, have', -, -, -, hguard⟩ := h
  exact (pruneGuard_eq_none.mp hguard).2.2

theorem exists_touched :
    (∃ c ∈ (computePlan localeLE desired actual options).changes,
        c.reconcileKey = key ∧ (c.op = .update ∨ c.op = .delete)) ↔
      options.isSynced key = true ∧ (UpdateDue desired actual key ∨ PruneDue desired actual key) := by
  constructor
  · rintro ⟨c, hc, hkey, ho⟩
    have hentry := (exists_entry localeLE desired actual options key c.op (by
      rcases ho with ho | ho
      all_goals simp [ho])).mp ⟨c, hc, hkey, rfl⟩
    refine ⟨hentry.1, ?_⟩
    rcases hentry.2 with ⟨hcreate, -⟩ | ⟨-, hdue⟩ | ⟨-, hdue⟩
    · rcases ho with ho | ho
      all_goals exact absurd (hcreate.symm.trans ho) (by decide)
    · exact .inl hdue
    · exact .inr hdue
  · rintro ⟨hs, hdue | hdue⟩
    · obtain ⟨c, hc, hkey, ho⟩ := (exists_entry localeLE desired actual options key
        .update (by decide)).mpr ⟨hs, .inr (.inl ⟨rfl, hdue⟩)⟩
      exact ⟨c, hc, hkey, .inl ho⟩
    · obtain ⟨c, hc, hkey, ho⟩ := (exists_entry localeLE desired actual options key
        .delete (by decide)).mpr ⟨hs, .inr (.inr ⟨rfl, hdue⟩)⟩
      exact ⟨c, hc, hkey, .inr ho⟩

theorem exists_delete :
    (∃ c ∈ (computePlan localeLE desired actual options).changes,
        c.reconcileKey = key ∧ c.op = .delete) ↔
      options.isSynced key = true ∧ PruneDue desired actual key := by
  rw [exists_entry localeLE desired actual options key _ (by decide)]
  simp

theorem exists_active :
    (∃ c ∈ (computePlan localeLE desired actual options).changes,
        c.reconcileKey = key ∧ c.op ≠ .noop) ↔
      options.isSynced key = true ∧ (CreateDue desired actual key ∨
        UpdateDue desired actual key ∨ PruneDue desired actual key) := by
  constructor
  · rintro ⟨c, hc, hkey, ho⟩
    have hentry :=
      (exists_entry localeLE desired actual options key _ ho).mp ⟨c, hc, hkey, rfl⟩
    refine ⟨hentry.1, ?_⟩
    rcases hentry.2 with ⟨-, hdue⟩ | ⟨-, hdue⟩ | ⟨-, hdue⟩
    · exact .inl hdue
    · exact .inr (.inl hdue)
    · exact .inr (.inr hdue)
  · rintro ⟨hs, hdue⟩
    have hop : ∃ op : ReconcileOp, op ≠ .noop ∧ ((op = .create ∧ CreateDue desired actual key) ∨
        (op = .update ∧ UpdateDue desired actual key) ∨
          (op = .delete ∧ PruneDue desired actual key)) := by
      rcases hdue with hdue | hdue | hdue
      · exact ⟨.create, by decide, .inl ⟨rfl, hdue⟩⟩
      · exact ⟨.update, by decide, .inr (.inl ⟨rfl, hdue⟩)⟩
      · exact ⟨.delete, by decide, .inr (.inr ⟨rfl, hdue⟩)⟩
    obtain ⟨op, hne, hd⟩ := hop
    obtain ⟨c, hc, hkey, ho⟩ :=
      (exists_entry localeLE desired actual options key _ hne).mpr ⟨hs, hd⟩
    exact ⟨c, hc, hkey, ho ▸ hne⟩

/-- The plan of any state respects the ownership exactly when the flags of its inputs do. -/
theorem respectsOwnership_iff :
    RespectsOwnership binding desired actual options.pendingChanges
        (computePlan localeLE desired actual options) ↔
      OwnershipFlagged binding desired actual options := by
  constructor
  · rintro ⟨howned, hpruned, hunsynced⟩
    refine ⟨?_, ?_, ?_⟩
    · intro o ho hs hdue
      obtain ⟨c, hc, hkey, hop⟩ := (exists_touched localeLE).mpr ⟨hs, hdue⟩
      obtain ⟨htype, hk⟩ := reconcileKey_inj.mp hkey
      exact howned c hc hop o ho htype.symm hk.symm
    · intro type path hs hdue
      obtain ⟨c, hc, hkey, hop⟩ := (exists_delete localeLE).mpr ⟨hs, hdue⟩
      obtain ⟨rfl, rfl⟩ := reconcileKey_inj.mp hkey
      exact (hpruned c hc hop).2
    · intro p hp hbase hs
      have hnone : ¬(CreateDue desired actual p.reconcileKey ∨
          UpdateDue desired actual p.reconcileKey ∨ PruneDue desired actual p.reconcileKey) := by
        intro hdue
        obtain ⟨c, hc, hkey, hop⟩ := (exists_active localeLE).mpr ⟨hs, hdue⟩
        obtain ⟨htype, hk⟩ := reconcileKey_inj.mp hkey
        exact hop (hunsynced p hp hbase c hc htype hk)
      exact ⟨fun h => hnone (.inl h), fun h => hnone (.inr (.inl h)),
        fun h => hnone (.inr (.inr h))⟩
  · rintro ⟨howned, hbelow, hcurrent⟩
    refine ⟨?_, ?_, ?_⟩
    · intro c hc hop o ho htype hk
      have hkey : c.reconcileKey = o.reconcileKey := reconcileKey_inj.mpr ⟨htype.symm, hk.symm⟩
      obtain ⟨hs, hdue⟩ := (exists_touched localeLE).mp ⟨c, hc, hkey, hop⟩
      exact howned o ho hs hdue
    · intro c hc hop
      obtain ⟨hs, hdue⟩ := (exists_delete localeLE).mp ⟨c, hc, rfl, hop⟩
      exact ⟨hdue.prune, hbelow c.type c.key hs hdue⟩
    · intro p hp hbase c hc htype hk
      by_contra hop
      have hkey : c.reconcileKey = p.reconcileKey := reconcileKey_inj.mpr ⟨htype, hk⟩
      obtain ⟨hs, hdue⟩ := (exists_active localeLE).mp ⟨c, hc, hkey, hop⟩
      obtain ⟨hcreate, hupdate, hprune⟩ := hcurrent p hp hbase hs
      rcases hdue with h | h | h
      · exact hcreate h
      · exact hupdate h
      · exact hprune h

end Plan

/-- A workflow of the scope that the binding `b2` manages. -/
def otherBindingsWorkflow : GitOpsSerializedObject where
  objectType := .workflow
  key := "/acme:deploy"
  fields := [("name", .str "deploy"), ("scope", .str "/acme"), ("strategy", .str "replace"),
    ("definition", .str "steps: []"), ("source", .str "repository"), ("locked", .bool false),
    ("managedBindingId", .str "b2")]
  managedBy := some gitopsManagedBy
  locked := false

def bindingB1 : GitOpsRepositoryBinding where
  id := "b1"
  scopeNodeId := "acme"

/-- The workflow is the only object in the scope of `b1`. -/
def readActualOfAcme (type : ReconcileObjectType) (_ : String) : List GitOpsSerializedObject :=
  if type = .workflow then [otherBindingsWorkflow] else []

/-- What the repository of `b1` says about a workflow of the same name. -/
def repositoryOfB1 : DesiredState where
  prune := false
  objects := [⟨.workflow, "/acme:deploy", [("name", .str "deploy"), ("scope", .str "/acme"),
    ("strategy", .str "replace"), ("definition", .str "steps: [build]")]⟩]

end Nexus
