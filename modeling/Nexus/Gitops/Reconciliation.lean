import Nexus.Lib.Json
import Mathlib.Data.List.Sort

/-!
# The reconciliation plan

`ReconciliationDiffService.computePlan`: the entries of a plan for the desired and the actual
objects, in the order in which they are applied. The fields of an object are an ordered record;
`JSON.stringify` decides whether two values differ. `localeLE` says when `localeCompare` is not
positive.
-/

set_option autoImplicit false

namespace Nexus

/-- `RECONCILE_OBJECT_TYPES`. -/
inductive ReconcileObjectType where
  | scopeNode
  | role
  | roleAssignment
  | workflow
  | agentProfile
  | skill
  | configOverride
  deriving DecidableEq, Repr

namespace ReconcileObjectType

def text : ReconcileObjectType → String
  | scopeNode => "scope_node"
  | role => "role"
  | roleAssignment => "role_assignment"
  | workflow => "workflow"
  | agentProfile => "agent_profile"
  | skill => "skill"
  | configOverride => "config_override"

/-- The position in `RECONCILE_ORDER`. -/
def rank : ReconcileObjectType → Nat
  | scopeNode => 0
  | role => 1
  | roleAssignment => 2
  | workflow => 3
  | agentProfile => 4
  | skill => 5
  | configOverride => 6

/-- `isGitOpsSyncableObjectType`. -/
def isSyncable : ReconcileObjectType → Bool
  | configOverride => false
  | _ => true

end ReconcileObjectType

/-- The identity of an object on both sides of the reconciler. -/
def reconcileKey (type : ReconcileObjectType) (key : String) : String := type.text ++ "::" ++ key

def gitopsManagedBy : String := "gitops"

/-- `Record<string, unknown>`. -/
abbrev ObjectFields := OrderedMap String Json

structure DesiredObject where
  type : ReconcileObjectType
  key : String
  fields : ObjectFields

structure ActualObject extends DesiredObject where
  managedBy : Option String
  locked : Bool
  hasForeignDescendants : Bool := false

inductive ReconcileOp where
  | create
  | update
  | delete
  | noop
  deriving DecidableEq, Repr

/-- The two values of a field that differs; `none` is `undefined`. -/
structure FieldDifference where
  fromValue : Option Json
  toValue : Option Json

structure ReconcileChange where
  type : ReconcileObjectType
  key : String
  op : ReconcileOp
  diff : Option (List (String × FieldDifference)) := none
  skippedReason : Option String := none
  conflict : Bool := false

structure ReconciliationPlan where
  changes : List ReconcileChange
  summary : ReconcileOp → Nat

structure DesiredState where
  prune : Bool
  objects : List DesiredObject

structure ActualState where
  objects : List ActualObject

/-- A row of `gitops_pending_changes`. -/
structure GitOpsPendingChange where
  id : String
  bindingId : String
  objectType : ReconcileObjectType
  objectKey : String
  baseRevision : Option String
  status : String := "pending"
  createdAt : Nat := 0

structure ReconciliationDiffOptions where
  pendingChanges : List GitOpsPendingChange := []
  lastAppliedRevision : Option String := none

def DesiredObject.reconcileKey (o : DesiredObject) : String := Nexus.reconcileKey o.type o.key

def GitOpsPendingChange.reconcileKey (change : GitOpsPendingChange) : String :=
  Nexus.reconcileKey change.objectType change.objectKey

/-- `new Map(items.map(…)).get(key)`: the last item with the key. -/
def lastWithKey {α : Type} (keyOf : α → String) (items : List α) (key : String) : Option α :=
  items.reverse.find? fun item => keyOf item = key

/-- `actualByKey.get(…)`. -/
def ActualState.get? (actual : ActualState) (key : String) : Option ActualObject :=
  lastWithKey (fun o => o.reconcileKey) actual.objects key

/-- `desiredByKey.get(…)`. -/
def DesiredState.get? (desired : DesiredState) (key : String) : Option DesiredObject :=
  lastWithKey DesiredObject.reconcileKey desired.objects key

/-- `pendingByKey.get(…)`. -/
def ReconciliationDiffOptions.pending? (options : ReconciliationDiffOptions) (key : String) :
    Option GitOpsPendingChange :=
  lastWithKey GitOpsPendingChange.reconcileKey options.pendingChanges key

/-- The fields of the desired object whose values differ. -/
def fieldDiff (fromFields toFields : ObjectFields) : List (String × FieldDifference) :=
  (OrderedMap.keys toFields).filterMap fun key =>
    let fromValue := OrderedMap.get? fromFields key
    let toValue := OrderedMap.get? toFields key
    if fromValue.map jsonStringify = toValue.map jsonStringify then none
    else some (key, ⟨fromValue, toValue⟩)

/-- Whether a pending change still stands on the revision that was applied last. -/
def GitOpsPendingChange.isCurrent (change : GitOpsPendingChange)
    (lastAppliedRevision : Option String) : Bool :=
  change.baseRevision.any (fun base => base ≠ "") &&
    lastAppliedRevision.any (fun revision => revision ≠ "") &&
    change.baseRevision == lastAppliedRevision

def withPendingConflict (options : ReconciliationDiffOptions) (change : ReconcileChange) :
    ReconcileChange :=
  match options.pending? (reconcileKey change.type change.key) with
  | none => change
  | some pendingChange =>
      if pendingChange.isCurrent options.lastAppliedRevision then change
      else { change with
        op := .noop
        conflict := true
        skippedReason := some "pending outbound change requires review" }

def pruneGuard (prune : Bool) (have' : ActualObject) : Option String :=
  if have'.locked then some "object is locked"
  else if have'.hasForeignDescendants then some "node has descendants not in desired-state"
  else if !prune then some "prune not enabled"
  else none

def isGitopsManaged (have' : ActualObject) : Bool := have'.managedBy = some gitopsManagedBy

/-- The body of the loop over the desired objects. -/
def changeForDesired (actual : ActualState) (options : ReconciliationDiffOptions)
    (want : DesiredObject) : Option ReconcileChange :=
  match actual.get? want.reconcileKey with
  | none => some (withPendingConflict options { type := want.type, key := want.key, op := .create })
  | some have' =>
      -- an object that is not managed by GitOps is skipped without an entry
      if !isGitopsManaged have' then none
      else
        let diff := fieldDiff have'.fields want.fields
        if diff = [] then some { type := want.type, key := want.key, op := .noop }
        else if have'.locked then some {
          type := want.type, key := want.key, op := .noop, diff := some diff
          skippedReason := some "object is locked" }
        else some (withPendingConflict options {
          type := want.type, key := want.key, op := .update, diff := some diff })

/-- The body of the loop over the actual objects. -/
def changeForActual (desired : DesiredState) (options : ReconciliationDiffOptions)
    (have' : ActualObject) : Option ReconcileChange :=
  if (desired.get? have'.reconcileKey).isSome then none
  else if !isGitopsManaged have' then none
  else
    match pruneGuard desired.prune have' with
    | some guard => some {
        type := have'.type, key := have'.key, op := .noop, skippedReason := some guard }
    | none => some (withPendingConflict options {
        type := have'.type, key := have'.key, op := .delete })

/-- The comparator of `sort` is not positive. -/
def ReconcileChange.le (localeLE : String → String → Bool) (a b : ReconcileChange) : Bool :=
  if (a.op = .delete) ≠ (b.op = .delete) then decide (b.op = .delete)
  else
    let x := if a.op = .delete then b.type.rank else a.type.rank
    let y := if a.op = .delete then a.type.rank else b.type.rank
    if x = y then localeLE a.key b.key else decide (x < y)

/-- `sort`: deletes come last and in the reverse order of the types. -/
def sortChanges (localeLE : String → String → Bool) (changes : List ReconcileChange) :
    List ReconcileChange :=
  changes.insertionSort fun a b => a.le localeLE b = true

def summarize (changes : List ReconcileChange) (op : ReconcileOp) : Nat :=
  changes.countP fun c => c.op = op

/-- The entries of a plan in the order in which the loops push them. -/
def planChanges (desired : DesiredState) (actual : ActualState)
    (options : ReconciliationDiffOptions) : List ReconcileChange :=
  desired.objects.filterMap (changeForDesired actual options) ++
    actual.objects.filterMap (changeForActual desired options)

def computePlan (localeLE : String → String → Bool) (desired : DesiredState) (actual : ActualState)
    (options : ReconciliationDiffOptions) : ReconciliationPlan where
  changes := sortChanges localeLE (planChanges desired actual options)
  summary := summarize (planChanges desired actual options)

/-! ## Identities -/

/-- The text of a type has no colon. -/
theorem ReconcileObjectType.takeWhile_text (type : ReconcileObjectType) (rest : List Char) :
    (type.text.toList ++ ':' :: rest).takeWhile (fun c => c ≠ ':') = type.text.toList := by
  cases type with
  | scopeNode => rfl
  | role => rfl
  | roleAssignment => rfl
  | workflow => rfl
  | agentProfile => rfl
  | skill => rfl
  | configOverride => rfl

theorem ReconcileObjectType.text_injective {t u : ReconcileObjectType} (h : t.text = u.text) :
    t = u := by
  have hall : ∀ t u : ReconcileObjectType, t.text = u.text → t = u := by
    intro t u
    cases t <;> cases u <;> decide
  exact hall t u h

/-- Two objects with one identity have one type and one key. -/
theorem reconcileKey_inj {t u : ReconcileObjectType} {k l : String} :
    reconcileKey t k = reconcileKey u l ↔ t = u ∧ k = l := by
  constructor
  · intro h
    have hlist := congrArg String.toList h
    simp only [reconcileKey, String.toList_append, List.append_assoc] at hlist
    have htext : t.text.toList = u.text.toList := by
      have hprefix := congrArg (List.takeWhile fun c => c ≠ ':') hlist
      change List.takeWhile _ (t.text.toList ++ ':' :: _) =
        List.takeWhile _ (u.text.toList ++ ':' :: _) at hprefix
      rwa [t.takeWhile_text, u.takeWhile_text] at hprefix
    obtain rfl := ReconcileObjectType.text_injective (String.toList_injective htext)
    refine ⟨rfl, String.toList_injective ?_⟩
    exact List.append_cancel_left (List.append_cancel_left hlist)
  · rintro ⟨rfl, rfl⟩
    rfl

section LastWithKey

variable {α : Type} {keyOf : α → String} {items : List α} {key : String}

end LastWithKey

/-! ## The entries of a plan -/

/-- No pending change of the object stands in the way. -/
def ReconciliationDiffOptions.isSynced (options : ReconciliationDiffOptions) (key : String) :
    Bool :=
  match options.pending? key with
  | none => true
  | some pendingChange => pendingChange.isCurrent options.lastAppliedRevision

def ReconcileChange.reconcileKey (c : ReconcileChange) : String := Nexus.reconcileKey c.type c.key

section Entries

variable {localeLE : String → String → Bool} {desired : DesiredState} {actual : ActualState}
  {options : ReconciliationDiffOptions} {key : String} {c : ReconcileChange}

@[simp] theorem withPendingConflict_type : (withPendingConflict options c).type = c.type := by
  unfold withPendingConflict
  split
  · rfl
  · split
    · rfl
    · rfl

@[simp] theorem withPendingConflict_key : (withPendingConflict options c).key = c.key := by
  unfold withPendingConflict
  split
  · rfl
  · split
    · rfl
    · rfl

/-- A pending change turns every entry into one that does nothing. -/
theorem withPendingConflict_op :
    (withPendingConflict options c).op =
      if options.isSynced c.reconcileKey then c.op else .noop := by
  unfold withPendingConflict ReconciliationDiffOptions.isSynced ReconcileChange.reconcileKey
  cases options.pending? (Nexus.reconcileKey c.type c.key) with
  | none => rfl
  | some pendingChange =>
      by_cases hcurrent : pendingChange.isCurrent options.lastAppliedRevision = true
      · simp [hcurrent]
      · simp [hcurrent]

theorem mem_changes :
    c ∈ (computePlan localeLE desired actual options).changes ↔
      (∃ want ∈ desired.objects, changeForDesired actual options want = some c) ∨
        ∃ have' ∈ actual.objects, changeForActual desired options have' = some c := by
  simp [computePlan, sortChanges, planChanges]

/-- A desired object that is missing. -/
def CreateDue (desired : DesiredState) (actual : ActualState) (key : String) : Prop :=
  (∃ want ∈ desired.objects, want.reconcileKey = key) ∧ actual.get? key = none

/-- A desired object that GitOps manages, that is not locked and that differs. -/
def UpdateDue (desired : DesiredState) (actual : ActualState) (key : String) : Prop :=
  ∃ want ∈ desired.objects, want.reconcileKey = key ∧
    ∃ have' : ActualObject, actual.get? key = some have' ∧ isGitopsManaged have' = true ∧
      fieldDiff have'.fields want.fields ≠ [] ∧ have'.locked = false

/-- An object that GitOps manages, that is not desired and that nothing keeps from being pruned. -/
def PruneDue (desired : DesiredState) (actual : ActualState) (key : String) : Prop :=
  desired.get? key = none ∧ ∃ have' ∈ actual.objects, have'.reconcileKey = key ∧
    isGitopsManaged have' = true ∧ pruneGuard desired.prune have' = none

variable {have' : ActualObject}

theorem pruneGuard_eq_none {prune : Bool} :
    pruneGuard prune have' = none ↔
      have'.locked = false ∧ have'.hasForeignDescendants = false ∧ prune = true := by
  unfold pruneGuard
  cases have'.locked <;> cases have'.hasForeignDescendants <;> cases prune <;> simp

theorem changeForDesired_reconcileKey {want : DesiredObject}
    (h : changeForDesired actual options want = some c) : c.reconcileKey = want.reconcileKey := by
  unfold changeForDesired at h
  split at h
  · obtain rfl := Option.some.inj h
    simp [ReconcileChange.reconcileKey, DesiredObject.reconcileKey]
  · dsimp only at h
    split_ifs at h
    all_goals
      obtain rfl := Option.some.inj h
      simp [ReconcileChange.reconcileKey, DesiredObject.reconcileKey]

theorem changeForActual_reconcileKey (h : changeForActual desired options have' = some c) :
    c.reconcileKey = have'.reconcileKey := by
  unfold changeForActual at h
  split_ifs at h
  split at h
  all_goals
    obtain rfl := Option.some.inj h
    simp [ReconcileChange.reconcileKey, DesiredObject.reconcileKey]

/-- The loop over the desired objects creates what is missing and updates what differs. -/
theorem changeForDesired_op {want : DesiredObject} {op : ReconcileOp} (hop : op ≠ .noop) :
    (∃ c, changeForDesired actual options want = some c ∧ c.op = op) ↔
      options.isSynced want.reconcileKey = true ∧
        ((op = .create ∧ actual.get? want.reconcileKey = none) ∨
          (op = .update ∧ ∃ have' : ActualObject,
            actual.get? want.reconcileKey = some have' ∧ isGitopsManaged have' = true ∧
              fieldDiff have'.fields want.fields ≠ [] ∧ have'.locked = false)) := by
  have hsynced : ∀ o diff, (withPendingConflict options
      { type := want.type, key := want.key, op := o, diff }).op = op ↔
        options.isSynced want.reconcileKey = true ∧ op = o := by
    intro o diff
    rw [withPendingConflict_op]
    change (if options.isSynced want.reconcileKey = true then o else .noop) = op ↔ _
    split
    · rename_i h
      simp [h, eq_comm]
    · rename_i h
      simp [h, hop.symm]
  unfold changeForDesired
  cases hget : actual.get? want.reconcileKey with
  | none => simp [hsynced]
  | some have' =>
      by_cases hmanaged : isGitopsManaged have' = true
      · by_cases hdiff : fieldDiff have'.fields want.fields = []
        · simp [hmanaged, hdiff, hop.symm]
        · by_cases hlocked : have'.locked = true
          · simp [hmanaged, hdiff, hlocked, hop.symm]
          · simp [hmanaged, hdiff, hlocked, hsynced]
      · simp [hmanaged]

/-- The loop over the actual objects deletes what nothing keeps from being pruned. -/
theorem changeForActual_op {op : ReconcileOp} (hop : op ≠ .noop) :
    (∃ c, changeForActual desired options have' = some c ∧ c.op = op) ↔
      options.isSynced have'.reconcileKey = true ∧ op = .delete ∧
        desired.get? have'.reconcileKey = none ∧ isGitopsManaged have' = true ∧
          pruneGuard desired.prune have' = none := by
  have hsynced : (withPendingConflict options
      { type := have'.type, key := have'.key, op := .delete }).op = op ↔
        options.isSynced have'.reconcileKey = true ∧ op = .delete := by
    rw [withPendingConflict_op]
    change (if options.isSynced have'.reconcileKey = true then .delete else .noop) = op ↔ _
    split
    · rename_i h
      simp [h, eq_comm]
    · rename_i h
      simp [h, hop.symm]
  unfold changeForActual
  cases hget : desired.get? have'.reconcileKey with
  | some want => simp
  | none =>
      by_cases hmanaged : isGitopsManaged have' = true
      · cases hguard : pruneGuard desired.prune have' with
        | some guard => simp [hmanaged, hop.symm]
        | none => simp [hmanaged, hsynced]
      · simp [hmanaged]

/-! ### The plan as a whole -/

section Plan

variable (localeLE : String → String → Bool) (desired : DesiredState) (actual : ActualState)
  (options : ReconciliationDiffOptions) (key : String)

theorem exists_entry (op : ReconcileOp) (hop : op ≠ .noop) :
    (∃ c ∈ (computePlan localeLE desired actual options).changes,
        c.reconcileKey = key ∧ c.op = op) ↔
      options.isSynced key = true ∧
        ((op = .create ∧ CreateDue desired actual key) ∨
          (op = .update ∧ UpdateDue desired actual key) ∨
            (op = .delete ∧ PruneDue desired actual key)) := by
  constructor
  · rintro ⟨c, hc, rfl, rfl⟩
    rcases mem_changes.mp hc with ⟨want, hwant, heq⟩ | ⟨have', hhave, heq⟩
    · have hkey := changeForDesired_reconcileKey heq
      obtain ⟨hs, hdue⟩ := (changeForDesired_op hop).mp ⟨c, heq, rfl⟩
      rw [hkey]
      refine ⟨hs, ?_⟩
      rcases hdue with ⟨ho, hnone⟩ | ⟨ho, h⟩
      · exact .inl ⟨ho, ⟨want, hwant, rfl⟩, hnone⟩
      · exact .inr (.inl ⟨ho, want, hwant, rfl, h⟩)
    · have hkey := changeForActual_reconcileKey heq
      obtain ⟨hs, ho, hnone, hmanaged, hguard⟩ := (changeForActual_op hop).mp ⟨c, heq, rfl⟩
      rw [hkey]
      exact ⟨hs, .inr (.inr ⟨ho, hnone, have', hhave, rfl, hmanaged, hguard⟩)⟩
  · rintro ⟨hs, ⟨ho, ⟨want, hwant, rfl⟩, hnone⟩ | ⟨ho, want, hwant, rfl, h⟩ |
      ⟨ho, hnone, have', hhave, rfl, hmanaged, hguard⟩⟩
    · obtain ⟨c, heq, hc⟩ := (changeForDesired_op hop).mpr ⟨hs, .inl ⟨ho, hnone⟩⟩
      exact ⟨c, mem_changes.mpr (.inl ⟨want, hwant, heq⟩), changeForDesired_reconcileKey heq, hc⟩
    · obtain ⟨c, heq, hc⟩ := (changeForDesired_op hop).mpr ⟨hs, .inr ⟨ho, h⟩⟩
      exact ⟨c, mem_changes.mpr (.inl ⟨want, hwant, heq⟩), changeForDesired_reconcileKey heq, hc⟩
    · obtain ⟨c, heq, hc⟩ := (changeForActual_op hop).mpr ⟨hs, ho, hnone, hmanaged, hguard⟩
      exact ⟨c, mem_changes.mpr (.inr ⟨have', hhave, heq⟩), changeForActual_reconcileKey heq, hc⟩

end Plan

end Entries

end Nexus
