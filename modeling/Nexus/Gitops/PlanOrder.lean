import Nexus.Gitops.Reconciliation
import Nexus.Lib.SlashPath
import Mathlib.Data.List.Pairwise
import Mathlib.Data.String.Basic

/-!
# The order of a plan

The comparator of `sort` looks at the operation, then at the rank of the type, then at the key. For
deletes it reverses the rank and not the key, so a scope node is deleted before the scope nodes
below it. A plan is in the order of its dependencies exactly when it deletes no two scope nodes of
which one lies below the other (`plan_in_dependency_order_iff`).
-/

set_option autoImplicit false

namespace Nexus

open SlashPath

/-! ## The order that the dependencies ask for -/

/-- The path of a scope node below another one. -/
def extendsPath (path other : String) : Bool :=
  (child path "").toList.isPrefixOf other.toList && path ≠ other

/-- An object at or below a scope node. An object of another type counts wherever it is. -/
def atOrBelow (node object : ReconcileChange) : Bool :=
  object.type ≠ .scopeNode || extendsPath node.key object.key

/-- The entry has to be applied before the other one. -/
def ReconcileChange.precedes (a b : ReconcileChange) : Prop :=
  (a.op = .create ∧ b.op = .create ∧ a.type = .scopeNode ∧ atOrBelow a b = true) ∨
    (a.op = .delete ∧ b.op = .delete ∧ b.type = .scopeNode ∧ atOrBelow b a = true) ∨
      ((a.op = .create ∨ a.op = .update) ∧ b.op = .delete)

instance (a b : ReconcileChange) : Decidable (a.precedes b) :=
  inferInstanceAs (Decidable (_ ∨ _))

/-- No entry comes after one that it has to precede, and the counts are those of the entries. -/
structure InDependencyOrder (plan : ReconciliationPlan) : Prop where
  order : plan.changes.Pairwise fun a b => ¬ b.precedes a
  counts : ∀ op, plan.summary op = plan.changes.countP fun c => c.op = op

/-- The scope node is due for a delete that no pending change holds back. -/
def DeletesNode (desired : DesiredState) (actual : ActualState)
    (options : ReconciliationDiffOptions) (path : String) : Prop :=
  options.isSynced (reconcileKey .scopeNode path) = true ∧
    PruneDue desired actual (reconcileKey .scopeNode path)

/-- What the plan asks of `localeCompare`: a total preorder that puts a proper prefix first. -/
structure KeyOrder (localeLE : String → String → Bool) : Prop where
  total : ∀ a b, localeLE a b = true ∨ localeLE b a = true
  trans : ∀ a b c, localeLE a b = true → localeLE b c = true → localeLE a c = true
  extension : ∀ a b : String, a.toList <+: b.toList → a ≠ b →
    localeLE a b = true ∧ localeLE b a = false

section Order

variable {localeLE : String → String → Bool} {a b c : ReconcileChange}

theorem prefix_of_extendsPath {path other : String} (h : extendsPath path other = true) :
    path.toList <+: other.toList ∧ path ≠ other := by
  rw [extendsPath, Bool.and_eq_true, List.isPrefixOf_iff_prefix, decide_eq_true_eq] at h
  refine ⟨List.IsPrefix.trans ?_ h.1, h.2⟩
  rw [toList_child]
  split
  · rename_i hroot
    rw [hroot]
    exact List.prefix_rfl
  · exact List.prefix_append _ _

/-! ## The comparator -/

/-- The first two things that the comparator looks at: deletes are last, and the ranks of their
types are reversed. -/
def ReconcileChange.stage (c : ReconcileChange) : Nat :=
  if c.op = .delete then 13 - c.type.rank else c.type.rank

theorem ReconcileObjectType.rank_le (type : ReconcileObjectType) : type.rank ≤ 6 := by
  cases type <;> decide

theorem ReconcileChange.le_iff :
    a.le localeLE b = true ↔
      a.stage < b.stage ∨ a.stage = b.stage ∧ localeLE a.key b.key = true := by
  have ha := a.type.rank_le
  have hb := b.type.rank_le
  unfold ReconcileChange.le ReconcileChange.stage
  by_cases hda : a.op = .delete
  · by_cases hdb : b.op = .delete
    · rcases Nat.lt_trichotomy b.type.rank a.type.rank with h | h | h
      · simp [hda, hdb, h.ne, show 13 - a.type.rank < 13 - b.type.rank by omega, h]
      · simp [hda, hdb, h]
      · simp [hda, hdb, h.ne', show ¬ 13 - a.type.rank < 13 - b.type.rank by omega,
          show ¬ b.type.rank < a.type.rank by omega,
          show ¬ 13 - a.type.rank = 13 - b.type.rank by omega]
    · simp [hda, hdb, show ¬ 13 - a.type.rank < b.type.rank by omega,
        show ¬ 13 - a.type.rank = b.type.rank by omega]
  · by_cases hdb : b.op = .delete
    · simp [hda, hdb, show a.type.rank < 13 - b.type.rank by omega]
    · rcases Nat.lt_trichotomy a.type.rank b.type.rank with h | h | h
      · simp [hda, hdb, h.ne, h]
      · simp [hda, hdb, h]
      · simp [hda, hdb, h.ne', h.not_gt]

theorem ReconcileChange.le_total (h : KeyOrder localeLE) (a b : ReconcileChange) :
    a.le localeLE b = true ∨ b.le localeLE a = true := by
  rw [le_iff, le_iff]
  rcases Nat.lt_trichotomy a.stage b.stage with hstage | hstage | hstage
  · exact .inl (.inl hstage)
  · rcases h.total a.key b.key with hkey | hkey
    · exact .inl (.inr ⟨hstage, hkey⟩)
    · exact .inr (.inr ⟨hstage.symm, hkey⟩)
  · exact .inr (.inl hstage)

theorem ReconcileChange.le_trans (h : KeyOrder localeLE) (hab : a.le localeLE b = true)
    (hbc : b.le localeLE c = true) : a.le localeLE c = true := by
  rw [le_iff] at hab hbc ⊢
  rcases hab with hab | ⟨hab, hkey⟩
  · rcases hbc with hbc | ⟨hbc, -⟩
    · exact .inl (hab.trans hbc)
    · exact .inl (hbc ▸ hab)
  · rcases hbc with hbc | ⟨hbc, hkey'⟩
    · exact .inl (hab ▸ hbc)
    · exact .inr ⟨hab.trans hbc, h.trans _ _ _ hkey hkey'⟩

theorem sorted_sortChanges (h : KeyOrder localeLE) (changes : List ReconcileChange) :
    (sortChanges localeLE changes).Pairwise fun a b => a.le localeLE b = true := by
  have : Std.Total fun a b : ReconcileChange => a.le localeLE b = true :=
    ⟨ReconcileChange.le_total h⟩
  have : IsTrans ReconcileChange fun a b => a.le localeLE b = true :=
    ⟨fun _ _ _ => ReconcileChange.le_trans h⟩
  exact List.pairwise_insertionSort _ _

/-- Two deletes of scope nodes are sorted by their paths, so the upper one comes first. -/
theorem not_le_of_extendsPath (h : KeyOrder localeLE) (ha : a.op = .delete) (hb : b.op = .delete)
    (hta : a.type = .scopeNode) (htb : b.type = .scopeNode)
    (hbelow : extendsPath a.key b.key = true) : ¬ b.le localeLE a = true := by
  obtain ⟨hpath, hne⟩ := prefix_of_extendsPath hbelow
  have hstage : a.stage = b.stage := by
    unfold ReconcileChange.stage
    rw [ha, hb, hta, htb]
  rw [ReconcileChange.le_iff]
  rintro (hlt | ⟨-, hle⟩)
  · omega
  · rw [(h.extension _ _ hpath hne).2] at hle
    nomatch hle

/-- The sort puts one entry before another that has to precede it only for two deletes of scope
nodes, the lower one after the upper one. -/
theorem deletes_of_le_of_precedes (h : KeyOrder localeLE) (hle : a.le localeLE b = true)
    (hprecedes : b.precedes a) :
    a.op = .delete ∧ b.op = .delete ∧ a.type = .scopeNode ∧ b.type = .scopeNode ∧
      extendsPath a.key b.key = true := by
  have ha := a.type.rank_le
  have hb := b.type.rank_le
  rw [ReconcileChange.le_iff] at hle
  rcases hprecedes with ⟨hob, hoa, htb, hbelow⟩ | ⟨hob, hoa, hta, hbelow⟩ | ⟨hob, hoa⟩
  · -- creates: the scope node has the lowest rank and the smaller path
    have hrank : a.stage = a.type.rank ∧ b.stage = 0 := by
      simp [ReconcileChange.stage, hoa, hob, htb, ReconcileObjectType.rank]
    have hta : a.type = .scopeNode := by
      have hzero : a.type.rank = 0 := by omega
      revert hzero
      cases a.type <;> decide
    rw [atOrBelow, hta] at hbelow
    obtain ⟨hpath, hne⟩ := prefix_of_extendsPath (by simpa using hbelow)
    rcases hle with hlt | ⟨-, hkey⟩
    · omega
    · rw [(h.extension _ _ hpath hne).2] at hkey
      nomatch hkey
  · -- deletes: nothing but a scope node comes after a scope node
    have htb : b.type = .scopeNode := by
      have hstage : a.stage = 13 ∧ b.stage = 13 - b.type.rank := by
        simp [ReconcileChange.stage, hoa, hob, hta, ReconcileObjectType.rank]
      have hzero : b.type.rank = 0 := by omega
      revert hzero
      cases b.type <;> decide
    rw [atOrBelow, htb] at hbelow
    exact ⟨hoa, hob, hta, htb, by simpa using hbelow⟩
  · have hstage : a.stage = 13 - a.type.rank := by
      simp [ReconcileChange.stage, hoa]
    have hstage' : b.stage = b.type.rank := by
      have hnot : b.op ≠ .delete := by
        rcases hob with hob | hob <;> simp [hob]
      simp [ReconcileChange.stage, hnot]
    omega

end Order

/-! ## The order of a plan -/

section Plan

variable {localeLE : String → String → Bool} {desired : DesiredState} {actual : ActualState}
  {options : ReconciliationDiffOptions}

/-- The scope nodes that a plan deletes. -/
theorem exists_delete_node (localeLE : String → String → Bool) {path : String} :
    (∃ c ∈ (computePlan localeLE desired actual options).changes,
        c.type = .scopeNode ∧ c.key = path ∧ c.op = .delete) ↔
      DeletesNode desired actual options path := by
  have hentry := exists_entry localeLE desired actual options (reconcileKey .scopeNode path)
    .delete (by decide)
  simp only [reduceCtorEq, false_and, false_or, true_and] at hentry
  rw [DeletesNode, ← hentry]
  simp only [ReconcileChange.reconcileKey, reconcileKey_inj, and_assoc]

/-- **The order of a plan.** With a total order of the keys in which a proper prefix comes first,
every entry of a plan comes after those that it depends on, and the counts of the summary are those
of the entries, exactly when no scope node that the plan deletes lies below another one that it
deletes. -/
theorem plan_in_dependency_order_iff (h : KeyOrder localeLE) :
    InDependencyOrder (computePlan localeLE desired actual options) ↔
      ∀ path other, DeletesNode desired actual options path →
        DeletesNode desired actual options other → extendsPath path other = false := by
  have hsorted := sorted_sortChanges h (planChanges desired actual options)
  constructor
  · intro hordered path other hpath hother
    obtain ⟨a, ha, hta, rfl, hoa⟩ := (exists_delete_node localeLE).2 hpath
    obtain ⟨b, hb, htb, rfl, hob⟩ := (exists_delete_node localeLE).2 hother
    rw [← Bool.not_eq_true]
    intro hbelow
    have hne : a ≠ b := fun hab => (prefix_of_extendsPath hbelow).2 (congrArg _ hab)
    -- the two entries stand in one order or the other
    have hpair : (computePlan localeLE desired actual options).changes.Pairwise fun x y =>
        (x.le localeLE y = true ∧ ¬ y.precedes x) ∨ (y.le localeLE x = true ∧ ¬ x.precedes y) :=
      (hsorted.and hordered.order).imp .inl
    have : Std.Symm fun x y : ReconcileChange =>
        (x.le localeLE y = true ∧ ¬ y.precedes x) ∨ (y.le localeLE x = true ∧ ¬ x.precedes y) :=
      ⟨fun _ _ => Or.symm⟩
    rcases hpair.forall ha hb hne with ⟨-, hnot⟩ | ⟨hle, -⟩
    · exact hnot (.inr (.inl ⟨hob, hoa, hta, by simp [atOrBelow, hbelow]⟩))
    · exact not_le_of_extendsPath h hoa hob hta htb hbelow hle
  · intro hflat
    refine ⟨hsorted.imp_of_mem fun {a b} ha hb hle hprecedes => ?_, fun op => ?_⟩
    · obtain ⟨hoa, hob, hta, htb, hbelow⟩ := deletes_of_le_of_precedes h hle hprecedes
      have hpath := (exists_delete_node localeLE).1 ⟨a, ha, hta, rfl, hoa⟩
      have hother := (exists_delete_node localeLE).1 ⟨b, hb, htb, rfl, hob⟩
      rw [hflat _ _ hpath hother] at hbelow
      nomatch hbelow
    · exact ((List.perm_insertionSort _ _).countP_eq _).symm

end Plan

/-! ## Plans of two scope nodes -/

/-- The order of the code points. -/
theorem keyOrder_le : KeyOrder fun a b => decide (a ≤ b) where
  total a b := by
    simpa using String.le_total a b
  trans a b c hab hbc := by
    rw [decide_eq_true_eq] at hab hbc ⊢
    exact le_trans hab hbc
  extension a b hstarts hne := by
    obtain ⟨rest, hrest⟩ := hstarts
    have hlt : a < b := by
      rw [String.lt_iff_toList_lt, ← hrest]
      cases rest with
      | nil =>
          rw [List.append_nil] at hrest
          exact absurd (String.toList_injective hrest) hne
      | cons c rest =>
          have happend : a.toList ++ [] < a.toList ++ c :: rest :=
            List.append_left_lt (List.nil_lt_cons _ _)
          rwa [List.append_nil] at happend
    exact ⟨decide_eq_true hlt.le, decide_eq_false hlt.not_ge⟩

/-- A scope node that GitOps manages. -/
def managedNode (path : String) : ActualObject where
  type := .scopeNode
  key := path
  fields := []
  managedBy := some gitopsManagedBy
  locked := false

/-- One scope node is created and another one deleted. -/
theorem flat_plan_in_dependency_order :
    InDependencyOrder (computePlan (fun a b => decide (a ≤ b))
      { prune := true, objects := [{ type := .scopeNode, key := "/acme", fields := [] }] }
      { objects := [managedNode "/old"] } {}) := by
  refine (plan_in_dependency_order_iff keyOrder_le).2 fun path other hpath hother => ?_
  obtain ⟨-, -, node, hnode, hkey, -⟩ := hpath
  obtain ⟨-, -, node', hnode', hkey', -⟩ := hother
  rw [List.mem_singleton] at hnode hnode'
  obtain rfl : "/old" = path := (reconcileKey_inj.1 (hnode ▸ hkey)).2
  obtain rfl : "/old" = other := (reconcileKey_inj.1 (hnode' ▸ hkey')).2
  decide

/-- A scope node and the one below it are both pruned: the upper one is deleted first. -/
theorem nested_nodes_deleted_top_down :
    ¬ InDependencyOrder (computePlan (fun a b => decide (a ≤ b)) { prune := true, objects := [] }
      { objects := [managedNode "/acme", managedNode "/acme/team"] } {}) :=
  fun h => absurd h.order (by decide +kernel)

end Nexus
