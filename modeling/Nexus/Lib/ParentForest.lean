import Mathlib.Data.List.Nodup
import Mathlib.Data.List.Perm.Subperm
import Mathlib.Data.Set.Insert
import Mathlib.Logic.Function.Basic

/-!
# Forests given by a parent function

Every node has at most one parent. `ParentPath parent a d n` says that the chain of `n` parents above
`d` ends at `a`; `climb` computes it. A relation is the closure of the parent function on a set of
nodes when it lists every chain with its length (`IsClosure`). The file says how the closure changes
when a node moves below another one that it is no ancestor of (`IsClosure.reparent`) and when a new
node is attached (`IsClosure.attach`), and that acyclicity and the root survive both.
-/

set_option autoImplicit false

namespace Nexus

variable {α : Type}

/-- The chain of `n` parents above `d` ends at `a`. -/
inductive ParentPath (parent : α → Option α) : α → α → Nat → Prop where
  | refl (d : α) : ParentPath parent d d 0
  | up {a q d : α} {n : Nat} : parent d = some q → ParentPath parent a q n →
      ParentPath parent a d (n + 1)

namespace Forest

/-- The node `n` steps above `d`. -/
def climb (parent : α → Option α) : Nat → α → Option α
  | 0, d => some d
  | n + 1, d => (parent d).bind (climb parent n)

/-- No node is above itself. -/
def Acyclic (parent : α → Option α) : Prop := ∀ d n, climb parent (n + 1) d ≠ some d

/-- The relation lists every chain of parents above a node of the set, with its length. -/
def IsClosure (parent : α → Option α) (nodes : Set α) (T : α → α → Nat → Prop) : Prop :=
  ∀ a d n, T a d n ↔ d ∈ nodes ∧ climb parent n d = some a

/-- Every node of the set is below the root. -/
def Rooted (parent : α → Option α) (nodes : Set α) (root : α) : Prop :=
  ∀ d ∈ nodes, ∃ n, climb parent n d = some root

section Climb

variable {parent : α → Option α} {a b d q : α} {m n : Nat}

@[simp] theorem climb_zero : climb parent 0 d = some d := rfl

theorem climb_succ_of_none (h : parent d = none) : climb parent (n + 1) d = none := by
  rw [climb, h, Option.bind_none]

theorem climb_succ_of_some (h : parent d = some q) :
    climb parent (n + 1) d = climb parent n q := by
  rw [climb, h, Option.bind_some]

theorem climb_add : climb parent (m + n) d = (climb parent m d).bind (climb parent n) := by
  induction m generalizing d with
  | zero => simp
  | succ m ih =>
      rw [Nat.add_right_comm]
      cases hparent : parent d with
      | none => rw [climb_succ_of_none hparent, climb_succ_of_none hparent, Option.bind_none]
      | some q => rw [climb_succ_of_some hparent, climb_succ_of_some hparent, ih]

theorem climb_trans (h : climb parent m d = some b) :
    climb parent (m + n) d = climb parent n b := by
  rw [climb_add, h, Option.bind_some]

theorem parentPath_iff : ParentPath parent a d n ↔ climb parent n d = some a := by
  constructor
  · intro h
    induction h with
    | refl => rfl
    | up hparent _ ih => rw [climb_succ_of_some hparent, ih]
  · intro h
    induction n generalizing d with
    | zero =>
        obtain rfl := Option.some.inj h
        exact .refl d
    | succ n ih =>
        cases hparent : parent d with
        | none =>
            rw [climb_succ_of_none hparent] at h
            exact absurd h (by simp)
        | some q =>
            rw [climb_succ_of_some hparent] at h
            exact .up hparent (ih h)

/-- Without cycles a node is above another one at one distance only. -/
theorem Acyclic.depth_unique (hacyclic : Acyclic parent) (hm : climb parent m d = some a)
    (hn : climb parent n d = some a) : m = n := by
  have hlt : ∀ {m n : Nat}, climb parent m d = some a → climb parent n d = some a → ¬ m < n := by
    intro m n hm hn hmn
    obtain ⟨k, rfl⟩ := Nat.exists_eq_add_of_lt hmn
    rw [Nat.add_assoc, climb_trans hm] at hn
    exact hacyclic a k hn
  have h₁ := hlt hm hn
  have h₂ := hlt hn hm
  omega

/-- Without cycles a chain within a list of nodes is shorter than the list. -/
theorem Acyclic.length_lt {nodes : List α} (hacyclic : Acyclic parent)
    (h : ∀ j, j ≤ n → ∃ b ∈ nodes, climb parent j d = some b) : n < nodes.length := by
  have hnodup : ((List.range (n + 1)).map fun j => climb parent j d).Nodup := by
    refine List.Nodup.map_on (fun i hi j hj hij => ?_) List.nodup_range
    obtain ⟨b, -, hb⟩ := h j (Nat.le_of_lt_succ (List.mem_range.mp hj))
    exact hacyclic.depth_unique (hij.trans hb) hb
  have hsubset : ((List.range (n + 1)).map fun j => climb parent j d) ⊆ nodes.map some := by
    intro x hx
    obtain ⟨j, hj, rfl⟩ := List.mem_map.mp hx
    obtain ⟨b, hmem, hb⟩ := h j (Nat.le_of_lt_succ (List.mem_range.mp hj))
    exact List.mem_map.mpr ⟨b, hmem, hb.symm⟩
  have hlength := (hnodup.subperm hsubset).length_le
  rw [List.length_map, List.length_map, List.length_range] at hlength
  exact hlength

/-- A rank that grows towards the parents grows by the length of a chain at least. -/
theorem climb_rank {rank : α → Nat} (hrank : ∀ d q, parent d = some q → rank d < rank q)
    (h : climb parent n d = some a) : rank d + n ≤ rank a := by
  induction n generalizing d with
  | zero =>
      obtain rfl := Option.some.inj h
      exact Nat.le_refl _
  | succ n ih =>
      cases hparent : parent d with
      | none =>
          rw [climb_succ_of_none hparent] at h
          exact absurd h (by simp)
      | some q =>
          rw [climb_succ_of_some hparent] at h
          have hstep := hrank d q hparent
          have hrest := ih h
          omega

theorem acyclic_of_rank {rank : α → Nat} (hrank : ∀ d q, parent d = some q → rank d < rank q) :
    Acyclic parent := by
  intro d n hcycle
  have hgrows := climb_rank hrank hcycle
  omega

/-- Of two nodes above a third one, one is above the other. -/
theorem climb_comparable (hm : climb parent m d = some a) (hn : climb parent n d = some b) :
    (m ≤ n ∧ climb parent (n - m) a = some b) ∨ (n < m ∧ climb parent (m - n) b = some a) := by
  rcases Nat.lt_or_ge n m with hlt | hle
  · refine .inr ⟨hlt, ?_⟩
    obtain ⟨k, rfl⟩ := Nat.exists_eq_add_of_le hlt.le
    rw [climb_trans hn] at hm
    rwa [Nat.add_sub_cancel_left]
  · refine .inl ⟨hle, ?_⟩
    obtain ⟨k, rfl⟩ := Nat.exists_eq_add_of_le hle
    rw [climb_trans hm] at hn
    rwa [Nat.add_sub_cancel_left]

end Climb

/-! ## Another parent for one node -/

section Reparent

variable [DecidableEq α] {parent : α → Option α} {v q d : α} {j n : Nat}

/-- `v` gets the parent `q`. -/
def reparent (parent : α → Option α) (v q : α) : α → Option α :=
  Function.update parent v (some q)

/-- Chains that do not pass through the node stay. -/
theorem climb_reparent_of_not_below (hd : ∀ j, climb parent j d ≠ some v) :
    climb (reparent parent v q) n d = climb parent n d := by
  induction n generalizing d with
  | zero => rfl
  | succ n ih =>
      have hne : d ≠ v := fun h => hd 0 (h ▸ rfl)
      have hsame : reparent parent v q d = parent d := Function.update_of_ne hne _ _
      cases hparent : parent d with
      | none => rw [climb_succ_of_none hparent, climb_succ_of_none (hsame.trans hparent)]
      | some e =>
          rw [climb_succ_of_some hparent, climb_succ_of_some (hsame.trans hparent)]
          apply ih
          intro j hj
          exact hd (j + 1) ((climb_succ_of_some hparent).trans hj)

/-- Chains through the node stay below it, and go on above its new parent. -/
theorem climb_reparent_of_below (hacyclic : Acyclic parent)
    (hq : ∀ j, climb parent j q ≠ some v) (hd : climb parent j d = some v) :
    climb (reparent parent v q) n d =
      if n ≤ j then climb parent n d else climb parent (n - j - 1) q := by
  induction j generalizing d n with
  | zero =>
      obtain rfl := Option.some.inj hd
      cases n with
      | zero => rfl
      | succ n =>
          have hmoved : reparent parent d q d = some q := Function.update_self _ _ _
          rw [climb_succ_of_some hmoved, climb_reparent_of_not_below hq, if_neg (by omega)]
          rfl
  | succ j ih =>
      have hne : d ≠ v := by
        rintro rfl
        exact hacyclic d j hd
      have hsame : reparent parent v q d = parent d := Function.update_of_ne hne _ _
      cases hparent : parent d with
      | none =>
          rw [climb_succ_of_none hparent] at hd
          exact absurd hd (by simp)
      | some e =>
          rw [climb_succ_of_some hparent] at hd
          cases n with
          | zero => rfl
          | succ n =>
              rw [climb_succ_of_some (hsame.trans hparent), ih hd, climb_succ_of_some hparent]
              simp only [Nat.add_le_add_iff_right, Nat.add_sub_add_right]

/-- A move below a node that is not in the subtree keeps the forest acyclic. -/
theorem Acyclic.reparent (hacyclic : Acyclic parent) (hq : ∀ j, climb parent j q ≠ some v) :
    Acyclic (reparent parent v q) := by
  intro d n hcycle
  by_cases hd : ∃ j, climb parent j d = some v
  · obtain ⟨j, hj⟩ := hd
    rw [climb_reparent_of_below hacyclic hq hj] at hcycle
    by_cases hle : n + 1 ≤ j
    · rw [if_pos hle] at hcycle
      exact hacyclic d n hcycle
    · -- the chain has passed through the new parent, which is then in the subtree
      rw [if_neg hle] at hcycle
      exact hq (n + 1 - j - 1 + j) ((climb_trans hcycle).trans hj)
  · rw [climb_reparent_of_not_below (not_exists.1 hd)] at hcycle
    exact hacyclic d n hcycle

variable {nodes : Set α}

/-- A move keeps every node below the root. -/
theorem Rooted.reparent {root : α} (hrooted : Rooted parent nodes root)
    (hacyclic : Acyclic parent) (hq : ∀ j, climb parent j q ≠ some v) (hmem : q ∈ nodes) :
    Rooted (reparent parent v q) nodes root := by
  intro d hd
  by_cases hbelow : ∃ j, climb parent j d = some v
  · obtain ⟨j, hj⟩ := hbelow
    obtain ⟨i, hi⟩ := hrooted q hmem
    refine ⟨j + 1 + i, ?_⟩
    rw [climb_reparent_of_below hacyclic hq hj, if_neg (by omega)]
    rwa [show j + 1 + i - j - 1 = i by omega]
  · obtain ⟨n, hn⟩ := hrooted d hd
    exact ⟨n, (climb_reparent_of_not_below (not_exists.1 hbelow)).trans hn⟩

/-- **The closure after a move.** The chains from the subtree to what was above the node go away,
and every chain above the new parent is continued by every chain below the node. -/
theorem IsClosure.reparent {T : α → α → Nat → Prop} (h : IsClosure parent nodes T)
    (hacyclic : Acyclic parent) (hq : ∀ j, climb parent j q ≠ some v) (hnode : v ∈ nodes)
    (hmem : q ∈ nodes) :
    IsClosure (reparent parent v q) nodes fun a d n =>
      (T a d n ∧ ¬ ((∃ j, T v d j) ∧ ∃ i, T a v i ∧ a ≠ v)) ∨
        ∃ i j, T a q i ∧ T v d j ∧ n = i + j + 1 := by
  intro a d n
  by_cases hbelow : ∃ j, climb parent j d = some v
  · obtain ⟨j, hj⟩ := hbelow
    rw [climb_reparent_of_below hacyclic hq hj]
    constructor
    · rintro (⟨hchain, hkept⟩ | ⟨i, j', habove, hsub, rfl⟩)
      · obtain ⟨hd, ha⟩ := (h a d n).1 hchain
        refine ⟨hd, ?_⟩
        rcases climb_comparable ha hj with ⟨hle, -⟩ | ⟨hlt, hva⟩
        · rwa [if_pos hle]
        · -- the chain goes on above the node, so it is one of those that go away
          refine absurd ⟨⟨j, (h v d j).2 ⟨hd, hj⟩⟩, n - j, (h a v _).2 ⟨hnode, hva⟩, ?_⟩ hkept
          rintro rfl
          have hzero := hacyclic.depth_unique hva climb_zero
          omega
      · obtain ⟨hd, hj'⟩ := (h v d j').1 hsub
        obtain ⟨-, hi⟩ := (h a q i).1 habove
        obtain rfl := hacyclic.depth_unique hj hj'
        refine ⟨hd, ?_⟩
        rw [if_neg (by omega), show i + j + 1 - j - 1 = i by omega]
        exact hi
    · rintro ⟨hd, ha⟩
      by_cases hle : n ≤ j
      · rw [if_pos hle] at ha
        refine .inl ⟨(h a d n).2 ⟨hd, ha⟩, ?_⟩
        rintro ⟨-, i, habove, hne⟩
        -- the end of the chain is in the subtree, so it is not above the node
        obtain ⟨-, hi⟩ := (h a v i).1 habove
        rcases climb_comparable ha hj with ⟨-, hav⟩ | ⟨hlt, -⟩
        · have hcycle := hacyclic.depth_unique ((climb_trans hi).trans hav) climb_zero
          obtain rfl : i = 0 := by omega
          exact hne (Option.some.inj hi).symm
        · omega
      · rw [if_neg hle] at ha
        exact .inr ⟨n - j - 1, j, (h a q _).2 ⟨hmem, ha⟩, (h v d j).2 ⟨hd, hj⟩, by omega⟩
  · have hnot : ∀ j, ¬ T v d j := fun j hj => hbelow ⟨j, ((h v d j).1 hj).2⟩
    rw [climb_reparent_of_not_below (not_exists.1 hbelow), ← h a d n]
    constructor
    · rintro (⟨hchain, -⟩ | ⟨-, j, -, hsub, -⟩)
      · exact hchain
      · exact absurd hsub (hnot j)
    · exact fun hchain => .inl ⟨hchain, fun hcut => hcut.1.elim hnot⟩

/-- **The closure after attaching a node** that is new. -/
theorem IsClosure.attach {T : α → α → Nat → Prop} (h : IsClosure parent nodes T)
    (hnew : v ∉ nodes) (hclosed : ∀ d ∈ nodes, ∀ n a, climb parent n d = some a → a ∈ nodes)
    (hmem : q ∈ nodes) :
    IsClosure (Forest.reparent parent v q) (insert v nodes) fun a d n =>
      T a d n ∨ (d = v ∧ ∃ i, T a q i ∧ n = i + 1) ∨ (a = v ∧ d = v ∧ n = 0) := by
  have hold : ∀ d ∈ nodes, ∀ n, climb (Forest.reparent parent v q) n d = climb parent n d :=
    fun d hd n => climb_reparent_of_not_below fun j hj => hnew (hclosed d hd j v hj)
  intro a d n
  by_cases hd : d = v
  · subst hd
    have hmoved : Forest.reparent parent d q d = some q := Function.update_self _ _ _
    have hnot : ¬ T a d n := fun hchain => hnew ((h a d n).1 hchain).1
    cases n with
    | zero => simp [hnot, eq_comm]
    | succ n =>
        rw [climb_succ_of_some hmoved, hold q hmem]
        constructor
        · rintro (hchain | ⟨-, i, habove, hi⟩ | ⟨-, -, hzero⟩)
          · exact absurd hchain hnot
          · obtain rfl : n = i := by omega
            exact ⟨Set.mem_insert d nodes, ((h a q n).1 habove).2⟩
          · omega
        · rintro ⟨-, ha⟩
          exact .inr (.inl ⟨rfl, n, (h a q n).2 ⟨hmem, ha⟩, rfl⟩)
  · constructor
    · rintro (hchain | ⟨heq, -⟩ | ⟨-, heq, -⟩)
      · obtain ⟨hmemd, ha⟩ := (h a d n).1 hchain
        exact ⟨Set.mem_insert_of_mem v hmemd, (hold d hmemd n).trans ha⟩
      · exact absurd heq hd
      · exact absurd heq hd
    · rintro ⟨hmemd, ha⟩
      have hmemd' := Set.mem_of_mem_insert_of_ne hmemd hd
      exact .inl ((h a d n).2 ⟨hmemd', (hold d hmemd' n).symm.trans ha⟩)

/-- Attaching a new node keeps every node below the root. -/
theorem Rooted.attach {root : α} (hrooted : Rooted parent nodes root) (hnew : v ∉ nodes)
    (hclosed : ∀ d ∈ nodes, ∀ n a, climb parent n d = some a → a ∈ nodes) (hmem : q ∈ nodes) :
    Rooted (Forest.reparent parent v q) (insert v nodes) root := by
  have hold : ∀ d ∈ nodes, ∀ n, climb (Forest.reparent parent v q) n d = climb parent n d :=
    fun d hd n => climb_reparent_of_not_below fun j hj => hnew (hclosed d hd j v hj)
  intro d hd
  by_cases hdv : d = v
  · subst hdv
    obtain ⟨n, hn⟩ := hrooted q hmem
    refine ⟨n + 1, ?_⟩
    have hmoved : Forest.reparent parent d q d = some q := Function.update_self _ _ _
    rw [climb_succ_of_some hmoved, hold q hmem, hn]
  · have hd' := Set.mem_of_mem_insert_of_ne hd hdv
    obtain ⟨n, hn⟩ := hrooted d hd'
    exact ⟨n, (hold d hd' n).trans hn⟩

end Reparent

end Forest

end Nexus
