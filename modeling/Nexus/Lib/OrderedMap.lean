import Mathlib.Data.List.Basic

/-!
# Maps kept in insertion order

A map is the list of its entries in the order of their insertion. `set` overwrites the entry of a
key in place or appends a new one, as `Map.prototype.set` and assignment to an object property do.
The lemmas are the read-over-write equations and the membership of keys.
-/

set_option autoImplicit false

namespace Nexus

/-- A finite map as the list of its entries in insertion order. -/
abbrev OrderedMap (κ ν : Type) := List (κ × ν)

namespace OrderedMap

variable {κ ν : Type} [DecidableEq κ]

/-- The value of a key. -/
def get? : OrderedMap κ ν → κ → Option ν
  | [], _ => none
  | (k', v) :: m, k => if k' = k then some v else get? m k

/-- Overwrite the value of a key in place, or append the key. -/
def set : OrderedMap κ ν → κ → ν → OrderedMap κ ν
  | [], k, v => [(k, v)]
  | (k', v') :: m, k, v => if k' = k then (k', v) :: m else (k', v') :: set m k v

/-- Remove a key. -/
def erase : OrderedMap κ ν → κ → OrderedMap κ ν
  | [], _ => []
  | (k', v') :: m, k => if k' = k then erase m k else (k', v') :: erase m k

/-- The keys in insertion order. -/
def keys (m : OrderedMap κ ν) : List κ := m.map Prod.fst

@[simp] theorem get?_nil (k : κ) : get? ([] : OrderedMap κ ν) k = none := rfl

theorem get?_cons (k' k : κ) (v : ν) (m : OrderedMap κ ν) :
    get? ((k', v) :: m) k = if k' = k then some v else get? m k := rfl

@[simp] theorem get?_set_self (m : OrderedMap κ ν) (k : κ) (v : ν) :
    get? (set m k v) k = some v := by
  induction m with
  | nil => simp [set, get?]
  | cons e m ih =>
      rcases e with ⟨k', v'⟩
      by_cases h : k' = k
      · simp [set, get?, h]
      · simp [set, get?, h, ih]

example : get? (set (erase [("a", 1), ("b", 2)] "a") "b" 3) "b" = some 3 := by
  simp [erase, set, get?]

variable {k : κ}

theorem get?_set_of_ne (m : OrderedMap κ ν) {k₀ : κ} (v : ν) (hne : k ≠ k₀) :
    get? (set m k v) k₀ = get? m k₀ := by
  induction m with
  | nil => simp [set, get?, hne]
  | cons e m ih =>
      rcases e with ⟨k', v'⟩
      by_cases h : k' = k
      · subst h
        simp [set, get?, hne]
      · by_cases h₀ : k' = k₀
        · subst h₀
          simp [set, get?, h]
        · simp [set, get?, h, h₀, ih]

theorem get?_set (m : OrderedMap κ ν) (k k₀ : κ) (v : ν) :
    get? (set m k v) k₀ = if k = k₀ then some v else get? m k₀ := by
  by_cases h : k = k₀
  · subst h
    simp
  · rw [if_neg h, get?_set_of_ne m v h]

/-- The second of two writes to one key wins. -/
@[simp] theorem set_set_self (m : OrderedMap κ ν) (k : κ) (v w : ν) :
    set (set m k v) k w = set m k w := by
  induction m with
  | nil => simp [set]
  | cons e m ih =>
      rcases e with ⟨k', v'⟩
      by_cases h : k' = k
      · simp [set, h]
      · simp [set, h, ih]

theorem get?_erase (m : OrderedMap κ ν) (k k₀ : κ) :
    get? (erase m k) k₀ = if k = k₀ then none else get? m k₀ := by
  induction m with
  | nil => simp [erase]
  | cons e m ih =>
      rcases e with ⟨k', v'⟩
      by_cases h : k' = k
      · subst h
        rw [erase, if_pos rfl, ih]
        by_cases h₀ : k' = k₀
        · simp [h₀]
        · simp [get?, h₀]
      · by_cases h₀ : k' = k₀
        · subst h₀
          simp [erase, get?, h, Ne.symm h]
        · simp [erase, get?, h, h₀, ih]

/-- The values of a map are changed under their keys. -/
theorem get?_map {μ : Type} (f : κ × ν → μ) (m : OrderedMap κ ν) (k : κ) :
    get? (m.map fun e => (e.1, f e)) k = (get? m k).map fun v => f (k, v) := by
  induction m with
  | nil => rfl
  | cons e m ih =>
      rcases e with ⟨k', v'⟩
      by_cases h : k' = k
      · subst h
        simp [get?]
      · simp [get?, h, ih]

theorem get?_eq_none_iff (m : OrderedMap κ ν) (k : κ) : get? m k = none ↔ k ∉ keys m := by
  induction m with
  | nil => simp [keys]
  | cons e m ih =>
      rcases e with ⟨k', v'⟩
      by_cases h : k' = k
      · simp [get?, keys, h]
      · simp only [get?, h, if_false, ih, keys, List.map_cons, List.mem_cons, not_or]
        exact ⟨fun hm => ⟨Ne.symm h, hm⟩, fun hm => hm.2⟩

variable {m : OrderedMap κ ν} {v : ν}

/-- The entry of a key of a map whose keys are distinct. -/
theorem get?_of_mem (hm : (keys m).Nodup) (h : (k, v) ∈ m) : get? m k = some v := by
  induction m with
  | nil => simp at h
  | cons e m ih =>
      rcases e with ⟨k', v'⟩
      simp only [keys, List.map_cons, List.nodup_cons] at hm
      rcases List.mem_cons.1 h with heq | hmem
      · simp only [Prod.mk.injEq] at heq
        simp [get?, heq.1, heq.2]
      · have hne : k' ≠ k := by
          rintro rfl
          exact hm.1 (List.mem_map_of_mem (f := Prod.fst) hmem)
        simp only [get?, hne, if_false]
        exact ih hm.2 hmem

theorem mem_of_get? (h : get? m k = some v) : (k, v) ∈ m := by
  induction m with
  | nil => simp at h
  | cons e m ih =>
      rcases e with ⟨k', v'⟩
      by_cases hk : k' = k
      · simp only [get?, hk, if_true, Option.some.injEq] at h
        simp [hk, h]
      · simp only [get?, hk, if_false] at h
        exact List.mem_cons_of_mem _ (ih h)

/-- What is in a map after a write was in it before, or was written. -/
theorem mem_of_mem_set {e : κ × ν} (h : e ∈ set m k v) : e ∈ m ∨ e = (k, v) := by
  induction m with
  | nil => exact .inr (List.mem_singleton.1 h)
  | cons e' m ih =>
      obtain ⟨k', v'⟩ := e'
      rw [set] at h
      split at h
      · rename_i hk
        subst hk
        rcases List.mem_cons.1 h with he | he
        · exact .inr he
        · exact .inl (List.mem_cons_of_mem _ he)
      · rcases List.mem_cons.1 h with he | he
        · exact .inl (he ▸ List.mem_cons_self)
        · exact (ih he).imp_left (List.mem_cons_of_mem _)

theorem mem_of_mem_erase {e : κ × ν} (h : e ∈ erase m k) : e ∈ m ∧ e.1 ≠ k := by
  induction m with
  | nil => simp [erase] at h
  | cons e' m ih =>
      obtain ⟨k', v'⟩ := e'
      rw [erase] at h
      split at h
      · exact ⟨List.mem_cons_of_mem _ (ih h).1, (ih h).2⟩
      · rename_i hk
        rcases List.mem_cons.1 h with he | he
        · exact ⟨he ▸ List.mem_cons_self, he ▸ hk⟩
        · exact ⟨List.mem_cons_of_mem _ (ih he).1, (ih he).2⟩

/-- A filter on the keys keeps the values of the keys it keeps. -/
theorem get?_filter (p : κ → Bool) (m : OrderedMap κ ν) (hk : p k = true) :
    get? (m.filter fun e => p e.1) k = get? m k := by
  induction m with
  | nil => rfl
  | cons e m ih =>
      obtain ⟨k', v⟩ := e
      by_cases hsame : k' = k
      · subst hsame
        simp only [List.filter_cons, hk, if_true, get?_cons]
      · by_cases hp : p k' = true
        · simp only [List.filter_cons, hp, if_true, get?_cons, if_neg hsame, ih]
        · rw [Bool.not_eq_true] at hp
          simp only [List.filter_cons, hp, Bool.false_eq_true, if_false, get?_cons, if_neg hsame, ih]

/-- Writing a new key appends it. -/
theorem set_of_notMem (v : ν) (h : k ∉ keys m) : set m k v = m ++ [(k, v)] := by
  induction m with
  | nil => rfl
  | cons e m ih =>
      rcases e with ⟨k', v'⟩
      simp only [keys, List.map_cons, List.mem_cons, not_or] at h
      have hne : k' ≠ k := fun he => h.1 he.symm
      rw [set, if_neg hne, ih h.2, List.cons_append]

/-- The write of a key at its place. -/
theorem set_append_cons {r : OrderedMap κ ν} (v v' : ν) (h : k ∉ keys m) :
    set (m ++ (k, v') :: r) k v = m ++ (k, v) :: r := by
  induction m with
  | nil => simp [set]
  | cons e m ih =>
      rcases e with ⟨k', w⟩
      simp only [keys, List.map_cons, List.mem_cons, not_or] at h
      have hne : k' ≠ k := fun he => h.1 he.symm
      rw [List.cons_append, set, if_neg hne, ih h.2, List.cons_append]

/-- Writing the keys of a list one after the other into the empty map. -/
theorem foldl_set_nil {β : Type} (key : β → κ) (val : β → ν) (l : List β)
    (hl : (l.map key).Nodup) :
    l.foldl (fun m e => set m (key e) (val e)) [] = l.map fun e => (key e, val e) := by
  have hgen : ∀ (l : List β) (m : OrderedMap κ ν), (keys m ++ l.map key).Nodup →
      l.foldl (fun m e => set m (key e) (val e)) m = m ++ l.map fun e => (key e, val e) := by
    intro l
    induction l with
    | nil => simp
    | cons e l ih =>
        intro m hm
        have hnotMem : key e ∉ keys m := by
          intro hmem
          rw [List.nodup_append] at hm
          exact hm.2.2 _ hmem _ (by simp) rfl
        rw [List.foldl_cons, set_of_notMem _ hnotMem, ih]
        · simp
        · simpa [keys] using hm
  simpa using hgen l [] (by simpa [keys] using hl)

/-- Overwriting the keys of a list one after the other in a map of exactly these keys. -/
theorem foldl_set_map {β : Type} (key : β → κ) (val val' : β → ν) (l : List β)
    (hl : (l.map key).Nodup) :
    l.foldl (fun m e => set m (key e) (val e)) (l.map fun e => (key e, val' e)) =
      l.map fun e => (key e, val e) := by
  have hgen : ∀ (l : List β) (m : OrderedMap κ ν), (keys m ++ l.map key).Nodup →
      l.foldl (fun m e => set m (key e) (val e)) (m ++ l.map fun e => (key e, val' e)) =
        m ++ l.map fun e => (key e, val e) := by
    intro l
    induction l with
    | nil => simp
    | cons e l ih =>
        intro m hm
        have hnotMem : key e ∉ keys m := by
          intro hmem
          rw [List.nodup_append] at hm
          exact hm.2.2 _ hmem _ (by simp) rfl
        rw [List.foldl_cons, List.map_cons, set_append_cons _ _ hnotMem,
          List.append_cons m, ih]
        · simp
        · simpa [keys] using hm
  simpa using hgen l [] (by simpa [keys] using hl)

/-- Writing a key that is there keeps the keys. -/
theorem keys_set_of_mem (v : ν) (h : k ∈ keys m) : keys (set m k v) = keys m := by
  induction m with
  | nil => simp [keys] at h
  | cons e m ih =>
      rcases e with ⟨k', v'⟩
      by_cases hk : k' = k
      · simp [set, hk, keys]
      · simp only [keys, List.map_cons, List.mem_cons] at h
        have hmem : k ∈ keys m := h.resolve_left fun he => hk he.symm
        have hrec := ih hmem
        simp only [keys] at hrec
        simp [set, hk, keys, hrec]

/-- Writing a key keeps the keys distinct. -/
theorem nodup_keys_set (h : (keys m).Nodup) (k : κ) (v : ν) : (keys (set m k v)).Nodup := by
  by_cases hk : k ∈ keys m
  · rw [keys_set_of_mem v hk]
    exact h
  · rw [set_of_notMem v hk, keys, List.map_append]
    refine List.nodup_append.2 ⟨h, by simp, ?_⟩
    intro k' hk' k'' hk'' heq
    rw [List.map_singleton, List.mem_singleton] at hk''
    subst heq hk''
    exact hk hk'

end OrderedMap

end Nexus
