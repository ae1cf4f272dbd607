import Nexus.Lib.OrderedMap

/-!
# JSON values addressed by paths

JSON values, the read of a nested property through plain records (`getNested`) and the three
operations of a `jsonb` column on a path: extraction (`jsonbGet`), assignment (`jsonbSet`) and
removal (`jsonbDelete`). An assignment replaces or inserts the last step of its path only and leaves
the value as it is when an earlier step is missing or is no container; `upsertPath` therefore
writes every parent first. On a value whose parents of the path are records or missing
(`Settable`), `upsertPath` is `setDeep`, the write read back by `getNested`, and paths that diverge
do not see each other's writes.
-/

set_option autoImplicit false

namespace Nexus

/-- JSON values. Object fields are kept in insertion order. -/
inductive Json where
  | null
  | bool (b : Bool)
  | num (n : Int)
  | str (s : String)
  | arr (xs : List Json)
  | obj (fields : List (String × Json))
  deriving Inhabited

namespace Json

/-- The empty record. -/
def empty : Json := .obj []

mutual

/-- Equality of `jsonb` values: the order of the fields of a record does not matter. -/
def sameValue : Json → Json → Bool
  | .null, .null => true
  | .bool b, .bool b' => b = b'
  | .num n, .num n' => n = n'
  | .str s, .str s' => s = s'
  | .arr xs, .arr ys => sameList xs ys
  | .obj fields, .obj fields' => fields.length = fields'.length && sameFields fields fields'
  | _, _ => false

def sameList : List Json → List Json → Bool
  | [], [] => true
  | x :: xs, y :: ys => sameValue x y && sameList xs ys
  | _, _ => false

def sameFields : List (String × Json) → List (String × Json) → Bool
  | [], _ => true
  | (k, v) :: fields, fields' =>
      (match OrderedMap.get? fields' k with
        | none => false
        | some v' => sameValue v v') && sameFields fields fields'

end

/-- Reads a property of a record; every other value has none. -/
def field? : Json → String → Option Json
  | .obj fields, k => OrderedMap.get? fields k
  | _, _ => none

/-- Reads a nested property; every step but the last has to yield a record. -/
def getNested : Json → List String → Option Json
  | t, [] => some t
  | .obj fields, k :: ks =>
      match OrderedMap.get? fields k with
      | none => none
      | some c => getNested c ks
  | _, _ :: _ => none

/-- The number a path step names in an array: an optional sign and decimal digits. -/
def arrayIndex? (k : String) : Option Int :=
  match k.toList with
  | '-' :: ds => (digits ds).map fun n => -(n : Int)
  | ds => (digits ds).map fun n => (n : Int)
where
  /-- The value of a nonempty list of decimal digits. -/
  digits : List Char → Option Nat
    | [] => none
    | ds => if ds.all Char.isDigit then
        some (ds.foldl (fun n d => 10 * n + (d.toNat - '0'.toNat)) 0) else none

/-- The position an index names in an array of `n` elements; negative ones count from the end. -/
def position? (n : Nat) (i : Int) : Option Nat :=
  let j := if i < 0 then (n : Int) + i else i
  if 0 ≤ j ∧ j < (n : Int) then some j.toNat else none

/-- Extraction at a path, the `#>` operator. -/
def jsonbGet : Json → List String → Option Json
  | t, [] => some t
  | .obj fields, k :: ks =>
      match OrderedMap.get? fields k with
      | none => none
      | some c => jsonbGet c ks
  | .arr xs, k :: ks =>
      match (arrayIndex? k).bind (position? xs.length) with
      | none => none
      | some i => jsonbGet (xs.getD i .null) ks
  | _, _ :: _ => none

/-- Assignment below the root of `jsonb_set`. An array step that is no integer is an error
(`none`). A new array element goes to the end, or to the front for a negative index. -/
def setPath : List String → Json → Json → Option Json
  | [], _, t => some t
  | [k], v, .obj fields => some (.obj (OrderedMap.set fields k v))
  | k :: k' :: ks, v, .obj fields =>
      match OrderedMap.get? fields k with
      | none => some (.obj fields)
      | some c => (setPath (k' :: ks) v c).map fun c' => .obj (OrderedMap.set fields k c')
  | [k], v, .arr xs =>
      match arrayIndex? k with
      | none => none
      | some i =>
          match position? xs.length i with
          | some j => some (.arr (xs.set j v))
          | none => some (.arr (if i < 0 then v :: xs else xs ++ [v]))
  | k :: k' :: ks, v, .arr xs =>
      match arrayIndex? k with
      | none => none
      | some i =>
          match position? xs.length i with
          | some j => (setPath (k' :: ks) v (xs.getD j .null)).map fun c' => .arr (xs.set j c')
          | none => some (.arr xs)
  | _ :: _, _, t => some t

/-- `jsonb_set(target, path, value, true)`; a scalar target is an error. -/
def jsonbSet (t : Json) (path : List String) (v : Json) : Option Json :=
  match t with
  | .obj _ => setPath path v t
  | .arr _ => setPath path v t
  | _ => if path = [] then some t else none

/-- Removal below the root of `#-`. -/
def deletePath : List String → Json → Option Json
  | [], t => some t
  | [k], .obj fields => some (.obj (OrderedMap.erase fields k))
  | k :: k' :: ks, .obj fields =>
      match OrderedMap.get? fields k with
      | none => some (.obj fields)
      | some c => (deletePath (k' :: ks) c).map fun c' => .obj (OrderedMap.set fields k c')
  | [k], .arr xs =>
      match arrayIndex? k with
      | none => none
      | some i =>
          match position? xs.length i with
          | some j => some (.arr (xs.eraseIdx j))
          | none => some (.arr xs)
  | k :: k' :: ks, .arr xs =>
      match arrayIndex? k with
      | none => none
      | some i =>
          match position? xs.length i with
          | some j => (deletePath (k' :: ks) (xs.getD j .null)).map fun c' => .arr (xs.set j c')
          | none => some (.arr xs)
  | _ :: _, t => some t

/-- `target #- path`; a scalar target is an error. -/
def jsonbDelete (t : Json) (path : List String) : Option Json :=
  match t with
  | .obj _ => deletePath path t
  | .arr _ => deletePath path t
  | _ => if path = [] then some t else none

/-- The proper nonempty prefixes of a path, shortest first. -/
def parents : List String → List (List String)
  | [] => []
  | [_] => []
  | k :: k' :: ks => [k] :: (parents (k' :: ks)).map (k :: ·)

/-- Makes sure that a parent is there: `jsonb_set(t, p, COALESCE(t #> p, '{}'), true)`. -/
def ensureParent (t : Json) (p : List String) : Option Json :=
  jsonbSet t p ((jsonbGet t p).getD empty)

/-- Writes every parent of the path, then the leaf. -/
def upsertPath (t : Json) (path : List String) (v : Json) : Option Json := do
  let t' ← (parents path).foldlM ensureParent t
  jsonbSet t' path v

/-! ## The write as a recursion on the path -/

/-- The write of a leaf that creates the missing parents on its way. -/
def setDeep : List String → Json → Json → Json
  | [], v, _ => v
  | k :: ks, v, .obj fields =>
      .obj (OrderedMap.set fields k (setDeep ks v ((OrderedMap.get? fields k).getD empty)))
  | _ :: _, _, t => t

/-- The removal of a leaf whose parents are records. -/
def eraseDeep : List String → Json → Json
  | [], t => t
  | [k], .obj fields => .obj (OrderedMap.erase fields k)
  | k :: k' :: ks, .obj fields =>
      match OrderedMap.get? fields k with
      | none => .obj fields
      | some c => .obj (OrderedMap.set fields k (eraseDeep (k' :: ks) c))
  | _ :: _, t => t

example : upsertPath (.obj []) ["a", "b"] .null =
    some (setDeep ["a", "b"] .null (.obj [])) := by
  simp [upsertPath, parents, ensureParent, jsonbGet, jsonbSet, setPath, setDeep, OrderedMap.get?,
    OrderedMap.set, empty]

example : jsonbDelete (.obj [("a", .null)]) ["a"] =
    some (eraseDeep ["a"] (.obj [("a", .null)])) := by
  simp [jsonbDelete, deletePath, eraseDeep]

/-- Every proper prefix of the path is a record or missing. -/
def Settable : List String → Json → Prop
  | [], _ => True
  | k :: ks, .obj fields => ∀ c, OrderedMap.get? fields k = some c → Settable ks c
  | _ :: _, _ => False

variable {ks path : List String} {t t' v : Json}

theorem Settable.obj (hne : path ≠ []) (h : Settable path t) : ∃ fields, t = .obj fields := by
  cases path with
  | nil => exact absurd rfl hne
  | cons k ks =>
      cases t with
      | obj fields => exact ⟨fields, rfl⟩
      | _ => exact h.elim

theorem settable_empty (path : List String) : Settable path empty := by
  cases path with
  | nil => exact trivial
  | cons k ks =>
      intro c hc
      simp at hc

/-- Prefixes of settable paths are settable. -/
theorem Settable.of_prefix : ∀ {p q : List String} {t : Json}, p <+: q → Settable q t →
    Settable p t
  | [], _, _, _, _ => trivial
  | k :: p, q, t, h, hs => by
      obtain ⟨r, rfl⟩ := h
      obtain ⟨fields, rfl⟩ := hs.obj (by simp)
      exact fun c hc => Settable.of_prefix ⟨r, rfl⟩ (hs c hc)

/-- Below records, extraction is the read of a nested property. -/
theorem jsonbGet_eq_getNested : ∀ (path : List String) (t : Json), Settable path t →
    jsonbGet t path = getNested t path
  | [], t, _ => by cases t <;> rfl
  | k :: ks, t, h => by
      obtain ⟨fields, rfl⟩ := h.obj (by simp)
      simp only [jsonbGet, getNested]
      cases hk : OrderedMap.get? fields k with
      | none => rfl
      | some c => exact jsonbGet_eq_getNested ks c (h c hk)

variable {k : String}

/-- What is stored at a step of a settable path, or the empty record, is settable below. -/
theorem Settable.child {fields : List (String × Json)} (h : Settable (k :: ks) (.obj fields)) :
    Settable ks ((OrderedMap.get? fields k).getD empty) := by
  cases hk : OrderedMap.get? fields k with
  | none => exact settable_empty ks
  | some c => exact h c hk

/-- One parent of a path below the first step, written inside the child. -/
theorem ensureParent_cons (fields : List (String × Json)) (k : String) (p : List String)
    (c : Json) (hp : p ≠ []) (hc : ∃ f, c = .obj f) :
    ensureParent (.obj (OrderedMap.set fields k c)) (k :: p) =
      (ensureParent c p).map fun c' => .obj (OrderedMap.set fields k c') := by
  obtain ⟨f, rfl⟩ := hc
  cases p with
  | nil => exact absurd rfl hp
  | cons k' ks =>
      simp only [ensureParent, jsonbSet, jsonbGet, setPath, OrderedMap.get?_set_self,
        OrderedMap.set_set_self]

theorem setPath_obj {fields : List (String × Json)} (h : setPath path v (.obj fields) = some t') :
    ∃ f, t' = .obj f := by
  match path with
  | [] =>
      simp only [setPath, Option.some.injEq] at h
      exact ⟨fields, h.symm⟩
  | [k] =>
      simp only [setPath, Option.some.injEq] at h
      exact ⟨_, h.symm⟩
  | k :: k' :: ks =>
      cases hk : OrderedMap.get? fields k with
      | none =>
          simp only [setPath, hk, Option.some.injEq] at h
          exact ⟨fields, h.symm⟩
      | some c =>
          simp only [setPath, hk, Option.map_eq_some_iff] at h
          obtain ⟨c', -, rfl⟩ := h
          exact ⟨_, rfl⟩

theorem ensureParents_cons (fields : List (String × Json)) (k : String) :
    ∀ (ps : List (List String)) (c : Json), (∀ p ∈ ps, p ≠ []) → (∃ f, c = .obj f) →
      (ps.map (k :: ·)).foldlM ensureParent (.obj (OrderedMap.set fields k c)) =
        (ps.foldlM ensureParent c).map fun c' => .obj (OrderedMap.set fields k c')
  | [], _, _, _ => rfl
  | p :: ps, c, hps, hc => by
      rw [List.map_cons, List.foldlM_cons, List.foldlM_cons,
        ensureParent_cons fields k p c (hps p (by simp)) hc]
      obtain ⟨f, rfl⟩ := hc
      cases he : ensureParent (.obj f) p with
      | none => rfl
      | some c' =>
          have hc' : ∃ f', c' = .obj f' := setPath_obj he
          exact ensureParents_cons fields k ps c' (fun q hq => hps q (by simp [hq])) hc'

theorem parents_ne_nil : ∀ (path p : List String), p ∈ parents path → p ≠ []
  | [], _, h => by simp [parents] at h
  | [_], _, h => by simp [parents] at h
  | k :: k' :: ks, p, h => by
      simp only [parents, List.mem_cons, List.mem_map] at h
      rcases h with rfl | ⟨q, -, rfl⟩ <;> simp

theorem isPrefix_of_mem_parents : ∀ (path p : List String), p ∈ parents path → p <+: path
  | [], _, h => by simp [parents] at h
  | [_], _, h => by simp [parents] at h
  | k :: k' :: ks, p, h => by
      simp only [parents, List.mem_cons, List.mem_map] at h
      rcases h with rfl | ⟨q, hq, rfl⟩
      · exact ⟨k' :: ks, rfl⟩
      · exact (List.prefix_cons_inj k).2 (isPrefix_of_mem_parents (k' :: ks) q hq)

theorem parents_subset (path p : List String) (h : p ∈ parents path) : p ⊆ path :=
  (isPrefix_of_mem_parents path p h).subset

/-- On a value whose parents of the path are records or missing, the chain of assignments is the
recursive write. -/
theorem upsertPath_eq_setDeep (v : Json) :
    ∀ (path : List String) (fields : List (String × Json)), path ≠ [] →
      Settable path (.obj fields) →
      upsertPath (.obj fields) path v = some (setDeep path v (.obj fields))
  | [], _, hne, _ => absurd rfl hne
  | [k], fields, _, _ => by
      simp [upsertPath, parents, jsonbSet, setPath, setDeep]
  | k :: k' :: ks, fields, _, hs => by
      have hchild := hs.child
      obtain ⟨f, hf⟩ := hchild.obj (by simp)
      rw [hf] at hchild
      have ih := upsertPath_eq_setDeep v (k' :: ks) f (by simp) hchild
      have hfirst : ensureParent (.obj fields) [k] =
          some (.obj (OrderedMap.set fields k (.obj f))) := by
        rw [← hf]
        simp only [ensureParent, jsonbSet, setPath, jsonbGet]
        cases OrderedMap.get? fields k <;> rfl
      simp only [upsertPath, parents, List.foldlM_cons, hfirst, Option.bind_eq_bind,
        Option.bind_some]
      rw [ensureParents_cons fields k _ _ (parents_ne_nil (k' :: ks)) ⟨f, rfl⟩]
      simp only [upsertPath, Option.bind_eq_bind] at ih
      cases hp : (parents (k' :: ks)).foldlM ensureParent (.obj f) with
      | none =>
          rw [hp] at ih
          simp at ih
      | some c =>
          rw [hp, Option.bind_some] at ih
          simp only [Option.map_some, Option.bind_some, jsonbSet, setPath,
            OrderedMap.get?_set_self, setDeep, hf, OrderedMap.set_set_self]
          cases c with
          | obj _ | arr _ =>
              simp only [jsonbSet] at ih
              rw [ih]
              rfl
          | _ => simp [jsonbSet] at ih

theorem jsonbDelete_eq_eraseDeep :
    ∀ (path : List String) (fields : List (String × Json)), Settable path (.obj fields) →
      deletePath path (.obj fields) = some (eraseDeep path (.obj fields))
  | [], _, _ => rfl
  | [_], _, _ => rfl
  | k :: k' :: ks, fields, hs => by
      cases hk : OrderedMap.get? fields k with
      | none => simp [deletePath, eraseDeep, hk]
      | some c =>
          have hc := hs c hk
          obtain ⟨f, rfl⟩ := hc.obj (by simp)
          simp [deletePath, eraseDeep, hk, jsonbDelete_eq_eraseDeep (k' :: ks) f hc]

/-! ## Reads after writes -/

/-- A settable write is read back. -/
theorem getNested_setDeep_self (v : Json) :
    ∀ (path : List String) (t : Json), Settable path t → getNested (setDeep path v t) path = some v
  | [], t, _ => by cases t <;> rfl
  | k :: ks, t, h => by
      obtain ⟨fields, rfl⟩ := h.obj (by simp)
      simp only [setDeep, getNested, OrderedMap.get?_set_self]
      exact getNested_setDeep_self v ks _ h.child

/-- Two paths diverge: neither is a prefix of the other. -/
def Diverge (p q : List String) : Prop := ¬ p <+: q ∧ ¬ q <+: p

theorem Diverge.tail {p q : List String} (h : Diverge (k :: p) (k :: q)) : Diverge p q :=
  ⟨fun hp => h.1 (List.prefix_cons_inj k |>.2 hp), fun hq => h.2 (List.prefix_cons_inj k |>.2 hq)⟩

theorem getNested_empty (h : path ≠ []) : getNested empty path = none := by
  cases path with
  | nil => exact absurd rfl h
  | cons k ks => rfl

/-- A write is not seen on a path that diverges from it. -/
theorem getNested_setDeep_of_diverge (v : Json) :
    ∀ (p q : List String) (t : Json), Diverge p q →
      getNested (setDeep p v t) q = getNested t q
  | [], q, _, h => absurd (List.nil_prefix) h.1
  | k :: p, [], _, h => absurd (List.nil_prefix) h.2
  | k :: p, k' :: q, t, h => by
      cases t with
      | obj fields =>
          by_cases hk : k = k'
          · subst hk
            have ht := h.tail
            have hq : q ≠ [] := by
              rintro rfl
              exact ht.2 List.nil_prefix
            simp only [setDeep, getNested, OrderedMap.get?_set_self]
            rw [getNested_setDeep_of_diverge v p q _ ht]
            cases OrderedMap.get? fields k with
            | none => exact getNested_empty hq
            | some c => rfl
          · simp only [setDeep, getNested, OrderedMap.get?_set_of_ne _ _ hk]
      | _ => rfl

/-- A settable write leaves a value at every prefix of its path. -/
theorem getNested_setDeep_prefix (v : Json) :
    ∀ (p q : List String) (t : Json), q <+: p → Settable p t →
      (getNested (setDeep p v t) q).isSome = true
  | _, [], _, _, _ => by simp [getNested]
  | [], _ :: _, _, h, _ => by simp at h
  | k :: p, k' :: q, t, h, hs => by
      obtain ⟨rfl, hpq⟩ := List.cons_prefix_cons.1 h
      obtain ⟨fields, rfl⟩ := hs.obj (by simp)
      simp only [setDeep, getNested, OrderedMap.get?_set_self]
      exact getNested_setDeep_prefix v p q _ hpq hs.child

/-- A write at the path itself, or at a path that diverges from it, keeps it settable. -/
theorem settable_setDeep (v : Json) :
    ∀ (p q : List String) (t : Json), p = q ∨ Diverge p q → Settable q t →
      Settable q (setDeep p v t)
  | [], q, t, h, hs => by
      rcases h with rfl | h
      · exact trivial
      · exact absurd (List.nil_prefix) h.1
  | k :: p, [], _, _, _ => trivial
  | k :: p, k' :: q, t, h, hs => by
      obtain ⟨fields, rfl⟩ := hs.obj (by simp)
      intro c hc
      by_cases hk : k = k'
      · subst hk
        rw [OrderedMap.get?_set_self, Option.some.injEq] at hc
        subst hc
        have h' : p = q ∨ Diverge p q := by
          rcases h with h | h
          · exact Or.inl (List.cons.inj h).2
          · exact Or.inr h.tail
        exact settable_setDeep v p q _ h' hs.child
      · rw [OrderedMap.get?_set_of_ne _ _ hk] at hc
        exact hs c hc

/-- A removal is not seen on a path that diverges from it. -/
theorem getNested_eraseDeep_of_diverge :
    ∀ (p q : List String) (t : Json), Diverge p q →
      getNested (eraseDeep p t) q = getNested t q
  | [], q, _, h => absurd (List.nil_prefix) h.1
  | k :: p, [], _, h => absurd (List.nil_prefix) h.2
  | [k], k' :: q, t, h => by
      cases t with
      | obj fields =>
          have hk : k ≠ k' := by
            rintro rfl
            exact h.1 ((List.prefix_cons_inj k).2 List.nil_prefix)
          simp only [eraseDeep, getNested, OrderedMap.get?_erase, if_neg hk]
      | _ => rfl
  | k :: k₂ :: p, k' :: q, t, h => by
      cases t with
      | obj fields =>
          cases hg : OrderedMap.get? fields k with
          | none => simp only [eraseDeep, hg]
          | some c =>
              simp only [eraseDeep, hg]
              by_cases hk : k = k'
              · subst hk
                simp only [getNested, OrderedMap.get?_set_self, hg]
                exact getNested_eraseDeep_of_diverge (k₂ :: p) q c h.tail
              · simp only [getNested, OrderedMap.get?_set_of_ne _ _ hk]
      | _ => rfl

/-- A removal keeps settable paths settable. -/
theorem settable_eraseDeep :
    ∀ (p q : List String) (t : Json), Settable q t → Settable q (eraseDeep p t)
  | [], _, _, hq => hq
  | _ :: _, [], _, _ => trivial
  | [k], k' :: q, t, hq => by
      obtain ⟨fields, rfl⟩ := hq.obj (by simp)
      intro c hc
      rw [OrderedMap.get?_erase] at hc
      by_cases hk : k = k'
      · simp [hk] at hc
      · rw [if_neg hk] at hc
        exact hq c hc
  | k :: k₂ :: p, k' :: q, t, hq => by
      obtain ⟨fields, rfl⟩ := hq.obj (by simp)
      cases hg : OrderedMap.get? fields k with
      | none => simpa only [eraseDeep, hg] using hq
      | some c =>
          simp only [eraseDeep, hg]
          intro c' hc'
          by_cases hk : k = k'
          · subst hk
            rw [OrderedMap.get?_set_self, Option.some.injEq] at hc'
            subst hc'
            exact settable_eraseDeep (k₂ :: p) q c (hq c hg)
          · rw [OrderedMap.get?_set_of_ne _ _ hk] at hc'
            exact hq c' hc'

/-- A removal below a record leaves a record. -/
theorem eraseDeep_obj (path : List String) (fields : List (String × Json)) :
    ∃ fields', eraseDeep path (.obj fields) = .obj fields' := by
  match path with
  | [] => exact ⟨fields, rfl⟩
  | [k] => exact ⟨_, rfl⟩
  | k :: k' :: ks =>
      cases hk : OrderedMap.get? fields k with
      | none => exact ⟨fields, by simp only [eraseDeep, hk]⟩
      | some c =>
          refine ⟨OrderedMap.set fields k (eraseDeep (k' :: ks) c), ?_⟩
          simp only [eraseDeep, hk]

/-! ## The other fields -/

theorem setPath_arr {xs : List Json} (h : setPath path v (.arr xs) = some t') :
    ∃ ys, t' = .arr ys := by
  match path with
  | [] => exact ⟨xs, (Option.some.inj h).symm⟩
  | [k] =>
      simp only [setPath] at h
      split at h
      · nomatch h
      · split at h
        · exact ⟨_, (Option.some.inj h).symm⟩
        · exact ⟨_, (Option.some.inj h).symm⟩
  | k :: k' :: ks =>
      simp only [setPath] at h
      split at h
      · nomatch h
      · split at h
        · obtain ⟨c', -, rfl⟩ := Option.map_eq_some_iff.1 h
          exact ⟨_, rfl⟩
        · exact ⟨_, (Option.some.inj h).symm⟩

/-- A write below one field leaves the others. -/
theorem field?_setPath (h : setPath (k :: ks) v t = some t') {key : String} (hne : key ≠ k) :
    t'.field? key = t.field? key := by
  cases t with
  | obj fields =>
      cases ks with
      | nil =>
          obtain rfl : obj (OrderedMap.set fields k v) = t' := by simpa [setPath] using h
          exact OrderedMap.get?_set_of_ne _ _ hne.symm
      | cons k' ks =>
          cases hk : OrderedMap.get? fields k with
          | none =>
              obtain rfl : obj fields = t' := by simpa [setPath, hk] using h
              rfl
          | some c =>
              simp only [setPath, hk, Option.map_eq_some_iff] at h
              obtain ⟨c', -, rfl⟩ := h
              exact OrderedMap.get?_set_of_ne _ _ hne.symm
  | arr xs =>
      obtain ⟨ys, rfl⟩ := setPath_arr h
      rfl
  | _ =>
      obtain rfl : _ = t' := by simpa [setPath] using h
      rfl

/-- `jsonb_set` leaves the fields its path does not start with. -/
theorem field?_jsonbSet (h : jsonbSet t (k :: ks) v = some t') {key : String} (hne : key ≠ k) :
    t'.field? key = t.field? key := by
  unfold jsonbSet at h
  split at h
  · exact field?_setPath h hne
  · exact field?_setPath h hne
  · simp at h

/-- The parents of a path start where the path does. -/
theorem head?_parents {p : List String} (hp : p ∈ parents (k :: ks)) : p.head? = some k := by
  cases ks with
  | nil => simp [parents] at hp
  | cons k' ks =>
      simp only [parents, List.mem_cons, List.mem_map] at hp
      rcases hp with rfl | ⟨q, -, rfl⟩ <;> rfl

end Json

/-! ## Texts of values -/

/-- The escape of a character in a JSON string. -/
def jsonEscape (c : Char) : String :=
  match c.toNat with
  | 0x08 => "\\b"
  | 0x09 => "\\t"
  | 0x0a => "\\n"
  | 0x0c => "\\f"
  | 0x0d => "\\r"
  | 0x22 => "\\\""
  | 0x5c => "\\\\"
  | n =>
      if n < 0x10 then "\\u000" ++ String.ofList (Nat.toDigits 16 n)
      else if n < 0x20 then "\\u00" ++ String.ofList (Nat.toDigits 16 n)
      else c.toString

def jsonQuote (s : String) : String :=
  "\"" ++ String.join (s.toList.map jsonEscape) ++ "\""

mutual

/-- `JSON.stringify`. -/
def jsonStringify : Json → String
  | .null => "null"
  | .bool b => if b then "true" else "false"
  | .num n => toString n
  | .str s => jsonQuote s
  | .arr xs => "[" ++ ",".intercalate (stringifyElements xs) ++ "]"
  | .obj fields => "\x7b" ++ ",".intercalate (stringifyFields fields) ++ "\x7d"

def stringifyElements : List Json → List String
  | [] => []
  | x :: xs => jsonStringify x :: stringifyElements xs

def stringifyFields : List (String × Json) → List String
  | [] => []
  | (k, x) :: fields => (jsonQuote k ++ ":" ++ jsonStringify x) :: stringifyFields fields

end

example : jsonStringify (.obj [("a", .arr [.num (-1), .null]), ("b", .str "x\ny")]) =
    "\x7b\"a\":[-1,null],\"b\":\"x\\ny\"\x7d" := by decide +kernel

end Nexus
