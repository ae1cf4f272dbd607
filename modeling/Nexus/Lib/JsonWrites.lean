import Nexus.Lib.Json

/-!
# Assignments below values that are no records

An assignment at a path leaves every value on the way to it that is no record one that is no record.
Such a path reads nothing, before and after: the value assigned is read back just when every value
on the way is a record or missing (`getNested_upsertPath_iff`).
-/

set_option autoImplicit false

namespace Nexus

namespace Json

theorem getNested_append (p q : List String) (t : Json) :
    getNested t (p ++ q) = (getNested t p).bind fun c => getNested c q := by
  induction p generalizing t with
  | nil => simp [getNested]
  | cons k p ih =>
      cases t with
      | obj fields =>
          simp only [List.cons_append, getNested]
          cases OrderedMap.get? fields k with
          | none => rfl
          | some c => exact ih c
      | _ => rfl

/-- Below a record, what keeps a path from being settable is below its first step. -/
theorem not_settable_obj {k : String} {ks : List String} {fields : List (String × Json)}
    (h : ¬ Settable (k :: ks) (.obj fields)) :
    ∃ c, OrderedMap.get? fields k = some c ∧ ¬ Settable ks c := by
  simp only [Settable, not_forall] at h
  obtain ⟨c, hc, hns⟩ := h
  exact ⟨c, hc, hns⟩

theorem getNested_eq_none_of_not_settable :
    ∀ (path : List String) (t : Json), ¬ Settable path t → getNested t path = none
  | [], _, h => absurd trivial h
  | k :: ks, t, h => by
      cases t with
      | obj fields =>
          obtain ⟨c, hc, hns⟩ := not_settable_obj h
          simp only [getNested, hc]
          exact getNested_eq_none_of_not_settable ks c hns
      | _ => rfl

theorem not_settable_arr (k : String) (ks : List String) (xs : List Json) :
    ¬ Settable (k :: ks) (.arr xs) := fun h => h.elim

variable {path : List String} {t t' v : Json}

theorem setPath_scalar (hobj : ∀ fields, t ≠ .obj fields) (harr : ∀ xs, t ≠ .arr xs)
    (h : setPath path v t = some t') : t' = t := by
  cases path with
  | nil => exact (Option.some.inj h).symm
  | cons k ks =>
      cases t with
      | obj fields => exact absurd rfl (hobj fields)
      | arr xs => exact absurd rfl (harr xs)
      | _ => simpa [setPath, eq_comm] using h

/-- Assigning at a prefix of a path what is there, or at the path, keeps it from being settable. -/
theorem not_settable_setPath (v : Json) :
    ∀ (p path : List String) (t t' : Json), p ≠ [] → p <+: path →
      p = path ∨ v = (jsonbGet t p).getD empty → setPath p v t = some t' →
      ¬ Settable path t → ¬ Settable path t'
  | [], _, _, _, hp, _, _, _, _ => absurd rfl hp
  | k :: p, [], _, _, _, hpre, _, _, _ => by simp at hpre
  | k :: p, k' :: path, .arr xs, t', _, _, _, h, _ => by
      obtain ⟨ys, rfl⟩ := setPath_arr h
      exact not_settable_arr k' path ys
  | [k], k' :: path, .obj fields, t', _, hpre, hv, h, hns => by
      obtain ⟨rfl, -⟩ := List.cons_prefix_cons.1 hpre
      obtain ⟨c, hc, hnc⟩ := not_settable_obj hns
      obtain rfl : obj (OrderedMap.set fields k v) = t' := Option.some.inj h
      rcases hv with hv | hv
      · obtain rfl : [] = path := (List.cons.inj hv).2
        exact absurd trivial hnc
      · have hvc : v = c := by simp [hv, jsonbGet, hc]
        intro hs
        exact hnc (hs c (by rw [hvc, OrderedMap.get?_set_self]))
  | k :: k₂ :: p, k' :: path, .obj fields, t', _, hpre, hv, h, hns => by
      obtain ⟨rfl, hpre'⟩ := List.cons_prefix_cons.1 hpre
      obtain ⟨c, hc, hnc⟩ := not_settable_obj hns
      simp only [setPath, hc, Option.map_eq_some_iff] at h
      obtain ⟨c', hc', rfl⟩ := h
      have hv' : k₂ :: p = path ∨ v = (jsonbGet c (k₂ :: p)).getD empty := by
        rcases hv with hv | hv
        · exact Or.inl (List.cons.inj hv).2
        · right
          rw [hv, jsonbGet, hc]
      have hrest := not_settable_setPath v (k₂ :: p) path c c' (by simp) hpre' hv' hc' hnc
      intro hs
      exact hrest (hs c' (OrderedMap.get?_set_self _ _ _))
  | _ :: _, _ :: _, .null, _, _, _, _, h, hns => setPath_scalar (by simp) (by simp) h ▸ hns
  | _ :: _, _ :: _, .bool _, _, _, _, _, h, hns => setPath_scalar (by simp) (by simp) h ▸ hns
  | _ :: _, _ :: _, .num _, _, _, _, _, h, hns => setPath_scalar (by simp) (by simp) h ▸ hns
  | _ :: _, _ :: _, .str _, _, _, _, _, h, hns => setPath_scalar (by simp) (by simp) h ▸ hns

theorem not_settable_jsonbSet {p : List String} (hp : p ≠ []) (hpre : p <+: path)
    (hv : p = path ∨ v = (jsonbGet t p).getD empty) (h : jsonbSet t p v = some t')
    (hns : ¬ Settable path t) : ¬ Settable path t' := by
  unfold jsonbSet at h
  split at h
  · exact not_settable_setPath v p path _ t' hp hpre hv h hns
  · exact not_settable_setPath v p path _ t' hp hpre hv h hns
  · rw [if_neg hp] at h
    nomatch h

/-- A path that is not settable is none after a write of it. -/
theorem not_settable_upsertPath (hne : path ≠ []) (h : upsertPath t path v = some t')
    (hns : ¬ Settable path t) : ¬ Settable path t' := by
  have hparents : ∀ (ps : List (List String)) {u u' : Json},
      (∀ p ∈ ps, p ≠ [] ∧ p <+: path) → ps.foldlM ensureParent u = some u' →
      ¬ Settable path u → ¬ Settable path u' := by
    intro ps
    induction ps with
    | nil =>
        intro u u' _ hu hnot
        obtain rfl : u = u' := Option.some.inj hu
        exact hnot
    | cons p ps ih =>
        intro u u' hps hu hnot
        rw [List.foldlM_cons] at hu
        obtain ⟨u₁, hu₁, hu⟩ := Option.bind_eq_some_iff.1 hu
        have hp := hps p List.mem_cons_self
        exact ih (fun q hq => hps q (List.mem_cons_of_mem _ hq)) hu
          (not_settable_jsonbSet hp.1 hp.2 (Or.inr rfl) hu₁ hnot)
  simp only [upsertPath, Option.bind_eq_bind, Option.bind_eq_some_iff] at h
  obtain ⟨t₁, ht₁, h⟩ := h
  apply not_settable_jsonbSet hne (List.prefix_refl path) (Or.inl rfl) h
  apply hparents _ _ ht₁ hns
  intro p hp
  exact ⟨parents_ne_nil path p hp, isPrefix_of_mem_parents path p hp⟩

/-- Below a settable path, every value on the way is a record. -/
theorem Settable.getNested_obj {p : List String} {k : String} {c : Json}
    (h : Settable (p ++ [k]) t) (hread : getNested t p = some c) : ∃ fields, c = .obj fields := by
  induction p generalizing t with
  | nil =>
      obtain rfl := Option.some.inj ((getNested.eq_1 t).symm.trans hread)
      exact h.obj (by simp)
  | cons k' p ih =>
      obtain ⟨fields, rfl⟩ := h.obj (by simp)
      cases hc : OrderedMap.get? fields k' with
      | none => simp [getNested, hc] at hread
      | some c' =>
          simp only [getNested, hc] at hread
          exact ih (h c' hc) hread

/-- A path that yields a value after its write was settable, and yields the value written. -/
theorem eq_of_getNested_upsertPath (hne : path ≠ []) {x : Json}
    (h : upsertPath t path v = some t') (hread : getNested t' path = some x) :
    Settable path t ∧ x = v := by
  have hs : Settable path t := by
    by_contra hns
    rw [getNested_eq_none_of_not_settable path t' (not_settable_upsertPath hne h hns)] at hread
    nomatch hread
  obtain ⟨fields, rfl⟩ := hs.obj hne
  rw [upsertPath_eq_setDeep v path fields hne hs] at h
  obtain rfl := Option.some.inj h
  rw [getNested_setDeep_self v path _ hs] at hread
  exact ⟨hs, (Option.some.inj hread).symm⟩

/-- **A value written at a path is read back just when every value on the way is a record or
missing.** -/
theorem getNested_upsertPath_iff (hne : path ≠ []) (v t : Json) :
    (∃ t', upsertPath t path v = some t' ∧ getNested t' path = some v) ↔ Settable path t := by
  constructor
  · rintro ⟨t', ht', hread⟩
    exact (eq_of_getNested_upsertPath hne ht' hread).1
  · intro hs
    obtain ⟨fields, rfl⟩ := hs.obj hne
    exact ⟨_, upsertPath_eq_setDeep v path fields hne hs, getNested_setDeep_self v path _ hs⟩

end Json

end Nexus
