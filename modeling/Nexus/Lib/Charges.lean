import Mathlib

/-!
# Charging events to accounts

Events with keys are emitted, possibly more than once, and every key has to be charged once to the
accounts its event concerns. `Splits` says where the emitted events are: every one is either in the
ledger of the charged events or still owed, and no key is in the two lists twice. While events are
emitted, emitted again and charged, the ledger charges an account exactly the amounts of the
distinct keys that are no longer owed (`Splits.total_eq`).
-/

set_option autoImplicit false

namespace Nexus

/-- The keys of events of type `ε`, the accounts they concern, and what they charge. -/
structure Charging (ε α κ : Type) where
  key : ε → κ
  concerns : ε → α → Bool
  amount : ε → Nat

namespace Charging

variable {ε α κ : Type} (C : Charging ε α κ)

/-- What a list of events charges to an account. -/
def total (events : List ε) (a : α) : Nat :=
  ((events.filter (C.concerns · a)).map C.amount).sum

theorem total_append (events events' : List ε) (a : α) :
    C.total (events ++ events') a = C.total events a + C.total events' a := by
  simp [total, List.sum_append]

theorem total_singleton (e : ε) (a : α) :
    C.total [e] a = if C.concerns e a then C.amount e else 0 := by
  by_cases h : C.concerns e a = true <;> simp [total, h]

/-- The emitted events are the charged and the owed ones, and every key is charged or owed once. -/
structure Splits (emitted owed ledger : List ε) : Prop where
  nodup : ((ledger ++ owed).map C.key).Nodup
  mem : ∀ e, e ∈ emitted ↔ e ∈ ledger ++ owed

namespace Splits

variable {C} {emitted owed owed' ledger : List ε} {e : ε}

theorem nil : C.Splits [] [] [] := ⟨List.nodup_nil, fun _ => Iff.rfl⟩

/-- The order of the owed events does not matter. -/
theorem perm (h : C.Splits emitted owed ledger) (hp : owed.Perm owed') :
    C.Splits emitted owed' ledger where
  nodup := (((hp.append_left ledger).map C.key).nodup_iff).1 h.nodup
  mem e := (h.mem e).trans (hp.append_left ledger).mem_iff

/-- A new key is owed. -/
theorem emit (h : C.Splits emitted owed ledger) (he : C.key e ∉ emitted.map C.key) :
    C.Splits (emitted ++ [e]) (owed ++ [e]) ledger where
  nodup := by
    rw [← List.append_assoc, List.map_append, List.nodup_append]
    refine ⟨h.nodup, List.nodup_singleton _, ?_⟩
    intro k hk k' hk' heq
    obtain ⟨e', he', rfl⟩ := List.mem_map.1 hk
    rw [List.map_singleton, List.mem_singleton] at hk'
    subst hk'
    exact he (heq ▸ List.mem_map_of_mem ((h.mem e').2 he'))
  mem e' := by
    have := h.mem e'
    simp only [List.mem_append, List.mem_singleton] at this ⊢
    tauto

/-- Emitting an event again changes nothing. -/
theorem again (h : C.Splits emitted owed ledger) (he : e ∈ emitted) :
    C.Splits (emitted ++ [e]) owed ledger where
  nodup := h.nodup
  mem e' := by
    rw [List.mem_append, List.mem_singleton, ← h.mem e']
    exact ⟨fun h' => h'.elim id fun heq => heq ▸ he, Or.inl⟩

/-- An owed event is charged. -/
theorem charge (h : C.Splits emitted (e :: owed) ledger) :
    C.Splits emitted owed (ledger ++ [e]) where
  nodup := by rw [List.append_assoc]; exact h.nodup
  mem e' := by rw [List.append_assoc]; exact h.mem e'

/-- Emitted events with one key are one event. -/
theorem eq_of_key (h : C.Splits emitted owed ledger) {e' : ε} (he : e ∈ emitted)
    (he' : e' ∈ emitted) (hkey : C.key e = C.key e') : e = e' :=
  List.inj_on_of_nodup_map h.nodup ((h.mem e).1 he) ((h.mem e').1 he') hkey

end Splits

section Keys

variable [DecidableEq κ]

/-- The distinct keys of the emitted events that concern an account and are not owed. -/
def settledKeys (emitted owed : List ε) (a : α) : List κ :=
  (((emitted.filter (C.concerns · a)).map C.key).dedup).filter fun k => k ∉ owed.map C.key

/-- The amount of the first emitted event with a key. -/
def amountOf (emitted : List ε) (k : κ) : Nat :=
  ((emitted.find? fun e => C.key e = k).map C.amount).getD 0

variable {C} {emitted owed ledger : List ε}

theorem Splits.amountOf_key (h : C.Splits emitted owed ledger) {e : ε} (he : e ∈ emitted) :
    C.amountOf emitted (C.key e) = C.amount e := by
  obtain ⟨found, hfound⟩ : ∃ found, emitted.find? (fun e' => C.key e' = C.key e) = some found := by
    rw [← Option.isSome_iff_exists, List.find?_isSome]
    exact ⟨e, he, decide_eq_true rfl⟩
  have hkey : C.key found = C.key e := by simpa using List.find?_some hfound
  have heq : found = e := h.eq_of_key (List.mem_of_find?_eq_some hfound) he hkey
  rw [amountOf, hfound, heq]
  rfl

/-- The keys of the ledger that concern an account are the settled keys. -/
theorem Splits.perm_settledKeys (h : C.Splits emitted owed ledger) (a : α) :
    ((ledger.filter (C.concerns · a)).map C.key).Perm (C.settledKeys emitted owed a) := by
  have hnodup := h.nodup
  rw [List.map_append, List.nodup_append] at hnodup
  obtain ⟨hledger, -, hdisjoint⟩ := hnodup
  apply (List.perm_ext_iff_of_nodup
    (hledger.sublist (List.filter_sublist.map C.key)) ((List.nodup_dedup _).filter _)).2
  intro k
  simp only [List.mem_filter, List.mem_dedup, List.mem_map, decide_eq_true_eq]
  constructor
  · rintro ⟨e, ⟨he, hconcerns⟩, rfl⟩
    refine ⟨⟨e, ⟨(h.mem e).2 (List.mem_append_left _ he), hconcerns⟩, rfl⟩, ?_⟩
    rintro ⟨e', he', hkey⟩
    exact hdisjoint _ (List.mem_map_of_mem he) _ (List.mem_map_of_mem he') hkey.symm
  · rintro ⟨⟨e, ⟨he, hconcerns⟩, rfl⟩, howed⟩
    rcases List.mem_append.1 ((h.mem e).1 he) with hmem | hmem
    · exact ⟨e, ⟨hmem, hconcerns⟩, rfl⟩
    · exact absurd ⟨e, hmem, rfl⟩ howed

/-- **The ledger charges an account the amounts of its settled keys, each once.** -/
theorem Splits.total_eq (h : C.Splits emitted owed ledger) (a : α) :
    C.total ledger a = ((C.settledKeys emitted owed a).map (C.amountOf emitted)).sum := by
  rw [← ((h.perm_settledKeys a).map (C.amountOf emitted)).sum_eq, total, List.map_map]
  congr 1
  apply List.map_congr_left
  intro e he
  have hemitted : e ∈ emitted := (h.mem e).2 (List.mem_append_left _ (List.mem_filter.1 he).1)
  exact (h.amountOf_key hemitted).symm

end Keys

end Charging

end Nexus
