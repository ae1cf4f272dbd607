import Mathlib

/-!
# A lease in one cell

A cell names a holder and the time its lease expires. A holder writes the cell when nobody is in
it, when it is in it itself, or when the lease in it has expired. What a holder knows of its lease
is the expiry it wrote last: while a live holder's own expiry has not passed, the cell is its own
(`Covers`), so two live holders with unexpired leases are one (`Covers.exclusive`).
-/

set_option autoImplicit false

namespace Nexus

variable {ι τ : Type*}

structure LeaseCell (ι τ : Type*) where
  owner : Option ι
  expires : Option τ

namespace LeaseCell

section Order

variable [LinearOrder τ]

/-- The holder may write the cell at this time. -/
def Claimable (cell : LeaseCell ι τ) (holder : ι) (now : τ) : Prop :=
  cell.owner = none ∨ cell.owner = some holder ∨ ∃ u, cell.expires = some u ∧ u < now

/-- Every live holder whose own lease has not expired is in the cell, with this expiry. -/
def Covers (cell : LeaseCell ι τ) (ledger : ι → Option τ) (live : ι → Prop) (clock : τ) : Prop :=
  ∀ holder u, live holder → ledger holder = some u → clock ≤ u →
    cell.owner = some holder ∧ cell.expires = some u

variable {cell : LeaseCell ι τ} {ledger : ι → Option τ} {live live' : ι → Prop} {clock now u : τ}
  {holder holder' : ι}

theorem Covers.exclusive (h : cell.Covers ledger live clock) {u u' : τ} (hlive : live holder)
    (hledger : ledger holder = some u) (hu : clock ≤ u) (hlive' : live holder')
    (hledger' : ledger holder' = some u') (hu' : clock ≤ u') : holder = holder' := by
  have howner := (h holder u hlive hledger hu).1
  rw [(h holder' u' hlive' hledger' hu').1] at howner
  exact (Option.some.inj howner).symm

theorem Covers.mono (h : cell.Covers ledger live clock)
    (hsub : ∀ holder, live' holder → live holder) : cell.Covers ledger live' clock :=
  fun holder u hlive => h holder u (hsub holder hlive)

/-- Time only ends leases. -/
theorem Covers.advance (h : cell.Covers ledger live clock) (hle : clock ≤ now) :
    cell.Covers ledger live now :=
  fun holder u hlive hledger hu => h holder u hlive hledger (le_trans hle hu)

/-- A write by a holder that may write, with a clock read earlier. -/
theorem Covers.write [DecidableEq ι] (h : cell.Covers ledger live clock)
    (hclaimable : cell.Claimable holder now) (hnow : now ≤ clock) (u : τ)
    (hlive : ∀ other, live' other → other ≠ holder → live other) :
    LeaseCell.Covers ⟨some holder, some u⟩ (Function.update ledger holder (some u)) live'
      clock := by
  intro other u' hother hledger hu'
  by_cases heq : other = holder
  · subst heq
    rw [Function.update_self] at hledger
    exact ⟨rfl, hledger⟩
  · -- another live holder is in the cell, which is then not claimable
    rw [Function.update_of_ne heq] at hledger
    obtain ⟨howner, hexpires⟩ := h other u' (hlive other hother heq) hledger hu'
    rcases hclaimable with hnone | hself | ⟨v, hv, hexpired⟩
    · rw [howner] at hnone
      cases hnone
    · rw [howner] at hself
      exact absurd (Option.some.inj hself) heq
    · rw [hexpires] at hv
      rw [← Option.some.inj hv] at hexpired
      exact absurd (lt_of_lt_of_le hexpired hnow) (not_lt_of_ge hu')

/-- A holder without a live lease leaves the cell. -/
theorem Covers.clear (h : cell.Covers ledger live clock) (howner : cell.owner = some holder)
    (hlive : ∀ other, live' other → live other)
    (hnot : ∀ u, live' holder → ledger holder = some u → ¬ clock ≤ u) :
    LeaseCell.Covers ⟨none, none⟩ ledger live' clock := by
  intro other u hother hledger hu
  have hother' := (h other u (hlive other hother) hledger hu).1
  rw [howner] at hother'
  obtain rfl := Option.some.inj hother'
  exact absurd hu (hnot u hother hledger)

end Order

end LeaseCell

end Nexus
