import Nexus.Await.ResumeSteps

/-!
# The attempts to resume a parent

At most one pass of the reconciler is in flight, the await is promoted at most once, and at most one
call is in an attempt to resume the parent: the invariants of a run in which no attempt throws or
outlives the grace window, each with its step lemma.
-/

set_option autoImplicit false

namespace Nexus

/-! ## Invariants -/

section Invariants

variable {ι : Type}

/-- At most one pass of the reconciler is in flight, and its attempts are made in flight. -/
structure Flights (reconciler : ι → Bool) (phases : ι → ResumePhase) (flag : Bool) : Prop where
  held : ∀ t, (phases t).inFlight = true → flag = true
  kind : ∀ t, (phases t).inFlight = true → reconciler t = true
  single : ∀ t u, (phases t).inFlight = true → (phases u).inFlight = true → t = u
  attempts : ∀ t, (phases t).attempt = .attempting ∨
    (reconciler t = true ∧ (phases t).attempt = .called) → (phases t).inFlight = true

/-- What the promotion of the await and its row have to do with each other; `promotedAt` says when a
call has promoted the await. -/
structure Promotions (clock : Nat → Nat) (reconciler : ι → Bool) (row : AgentAwait)
    (phases : ι → ResumePhase) (promotedAt : ι → Option Nat) (time count : Nat) : Prop where
  unique : ∀ t u, (promotedAt t).isSome = true → (promotedAt u).isSome = true → t = u
  promoted : ∀ t, (phases t).attempt = .promoted → (promotedAt t).isSome = true
  called : ∀ t, reconciler t = false → (phases t).attempt = .called →
    (promotedAt t).isSome = true
  waiting : row.status = .waiting →
    count = 0 ∧ ∀ t, promotedAt t = none ∧ (phases t).Quiet
  listed : ∀ t record, (phases t).listed = some record → record.status = .resuming →
    row.status ≠ .waiting
  /-- The row has been written since its promotion. -/
  touched : ∀ u, ∀ b ∈ promotedAt u, ∃ τ, b ≤ τ ∧ τ < time ∧ row.updated_at = clock τ
  touchedListed : ∀ t record, (phases t).listed = some record → record.status = .resuming →
    ∀ u, ∀ b ∈ promotedAt u, ∃ τ, b ≤ τ ∧ τ < time ∧ record.updated_at = clock τ

/-- At most one call is in an attempt, and the parent has been resumed once when that call has
resumed it or the await has ended. -/
structure Attempts (grace : Nat) (reconciler : ι → Bool) (row : AgentAwait)
    (phases : ι → ResumePhase) (count : Nat) : Prop where
  unique : ∀ t u, (phases t).Active (reconciler t) → (phases u).Active (reconciler u) → t = u
  pending : ∀ t, (phases t).Pending (reconciler t) → count = 0
  le_one : count ≤ 1
  counted : count ≠ 0 → (∃ t, (phases t).attempt = .called) ∨ row.isOpen = false
  /-- A record found stuck has no attempt of the listener left. -/
  stuck : ∀ t, (phases t).FoundStuck grace → ∀ u, reconciler u = false →
    (phases u).attempt ≠ .promoted ∧ (phases u).attempt ≠ .called

variable {e : AwaitSurroundings} {s : AwaitStore} {o : AwaitOp} {awaitId : String} {grace : Nat}
  {reconciler : ι → Bool} {phases : ι → ResumePhase} {row row' : AgentAwait} {t : ι}
  {promoted promoted' : ι → Option Nat} {count time : Nat} {phase' : ResumePhase}

/-! ### Passes of the reconciler -/

/-- An attempt of the reconciler belongs to a pass in flight. -/
theorem Flights.attempt_next (h : Flights reconciler phases s.reconcileInFlight)
    (hissues : (phases t).Issues awaitId grace (reconciler t) o) (ans : o.Ans)
    (hattempt : ((phases t).next awaitId o ans).attempt = .attempting ∨
      (reconciler t = true ∧ ((phases t).next awaitId o ans).attempt = .called)) :
    (phases t).inFlight = true := by
  rcases Nexus.attempt_next hissues ans with ⟨hsame, -⟩ | ⟨hpromoted, -⟩ | ⟨-, rfl⟩ |
    ⟨hresumes, hcalled⟩ | ⟨hclosed, -⟩
  · rw [hsame] at hattempt
    exact h.attempts t hattempt
  · simp [hpromoted] at hattempt
  · exact hissues.1
  · -- a pass resumes the parent within an attempt it has begun
    rcases pending_of_resumes hissues hresumes with hattempting | ⟨hlistener, -⟩
    · exact h.attempts t (.inl hattempting)
    · simp [hlistener] at hattempt
      rcases hcalled with hcalled | hclosed
      · exact absurd (hattempt.symm.trans hcalled) (by simp)
      · exact absurd (hattempt.symm.trans hclosed) (by simp)
  · simp [hclosed] at hattempt

theorem Flights.step [DecidableEq ι] (h : Flights reconciler phases s.reconcileInFlight)
    (hissues : (phases t).Issues awaitId grace (reconciler t) o) :
    Flights reconciler (Function.update phases t ((phases t).next awaitId o (o.exec e s).2))
      (o.exec e s).1.reconcileInFlight := by
  have hattempt := h.attempt_next hissues (o.exec e s).2
  have hflight := inFlight_next (e := e) (s := s) hissues
  generalize (phases t).next awaitId o (o.exec e s).2 = phase' at hattempt hflight ⊢
  generalize (o.exec e s).1.reconcileInFlight = flag' at hflight ⊢
  have hother : ∀ u, u ≠ t → Function.update phases t phase' u = phases u :=
    fun u hu => Function.update_of_ne hu _ _
  rcases hflight with ⟨hkind, hclear, hbegin, hflag⟩ | ⟨hself, hquiet, hend, hflag⟩ | ⟨hsame, hflag⟩
  · -- the pass begins when no other one is in flight
    have hnone : phase'.inFlight = true → ∀ u, (phases u).inFlight = false := by
      intro hbegun u
      by_contra hu
      rw [h.held u (by simpa using hu)] at hbegin
      simp [hbegun] at hbegin
    refine ⟨fun _ _ => hflag, ?_, ?_, ?_⟩
    · intro u hu
      by_cases hut : u = t
      · rw [hut]
        exact hkind
      · rw [hother u hut] at hu
        exact h.kind u hu
    · intro u v hu hv
      by_cases hut : u = t
      · by_cases hvt : v = t
        · exact hut.trans hvt.symm
        · subst hut
          rw [Function.update_self] at hu
          rw [hother v hvt, hnone hu v] at hv
          exact nomatch hv
      · rw [hother u hut] at hu
        by_cases hvt : v = t
        · subst hvt
          rw [Function.update_self] at hv
          rw [hnone hv u] at hu
          exact nomatch hu
        · rw [hother v hvt] at hv
          exact h.single u v hu hv
    · intro u hu
      by_cases hut : u = t
      · subst hut
        rw [Function.update_self] at hu
        rw [hattempt hu] at hclear
        exact nomatch hclear
      · rw [hother u hut] at hu ⊢
        exact h.attempts u hu
  · -- the pass ends, and no other one is in flight
    have hnone : ∀ u, u ≠ t → (phases u).inFlight = false := by
      intro u hut
      by_contra hu
      exact hut (h.single u t (by simpa using hu) hself)
    have hidle : ∀ u, (Function.update phases t phase' u).inFlight = false := by
      intro u
      by_cases hut : u = t
      · subst hut
        rw [Function.update_self]
        exact hend
      · rw [hother u hut]
        exact hnone u hut
    refine ⟨fun u hu => ?_, fun u hu => ?_, fun u _ hu => ?_, fun u hu => ?_⟩
    · rw [hidle u] at hu
      exact nomatch hu
    · rw [hidle u] at hu
      exact nomatch hu
    · rw [hidle u] at hu
      exact nomatch hu
    · by_cases hut : u = t
      · subst hut
        rw [Function.update_self] at hu
        rcases hu with hattempting | ⟨-, hcalled⟩
        · exact absurd hattempting hquiet.1
        · exact absurd hcalled hquiet.2
      · rw [hother u hut] at hu
        exact absurd (h.attempts u hu) (by simp [hnone u hut])
  · -- the passes in flight are the same
    have hfly : ∀ u, (Function.update phases t phase' u).inFlight = (phases u).inFlight := by
      intro u
      by_cases hut : u = t
      · subst hut
        rw [Function.update_self]
        exact hsame
      · rw [hother u hut]
    refine ⟨fun u hu => ?_, fun u hu => ?_, fun u v hu hv => ?_, fun u hu => ?_⟩
    · rw [hfly u] at hu
      exact hflag.trans (h.held u hu)
    · rw [hfly u] at hu
      exact h.kind u hu
    · rw [hfly u] at hu
      rw [hfly v] at hv
      exact h.single u v hu hv
    · rw [hfly u]
      by_cases hut : u = t
      · subst hut
        rw [Function.update_self] at hu
        exact hattempt hu
      · rw [hother u hut] at hu
        exact h.attempts u hu

/-! ### The promotion -/

/-- A step of call `t` on the row of the await, in a run that keeps to its condition. -/
structure AwaitStep (e : AwaitSurroundings) (s : AwaitStore) (awaitId : String) (grace : Nat)
    (reconciler : ι → Bool) (phases : ι → ResumePhase) (row : AgentAwait) (t : ι) (o : AwaitOp) :
    Prop where
  keys : s.KeysDistinct
  found : s.find awaitId = some row
  issues : (phases t).Issues awaitId grace (reconciler t) o
  saves : ∀ entity, o = .save entity → entity.id = awaitId → entity.status = row.status
  attempts : o = .attemptsFor awaitId → row.status = .resuming

/-- The times of the promotions after a step. -/
def promotedAfter [DecidableEq ι] (promoted : ι → Option Nat) (t : ι) (time : Nat)
    (promotes : Bool) (u : ι) : Option Nat :=
  if t = u ∧ promotes = true then some time else promoted u

theorem AwaitStep.status (h : AwaitStep e s awaitId grace reconciler phases row t o) :
    StatusStep row (row.after (e.clock s.time) o) (o.promotes awaitId (o.exec e s).2) :=
  statusStep_after h.keys h.found h.issues h.saves

variable {p : Bool}

theorem promotedAfter_of_not [DecidableEq ι] (u : ι) :
    promotedAfter promoted t time false u = promoted u := by
  simp [promotedAfter]

variable {u : ι}

theorem mem_promotedAfter [DecidableEq ι] {b : Nat} (h : b ∈ promotedAfter promoted t time p u) :
    (t = u ∧ p = true ∧ b = time) ∨ b ∈ promoted u := by
  unfold promotedAfter at h
  split at h
  · rename_i hself
    exact .inl ⟨hself.1, hself.2, (Option.some.inj h).symm⟩
  · exact .inr h

theorem promotedAfter_isSome [DecidableEq ι] (h : (promoted u).isSome = true) :
    (promotedAfter promoted t time p u).isSome = true := by
  unfold promotedAfter
  split
  · rfl
  · exact h

theorem Promotions.step [DecidableEq ι]
    (hstep : AwaitStep e s awaitId grace reconciler phases row t o)
    (hlistener : ∀ u, reconciler u = false → (phases u).attempt ≠ .attempting)
    (h : Promotions e.clock reconciler row phases promoted s.time count) :
    Promotions e.clock reconciler (row.after (e.clock s.time) o)
      (Function.update phases t ((phases t).next awaitId o (o.exec e s).2))
      (promotedAfter promoted t s.time (o.promotes awaitId (o.exec e s).2)) (s.time + 1)
      (count + if o.resumes awaitId = true then 1 else 0) := by
  have hstatus := hstep.status
  have hattempt := attempt_next hstep.issues (o.exec e s).2
  have hlisted : ∀ record, ((phases t).next awaitId o (o.exec e s).2).listed = some record →
      record = row ∨ (phases t).listed = some record :=
    fun record => listed_next hstep.keys hstep.found
  have htouch : row.after (e.clock s.time) o = row ∨
      (row.after (e.clock s.time) o).updated_at = e.clock s.time := after_eq_or_updated
  have hpending := fun hresumes => pending_of_resumes hstep.issues hresumes
  generalize row.after (e.clock s.time) o = row' at hstatus htouch ⊢
  generalize (phases t).next awaitId o (o.exec e s).2 = phase' at hattempt hlisted ⊢
  generalize o.promotes awaitId (o.exec e s).2 = p at hstatus hattempt ⊢
  have hself : Function.update phases t phase' t = phase' := Function.update_self t phase' phases
  have hother : ∀ u, u ≠ t → Function.update phases t phase' u = phases u :=
    fun u hu => Function.update_of_ne hu _ _
  -- before a promotion nobody has promoted the await
  have hfresh : p = true → row.status = .waiting ∧ row'.status = .resuming := by
    rintro rfl
    cases hstatus with
    | promoted hwaiting hresuming _ => exact ⟨hwaiting, hresuming⟩
    | same _ hpromotes => exact nomatch hpromotes
    | ended _ _ hpromotes => exact nomatch hpromotes
    | resumed _ _ hpromotes => exact nomatch hpromotes
  refine ⟨?_, ?_, ?_, ?_, ?_, ?_, ?_⟩
  · intro u v hu hv
    obtain ⟨b, hb⟩ := Option.isSome_iff_exists.1 hu
    obtain ⟨b', hb'⟩ := Option.isSome_iff_exists.1 hv
    rcases mem_promotedAfter hb with ⟨rfl, hp, -⟩ | hb
    · rcases mem_promotedAfter hb' with ⟨rfl, -, -⟩ | hb'
      · rfl
      · exact absurd hb' (by simp [((h.waiting (hfresh hp).1).2 v).1])
    · rcases mem_promotedAfter hb' with ⟨rfl, hp, -⟩ | hb'
      · exact absurd hb (by simp [((h.waiting (hfresh hp).1).2 u).1])
      · exact h.unique u v (Option.isSome_iff_exists.2 ⟨b, hb⟩)
          (Option.isSome_iff_exists.2 ⟨b', hb'⟩)
  · intro u hu
    by_cases hut : u = t
    · subst hut
      rw [hself] at hu
      rcases hattempt with ⟨hsame, -⟩ | ⟨-, hp, -⟩ | ⟨hbegun, -⟩ | ⟨-, hdone⟩ | ⟨hclosed, -⟩
      · exact promotedAfter_isSome (h.promoted u (hsame.symm.trans hu))
      · simp [promotedAfter, hp]
      · exact absurd (hu.symm.trans hbegun) (by simp)
      · rcases hdone with hdone | hdone
        · exact absurd (hu.symm.trans hdone) (by simp)
        · exact absurd (hu.symm.trans hdone) (by simp)
      · exact absurd (hu.symm.trans hclosed) (by simp)
    · rw [hother u hut] at hu
      exact promotedAfter_isSome (h.promoted u hu)
  · intro u hu hcalled
    by_cases hut : u = t
    · subst hut
      rw [hself] at hcalled
      apply promotedAfter_isSome
      rcases hattempt with ⟨hsame, -⟩ | ⟨hp, -⟩ | ⟨hbegun, -⟩ | ⟨hresumes, -⟩ | ⟨hclosed, -⟩
      · exact h.called u hu (hsame.symm.trans hcalled)
      · exact absurd (hcalled.symm.trans hp) (by simp)
      · exact absurd (hcalled.symm.trans hbegun) (by simp)
      · rcases hpending hresumes with hattempting | ⟨-, hpromoted⟩
        · exact absurd hattempting (hlistener u hu)
        · exact h.promoted u hpromoted
      · exact absurd (hcalled.symm.trans hclosed) (by simp)
    · rw [hother u hut] at hcalled
      exact promotedAfter_isSome (h.called u hu hcalled)
  · intro hwaiting'
    obtain ⟨hwaiting, rfl⟩ := waiting_of_step hstatus hwaiting'
    obtain ⟨hcount, hall⟩ := h.waiting hwaiting
    have hresumes : o.resumes awaitId = false := by
      by_contra hresumes
      rcases hpending (by simpa using hresumes) with hattempting | ⟨-, hpromoted⟩
      · exact (hall t).2.1 hattempting
      · exact absurd (h.promoted t hpromoted) (by simp [(hall t).1])
    refine ⟨by simp [hcount, hresumes], fun u => ⟨?_, ?_⟩⟩
    · rw [promotedAfter_of_not]
      exact (hall u).1
    · by_cases hut : u = t
      · subst hut
        rw [hself]
        rcases hattempt with ⟨hsame, -⟩ | ⟨-, hp, -⟩ | ⟨-, rfl⟩ | ⟨htrue, -⟩ | ⟨hclosed, -⟩
        · rw [ResumePhase.Quiet, hsame]
          exact (hall u).2
        · exact nomatch hp
        · exact absurd ((hstep.attempts rfl).symm.trans hwaiting) (by simp)
        · exact absurd (htrue.symm.trans hresumes) (by simp)
        · exact ⟨by simp [hclosed], by simp [hclosed]⟩
      · rw [hother u hut]
        exact (hall u).2
  · intro u record hrecord hresuming hwaiting'
    have hwaiting := (waiting_of_step hstatus hwaiting').1
    by_cases hut : u = t
    · subst hut
      rw [hself] at hrecord
      rcases hlisted record hrecord with rfl | hrecord
      · exact absurd (hresuming.symm.trans hwaiting) (by simp)
      · exact h.listed u record hrecord hresuming hwaiting
    · rw [hother u hut] at hrecord
      exact h.listed u record hrecord hresuming hwaiting
  · intro u b hb
    rcases mem_promotedAfter hb with ⟨rfl, hp, rfl⟩ | hb
    · refine ⟨s.time, Nat.le_refl _, Nat.lt_succ_self _, ?_⟩
      rcases htouch with hsame | htouched
      · obtain ⟨hwaiting, hresuming⟩ := hfresh hp
        rw [hsame] at hresuming
        exact absurd (hwaiting.symm.trans hresuming) (by simp)
      · exact htouched
    · obtain ⟨τ, hle, hlt, hrow⟩ := h.touched u b hb
      rcases htouch with rfl | htouched
      · exact ⟨τ, hle, by omega, hrow⟩
      · exact ⟨s.time, by omega, Nat.lt_succ_self _, htouched⟩
  · intro u record hrecord hresuming v b hb
    have hrecord' : record = row ∨ (phases u).listed = some record := by
      by_cases hut : u = t
      · subst hut
        rw [hself] at hrecord
        exact hlisted record hrecord
      · rw [hother u hut] at hrecord
        exact .inr hrecord
    rcases mem_promotedAfter hb with ⟨-, hp, -⟩ | hb
    · -- a listed record that was RESUMING rules out a promotion
      have hwaiting := (hfresh hp).1
      rcases hrecord' with rfl | hrecord'
      · exact absurd (hresuming.symm.trans hwaiting) (by simp)
      · exact absurd hwaiting (h.listed u record hrecord' hresuming)
    · have hold : ∃ τ, b ≤ τ ∧ τ < s.time ∧ record.updated_at = e.clock τ := by
        rcases hrecord' with rfl | hrecord'
        · exact h.touched v b hb
        · exact h.touchedListed u record hrecord' hresuming v b hb
      obtain ⟨τ, hle, hlt, hrecord⟩ := hold
      exact ⟨τ, hle, by omega, hrecord⟩

/-! ### The attempts -/

variable {flag : Bool}

/-- The attempt of a listener is never one of the reconciler. -/
theorem Flights.listener (h : Flights reconciler phases flag) (hu : reconciler u = false) :
    (phases u).attempt ≠ .attempting := by
  intro hattempting
  exact absurd (h.kind u (h.attempts u (.inl hattempting))) (by simp [hu])

/-- An attempt of the reconciler begins when no other one is open. -/
theorem Attempts.none_active (hflights : Flights reconciler phases flag) {clock : Nat → Nat}
    (hpromotions : Promotions clock reconciler row phases promoted time count)
    (h : Attempts grace reconciler row phases count) (hinFlight : (phases t).inFlight = true)
    (hattempt : (phases t).attempt = .promoted ∨ ((phases t).attempt = .idle ∧ (phases
      t).FoundStuck grace)) (hut : u ≠ t) :
    ¬ (phases u).Active (reconciler u) := by
  -- another pass is not in flight, and a listener has promoted the await or has no attempt left
  have hpass : (phases u).inFlight ≠ true := fun hu => hut (hflights.single u t hu hinFlight)
  have hopen : reconciler u = false →
      (phases u).attempt ≠ .promoted ∧ (phases u).attempt ≠ .called := by
    intro hu
    rcases hattempt with hpromoted | ⟨-, hstuck⟩
    · have ht := hpromotions.promoted t hpromoted
      exact ⟨fun h' => hut (hpromotions.unique u t (hpromotions.promoted u h') ht),
        fun h' => hut (hpromotions.unique u t (hpromotions.called u hu h') ht)⟩
    · exact h.stuck t hstuck u hu
  rintro ((hattempting | ⟨hu, hpromoted⟩) | hcalled)
  · exact hpass (hflights.attempts u (.inl hattempting))
  · exact (hopen hu).1 hpromoted
  · cases hu : reconciler u with
    | true => exact hpass (hflights.attempts u (.inr ⟨hu, hcalled⟩))
    | false => exact (hopen hu).2 hcalled

/-- The parent has not been resumed when an attempt of the reconciler begins on a row that is still
RESUMING. -/
theorem Attempts.none_counted (h : Attempts grace reconciler row phases count)
    (hresuming : row.status = .resuming)
    (hattempt : (phases t).attempt = .promoted ∨
      ((phases t).attempt = .idle ∧ (phases t).FoundStuck grace))
    (hnone : ∀ u, u ≠ t → ¬ (phases u).Active (reconciler u)) : count = 0 := by
  by_contra hcount
  rcases h.counted hcount with ⟨u, hu⟩ | hended
  · by_cases hut : u = t
    · subst hut
      rcases hattempt with hpromoted | ⟨hidle, -⟩
      · exact absurd (hpromoted.symm.trans hu) (by simp)
      · exact absurd (hidle.symm.trans hu) (by simp)
    · exact hnone u hut (.inr hu)
  · simp [AgentAwait.isOpen, hresuming] at hended

/-- A listed record that is found stuck leaves no attempt of the listener. -/
theorem Attempts.stuck_next
    (hpromotions : Promotions e.clock reconciler row phases promoted s.time count)
    (h : Attempts grace reconciler row phases count)
    (hgrace : ∀ u, reconciler u = false → (phases u).attempt = .promoted ∨ (phases u).attempt =
      .called → ∀ b ∈ promoted u, ∀ τ ≤ s.time, b ≤ τ → e.clock s.time < e.clock τ + grace)
    (hstuck : ((phases t).next awaitId o (o.exec e s).2).FoundStuck grace)
    (hu : reconciler u = false) :
    (phases u).attempt ≠ .promoted ∧ (phases u).attempt ≠ .called := by
  rcases foundStuck_next hstuck with hstuck | ⟨record, hlisted, hresuming, hle⟩
  · exact h.stuck t hstuck u hu
  · have hlate : ∀ b ∈ promoted u,
        ¬ ((phases u).attempt = .promoted ∨ (phases u).attempt = .called) := by
      intro b hb hopen
      obtain ⟨τ, hbτ, hτ, hupdated⟩ := hpromotions.touchedListed t record hlisted hresuming u b hb
      have hwithin := hgrace u hu hopen b hb τ (Nat.le_of_lt hτ) hbτ
      rw [← hupdated] at hwithin
      omega
    constructor
    · intro hpromoted
      obtain ⟨b, hb⟩ := Option.isSome_iff_exists.1 (hpromotions.promoted u hpromoted)
      exact hlate b hb (.inl hpromoted)
    · intro hcalled
      obtain ⟨b, hb⟩ := Option.isSome_iff_exists.1 (hpromotions.called u hu hcalled)
      exact hlate b hb (.inr hcalled)

theorem Attempts.step [DecidableEq ι]
    (hstep : AwaitStep e s awaitId grace reconciler phases row t o)
    (hflights : Flights reconciler phases flag)
    (hpromotions : Promotions e.clock reconciler row phases promoted s.time count)
    (hcall : o.resumes awaitId = true → ((phases t).next awaitId o (o.exec e s).2).attempt =
      .called)
    (hgrace : ∀ u, reconciler u = false → (phases u).attempt = .promoted ∨ (phases u).attempt =
      .called → ∀ b ∈ promoted u, ∀ τ ≤ s.time, b ≤ τ → e.clock s.time < e.clock τ + grace)
    (h : Attempts grace reconciler row phases count) :
    Attempts grace reconciler (row.after (e.clock s.time) o)
      (Function.update phases t ((phases t).next awaitId o (o.exec e s).2))
      (count + if o.resumes awaitId = true then 1 else 0) := by
  have hstatus := hstep.status
  have hattempt := attempt_next hstep.issues (o.exec e s).2
  have hpending := fun hresumes => pending_of_resumes hstep.issues hresumes
  have hold' : ((phases t).next awaitId o (o.exec e s).2).FoundStuck grace →
      ∀ u, reconciler u = false → (phases u).attempt ≠ .promoted ∧ (phases u).attempt ≠ .called :=
    fun hstuck u hu => h.stuck_next hpromotions hgrace hstuck hu
  have hlisted : ∀ record, (phases t).listed = some record → record.status = .resuming →
      row.status ≠ .waiting := hpromotions.listed t
  have hopen' : ((phases t).next awaitId o (o.exec e s).2).FoundStuck grace →
      row.status ≠ .waiting := by
    intro hstuck
    rcases foundStuck_next hstuck with ⟨record, _, hrecord, hresuming, -⟩ |
      ⟨record, hrecord, hresuming, -⟩
    · exact hlisted record hrecord hresuming
    · exact hlisted record hrecord hresuming
  generalize hrow' : row.after (e.clock s.time) o = row' at hstatus ⊢
  generalize (phases t).next awaitId o (o.exec e s).2 = phase' at hattempt hcall hold' hopen' ⊢
  generalize o.promotes awaitId (o.exec e s).2 = p at hstatus hattempt
  have hself : Function.update phases t phase' t = phase' := Function.update_self t phase' phases
  have hother : ∀ u, u ≠ t → Function.update phases t phase' u = phases u :=
    fun u hu => Function.update_of_ne hu _ _
  -- a promotion finds no attempt
  have hfresh : p = true → count = 0 ∧ ∀ u, ¬ (phases u).Active (reconciler u) := by
    intro hp
    have hwaiting : row.status = .waiting := by
      by_contra hne
      exact absurd (hp.symm.trans (not_waiting_of_promotes hstatus hne)) (by simp)
    obtain ⟨hcount, hall⟩ := hpromotions.waiting hwaiting
    refine ⟨hcount, fun u => ?_⟩
    obtain ⟨hnone, hquiet⟩ := hall u
    rintro ((hattempting | ⟨-, hpromoted⟩) | hcalled)
    · exact hquiet.1 hattempting
    · exact absurd (hpromotions.promoted u hpromoted) (by simp [hnone])
    · exact hquiet.2 hcalled
  -- so does an attempt of the reconciler
  have hbegin : o = .attemptsFor awaitId →
      count = 0 ∧ (phases t).attempt ≠ .called ∧
        ∀ u, u ≠ t → ¬ (phases u).Active (reconciler u) := by
    rintro rfl
    obtain ⟨hinFlight, hbegins⟩ := hstep.issues
    have hnone := fun u (hut : u ≠ t) =>
      h.none_active hflights hpromotions hinFlight (hbegins rfl) hut
    refine ⟨h.none_counted (hstep.attempts rfl) (hbegins rfl) hnone, ?_, hnone⟩
    intro hcalled
    rcases hbegins rfl with hpromoted | ⟨hidle, -⟩
    · exact absurd (hpromoted.symm.trans hcalled) (by simp)
    · exact absurd (hidle.symm.trans hcalled) (by simp)
  have hnew : phase'.Active (reconciler t) →
      (phases t).Active (reconciler t) ∨ ∀ u, u ≠ t → ¬ (phases u).Active (reconciler u) := by
    intro hactive
    rcases hattempt with ⟨hsame, -⟩ | ⟨-, hp, -⟩ | ⟨-, hbegun⟩ | ⟨hresumes, -⟩ | ⟨hclosed, -⟩
    · refine .inl ?_
      rwa [ResumePhase.Active, ResumePhase.Pending, hsame] at hactive
    · exact .inr fun u _ => (hfresh hp).2 u
    · exact .inr (hbegin hbegun).2.2
    · exact .inl (.inl (hpending hresumes))
    · simp [ResumePhase.Active, ResumePhase.Pending, hclosed] at hactive
  refine ⟨?_, ?_, ?_, ?_, ?_⟩
  · have hone : ∀ u, u ≠ t → phase'.Active (reconciler t) →
        ¬ (phases u).Active (reconciler u) := by
      intro u hut hactive hu
      rcases hnew hactive with ht | hnone
      · exact hut (h.unique u t hu ht)
      · exact hnone u hut hu
    intro u v hu hv
    by_cases hut : u = t
    · by_cases hvt : v = t
      · exact hut.trans hvt.symm
      · subst hut
        rw [hself] at hu
        rw [hother v hvt] at hv
        exact absurd hv (hone v hvt hu)
    · rw [hother u hut] at hu
      by_cases hvt : v = t
      · subst hvt
        rw [hself] at hv
        exact absurd hu (hone u hut hv)
      · rw [hother v hvt] at hv
        exact h.unique u v hu hv
  · intro u hu
    by_cases hut : u = t
    · subst hut
      rw [hself] at hu
      rcases hattempt with ⟨hsame, hnot⟩ | ⟨-, hp, hnot⟩ | ⟨-, rfl⟩ | ⟨hresumes, -⟩ | ⟨hclosed, -⟩
      · rw [ResumePhase.Pending, hsame] at hu
        simp [h.pending u hu, hnot]
      · simp [(hfresh hp).1, hnot]
      · simp [(hbegin rfl).1, AwaitOp.resumes]
      · simp [ResumePhase.Pending, hcall hresumes] at hu
      · simp [ResumePhase.Pending, hclosed] at hu
    · rw [hother u hut] at hu
      have hnot : o.resumes awaitId = false := by
        by_contra hresumes
        exact hut (h.unique u t (.inl hu) (.inl (hpending (by simpa using hresumes))))
      simp [h.pending u hu, hnot]
  · by_cases hresumes : o.resumes awaitId = true
    · simp [h.pending t (hpending hresumes), hresumes]
    · simpa [hresumes] using h.le_one
  · intro hcount
    by_cases hresumes : o.resumes awaitId = true
    · exact .inl ⟨t, by rw [hself]; exact hcall hresumes⟩
    · have hcount' : count ≠ 0 := by simpa [hresumes] using hcount
      rcases h.counted hcount' with ⟨u, hu⟩ | hended
      · by_cases hut : u = t
        · subst hut
          rcases hattempt with ⟨hsame, -⟩ | ⟨-, hp, -⟩ | ⟨-, hbegun⟩ | ⟨htrue, -⟩ | ⟨-, -, hset⟩
          · exact .inl ⟨u, by rw [hself]; exact hsame.trans hu⟩
          · exact absurd (hfresh hp).1 hcount'
          · exact absurd (hbegin hbegun).1 hcount'
          · exact absurd htrue hresumes
          · -- the call moves the await on, or the await has ended already
            obtain ⟨targetStatus, rfl, htarget⟩ := hset hu
            have hwaiting : row'.status ≠ .waiting := by
              intro hwaiting'
              have hwaiting := (waiting_of_step hstatus hwaiting').1
              exact ((hpromotions.waiting hwaiting).2 u).2.2 hu
            have hresuming : row'.status ≠ .resuming := by
              rw [← hrow']
              exact after_ne_resuming (find_id hstep.found) htarget
            exact .inr (by simp [AgentAwait.isOpen, hwaiting, hresuming])
        · exact .inl ⟨u, by rw [hother u hut]; exact hu⟩
      · refine .inr ?_
        rw [AgentAwait.isOpen, ended_of_step hstatus hended]
        exact hended
  · intro u hstuck v hv
    have hold : ((phases v).attempt ≠ .promoted ∧ (phases v).attempt ≠ .called) ∧
        row.status ≠ .waiting := by
      by_cases hut : u = t
      · subst hut
        rw [hself] at hstuck
        exact ⟨hold' hstuck v hv, hopen' hstuck⟩
      · rw [hother u hut] at hstuck
        obtain ⟨record, _, hrecord, hresuming, -⟩ := id hstuck
        exact ⟨h.stuck u hstuck v hv, hpromotions.listed u record hrecord hresuming⟩
    by_cases hvt : v = t
    · subst hvt
      rw [hself]
      rcases hattempt with ⟨hsame, -⟩ | ⟨-, hp, -⟩ | ⟨hbegun, -⟩ | ⟨hresumes, -⟩ | ⟨hclosed, -⟩
      · rw [hsame]
        exact hold.1
      · exact absurd (hp.symm.trans (not_waiting_of_promotes hstatus hold.2)) (by simp)
      · simp [hbegun]
      · rcases hpending hresumes with hattempting | ⟨-, hpromoted⟩
        · exact absurd hattempting (hflights.listener hv)
        · exact absurd hpromoted hold.1.1
      · simp [hclosed]
    · rw [hother v hvt]
      exact hold.1

end Invariants

end Nexus
