import Mathlib

/-!
# Locks that chain promises

A lock keeps, for every key, the promise of the last ticket that was drawn. A new ticket hangs on
the promise it finds there and puts its own in the place. A promise's reactions run once it has
settled, in any order here, except that a ticket prepares itself before its task starts. When a
ticket leaves, it takes its promise out of the lock if it is still there.

`settles` says when the promise of a ticket may settle: a lock is sound when that is after its task
has ended, and live when it is so at the latest once the ticket has left.
-/

set_option autoImplicit false

namespace Nexus

namespace ChainedLock

variable {κ ρ : Type}

/-- The life of the task of a ticket; it ends with its result or its error. -/
inductive Phase (ρ : Type) where
  | waiting
  | running
  | ended (result : ρ)

structure Ticket (κ ρ : Type) where
  key : κ
  /-- The ticket whose promise this one hangs on. -/
  previous : Option Nat
  prepared : Bool := false
  phase : Phase ρ := .waiting
  /-- The promise of the ticket has settled. -/
  settled : Bool := false
  /-- What the ticket has left with. -/
  returned : Option ρ := none

/-- The tickets in the order in which they were drawn, the promise in the lock for every key, and
the starts of tasks so far. -/
structure State (κ ρ : Type) where
  tickets : List (Ticket κ ρ) := []
  tail : κ → Option Nat := fun _ => none
  starts : List Nat := []

def Ticket.hasEnded (t : Ticket κ ρ) : Prop := ∃ result, t.phase = .ended result

namespace State

abbrev At (s : State κ ρ) (i : Nat) (t : Ticket κ ρ) : Prop := s.tickets[i]? = some t

/-- The promise that a ticket hangs on has settled. -/
def IsFree (s : State κ ρ) : Option Nat → Prop
  | none => True
  | some j => ∃ t, s.At j t ∧ t.settled = true

def put (s : State κ ρ) (i : Nat) (t : Ticket κ ρ) : State κ ρ :=
  { s with tickets := s.tickets.set i t }

theorem at_put {s : State κ ρ} {i m : Nat} {t q : Ticket κ ρ} :
    (s.put i t).At m q ↔ (s.tickets.set i t)[m]? = some q := Iff.rfl

end State

section Steps

variable [DecidableEq κ]

/-- A new ticket hangs on the promise in the lock. -/
def arrive (s : State κ ρ) (key : κ) : State κ ρ where
  tickets := s.tickets ++ [{ key := key, previous := s.tail key }]
  tail := Function.update s.tail key (some s.tickets.length)
  starts := s.starts

/-- A ticket that leaves takes its own promise out of the lock. -/
def leave (s : State κ ρ) (i : Nat) (t : Ticket κ ρ) (result : ρ) : State κ ρ where
  tickets := s.tickets.set i { t with returned := some result }
  tail := if s.tail t.key = some i then Function.update s.tail t.key none else s.tail
  starts := s.starts

/-- The reactions of ticket `i` to promises that have settled. -/
inductive Reaction (settles : Ticket κ ρ → Prop) (s : State κ ρ) : State κ ρ → Prop where
  | prepare {i : Nat} {t : Ticket κ ρ} : s.At i t → s.IsFree t.previous →
      t.prepared = false → Reaction settles s (s.put i { t with prepared := true })
  | start {i : Nat} {t : Ticket κ ρ} : s.At i t → t.prepared = true →
      t.phase = .waiting → Reaction settles s
        { s.put i { t with phase := .running } with starts := s.starts ++ [i] }
  | settle {i : Nat} {t : Ticket κ ρ} : s.At i t → settles t → t.settled = false →
      Reaction settles s (s.put i { t with settled := true })
  | leave {i : Nat} {t : Ticket κ ρ} {result : ρ} : s.At i t →
      t.phase = .ended result → t.returned = none →
      Reaction settles s (leave s i t result)

/-- A step: a call draws a ticket, a task ends, or a reaction runs. -/
inductive Step (settles : Ticket κ ρ → Prop) (s : State κ ρ) : State κ ρ → Prop where
  | arrive (key : κ) : Step settles s (arrive s key)
  | finish {i : Nat} {t : Ticket κ ρ} (result : ρ) : s.At i t → t.phase = .running →
      Step settles s (s.put i { t with phase := .ended result })
  | react {s' : State κ ρ} : Reaction settles s s' → Step settles s s'

abbrev Reached (settles : Ticket κ ρ → Prop) : State κ ρ → Prop :=
  Relation.ReflTransGen (Step settles) {}

end Steps

/-! ## What the chain keeps -/

section Chain

variable {settles : Ticket κ ρ → Prop} {s s' : State κ ρ} {i m : Nat} {t t' q : Ticket κ ρ}

/-- A ticket that is a later state of another. -/
structure Advances (t t' : Ticket κ ρ) : Prop where
  key : t'.key = t.key
  previous : t'.previous = t.previous
  ended : t.hasEnded → t'.hasEnded

/-- A task starts on a prepared ticket, and only an ended one settles the promise and leaves. -/
structure Ticket.Sound (t : Ticket κ ρ) : Prop where
  prepared : t.phase ≠ .waiting → t.prepared = true
  settled : t.settled = true → t.hasEnded
  returned : ∀ result, t.returned = some result → t.phase = .ended result

/-- The tasks with the key of ticket `i` that were called before it have ended. -/
def EarlierEnded (s : State κ ρ) (i : Nat) (t : Ticket κ ρ) : Prop :=
  ∀ m q, m < i → s.At m q → q.key = t.key → q.hasEnded

structure Chained (s : State κ ρ) : Prop where
  sound : ∀ i t, s.At i t → t.Sound
  /-- A ticket hangs on an earlier one of its key. -/
  hangs : ∀ i t j, s.At i t → t.previous = some j →
    j < i ∧ ∃ p, s.At j p ∧ p.key = t.key
  /-- The tasks that are not behind the promise a ticket hangs on have ended. -/
  passed : ∀ i t m q, s.At i t → s.At m q → m < i → q.key = t.key →
    q.hasEnded ∨ ∃ j, t.previous = some j ∧ m ≤ j
  gate : ∀ i t, s.At i t → t.prepared = true → EarlierEnded s i t
  /-- The promise in the lock belongs to a ticket that has not left. -/
  present : ∀ key j, s.tail key = some j →
    ∃ p, s.At j p ∧ p.key = key ∧ p.returned = none
  /-- The tasks of the tickets that are not behind the promise in the lock have ended. -/
  last : ∀ m q, s.At m q → q.hasEnded ∨ ∃ j, s.tail q.key = some j ∧ m ≤ j

theorem Ticket.hasEnded.ne_waiting (h : t.hasEnded) : t.phase ≠ .waiting := by
  obtain ⟨result, hphase⟩ := h
  simp [hphase]

theorem Ticket.hasEnded.ne_running (h : t.hasEnded) : t.phase ≠ .running := by
  obtain ⟨result, hphase⟩ := h
  simp [hphase]

theorem advances_refl (t : Ticket κ ρ) : Advances t t := ⟨rfl, rfl, id⟩

/-- A ticket after one was put in its place. -/
theorem getElem?_put (hget : s.At i t) (hadv : Advances t t')
    (hq : (s.put i t').At m q) :
    ∃ q₀, s.At m q₀ ∧ Advances q₀ q ∧ (m = i ∧ q = t' ∨ m ≠ i ∧ q = q₀) := by
  rw [State.at_put, List.getElem?_set] at hq
  by_cases him : i = m
  · subst him
    rw [if_pos rfl] at hq
    split at hq
    · obtain rfl := Option.some.inj hq
      exact ⟨t, hget, hadv, .inl ⟨rfl, rfl⟩⟩
    · exact absurd hq (by simp)
  · rw [if_neg him] at hq
    exact ⟨q, hq, advances_refl q, .inr ⟨Ne.symm him, rfl⟩⟩

theorem put_of_getElem? (hget : s.At i t) (hadv : Advances t t')
    (hq : s.At m q) :
    ∃ q', (s.put i t').At m q' ∧ Advances q q' ∧ (m = i ∧ q' = t' ∨ m ≠ i ∧ q' = q) := by
  simp only [State.at_put, List.getElem?_set]
  by_cases him : i = m
  · subst him
    obtain rfl : t = q := Option.some.inj (hget.symm.trans hq)
    have hlt := (List.getElem?_eq_some_iff.1 hget).1
    exact ⟨t', by rw [if_pos rfl, if_pos hlt], hadv, .inl ⟨rfl, rfl⟩⟩
  · exact ⟨q, by rw [if_neg him, hq], advances_refl q, .inr ⟨Ne.symm him, rfl⟩⟩

theorem EarlierEnded.put (h : EarlierEnded s m q) (hget : s.At i t)
    (hadv : Advances t t') {q' : Ticket κ ρ} (hkey : q'.key = q.key) :
    EarlierEnded (s.put i t') m q' := by
  intro n r hlt hr hrkey
  obtain ⟨r₀, hr₀, hadv₀, -⟩ := getElem?_put hget hadv hr
  exact hadv₀.ended (h n r₀ hlt hr₀ (by rw [← hadv₀.key, hrkey, hkey]))

/-- **The step lemma of a ticket.** A sound later state of a ticket keeps the chain. -/
theorem Chained.put (h : Chained s) (hget : s.At i t) (hadv : Advances t t')
    (hsound : t'.Sound) (hpresent : t'.returned = t.returned ∨ s.tail t.key ≠ some i)
    (hgate : t'.prepared = true → EarlierEnded s i t) : Chained (s.put i t') where
  sound := by
    intro m q hq
    obtain ⟨q₀, hq₀, -, ⟨-, rfl⟩ | ⟨-, rfl⟩⟩ := getElem?_put hget hadv hq
    · exact hsound
    · exact h.sound m _ hq₀
  hangs := by
    intro m q j hq hj
    obtain ⟨q₀, hq₀, hadv₀, -⟩ := getElem?_put hget hadv hq
    obtain ⟨hlt, p, hp, hkey⟩ := h.hangs m q₀ j hq₀ (hadv₀.previous ▸ hj)
    obtain ⟨p', hp', hadv', -⟩ := put_of_getElem? hget hadv hp
    exact ⟨hlt, p', hp', by rw [hadv'.key, hkey, hadv₀.key]⟩
  passed := by
    intro m q n r hq hr hlt hkey
    obtain ⟨q₀, hq₀, hadvq, -⟩ := getElem?_put hget hadv hq
    obtain ⟨r₀, hr₀, hadvr, -⟩ := getElem?_put hget hadv hr
    rw [hadvq.key, hadvr.key] at hkey
    rw [hadvq.previous]
    exact (h.passed m q₀ n r₀ hq₀ hr₀ hlt hkey).imp_left hadvr.ended
  gate := by
    intro m q hq hprepared
    obtain ⟨q₀, hq₀, hadvq, ⟨rfl, rfl⟩ | ⟨-, rfl⟩⟩ := getElem?_put hget hadv hq
    · exact (hgate hprepared).put hget hadv hadv.key
    · exact (h.gate m _ hq₀ hprepared).put hget hadv rfl
  present := by
    intro key j hj
    obtain ⟨p, hp, hkey, hreturn⟩ := h.present key j hj
    obtain ⟨p', hp', hadv', hcases⟩ := put_of_getElem? hget hadv hp
    refine ⟨p', hp', hadv'.key.trans hkey, ?_⟩
    rcases hcases with ⟨rfl, rfl⟩ | ⟨-, rfl⟩
    · obtain rfl : t = p := Option.some.inj (hget.symm.trans hp)
      rcases hpresent with hreturned | hne
      · exact hreturned.trans hreturn
      · exact absurd (hkey ▸ hj) hne
    · exact hreturn
  last := by
    intro m q hq
    obtain ⟨q₀, hq₀, hadvq, -⟩ := getElem?_put hget hadv hq
    rw [hadvq.key]
    exact (h.last m q₀ hq₀).imp_left hadvq.ended

/-- A ticket whose promise is free has no earlier task before it. -/
theorem Chained.earlierEnded (h : Chained s) (hget : s.At i t)
    (hfree : s.IsFree t.previous) : EarlierEnded s i t := by
  intro m q hlt hq hkey
  rcases h.passed i t m q hget hq hlt hkey with hended | ⟨j, hj, hle⟩
  · exact hended
  · obtain ⟨-, p, hp, hpkey⟩ := h.hangs i t j hget hj
    rw [hj] at hfree
    obtain ⟨p', hp', hsettled⟩ := hfree
    obtain rfl : p = p' := Option.some.inj (hp.symm.trans hp')
    have hended := (h.sound j p hp).settled hsettled
    rcases Nat.lt_or_eq_of_le hle with hmj | rfl
    · -- the ticket ahead has ended, so the ones before it have
      have hprepared := (h.sound j p hp).prepared hended.ne_waiting
      exact h.gate j p hp hprepared m q hmj hq (hkey.trans hpkey.symm)
    · obtain rfl : q = p := Option.some.inj (hq.symm.trans hp)
      exact hended

theorem lt_of_getElem? (hq : s.At m q) : m < s.tickets.length :=
  (List.getElem?_eq_some_iff.1 hq).1

/-- The key of ticket `i`. -/
def State.keyAt (s : State κ ρ) (i : Nat) : Option κ := s.tickets[i]?.map Ticket.key

theorem keyAt_put (hget : s.At i t) (hkey : t'.key = t.key) :
    (s.put i t').keyAt = s.keyAt := by
  funext m
  simp only [State.keyAt, State.put, List.getElem?_set]
  by_cases him : i = m
  · subst him
    rw [if_pos rfl, if_pos (lt_of_getElem? hget), hget]
    exact congrArg some hkey
  · rw [if_neg him]

/-- The starts are those of the tasks that are not waiting, in the order of the tickets of a key. -/
structure Started (s : State κ ρ) : Prop where
  mem_iff : ∀ i t, s.At i t → (i ∈ s.starts ↔ t.phase ≠ .waiting)
  drawn : ∀ i ∈ s.starts, i < s.tickets.length
  order : s.starts.Pairwise fun a b => s.keyAt a = s.keyAt b → a < b

theorem Started.put (h : Started s) (hget : s.At i t) (hadv : Advances t t')
    (hphase : t'.phase ≠ .waiting ↔ t.phase ≠ .waiting) : Started (s.put i t') where
  mem_iff := by
    intro m q hq
    obtain ⟨q₀, hq₀, -, ⟨rfl, rfl⟩ | ⟨-, rfl⟩⟩ := getElem?_put hget hadv hq
    · exact (h.mem_iff m t hget).trans hphase.symm
    · exact h.mem_iff m _ hq₀
  drawn := by
    intro m hm
    rw [State.put, List.length_set]
    exact h.drawn m hm
  order := by
    rw [keyAt_put hget hadv.key]
    exact h.order

/-- A task that starts now comes after the started ones of its key. -/
theorem Started.start (h : Started s) (hchained : Chained s) (hget : s.At i t)
    (hwaiting : t.phase = .waiting) :
    Started { s.put i { t with phase := .running } with starts := s.starts ++ [i] } := by
  have hadv : Advances t { t with phase := .running } :=
    ⟨rfl, rfl, fun hended => absurd hwaiting hended.ne_waiting⟩
  refine ⟨fun m q hq => ?_, fun m hm => ?_, ?_⟩
  · rw [List.mem_append, List.mem_singleton]
    obtain ⟨q₀, hq₀, -, ⟨rfl, rfl⟩ | ⟨hne, rfl⟩⟩ := getElem?_put hget hadv hq
    · exact iff_of_true (.inr rfl) (by simp)
    · rw [h.mem_iff m _ hq₀]
      exact ⟨fun hor => hor.resolve_right hne, .inl⟩
  · show m < (s.put i _).tickets.length
    rw [State.put, List.length_set]
    rcases List.mem_append.1 hm with hm | hm
    · exact h.drawn m hm
    · rw [List.mem_singleton.1 hm]
      exact lt_of_getElem? hget
  · show (s.starts ++ [i]).Pairwise fun a b => (s.put i _).keyAt a = (s.put i _).keyAt b → a < b
    rw [keyAt_put hget hadv.key, List.pairwise_append]
    refine ⟨h.order, List.pairwise_singleton _ _, fun a ha b hb hkey => ?_⟩
    obtain rfl := List.mem_singleton.1 hb
    -- a later ticket that has started would have seen this one end
    by_contra hle
    obtain ⟨u, hu⟩ : ∃ u, s.At a u :=
      ⟨_, List.getElem?_eq_getElem (h.drawn a ha)⟩
    have hstarted := (h.mem_iff a u hu).1 ha
    have hukey : u.key = t.key := by
      rw [State.keyAt, State.keyAt, hu, hget] at hkey
      exact Option.some.inj hkey
    rcases Nat.lt_or_eq_of_le (not_lt.1 hle) with hlt | rfl
    · have hprepared := (hchained.sound a u hu).prepared hstarted
      exact (hchained.gate a u hu hprepared _ t hlt hget hukey.symm).ne_waiting hwaiting
    · obtain rfl : t = u := Option.some.inj (hget.symm.trans hu)
      exact hstarted hwaiting

/-! ## What the steps keep -/

variable [DecidableEq κ]

theorem tail_arrive (key key' : κ) : (arrive s key).tail key' =
    Function.update s.tail key (some s.tickets.length) key' := rfl

theorem getElem?_arrive {key : κ} (hq : (arrive s key).At m q) :
    s.At m q ∨
      m = s.tickets.length ∧ q = { key := key, previous := s.tail key } := by
  change (s.tickets ++ [_])[m]? = some q at hq
  rw [List.getElem?_append] at hq
  split at hq
  · exact .inl hq
  · rw [List.getElem?_singleton] at hq
    split at hq
    · exact .inr ⟨by omega, (Option.some.inj hq).symm⟩
    · exact absurd hq (by simp)

theorem arrive_of_getElem? (key : κ) (hq : s.At m q) :
    (arrive s key).At m q :=
  (List.getElem?_append_left (lt_of_getElem? hq)).trans hq

/-- A new ticket is behind the promise in the lock. -/
theorem Chained.arrive (h : Chained s) (key : κ) : Chained (arrive s key) where
  sound := by
    intro m q hq
    rcases getElem?_arrive hq with hq | ⟨-, rfl⟩
    · exact h.sound m q hq
    · exact ⟨fun hne => absurd rfl hne, by simp, by simp⟩
  hangs := by
    intro m q j hq hj
    rcases getElem?_arrive hq with hq | ⟨rfl, rfl⟩
    · obtain ⟨hlt, p, hp, hkey⟩ := h.hangs m q j hq hj
      exact ⟨hlt, p, arrive_of_getElem? key hp, hkey⟩
    · obtain ⟨p, hp, hkey, -⟩ := h.present key j hj
      exact ⟨lt_of_getElem? hp, p, arrive_of_getElem? key hp, hkey⟩
  passed := by
    intro m q n r hq hr hlt hkey
    rcases getElem?_arrive hr with hr | ⟨rfl, rfl⟩
    · rcases getElem?_arrive hq with hq | ⟨rfl, rfl⟩
      · exact h.passed m q n r hq hr hlt hkey
      · rw [← show r.key = key from hkey]
        exact h.last n r hr
    · rcases getElem?_arrive hq with hq | ⟨rfl, -⟩
      · exact absurd (lt_of_getElem? hq) (by omega)
      · omega
  gate := by
    intro m q hq hprepared n r hlt hr hkey
    rcases getElem?_arrive hq with hq | ⟨rfl, rfl⟩
    · rcases getElem?_arrive hr with hr | ⟨rfl, -⟩
      · exact h.gate m q hq hprepared n r hlt hr hkey
      · exact absurd (lt_of_getElem? hq) (by omega)
    · exact absurd hprepared (by simp)
  present := by
    intro key' j hj
    rw [tail_arrive, Function.update_apply] at hj
    split at hj
    · rename_i heq
      obtain rfl := Option.some.inj hj
      exact ⟨_, List.getElem?_concat_length, heq.symm, rfl⟩
    · obtain ⟨p, hp, hrest⟩ := h.present key' j hj
      exact ⟨p, arrive_of_getElem? key hp, hrest⟩
  last := by
    intro m q hq
    by_cases hkey : q.key = key
    · refine .inr ⟨s.tickets.length, ?_, ?_⟩
      · rw [tail_arrive, hkey, Function.update_self]
      · rcases getElem?_arrive hq with hq | ⟨rfl, -⟩
        · exact (lt_of_getElem? hq).le
        · exact Nat.le_refl _
    · rcases getElem?_arrive hq with hq | ⟨-, rfl⟩
      · simp only [tail_arrive, Function.update_of_ne hkey]
        exact h.last m q hq
      · exact absurd rfl hkey

/-- A ticket that leaves is sound, and the promise in the lock is another's. -/
theorem Chained.leave (h : Chained s) (hget : s.At i t) {result : ρ}
    (hphase : t.phase = .ended result) : Chained (leave s i t result) := by
  have hsound := h.sound i t hget
  have hearlier := h.gate i t hget (hsound.prepared (by simp [hphase]))
  have hreturned : ({ t with returned := some result } : Ticket κ ρ).Sound :=
    ⟨hsound.prepared, hsound.settled, fun r hr => by rw [← Option.some.inj hr]; exact hphase⟩
  have hadv : Advances t { t with returned := some result } := ⟨rfl, rfl, id⟩
  by_cases htail : s.tail t.key = some i
  · have hcleared : Chained { s with tail := Function.update s.tail t.key none } := by
      refine ⟨h.sound, h.hangs, h.passed, h.gate, fun key j hj => ?_, fun m q hq => ?_⟩
      · simp only [Function.update_apply] at hj
        split at hj
        · exact absurd hj (by simp)
        · exact h.present key j hj
      · by_cases hkey : q.key = t.key
        · left
          rcases h.last m q hq with hended | ⟨j, hj, hle⟩
          · exact hended
          · obtain rfl : i = j := Option.some.inj (htail.symm.trans (hkey ▸ hj))
            rcases Nat.lt_or_eq_of_le hle with hlt | rfl
            · exact hearlier m q hlt hq hkey
            · obtain rfl : t = q := Option.some.inj (hget.symm.trans hq)
              exact ⟨result, hphase⟩
        · simp only [Function.update_of_ne hkey]
          exact h.last m q hq
    rw [ChainedLock.leave, if_pos htail]
    refine hcleared.put hget hadv hreturned (.inr ?_) fun _ => hearlier
    simp
  · rw [ChainedLock.leave, if_neg htail]
    exact h.put hget hadv hreturned (.inr htail) fun _ => hearlier

theorem keyAt_arrive {key : κ} (hm : m < s.tickets.length) :
    (arrive s key).keyAt m = s.keyAt m := by
  rw [State.keyAt, arrive, List.getElem?_append_left hm, State.keyAt]

theorem Started.arrive (h : Started s) (key : κ) : Started (arrive s key) where
  mem_iff := by
    intro m q hq
    rcases getElem?_arrive hq with hq | ⟨rfl, rfl⟩
    · exact h.mem_iff m q hq
    · exact ⟨fun hm => absurd (h.drawn _ hm) (lt_irrefl _), fun hne => absurd rfl hne⟩
  drawn := by
    intro m hm
    rw [ChainedLock.arrive, List.length_append]
    exact Nat.lt_add_right 1 (h.drawn m hm)
  order := by
    refine h.order.imp_of_mem fun ha hb hab hkey => hab ?_
    rwa [keyAt_arrive (h.drawn _ ha), keyAt_arrive (h.drawn _ hb)] at hkey

/-- **The step lemma.** -/
theorem inv_step (hsettles : ∀ t : Ticket κ ρ, settles t → t.hasEnded) (hchained : Chained s)
    (hstarted : Started s) (hstep : Step settles s s') : Chained s' ∧ Started s' := by
  cases hstep with
  | arrive key => exact ⟨hchained.arrive key, hstarted.arrive key⟩
  | @finish i t result hget hphase =>
      have hsound := hchained.sound i t hget
      have hprepared := hsound.prepared (by simp [hphase])
      have hadv : Advances t { t with phase := .ended result } := ⟨rfl, rfl, fun _ => ⟨result, rfl⟩⟩
      have hrunning : ¬ t.hasEnded := fun hended => hended.ne_running hphase
      refine ⟨hchained.put hget hadv ⟨fun _ => hprepared, fun _ => ⟨result, rfl⟩, fun r hr => ?_⟩
        (.inl rfl) fun _ => hchained.gate i t hget hprepared, hstarted.put hget hadv ?_⟩
      · exact absurd ⟨r, hsound.returned r hr⟩ hrunning
      · rw [hphase]
        exact iff_of_true (by simp) (by simp)
  | react hreaction =>
      cases hreaction with
      | @prepare i t hget hfree _ =>
          have hsound := hchained.sound i t hget
          have hadv : Advances t { t with prepared := true } := ⟨rfl, rfl, id⟩
          exact ⟨hchained.put hget hadv ⟨fun _ => rfl, hsound.settled, hsound.returned⟩ (.inl rfl)
            fun _ => hchained.earlierEnded hget hfree, hstarted.put hget hadv Iff.rfl⟩
      | @start i t hget hprepared hwaiting =>
          have hsound := hchained.sound i t hget
          have hwaits : ¬ t.hasEnded := fun hended => hended.ne_waiting hwaiting
          have hadv : Advances t { t with phase := .running } :=
            ⟨rfl, rfl, fun hended => absurd hended hwaits⟩
          have hput := hchained.put hget hadv ⟨fun _ => hprepared,
            fun hsettled => absurd (hsound.settled hsettled) hwaits,
            fun r hr => absurd ⟨r, hsound.returned r hr⟩ hwaits⟩ (.inl rfl)
            fun _ => hchained.gate i t hget hprepared
          exact ⟨⟨hput.sound, hput.hangs, hput.passed, hput.gate, hput.present, hput.last⟩,
            hstarted.start hchained hget hwaiting⟩
      | @settle i t hget hmay _ =>
          have hsound := hchained.sound i t hget
          have hadv : Advances t { t with settled := true } := ⟨rfl, rfl, id⟩
          exact ⟨hchained.put hget hadv ⟨hsound.prepared, fun _ => hsettles t hmay,
            hsound.returned⟩ (.inl rfl) fun hprepared => hchained.gate i t hget hprepared,
            hstarted.put hget hadv Iff.rfl⟩
      | @leave i t result hget hphase _ =>
          have hadv : Advances t { t with returned := some result } := ⟨rfl, rfl, id⟩
          have hput := hstarted.put hget hadv Iff.rfl
          exact ⟨hchained.leave hget hphase, ⟨hput.mem_iff, hput.drawn, hput.order⟩⟩

/-- **The run lemma.** -/
theorem inv_of_reached (hsettles : ∀ t : Ticket κ ρ, settles t → t.hasEnded)
    (h : Reached settles s) : Chained s ∧ Started s := by
  induction h with
  | refl =>
      refine ⟨⟨?_, ?_, ?_, ?_, ?_, ?_⟩, ⟨?_, ?_, ?_⟩⟩ <;> simp
  | tail _ hstep ih => exact inv_step hsettles ih.1 ih.2 hstep

end Chain

/-! ## What a lock promises -/

section Promises

variable {settles : Ticket κ ρ → Prop} {s s' : State κ ρ}

/-- The reactions that a ticket has ahead of it, at most. -/
def Ticket.work (t : Ticket κ ρ) : Nat :=
  (if t.prepared then 0 else 1) + (match t.phase with | .waiting => 1 | _ => 0) +
    (if t.settled then 0 else 1) + (if t.returned.isSome then 0 else 1)

def State.work (s : State κ ρ) : Nat := (s.tickets.map Ticket.work).sum

theorem sum_work_set {tickets : List (Ticket κ ρ)} {i : Nat} {t t' : Ticket κ ρ}
    (hget : tickets[i]? = some t) (hless : t'.work < t.work) :
    ((tickets.set i t').map Ticket.work).sum < (tickets.map Ticket.work).sum := by
  induction tickets generalizing i with
  | nil => exact absurd hget (by simp)
  | cons u tickets ih =>
      cases i with
      | zero =>
          obtain rfl : u = t := by simpa using hget
          simpa using hless
      | succ i =>
          have hrest := ih (i := i) (by simpa using hget)
          simpa using hrest

variable [DecidableEq κ]

/-- Reactions run out. -/
theorem Reaction.work_lt (h : Reaction settles s s') : s'.work < s.work := by
  cases h with
  | prepare hget _ hprepared => exact sum_work_set hget (by simp [Ticket.work, hprepared])
  | start hget _ hwaiting => exact sum_work_set hget (by simp [Ticket.work, hwaiting])
  | settle hget _ hsettled => exact sum_work_set hget (by simp [Ticket.work, hsettled])
  | leave hget _ hreturned => exact sum_work_set hget (by simp [Ticket.work, hreturned])

/-- What a lock promises in a state. -/
structure Serialises (settles : Ticket κ ρ → Prop) (s : State κ ρ) : Prop where
  /-- Tasks with one key do not overlap. -/
  exclusive : ∀ i j t u, s.At i t → s.At j u →
    t.phase = .running → u.phase = .running → t.key = u.key → i = j
  /-- A task has started once, or waits. -/
  once : s.starts.Nodup ∧
    ∀ i t, s.At i t → (i ∈ s.starts ↔ t.phase ≠ .waiting)
  /-- The tasks with one key start in the order of the calls. -/
  order : s.starts.Pairwise fun a b => s.keyAt a = s.keyAt b → a < b
  /-- A call returns what its own task has ended with. -/
  own : ∀ i t result, s.At i t → t.returned = some result →
    t.phase = .ended result
  /-- Reactions run out, and when none is left a task waits for an earlier one of its key only, and
  the calls whose tasks have ended have returned. -/
  progress : (∀ s₁ s₂, Reaction settles s₁ s₂ → s₂.work < s₁.work) ∧
    ((∀ s', ¬ Reaction settles s s') → ∀ i t, s.At i t →
      (t.phase = .waiting →
        ∃ m q, m < i ∧ s.At m q ∧ q.key = t.key ∧ ¬ q.hasEnded) ∧
      (t.hasEnded → t.returned ≠ none))
  /-- When all calls have returned, the lock is empty. -/
  empty : (∀ t ∈ s.tickets, t.returned ≠ none) → ∀ key, s.tail key = none

theorem Reached.serialises (hsettles : ∀ t : Ticket κ ρ, settles t → t.hasEnded)
    (hlive : ∀ t : Ticket κ ρ, t.hasEnded → t.returned ≠ none → settles t)
    (h : Reached settles s) : Serialises settles s where
  exclusive := by
    obtain ⟨hchained, -⟩ := inv_of_reached hsettles h
    have hlt : ∀ i j t u, s.At i t → s.At j u → t.phase = .running →
        u.phase = .running → t.key = u.key → ¬ i < j := by
      intro i j t u ht hu hrunning hrunning' hkey hij
      have hprepared := (hchained.sound j u hu).prepared (by simp [hrunning'])
      exact (hchained.gate j u hu hprepared i t hij ht hkey).ne_running hrunning
    intro i j t u ht hu hrunning hrunning' hkey
    have hij := hlt i j t u ht hu hrunning hrunning' hkey
    have hji := hlt j i u t hu ht hrunning' hrunning hkey.symm
    omega
  once := by
    obtain ⟨-, hstarted⟩ := inv_of_reached hsettles h
    refine ⟨hstarted.order.imp ?_, hstarted.mem_iff⟩
    rintro a b hab rfl
    exact lt_irrefl a (hab rfl)
  order := (inv_of_reached hsettles h).2.order
  own := fun i t result hget => ((inv_of_reached hsettles h).1.sound i t hget).returned result
  progress := by
    refine ⟨fun s₁ s₂ => Reaction.work_lt, fun hquiet i t hget => ?_⟩
    obtain ⟨hchained, -⟩ := inv_of_reached hsettles h
    have hreturned : ∀ m q, s.At m q → q.hasEnded → q.returned ≠ none := by
      rintro m q hq ⟨result, hended⟩ hnone
      exact hquiet _ (.leave hq hended hnone)
    refine ⟨fun hwaiting => ?_, hreturned i t hget⟩
    by_contra hnone
    have hearlier : ∀ m q, m < i → s.At m q → q.key = t.key → q.hasEnded := by
      intro m q hlt hq hkey
      by_contra hnot
      exact hnone ⟨m, q, hlt, hq, hkey, hnot⟩
    -- the promise ahead has settled, so the ticket is prepared, so its task has started
    have hfree : s.IsFree t.previous := by
      cases hprevious : t.previous with
      | none => exact trivial
      | some j =>
          obtain ⟨hlt, p, hp, hkey⟩ := hchained.hangs i t j hget hprevious
          have hended := hearlier j p hlt hp hkey
          refine ⟨p, hp, ?_⟩
          by_contra hnot
          exact hquiet _ (.settle hp (hlive p hended (hreturned j p hp hended)) (by simpa using hnot))
    cases hprepared : t.prepared with
    | false => exact hquiet _ (.prepare hget hfree hprepared)
    | true => exact hquiet _ (.start hget hprepared hwaiting)
  empty := by
    intro hall key
    obtain ⟨hchained, -⟩ := inv_of_reached hsettles h
    cases htail : s.tail key with
    | none => rfl
    | some j =>
        obtain ⟨p, hp, -, hnone⟩ := hchained.present key j htail
        exact absurd hnone (hall p (List.mem_of_getElem? hp))

end Promises

end ChainedLock

end Nexus
