import Nexus.Lib.Prog
import Mathlib.Logic.Function.Basic
import Mathlib.Logic.Relation

/-!
# Interleavings of a pool of programs

Threads run programs over one shared state. A step picks a thread, takes the operation its program
stands at and executes it atomically; an operation that is not enabled (a lock that is held) cannot
be picked. A configuration keeps the log of the steps, so that a condition on the next step can
speak about what happened before it.

`Reach` is reachability under a condition on the steps. `Reach.invariant` is the induction over
runs: threads that meet a contract over a ghost state of their own keep meeting it while the other
threads step, so an invariant that links the shared state to the ghost states only has to be
preserved by the steps the contract allows. `play` executes a schedule.
-/

set_option autoImplicit false

namespace Nexus

/-- The shared state of a pool: how an operation is executed and when it is enabled. -/
structure Machine (Op : Type) (Ans : Op → Type) (σ : Type) where
  exec : σ → (o : Op) → σ × Ans o
  enabled : σ → Op → Prop

/-- One step of the log: the thread, its operation and the answer. -/
structure Entry (ι Op : Type) (Ans : Op → Type) where
  tid : ι
  op : Op
  ans : Ans op

/-- A configuration: the shared state, what is left of every thread's program, and the steps taken
so far, the last one first. -/
structure Config (ι Op : Type) (Ans : Op → Type) (ε α σ : Type) where
  world : σ
  threads : ι → Prog Op Ans ε α
  log : List (Entry ι Op Ans)

namespace Pool

variable {ι Op : Type} {Ans : Op → Type} {ε α σ γ : Type} [DecidableEq ι]

/-- The configuration before the first step. -/
def start (s : σ) (threads : ι → Prog Op Ans ε α) : Config ι Op Ans ε α σ := ⟨s, threads, []⟩

/-- The configuration after thread `t` executed the operation `o` its program stands at. -/
def advance (M : Machine Op Ans σ) (c : Config ι Op Ans ε α σ) (t : ι) (o : Op)
    (k : Ans o → Prog Op Ans ε α) : Config ι Op Ans ε α σ where
  world := (M.exec c.world o).1
  threads := Function.update c.threads t (k (M.exec c.world o).2)
  log := ⟨t, o, (M.exec c.world o).2⟩ :: c.log

/-- One step of some thread whose operation satisfies `cond` in the configuration before it. -/
def Step (M : Machine Op Ans σ) (cond : Config ι Op Ans ε α σ → ι → Op → Prop)
    (c c' : Config ι Op Ans ε α σ) : Prop :=
  ∃ (t : ι) (o : Op) (k : Ans o → Prog Op Ans ε α),
    c.threads t = .call o k ∧ M.enabled c.world o ∧ cond c t o ∧ c' = advance M c t o k

/-- Reachability by steps that satisfy `cond`. -/
abbrev Reach (M : Machine Op Ans σ) (cond : Config ι Op Ans ε α σ → ι → Op → Prop) :
    Config ι Op Ans ε α σ → Config ι Op Ans ε α σ → Prop :=
  Relation.ReflTransGen (Step M cond)

/-- No condition on the steps. -/
def anyStep (_ : Config ι Op Ans ε α σ) (_ : ι) (_ : Op) : Prop := True

variable {M : Machine Op Ans σ} {cond : Config ι Op Ans ε α σ → ι → Op → Prop}

/-- **Invariants of interleavings.** Every thread meets the contract `C` from its own ghost state.
`inv` holds of the first configuration and ghost states, and every step that the contract allows
the thread to take leads to an answer the contract knows, with `inv` kept. Then some ghost states
go with every reachable configuration. -/
theorem Reach.invariant {C : Contract Op Ans γ} {Q : α → γ → Prop} {E : ε → γ → Prop}
    {inv : Config ι Op Ans ε α σ → (ι → γ) → Prop} {c₀ c : Config ι Op Ans ε α σ} {g₀ : ι → γ}
    (hmeets : ∀ t, Prog.Meets C Q E (c₀.threads t) (g₀ t)) (hinit : inv c₀ g₀)
    (hstep : ∀ (c : Config ι Op Ans ε α σ) (g : ι → γ) (t : ι) (o : Op)
      (k : Ans o → Prog Op Ans ε α), inv c g → c.threads t = .call o k → C.pre (g t) o →
      M.enabled c.world o → cond c t o →
      ∃ g', C.post (g t) o (M.exec c.world o).2 g' ∧
        inv (advance M c t o k) (Function.update g t g'))
    (h : Reach M cond c₀ c) :
    ∃ g, inv c g ∧ ∀ t, Prog.Meets C Q E (c.threads t) (g t) := by
  induction h with
  | refl => exact ⟨g₀, hinit, hmeets⟩
  | @tail c c' _ hs ih =>
      obtain ⟨g, hinv, hm⟩ := ih
      obtain ⟨t, o, k, hthread, henabled, hcond, rfl⟩ := hs
      have ht := hm t
      rw [hthread, Prog.meets_call] at ht
      obtain ⟨g', hpost, hinv'⟩ := hstep c g t o k hinv hthread ht.1 henabled hcond
      refine ⟨Function.update g t g', hinv', fun u => ?_⟩
      by_cases hu : u = t
      · subst hu
        simp only [advance, Function.update_self]
        exact ht.2 _ _ hpost
      · simp only [advance, Function.update_of_ne hu]
        exact hm u

/-! ## Ghost states read off the log -/

/-- The ghost state of a thread after the steps of a log. -/
def track (next : γ → (o : Op) → Ans o → γ) (g₀ : ι → γ) : List (Entry ι Op Ans) → ι → γ
  | [], t => g₀ t
  | e :: log, t =>
      if e.tid = t then next (track next g₀ log t) e.op e.ans else track next g₀ log t

section Track

variable {next : γ → (o : Op) → Ans o → γ} {g₀ : ι → γ}

theorem track_advance_self {c : Config ι Op Ans ε α σ} {t : ι} {o : Op}
    {k : Ans o → Prog Op Ans ε α} :
    track next g₀ (advance M c t o k).log t =
      next (track next g₀ c.log t) o (M.exec c.world o).2 := by
  simp [advance, track]

theorem track_advance_of_ne {c : Config ι Op Ans ε α σ} {t u : ι} {o : Op}
    {k : Ans o → Prog Op Ans ε α} (h : u ≠ t) :
    track next g₀ (advance M c t o k).log u = track next g₀ c.log u := by
  simp [advance, track, Ne.symm h]

theorem track_advance {c : Config ι Op Ans ε α σ} {t : ι} {o : Op} {k : Ans o → Prog Op Ans ε α} :
    track next g₀ (advance M c t o k).log = Function.update (track next g₀ c.log) t
      (next (track next g₀ c.log t) o (M.exec c.world o).2) := by
  funext u
  by_cases hut : u = t
  · subst hut
    rw [Function.update_self]
    exact track_advance_self
  · rw [Function.update_of_ne hut]
    exact track_advance_of_ne hut

/-- The contract of a thread whose ghost state follows its steps: the operations it may issue, and
what is known of their answers. -/
def following (next : γ → (o : Op) → Ans o → γ) (issue : γ → Op → Prop)
    (answer : γ → (o : Op) → Ans o → Prop) : Contract Op Ans γ where
  pre := issue
  post g o ans g' := g' = next g o ans ∧ answer g o ans

/-- The threads keep to their contracts over a step. -/
theorem follows_advance {issue : ι → γ → Op → Prop} {answer : ι → γ → (o : Op) → Ans o → Prop}
    {Q : ι → α → γ → Prop} {E : ι → ε → γ → Prop} {c : Config ι Op Ans ε α σ} {t : ι} {o : Op}
    {k : Ans o → Prog Op Ans ε α}
    (hmeets : ∀ u, Prog.Meets (following next (issue u) (answer u)) (Q u) (E u) (c.threads u)
      (track next g₀ c.log u))
    (hthread : c.threads t = .call o k)
    (hanswer : answer t (track next g₀ c.log t) o (M.exec c.world o).2) (u : ι) :
    Prog.Meets (following next (issue u) (answer u)) (Q u) (E u) ((advance M c t o k).threads u)
      (track next g₀ (advance M c t o k).log u) := by
  by_cases hu : u = t
  · subst hu
    have ht := hmeets u
    rw [hthread, Prog.meets_call] at ht
    rw [track_advance_self]
    simp only [advance, Function.update_self]
    exact ht.2 _ _ ⟨rfl, hanswer⟩
  · rw [track_advance_of_ne hu]
    simp only [advance, Function.update_of_ne hu]
    exact hmeets u

/-- **Invariants of interleavings, with ghost states that follow the log.** -/
theorem Reach.follows {issue : ι → γ → Op → Prop} {answer : ι → γ → (o : Op) → Ans o → Prop}
    {Q : ι → α → γ → Prop} {E : ι → ε → γ → Prop} {inv : Config ι Op Ans ε α σ → Prop}
    {c₀ c : Config ι Op Ans ε α σ}
    (hmeets : ∀ t, Prog.Meets (following next (issue t) (answer t)) (Q t) (E t) (c₀.threads t)
      (track next g₀ c₀.log t))
    (hinit : inv c₀)
    (hstep : ∀ (c : Config ι Op Ans ε α σ) (t : ι) (o : Op) (k : Ans o → Prog Op Ans ε α),
      inv c → c.threads t = .call o k → issue t (track next g₀ c.log t) o →
      M.enabled c.world o → cond c t o →
      answer t (track next g₀ c.log t) o (M.exec c.world o).2 ∧ inv (advance M c t o k))
    (h : Reach M cond c₀ c) :
    inv c ∧ ∀ t, Prog.Meets (following next (issue t) (answer t)) (Q t) (E t) (c.threads t)
      (track next g₀ c.log t) := by
  induction h with
  | refl => exact ⟨hinit, hmeets⟩
  | @tail c c' _ hs ih =>
      obtain ⟨hinv, hm⟩ := ih
      obtain ⟨t, o, k, hthread, henabled, hcond, rfl⟩ := hs
      have ht := hm t
      rw [hthread, Prog.meets_call] at ht
      obtain ⟨hanswer, hinv'⟩ := hstep c t o k hinv hthread ht.1 henabled hcond
      exact ⟨hinv', follows_advance hm hthread hanswer⟩

end Track

/-- An invariant of the configurations alone. -/
theorem Reach.preserves {inv : Config ι Op Ans ε α σ → Prop} {c₀ c : Config ι Op Ans ε α σ}
    (hinit : inv c₀)
    (hstep : ∀ (c : Config ι Op Ans ε α σ) (t : ι) (o : Op) (k : Ans o → Prog Op Ans ε α),
      inv c → c.threads t = .call o k → M.enabled c.world o → cond c t o →
      inv (advance M c t o k))
    (h : Reach M cond c₀ c) : inv c := by
  induction h with
  | refl => exact hinit
  | @tail c c' _ hs ih =>
      obtain ⟨t, o, k, hthread, henabled, hcond, rfl⟩ := hs
      exact hstep c t o k ih hthread henabled hcond

/-! ## Schedules -/

section Play

variable [∀ s o, Decidable (M.enabled s o)]

/-- One step of thread `t`, if its program stands at an enabled operation. -/
def playStep (M : Machine Op Ans σ) [∀ s o, Decidable (M.enabled s o)]
    (c : Config ι Op Ans ε α σ) (t : ι) : Config ι Op Ans ε α σ :=
  match c.threads t with
  | .pure _ => c
  | .fail _ => c
  | .call o k => if M.enabled c.world o then advance M c t o k else c

/-- `n` steps of thread `t`. -/
def playSteps (M : Machine Op Ans σ) [∀ s o, Decidable (M.enabled s o)] (t : ι) :
    Nat → Config ι Op Ans ε α σ → Config ι Op Ans ε α σ
  | 0, c => c
  | n + 1, c => playSteps M t n (playStep M c t)

/-- Executes a schedule, a list of threads with the numbers of their steps. -/
def play (M : Machine Op Ans σ) [∀ s o, Decidable (M.enabled s o)] :
    List (ι × Nat) → Config ι Op Ans ε α σ → Config ι Op Ans ε α σ
  | [], c => c
  | (t, n) :: sched, c => play M sched (playSteps M t n c)

theorem reach_playStep (c : Config ι Op Ans ε α σ) (t : ι) :
    Reach M anyStep c (playStep M c t) := by
  unfold playStep
  split
  · exact .refl
  · exact .refl
  · rename_i o k hthread
    split
    · rename_i henabled
      exact .single ⟨t, o, k, hthread, henabled, trivial, rfl⟩
    · exact .refl

theorem reach_playSteps (t : ι) :
    ∀ (n : Nat) (c : Config ι Op Ans ε α σ), Reach M anyStep c (playSteps M t n c)
  | 0, _ => .refl
  | n + 1, c => (reach_playStep c t).trans (reach_playSteps t n (playStep M c t))

/-- Every schedule leads to a reachable configuration. -/
theorem reach_play :
    ∀ (sched : List (ι × Nat)) (c : Config ι Op Ans ε α σ), Reach M anyStep c (play M sched c)
  | [], _ => .refl
  | (t, n) :: sched, c => (reach_playSteps t n c).trans (reach_play sched _)

/-- Whether `n` steps of thread `t` all satisfy a condition. -/
def admitsSteps (M : Machine Op Ans σ) [∀ s o, Decidable (M.enabled s o)]
    (cond : Config ι Op Ans ε α σ → ι → Op → Prop) [∀ c t o, Decidable (cond c t o)] (t : ι) :
    Nat → Config ι Op Ans ε α σ → Bool
  | 0, _ => true
  | n + 1, c =>
      (match c.threads t with
        | .call o _ => decide (cond c t o)
        | _ => true) && admitsSteps M cond t n (playStep M c t)

/-- Whether every step of a schedule satisfies a condition. -/
def admits (M : Machine Op Ans σ) [∀ s o, Decidable (M.enabled s o)]
    (cond : Config ι Op Ans ε α σ → ι → Op → Prop) [∀ c t o, Decidable (cond c t o)] :
    List (ι × Nat) → Config ι Op Ans ε α σ → Bool
  | [], _ => true
  | (t, n) :: sched, c => admitsSteps M cond t n c && admits M cond sched (playSteps M t n c)

section Admits

variable [∀ c t o, Decidable (cond c t o)]

theorem reach_playSteps_of_admits (t : ι) :
    ∀ (n : Nat) (c : Config ι Op Ans ε α σ), admitsSteps M cond t n c = true →
      Reach M cond c (playSteps M t n c)
  | 0, _, _ => .refl
  | n + 1, c, h => by
      rw [admitsSteps, Bool.and_eq_true] at h
      refine Relation.ReflTransGen.trans ?_ (reach_playSteps_of_admits t n (playStep M c t) h.2)
      have hcond := h.1
      unfold playStep
      split
      · exact .refl
      · exact .refl
      · rename_i o k hthread
        rw [hthread] at hcond
        split
        · rename_i henabled
          exact .single ⟨t, o, k, hthread, henabled, of_decide_eq_true hcond, rfl⟩
        · exact .refl

/-- A schedule whose steps satisfy the condition leads to a configuration reachable under it. -/
theorem reach_play_of_admits :
    ∀ (sched : List (ι × Nat)) (c : Config ι Op Ans ε α σ), admits M cond sched c = true →
      Reach M cond c (play M sched c)
  | [], _, _ => .refl
  | (t, n) :: sched, c, h => by
      rw [admits, Bool.and_eq_true] at h
      exact (reach_playSteps_of_admits t n c h.1).trans (reach_play_of_admits sched _ h.2)

end Admits

end Play

end Pool

end Nexus
