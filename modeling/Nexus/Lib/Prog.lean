import Mathlib.Data.List.Basic

/-!
# Programs over a set of operations

A program is the tree of the operations it issues, one branch for every answer, with values and
exceptions at its leaves. Every operation is one atomic step; what happens between two of them is
pure. The file defines the monad of programs and two readings of a program:

- `run` and `trace` execute it alone against a transition function of its operations;
- `Meets` states a contract about it: a ghost state is carried along every branch, each issued
  operation has to be allowed by the ghost state, and each answer moves the ghost state.

`Meets` over the transition function itself is the usual weakest precondition (`Meets.run`), and
over a ghost state of one thread it is a type of the thread that other threads do not disturb.
-/

set_option autoImplicit false

namespace Nexus

/-- Programs that issue operations `op : Op` answered in `Ans op`, throw `ε` and return `α`. -/
inductive Prog (Op : Type) (Ans : Op → Type) (ε α : Type) where
  | pure (a : α)
  | fail (e : ε)
  | call (op : Op) (k : Ans op → Prog Op Ans ε α)

namespace Prog

variable {Op : Type} {Ans : Op → Type} {ε α β : Type} {p : Prog Op Ans ε α}
  {f : α → Prog Op Ans ε β}

/-- Sequential composition; an exception ends the program. -/
def bind : Prog Op Ans ε α → (α → Prog Op Ans ε β) → Prog Op Ans ε β
  | .pure a, f => f a
  | .fail e, _ => .fail e
  | .call op k, f => .call op fun ans => bind (k ans) f

instance : Monad (Prog Op Ans ε) where
  pure := .pure
  bind := bind

/-- One operation. -/
def op (o : Op) : Prog Op Ans ε (Ans o) := .call o .pure

/-- Handles the exceptions of a program. -/
def handle : Prog Op Ans ε α → (ε → Prog Op Ans ε α) → Prog Op Ans ε α
  | .pure a, _ => .pure a
  | .fail e, h => h e
  | .call op k, h => .call op fun ans => handle (k ans) h

/-- The value a program has returned. -/
def value? : Prog Op Ans ε α → Option α
  | .pure a => some a
  | _ => none

/-- Whether a program stands at an operation. -/
def isRunning : Prog Op Ans ε α → Bool
  | .call _ _ => true
  | _ => false

theorem value?_eq_some {a : α} : p.value? = some a ↔ p = .pure a := by
  cases p <;> simp [value?]

@[simp] theorem pure_eq (a : α) : (Pure.pure a : Prog Op Ans ε α) = .pure a := rfl

@[simp] theorem bind_eq (p : Prog Op Ans ε α) (f : α → Prog Op Ans ε β) : p >>= f = p.bind f := rfl

@[simp] theorem pure_bind (a : α) (f : α → Prog Op Ans ε β) : bind (.pure a) f = f a := rfl

@[simp] theorem fail_bind (e : ε) (f : α → Prog Op Ans ε β) : bind (.fail e) f = .fail e := rfl

@[simp] theorem call_bind (o : Op) (k : Ans o → Prog Op Ans ε α) (f : α → Prog Op Ans ε β) :
    bind (.call o k) f = .call o fun ans => bind (k ans) f := rfl

theorem bind_assoc {δ : Type} (p : Prog Op Ans ε α) (f : α → Prog Op Ans ε β)
    (g : β → Prog Op Ans ε δ) : (p.bind f).bind g = p.bind fun a => (f a).bind g := by
  induction p with
  | pure a => rfl
  | fail e => rfl
  | call o k ih =>
      simp only [call_bind]
      congr 1
      funext ans
      exact ih ans

/-! ## Operations a program uses -/

/-- Every operation of the program, on every branch, is in `allowed`. -/
def Uses (allowed : Op → Prop) : Prog Op Ans ε α → Prop
  | .pure _ => True
  | .fail _ => True
  | .call o k => allowed o ∧ ∀ ans, Uses allowed (k ans)

variable {allowed : Op → Prop}

@[simp] theorem uses_pure (a : α) : Uses allowed (.pure a : Prog Op Ans ε α) := trivial

@[simp] theorem uses_fail (e : ε) : Uses allowed (.fail e : Prog Op Ans ε α) := trivial

theorem uses_op {o : Op} (h : allowed o) : Uses allowed (op o : Prog Op Ans ε (Ans o)) :=
  ⟨h, fun _ => trivial⟩

theorem uses_bind (hp : Uses allowed p) (hf : ∀ a, Uses allowed (f a)) :
    Uses allowed (p.bind f) := by
  induction p with
  | pure a => exact hf a
  | fail e => exact trivial
  | call o k ih => exact ⟨hp.1, fun ans => ih ans (hp.2 ans)⟩

theorem uses_handle {h : ε → Prog Op Ans ε α} (hp : Uses allowed p) (hh : ∀ e, Uses allowed (h e)) :
    Uses allowed (p.handle h) := by
  induction p with
  | pure a => exact trivial
  | fail e => exact hh e
  | call o k ih => exact ⟨hp.1, fun ans => ih ans (hp.2 ans)⟩

theorem uses_ite {P : Prop} [Decidable P] {q : Prog Op Ans ε α} (hp : Uses allowed p)
    (hq : Uses allowed q) : Uses allowed (if P then p else q) := by
  split
  · exact hp
  · exact hq

theorem Uses.mono {allowed' : Op → Prop} (hp : Uses allowed p) (h : ∀ o, allowed o → allowed' o) :
    Uses allowed' p := by
  induction p with
  | pure a => exact trivial
  | fail e => exact trivial
  | call o k ih => exact ⟨h o hp.1, fun ans => ih ans (hp.2 ans)⟩

/-! ## Execution -/

section Execution

variable {σ : Type} (exec : σ → (o : Op) → σ × Ans o) {s : σ}

/-- Executes the program alone. -/
def run : Prog Op Ans ε α → σ → σ × Except ε α
  | .pure a, s => (s, .ok a)
  | .fail e, s => (s, .error e)
  | .call o k, s => run (k (exec s o).2) (exec s o).1

/-- The operations of the execution, each with the state it is issued in. -/
def trace : Prog Op Ans ε α → σ → List (σ × Op)
  | .pure _, _ => []
  | .fail _, _ => []
  | .call o k, s => (s, o) :: trace (k (exec s o).2) (exec s o).1

@[simp] theorem run_pure (a : α) (s : σ) :
    run exec (.pure a : Prog Op Ans ε α) s = (s, .ok a) := rfl

@[simp] theorem run_fail (e : ε) (s : σ) :
    run exec (.fail e : Prog Op Ans ε α) s = (s, .error e) := rfl

@[simp] theorem run_call (o : Op) (k : Ans o → Prog Op Ans ε α) (s : σ) :
    run exec (.call o k) s = run exec (k (exec s o).2) (exec s o).1 := rfl

/-- A composition runs its second part from where the first returned. -/
theorem run_bind (p : Prog Op Ans ε α) (f : α → Prog Op Ans ε β) (s : σ) :
    run exec (p.bind f) s =
      match run exec p s with
      | (s', .ok a) => run exec (f a) s'
      | (s', .error e) => (s', .error e) := by
  induction p generalizing s with
  | pure a => rfl
  | fail e => rfl
  | call o k ih => exact ih _ _

/-- A handler runs from where the program threw. -/
theorem run_handle (p : Prog Op Ans ε α) (h : ε → Prog Op Ans ε α) (s : σ) :
    run exec (p.handle h) s =
      match run exec p s with
      | (s', .ok a) => (s', .ok a)
      | (s', .error e) => run exec (h e) s' := by
  induction p generalizing s with
  | pure a => rfl
  | fail e => rfl
  | call o k ih => exact ih _ _

theorem run_bind_ok {s' : σ} {a : α} (h : run exec p s = (s', .ok a)) (f : α → Prog Op Ans ε β) :
    run exec (p.bind f) s = run exec (f a) s' := by
  rw [run_bind, h]

theorem run_bind_error {s' : σ} {e : ε} (h : run exec p s = (s', .error e))
    (f : α → Prog Op Ans ε β) :
    run exec (p.bind f) s = (s', .error e) := by
  rw [run_bind, h]

end Execution

end Prog

/-! ## Contracts -/

/-- A contract of the operations over a ghost state: which operations may be issued, and which
ghost states an answer leads to. An answer that leads nowhere cannot occur. -/
structure Contract (Op : Type) (Ans : Op → Type) (γ : Type) where
  /-- The operation may be issued. -/
  pre : γ → Op → Prop
  /-- The answer is possible and leads to the new ghost state. -/
  post : γ → (o : Op) → Ans o → γ → Prop

namespace Prog

variable {Op : Type} {Ans : Op → Type} {ε α β γ : Type} {C : Contract Op Ans γ}
  {p : Prog Op Ans ε α} {f : α → Prog Op Ans ε β}

/-- On every branch from the ghost state the issued operations are allowed, and the leaves satisfy
`Q` (values) or `E` (exceptions). -/
def Meets (C : Contract Op Ans γ) (Q : α → γ → Prop) (E : ε → γ → Prop) :
    Prog Op Ans ε α → γ → Prop
  | .pure a, g => Q a g
  | .fail e, g => E e g
  | .call o k, g => C.pre g o ∧ ∀ ans g', C.post g o ans g' → Meets C Q E (k ans) g'

variable {Q : α → γ → Prop} {E : ε → γ → Prop}

@[simp] theorem meets_pure (a : α) (g : γ) :
    Meets C Q E (.pure a : Prog Op Ans ε α) g ↔ Q a g := Iff.rfl

@[simp] theorem meets_fail (e : ε) (g : γ) :
    Meets C Q E (.fail e : Prog Op Ans ε α) g ↔ E e g := Iff.rfl

theorem meets_call (o : Op) (k : Ans o → Prog Op Ans ε α) (g : γ) :
    Meets C Q E (.call o k) g ↔
      C.pre g o ∧ ∀ ans g', C.post g o ans g' → Meets C Q E (k ans) g' := Iff.rfl

variable {g : γ}

theorem meets_op {o : Op} {Q : Ans o → γ → Prop} (hpre : C.pre g o)
    (hpost : ∀ ans g', C.post g o ans g' → Q ans g') :
    Meets C Q E (op o : Prog Op Ans ε (Ans o)) g := ⟨hpre, hpost⟩

/-- A composition meets a contract when the rest does from wherever the first part returns. -/
theorem meets_bind {Q' : β → γ → Prop} (hp : Meets C (fun a g' => Meets C Q' E (f a) g') E p g) :
    Meets C Q' E (p.bind f) g := by
  induction p generalizing g with
  | pure a => exact hp
  | fail e => exact hp
  | call o k ih => exact ⟨hp.1, fun ans g' h => ih ans (hp.2 ans g' h)⟩

theorem Meets.mono {Q' : α → γ → Prop} {E' : ε → γ → Prop} (hp : Meets C Q E p g)
    (hQ : ∀ a g', Q a g' → Q' a g') (hE : ∀ e g', E e g' → E' e g') :
    Meets C Q' E' p g := by
  induction p generalizing g with
  | pure a => exact hQ a g hp
  | fail e => exact hE e g hp
  | call o k ih => exact ⟨hp.1, fun ans g' h => ih ans (hp.2 ans g' h)⟩

/-- `meets_bind` with the condition between the two parts named. -/
theorem Meets.bind {Q' : β → γ → Prop} (hp : Meets C Q E p g)
    (hf : ∀ a g', Q a g' → Meets C Q' E (f a) g') :
    Meets C Q' E (p.bind f) g :=
  meets_bind (hp.mono hf fun _ _ h => h)

theorem meets_handle {h : ε → Prog Op Ans ε α}
    (hp : Meets C Q (fun e g' => Meets C Q E (h e) g') p g) : Meets C Q E (p.handle h) g := by
  induction p generalizing g with
  | pure a => exact hp
  | fail e => exact hp
  | call o k ih => exact ⟨hp.1, fun ans g' h' => ih ans (hp.2 ans g' h')⟩

/-- A branch meets a contract when each side does where it is taken. -/
theorem meets_ite {P : Prop} [Decidable P] {q : Prog Op Ans ε α} (hp : P → Meets C Q E p g)
    (hq : ¬ P → Meets C Q E q g) :
    Meets C Q E (if P then p else q) g := by
  by_cases h : P
  · rw [if_pos h]
    exact hp h
  · rw [if_neg h]
    exact hq h

/-- A loop meets a contract when every pass keeps the property of the ghost state. -/
theorem meets_foldlM {δ : Type} {f : β → δ → Prog Op Ans ε β} {I : γ → Prop} {l : List δ} {b : β}
    (hI : I g) (hstep : ∀ d ∈ l, ∀ b g, I g → Meets C (fun _ g' => I g') E (f b d) g) :
    Meets C (fun _ g' => I g') E (l.foldlM f b) g := by
  induction l generalizing b g with
  | nil => exact hI
  | cons d l ih =>
      rw [List.foldlM_cons]
      exact (hstep d List.mem_cons_self b g hI).bind fun b' g' hg' =>
        ih hg' fun d' hd' => hstep d' (List.mem_cons_of_mem _ hd')

/-- A program whose operations are all allowed and keep a property of the ghost state. -/
theorem Uses.meets {allowed : Op → Prop} {I : γ → Prop} (hp : Uses allowed p) (hI : I g)
    (hpre : ∀ g o, I g → allowed o → C.pre g o)
    (hpost : ∀ g o ans g', I g → allowed o → C.post g o ans g' → I g') :
    Meets C (fun _ g' => I g') (fun _ g' => I g') p g := by
  induction p generalizing g with
  | pure a => exact hI
  | fail e => exact hI
  | call o k ih =>
      exact ⟨hpre g o hI hp.1, fun ans g' h => ih ans (hp.2 ans) (hpost g o ans g' hI hp.1 h)⟩

section Sequential

variable {σ : Type} (exec : σ → (o : Op) → σ × Ans o) {s : σ}

/-- The contract of a program that runs alone: the ghost state is the state itself, and every
operation issued satisfies `issue`. -/
def alone (issue : σ → Op → Prop) : Contract Op Ans σ where
  pre := issue
  post s o ans s' := exec s o = (s', ans)

variable {issue : σ → Op → Prop}

/-- A program that meets the contract of running alone ends as the contract says. -/
theorem Meets.run {issue : σ → Op → Prop} {Q : α → σ → Prop} {E : ε → σ → Prop}
    {p : Prog Op Ans ε α} {s : σ} (h : Meets (alone exec issue) Q E p s) :
    match p.run exec s with
    | (s', .ok a) => Q a s'
    | (s', .error e) => E e s' := by
  induction p generalizing s with
  | pure a => exact h
  | fail e => exact h
  | call o k ih => exact ih _ (h.2 _ _ rfl)

/-- Where a program ends is where `run` ends, under a contract whose answers are the ones of
`exec`. -/
theorem Meets.with_run_of {C : Contract Op Ans σ}
    (hC : ∀ s o ans s', C.post s o ans s' → exec s o = (s', ans)) {Q : α → σ → Prop}
    {E : ε → σ → Prop} (h : Meets C Q E p s) :
    Meets C (fun a s' => Q a s' ∧ p.run exec s = (s', .ok a))
      (fun e s' => E e s' ∧ p.run exec s = (s', .error e)) p s := by
  induction p generalizing s with
  | pure a => exact ⟨h, rfl⟩
  | fail e => exact ⟨h, rfl⟩
  | call o k ih =>
      refine ⟨h.1, fun ans s' hpost => ?_⟩
      have hexec : exec s o = (s', ans) := hC s o ans s' hpost
      have := ih ans (h.2 ans s' hpost)
      simpa only [Prog.run, hexec] using this

/-- Where a program that runs alone ends is where `run` ends. -/
theorem Meets.with_run {Q : α → σ → Prop} {E : ε → σ → Prop}
    (h : Meets (alone exec issue) Q E p s) :
    Meets (alone exec issue) (fun a s' => Q a s' ∧ p.run exec s = (s', .ok a))
      (fun e s' => E e s' ∧ p.run exec s = (s', .error e)) p s :=
  Meets.with_run_of exec (fun _ _ _ _ hpost => hpost) h

/-- A program that meets the contract of running alone issues allowed operations only. -/
theorem Meets.trace {Q : α → σ → Prop} {E : ε → σ → Prop} (h : Meets (alone exec issue) Q E p s) :
    ∀ e ∈ p.trace exec s, issue e.1 e.2 := by
  induction p generalizing s with
  | pure a => simp [Prog.trace]
  | fail e => simp [Prog.trace]
  | call o k ih =>
      intro e he
      rcases List.mem_cons.1 he with rfl | he
      · exact h.1
      · exact ih _ (h.2 _ _ rfl) e he

/-- What the allowed operations keep, a program that runs alone keeps. -/
theorem Uses.run {allowed : Op → Prop} {I : σ → Prop} (hp : Uses allowed p) (hI : I s)
    (hstep : ∀ s o, I s → allowed o → I (exec s o).1) :
    I (p.run exec s).1 := by
  induction p generalizing s with
  | pure a => exact hI
  | fail e => exact hI
  | call o k ih => exact ih _ (hp.2 _) (hstep s o hI hp.1)

/-- The contract of a program that runs alone, for the runs whose steps all satisfy `cond`. -/
def aloneWhen (cond : σ → Op → Prop) : Contract Op Ans σ where
  pre _ _ := True
  post s o ans s' := cond s o ∧ exec s o = (s', ans)

/-- `Meets.run` for a run whose steps all satisfy the condition. -/
theorem Meets.run_when {cond : σ → Op → Prop} {Q : α → σ → Prop} {E : ε → σ → Prop}
    {p : Prog Op Ans ε α} {s : σ} (h : Meets (aloneWhen exec cond) Q E p s)
    (hsteps : ∀ e ∈ p.trace exec s, cond e.1 e.2) :
    match p.run exec s with
    | (s', .ok a) => Q a s'
    | (s', .error e) => E e s' := by
  induction p generalizing s with
  | pure a => exact h
  | fail e => exact h
  | call o k ih =>
      have hcond : cond s o := hsteps (s, o) List.mem_cons_self
      apply ih _ (h.2 _ _ ⟨hcond, rfl⟩)
      intro e he
      exact hsteps e (List.mem_cons_of_mem _ he)

/-- `Meets.run_when` for a condition on the state alone. -/
theorem Meets.state_when {cond : σ → Op → Prop} {I : σ → Prop}
    (h : Meets (aloneWhen exec cond) (fun _ s' => I s') (fun _ s' => I s') p s)
    (hsteps : ∀ e ∈ p.trace exec s, cond e.1 e.2) : I (p.run exec s).1 := by
  have hends := h.run_when exec hsteps
  cases hrun : p.run exec s with
  | mk s' outcome =>
      rw [hrun] at hends
      cases outcome with
      | ok a => exact hends
      | error e => exact hends

end Sequential

end Prog

end Nexus
