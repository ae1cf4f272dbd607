import Nexus.Lib.Prog

/-!
# Programs that may be cut off

A process can stop between any two operations of its program. `runFor n` is the state that the
first `n` operations leave, `stepsFor n` are these operations, and `restFor n` is what is left of
the program. A program that meets the contract `interruptible` leaves a safe state wherever it is
cut off.
-/

set_option autoImplicit false

namespace Nexus.Prog

variable {Op : Type} {Ans : Op → Type} {ε α σ : Type} (exec : σ → (o : Op) → σ × Ans o)

/-- The state after the first `n` operations of a program, or after all of them. -/
def runFor : Nat → Prog Op Ans ε α → σ → σ
  | 0, _, s => s
  | _ + 1, .pure _, s => s
  | _ + 1, .fail _, s => s
  | n + 1, .call o k, s => runFor n (k (exec s o).2) (exec s o).1

/-- The first `n` operations of a program, each with the state it is issued in. -/
def stepsFor : Nat → Prog Op Ans ε α → σ → List (σ × Op)
  | 0, _, _ => []
  | _ + 1, .pure _, _ => []
  | _ + 1, .fail _, _ => []
  | n + 1, .call o k, s => (s, o) :: stepsFor n (k (exec s o).2) (exec s o).1

/-- What is left of a program after its first `n` operations. -/
def restFor : Nat → Prog Op Ans ε α → σ → Prog Op Ans ε α
  | 0, p, _ => p
  | _ + 1, .pure a, _ => .pure a
  | _ + 1, .fail e, _ => .fail e
  | n + 1, .call o k, s => restFor n (k (exec s o).2) (exec s o).1

/-- What every operation that satisfies `cond` keeps, a program whose steps satisfy it keeps. -/
theorem runFor_keeps_when {I : σ → Prop} {cond : σ → Op → Prop}
    (hexec : ∀ s o, I s → cond s o → I (exec s o).1) (p : Prog Op Ans ε α) (n : Nat) {s : σ}
    (h : I s) (hsteps : ∀ e ∈ p.stepsFor exec n s, cond e.1 e.2) : I (p.runFor exec n s) := by
  induction p generalizing s n with
  | pure a => cases n <;> exact h
  | fail e => cases n <;> exact h
  | call o k ih =>
      cases n with
      | zero => exact h
      | succ n =>
          have hcond : cond s o := hsteps (s, o) List.mem_cons_self
          apply ih _ n (hexec s o h hcond)
          exact fun e he => hsteps e (List.mem_cons_of_mem _ he)

/-- What every operation keeps, a program that is cut off keeps. -/
theorem runFor_keeps {I : σ → Prop} (hexec : ∀ s o, I s → I (exec s o).1) (p : Prog Op Ans ε α)
    (n : Nat) {s : σ} (h : I s) : I (p.runFor exec n s) :=
  runFor_keeps_when exec (fun s o h (_ : True) => hexec s o h) p n h fun _ _ => trivial

/-- The contract of a program that runs alone and may stop at any operation: the state an operation
is issued in is safe, and the steps satisfy `cond`. -/
def interruptible (safe : σ → Prop) (cond : σ → Op → Prop) : Contract Op Ans σ where
  pre s _ := safe s
  post s o ans s' := cond s o ∧ exec s o = (s', ans)

/-- Wherever the program is cut off, the state is safe. -/
theorem Meets.runFor {safe : σ → Prop} {cond : σ → Op → Prop} {Q : α → σ → Prop}
    {E : ε → σ → Prop} (hQ : ∀ a s, Q a s → safe s) (hE : ∀ e s, E e s → safe s)
    {p : Prog Op Ans ε α} {s : σ} (h : Meets (interruptible exec safe cond) Q E p s) {n : Nat}
    (hsteps : ∀ e ∈ p.stepsFor exec n s, cond e.1 e.2) : safe (p.runFor exec n s) := by
  induction p generalizing s n with
  | pure a => cases n <;> exact hQ a s h
  | fail e => cases n <;> exact hE e s h
  | call o k ih =>
      cases n with
      | zero => exact h.1
      | succ n =>
          have hcond : cond s o := hsteps (s, o) List.mem_cons_self
          apply ih _ (h.2 _ _ ⟨hcond, rfl⟩)
          intro e he
          exact hsteps e (List.mem_cons_of_mem _ he)

end Nexus.Prog
