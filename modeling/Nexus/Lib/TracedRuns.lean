import Nexus.Lib.Prog

/-!
# Runs with their steps

The contract of a program that runs alone, with the steps of the run in the ghost state: a property
of the final state may then speak about the steps that led to it. `Meets.run_traced` turns such a
contract into a statement about `run` and `trace`.
-/

set_option autoImplicit false

namespace Nexus

namespace Prog

variable {Op : Type} {Ans : Op → Type} {ε α σ : Type} (exec : σ → (o : Op) → σ × Ans o)

/-- A program that runs alone; the ghost state is the state with the steps so far. -/
def traced : Contract Op Ans (σ × List (σ × Op)) where
  pre _ _ := True
  post g o ans g' := exec g.1 o = (g'.1, ans) ∧ g'.2 = g.2 ++ [(g.1, o)]

/-- A program that meets the contract ends as it says, with its steps after the earlier ones. -/
theorem Meets.run_traced {Q : α → σ × List (σ × Op) → Prop} {E : ε → σ × List (σ × Op) → Prop}
    {p : Prog Op Ans ε α} {s : σ} {steps : List (σ × Op)}
    (h : Meets (traced exec) Q E p (s, steps)) :
    match p.run exec s with
    | (s', .ok a) => Q a (s', steps ++ p.trace exec s)
    | (s', .error e) => E e (s', steps ++ p.trace exec s) := by
  induction p generalizing s steps with
  | pure a => simpa [Prog.run, Prog.trace] using h
  | fail e => simpa [Prog.run, Prog.trace] using h
  | call o k ih =>
      have hstep := h.2 (exec s o).2 ((exec s o).1, steps ++ [(s, o)]) ⟨rfl, rfl⟩
      have hrest := ih (exec s o).2 hstep
      simpa [Prog.run, Prog.trace] using hrest

/-- Operations that keep a property together with the steps so far. -/
theorem Uses.traced {allowed : Op → Prop} {I : σ × List (σ × Op) → Prop} {p : Prog Op Ans ε α}
    {g : σ × List (σ × Op)} (hp : Uses allowed p) (hI : I g)
    (hstep : ∀ g o, I g → allowed o → I ((exec g.1 o).1, g.2 ++ [(g.1, o)])) :
    Meets (traced exec) (fun _ g' => I g') (fun _ g' => I g') p g := by
  apply Uses.meets hp hI
  · intro _ _ _ _
    exact trivial
  · rintro g o ans ⟨s', steps'⟩ hg ho ⟨hexec, rfl⟩
    have hs' : s' = (exec g.1 o).1 := (congrArg Prod.fst hexec).symm
    subst hs'
    exact hstep g o hg ho

end Prog

end Nexus
