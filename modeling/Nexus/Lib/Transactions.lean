import Nexus.Lib.Prog

/-!
# Transactions

`Transactional σ` is a state that other sessions see, with the state that one open transaction sees.
A write inside the transaction moves the second one only; a write of another session commits on its
own and moves both. `Prog.transactional` is the usual bracket of a program: begin, body, commit, and
a rollback when any of them throws. Its rule `Meets.transactional` splits a contract of the whole
into contracts of the parts.
-/

set_option autoImplicit false

namespace Nexus

/-- What is committed, and what the open transaction sees. -/
structure Transactional (σ : Type) where
  committed : σ
  working : Option σ := none

namespace Transactional

variable {σ α ε : Type} {t t' : Transactional σ} {a : α}

def start (t : Transactional σ) : Transactional σ := { t with working := some t.committed }

def commit (t : Transactional σ) : Transactional σ := { committed := t.working.getD t.committed }

def rollback (t : Transactional σ) : Transactional σ := { t with working := none }

/-- A statement of the transaction; without an open one it stands alone. -/
def inside (t : Transactional σ) (f : σ → Except ε σ) : Except ε (Transactional σ) :=
  match t.working with
  | some w => (f w).map fun w' => { t with working := some w' }
  | none => (f t.committed).map fun c => { t with committed := c }

/-- A write of another session. It has to succeed on both sides: a row that the open transaction has
changed is locked, and the other session waits for it. -/
def outside (t : Transactional σ) (f : σ → Except ε (σ × α)) : Except ε (Transactional σ × α) := do
  let (c, a) ← f t.committed
  match t.working with
  | some w => do
      let (w', _) ← f w
      .ok (⟨c, some w'⟩, a)
  | none => .ok (⟨c, none⟩, a)

@[simp] theorem committed_start (t : Transactional σ) : t.start.committed = t.committed := rfl

@[simp] theorem working_start (t : Transactional σ) : t.start.working = some t.committed := rfl

@[simp] theorem committed_rollback (t : Transactional σ) :
    t.rollback.committed = t.committed := rfl

theorem committed_commit {w : σ} (h : t.working = some w) : t.commit.committed = w := by
  rw [commit, h]
  rfl

/-- A statement inside the open transaction is not seen outside. -/
theorem inside_ok {w : σ} {f : σ → Except ε σ} (hopen : t.working = some w)
    (h : t.inside f = .ok t') : ∃ w', f w = .ok w' ∧ t' = ⟨t.committed, some w'⟩ := by
  rw [inside, hopen] at h
  cases hf : f w with
  | error e =>
      simp only [hf] at h
      cases h
  | ok w' =>
      simp only [hf] at h
      exact ⟨w', rfl, (Except.ok.inj h).symm⟩

/-- A write of another session is seen on both sides. -/
theorem outside_ok {w : σ} {f : σ → Except ε (σ × α)} (hopen : t.working = some w)
    (h : t.outside f = .ok (t', a)) :
    ∃ c w' b, f t.committed = .ok (c, a) ∧ f w = .ok (w', b) ∧ t' = ⟨c, some w'⟩ := by
  rw [outside, hopen] at h
  cases hc : f t.committed with
  | error e =>
      rw [hc] at h
      cases h
  | ok r =>
      rw [hc] at h
      cases hw : f w with
      | error e =>
          simp only [hw] at h
          cases h
      | ok r' =>
          simp only [hw] at h
          obtain ⟨rfl, rfl⟩ := Prod.mk.inj (Except.ok.inj h)
          exact ⟨r.1, r'.1, r'.2, rfl, rfl, rfl⟩

/-- What another session writes, it finds in the committed state. -/
theorem outside_value {f : σ → Except ε (σ × α)} (h : t.outside f = .ok (t', a)) :
    ∃ c, f t.committed = .ok (c, a) := by
  rw [outside] at h
  cases hc : f t.committed with
  | error e =>
      rw [hc] at h
      cases h
  | ok r =>
      refine ⟨r.1, ?_⟩
      rw [hc] at h
      cases hopen : t.working with
      | none =>
          simp only [hopen] at h
          exact congrArg Except.ok (Prod.ext rfl (Prod.mk.inj (Except.ok.inj h)).2)
      | some w =>
          simp only [hopen] at h
          cases hw : f w with
          | error e =>
              simp only [hw] at h
              cases h
          | ok r' =>
              simp only [hw] at h
              exact congrArg Except.ok (Prod.ext rfl (Prod.mk.inj (Except.ok.inj h)).2)

end Transactional

namespace Prog

variable {Op : Type} {Ans : Op → Type} {ε α β γ : Type}

/-- Runs the body between `start` and `commit`; what is thrown is thrown on after `rollback`, whose
own exception is dropped. -/
def transactional (start commit rollback : Prog Op Ans ε Unit) (body : Prog Op Ans ε α) :
    Prog Op Ans ε α :=
  (start.bind fun _ => body.bind fun a => commit.bind fun _ => .pure a).handle fun e =>
    (rollback.handle fun _ => .pure ()).bind fun _ => .fail e

/-- A transaction meets a contract when its parts do: `I` holds in the open transaction, `K` after
the body, and `J` wherever something is thrown. -/
theorem Meets.transactional {C : Contract Op Ans γ} {I : γ → Prop} {J : ε → γ → Prop}
    {K Q : α → γ → Prop} {E : ε → γ → Prop} {start commit rollback : Prog Op Ans ε Unit}
    {body : Prog Op Ans ε α} {g : γ} (hstart : Meets C (fun _ g' => I g') J start g)
    (hbody : ∀ g', I g' → Meets C K J body g')
    (hcommit : ∀ a g', K a g' → Meets C (fun _ g'' => Q a g'') J commit g')
    (hrollback : ∀ e g', J e g' → Meets C (fun _ g'' => E e g'') (fun _ g'' => E e g'') rollback g') :
    Meets C Q E (transactional start commit rollback body) g := by
  apply meets_handle
  refine Meets.bind (Q := fun _ g' => I g') (hstart.mono (fun _ _ h => h) ?_) ?_
  · intro e g' hJ
    exact meets_bind (meets_handle ((hrollback e g' hJ).mono (fun _ _ h => h) fun _ _ h => h))
  · intro _ g' hI
    refine Meets.bind (Q := K) ((hbody g' hI).mono (fun _ _ h => h) ?_) ?_
    · intro e g'' hJ
      exact meets_bind (meets_handle ((hrollback e g'' hJ).mono (fun _ _ h => h) fun _ _ h => h))
    · intro a g'' hK
      refine Meets.bind (Q := fun _ g₃ => Q a g₃) ((hcommit a g'' hK).mono (fun _ _ h => h) ?_) ?_
      · intro e g₃ hJ
        exact meets_bind (meets_handle ((hrollback e g₃ hJ).mono (fun _ _ h => h) fun _ _ h => h))
      · intro _ g₃ hQ
        exact hQ

end Prog

end Nexus
