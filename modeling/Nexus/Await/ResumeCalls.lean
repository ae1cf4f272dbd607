import Nexus.Await.AwaitRows
import Nexus.Await.ParentResume

/-!
# What a call does with one await

How far a call has come with the resume of one await, and the operations its program issues in
every phase: `resumeJobWithMessage` only within an attempt, an attempt of the reconciler only on a
promotion of its own or on a record listed as RESUMING and found older than the grace window, and a
failure of the parent only after a compare-and-set to CANCELLED.
-/

set_option autoImplicit false

namespace Nexus

/-! ## Phases -/

inductive AttemptPhase where
  | idle
  /-- The call has moved the await from WAITING to RESUMING. -/
  | promoted
  /-- The reconciler is about to resume the parent, or to give up. -/
  | attempting
  /-- `resumeJobWithMessage` has returned. -/
  | called
  | closed
  deriving DecidableEq, Repr

/-- What a call knows of an await. -/
structure ResumePhase where
  inFlight : Bool := false
  /-- The record among those listed. -/
  listed : Option AgentAwait := none
  /-- The last reading of the clock since the records were listed. -/
  reading : Option Nat := none
  /-- The last await the call has given up, and whether its compare-and-set moved it. -/
  gaveUp : Option (String × Bool) := none
  attempt : AttemptPhase := .idle

/-- The attempt after a compare-and-set of the await. -/
def AttemptPhase.afterSet (attempt : AttemptPhase) (sourceStatus : AgentAwaitStatus) (won : Bool) :
    AttemptPhase :=
  if sourceStatus = .waiting then (if won then .promoted else attempt) else .closed

/-- The phase after a step of the call. -/
def ResumePhase.next (awaitId : String) (phase : ResumePhase) :
    (o : AwaitOp) → o.Ans → ResumePhase
  | .beginReconcile, ans => { phase with inFlight := ans }
  | .endReconcile, _ => { phase with inFlight := false }
  | .findNonTerminal, ans =>
      { phase with
        listed := List.find? (fun x : AgentAwait => x.id = awaitId) ans
        reading := none }
  | .now, ans => { phase with reading := some ans }
  | .compareAndSetStatus id sourceStatus targetStatus, ans =>
      { phase with
        gaveUp := if sourceStatus = .resuming ∧ targetStatus = .cancelled then some (id, ans)
          else phase.gaveUp
        attempt := if id = awaitId then phase.attempt.afterSet sourceStatus ans
          else phase.attempt }
  | .attemptsFor id, _ => if id = awaitId then { phase with attempt := .attempting } else phase
  | .resumeJobWithMessage id _ _ _ _, ans =>
      if id = awaitId then
        { phase with attempt := if Option.isSome ans then .called else .closed }
      else phase
  | .publishProcessEvent _ (.failed id _), _ =>
      if id = awaitId then { phase with attempt := .closed } else phase
  | _, _ => phase

/-- No attempt of the reconciler is under way, and no resumed job is unaccounted for. -/
def ResumePhase.Quiet (phase : ResumePhase) : Prop :=
  phase.attempt ≠ .attempting ∧ phase.attempt ≠ .called

/-- The record was listed as RESUMING and has been found older than the grace window. -/
def ResumePhase.FoundStuck (grace : Nat) (phase : ResumePhase) : Prop :=
  ∃ record now, phase.listed = some record ∧ record.status = .resuming ∧
    phase.reading = some now ∧ record.updated_at + grace ≤ now

/-- The operations of a call, as far as they concern the await. -/
def ResumePhase.Issues (awaitId : String) (grace : Nat) (reconciler : Bool) (phase : ResumePhase) :
    AwaitOp → Prop
  | .beginReconcile => reconciler = true ∧ phase.inFlight = false ∧ phase.Quiet
  | .endReconcile => phase.inFlight = true ∧ phase.Quiet
  | .compareAndSetStatus id sourceStatus targetStatus =>
      (sourceStatus = .waiting ∧ targetStatus = .resuming ∧ (id = awaitId → phase.Quiet)) ∨
      (sourceStatus = .resuming ∧ targetStatus = .resumed ∧
        (id = awaitId → phase.attempt = .called)) ∨
      (sourceStatus = .resuming ∧ targetStatus = .cancelled ∧
        (id = awaitId → phase.attempt = .attempting))
  | .attemptsFor id => phase.inFlight = true ∧ (id = awaitId →
      phase.attempt = .promoted ∨ (phase.attempt = .idle ∧ phase.FoundStuck grace))
  | .resumeJobWithMessage id _ _ _ _ => id = awaitId →
      phase.attempt = .attempting ∨ (reconciler = false ∧ phase.attempt = .promoted)
  | .publishProcessEvent _ (.failed id _) => id = awaitId → phase.attempt ≠ .called
  | .handleJobFailed _ _ _ => phase.gaveUp.isSome = true
  | _ => True

/-- What is known of an answer. -/
def ResumePhase.Answers (_ : ResumePhase) : (o : AwaitOp) → o.Ans → Prop
  | .findById id, ans => ∀ entity, (ans : Option AgentAwait) = some entity → entity.id = id
  | .findNonTerminal, ans => ((ans : List AgentAwait).map AgentAwait.id).Nodup
  | _, _ => True

/-- The contract of a call between two phases. -/
abbrev ResumeSpec (awaitId : String) (grace : Nat) (reconciler : Bool) {α : Type} (p : Awaiting α)
    (phase : ResumePhase) (Q : α → ResumePhase → Prop) (E : AwaitError → ResumePhase → Prop) :
    Prop :=
  Prog.Meets (Pool.following (ResumePhase.next awaitId)
    (ResumePhase.Issues awaitId grace reconciler) ResumePhase.Answers) Q E p phase

section Calls

variable {awaitId : String} {grace : Nat} {reconciler : Bool} {phase : ResumePhase}
  {E : AwaitError → ResumePhase → Prop}

theorem resumeSpec_op {o : AwaitOp} (hissues : phase.Issues awaitId grace reconciler o) :
    ResumeSpec awaitId grace reconciler (awaitRepo o) phase (fun ans phase' =>
      phase' = phase.next awaitId o ans ∧ phase.Answers o ans) E := by
  apply Prog.meets_op hissues
  rintro ans phase' ⟨rfl, hans⟩
  exact ⟨rfl, hans⟩

/-- An operation that says nothing about the await. -/
theorem resumeSpec_silent {o : AwaitOp} (hissues : phase.Issues awaitId grace reconciler o)
    (hnext : ∀ ans, phase.next awaitId o ans = phase) :
    ResumeSpec awaitId grace reconciler (awaitRepo o) phase (fun _ phase' => phase' = phase) E := by
  apply Prog.meets_op hissues
  rintro ans phase' ⟨rfl, -⟩
  exact hnext ans

variable {id : String}

theorem findAwait_spec :
    ResumeSpec awaitId grace reconciler (findAwait id) phase (fun ans phase' =>
      phase' = phase ∧ ∀ entity, ans = some entity → entity.id = id) E := by
  apply Prog.meets_op trivial
  rintro ans phase' ⟨rfl, hans⟩
  exact ⟨rfl, hans⟩

/-! ### The join -/

theorem markSatisfied_silent {child : SatisfiedChild} :
    ResumeSpec awaitId grace reconciler (markSatisfied id child) phase
      (fun _ phase' => phase' = phase) E := by
  refine Prog.Meets.bind findAwait_spec ?_
  rintro ans _ ⟨rfl, -⟩
  cases ans with
  | none => exact rfl
  | some entity =>
      apply Prog.meets_ite
      · intro _
        exact rfl
      · intro _
        exact resumeSpec_silent trivial fun _ => rfl

theorem satisfyChild_silent {child : SatisfiedChild} :
    ResumeSpec awaitId grace reconciler (satisfyChild id child) phase
      (fun _ phase' => phase' = phase) E := by
  refine Prog.Meets.bind markSatisfied_silent ?_
  rintro _ _ rfl
  refine Prog.Meets.bind findAwait_spec ?_
  rintro ans _ ⟨rfl, -⟩
  cases ans with
  | none => exact rfl
  | some refreshed => exact resumeSpec_silent trivial fun _ => rfl

/-- The await has been promoted between two phases, or nothing has happened. -/
def ResumePhase.MayPromote (phase phase' : ResumePhase) : Prop :=
  phase' = phase ∨ phase' = { phase with attempt := .promoted }

variable {phase' : ResumePhase}

theorem MayPromote.trans {phase'' : ResumePhase} (h : phase.MayPromote phase')
    (h' : phase'.MayPromote phase'') : phase.MayPromote phase'' := by
  rcases h with rfl | rfl
  · exact h'
  · rcases h' with rfl | rfl
    · exact .inr rfl
    · exact .inr rfl

theorem MayPromote.quiet (h : phase.MayPromote phase') (hquiet : phase.Quiet) : phase'.Quiet := by
  rcases h with rfl | rfl
  · exact hquiet
  · exact ⟨by simp, by simp⟩

/-- The compare-and-set that promotes an await. -/
theorem promote_spec (hquiet : phase.Quiet) :
    ResumeSpec awaitId grace reconciler (compareAndSetStatus id .waiting .resuming) phase
      (fun won phase' => phase.MayPromote phase' ∧
        (won = true → id = awaitId → phase'.attempt = .promoted)) E := by
  apply Prog.meets_op (Or.inl ⟨rfl, rfl, fun _ => hquiet⟩)
  rintro ans phase' ⟨rfl, -⟩
  by_cases hid : id = awaitId
  · cases hans : (ans : Bool) with
    | true => exact ⟨.inr (by simp [ResumePhase.next, hid, AttemptPhase.afterSet]),
        fun _ _ => by simp [ResumePhase.next, hid, AttemptPhase.afterSet]⟩
    | false => exact ⟨.inl (by simp [ResumePhase.next, hid, AttemptPhase.afterSet]), nofun⟩
  · exact ⟨.inl (by simp [ResumePhase.next, hid]), fun _ h => absurd h hid⟩

/-- The loop over the awaits of a child. -/
theorem promoteReady_promotes (child : SatisfiedChild) (waiting : List AgentAwait)
    (ready : Option AgentAwait) (hquiet : phase.Quiet)
    (hready : ∀ entity, ready = some entity → entity.id = awaitId → phase.attempt = .promoted) :
    ResumeSpec awaitId grace reconciler (promoteReady child waiting ready) phase
      (fun ready' phase' => phase.MayPromote phase' ∧
        ∀ entity, ready' = some entity → entity.id = awaitId → phase'.attempt = .promoted) E := by
  induction waiting generalizing phase ready with
  | nil => exact ⟨.inl rfl, hready⟩
  | cons candidate waiting ih =>
      refine Prog.Meets.bind satisfyChild_silent ?_
      rintro _ _ rfl
      cases ready with
      | some entity => exact ih (some entity) hquiet hready
      | none =>
          refine Prog.Meets.bind findAwait_spec ?_
          rintro ans _ ⟨rfl, -⟩
          cases ans with
          | none => exact ih none hquiet hready
          | some refreshed =>
              apply Prog.meets_ite
              · intro _
                exact ih none hquiet hready
              · intro _
                refine Prog.Meets.bind (promote_spec hquiet) ?_
                rintro won phase' ⟨hpromote, hwon⟩
                refine (ih _ (MayPromote.quiet hpromote hquiet) ?_).mono ?_ fun _ _ h => h
                · intro entity hentity hid
                  cases won with
                  | true =>
                      obtain rfl := Option.some.inj hentity
                      exact hwon rfl hid
                  | false => exact nomatch hentity
                · rintro ready' phase'' ⟨hrest, hready'⟩
                  exact ⟨MayPromote.trans hpromote hrest, hready'⟩

theorem onChildTerminal_promotes (child : SatisfiedChild) (hquiet : phase.Quiet) :
    ResumeSpec awaitId grace reconciler (onChildTerminal child) phase
      (fun ready phase' => phase.MayPromote phase' ∧
        ∀ entity, ready = some entity → entity.id = awaitId → phase'.attempt = .promoted) E := by
  refine Prog.Meets.bind (resumeSpec_silent trivial fun _ => rfl) ?_
  rintro waiting _ rfl
  exact promoteReady_promotes child waiting none hquiet nofun

/-! ### The resume -/

theorem appendChildResults_silent (sessionTreeId : Option String)
    (children : List SatisfiedChild) (contents : List String) :
    ResumeSpec awaitId grace reconciler (appendChildResults sessionTreeId children contents) phase
      (fun _ phase' => phase' = phase) E := by
  induction children generalizing contents with
  | nil => exact rfl
  | cons child children ih =>
      refine Prog.Meets.bind (resumeSpec_silent trivial fun _ => rfl) ?_
      rintro run _ rfl
      dsimp only
      split
      · refine Prog.Meets.bind (resumeSpec_silent trivial fun _ => rfl) ?_
        rintro _ _ rfl
        exact ih _
      · exact ih _

/-- The phase after an attempt that was for a record. -/
def ResumePhase.close (awaitId : String) (phase : ResumePhase) (record : AgentAwait) :
    ResumePhase :=
  if record.id = awaitId then { phase with attempt := .closed } else phase

variable {record : AgentAwait}

/-- A resume of the await calls `resumeJobWithMessage` once, within the attempt, and closes it. -/
theorem resumeParent_spec
    (hattempt : record.id = awaitId → phase.attempt = .attempting ∨ (reconciler = false ∧
      phase.attempt = .promoted)) :
    ResumeSpec awaitId grace reconciler (resumeParent record) phase
      (fun _ phase' => phase' = phase.close awaitId record)
      (fun _ phase' => phase' = phase.close awaitId record) := by
  refine Prog.Meets.bind (resumeSpec_silent trivial fun _ => rfl) ?_
  rintro freshTree phase rfl
  dsimp only
  apply Prog.meets_ite
  · -- neither a session tree nor a session: nothing is called
    intro _
    have hnotCalled : record.id = awaitId → phase.attempt ≠ .called := by
      intro hid hcalled
      rcases hattempt hid with h | ⟨-, h⟩
      · exact absurd (h.symm.trans hcalled) (by simp)
      · exact absurd (h.symm.trans hcalled) (by simp)
    refine Prog.Meets.bind (resumeSpec_op hnotCalled) ?_
    rintro _ _ ⟨rfl, -⟩
    exact rfl
  · intro _
    refine Prog.Meets.bind (resumeSpec_silent trivial fun _ => rfl) ?_
    rintro _ phase rfl
    refine Prog.Meets.bind (appendChildResults_silent _ _ _) ?_
    rintro childContents phase rfl
    refine Prog.Meets.bind (resumeSpec_silent trivial fun _ => rfl) ?_
    rintro _ phase rfl
    refine Prog.Meets.bind (Q := fun _ phase' => phase' =
      if record.id = awaitId then { phase with attempt := .called } else phase) ?_ ?_
    · refine Prog.Meets.bind (resumeSpec_op hattempt) ?_
      rintro ans _ ⟨rfl, -⟩
      cases hans : (ans : Option String) with
      | some jobId =>
          show _ = _
          by_cases hid : record.id = awaitId <;> simp [ResumePhase.next, hid]
      | none =>
          show _ = _
          by_cases hid : record.id = awaitId <;> simp [ResumePhase.next, ResumePhase.close, hid]
    · rintro _ _ rfl
      refine Prog.Meets.bind (Q := fun _ phase' => phase' = phase.close awaitId record) ?_ ?_
      · apply Prog.meets_op (Or.inr (Or.inl ⟨rfl, rfl, fun hid => by rw [if_pos hid]⟩))
        rintro ans _ ⟨rfl, -⟩
        by_cases hid : record.id = awaitId <;>
          simp [ResumePhase.next, ResumePhase.close, AttemptPhase.afterSet, hid]
      · rintro _ _ rfl
        exact resumeSpec_silent trivial fun _ => rfl

/-! ### The reconciler -/

/-- The reconciler is done with a record: it is still in flight with what it has listed, no attempt
is open, and an attempt on another await leaves this one to be dealt with. -/
structure ResumePhase.Handles (awaitId : String) (record : AgentAwait)
    (phase phase' : ResumePhase) : Prop where
  inFlight : phase'.inFlight = phase.inFlight
  listed : phase'.listed = phase.listed
  quiet : phase'.Quiet
  open_of_ne : record.id ≠ awaitId → phase'.attempt = phase.attempt ∨ phase'.attempt = .promoted

theorem handles_of_mayPromote (hquiet : phase.Quiet) (h : phase.MayPromote phase') :
    phase.Handles awaitId record phase' := by
  have hquiet' := MayPromote.quiet h hquiet
  rcases h with rfl | rfl
  · exact ⟨rfl, rfl, hquiet', fun _ => .inl rfl⟩
  · exact ⟨rfl, rfl, hquiet', fun _ => .inr rfl⟩

theorem Handles.of_mayPromote {phase'' : ResumePhase} (h : phase.MayPromote phase')
    (h' : phase'.Handles awaitId record phase'') :
    phase.Handles awaitId record phase'' := by
  rcases h with rfl | rfl
  · exact h'
  · refine ⟨h'.inFlight, h'.listed, h'.quiet, fun hid => .inr ?_⟩
    rcases h'.open_of_ne hid with hsame | hpromoted
    · exact hsame
    · exact hpromoted

theorem handles_close {attempt : AttemptPhase} {gaveUp : Option (String × Bool)}
    (hattempt : attempt = if record.id = awaitId then .closed else phase.attempt)
    (hquiet : record.id ≠ awaitId → phase.Quiet) :
    phase.Handles awaitId record { phase with attempt := attempt, gaveUp := gaveUp } := by
  by_cases hid : record.id = awaitId
  · rw [if_pos hid] at hattempt
    subst hattempt
    exact ⟨rfl, rfl, ⟨by simp, by simp⟩, fun h => absurd hid h⟩
  · rw [if_neg hid] at hattempt
    subst hattempt
    exact ⟨rfl, rfl, hquiet hid, fun _ => .inl rfl⟩

/-- The phase in which the reconciler resumes a record or gives it up. -/
def ResumePhase.begin (awaitId : String) (phase : ResumePhase) (record : AgentAwait) :
    ResumePhase :=
  if record.id = awaitId then { phase with attempt := .attempting } else phase

theorem begin_attempt (hid : record.id = awaitId) :
    (phase.begin awaitId record).attempt = .attempting := by
  rw [ResumePhase.begin, if_pos hid]

theorem close_begin :
    (phase.begin awaitId record).close awaitId record = phase.close awaitId record := by
  by_cases hid : record.id = awaitId <;> simp [ResumePhase.begin, ResumePhase.close, hid]

/-- Giving up: the failure of the parent comes after the compare-and-set, whatever it answered. -/
theorem giveUp_spec (hquiet : record.id ≠ awaitId → phase.Quiet) :
    ResumeSpec awaitId grace reconciler (giveUp record) (phase.begin awaitId record)
      (fun _ phase' => phase.Handles awaitId record phase') E := by
  refine Prog.Meets.bind (resumeSpec_op (.inr (.inr ⟨rfl, rfl, begin_attempt⟩))) ?_
  rintro won phase₁ ⟨hphase₁, -⟩
  have hset : phase₁ = { phase with
      attempt := if record.id = awaitId then .closed else phase.attempt
      gaveUp := some (record.id, (won : Bool)) } := by
    rw [hphase₁]
    by_cases hid : record.id = awaitId <;>
      simp [ResumePhase.next, ResumePhase.begin, AttemptPhase.afterSet, hid]
  refine Prog.Meets.bind (resumeSpec_silent trivial fun _ => rfl) ?_
  rintro _ phase₁ rfl
  have hgaveUp : phase₁.gaveUp.isSome = true := by rw [hset]; rfl
  refine Prog.Meets.bind (resumeSpec_silent hgaveUp fun _ => rfl) ?_
  rintro _ phase₁ rfl
  have hclosed : record.id = awaitId → phase₁.attempt = .closed := by
    intro hid
    rw [hset]
    exact if_pos hid
  have hnotCalled : record.id = awaitId → phase₁.attempt ≠ .called := by
    intro hid hcalled
    exact absurd ((hclosed hid).symm.trans hcalled) (by simp)
  have hnext : ∀ ans, phase₁.next awaitId (.publishProcessEvent record.parent_run_id
      (.failed record.id "resume_attempts_exhausted")) ans = phase₁ := by
    intro ans
    by_cases hid : record.id = awaitId
    · simp [ResumePhase.next, hid, ← hclosed hid]
    · simp [ResumePhase.next, hid]
  refine Prog.Meets.bind (resumeSpec_silent hnotCalled hnext) ?_
  rintro _ phase₁ rfl
  apply Prog.meets_op trivial
  rintro _ phase₁ ⟨rfl, -⟩
  rw [hset]
  exact handles_close rfl hquiet

/-- An attempt of the reconciler, on its own promotion or on a record found stuck. -/
theorem attemptResume_spec (hinFlight : phase.inFlight = true)
    (hattempt : record.id = awaitId → phase.attempt = .promoted ∨ (phase.attempt = .idle ∧
      phase.FoundStuck grace)) (hquiet : record.id ≠ awaitId → phase.Quiet) :
    ResumeSpec awaitId grace reconciler (attemptResume record) phase
      (fun _ phase' => phase.Handles awaitId record phase') E := by
  refine Prog.Meets.bind (resumeSpec_op ⟨hinFlight, hattempt⟩) ?_
  rintro attempts _ ⟨rfl, -⟩
  show ResumeSpec awaitId grace reconciler _ (phase.begin awaitId record) _ _
  apply Prog.meets_ite
  · intro _
    exact giveUp_spec hquiet
  · intro _
    refine Prog.Meets.bind (resumeSpec_silent trivial fun _ => rfl) ?_
    rintro _ _ hbegun
    rw [hbegun]
    have hclose : phase.Handles awaitId record (phase.close awaitId record) := by
      have h : phase.Handles awaitId record { phase with
          attempt := if record.id = awaitId then .closed else phase.attempt
          gaveUp := phase.gaveUp } := handles_close rfl hquiet
      by_cases hid : record.id = awaitId <;> simpa [ResumePhase.close, hid] using h
    apply Prog.meets_handle
    refine Prog.Meets.bind ((resumeParent_spec fun hid => .inl (begin_attempt hid)).mono
      (fun _ _ h => h) ?_) ?_
    · rintro _ _ rfl
      rw [close_begin]
      exact hclose
    · rintro _ _ rfl
      rw [close_begin]
      apply Prog.meets_op trivial
      rintro _ _ ⟨rfl, -⟩
      exact hclose

theorem satisfyTerminalChildren_spec (children : List String) (allTerminal : Bool)
    (hquiet : phase.Quiet) :
    ResumeSpec awaitId grace reconciler (satisfyTerminalChildren children allTerminal) phase
      (fun _ phase' => phase.MayPromote phase') E := by
  induction children generalizing phase allTerminal with
  | nil => exact .inl rfl
  | cons childRunId children ih =>
      refine Prog.Meets.bind (resumeSpec_silent trivial fun _ => rfl) ?_
      rintro run phase rfl
      cases Option.bind (run : Option AwaitedRun) AwaitedRun.terminal with
      | none => exact ih false hquiet
      | some terminalStatus =>
          refine Prog.Meets.bind (onChildTerminal_promotes _ hquiet) ?_
          rintro _ phase₁ ⟨hpromote, -⟩
          refine (ih allTerminal (MayPromote.quiet hpromote hquiet)).mono ?_ fun _ _ h => h
          intro _ phase₂ hrest
          exact MayPromote.trans hpromote hrest

theorem reconcileWaiting_spec (hinFlight : phase.inFlight = true) (hquiet : phase.Quiet) :
    ResumeSpec awaitId grace reconciler (reconcileWaiting record) phase
      (fun _ phase' => phase.Handles awaitId record phase') E := by
  refine Prog.Meets.bind (satisfyTerminalChildren_spec _ _ hquiet) ?_
  rintro allTerminal phase₁ hpromote₁
  have hquiet₁ := MayPromote.quiet hpromote₁ hquiet
  apply Prog.meets_ite
  · intro _
    exact handles_of_mayPromote hquiet hpromote₁
  · intro _
    refine Prog.Meets.bind (promote_spec hquiet₁) ?_
    rintro won phase₂ ⟨hpromote₂, hwon⟩
    have hpromote := MayPromote.trans hpromote₁ hpromote₂
    have hquiet₂ := MayPromote.quiet hpromote₂ hquiet₁
    apply Prog.meets_ite
    · intro _
      exact handles_of_mayPromote hquiet hpromote
    · intro hnot
      have hwon' : won = true := by simpa using hnot
      refine Prog.Meets.bind findAwait_spec ?_
      rintro refreshed phase₂ ⟨rfl, hrefreshed⟩
      have hid : (refreshed.getD record).id = record.id := by
        cases refreshed with
        | none => rfl
        | some entity => exact hrefreshed entity rfl
      have hinFlight₂ : phase₂.inFlight = true := by
        rcases hpromote with rfl | rfl
        · exact hinFlight
        · exact hinFlight
      refine (attemptResume_spec hinFlight₂ (fun h => .inl (hwon hwon' (hid.symm.trans h)))
        fun _ => hquiet₂).mono ?_ fun _ _ h => h
      intro _ phase₃ hhandles
      apply Handles.of_mayPromote hpromote
      exact ⟨hhandles.inFlight, hhandles.listed, hhandles.quiet,
        fun h => hhandles.open_of_ne fun h' => h (hid.symm.trans h')⟩

theorem reconcileResuming_spec (hinFlight : phase.inFlight = true) (hquiet : phase.Quiet)
    (hresuming : record.status = .resuming)
    (hlisted : record.id = awaitId → phase.listed = some record)
    (hopen : record.id = awaitId → phase.attempt = .idle ∨ phase.attempt = .promoted) :
    ResumeSpec awaitId grace reconciler (reconcileResuming grace record) phase
      (fun _ phase' => phase.Handles awaitId record phase') E := by
  have hkeep : ∀ reading,
      phase.Handles awaitId record { phase with reading := reading } :=
    fun _ => ⟨rfl, rfl, hquiet, fun _ => .inl rfl⟩
  apply Prog.meets_ite
  · intro _
    exact hkeep phase.reading
  · intro _
    refine Prog.Meets.bind (resumeSpec_op trivial) ?_
    rintro now _ ⟨rfl, -⟩
    apply Prog.meets_ite
    · intro _
      exact hkeep _
    · intro hold
      have hstuck : record.updated_at + grace ≤ (now : Nat) := by
        have hboth : ¬ record.updated_at = 0 ∧ record.updated_at + grace ≤ (now : Nat) := by
          simpa [AgentAwait.isOlderThanGrace] using hold
        exact hboth.2
      have hattempt : record.id = awaitId → phase.attempt = .promoted ∨
          (phase.attempt = .idle ∧
            ResumePhase.FoundStuck grace { phase with reading := some now }) := by
        intro hid
        rcases hopen hid with hidle | hpromoted
        · exact .inr ⟨hidle, record, now, hlisted hid, hresuming, rfl, hstuck⟩
        · exact .inl hpromoted
      have hread : ResumeSpec awaitId grace reconciler (attemptResume record)
          { phase with reading := some now }
          (fun _ phase' => ResumePhase.Handles awaitId record { phase with reading := some now }
            phase') E := attemptResume_spec hinFlight hattempt fun _ => hquiet
      refine hread.mono ?_ fun _ _ h => h
      intro _ phase' hhandles
      exact ⟨hhandles.inFlight, hhandles.listed, hhandles.quiet, hhandles.open_of_ne⟩

/-- The loop over the records, with distinct ids: the record of the await is the one listed, and no
attempt has been made on it before it is reached. -/
theorem reconcileAwaits_spec (awaits : List AgentAwait)
    (hnodup : (awaits.map AgentAwait.id).Nodup) (hinFlight : phase.inFlight = true)
    (hquiet : phase.Quiet)
    (hlisted : ∀ record ∈ awaits, record.id = awaitId → phase.listed = some record)
    (hopen : ∀ record ∈ awaits, record.id = awaitId →
      phase.attempt = .idle ∨ phase.attempt = .promoted) :
    ResumeSpec awaitId grace reconciler (reconcileAwaits grace awaits) phase
      (fun _ phase' => phase'.inFlight = true ∧ phase'.Quiet) E := by
  induction awaits generalizing phase with
  | nil => exact ⟨hinFlight, hquiet⟩
  | cons record awaits ih =>
      obtain ⟨hhead, hnodup'⟩ := List.nodup_cons.1 hnodup
      have hself : record ∈ record :: awaits := List.mem_cons_self
      have hrecord : ResumeSpec awaitId grace reconciler (reconcileAwait grace record) phase
          (fun _ phase' => phase.Handles awaitId record phase') E := by
        unfold reconcileAwait
        split
        · exact reconcileWaiting_spec hinFlight hquiet
        · rename_i hresuming
          exact reconcileResuming_spec hinFlight hquiet hresuming (hlisted record hself)
            (hopen record hself)
        · exact ⟨rfl, rfl, hquiet, fun _ => .inl rfl⟩
      refine Prog.Meets.bind hrecord ?_
      rintro _ phase' hhandles
      apply ih hnodup' (hhandles.inFlight.trans hinFlight) hhandles.quiet
      · intro other hother hid
        exact hhandles.listed.trans (hlisted other (List.mem_cons_of_mem _ hother) hid)
      · intro other hother hid
        have hne : record.id ≠ awaitId := by
          rintro rfl
          exact hhead (List.mem_map.2 ⟨other, hother, hid⟩)
        rcases hhandles.open_of_ne hne with hsame | hpromoted
        · rw [hsame]
          exact hopen other (List.mem_cons_of_mem _ hother) hid
        · exact .inr hpromoted

theorem find?_of_nodup {awaits : List AgentAwait} (hnodup : (awaits.map AgentAwait.id).Nodup)
    (hrecord : record ∈ awaits) (hid : record.id = awaitId) :
    awaits.find? (fun x => x.id = awaitId) = some record := by
  have hsome : (awaits.find? fun x => x.id = awaitId).isSome := by
    rw [List.find?_isSome]
    exact ⟨record, hrecord, by simpa using hid⟩
  obtain ⟨found, hfound⟩ := Option.isSome_iff_exists.1 hsome
  have hfoundId : found.id = awaitId := by simpa using List.find?_some hfound
  rw [hfound, List.inj_on_of_nodup_map hnodup (List.mem_of_find?_eq_some hfound) hrecord
    (hfoundId.trans hid.symm)]

theorem reconcileOnce_spec :
    ResumeSpec awaitId grace true (reconcileOnce grace) {} (fun _ _ => True)
      (fun _ _ => False) := by
  have hquiet : ResumePhase.Quiet {} := ⟨by simp, by simp⟩
  refine Prog.Meets.bind (resumeSpec_op ⟨rfl, rfl, hquiet⟩) ?_
  rintro clear _ ⟨rfl, -⟩
  apply Prog.meets_ite
  · intro _
    exact trivial
  · intro hclear
    have hclear' : (clear : Bool) = true := by simpa using hclear
    refine Prog.Meets.bind (Q := fun _ phase' => phase'.inFlight = true ∧ phase'.Quiet) ?_ ?_
    · apply Prog.meets_handle
      refine Prog.Meets.bind (resumeSpec_op trivial) ?_
      rintro awaits _ ⟨rfl, hnodup⟩
      have hlisted : ∀ record ∈ (awaits : List AgentAwait), record.id = awaitId →
          List.find? (fun x : AgentAwait => x.id = awaitId) awaits = some record :=
        fun record hrecord hid => find?_of_nodup hnodup hrecord hid
      have hloop : ResumeSpec awaitId grace true (reconcileAwaits grace awaits)
          { inFlight := clear, listed := List.find? (fun x : AgentAwait => x.id = awaitId) awaits }
          (fun _ phase' => phase'.inFlight = true ∧ phase'.Quiet) (fun _ phase' =>
            phase'.inFlight = true ∧ phase'.Quiet) :=
        reconcileAwaits_spec awaits hnodup hclear' hquiet hlisted fun _ _ _ => .inl rfl
      exact hloop
    · rintro _ phase' ⟨hinFlight, hquiet'⟩
      have hissues : phase'.Issues awaitId grace true .endReconcile := ⟨hinFlight, hquiet'⟩
      exact Prog.meets_op hissues fun _ _ _ => trivial

/-! ### The listener -/

/-- The listener resumes the await it has promoted itself. -/
theorem notifyChildTerminal_spec (childRunId : String) (status : ChildStatus)
    (hquiet : phase.Quiet) :
    ResumeSpec awaitId grace false (notifyChildTerminal childRunId status) phase
      (fun _ _ => True) (fun _ _ => False) := by
  apply Prog.meets_handle
  refine Prog.Meets.bind (onChildTerminal_promotes _ hquiet) ?_
  rintro ready phase' ⟨-, hready⟩
  cases ready with
  | none => exact trivial
  | some entity =>
      refine (resumeParent_spec fun hid => .inr ⟨rfl, hready entity rfl hid⟩).mono ?_ ?_
      · exact fun _ _ _ => trivial
      · exact fun _ _ _ => trivial

theorem cancelParentAwaits_spec (parentRunId : String) :
    ResumeSpec awaitId grace false (cancelParentAwaits parentRunId) phase
      (fun _ phase' => phase' = phase) E := by
  refine Prog.Meets.bind (resumeSpec_silent trivial fun _ => rfl) ?_
  rintro _ phase rfl
  exact rfl

/-- The calls of the reconciler. -/
def AwaitCall.reconciles : AwaitCall → Bool
  | .reconcileOnce => true
  | _ => false

/-- Every call keeps to its contract, and throws no exception. -/
theorem awaitCall_spec (call : AwaitCall) :
    ResumeSpec awaitId grace call.reconciles (call.program grace) {} (fun _ _ => True)
      (fun _ _ => False) := by
  have hquiet : ResumePhase.Quiet {} := ⟨by simp, by simp⟩
  cases call with
  | runCompleted workflowRunId => exact notifyChildTerminal_spec _ _ hquiet
  | runFailed workflowRunId => exact notifyChildTerminal_spec _ _ hquiet
  | runCancelled workflowRunId =>
      refine Prog.Meets.bind (cancelParentAwaits_spec workflowRunId) ?_
      rintro _ _ rfl
      exact notifyChildTerminal_spec _ _ hquiet
  | reconcileOnce => exact reconcileOnce_spec
  | cancelOpenForParentRun parentRunId =>
      exact (cancelParentAwaits_spec parentRunId).mono (fun _ _ _ => trivial) fun _ _ h => h

end Calls

end Nexus
