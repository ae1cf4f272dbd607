import Nexus.Await.AwaitRows

/-!
# The join of an agent await

The ends of the children of one await, interleaved. `markSatisfied` reads the record, appends the
child and saves the whole record, so a call that saves a copy older than the save of another call
loses what that call appended. When no call saves an outdated copy, and no call promotes another
await before it has reached this one, all children are marked and one call promotes the await
(`agent_await_joined`).
-/

set_option autoImplicit false

namespace Nexus

/-! ## What a call has done with the await -/

/-- How far a call has come with one await. -/
inductive JoinPhase where
  | start
  /-- The await is among those found, and has not been reached. -/
  | ahead
  /-- The copy that `markSatisfied` has read. -/
  | copied (entity : AgentAwait)
  | saved
  /-- The child is marked. -/
  | marked
  /-- The copy that decides about the promotion. -/
  | decided (entity : AgentAwait)
  | won
  | lost
  /-- The await is not among those found. -/
  | passed
  /-- Another await has been promoted before this one was reached. -/
  | missed
  deriving DecidableEq

/-- The phase after a step of the call. -/
def JoinPhase.next (awaitId : String) : JoinPhase → (o : AwaitOp) → o.Ans → JoinPhase
  | .start, .findWaitingByAwaitedChild _, ans =>
      if awaitId ∈ (ans : List AgentAwait).map AgentAwait.id then .ahead else .passed
  | .ahead, .findById id, ans => if id = awaitId then Option.elim ans .passed .copied else .ahead
  | .ahead, .compareAndSetStatus _ _ _, ans => cond ans .missed .ahead
  | .copied entity, .findById id, _ => if id = awaitId then .marked else .copied entity
  | .copied copy, .save entity, _ => if entity.id = awaitId then .saved else .copied copy
  | .saved, .findById id, _ => if id = awaitId then .marked else .saved
  | .marked, .findById id, ans => if id = awaitId then Option.elim ans .marked .decided else .marked
  | .decided entity, .compareAndSetStatus id _ _, ans =>
      if id = awaitId then cond ans .won .lost else .decided entity
  | phase, _, _ => phase

/-- The child is among the satisfied ones of a copy. -/
def AgentAwait.hasChild (entity : AgentAwait) (childRunId : String) : Bool :=
  entity.satisfied_run_ids.any fun satisfied => satisfied.runId = childRunId

/-- The operations of the call of a child, as far as they concern the await; a call that has missed
the await is not followed further. -/
def JoinPhase.Issues (awaitId : String) (child : SatisfiedChild) (phase : JoinPhase)
    (o : AwaitOp) : Prop :=
  phase = .missed ∨
    match o with
    | .findWaitingByAwaitedChild childRunId => phase = .start ∧ childRunId = child.runId
    | .findById id => id = awaitId → phase = .ahead ∨ phase = .saved ∨ phase = .marked ∨
        ∃ entity, phase = .copied entity ∧ entity.hasChild child.runId = true
    | .save entity => entity.id = awaitId → ∃ copy, phase = .copied copy ∧
        entity = { copy with satisfied_run_ids := copy.satisfied_run_ids ++ [child] }
    | .compareAndSetStatus id sourceStatus targetStatus => id = awaitId →
        sourceStatus = .waiting ∧ targetStatus = .resuming ∧
          ∃ entity, phase = .decided entity ∧ entity.isFullySatisfied = true
    | .publishProcessEvent _ _ => True
    | _ => False

/-- What is known of an answer. -/
def JoinPhase.Answers (awaitId : String) (_ : JoinPhase) : (o : AwaitOp) → o.Ans → Prop
  | .findWaitingByAwaitedChild _, ans => ((ans : List AgentAwait).map AgentAwait.id).Nodup
  | .findById id, ans =>
      (∀ entity, (ans : Option AgentAwait) = some entity → entity.id = id) ∧
        (id = awaitId → (ans : Option AgentAwait) ≠ none)
  | _, _ => True

/-- The contract of a call between two phases. -/
abbrev JoinSpec (awaitId : String) (child : SatisfiedChild) {α : Type} (p : Awaiting α)
    (phase : JoinPhase) (Q : α → JoinPhase → Prop) : Prop :=
  Prog.Meets (Pool.following (JoinPhase.next awaitId) (JoinPhase.Issues awaitId child)
    (JoinPhase.Answers awaitId)) Q (fun _ _ => True) p phase

/-- A call that is done with the await: it has promoted the await and returns it, or not. -/
def JoinPhase.Done (awaitId : String) (ready : Option AgentAwait) (phase : JoinPhase) : Prop :=
  (phase = .won ∧ ∃ entity, ready = some entity ∧ entity.id = awaitId) ∨
    ((phase = .passed ∨ phase = .lost ∨
        ∃ entity, phase = .decided entity ∧ entity.isFullySatisfied = false) ∧
      ∀ entity, ready = some entity → entity.id ≠ awaitId)

variable {entity : AgentAwait} {sourceStatus targetStatus : AgentAwaitStatus}

section Calls

variable {awaitId id : String} {child : SatisfiedChild} {phase : JoinPhase}

theorem joinSpec_await {o : AwaitOp} (hissues : phase.Issues awaitId child o) :
    JoinSpec awaitId child (awaitRepo o) phase (fun ans phase' =>
      phase' = phase.next awaitId o ans ∧ phase.Answers awaitId o ans) := by
  apply Prog.meets_op hissues
  rintro ans phase' ⟨rfl, hans⟩
  exact ⟨rfl, hans⟩

theorem next_missed {o : AwaitOp} (ans : o.Ans) :
    JoinPhase.next awaitId .missed o ans = .missed := by
  cases o <;> rfl

/-- A call that has missed the await may do anything. -/
theorem joinSpec_missed {α : Type} (p : Awaiting α) :
    JoinSpec awaitId child p .missed (fun _ phase' => phase' = .missed) := by
  induction p with
  | pure a => exact rfl
  | fail e => exact trivial
  | call o k ih =>
      refine ⟨.inl rfl, ?_⟩
      rintro ans phase' ⟨rfl, -⟩
      rw [next_missed]
      exact ih ans

theorem next_findById_of_ne (hid : id ≠ awaitId) (ans : Option AgentAwait) :
    phase.next awaitId (.findById id) ans = phase := by
  cases phase <;> simp [JoinPhase.next, hid]

theorem next_save_of_ne (hid : entity.id ≠ awaitId) :
    phase.next awaitId (.save entity) () = phase := by
  cases phase <;> simp [JoinPhase.next, hid]

theorem next_compareAndSet_of_ne (hid : id ≠ awaitId) (hphase : phase ≠ .ahead) (ans : Bool) :
    phase.next awaitId (.compareAndSetStatus id sourceStatus targetStatus) ans = phase := by
  cases phase <;> simp_all [JoinPhase.next]

example (hid : id ≠ awaitId) :
    (JoinPhase.copied entity).next awaitId (.findById id) none = .copied entity := by
  simp [JoinPhase.next, hid]

/-! ### Another await -/

/-- A search for another await. -/
theorem findAwait_other (hid : id ≠ awaitId) :
    JoinSpec awaitId child (findAwait id) phase (fun ans phase' =>
      phase' = phase ∧ ∀ entity, ans = some entity → entity.id = id) := by
  apply Prog.meets_op (Or.inr fun h => absurd h hid)
  rintro ans phase' ⟨rfl, hans⟩
  exact ⟨next_findById_of_ne hid ans, hans.1⟩

theorem publish_spec {runId : String} {event : AwaitEvent} :
    JoinSpec awaitId child (awaitRepo (.publishProcessEvent runId event)) phase
      (fun _ phase' => phase' = phase) := by
  apply Prog.meets_op (Or.inr trivial)
  rintro ans phase' ⟨rfl, -⟩
  cases phase <;> rfl

theorem markSatisfied_other (hid : id ≠ awaitId) :
    JoinSpec awaitId child (markSatisfied id child) phase (fun _ phase' => phase' = phase) := by
  refine Prog.Meets.bind (findAwait_other hid) ?_
  rintro ans _ ⟨rfl, hans⟩
  cases ans with
  | none => exact rfl
  | some entity =>
      refine Prog.meets_ite (fun _ => rfl) fun _ => ?_
      have hentity : entity.id ≠ awaitId := by
        rw [hans entity rfl]
        exact hid
      apply Prog.meets_op (Or.inr fun h => absurd h hentity)
      rintro _ phase' ⟨rfl, -⟩
      exact next_save_of_ne hentity

theorem satisfyChild_other (hid : id ≠ awaitId) :
    JoinSpec awaitId child (satisfyChild id child) phase (fun _ phase' => phase' = phase) := by
  refine Prog.Meets.bind (markSatisfied_other hid) ?_
  rintro _ _ rfl
  refine Prog.Meets.bind (findAwait_other hid) ?_
  rintro ans _ ⟨rfl, -⟩
  cases ans with
  | none => exact rfl
  | some refreshed => exact publish_spec

/-- Promoting another await: a call that has not reached this one misses it when it succeeds. -/
theorem compareAndSet_other (hid : id ≠ awaitId) :
    JoinSpec awaitId child (compareAndSetStatus id sourceStatus targetStatus) phase
      (fun won phase' => phase' = .missed ∨ phase' = phase ∧ (phase = .ahead → won = false)) := by
  apply Prog.meets_op (Or.inr fun h => absurd h hid)
  rintro ans phase' ⟨rfl, -⟩
  by_cases hphase : phase = .ahead
  · subst hphase
    cases hans : (ans : Bool) with
    | true => exact .inl rfl
    | false => exact .inr ⟨rfl, fun _ => rfl⟩
  · exact .inr ⟨next_compareAndSet_of_ne hid hphase ans, fun h => absurd h hphase⟩

/-! ### The await itself -/

theorem markSatisfied_spec :
    JoinSpec awaitId child (markSatisfied awaitId child) .ahead (fun _ phase' =>
      phase' = .saved ∨ ∃ entity, phase' = .copied entity ∧ entity.hasChild child.runId = true) := by
  refine Prog.Meets.bind (joinSpec_await (.inr fun _ => .inl rfl)) ?_
  rintro ans _ ⟨rfl, hans⟩
  cases hentity : (ans : Option AgentAwait) with
  | none => exact absurd hentity (hans.2 rfl)
  | some entity =>
      have hid : entity.id = awaitId := hans.1 entity hentity
      have hphase : JoinPhase.next awaitId .ahead (.findById awaitId) (some entity) =
          .copied entity := by simp [JoinPhase.next]
      rw [hphase]
      refine Prog.meets_ite (fun halready => ?_) fun _ => ?_
      · exact .inr ⟨entity, rfl, halready⟩
      · apply Prog.meets_op (Or.inr fun _ => ⟨entity, rfl, rfl⟩)
        rintro _ phase' ⟨rfl, -⟩
        left
        simp [JoinPhase.next, hid]

/-- After `satisfyChild` the child is marked. -/
theorem satisfyChild_spec :
    JoinSpec awaitId child (satisfyChild awaitId child) .ahead (fun _ phase' =>
      phase' = .marked) := by
  refine Prog.Meets.bind markSatisfied_spec ?_
  rintro _ phase₁ hphase₁
  have hissues : phase₁.Issues awaitId child (.findById awaitId) := by
    rcases hphase₁ with rfl | hcopied
    · exact .inr fun _ => .inr (.inl rfl)
    · exact .inr fun _ => .inr (.inr (.inr hcopied))
  refine Prog.Meets.bind (joinSpec_await hissues) ?_
  rintro ans _ ⟨rfl, -⟩
  have hnext : phase₁.next awaitId (.findById awaitId) ans = .marked := by
    rcases hphase₁ with rfl | ⟨entity, rfl, -⟩ <;> simp [JoinPhase.next]
  rw [hnext]
  cases (ans : Option AgentAwait) with
  | none => exact rfl
  | some refreshed => exact publish_spec

/-! ### The loop -/

/-- A call before the rest of its loop: the await is ahead, or the call is done with it. -/
def JoinPhase.Pending (awaitId : String) (ids : List String) (ready : Option AgentAwait)
    (phase : JoinPhase) : Prop :=
  phase = .missed ∨ (awaitId ∈ ids ∧ phase = .ahead ∧ ready = none) ∨
    (awaitId ∉ ids ∧ phase.Done awaitId ready)

theorem pending_cons_of_ne {ids : List String} {ready : Option AgentAwait} (hid : id ≠ awaitId)
    (h : phase.Pending awaitId (id :: ids) ready) : phase.Pending awaitId ids ready := by
  rcases h with hmissed | ⟨hmem, hahead⟩ | ⟨hnot, hdone⟩
  · exact .inl hmissed
  · exact .inr (.inl ⟨(List.mem_cons.1 hmem).resolve_left (Ne.symm hid), hahead⟩)
  · exact .inr (.inr ⟨fun hmem => hnot (List.mem_cons_of_mem _ hmem), hdone⟩)

/-- The loop over the awaits of the child. -/
theorem promoteReady_spec (waiting : List AgentAwait) (ready : Option AgentAwait)
    (hnodup : (waiting.map AgentAwait.id).Nodup)
    (hpending : phase.Pending awaitId (waiting.map AgentAwait.id) ready) :
    JoinSpec awaitId child (promoteReady child waiting ready) phase (fun ready' phase' =>
      phase' = .missed ∨ phase'.Done awaitId ready') := by
  induction waiting generalizing phase ready with
  | nil =>
      rcases hpending with hmissed | ⟨hmem, -⟩ | ⟨-, hdone⟩
      · exact .inl hmissed
      · exact absurd hmem List.not_mem_nil
      · exact .inr hdone
  | cons candidate waiting ih =>
      obtain ⟨hhead, hnodup'⟩ := List.nodup_cons.1 hnodup
      by_cases hmissed : phase = .missed
      · subst hmissed
        exact (joinSpec_missed _).mono (fun _ _ h => .inl h) fun _ _ h => h
      by_cases hid : candidate.id = awaitId
      · -- the await itself: nothing has been promoted before
        obtain ⟨rfl, rfl⟩ : phase = .ahead ∧ ready = none := by
          rcases hpending with h | ⟨-, h⟩ | ⟨hnot, -⟩
          · exact absurd h hmissed
          · exact h
          · exact absurd (List.mem_cons.2 (.inl hid.symm)) hnot
        rw [hid] at hhead
        have hsatisfy : JoinSpec awaitId child (satisfyChild candidate.id child) .ahead
            (fun _ phase' => phase' = .marked) := by
          rw [hid]
          exact satisfyChild_spec
        refine Prog.Meets.bind hsatisfy ?_
        rintro _ _ rfl
        have hissues : JoinPhase.Issues awaitId child .marked (.findById candidate.id) :=
          .inr fun _ => .inr (.inr (.inl rfl))
        refine Prog.Meets.bind (joinSpec_await hissues) ?_
        rintro ans _ ⟨rfl, hans⟩
        cases hentity : (ans : Option AgentAwait) with
        | none => exact absurd hentity (hans.2 hid)
        | some refreshed =>
            have hrefreshed : refreshed.id = awaitId := (hans.1 refreshed hentity).trans hid
            have hphase : JoinPhase.next awaitId .marked (.findById candidate.id) (some refreshed) =
                .decided refreshed := by simp [JoinPhase.next, hid]
            rw [hphase]
            refine Prog.meets_ite (fun hpartial => ?_) fun hfull => ?_
            · have hpartial' : refreshed.isFullySatisfied = false := by simpa using hpartial
              exact ih none hnodup' (.inr (.inr ⟨hhead, .inr
                ⟨.inr (.inr ⟨refreshed, rfl, hpartial'⟩), fun _ h => by simp at h⟩⟩))
            · have hfull' : refreshed.isFullySatisfied = true := by simpa using hfull
              have hissues' : (JoinPhase.decided refreshed).Issues awaitId child
                  (.compareAndSetStatus refreshed.id .waiting .resuming) :=
                .inr fun _ => ⟨rfl, rfl, refreshed, rfl, hfull'⟩
              refine Prog.Meets.bind (joinSpec_await hissues') ?_
              rintro won _ ⟨rfl, -⟩
              cases hwon : (won : Bool) with
              | true =>
                  have hnext : (JoinPhase.decided refreshed).next awaitId
                      (.compareAndSetStatus refreshed.id .waiting .resuming) true = .won := by
                    simp [JoinPhase.next, hrefreshed]
                  rw [hnext]
                  exact ih _ hnodup' (.inr (.inr ⟨hhead, .inl ⟨rfl, refreshed, rfl, hrefreshed⟩⟩))
              | false =>
                  have hnext : (JoinPhase.decided refreshed).next awaitId
                      (.compareAndSetStatus refreshed.id .waiting .resuming) false = .lost := by
                    simp [JoinPhase.next, hrefreshed]
                  rw [hnext]
                  exact ih _ hnodup' (.inr (.inr ⟨hhead, .inr
                    ⟨.inr (.inl rfl), fun _ h => by simp at h⟩⟩))
      · -- another await: only its promotion concerns this one
        have hrest := pending_cons_of_ne hid hpending
        refine Prog.Meets.bind (satisfyChild_other hid) ?_
        rintro _ _ rfl
        cases ready with
        | some entity => exact ih (some entity) hnodup' hrest
        | none =>
            refine Prog.Meets.bind (findAwait_other hid) ?_
            rintro ans _ ⟨rfl, hans⟩
            cases ans with
            | none => exact ih none hnodup' hrest
            | some refreshed =>
                have hrefreshed : refreshed.id ≠ awaitId := by
                  rw [hans refreshed rfl]
                  exact hid
                refine Prog.meets_ite (fun _ => ih none hnodup' hrest) fun _ => ?_
                refine Prog.Meets.bind (compareAndSet_other hrefreshed) ?_
                rintro won phase' (rfl | ⟨rfl, hwon⟩)
                · exact (joinSpec_missed _).mono (fun _ _ h => .inl h) fun _ _ h => h
                · apply ih _ hnodup'
                  rcases hrest with h | ⟨hmem, hahead, -⟩ | ⟨hnot, hdone⟩
                  · exact absurd h hmissed
                  · refine .inr (.inl ⟨hmem, hahead, ?_⟩)
                    rw [hwon hahead]
                    rfl
                  · refine .inr (.inr ⟨hnot, .inr ?_⟩)
                    rcases hdone with ⟨-, entity, hnone, -⟩ | ⟨hphase, -⟩
                    · exact absurd hnone (by simp)
                    · refine ⟨hphase, fun entity hentity => ?_⟩
                      cases won with
                      | true => rwa [← Option.some.inj hentity]
                      | false => exact absurd hentity (by simp)

/-- A call of the child that is over has dealt with the await, unless it has missed it. -/
theorem onChildTerminal_spec :
    JoinSpec awaitId child (onChildTerminal child) .start (fun ready phase' =>
      phase' = .missed ∨ phase'.Done awaitId ready) := by
  refine Prog.Meets.bind (joinSpec_await (.inr ⟨rfl, rfl⟩)) ?_
  rintro waiting _ ⟨rfl, hnodup⟩
  apply promoteReady_spec (waiting : List AgentAwait) none hnodup
  by_cases hmem : awaitId ∈ (waiting : List AgentAwait).map AgentAwait.id
  · refine .inr (.inl ⟨hmem, ?_, rfl⟩)
    simp only [JoinPhase.next, if_pos hmem]
  · refine .inr (.inr ⟨hmem, .inr ⟨.inl ?_, fun _ h => by simp at h⟩⟩)
    simp only [JoinPhase.next, if_neg hmem]

end Calls

/-! ## The invariant of a join -/

/-- The child of a call in this phase is marked. -/
def JoinPhase.HasMarked : JoinPhase → Prop
  | .saved | .marked | .decided _ | .won | .lost => True
  | _ => False

/-- A call in this phase goes on to promote a fully satisfied await. -/
def JoinPhase.Promotes (phase : JoinPhase) : Prop :=
  phase = .saved ∨ phase = .marked ∨
    ∃ entity, phase = .decided entity ∧ entity.isFullySatisfied = true

section Invariant

variable {ι : Type} [DecidableEq ι]

/-- The row of the await against the phases of the calls; `stale` says of a call whether another one
has written the row since the call read it. -/
structure JoinInv (awaitId : String) (children : ι → SatisfiedChild) (awaited : List String)
    (row : AgentAwait) (phases : ι → JoinPhase) (stale : ι → Bool) : Prop where
  awaited_eq : row.awaited_run_ids = awaited
  isOpen : row.status = .waiting ∨ row.status = .resuming
  reached : ∀ t, phases t ≠ .missed
  /-- A copy is never ahead of the row, and agrees with it unless it is outdated. -/
  copied : ∀ t copy, phases t = .copied copy →
    (∀ x ∈ copy.satisfied_run_ids, x ∈ row.satisfied_run_ids) ∧ (stale t = false → copy = row)
  decided : ∀ t entity, phases t = .decided entity → entity.awaited_run_ids = awaited ∧
    ∀ x ∈ entity.satisfied_run_ids, x ∈ row.satisfied_run_ids
  marked : ∀ t, (phases t).HasMarked → row.hasChild (children t).runId = true
  won : ∀ t, phases t = .won → row.status = .resuming
  unique : ∀ t u, phases t = .won → phases u = .won → t = u
  resuming : row.status = .resuming → row.isFullySatisfied = true ∧ ∃ t, phases t = .won
  passed : ∀ t, phases t = .passed → (children t).runId ∈ awaited → row.status = .resuming
  promoter : row.isFullySatisfied = true → row.status = .waiting → ∃ t, (phases t).Promotes

variable {awaitId : String} {children : ι → SatisfiedChild} {awaited : List String}
  {row row' : AgentAwait} {phases : ι → JoinPhase} {stale stale' : ι → Bool} {t : ι}
  {phase : JoinPhase}

theorem hasChild_of_subset {copy : AgentAwait} {runId : String}
    (h : ∀ x ∈ copy.satisfied_run_ids, x ∈ row.satisfied_run_ids)
    (hchild : copy.hasChild runId = true) : row.hasChild runId = true := by
  obtain ⟨x, hx, hrunId⟩ := List.any_eq_true.1 hchild
  exact List.any_eq_true.2 ⟨x, h x hx, hrunId⟩

theorem isFullySatisfied_iff :
    row.isFullySatisfied = true ↔ ∀ runId ∈ row.awaited_run_ids, row.hasChild runId = true :=
  List.all_eq_true

theorem isFullySatisfied_of_subset {copy : AgentAwait} (hfull : copy.isFullySatisfied = true)
    (hawaited : row.awaited_run_ids = copy.awaited_run_ids)
    (h : ∀ x ∈ copy.satisfied_run_ids, x ∈ row.satisfied_run_ids) :
    row.isFullySatisfied = true := by
  rw [isFullySatisfied_iff, hawaited]
  intro runId hrunId
  exact hasChild_of_subset h (isFullySatisfied_iff.1 hfull runId hrunId)

/-- What a step has to respect that leaves the row as it is and takes call `t` to a phase. -/
structure Moves (children : ι → SatisfiedChild) (awaited : List String) (row : AgentAwait)
    (t : ι) (phase phase' : JoinPhase) : Prop where
  reached : phase' ≠ .missed
  notWon : phase ≠ .won ∧ phase' ≠ .won
  copied : ∀ copy, phase' = .copied copy → copy = row
  decided : ∀ entity, phase' = .decided entity → entity = row
  marked : phase'.HasMarked → row.hasChild (children t).runId = true
  passed : phase' = .passed → (children t).runId ∈ awaited → row.status = .resuming
  promoter : phase.Promotes → row.isFullySatisfied = true → row.status = .waiting →
    phase'.Promotes

/-- A step that does not write the row. -/
theorem JoinInv.move (h : JoinInv awaitId children awaited row phases stale)
    (hmove : Moves children awaited row t (phases t) phase)
    (hstale : ∀ u, u ≠ t → stale' u = stale u) :
    JoinInv awaitId children awaited row (Function.update phases t phase) stale' := by
  have hother : ∀ u p, u ≠ t → Function.update phases t phase u = p → phases u = p := by
    intro u p hu hp
    rwa [Function.update_of_ne hu] at hp
  have hself : ∀ p, Function.update phases t phase t = p → phase = p := by
    intro p hp
    rwa [Function.update_self] at hp
  refine ⟨h.awaited_eq, h.isOpen, ?_, ?_, ?_, ?_, ?_, ?_, ?_, ?_, ?_⟩
  · intro u hu
    by_cases hut : u = t
    · subst hut
      exact hmove.reached (hself _ hu)
    · exact h.reached u (hother u _ hut hu)
  · intro u copy hu
    by_cases hut : u = t
    · subst hut
      obtain rfl := hmove.copied copy (hself _ hu)
      exact ⟨fun x hx => hx, fun _ => rfl⟩
    · rw [hstale u hut]
      exact h.copied u copy (hother u _ hut hu)
  · intro u entity hu
    by_cases hut : u = t
    · subst hut
      obtain rfl := hmove.decided entity (hself _ hu)
      exact ⟨h.awaited_eq, fun x hx => hx⟩
    · exact h.decided u entity (hother u _ hut hu)
  · intro u hu
    by_cases hut : u = t
    · subst hut
      rw [Function.update_self] at hu
      exact hmove.marked hu
    · rw [Function.update_of_ne hut] at hu
      exact h.marked u hu
  · intro u hu
    by_cases hut : u = t
    · subst hut
      exact absurd (hself _ hu) hmove.notWon.2
    · exact h.won u (hother u _ hut hu)
  · intro u v hu hv
    have hut : u ≠ t := by
      rintro rfl
      exact hmove.notWon.2 (hself _ hu)
    have hvt : v ≠ t := by
      rintro rfl
      exact hmove.notWon.2 (hself _ hv)
    exact h.unique u v (hother u _ hut hu) (hother v _ hvt hv)
  · intro hresuming
    obtain ⟨hfull, u, hu⟩ := h.resuming hresuming
    refine ⟨hfull, u, ?_⟩
    have hut : u ≠ t := by
      rintro rfl
      exact hmove.notWon.1 hu
    rwa [Function.update_of_ne hut]
  · intro u hu
    by_cases hut : u = t
    · subst hut
      exact hmove.passed (hself _ hu)
    · exact h.passed u (hother u _ hut hu)
  · intro hfull hwaiting
    obtain ⟨u, hu⟩ := h.promoter hfull hwaiting
    refine ⟨u, ?_⟩
    by_cases hut : u = t
    · subst hut
      rw [Function.update_self]
      exact hmove.promoter hu hfull hwaiting
    · rwa [Function.update_of_ne hut]

/-- A step that concerns neither the row nor the phase of the call. -/
theorem JoinInv.idle (h : JoinInv awaitId children awaited row phases stale)
    (hphase : phase = phases t) (hstale : stale' = stale) :
    JoinInv awaitId children awaited row (Function.update phases t phase) stale' := by
  rw [hphase, Function.update_eq_self, hstale]
  exact h

/-- Call `t` saves its copy, which is not outdated, with the child appended. -/
theorem JoinInv.save {copy : AgentAwait} {now : Nat}
    (h : JoinInv awaitId children awaited row phases stale) (hphase : phases t = .copied copy)
    (hfresh : stale t = false)
    (hrow' : row' = { copy with
      satisfied_run_ids := copy.satisfied_run_ids ++ [children t], updated_at := now })
    (hstale : ∀ u, u ≠ t → stale' u = true) :
    JoinInv awaitId children awaited row' (Function.update phases t .saved) stale' := by
  obtain rfl := (h.copied t copy hphase).2 hfresh
  subst hrow'
  have hgrow : ∀ x ∈ copy.satisfied_run_ids, x ∈ copy.satisfied_run_ids ++ [children t] :=
    fun x hx => List.mem_append_left _ hx
  have hother : ∀ u p, p ≠ .saved → Function.update phases t .saved u = p → u ≠ t ∧ phases u = p := by
    intro u p hp hu
    have hut : u ≠ t := by
      rintro rfl
      rw [Function.update_self] at hu
      exact hp hu.symm
    rw [Function.update_of_ne hut] at hu
    exact ⟨hut, hu⟩
  refine ⟨h.awaited_eq, h.isOpen, ?_, ?_, ?_, ?_, ?_, ?_, ?_, ?_, ?_⟩
  · intro u hu
    exact h.reached u (hother u _ (by simp) hu).2
  · intro u entity hu
    obtain ⟨hut, hu⟩ := hother u _ (by simp) hu
    refine ⟨fun x hx => hgrow x ((h.copied u entity hu).1 x hx), fun hfalse => ?_⟩
    rw [hstale u hut] at hfalse
    exact absurd hfalse (by simp)
  · intro u entity hu
    obtain ⟨-, hu⟩ := hother u _ (by simp) hu
    exact ⟨(h.decided u entity hu).1, fun x hx => hgrow x ((h.decided u entity hu).2 x hx)⟩
  · intro u hu
    by_cases hut : u = t
    · subst hut
      exact List.any_eq_true.2 ⟨children u, by simp, by simp⟩
    · rw [Function.update_of_ne hut] at hu
      exact hasChild_of_subset hgrow (h.marked u hu)
  · intro u hu
    exact h.won u (hother u _ (by simp) hu).2
  · intro u v hu hv
    exact h.unique u v (hother u _ (by simp) hu).2 (hother v _ (by simp) hv).2
  · intro hresuming
    obtain ⟨hfull, u, hu⟩ := h.resuming hresuming
    refine ⟨isFullySatisfied_of_subset hfull rfl hgrow, u, ?_⟩
    have hut : u ≠ t := by
      rintro rfl
      rw [hphase] at hu
      exact absurd hu (by simp)
    rwa [Function.update_of_ne hut]
  · intro u hu
    exact h.passed u (hother u _ (by simp) hu).2
  · intro _ _
    refine ⟨t, .inl ?_⟩
    rw [Function.update_self]

/-- Call `t` promotes the waiting await it has found fully satisfied. -/
theorem JoinInv.promote {entity : AgentAwait} {now : Nat}
    (h : JoinInv awaitId children awaited row phases stale) (hphase : phases t = .decided entity)
    (hfull : entity.isFullySatisfied = true) (hwaiting : row.status = .waiting)
    (hrow' : row' = { row with status := .resuming, updated_at := now })
    (hstale : ∀ u, u ≠ t → stale' u = true) :
    JoinInv awaitId children awaited row' (Function.update phases t .won) stale' := by
  subst hrow'
  have hother : ∀ u p, p ≠ .won → Function.update phases t .won u = p → u ≠ t ∧ phases u = p := by
    intro u p hp hu
    have hut : u ≠ t := by
      rintro rfl
      rw [Function.update_self] at hu
      exact hp hu.symm
    rw [Function.update_of_ne hut] at hu
    exact ⟨hut, hu⟩
  -- nobody has won before
  have hself : ∀ u, Function.update phases t .won u = .won → u = t := by
    intro u hu
    by_contra hut
    rw [Function.update_of_ne hut] at hu
    rw [h.won u hu] at hwaiting
    exact absurd hwaiting (by simp)
  obtain ⟨hawaited, hsubset⟩ := h.decided t entity hphase
  have hrowFull : row.isFullySatisfied = true :=
    isFullySatisfied_of_subset hfull (h.awaited_eq.trans hawaited.symm) hsubset
  refine ⟨h.awaited_eq, .inr rfl, ?_, ?_, ?_, ?_, ?_, ?_, ?_, ?_, ?_⟩
  · intro u hu
    exact h.reached u (hother u _ (by simp) hu).2
  · intro u copy hu
    obtain ⟨hut, hu⟩ := hother u _ (by simp) hu
    refine ⟨(h.copied u copy hu).1, fun hfalse => ?_⟩
    rw [hstale u hut] at hfalse
    exact absurd hfalse (by simp)
  · intro u copy hu
    exact h.decided u copy (hother u _ (by simp) hu).2
  · intro u hu
    by_cases hut : u = t
    · subst hut
      have hmarked : (phases u).HasMarked := by
        rw [hphase]
        trivial
      exact h.marked u hmarked
    · rw [Function.update_of_ne hut] at hu
      exact h.marked u hu
  · intro _ _
    rfl
  · intro u v hu hv
    exact (hself u hu).trans (hself v hv).symm
  · intro _
    exact ⟨hrowFull, t, Function.update_self _ _ _⟩
  · intro _ _ _
    rfl
  · intro _ hfalse
    exact absurd hfalse (by simp)

end Invariant

/-! ## Runs -/

section Runs

variable {ι : Type} [DecidableEq ι] {α : Type}

/-- Another call has written the await since call `t` last read it. -/
def overtaken (awaitId : String) (t : ι) : List (Entry ι AwaitOp AwaitOp.Ans) → Bool
  | [] => false
  | ⟨u, .findById id, _⟩ :: log => if u = t ∧ id = awaitId then false else overtaken awaitId t log
  | ⟨u, .save entity, _⟩ :: log =>
      (u ≠ t && entity.id = awaitId) || overtaken awaitId t log
  | ⟨u, .compareAndSetStatus id _ _, ans⟩ :: log =>
      (u ≠ t && id = awaitId && (ans : Bool)) || overtaken awaitId t log
  | _ :: log => overtaken awaitId t log

/-- How far the calls have come. -/
def joinPhases (awaitId : String) (log : List (Entry ι AwaitOp AwaitOp.Ans)) (t : ι) : JoinPhase :=
  Pool.track (JoinPhase.next awaitId) (fun _ => .start) log t

/-- The condition on a step: no call saves a copy of the await after another call has written the
row, and no call promotes another await while it still has to reach this one. -/
def KeepsJoin (awaitId : String) (c : Config ι AwaitOp AwaitOp.Ans AwaitError α AwaitStore) (t : ι) :
    AwaitOp → Prop
  | .save entity => entity.id = awaitId → overtaken awaitId t c.log = false
  | .compareAndSetStatus id sourceStatus _ => id ≠ awaitId →
      joinPhases awaitId c.log t = .ahead →
        c.world.awaits.any (fun x => x.id = id && x.status = sourceStatus) = false
  | _ => True

instance (awaitId : String) (c : Config ι AwaitOp AwaitOp.Ans AwaitError α AwaitStore) (t : ι)
    (o : AwaitOp) : Decidable (KeepsJoin awaitId c t o) :=
  match o with
  | .save entity => inferInstanceAs (Decidable (entity.id = awaitId → _ = false))
  | .compareAndSetStatus id sourceStatus _ =>
      inferInstanceAs (Decidable (id ≠ awaitId → joinPhases awaitId c.log t = .ahead →
        c.world.awaits.any (fun x => x.id = id && x.status = sourceStatus) = false))
  | .findById _ | .findWaitingByAwaitedChild _ | .cancelOpenForParentRun _ | .findNonTerminal
  | .publishProcessEvent _ _ | .findRun _ | .findSessionTreeByWorkflowRunId _
  | .appendSystemResultNode _ _ | .clearWaitState _ | .resumeJobWithMessage _ _ _ _ _
  | .handleJobFailed _ _ _ | .now | .beginReconcile | .endReconcile | .attemptsFor _
  | .recordAttempt _ | .deleteAttempts _ => inferInstanceAs (Decidable True)

/-- A configuration of the calls of the children of an await. -/
def JoinConfig (awaitId : String) (children : ι → SatisfiedChild) (awaited : List String)
    (c : Config ι AwaitOp AwaitOp.Ans AwaitError α AwaitStore) : Prop :=
  c.world.KeysDistinct ∧ ∃ row, c.world.find awaitId = some row ∧
    JoinInv awaitId children awaited row (joinPhases awaitId c.log)
      (fun t => overtaken awaitId t c.log)

variable {e : AwaitSurroundings} {awaitId : String} {children : ι → SatisfiedChild}
  {awaited : List String} {c : Config ι AwaitOp AwaitOp.Ans AwaitError α AwaitStore} {t : ι}
  {o : AwaitOp} {k : o.Ans → Awaiting α} {row : AgentAwait}

theorem joinPhases_advance :
    joinPhases awaitId (Pool.advance (awaitStore e) c t o k).log =
      Function.update (joinPhases awaitId c.log) t
        ((joinPhases awaitId c.log t).next awaitId o (o.exec e c.world).2) :=
  Pool.track_advance (k := k)

variable {now : Nat}

/-- The row that a save writes. -/
theorem after_save (hid : row.id = entity.id) :
    ∃ now', row.after now (.save entity) = { entity with updated_at := now' } := by
  by_cases hsame : { entity with updated_at := row.updated_at } = row
  · exact ⟨row.updated_at, by simp [AgentAwait.after, hsame]⟩
  · exact ⟨now, by simp [AgentAwait.after, hid, hsame]⟩

theorem after_compareAndSet_of_ne {id : String} (hid : row.id ≠ id) :
    row.after now (.compareAndSetStatus id sourceStatus targetStatus) = row := by
  simp [AgentAwait.after, hid]

theorem after_save_of_ne (hid : row.id ≠ entity.id) : row.after now (.save entity) = row := by
  simp [AgentAwait.after, hid]

theorem overtaken_compareAndSet_of_ne {id : String} {u : ι}
    {log : List (Entry ι AwaitOp AwaitOp.Ans)} (hid : id ≠ awaitId) (ans : Bool) :
    overtaken awaitId u (⟨t, .compareAndSetStatus id sourceStatus targetStatus, ans⟩ :: log) =
      overtaken awaitId u log := by
  simp [overtaken, hid]

/-- The configuration after a step, from the row, the phases and the outdated copies after it. -/
theorem joinConfig_advance (hkeys : c.world.KeysDistinct)
    (hrow : c.world.find awaitId = some row)
    (h : JoinInv awaitId children awaited (row.after (e.clock c.world.time) o)
      (Function.update (joinPhases awaitId c.log) t
        ((joinPhases awaitId c.log t).next awaitId o (o.exec e c.world).2))
      (fun u => overtaken awaitId u (⟨t, o, (o.exec e c.world).2⟩ :: c.log))) :
    JoinConfig awaitId children awaited (Pool.advance (awaitStore e) c t o k) := by
  refine ⟨keysDistinct_exec hkeys, row.after (e.clock c.world.time) o, find_exec hrow, ?_⟩
  rw [joinPhases_advance]
  exact h

/-- A step that neither writes the row nor changes the phase of the call. -/
theorem joinConfig_idle (h : JoinConfig awaitId children awaited c)
    (hafter : ∀ row : AgentAwait, row.id = awaitId → row.after (e.clock c.world.time) o = row)
    (hnext : (joinPhases awaitId c.log t).next awaitId o (o.exec e c.world).2 =
      joinPhases awaitId c.log t)
    (hstale : ∀ u, overtaken awaitId u (⟨t, o, (o.exec e c.world).2⟩ :: c.log) =
      overtaken awaitId u c.log) :
    JoinConfig awaitId children awaited (Pool.advance (awaitStore e) c t o k) := by
  obtain ⟨hkeys, row, hrow, hinv⟩ := h
  apply joinConfig_advance hkeys hrow
  rw [hafter row (find_id hrow)]
  exact hinv.idle hnext (funext hstale)

/-- A call reads the row, in a phase that waits for it. -/
theorem moves_findById
    (hinv : JoinInv awaitId children awaited row (joinPhases awaitId c.log)
      (fun t => overtaken awaitId t c.log))
    (hissues : joinPhases awaitId c.log t = .ahead ∨ joinPhases awaitId c.log t = .saved ∨
      joinPhases awaitId c.log t = .marked ∨ ∃ entity,
        joinPhases awaitId c.log t = .copied entity ∧
          entity.hasChild (children t).runId = true) :
    Moves children awaited row t (joinPhases awaitId c.log t)
      ((joinPhases awaitId c.log t).next awaitId (.findById awaitId) (some row)) := by
  have hmarked := hinv.marked t
  rcases hissues with h | h | h | ⟨entity, h, hchild⟩
  · rw [h]
    constructor <;> simp [JoinPhase.next, JoinPhase.HasMarked, JoinPhase.Promotes]
  · rw [h] at hmarked ⊢
    constructor <;> simp [JoinPhase.next, JoinPhase.Promotes, hmarked trivial]
  · rw [h] at hmarked ⊢
    constructor <;> simp +contextual [JoinPhase.next, JoinPhase.Promotes, hmarked trivial]
  · have hrowChild := hasChild_of_subset (hinv.copied t entity h).1 hchild
    rw [h]
    constructor <;> simp [JoinPhase.next, JoinPhase.Promotes, hrowChild]

/-- A call looks for the awaits of its child. -/
theorem moves_findWaiting {found : List AgentAwait}
    (hinv : JoinInv awaitId children awaited row (joinPhases awaitId c.log)
      (fun t => overtaken awaitId t c.log))
    (hstart : joinPhases awaitId c.log t = .start)
    (hfound : awaitId ∈ found.map AgentAwait.id ↔
      row.status = .waiting ∧ (children t).runId ∈ row.awaited_run_ids) :
    Moves children awaited row t (joinPhases awaitId c.log t)
      ((joinPhases awaitId c.log t).next awaitId
        (.findWaitingByAwaitedChild (children t).runId) found) := by
  rw [hstart]
  by_cases hmem : awaitId ∈ found.map AgentAwait.id
  · have hnext : JoinPhase.next awaitId .start
        (.findWaitingByAwaitedChild (children t).runId) found = .ahead := if_pos hmem
    rw [hnext]
    constructor <;> simp [JoinPhase.HasMarked, JoinPhase.Promotes]
  · have hnext : JoinPhase.next awaitId .start
        (.findWaitingByAwaitedChild (children t).runId) found = .passed := if_neg hmem
    rw [hnext]
    have hresuming : (children t).runId ∈ awaited → row.status = .resuming := by
      intro hchild
      apply hinv.isOpen.resolve_left
      intro hwaiting
      exact hmem (hfound.2 ⟨hwaiting, hinv.awaited_eq ▸ hchild⟩)
    constructor <;> simp [JoinPhase.HasMarked, JoinPhase.Promotes]
    exact hresuming

/-- **The step lemma.** A step that the contract and the condition allow keeps the invariant. -/
theorem joinConfig_step (h : JoinConfig awaitId children awaited c)
    (hissues : (joinPhases awaitId c.log t).Issues awaitId (children t) o)
    (hcond : KeepsJoin awaitId c t o) :
    (joinPhases awaitId c.log t).Answers awaitId o (o.exec e c.world).2 ∧
      JoinConfig awaitId children awaited (Pool.advance (awaitStore e) c t o k) := by
  obtain ⟨hkeys, row, hrow, hinv⟩ := id h
  replace hissues := hissues.resolve_left (hinv.reached t)
  cases o with
  | findWaitingByAwaitedChild childRunId =>
      obtain ⟨hstart, rfl⟩ := hissues
      refine ⟨nodup_findWaiting hkeys rfl, joinConfig_advance hkeys hrow (hinv.move ?_ ?_)⟩
      · exact moves_findWaiting hinv hstart (mem_findWaiting (e := e) hkeys hrow rfl)
      · intro u _
        rfl
  | findById id =>
      refine ⟨⟨fun entity hentity => find_id hentity, ?_⟩, ?_⟩
      · rintro rfl hnone
        have hans : c.world.find id = none := hnone
        rw [hrow] at hans
        exact absurd hans (by simp)
      · by_cases hid : id = awaitId
        · subst hid
          apply joinConfig_advance hkeys hrow
          have hans : ((AwaitOp.findById id).exec e c.world).2 = some row := hrow
          rw [hans]
          refine hinv.move (moves_findById hinv (hissues rfl)) fun u hut => ?_
          simp [overtaken, Ne.symm hut]
        · apply joinConfig_idle h (fun _ _ => rfl) (next_findById_of_ne hid _)
          intro u
          simp [overtaken, hid]
  | save entity =>
      refine ⟨trivial, ?_⟩
      by_cases hid : entity.id = awaitId
      · obtain ⟨copy, hcopy, hentity⟩ := hissues hid
        apply joinConfig_advance hkeys hrow
        have hrowId : row.id = entity.id := (find_id hrow).trans hid.symm
        obtain ⟨now, hafter⟩ : ∃ now, row.after (e.clock c.world.time) (.save entity) =
            { entity with updated_at := now } := after_save hrowId
        have hnext : (joinPhases awaitId c.log t).next awaitId (.save entity)
            ((AwaitOp.save entity).exec e c.world).2 = .saved := by
          simp [JoinPhase.next, hcopy, hid]
        rw [hafter, hnext]
        refine hinv.save hcopy (hcond hid) (by rw [hentity]) fun u hut => ?_
        simp [overtaken, Ne.symm hut, hid]
      · apply joinConfig_idle h _ (next_save_of_ne hid)
        · intro u
          simp [overtaken, hid]
        · intro row hrow
          exact after_save_of_ne fun heq => hid (heq.symm.trans hrow)
  | compareAndSetStatus id sourceStatus targetStatus =>
      refine ⟨trivial, ?_⟩
      by_cases hid : id = awaitId
      · obtain ⟨rfl, rfl, entity, hentity, hfull⟩ := hissues hid
        subst hid
        have hans : ((AwaitOp.compareAndSetStatus id .waiting .resuming).exec e c.world).2 =
            decide (row.status = .waiting) := compareAndSet_ans hkeys hrow
        apply joinConfig_advance hkeys hrow
        rw [hans, hentity]
        by_cases hwaiting : row.status = .waiting
        · have hafter : row.after (e.clock c.world.time)
              (.compareAndSetStatus id .waiting .resuming) =
              { row with status := .resuming, updated_at := e.clock c.world.time } := by
            simp [AgentAwait.after, find_id hrow, hwaiting]
          have hnext : (JoinPhase.decided entity).next id
              (.compareAndSetStatus id .waiting .resuming) (decide (row.status = .waiting)) =
              .won := by simp [JoinPhase.next, hwaiting]
          rw [hnext]
          refine hinv.promote hentity hfull hwaiting hafter fun u hut => ?_
          simp [overtaken, Ne.symm hut, hwaiting]
        · have hafter : row.after (e.clock c.world.time)
              (.compareAndSetStatus id .waiting .resuming) = row := by
            simp [AgentAwait.after, hwaiting]
          have hnext : (JoinPhase.decided entity).next id
              (.compareAndSetStatus id .waiting .resuming) (decide (row.status = .waiting)) =
              .lost := by simp [JoinPhase.next, hwaiting]
          have hmarked : (joinPhases id c.log t).HasMarked := by
            rw [hentity]
            trivial
          rw [hnext, hafter]
          refine hinv.move ?_ fun u hut => ?_
          · rw [hentity]
            constructor <;> simp [hinv.marked t hmarked, hwaiting]
          · simp [overtaken, hwaiting]
      · apply joinConfig_idle h
        · intro row hrow
          exact after_compareAndSet_of_ne fun heq => hid (heq.symm.trans hrow)
        · by_cases hahead : joinPhases awaitId c.log t = .ahead
          · -- by the condition the other await is not promoted
            have hans : ((AwaitOp.compareAndSetStatus id sourceStatus targetStatus).exec e
                c.world).2 = false := hcond hid hahead
            rw [hans, hahead]
            rfl
          · exact next_compareAndSet_of_ne hid hahead _
        · exact fun _ => overtaken_compareAndSet_of_ne hid _
  | publishProcessEvent runId event =>
      refine ⟨trivial, joinConfig_idle h (fun _ _ => rfl) ?_ fun _ => rfl⟩
      cases joinPhases awaitId c.log t <;> rfl
  | _ => exact hissues.elim

/-! ### Who has promoted the await -/

/-- The operation has moved the await from WAITING to RESUMING. -/
def AwaitOp.promotes (awaitId : String) : (o : AwaitOp) → o.Ans → Bool
  | .compareAndSetStatus id .waiting .resuming, ans => if id = awaitId then ans else false
  | _, _ => false

/-- The call has moved the await from WAITING to RESUMING. -/
def promotedBy (awaitId : String) (t : ι) (log : List (Entry ι AwaitOp AwaitOp.Ans)) : Bool :=
  log.any fun entry => entry.tid = t && entry.op.promotes awaitId entry.ans

/-- The call has returned the await as ready. -/
def returnedReady (awaitId : String)
    (c : Config ι AwaitOp AwaitOp.Ans AwaitError (Option AgentAwait) AwaitStore) (t : ι) : Prop :=
  ∃ entity, (c.threads t).value? = some (some entity) ∧ entity.id = awaitId

/-- The calls of the children before their first step. -/
def joinStart (children : ι → SatisfiedChild) (s : AwaitStore) :
    Config ι AwaitOp AwaitOp.Ans AwaitError (Option AgentAwait) AwaitStore :=
  Pool.start s fun t => onChildTerminal (children t)

/-- A call wins by promoting the await. -/
theorem next_eq_won {child : SatisfiedChild} {phase : JoinPhase} {ans : o.Ans}
    (hissues : phase.Issues awaitId child o) (hreached : phase ≠ .missed) :
    phase.next awaitId o ans = .won ↔ phase = .won ∨ o.promotes awaitId ans = true := by
  replace hissues := hissues.resolve_left hreached
  cases o with
  | findWaitingByAwaitedChild childRunId =>
      obtain ⟨rfl, -⟩ := hissues
      by_cases hmem : awaitId ∈ (ans : List AgentAwait).map AgentAwait.id
      · simp [JoinPhase.next, AwaitOp.promotes, if_pos hmem]
      · simp [JoinPhase.next, AwaitOp.promotes, if_neg hmem]
  | findById id =>
      by_cases hid : id = awaitId
      · rcases hissues hid with rfl | rfl | rfl | ⟨entity, rfl, -⟩ <;>
          cases hans : (ans : Option AgentAwait) <;>
          simp [JoinPhase.next, AwaitOp.promotes, hid]
      · have hnext : phase.next awaitId (.findById id) ans = phase := next_findById_of_ne hid ans
        simp [hnext, AwaitOp.promotes]
  | save entity =>
      by_cases hid : entity.id = awaitId
      · obtain ⟨copy, rfl, -⟩ := hissues hid
        simp [JoinPhase.next, AwaitOp.promotes, hid]
      · have hnext : phase.next awaitId (.save entity) ans = phase := next_save_of_ne hid
        simp [hnext, AwaitOp.promotes]
  | compareAndSetStatus id sourceStatus targetStatus =>
      by_cases hid : id = awaitId
      · obtain ⟨rfl, rfl, entity, rfl, -⟩ := hissues hid
        cases hans : (ans : Bool) <;> simp [JoinPhase.next, AwaitOp.promotes, hid]
      · have hpromotes : (AwaitOp.compareAndSetStatus id sourceStatus targetStatus).promotes
            awaitId ans = false := by
          cases sourceStatus <;> cases targetStatus <;> simp [AwaitOp.promotes, hid]
        rw [hpromotes]
        by_cases hahead : phase = .ahead
        · subst hahead
          cases hans : (ans : Bool) <;> simp [JoinPhase.next]
        · have hnext : phase.next awaitId (.compareAndSetStatus id sourceStatus targetStatus) ans =
              phase := next_compareAndSet_of_ne hid hahead ans
          simp [hnext]
  | publishProcessEvent runId event => cases phase <;> simp [JoinPhase.next, AwaitOp.promotes]
  | _ => exact hissues.elim

/-- The calls that have won are those that have promoted the await. -/
theorem won_iff_promotedBy_step
    (h : ∀ t, joinPhases awaitId c.log t = .won ↔ promotedBy awaitId t c.log = true)
    (hissues : (joinPhases awaitId c.log t).Issues awaitId (children t) o)
    (hreached : joinPhases awaitId c.log t ≠ .missed) (u : ι) :
    joinPhases awaitId (Pool.advance (awaitStore e) c t o k).log u = .won ↔
      promotedBy awaitId u (Pool.advance (awaitStore e) c t o k).log = true := by
  rw [joinPhases_advance]
  by_cases hut : u = t
  · subst hut
    rw [Function.update_self, next_eq_won hissues hreached, h u]
    simp only [promotedBy, Pool.advance, List.any_cons, decide_true, Bool.true_and,
      Bool.or_eq_true]
    exact or_comm
  · rw [Function.update_of_ne hut, h u]
    simp [promotedBy, Pool.advance, Ne.symm hut]

/-! ### The join -/

/-- The calls before their first step. -/
theorem joinConfig_start {s : AwaitStore} (hkeys : s.KeysDistinct)
    (hrow : s.find awaitId = some row) (hwaiting : row.status = .waiting)
    (hnone : row.satisfied_run_ids = []) (hne : row.awaited_run_ids ≠ []) :
    JoinConfig awaitId children row.awaited_run_ids (joinStart children s) := by
  have hpartial : ¬ row.isFullySatisfied = true := by
    intro hfull
    obtain ⟨runId, hrunId⟩ := List.exists_mem_of_ne_nil _ hne
    have hchild := isFullySatisfied_iff.1 hfull runId hrunId
    simp [AgentAwait.hasChild, hnone] at hchild
  refine ⟨hkeys, row, hrow, ?_⟩
  have hstart : ∀ t : ι, joinPhases awaitId (joinStart children s).log t = .start := fun _ => rfl
  refine ⟨rfl, .inl hwaiting, ?_, ?_, ?_, ?_, ?_, ?_, ?_, ?_, ?_⟩
  · intro t ht
    exact nomatch ht
  · intro t copy ht
    exact nomatch ht
  · intro t entity ht
    exact nomatch ht
  · intro t ht
    exact ht.elim
  · intro t ht
    exact nomatch ht
  · intro t u ht
    exact nomatch ht
  · intro hresuming
    rw [hwaiting] at hresuming
    exact nomatch hresuming
  · intro t ht
    exact nomatch ht
  · intro hfull
    exact absurd hfull hpartial

/-- A configuration of the join, where the calls that have won are named by the log. -/
def JoinState (awaitId : String) (children : ι → SatisfiedChild) (awaited : List String)
    (c : Config ι AwaitOp AwaitOp.Ans AwaitError α AwaitStore) : Prop :=
  JoinConfig awaitId children awaited c ∧
    ∀ t, joinPhases awaitId c.log t = .won ↔ promotedBy awaitId t c.log = true

/-- The invariant of every reachable configuration; a call that has returned is done. -/
theorem joinState_of_reach {s : AwaitStore}
    {c : Config ι AwaitOp AwaitOp.Ans AwaitError (Option AgentAwait) AwaitStore}
    (hstart : JoinConfig awaitId children awaited (joinStart children s))
    (hreach : Pool.Reach (awaitStore e) (KeepsJoin awaitId) (joinStart children s) c) :
    JoinState awaitId children awaited c ∧
      ∀ t ready, c.threads t = .pure ready → (joinPhases awaitId c.log t).Done awaitId ready := by
  have hmeets : ∀ t, JoinSpec awaitId (children t) ((joinStart children s).threads t)
      (joinPhases awaitId (joinStart children s).log t)
      (fun ready phase => phase = .missed ∨ phase.Done awaitId ready) :=
    fun _ => onChildTerminal_spec
  have hstarted : JoinState awaitId children awaited (joinStart children s) :=
    ⟨hstart, fun _ => ⟨nofun, nofun⟩⟩
  have hfollows : JoinState awaitId children awaited c ∧
      ∀ t, JoinSpec awaitId (children t) (c.threads t) (joinPhases awaitId c.log t)
        (fun ready phase => phase = .missed ∨ phase.Done awaitId ready) := by
    refine Pool.Reach.follows hmeets hstarted ?_ hreach
    rintro c t o k ⟨hconfig, hwon⟩ - hissues - hcond
    obtain ⟨-, row, -, hinv⟩ := id hconfig
    obtain ⟨hanswers, hconfig'⟩ := joinConfig_step (e := e) hconfig hissues hcond
    exact ⟨hanswers, hconfig', won_iff_promotedBy_step hwon hissues (hinv.reached t)⟩
  obtain ⟨hstate, hthreads⟩ := hfollows
  refine ⟨hstate, fun t ready hthread => ?_⟩
  have hdone := hthreads t
  rw [hthread] at hdone
  obtain ⟨⟨-, row, -, hinv⟩, -⟩ := hstate
  exact Or.resolve_left hdone (hinv.reached t)

/-- **Agent-await joins are not lost** as long as no call saves an outdated copy of the await, and
no call promotes another await before it has reached this one. When the calls of all awaited
children have returned, all children are marked satisfied, and one call has moved the await from
WAITING to RESUMING and returned it as ready; no other call has done either. -/
theorem agent_await_joined {s : AwaitStore}
    {c : Config ι AwaitOp AwaitOp.Ans AwaitError (Option AgentAwait) AwaitStore}
    (hkeys : s.KeysDistinct) (hrow : s.find awaitId = some row)
    (hwaiting : row.status = .waiting) (hnone : row.satisfied_run_ids = [])
    (hne : row.awaited_run_ids ≠ [])
    (hcalls : ∀ runId ∈ row.awaited_run_ids, ∃ t, (children t).runId = runId)
    (hreach : Pool.Reach (awaitStore e) (KeepsJoin awaitId) (joinStart children s) c)
    (hreturned : ∀ t, (c.threads t).value?.isSome) :
    ∃ row', c.world.find awaitId = some row' ∧
      (∀ runId ∈ row.awaited_run_ids, row'.hasChild runId = true) ∧
      ∃ t, promotedBy awaitId t c.log = true ∧ returnedReady awaitId c t ∧
        ∀ u, promotedBy awaitId u c.log = true ∨ returnedReady awaitId c u → u = t := by
  obtain ⟨⟨⟨-, row', hrow', hinv⟩, hwon⟩, hdone⟩ :=
    joinState_of_reach (joinConfig_start hkeys hrow hwaiting hnone hne) hreach
  have hdone' : ∀ t, ∃ ready, c.threads t = .pure ready ∧
      (joinPhases awaitId c.log t).Done awaitId ready := by
    intro t
    obtain ⟨ready, hready⟩ := Option.isSome_iff_exists.1 (hreturned t)
    have hthread := Prog.value?_eq_some.1 hready
    exact ⟨ready, hthread, hdone t ready hthread⟩
  -- a call that returned the await has won it
  have hready : ∀ u, returnedReady awaitId c u → joinPhases awaitId c.log u = .won := by
    rintro u ⟨entity, hvalue, hid⟩
    obtain ⟨hphase, -⟩ | ⟨-, hother⟩ := hdone u _ (Prog.value?_eq_some.1 hvalue)
    · exact hphase
    · exact absurd hid (hother entity rfl)
  have hfull : row'.isFullySatisfied = true := by
    rw [isFullySatisfied_iff, hinv.awaited_eq]
    intro runId hrunId
    obtain ⟨t, rfl⟩ := hcalls runId hrunId
    obtain ⟨ready, -, ⟨hphase, -⟩ | ⟨hphase | hphase | ⟨entity, hphase, -⟩, -⟩⟩ := hdone' t
    · exact hinv.marked t (by rw [hphase]; trivial)
    · have hresuming := (hinv.resuming (hinv.passed t hphase hrunId)).1
      exact isFullySatisfied_iff.1 hresuming _ (hinv.awaited_eq ▸ hrunId)
    · exact hinv.marked t (by rw [hphase]; trivial)
    · exact hinv.marked t (by rw [hphase]; trivial)
  -- nobody is left to promote the await, so it has been promoted
  have hresuming : row'.status = .resuming := by
    apply hinv.isOpen.resolve_left
    intro hwaiting'
    obtain ⟨t, hpromotes⟩ := hinv.promoter hfull hwaiting'
    obtain ⟨ready, -, hphase⟩ := hdone' t
    rcases hpromotes with h | h | ⟨entity, h, hentity⟩
    · simp [h, JoinPhase.Done] at hphase
    · simp [h, JoinPhase.Done] at hphase
    · simp [h, JoinPhase.Done, hentity] at hphase
  obtain ⟨-, t, ht⟩ := hinv.resuming hresuming
  refine ⟨row', hrow', ?_, t, (hwon t).1 ht, ?_, ?_⟩
  · rw [← hinv.awaited_eq]
    exact isFullySatisfied_iff.1 hfull
  · obtain ⟨ready, hthread, ⟨-, entity, rfl, hid⟩ | ⟨hphase, -⟩⟩ := hdone' t
    · exact ⟨entity, Prog.value?_eq_some.2 hthread, hid⟩
    · simp [ht] at hphase
  · rintro u (hu | hu)
    · exact hinv.unique u t ((hwon u).2 hu) ht
    · exact hinv.unique u t (hready u hu) ht

end Runs

/-! ## Two children -/

/-- A parent that waits for two children. -/
def joinStore : AwaitStore where
  awaits := [{
    id := "await"
    parent_run_id := "parent"
    parent_step_id := "step"
    awaited_run_ids := ["first", "second"] }]

/-- A clock that shows the number of operations, and nothing else. -/
def joinSurroundings : AwaitSurroundings where
  clock time := time
  run _ _ := none
  sessionTree _ _ := none
  resumedJob _ _ := none

/-- The call of each of the two children. -/
def twoChildren : Bool → SatisfiedChild
  | false => ⟨"first", .completed⟩
  | true => ⟨"second", .completed⟩

/-- The calls after a schedule. -/
def joinRun (sched : List (Bool × Nat)) :
    Config Bool AwaitOp AwaitOp.Ans AwaitError (Option AgentAwait) AwaitStore :=
  Pool.play (awaitStore joinSurroundings) sched (joinStart twoChildren joinStore)

/-- Two calls after each other: the second one promotes the await. -/
theorem agent_await_joined_sequential :
    ∃ row', (joinRun [(false, 6), (true, 7)]).world.find "await" = some row' ∧
      (∀ runId ∈ ["first", "second"], row'.hasChild runId = true) ∧
      ∃ t, promotedBy "await" t (joinRun [(false, 6), (true, 7)]).log = true ∧
        returnedReady "await" (joinRun [(false, 6), (true, 7)]) t ∧
        ∀ u, promotedBy "await" u (joinRun [(false, 6), (true, 7)]).log = true ∨
          returnedReady "await" (joinRun [(false, 6), (true, 7)]) u → u = t := by
  have hkeeps : Pool.admits (awaitStore joinSurroundings) (KeepsJoin "await")
      [(false, 6), (true, 7)] (joinStart twoChildren joinStore) = true := by decide +kernel
  have hreach : Pool.Reach (awaitStore joinSurroundings) (KeepsJoin "await")
      (joinStart twoChildren joinStore) (joinRun [(false, 6), (true, 7)]) :=
    Pool.reach_play_of_admits _ _ hkeeps
  have hcalls : ∀ runId ∈ ["first", "second"], ∃ t, (twoChildren t).runId = runId := by decide
  exact agent_await_joined (s := joinStore) (List.nodup_singleton _) rfl rfl rfl (by simp) hcalls hreach
    (by decide +kernel)

/-- Two calls that both read the await before either saves it: the child that is saved first is
lost, both calls have returned, and nobody has promoted the await. -/
theorem child_lost_from_join :
    ∃ c : Config Bool AwaitOp AwaitOp.Ans AwaitError (Option AgentAwait) AwaitStore,
      Pool.Reach (awaitStore joinSurroundings) Pool.anyStep (joinStart twoChildren joinStore) c ∧
      (∀ t, (c.threads t).value? = some none) ∧
      ∃ row', c.world.find "await" = some row' ∧ row'.awaited_run_ids = ["first", "second"] ∧
        row'.satisfied_run_ids = [⟨"second", .completed⟩] ∧ row'.status = .waiting := by
  refine ⟨joinRun [(false, 2), (true, 2), (false, 4), (true, 4)], Pool.reach_play _ _,
    by decide +kernel, ?_⟩
  exact ⟨{
    id := "await"
    parent_run_id := "parent"
    parent_step_id := "step"
    awaited_run_ids := ["first", "second"]
    satisfied_run_ids := [⟨"second", .completed⟩]
    updated_at := 8 }, by decide +kernel, rfl, rfl, rfl⟩

end Nexus
