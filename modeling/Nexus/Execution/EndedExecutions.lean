import Nexus.Execution.TerminalOutcome

/-!
# Ended executions

The legality of a transition is checked on a copy, and the save comes later. An execution that has
ended keeps its outcome in every interleaving of deliveries, dispatches and sweeps in which no save
of an outcome follows the end of the row by another call after the copy was read, and no row that
is past `pending` is created again (`KeepsOutcomes`).
-/

set_option autoImplicit false

namespace Nexus

/-- The columns that say how an execution ended. -/
structure ExecutionEnd where
  state : ExecutionState
  failure_reason : Option ExecutionFailureReason
  error_message : Option String
  terminal_at : Option Nat
  deriving DecidableEq

def Execution.outcome (row : Execution) : ExecutionEnd :=
  ⟨row.state, row.failure_reason, row.error_message, row.terminal_at⟩

/-- The outcome of a row that has ended. -/
def ExecutionTable.endOf (w : ExecutionTable) (id : String) : Option ExecutionEnd :=
  (w.find id).bind fun row => if isTerminalState row.state then some row.outcome else none

/-- One of the columns of the outcome is written. -/
def ExecutionColumns.touchesOutcome (c : ExecutionColumns) : Bool :=
  c.state.isSome || c.failure_reason.isSome || c.error_message.isSome || c.terminal_at.isSome

/-- The operation leaves the row of an id in a terminal state. -/
def ExecutionOp.ends (id : String) : ExecutionOp → Bool
  | .save id' c => id' = id && c.state.any isTerminalState
  | .create id' c => id' = id && c.state.any isTerminalState
  | _ => false

/-- The operation reads the row of an id. -/
def ExecutionOp.reads (id : String) : ExecutionOp → Bool
  | .findById id' => id' = id
  | _ => false

/-- Another call has ended the row since a call last read it. -/
def endedSince (t : Nat) (id : String) : List (Entry Nat ExecutionOp ExecutionOp.Ans) → Bool
  | [] => false
  | e :: log =>
      if e.tid = t then !e.op.reads id && endedSince t id log
      else e.op.ends id || endedSince t id log

/-- A save writes an outcome only when no other call has ended the row since it was read, and a row
that is past `pending` is not created again. -/
def KeepsOutcomes (c : ExecutionSystem) (t : Nat) : ExecutionOp → Prop
  | .save id columns => columns.touchesOutcome = true → endedSince t id c.log = false
  | .create id _ => (c.world.find id).all (fun row => row.state = .pending) = true
  | _ => True

instance (c : ExecutionSystem) (t : Nat) (o : ExecutionOp) : Decidable (KeepsOutcomes c t o) := by
  cases o <;> simp only [KeepsOutcomes] <;> exact inferInstance

/-! ## The contract of the calls -/

/-- The copy a call has read and not saved. -/
def copyNext (g : Option Execution) : (o : ExecutionOp) → o.Ans → Option Execution
  | .findById _, found => found
  | .save _ _, _ => none
  | .create _ _, _ => none
  | .findNonTerminal, _ => g
  | .now, _ => g

/-- Only the copy of a row that has not ended is saved, and a row is created as `pending`. -/
def CopyIssues (g : Option Execution) : ExecutionOp → Prop
  | .save id _ => ∃ copy, g = some copy ∧ copy.id = id ∧ isTerminalState copy.state = false
  | .create _ columns => columns.state = some .pending
  | _ => True

def CopyAnswers (_ : Option Execution) : (o : ExecutionOp) → o.Ans → Prop
  | .findById id, some row => row.id = id
  | _, _ => True

/-- The program saves copies of rows that have not ended only, whatever it has read before. -/
def SavesCopies {α : Type} (p : ExecutionProg α) : Prop :=
  ∀ g, Prog.Meets (Pool.following copyNext CopyIssues CopyAnswers) (fun _ _ => True)
    (fun _ _ => True) p g

theorem SavesCopies.bind {α β : Type} {p : ExecutionProg α} {f : α → ExecutionProg β}
    (hp : SavesCopies p) (hf : ∀ a, SavesCopies (f a)) : SavesCopies (p.bind f) :=
  fun g => Prog.Meets.bind (hp g) fun a g' _ => hf a g'

theorem savesCopies_pure {α : Type} (a : α) : SavesCopies (pure a : ExecutionProg α) :=
  fun _ => trivial

theorem savesCopies_await (o : ExecutionOp) (ho : ∀ g, CopyIssues g o) :
    SavesCopies (awaitExecution o) :=
  fun g => ⟨ho g, fun _ _ _ => trivial⟩

section Calls

variable (mode : SaveMode)

theorem applyTransition_savesCopies (id : String) (target : ExecutionState)
    (patch : ExecutionRepository.TransitionPatch) :
    SavesCopies (ExecutionRepository.applyTransition mode id target patch) := by
  intro g
  refine ⟨trivial, ?_⟩
  rintro found g' ⟨hnext, hanswer⟩
  have hcopy : g' = found := hnext
  subst hcopy
  cases g' with
  | none => trivial
  | some row =>
      have hid : row.id = id := hanswer
      simp only [Prog.pure_bind]
      split
      · trivial
      · rename_i hlegal
        have hlive : isTerminalState row.state = false :=
          isTerminalState_of_legal (by simpa using hlegal)
        split
        · -- the clock is read between the read and the save
          refine ⟨trivial, ?_⟩
          rintro now g₂ ⟨rfl, -⟩
          exact ⟨⟨row, rfl, hid, hlive⟩, fun _ _ _ => trivial⟩
        · exact ⟨⟨row, rfl, hid, hlive⟩, fun _ _ _ => trivial⟩

theorem handle_savesCopies (event : LifecycleEvent) :
    SavesCopies (ExecutionProjector.handle mode event) := by
  cases event with
  | created id payload => exact savesCopies_await (.create id _) fun _ => rfl
  | provisioning id => exact applyTransition_savesCopies mode id _ _
  | provisioned id containerId => exact applyTransition_savesCopies mode id _ _
  | running id => exact applyTransition_savesCopies mode id _ _
  | heartbeat id =>
      exact (savesCopies_await .now fun _ => trivial).bind fun _ =>
        applyTransition_savesCopies mode id _ _
  | completed id =>
      exact (applyTransition_savesCopies mode id _ _).bind fun _ =>
        applyTransition_savesCopies mode id _ _
  | failed id payload => exact applyTransition_savesCopies mode id _ _
  | reaped id payload => exact applyTransition_savesCopies mode id _ _
  | cancelled id payload => exact applyTransition_savesCopies mode id _ _

theorem dispatch_savesCopies (executionId : String) (params : DispatchParams)
    (outcome : DispatchOutcome) :
    SavesCopies (ExecutionDispatchService.dispatch mode executionId params outcome) := by
  have hrun : SavesCopies (ExecutionDispatchService.runDispatch mode executionId outcome) := by
    cases outcome with
    | provisionFailed message =>
        exact (handle_savesCopies mode _).bind fun _ => handle_savesCopies mode _
    | kickoffFailed containerId message =>
        exact (handle_savesCopies mode _).bind fun _ =>
          (handle_savesCopies mode _).bind fun _ => handle_savesCopies mode _
    | kickedOff containerId =>
        exact (handle_savesCopies mode _).bind fun _ =>
          (handle_savesCopies mode _).bind fun _ => handle_savesCopies mode _
  refine SavesCopies.bind (savesCopies_await (.create executionId _) fun _ => ?_) fun _ =>
    (handle_savesCopies mode _).bind fun _ => hrun
  exact rfl

theorem processRows_savesCopies (classify : Execution → Option ReapDecision)
    (rows : List Execution) :
    SavesCopies (ExecutionSupervisorService.processRows mode classify rows) := by
  induction rows with
  | nil => exact savesCopies_pure ()
  | cons row rows ih =>
      have hdecision : SavesCopies
          (ExecutionSupervisorService.dispatchDecision mode row (classify row)) := by
        cases classify row with
        | none => exact savesCopies_pure ()
        | some decision =>
            cases decision with
            | reap reason => exact handle_savesCopies mode (.reaped row.id _)
            | reconcileCompleted => exact handle_savesCopies mode (.completed row.id)
            | reconcileFailed => exact handle_savesCopies mode (.failed row.id _)
      unfold ExecutionSupervisorService.processRows
      cases row.frozen with
      | true => exact ih
      | false => exact hdecision.bind fun _ => ih

theorem program_savesCopies (call : ExecutionCall) : SavesCopies (call.program mode) := by
  cases call with
  | deliver event => exact handle_savesCopies mode event
  | dispatch executionId params outcome => exact dispatch_savesCopies mode executionId params outcome
  | sweepOnce classify =>
      exact (savesCopies_await .findNonTerminal fun _ => trivial).bind fun rows =>
        processRows_savesCopies mode classify rows
  | applyTransition id target patch => exact applyTransition_savesCopies mode id target patch

end Calls

/-! ## The invariant -/

/-- The copies of the calls, read off the log. -/
def copyOf (log : List (Entry Nat ExecutionOp ExecutionOp.Ans)) (t : Nat) : Option Execution :=
  Pool.track copyNext (fun _ => none) log t

/-- A row of which a call holds a copy from before its end has not ended, or another call has ended
it since. -/
def CopiesLive (c : ExecutionSystem) : Prop :=
  ∀ t copy, copyOf c.log t = some copy → isTerminalState copy.state = false →
    ∃ row, c.world.find copy.id = some row ∧
      (isTerminalState row.state = true → endedSince t copy.id c.log = true)

section Rows

variable {w : ExecutionTable} {id : String} {row : Execution}

/-- The row after an operation. -/
theorem find_execution_exec (h : w.find id = some row) (o : ExecutionOp) :
    ∃ row', (o.exec w).1.find id = some row' ∧
      (row' = row ∨ ∃ columns, (o = .save id columns ∨ o = .create id columns) ∧
        row' = row.write columns) := by
  cases o with
  | save id' columns =>
      by_cases hid : id = id'
      · subst hid
        exact ⟨_, ExecutionTable.find_upsert_self h, Or.inr ⟨columns, Or.inl rfl, rfl⟩⟩
      · exact ⟨row, (ExecutionTable.find_upsert_of_ne hid).trans h, Or.inl rfl⟩
  | create id' columns =>
      by_cases hid : id = id'
      · subst hid
        exact ⟨_, ExecutionTable.find_upsert_self h, Or.inr ⟨columns, Or.inr rfl, rfl⟩⟩
      · exact ⟨row, (ExecutionTable.find_upsert_of_ne hid).trans h, Or.inl rfl⟩
  | _ => exact ⟨row, h, Or.inl rfl⟩

/-- A row that an operation finds live and leaves ended was ended by it. -/
theorem ends_of_exec (h : w.find id = some row) (o : ExecutionOp) {row' : Execution}
    (h' : (o.exec w).1.find id = some row') (hlive : isTerminalState row.state = false)
    (hended : isTerminalState row'.state = true) : o.ends id = true := by
  obtain ⟨row'', h'', hrow⟩ := find_execution_exec h o
  rw [h', Option.some.injEq] at h''
  subst h''
  rcases hrow with rfl | ⟨columns, ho, rfl⟩
  · rw [hlive] at hended
    cases hended
  · have hstate : columns.state.any isTerminalState = true := by
      cases hc : columns.state with
      | none => simp [Execution.write, hc, hlive] at hended
      | some s => simpa [Execution.write, hc] using hended
    rcases ho with rfl | rfl <;> simp [ExecutionOp.ends, hstate]

theorem endOf_eq_some {e : ExecutionEnd} (h : w.endOf id = some e) :
    ∃ row, w.find id = some row ∧ isTerminalState row.state = true ∧ row.outcome = e := by
  obtain ⟨row, hrow, hend⟩ := Option.bind_eq_some_iff.1 h
  by_cases hterminal : isTerminalState row.state = true
  · rw [if_pos hterminal, Option.some.injEq] at hend
    exact ⟨row, hrow, hterminal, hend⟩
  · rw [if_neg hterminal] at hend
    cases hend

theorem outcome_write {columns : ExecutionColumns} (h : columns.touchesOutcome = false) :
    (row.write columns).outcome = row.outcome := by
  simp only [ExecutionColumns.touchesOutcome, Bool.or_eq_false_iff, Option.isSome_eq_false_iff,
    Option.isNone_iff_eq_none] at h
  obtain ⟨⟨⟨hstate, hreason⟩, hmessage⟩, hat⟩ := h
  simp [Execution.outcome, Execution.write, hstate, hreason, hmessage, hat]

end Rows

section Step

variable {c : ExecutionSystem} {t : Nat} {o : ExecutionOp}
  {k : o.Ans → ExecutionProg Unit}

theorem copiesLive_start (mode : SaveMode) (w : ExecutionTable) (calls : Nat → ExecutionCall) :
    CopiesLive (ExecutionSystem.init mode w calls) := by
  intro t copy hcopy
  cases hcopy

/-- **A step keeps an end** that was there before it. -/
theorem endOf_step (hinv : CopiesLive c) (hissue : CopyIssues (copyOf c.log t) o)
    (hkeeps : KeepsOutcomes c t o) {id : String} {e : ExecutionEnd} (h : c.world.endOf id = some e) :
    (o.exec c.world).1.endOf id = some e := by
  obtain ⟨row, hrow, hterminal, rfl⟩ := endOf_eq_some h
  obtain ⟨row', hrow', hwrite⟩ := find_execution_exec hrow o
  have houtcome : row'.outcome = row.outcome := by
    rcases hwrite with rfl | ⟨columns, rfl | rfl, rfl⟩
    · rfl
    · apply outcome_write
      obtain ⟨copy, hcopy, rfl, hlive⟩ := hissue
      obtain ⟨row₁, hrow₁, hsince⟩ := hinv t copy hcopy hlive
      rw [hrow, Option.some.injEq] at hrow₁
      subst hrow₁
      cases htouches : columns.touchesOutcome with
      | false => rfl
      | true =>
          -- the row has ended since the copy was read, which the condition excludes
          have hnot := hkeeps htouches
          rw [hsince hterminal] at hnot
          cases hnot
    · have hpending : row.state = .pending := by simpa [KeepsOutcomes, hrow] using hkeeps
      rw [hpending] at hterminal
      cases hterminal
  have hstate : isTerminalState row'.state = true := by
    have hs : row'.state = row.state := congrArg ExecutionEnd.state houtcome
    rw [hs]
    exact hterminal
  rw [ExecutionTable.endOf, hrow', Option.bind_some, if_pos hstate, houtcome]

/-- A step by any call keeps the copies live or overtaken. -/
theorem copiesLive_step (hinv : CopiesLive c) :
    CopiesLive (Pool.advance executionStore c t o k) := by
  intro u copy hcopy hlive
  by_cases hu : u = t
  · subst hu
    have hself : copyOf (Pool.advance executionStore c u o k).log u =
        copyNext (copyOf c.log u) o (o.exec c.world).2 := Pool.track_advance_self
    have hnext := hself.symm.trans hcopy
    have hlog : endedSince u copy.id (Pool.advance executionStore c u o k).log =
        (!o.reads copy.id && endedSince u copy.id c.log) := by
      simp [Pool.advance, endedSince]
    rw [hlog]
    cases o with
    | findById id =>
        -- the copy is the row itself
        have hrow : c.world.find id = some copy := hnext
        have hid : copy.id = id := ExecutionTable.find_id hrow
        refine ⟨copy, ?_, fun hended => ?_⟩
        · rw [hid]
          exact hrow
        · rw [hlive] at hended
          cases hended
    | save id columns => cases hnext
    | create id columns => cases hnext
    | findNonTerminal => exact hinv u copy hnext hlive
    | now => exact hinv u copy hnext hlive
  · have hother : copyOf (Pool.advance executionStore c t o k).log u = copyOf c.log u :=
      Pool.track_advance_of_ne hu
    have hsame := hother.symm.trans hcopy
    obtain ⟨row, hrow, hsince⟩ := hinv u copy hsame hlive
    obtain ⟨row', hrow', -⟩ := find_execution_exec hrow o
    refine ⟨row', hrow', fun hended => ?_⟩
    have hlog : endedSince u copy.id (Pool.advance executionStore c t o k).log =
        (o.ends copy.id || endedSince u copy.id c.log) := by
      simp [Pool.advance, endedSince, Ne.symm hu]
    rw [hlog, Bool.or_eq_true]
    cases hbefore : isTerminalState row.state with
    | true => exact Or.inr (hsince hbefore)
    | false => exact Or.inl (ends_of_exec hrow o hrow' hbefore hended)

end Step

/-- The invariant and the contracts hold in every configuration reached. -/
theorem copiesLive_of_reach {mode : SaveMode} {w : ExecutionTable} {calls : Nat → ExecutionCall}
    {c : ExecutionSystem}
    (h : Pool.Reach executionStore KeepsOutcomes (ExecutionSystem.init mode w calls) c) :
    CopiesLive c ∧ ∀ t, Prog.Meets (Pool.following copyNext CopyIssues CopyAnswers)
      (fun _ _ => True) (fun _ _ => True) (c.threads t) (copyOf c.log t) := by
  have hmeets : ∀ t, Prog.Meets (Pool.following copyNext CopyIssues CopyAnswers) (fun _ _ => True)
      (fun _ _ => True) ((ExecutionSystem.init mode w calls).threads t)
      (Pool.track copyNext (fun _ => none) (ExecutionSystem.init mode w calls).log t) :=
    fun t => program_savesCopies mode (calls t) none
  refine Pool.Reach.follows hmeets (copiesLive_start mode w calls) ?_ h
  intro c t o k hinv _ _ _ _
  refine ⟨?_, copiesLive_step hinv⟩
  cases o with
  | findById id =>
      cases hfind : c.world.find id with
      | none => simp only [executionStore, ExecutionOp.exec, hfind, CopyAnswers]
      | some row =>
          simp only [executionStore, ExecutionOp.exec, hfind, CopyAnswers]
          exact ExecutionTable.find_id hfind
  | _ => trivial

/-- A creation leaves the state of a row that is there already. -/
theorem state_create {c : ExecutionSystem} {t : Nat} {id : String} {columns : ExecutionColumns}
    (hissue : CopyIssues (copyOf c.log t) (.create id columns))
    (hkeeps : KeepsOutcomes c t (.create id columns)) {row : Execution}
    (hrow : c.world.find id = some row) :
    ∃ row', ((ExecutionOp.create id columns).exec c.world).1.find id = some row' ∧
      row'.state = row.state := by
  refine ⟨row.write columns, ExecutionTable.find_upsert_self hrow, ?_⟩
  have hpending : row.state = .pending := by simpa [KeepsOutcomes, hrow] using hkeeps
  have hcolumn : columns.state = some .pending := hissue
  simp [Execution.write, hcolumn, hpending]

/-- **Ends absorb.** In every run whose steps keep outcomes, an execution that has ended keeps its
state, its reason, its message and the time of its end, and a creation puts no row back. -/
theorem execution_ends_absorb {mode : SaveMode} {w : ExecutionTable} {calls : Nat → ExecutionCall}
    {c₁ c₂ : ExecutionSystem}
    (h₁ : Pool.Reach executionStore KeepsOutcomes (ExecutionSystem.init mode w calls) c₁)
    (h₂ : Pool.Reach executionStore KeepsOutcomes c₁ c₂) :
    (∀ id e, c₁.world.endOf id = some e → c₂.world.endOf id = some e) ∧
    ∀ t id columns k row, c₂.threads t = .call (.create id columns) k →
      KeepsOutcomes c₂ t (.create id columns) → c₂.world.find id = some row →
      ∃ row', ((ExecutionOp.create id columns).exec c₂.world).1.find id = some row' ∧
        row'.state = row.state := by
  refine ⟨fun id e hend => ?_, fun t id columns k row hthread hkeeps hrow => ?_⟩
  · induction h₂ with
    | refl => exact hend
    | tail hreach hstep ih =>
        obtain ⟨hinv, hmeets⟩ := copiesLive_of_reach (h₁.trans hreach)
        obtain ⟨t, o, k, hthread, -, hkeeps, rfl⟩ := hstep
        have hissue := hmeets t
        rw [hthread, Prog.meets_call] at hissue
        exact endOf_step hinv hissue.1 hkeeps ih
  · obtain ⟨-, hmeets⟩ := copiesLive_of_reach (h₁.trans h₂)
    have hissue := hmeets t
    rw [hthread, Prog.meets_call] at hissue
    exact state_create hissue.1 hkeeps hrow

/-! ## Runs of one execution -/

/-- A dispatch that kicks its agent off, its completion, and three more deliveries: a failure, the
creation again, and a cancellation. -/
def executionCalls : Nat → ExecutionCall
  | 0 => .dispatch "execution"
      { kind := .workflowStep, containerTier := 1, provider := "provider", model := "model" }
      (.kickedOff "container")
  | 1 => .deliver (.completed "execution")
  | 2 => .deliver (.failed "execution" ⟨some .agentError, some "late"⟩)
  | 3 => .deliver (.created "execution" { kind := .workflowStep })
  | _ => .deliver (.cancelled "execution" ⟨none, none⟩)

def executionStart : ExecutionSystem := ExecutionSystem.init .changedColumns {} executionCalls

/-- The configuration after a schedule. -/
def executionRun (sched : List (Nat × Nat)) : ExecutionSystem :=
  Pool.play executionStore sched executionStart

/-- One call after the other, the creation not delivered again: the late failure is dropped. -/
theorem execution_ends_absorb_sequential :
    (executionRun [(0, 8), (1, 5), (2, 3)]).world.endOf "execution" =
      some ⟨.completed, none, none, some 0⟩ := by
  have hcompleted : Pool.admits executionStore KeepsOutcomes [(0, 8), (1, 5)] executionStart =
      true := by decide +kernel
  have hlate : Pool.admits executionStore KeepsOutcomes [(2, 3)]
      (executionRun [(0, 8), (1, 5)]) = true := by decide +kernel
  have hended : (executionRun [(0, 8), (1, 5)]).world.endOf "execution" =
      some ⟨.completed, none, none, some 0⟩ := by decide +kernel
  exact (execution_ends_absorb (Pool.reach_play_of_admits _ _ hcompleted)
    (Pool.reach_play_of_admits _ _ hlate)).1 _ _ hended

/-- Two ways an end is lost: the created event is delivered again, and the row is pending; a
cancellation that has read the running row is saved after the completion. -/
theorem execution_ends_overwritten :
    (∃ c₁ c₂ : ExecutionSystem,
      Pool.Reach executionStore Pool.anyStep executionStart c₁ ∧
      c₁.world.endOf "execution" = some ⟨.completed, none, none, some 0⟩ ∧
      Pool.Reach executionStore Pool.anyStep c₁ c₂ ∧
      c₂.world.stateOf "execution" = some .pending) ∧
    ∃ c₁ c₂ : ExecutionSystem,
      Pool.Reach executionStore Pool.anyStep executionStart c₁ ∧
      c₁.world.endOf "execution" = some ⟨.completed, none, none, some 0⟩ ∧
      Pool.Reach executionStore Pool.anyStep c₁ c₂ ∧
      c₂.world.endOf "execution" = some ⟨.cancelled, none, none, some 1⟩ := by
  refine ⟨⟨executionRun [(0, 8), (1, 5)], executionRun [(0, 8), (1, 5), (3, 1)], ?_,
      by decide +kernel, ?_, by decide +kernel⟩,
    ⟨executionRun [(0, 8), (4, 1), (1, 5)], executionRun [(0, 8), (4, 1), (1, 5), (4, 2)], ?_,
      by decide +kernel, ?_, by decide +kernel⟩⟩
  · exact Pool.reach_play (M := executionStore) [(0, 8), (1, 5)] executionStart
  · exact Pool.reach_play (M := executionStore) [(3, 1)] (executionRun [(0, 8), (1, 5)])
  · exact Pool.reach_play (M := executionStore) [(0, 8), (4, 1), (1, 5)] executionStart
  · exact Pool.reach_play (M := executionStore) [(4, 2)] (executionRun [(0, 8), (4, 1), (1, 5)])

end Nexus
