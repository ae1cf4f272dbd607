import Nexus.Execution.Lifecycle

/-!
# Terminal outcomes

Events delivered one at a time. A terminal event leaves a row that has not ended in the state it
names exactly when the edge table has an edge there (`outcomeLands`): a failure of a row that is
still pending, a completion of one that is not running yet, and a cancellation of one that is
completing are dropped, and the row stays live.
-/

set_option autoImplicit false

namespace Nexus

/-- The execution of an event. -/
def LifecycleEvent.aggregateId : LifecycleEvent → String
  | .created id _ => id
  | .provisioning id => id
  | .provisioned id _ => id
  | .running id => id
  | .heartbeat id => id
  | .completed id => id
  | .failed id _ => id
  | .reaped id _ => id
  | .cancelled id _ => id

/-- The terminal state an event names. -/
def LifecycleEvent.terminalState? : LifecycleEvent → Option ExecutionState
  | .completed _ => some .completed
  | .failed _ _ => some .failed
  | .reaped _ _ => some .reaped
  | .cancelled _ _ => some .cancelled
  | _ => none

/-- The states from which the event that names a terminal state is projected. -/
def outcomeLands (named state : ExecutionState) : Bool :=
  match named with
  | .completed => state ∈ [.running, .awaitingInput, .completing]
  | .failed => state ∈ [.provisioning, .running, .awaitingInput, .completing]
  | .cancelled => state ∈ [.pending, .provisioning, .running, .awaitingInput, .retryScheduled]
  | .reaped => !isTerminalState state
  | _ => false

namespace ExecutionTable

/-- The state of the row of an id. -/
def stateOf (w : ExecutionTable) (id : String) : Option ExecutionState :=
  (w.find id).map Execution.state

/-- The table after a delivery that nothing interrupts. -/
def deliver (mode : SaveMode) (w : ExecutionTable) (event : LifecycleEvent) : ExecutionTable :=
  ((ExecutionProjector.handle mode event).run ExecutionOp.exec w).1

/-- The table after several deliveries, one after the other. -/
def deliverAll (mode : SaveMode) (w : ExecutionTable) (events : List LifecycleEvent) :
    ExecutionTable :=
  events.foldl (deliver mode) w

end ExecutionTable

/-- The state after a transition that is dropped when it is illegal. -/
def ExecutionState.transition (state target : ExecutionState) : ExecutionState :=
  if isLegalTransition state target then target else state

section Transition

variable (mode : SaveMode) {w : ExecutionTable} {id : String} {s : ExecutionState}

theorem SaveMode.getD_column {α : Type} [DecidableEq α] (copy entity : α) :
    (mode.column copy entity).getD copy = entity := by
  cases mode with
  | allColumns => rfl
  | changedColumns =>
      unfold SaveMode.column
      by_cases h : entity = copy
      · rw [if_pos h, Option.getD_none, h]
      · rw [if_neg h, Option.getD_some]

/-- A save of a fresh copy leaves the state of the entity. -/
theorem stateOf_save {row entity : Execution} (h : w.find id = some row) :
    (w.upsert id (mode.columns row entity)).stateOf id = some entity.state := by
  rw [ExecutionTable.stateOf, ExecutionTable.find_upsert_self h, Option.map_some]
  exact congrArg some (SaveMode.getD_column mode row.state entity.state)

theorem stateOf_applyTransition (h : w.stateOf id = some s) (target : ExecutionState)
    (patch : ExecutionRepository.TransitionPatch) :
    (((ExecutionRepository.applyTransition mode id target patch).run ExecutionOp.exec w).1).stateOf
      id = some (s.transition target) := by
  obtain ⟨row, hrow, rfl⟩ := Option.map_eq_some_iff.1 h
  have hrun : (ExecutionRepository.applyTransition mode id target patch).run ExecutionOp.exec w =
      (if !isLegalTransition row.state target then
        pure ()
      else if isTerminalState target then
        (awaitExecution .now).bind fun terminalAt => awaitExecution (.save id (mode.columns row
          { ExecutionRepository.transitioned row target patch with
            terminal_at := some terminalAt }))
      else awaitExecution (.save id (mode.columns row
        (ExecutionRepository.transitioned row target patch))) :
        ExecutionProg Unit).run ExecutionOp.exec w := by
    simp only [ExecutionRepository.applyTransition, ExecutionRepository.findById, awaitExecution,
      Prog.op, Prog.bind_eq, Prog.call_bind, Prog.pure_bind, Prog.run_call, ExecutionOp.exec, hrow]
  rw [hrun, ExecutionState.transition]
  cases hlegal : isLegalTransition row.state target with
  | false =>
      rw [if_pos (by simp), if_neg (by simp)]
      exact h
  | true =>
      rw [if_neg (by simp), if_pos rfl]
      cases hterminal : isTerminalState target with
      | false =>
          rw [if_neg (by simp)]
          exact stateOf_save mode hrow
      | true =>
          -- the clock is read before the save
          have hnow : ({ w with clock := w.clock + 1 } : ExecutionTable).find id = some row := hrow
          rw [if_pos rfl]
          exact stateOf_save mode hnow

end Transition

/-- The table edge by edge: two steps for a completion, one for every other outcome. -/
theorem outcomeLands_eq (named s : ExecutionState) (hs : isTerminalState s = false) :
    (named = .completed →
      (outcomeLands named s = true ↔ (s.transition .completing).transition .completed = named)) ∧
    (named ∈ [.failed, .reaped, .cancelled] →
      (outcomeLands named s = true ↔ s.transition named = named)) := by
  revert hs
  cases named <;> cases s <;> decide

/-- A failure event is one transition. -/
theorem stateOf_onTerminalFailure (mode : SaveMode) {w : ExecutionTable} {id : String}
    {s : ExecutionState} (h : w.stateOf id = some s) (payload : FailurePayload)
    (target : ExecutionState) :
    (((ExecutionProjector.onTerminalFailure mode id payload target).run
      ExecutionOp.exec w).1).stateOf id = some (s.transition target) :=
  stateOf_applyTransition mode h target _

/-- A completed event is two transitions. -/
theorem stateOf_onCompleted (mode : SaveMode) {w : ExecutionTable} {id : String}
    {s : ExecutionState} (h : w.stateOf id = some s) :
    (((ExecutionProjector.onCompleted mode id).run ExecutionOp.exec w).1).stateOf id =
      some ((s.transition .completing).transition .completed) := by
  have hfirst := stateOf_applyTransition mode h .completing {}
  rw [ExecutionProjector.onCompleted, Prog.bind_eq]
  generalize hrun : (ExecutionRepository.applyTransition mode id .completing {}).run
    ExecutionOp.exec w = result at hfirst
  obtain ⟨w₁, result⟩ := result
  cases result with
  | ok value =>
      rw [Prog.run_bind_ok ExecutionOp.exec hrun]
      exact stateOf_applyTransition mode hfirst .completed {}
  | error e => exact e.elim

/-- **Terminal outcomes.** In every sequence of deliveries, a terminal event of an execution whose
row has not ended leaves the row in the state it names exactly when that outcome lands there. -/
theorem terminal_outcome_lands_iff (mode : SaveMode) (w : ExecutionTable)
    (events : List LifecycleEvent) {event : LifecycleEvent} {named s : ExecutionState}
    (hnamed : event.terminalState? = some named)
    (hstate : (w.deliverAll mode events).stateOf event.aggregateId = some s)
    (hlive : isTerminalState s = false) :
    (w.deliverAll mode (events ++ [event])).stateOf event.aggregateId = some named ↔
      outcomeLands named s = true := by
  rw [ExecutionTable.deliverAll, List.foldl_append, List.foldl_cons, List.foldl_nil]
  have hw : (events.foldl (ExecutionTable.deliver mode) w).stateOf event.aggregateId = some s :=
    hstate
  generalize events.foldl (ExecutionTable.deliver mode) w = w' at hw
  obtain ⟨hcompleted, hothers⟩ := outcomeLands_eq named s hlive
  have hfailure : ∀ (payload : FailurePayload), named ∈ [.failed, .reaped, .cancelled] →
      (((ExecutionProjector.onTerminalFailure mode event.aggregateId payload named).run
        ExecutionOp.exec w').1.stateOf event.aggregateId = some named ↔
          outcomeLands named s = true) := by
    intro payload hmem
    rw [stateOf_onTerminalFailure mode hw, hothers hmem, Option.some.injEq]
  cases event with
  | completed id =>
      obtain rfl : ExecutionState.completed = named := Option.some.inj hnamed
      have hdelivered := stateOf_onCompleted mode hw
      rw [hcompleted rfl, ExecutionTable.deliver]
      exact (Eq.congr_left hdelivered).trans Option.some_inj
  | failed id payload =>
      obtain rfl : ExecutionState.failed = named := Option.some.inj hnamed
      exact hfailure payload (by simp)
  | reaped id payload =>
      obtain rfl : ExecutionState.reaped = named := Option.some.inj hnamed
      exact hfailure payload (by simp)
  | cancelled id payload =>
      obtain rfl : ExecutionState.cancelled = named := Option.some.inj hnamed
      exact hfailure payload (by simp)
  | created id payload => cases hnamed
  | provisioning id => cases hnamed
  | provisioned id containerId => cases hnamed
  | running id => cases hnamed
  | heartbeat id => cases hnamed

/-- A row that was created and not projected any further. -/
def pendingExecution : ExecutionTable where
  rows := [{ id := "execution", kind := .workflowStep }]

/-- A completion of a row that was provisioned and runs. -/
theorem terminal_outcome_lands_running :
    (pendingExecution.deliverAll .changedColumns
      ([.provisioning "execution", .provisioned "execution" (some "container")] ++
        [.completed "execution"])).stateOf "execution" = some .completed := by
  have hnamed : (LifecycleEvent.completed "execution").terminalState? = some .completed := rfl
  have hstate : (pendingExecution.deliverAll .changedColumns
      [.provisioning "execution", .provisioned "execution" (some "container")]).stateOf
        "execution" = some .running := by decide +kernel
  exact (terminal_outcome_lands_iff .changedColumns pendingExecution _ hnamed hstate rfl).2 rfl

/-- The failure of a step whose owner lease could not be claimed arrives before the row is
provisioning, and is dropped: the row stays pending. -/
theorem failure_of_pending_dropped :
    ¬ ∀ (mode : SaveMode) (w : ExecutionTable) (events : List LifecycleEvent)
      (event : LifecycleEvent) (named s : ExecutionState),
      event.terminalState? = some named →
      (w.deliverAll mode events).stateOf event.aggregateId = some s →
      isTerminalState s = false →
      (w.deliverAll mode (events ++ [event])).stateOf event.aggregateId = some named := by
  intro h
  have hlanded := h .changedColumns pendingExecution
    [.created "execution" { kind := .workflowStep }]
    (.failed "execution" ⟨some .agentError, some "Execution owner lease could not be claimed"⟩)
    .failed .pending rfl (by decide +kernel) rfl
  revert hlanded
  decide +kernel

end Nexus
