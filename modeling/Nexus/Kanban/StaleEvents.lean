import Nexus.Kanban.LifecycleStream
import Nexus.Lib.Interruption
import Mathlib

/-!
# Late events of ended runs

Run events are handled in any order and with repetitions, each handling may be cut off after any
statement, and between two of them other writers set the links of a work item. Two steps of the
handling look at a late event differently: the projection of the run compares times and event ids,
and the link to the work item compares nothing.
-/

set_option autoImplicit false

namespace Nexus

open CoreLifecycleStreamConsumerService

/-! ## Runs of handled events -/

inductive ConsumerInput where
  /-- The handling of a run event, cut off after a number of statements. -/
  | handle (event : RunEvent) (statements : Nat)
  /-- Another writer sets the links of a work item. -/
  | relink (workItemId : String) (linkedRunId currentExecutionId : Option String)

/-- The store, and the events whose handling has returned, the last one first. -/
structure ConsumerState where
  db : LifecycleStore
  processed : List RunEvent := []

/-- Whether a handling of the event returns within a number of statements. -/
def returnsWithin (statements : Nat) (event : RunEvent) (db : LifecycleStore) : Bool :=
  ((handleRunEvent event).restFor LifecycleOp.exec statements db).value?.isSome

namespace ConsumerState

def next (c : ConsumerState) : ConsumerInput → ConsumerState
  | .handle event statements =>
      { db := (handleRunEvent event).runFor LifecycleOp.exec statements c.db
        processed :=
          if returnsWithin statements event c.db then event :: c.processed else c.processed }
  | .relink workItemId linkedRunId currentExecutionId =>
      { c with db := c.db.updateItems (fun row => row.id = workItemId) fun row =>
          { row with linked_run_id := linkedRunId, current_execution_id := currentExecutionId } }

def after (c : ConsumerState) (inputs : List ConsumerInput) : ConsumerState :=
  inputs.foldl next c

/-- A terminal event of the run has been processed. -/
def HasEnded (c : ConsumerState) (runId : String) : Prop :=
  ∃ event ∈ c.processed, event.run_id = runId ∧ event.terminalStatus.isSome = true

end ConsumerState

/-- The status in the projection of a run. -/
def LifecycleStore.projectedStatus (db : LifecycleStore) (runId : String) : Option String :=
  (db.projections.find? fun row => row.run_id = runId).map RunProjectionRow.status

/-! ## What a late event must not do -/

/-- The projections with a terminal status keep it. -/
def KeepsTerminalStatuses (db db' : LifecycleStore) : Prop :=
  ∀ runId status, db.projectedStatus runId = some status →
    (toTerminalWorkflowStatus status).isSome = true → db'.projectedStatus runId = some status

/-- No work item becomes linked to the run. -/
def LinksNoItem (runId : String) (db db' : LifecycleStore) : Prop :=
  ∀ row' ∈ db'.items, row'.linked_run_id = some runId →
    ∃ row ∈ db.items, row.id = row'.id ∧ row.linked_run_id = some runId

/-- A call leaves the terminal statuses alone; the handling of an event that is not terminal links no
work item to a run that has ended. -/
def ConsumerState.ChangesNothingStale (c : ConsumerState) (input : ConsumerInput) : Prop :=
  KeepsTerminalStatuses c.db (c.next input).db ∧
    match input with
    | .handle event _ =>
        event.terminalStatus = none → c.HasEnded event.run_id →
          LinksNoItem event.run_id c.db (c.next input).db
    | .relink _ _ _ => True

/-! ## When it does not -/

/-- The first two statements of a handling, which read and write the projection, do not throw. -/
def LifecycleStore.ReachesProjection (db : LifecycleStore) : Prop :=
  (db.outcomes db.issued).error = none ∧ (db.outcomes (db.issued + 1)).error = none

/-- An event that reaches a projection with a terminal status has the same status, or the id of the
event before it, or it is older. -/
def RunEvent.FitsProjection (event : RunEvent) (db : LifecycleStore) : Prop :=
  db.ReachesProjection →
    ∀ row ∈ db.projections.find? fun row => row.run_id = event.run_id,
      (toTerminalWorkflowStatus row.status).isSome = true →
        event.status = row.status ∨ row.last_event_id = event.event_id ∨
          event.occurred_at < row.occurred_at

/-- Where the link of a work item to the run is written, there is no such item without links, or the
statement throws. -/
def LifecycleOp.FindsItemLinked (runId : String) (db : LifecycleStore) : LifecycleOp → Prop
  | .linkRunIfUnlinked projectId workItemId linkedRunId =>
      linkedRunId = runId → db.outcome.error = none →
        ∀ row ∈ db.items, row.isRow projectId workItemId = true → row.isUnlinked = false
  | _ => True

/-- The condition on a call. -/
def ConsumerState.MindsEndedRuns (c : ConsumerState) : ConsumerInput → Prop
  | .handle event statements =>
      event.FitsProjection c.db ∧
        (event.terminalStatus = none → c.HasEnded event.run_id →
          ∀ step ∈ (handleRunEvent event).stepsFor LifecycleOp.exec statements c.db,
            step.2.FindsItemLinked event.run_id step.1)
  | .relink _ _ _ => True

def AllMindEndedRuns : List ConsumerInput → ConsumerState → Prop
  | [], _ => True
  | input :: inputs, c => c.MindsEndedRuns input ∧ AllMindEndedRuns inputs (c.next input)

/-! ## Projections -/

section Projections

variable {event : RunEvent} {db : LifecycleStore} {o : LifecycleOp}

theorem KeepsTerminalStatuses.of_projections {db' : LifecycleStore}
    (h : db'.projections = db.projections) : KeepsTerminalStatuses db db' := by
  intro runId status hstatus _
  rw [LifecycleStore.projectedStatus, h]
  exact hstatus

theorem KeepsTerminalStatuses.trans {db' db'' : LifecycleStore} (h : KeepsTerminalStatuses db db')
    (h' : KeepsTerminalStatuses db' db'') : KeepsTerminalStatuses db db'' :=
  fun runId status hstatus hterminal => h' runId status (h runId status hstatus hterminal) hterminal

/-- Every other statement leaves the projections alone. -/
theorem projections_exec (h : ∀ row, o ≠ .saveProjection row) :
    (o.exec db).1.projections = db.projections := by
  cases houtcome : db.outcome.error with
  | some message => simp [LifecycleOp.exec, houtcome, LifecycleStore.tick]
  | none =>
      have hexec : (o.exec db).1.projections = (o.effect db).1.projections := by
        simp [LifecycleOp.exec, houtcome]
      rw [hexec]
      cases o with
      | saveProjection row => exact absurd rfl (h row)
      | _ => rfl

/-- The status of a run after the projection of one was saved. -/
theorem projectedStatus_save (row : RunProjectionRow) (runId : String) :
    ((LifecycleOp.saveProjection row).effect db).1.projectedStatus runId =
      if row.run_id = runId then some row.status else db.projectedStatus runId := by
  simp only [LifecycleOp.effect, LifecycleStore.projectedStatus]
  by_cases h : row.run_id = runId
  · simp [h]
  · rw [if_neg h, List.find?_cons_of_neg (by simpa using h), List.find?_filter]
    congr 2
    funext stored
    by_cases hstored : stored.run_id = runId
    · simp [hstored, Ne.symm h]
    · simp [hstored]

/-- A projection that is saved over a terminal one has its status. -/
theorem KeepsTerminalStatuses.save {row : RunProjectionRow}
    (h : ∀ status, db.projectedStatus row.run_id = some status →
      (toTerminalWorkflowStatus status).isSome = true → row.status = status) :
    KeepsTerminalStatuses db ((LifecycleOp.saveProjection row).effect db).1 := by
  intro runId status hstatus hterminal
  rw [projectedStatus_save]
  by_cases hrun : row.run_id = runId
  · subst hrun
    rw [if_pos rfl, h status hstatus hterminal]
  · rw [if_neg hrun]
    exact hstatus

/-- The contract of a handling that keeps the terminal statuses of a store. -/
abbrev keepsStatuses (db : LifecycleStore) : Contract LifecycleOp LifecycleOp.Ans LifecycleStore :=
  Prog.interruptible LifecycleOp.exec (KeepsTerminalStatuses db) fun _ _ => True

theorem meets_of_keeps {α : Type} {p : LifecycleProg α} {db' : LifecycleStore}
    (hp : p.Uses fun o => ∀ row, o ≠ .saveProjection row) (h : KeepsTerminalStatuses db db') :
    p.Meets (keepsStatuses db) (fun _ => KeepsTerminalStatuses db)
      (fun _ => KeepsTerminalStatuses db) db' := by
  refine Prog.Uses.meets (I := KeepsTerminalStatuses db) hp h (fun _ _ h' _ => h') ?_
  rintro s o ans s' hs ho ⟨-, hexec⟩
  have hs' : (o.exec s).1 = s' := congrArg Prod.fst hexec
  exact hs.trans (.of_projections (hs' ▸ projections_exec ho))

theorem meets_findProjection (runId : String) :
    Prog.Meets (keepsStatuses db)
      (fun existing db' => existing = db.projections.find? (fun row => row.run_id = runId) ∧
        db'.projections = db.projections ∧ db.outcome.error = none ∧
        db'.outcome = db.outcomes (db.issued + 1))
      (fun _ => KeepsTerminalStatuses db) (awaitLifecycle (.findProjection runId)) db := by
  refine ⟨.of_projections rfl, ?_⟩
  rintro ans db' ⟨-, hexec⟩
  cases hfind : db.outcome.error with
  | some message =>
      simp only [LifecycleOp.exec, hfind] at hexec
      obtain ⟨rfl, rfl⟩ := Prod.mk.inj hexec
      exact KeepsTerminalStatuses.of_projections rfl
  | none =>
      simp only [LifecycleOp.exec, hfind] at hexec
      obtain ⟨rfl, rfl⟩ := Prod.mk.inj hexec
      exact ⟨rfl, rfl, rfl, rfl⟩

theorem meets_saveProjection {row : RunProjectionRow} {db' : LifecycleStore}
    (hprojections : db'.projections = db.projections)
    (h : db'.outcome.error = none → ∀ status, db.projectedStatus row.run_id = some status →
      (toTerminalWorkflowStatus status).isSome = true → row.status = status) :
    Prog.Meets (keepsStatuses db) (fun _ => KeepsTerminalStatuses db)
      (fun _ => KeepsTerminalStatuses db) (awaitLifecycle (.saveProjection row)) db' := by
  have hread : KeepsTerminalStatuses db db' := .of_projections hprojections
  refine ⟨hread, ?_⟩
  rintro ans db₂ ⟨-, hexec⟩
  cases hsave : db'.outcome.error with
  | some message =>
      simp only [LifecycleOp.exec, hsave] at hexec
      obtain ⟨rfl, rfl⟩ := Prod.mk.inj hexec
      exact hread.trans (.of_projections rfl)
  | none =>
      have hkeeps : KeepsTerminalStatuses db' ((LifecycleOp.saveProjection row).effect db').1 := by
        apply KeepsTerminalStatuses.save
        intro status hstatus
        apply h hsave status
        rwa [LifecycleStore.projectedStatus, ← hprojections]
      simp only [LifecycleOp.exec, hsave] at hexec
      obtain ⟨rfl, rfl⟩ := Prod.mk.inj hexec
      exact hread.trans (hkeeps.trans (.of_projections rfl))

/-- **The projection of an event that fits keeps the terminal statuses.** -/
theorem meets_recordCoreLifecycleEvent (h : event.FitsProjection db) :
    (CoreRunProjectionService.recordCoreLifecycleEvent event).Meets (keepsStatuses db)
      (fun _ => KeepsTerminalStatuses db) (fun _ => KeepsTerminalStatuses db) db := by
  apply (meets_findProjection event.run_id).bind
  rintro existing db' ⟨rfl, hprojections, hfind, houtcome⟩
  apply Prog.meets_ite
  · exact fun _ => KeepsTerminalStatuses.of_projections hprojections
  intro hnew
  apply Prog.meets_ite
  · exact fun _ => KeepsTerminalStatuses.of_projections hprojections
  intro hcurrent
  -- The event gets to the statement that saves its projection.
  apply meets_saveProjection hprojections
  intro hsave status hstatus hterminal
  rw [houtcome] at hsave
  obtain ⟨row, hrow, rfl⟩ := Option.map_eq_some_iff.1 hstatus
  have hrow' : db.projections.find? (fun row => row.run_id = event.run_id) = some row := hrow
  rw [hrow'] at hnew hcurrent
  rcases h ⟨hfind, hsave⟩ row hrow' hterminal with hsame | hid | holder
  · exact hsame
  · exact absurd (by simpa using hid) hnew
  · exact absurd (by simpa [CoreRunProjectionService.isStale] using holder) hcurrent

/-- The whole handling of an event that fits keeps them. -/
theorem meets_handleRunEvent (h : event.FitsProjection db) :
    (handleRunEvent event).Meets (keepsStatuses db) (fun _ => KeepsTerminalStatuses db)
      (fun _ => KeepsTerminalStatuses db) db := by
  have hplain (o : LifecycleOp) (ho : o.IsPlain) (row : RunProjectionRow) :
      o ≠ .saveProjection row := by
    rintro rfl
    exact ho
  apply Prog.meets_bind
  apply (meets_recordCoreLifecycleEvent h).bind
  intro _ db₁ h₁
  apply (meets_of_keeps ((linkWorkItemRunFromLifecycleEvent_isPlain event).mono hplain) h₁).bind
  intro _ db₂ h₂
  apply (meets_of_keeps ((recordTerminalRunStatus_isPlain event).mono hplain) h₂).mono
  · intro _ db₃ h₃
    apply meets_of_keeps (evaluateContinuationForTerminalRun_uses event hplain _ _) h₃
    · rintro projectId workItemId amount row ⟨⟩
    · rintro projectId workItemId amount row ⟨⟩
  · exact fun _ _ h₃ => h₃

end Projections

/-! ## Links -/

section Links

variable {runId : String} {db db' : LifecycleStore} {o : LifecycleOp}

theorem LinksNoItem.refl (runId : String) (db : LifecycleStore) : LinksNoItem runId db db :=
  fun row hrow hlinked => ⟨row, hrow, rfl, hlinked⟩

theorem LinksNoItem.trans {db'' : LifecycleStore} (h : LinksNoItem runId db db')
    (h' : LinksNoItem runId db' db'') : LinksNoItem runId db db'' := by
  intro row'' hrow'' hlinked
  obtain ⟨row', hrow', hid', hlinked'⟩ := h' row'' hrow'' hlinked
  obtain ⟨row, hrow, hid, hlinked⟩ := h row' hrow' hlinked'
  exact ⟨row, hrow, hid.trans hid', hlinked⟩

/-- An update whose rows are not linked to the run by it. -/
theorem LinksNoItem.update {p : KanbanWorkItemEntity → Bool}
    {f : KanbanWorkItemEntity → KanbanWorkItemEntity} (hid : ∀ row, (f row).id = row.id)
    (h : ∀ row ∈ db.items, p row = true → (f row).linked_run_id = some runId →
      row.linked_run_id = some runId) :
    LinksNoItem runId db (db.updateItems p f) := by
  intro row' hrow' hlinked
  obtain ⟨row, hrow, rfl⟩ := List.mem_map.1 hrow'
  refine ⟨row, hrow, ?_⟩
  by_cases hp : p row = true
  · rw [if_pos hp] at hlinked ⊢
    exact ⟨(hid row).symm, h row hrow hp hlinked⟩
  · rw [if_neg hp] at hlinked ⊢
    exact ⟨rfl, hlinked⟩

/-- A statement links no item to the run, unless it is the one that links and finds an item
without links. -/
theorem linksNoItem_exec (h : o.FindsItemLinked runId db) :
    LinksNoItem runId db (o.exec db).1 := by
  cases houtcome : db.outcome.error with
  | some message =>
      simp only [LifecycleOp.exec, houtcome]
      exact .refl runId db
  | none =>
      have hitems : (o.exec db).1.items = (o.effect db).1.items := by
        simp [LifecycleOp.exec, houtcome]
      suffices heffect : LinksNoItem runId db (o.effect db).1 by
        intro row' hrow'
        rw [hitems] at hrow'
        exact heffect row' hrow'
      cases o with
      | linkRunIfUnlinked projectId workItemId linkedRunId =>
          refine LinksNoItem.update ?_ ?_
          · exact fun _ => rfl
          intro row hrow hmatches hlinked
          obtain ⟨hisRow, hunlinked⟩ := Bool.and_eq_true_iff.1 hmatches
          have hrun : linkedRunId = runId := Option.some.inj hlinked
          rw [h hrun houtcome row hrow hisRow] at hunlinked
          cases hunlinked
      | clearRunLinksIfMatches projectId workItemId clearedRunId lastExecutionStatus =>
          refine LinksNoItem.update ?_ ?_
          · exact fun _ => rfl
          · rintro row - - ⟨⟩
      | recordExecutionStatus projectId workItemId runId status =>
          refine LinksNoItem.update ?_ ?_
          · exact fun _ => rfl
          · exact fun _ _ _ hlinked => hlinked
      | addTokenSpend projectId workItemId amount =>
          refine LinksNoItem.update ?_ ?_
          · exact fun _ => rfl
          · exact fun _ _ _ hlinked => hlinked
      | addCostSpend projectId workItemId amountCents =>
          refine LinksNoItem.update ?_ ?_
          · exact fun _ => rfl
          · exact fun _ _ _ hlinked => hlinked
      | _ => exact .refl runId db

end Links

/-! ## Runs -/

variable {c : ConsumerState}

/-- **One call changes nothing that is stale.** -/
theorem ConsumerState.MindsEndedRuns.changesNothing {input : ConsumerInput}
    (h : c.MindsEndedRuns input) : c.ChangesNothingStale input := by
  cases input with
  | handle event statements =>
      obtain ⟨hfits, hlinks⟩ := h
      refine ⟨?_, fun hterminal hended => ?_⟩
      · apply Prog.Meets.runFor LifecycleOp.exec ?_ ?_ (meets_handleRunEvent hfits) fun _ _ => trivial
        · exact fun _ _ h' => h'
        · exact fun _ _ h' => h'
      · refine Prog.runFor_keeps_when LifecycleOp.exec (I := LinksNoItem event.run_id c.db) ?_ _ _
          (.refl _ _) (hlinks hterminal hended)
        exact fun s o hs ho => hs.trans (linksNoItem_exec ho)
  | relink workItemId linkedRunId currentExecutionId =>
      exact ⟨.of_projections rfl, trivial⟩

theorem AllMindEndedRuns.of_append {before rest : List ConsumerInput}
    (h : AllMindEndedRuns (before ++ rest) c) : AllMindEndedRuns rest (c.after before) := by
  induction before generalizing c with
  | nil => exact h
  | cons input before ih => exact ih h.2

/-- A run keeps the terminal statuses. -/
theorem AllMindEndedRuns.keeps {inputs : List ConsumerInput} (h : AllMindEndedRuns inputs c) :
    KeepsTerminalStatuses c.db (c.after inputs).db := by
  induction inputs generalizing c with
  | nil => exact .of_projections rfl
  | cons input inputs ih => exact h.1.changesNothing.1.trans (ih h.2)

/-- **Late events change nothing.** In a run of handlings and of writes by others, a terminal status
stays in its projection to the end, and no call links a work item to a run that has ended. -/
theorem late_events_change_nothing (start : ConsumerState) (inputs : List ConsumerInput)
    (h : AllMindEndedRuns inputs start) :
    (∀ before rest, inputs = before ++ rest →
      KeepsTerminalStatuses (start.after before).db (start.after inputs).db) ∧
    ∀ before input rest, inputs = before ++ input :: rest →
      (start.after before).ChangesNothingStale input := by
  constructor
  · rintro before rest rfl
    have hrest := h.of_append.keeps
    rwa [ConsumerState.after, ConsumerState.after, ← List.foldl_append] at hrest
  · rintro before input rest rfl
    exact h.of_append.1.changesNothing

/-! ## Events of one run -/

instance (runId : String) (db : LifecycleStore) (o : LifecycleOp) :
    Decidable (o.FindsItemLinked runId db) := by
  rcases o
  case linkRunIfUnlinked => exact inferInstanceAs (Decidable (_ → _ → ∀ row ∈ _, _))
  all_goals exact isTrue trivial

instance (event : RunEvent) (db : LifecycleStore) : Decidable (event.FitsProjection db) := by
  dsimp only [RunEvent.FitsProjection, LifecycleStore.ReachesProjection]
  infer_instance

instance (c : ConsumerState) (runId : String) : Decidable (c.HasEnded runId) := by
  dsimp only [ConsumerState.HasEnded]
  infer_instance

instance (c : ConsumerState) (input : ConsumerInput) : Decidable (c.MindsEndedRuns input) := by
  cases input <;> dsimp only [ConsumerState.MindsEndedRuns] <;> infer_instance

instance decidableAllMindEndedRuns : ∀ (inputs : List ConsumerInput) (c : ConsumerState),
    Decidable (AllMindEndedRuns inputs c)
  | [], _ => .isTrue trivial
  | input :: inputs, c =>
      have := decidableAllMindEndedRuns inputs (c.next input)
      inferInstanceAs (Decidable (_ ∧ _))

/-- An event of run "r" of work item "w". -/
def eventOfR (eventId status : String) (occurredAt : Int) : RunEvent where
  event_id := eventId
  occurred_at := occurredAt
  run_id := "r"
  workflow_id := "work_item_dispatch"
  status := status
  context := some { scopeId := some "p", contextId := some "w" }

/-- A work item without links, before the first event. -/
def unlinkedItem : ConsumerState where
  db := { items := [{ id := "w", project_id := "p", status := .todo, title := "item" }] }

/-- After the run ended the item is dispatched again, and a late event finds it linked. -/
theorem late_events_change_nothing_redispatched :
    KeepsTerminalStatuses
      (unlinkedItem.after [.handle (eventOfR "e1" "RUNNING" 1) 100,
        .handle (eventOfR "e2" "COMPLETED" 2) 100]).db
      (unlinkedItem.after [.handle (eventOfR "e1" "RUNNING" 1) 100,
        .handle (eventOfR "e2" "COMPLETED" 2) 100, .relink "w" (some "r2") (some "r2"),
        .handle (eventOfR "e1" "RUNNING" 1) 100]).db :=
  (late_events_change_nothing unlinkedItem
    [.handle (eventOfR "e1" "RUNNING" 1) 100, .handle (eventOfR "e2" "COMPLETED" 2) 100,
      .relink "w" (some "r2") (some "r2"), .handle (eventOfR "e1" "RUNNING" 1) 100]
    (by decide +kernel)).1 [.handle (eventOfR "e1" "RUNNING" 1) 100,
      .handle (eventOfR "e2" "COMPLETED" 2) 100]
    [.relink "w" (some "r2") (some "r2"), .handle (eventOfR "e1" "RUNNING" 1) 100] rfl

/-- A run starts and ends, and its first event is handled once more: the projection passes over it,
and the work item is linked to the ended run. -/
theorem replayed_event_links_ended_run :
    ¬ (unlinkedItem.after [.handle (eventOfR "e1" "RUNNING" 1) 100,
        .handle (eventOfR "e2" "COMPLETED" 2) 100]).ChangesNothingStale
      (.handle (eventOfR "e1" "RUNNING" 1) 100) := by
  rintro ⟨-, hlinks⟩
  have hnew : ∀ row ∈ (unlinkedItem.after [.handle (eventOfR "e1" "RUNNING" 1) 100,
      .handle (eventOfR "e2" "COMPLETED" 2) 100]).db.items, row.linked_run_id ≠ some "r" := by
    decide +kernel
  have hlinked : ∃ row ∈ (unlinkedItem.after [.handle (eventOfR "e1" "RUNNING" 1) 100,
      .handle (eventOfR "e2" "COMPLETED" 2) 100,
      .handle (eventOfR "e1" "RUNNING" 1) 100]).db.items, row.linked_run_id = some "r" := by
    decide +kernel
  obtain ⟨row', hrow', hrun⟩ := hlinked
  obtain ⟨row, hrow, -, hrun'⟩ := hlinks rfl (by decide +kernel) row' hrow' hrun
  exact hnew row hrow hrun'

end Nexus
