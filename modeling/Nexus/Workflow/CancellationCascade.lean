import Nexus.Lib.Worklist
import Nexus.Workflow.Rows

/-!
# The cancellation cascade

`WorkflowCancellationCascadeService`: the cancellation of a run and of its active descendants, over
any graph of parents and children and with loads and listings that may fail. The cascade ends, and
cancels exactly the runs that a chain of active, loadable runs reaches from the first one, the
listing of every run before the last having succeeded. Without failures it is the `cancelRun` of the
engine, executed alone.
-/

set_option autoImplicit false

namespace Nexus

namespace WorkflowCancellationCascadeService

/-- What the cascade is wired with: the repository of runs (`@Optional()`) with its relation of
children, and the runs whose load or whose listing of children rejects. -/
structure CascadePorts where
  workflowRunRepository : Bool := true
  isChildOf : RunId → WorkflowRun → Bool
  loadFails : RunId → Bool := fun _ => false
  listingFails : RunId → Bool := fun _ => false

/-- The condition of `findActiveChildRunsForParentRun` on the trigger of a row. -/
def hasParent (parentWorkflowRunId : RunId) (run : WorkflowRun) : Bool :=
  run.triggerText ["parentWorkflowRunId"] = some (toString parentWorkflowRunId)

/-- The stores of the engine, and the runs whose containers were stopped, the last one first. -/
structure CascadeState where
  world : World
  stopped : List RunId := []

/-! ## The service -/

/-- `updateRunStatus` to CANCELLED at the time of the clock; the row it reads again is the row that
was loaded. -/
def markCancelled (w : World) (run : WorkflowRun) : World :=
  ((Op.update run.id (statusPatch run .cancelled w.clock)).exec (Op.now.exec w).1).1

/-- `cancelSingleRun`: the state after a run was cancelled, `none` for a run that cannot be loaded
or has ended. -/
def cancelSingleRun (ports : CascadePorts) (reason : String) (runId : RunId) (s : CascadeState) :
    Option CascadeState :=
  if ports.loadFails runId then none
  else
    match s.world.findRun runId with
    | none => none
    | some run =>
        if run.status.isTerminal then none
        else
          let stopped := runId :: s.stopped
          let marked := markCancelled s.world run
          let emitted := (Op.emit
            (.runCancelled runId run.workflow_id run.state_variables reason)).exec marked
          let purged := (Op.removeQueuedJobs runId).exec emitted.1
          some ⟨purged.1, stopped⟩

/-- `discoverActiveChildRunIds`: nothing without a repository, or when the listing fails. -/
def discoverActiveChildRunIds (ports : CascadePorts) (parentRunId : RunId) (s : CascadeState) :
    List RunId :=
  if !ports.workflowRunRepository || ports.listingFails parentRunId then []
  else
    (s.world.runs.filter fun run =>
      run.status.isActive && ports.isChildOf parentRunId run).reverse.map WorkflowRun.id

/-- The loop of `cancelRun`; `none` is fuel that ran out. -/
def cancelRuns (ports : CascadePorts) (reason : String) :
    Nat → List RunId → List RunId → CascadeState → Option CascadeState
  | 0, _, _, _ => none
  | _ + 1, [], _, s => some s
  | fuel + 1, nextId :: queue, visited, s =>
      if nextId ∈ visited then cancelRuns ports reason fuel queue visited s
      else
        match cancelSingleRun ports reason nextId s with
        | none => cancelRuns ports reason fuel queue (nextId :: visited) s
        | some s' =>
            let childIds := discoverActiveChildRunIds ports nextId s'
            cancelRuns ports reason fuel (queue ++ childIds.filter (· ∉ nextId :: visited))
              (nextId :: visited) s'

def cancelRun (ports : CascadePorts) (fuel : Nat) (runId : RunId) (reason : String)
    (s : CascadeState) : Option CascadeState :=
  cancelRuns ports reason fuel [runId] [] s

/-- The cascade as a traversal of runs. -/
def cascade (ports : CascadePorts) (reason : String) : Traversal RunId CascadeState where
  visit := cancelSingleRun ports reason
  next := discoverActiveChildRunIds ports

theorem cancelRuns_eq (ports : CascadePorts) (reason : String) (fuel : Nat) :
    ∀ (queue visited : List RunId) (s : CascadeState),
      cancelRuns ports reason fuel queue visited s =
        (cascade ports reason).run fuel queue visited s := by
  induction fuel with
  | zero => exact fun _ _ _ => rfl
  | succ fuel ih =>
      intro queue visited s
      cases queue with
      | nil => rfl
      | cons nextId queue =>
          rw [cancelRuns, Traversal.run]
          simp only [ih]
          have hvisit : (cascade ports reason).visit nextId s =
              cancelSingleRun ports reason nextId s := rfl
          rw [hvisit]
          cases cancelSingleRun ports reason nextId s with
          | none => rfl
          | some s' => rfl

/-! ## The runs that are cancelled -/

section Cascade

variable (ports : CascadePorts) (w : World)

/-- The run is PENDING or RUNNING and its row can be loaded. -/
def Cancellable (id : RunId) : Prop :=
  ports.loadFails id = false ∧ ∃ run, w.findRun id = some run ∧ run.status.isActive = true

/-- The run is a child of the parent, whose children can be listed. -/
def ListedChild (parent id : RunId) : Prop :=
  ports.workflowRunRepository = true ∧ ports.listingFails parent = false ∧
    ∃ run, w.findRun id = some run ∧ ports.isChildOf parent run = true

/-- The runs of the cascade from a run: a chain of cancellable runs leads to them, every one of them
listed as a child of the one before. -/
abbrev InCascade (r : RunId) : RunId → Prop :=
  Chained (Cancellable ports w) (ListedChild ports w) r

/-- The event of the cancellation of a run. -/
def cancelledEvent (reason : String) (id : RunId) : Option WorkflowEvent :=
  (w.findRun id).map fun run => .runCancelled id run.workflow_id run.state_variables reason

/-- The row is the other one, marked CANCELLED. -/
def MarkedCancelled (run run' : WorkflowRun) : Prop :=
  run' = { run with
    status := .cancelled
    completed_at := run'.completed_at
    updated_at := run'.updated_at }

/-- The state after some runs were cancelled, the last one first. -/
structure Cancelled (reason : String) (s₀ : CascadeState) (order : List RunId)
    (s : CascadeState) : Prop where
  /-- A run that was cancelled was active and is marked. -/
  marked : ∀ id ∈ order, ∃ run run', s₀.world.findRun id = some run ∧
    run.status.isActive = true ∧ s.world.findRun id = some run' ∧ MarkedCancelled run run'
  /-- No other run changed. -/
  other : ∀ id, id ∉ order → s.world.findRun id = s₀.world.findRun id
  ids : s.world.runs.map WorkflowRun.id = s₀.world.runs.map WorkflowRun.id
  /-- One event was emitted for each, and nothing else. -/
  events : s.world.events = order.filterMap (cancelledEvent s₀.world reason) ++ s₀.world.events
  stopped : s.stopped = order ++ s₀.stopped
  stepQueue : s.world.stepQueue =
    s₀.world.stepQueue.filter fun job => job.workflowRunId ∉ order

variable {ports w} {reason : String} {s₀ s s' : CascadeState} {order : List RunId} {id : RunId}

theorem isTerminal_eq_false {status : WorkflowStatus} :
    status.isTerminal = false ↔ status.isActive = true := by
  cases status with
  | pending => decide
  | running => decide
  | completed => decide
  | failed => decide
  | cancelled => decide

theorem Cancelled.start (reason : String) (s : CascadeState) : Cancelled reason s [] s where
  marked := fun _ hid => absurd hid List.not_mem_nil
  other := fun _ _ => rfl
  ids := rfl
  events := rfl
  stopped := rfl
  stepQueue := by simp

variable {run : WorkflowRun}

/-- A row that is still active was not cancelled, and is the row of the beginning. -/
theorem Cancelled.findRun_active (h : Cancelled reason s₀ order s)
    (hrun : s.world.findRun id = some run) (hactive : run.status.isActive = true) :
    id ∉ order ∧ s₀.world.findRun id = some run := by
  have hid : id ∉ order := by
    intro hmem
    obtain ⟨_, run', -, -, hrun', hmarked⟩ := h.marked id hmem
    rw [hrun, Option.some.injEq] at hrun'
    rw [hrun', hmarked] at hactive
    exact Bool.noConfusion hactive
  exact ⟨hid, (h.other id hid).symm.trans hrun⟩

/-- What is skipped cannot be cancelled. -/
theorem not_cancellable_of_skipped (h : Cancelled reason s₀ order s) (hid : id ∉ order)
    (hskip : cancelSingleRun ports reason id s = none) : ¬ Cancellable ports s₀.world id := by
  rintro ⟨hload, run, hrun, hactive⟩
  rw [← h.other id hid] at hrun
  have hterminal := isTerminal_eq_false.mpr hactive
  simp [cancelSingleRun, hload, hrun, hterminal] at hskip

theorem findRun_markCancelled {w : World} (id' : RunId) :
    (markCancelled w run).findRun id' =
      if id' = run.id then
        (w.findRun id').map fun x =>
          { x.patch (statusPatch run .cancelled w.clock) with updated_at := w.clock + 1 }
      else w.findRun id' :=
  World.findRun_modifyRun fun _ => rfl

theorem ids_markCancelled {w : World} :
    (markCancelled w run).runs.map WorkflowRun.id = w.runs.map WorkflowRun.id :=
  World.ids_modifyRun fun _ => rfl

/-- The row after the patch of the transition is the row marked CANCELLED. -/
theorem markedCancelled_patch (run : WorkflowRun) (now updated : Nat) :
    MarkedCancelled run
      { run.patch (statusPatch run .cancelled now) with updated_at := updated } := by
  have hstarted : (statusPatch run .cancelled now).started_at = none := by
    simp [statusPatch, buildRunStatusTimestampPatch]
  have hstep : (statusPatch run .cancelled now).current_step_id = none := rfl
  simp only [MarkedCancelled, WorkflowRun.patch, hstarted, hstep]
  rfl

/-- What `cancelSingleRun` cancels was cancellable. -/
theorem cancelled_of_taken (h : Cancelled reason s₀ order s) (hid : id ∉ order)
    (htake : cancelSingleRun ports reason id s = some s') :
    Cancellable ports s₀.world id ∧ Cancelled reason s₀ (id :: order) s' := by
  unfold cancelSingleRun at htake
  split at htake
  · cases htake
  rename_i hload
  split at htake
  · cases htake
  rename_i run hrun
  split at htake
  · cases htake
  rename_i hterminal
  rw [Bool.not_eq_true] at hload hterminal
  have hrunId : run.id = id := World.findRun_id hrun
  have hrun₀ : s₀.world.findRun id = some run := (h.other id hid).symm.trans hrun
  refine ⟨⟨hload, run, hrun₀, isTerminal_eq_false.mp hterminal⟩, ?_⟩
  cases htake
  have hfind : ∀ id', (markCancelled s.world run).findRun id' =
      if id' = id then (s.world.findRun id').map fun x =>
        { x.patch (statusPatch run .cancelled s.world.clock) with
          updated_at := s.world.clock + 1 }
      else s.world.findRun id' := by
    intro id'
    rw [findRun_markCancelled, hrunId]
  constructor
  · intro id' hid'
    rcases List.mem_cons.mp hid' with rfl | hbefore
    · refine ⟨run, _, hrun₀, isTerminal_eq_false.mp hterminal, ?_, markedCancelled_patch run
        s.world.clock (s.world.clock + 1)⟩
      refine (hfind id').trans ?_
      rw [if_pos rfl, hrun]
      rfl
    · obtain ⟨run₀, run', h₀, hactive, h', hmarked⟩ := h.marked id' hbefore
      refine ⟨run₀, run', h₀, hactive, (hfind id').trans ?_, hmarked⟩
      rw [if_neg, h']
      rintro rfl
      exact hid hbefore
  · intro id' hid'
    rw [List.mem_cons, not_or] at hid'
    refine (hfind id').trans ?_
    rw [if_neg hid'.1, h.other id' hid'.2]
  · exact ids_markCancelled.trans h.ids
  · have hevent : cancelledEvent s₀.world reason id =
        some (.runCancelled id run.workflow_id run.state_variables reason) := by
      rw [cancelledEvent, hrun₀]
      rfl
    rw [List.filterMap_cons_some hevent, List.cons_append, ← h.events]
    rfl
  · rw [List.cons_append, ← h.stopped]
  · have hpurged : (s.world.stepQueue.filter fun job => job.workflowRunId ≠ id) =
        s₀.world.stepQueue.filter fun job => job.workflowRunId ∉ id :: order := by
      rw [h.stepQueue, List.filter_filter]
      refine List.filter_congr fun job _ => ?_
      simp [not_or]
    exact hpurged

/-- What is listed is a listed child of the beginning. -/
theorem listedChild_of_discovered (hkeys : s₀.world.KeysDistinct)
    (h : Cancelled reason s₀ order s) {parent : RunId}
    (hid : id ∈ discoverActiveChildRunIds ports parent s) :
    ListedChild ports s₀.world parent id := by
  unfold discoverActiveChildRunIds at hid
  split at hid
  · exact absurd hid List.not_mem_nil
  · rename_i hlisted
    simp only [Bool.or_eq_true, Bool.not_eq_true', not_or, Bool.not_eq_false,
      Bool.not_eq_true] at hlisted
    obtain ⟨run, hrun, rfl⟩ := List.mem_map.mp hid
    rw [List.mem_reverse, List.mem_filter, Bool.and_eq_true] at hrun
    obtain ⟨hmem, hactive, hchild⟩ := hrun
    have hkeys' : s.world.KeysDistinct := by
      rw [World.KeysDistinct, h.ids]
      exact hkeys
    obtain ⟨-, hfind⟩ := h.findRun_active (World.findRun_of_mem hkeys' hmem) hactive
    exact ⟨hlisted.1, hlisted.2, run, hfind, hchild⟩

/-- An active listed child that was not cancelled yet is listed. -/
theorem discovered_of_listedChild (h : Cancelled reason s₀ order s) {parent : RunId}
    (hchild : ListedChild ports s₀.world parent id) (hid : Cancellable ports s₀.world id) :
    id ∈ order ∨ id ∈ discoverActiveChildRunIds ports parent s := by
  by_cases hmem : id ∈ order
  · exact .inl hmem
  obtain ⟨hwired, hlisting, run, hrun, hof⟩ := hchild
  obtain ⟨-, run', hrun', hactive⟩ := hid
  rw [hrun, Option.some.injEq] at hrun'
  subst hrun'
  rw [← h.other id hmem] at hrun
  refine .inr ?_
  unfold discoverActiveChildRunIds
  rw [hwired, hlisting, if_neg (by decide)]
  refine List.mem_map.mpr ⟨run, ?_, World.findRun_id hrun⟩
  rw [List.mem_reverse, List.mem_filter, hactive, hof]
  exact ⟨World.findRun_mem hrun, rfl⟩

/-- The cascade follows the graph of the beginning: the statuses it changes are those of runs it has
taken. -/
theorem cascade_follows (reason : String) (hkeys : s₀.world.KeysDistinct) :
    (cascade ports reason).Follows (Cancellable ports s₀.world) (ListedChild ports s₀.world)
      (Cancelled reason s₀) where
  skips := not_cancellable_of_skipped
  takes := cancelled_of_taken
  edge_of_next := fun h _ => listedChild_of_discovered hkeys h
  next_of_edge := fun h _ => discovered_of_listedChild h

theorem length_discovered_le (h : Cancelled reason s₀ order s) :
    (discoverActiveChildRunIds ports id s).length ≤ s₀.world.runs.length := by
  unfold discoverActiveChildRunIds
  split
  · exact Nat.zero_le _
  · have hids := congrArg List.length h.ids
    rw [List.length_map, List.length_map] at hids
    rw [List.length_map, List.length_reverse, ← hids]
    exact List.length_filter_le _ _

end Cascade

/-- The iterations a cascade may take: one for the first run and one for every listed child. -/
def cascadeBound (w : World) : Nat := w.runs.length * w.runs.length + 2

/-- **The cancellation cascade.** A cascade over any rows, any relation of children and any failing
loads and listings ends; it cancels exactly the runs of the cascade, each once, and changes no other
run. -/
theorem cascade_exact (ports : CascadePorts) (s : CascadeState) (hkeys : s.world.KeysDistinct)
    (r : RunId) (reason : String) :
    ∃ s' order, (∀ fuel, cascadeBound s.world ≤ fuel → cancelRun ports fuel r reason s = some s') ∧
      order.Nodup ∧ (∀ id, id ∈ order ↔ InCascade ports s.world r id) ∧
      Cancelled reason s order s' := by
  have hnodes : ∀ id, Cancellable ports s.world id → id ∈ s.world.runs.map WorkflowRun.id := by
    rintro id ⟨-, run, hrun, -⟩
    exact List.mem_map.mpr ⟨run, World.findRun_mem hrun, World.findRun_id hrun⟩
  obtain ⟨order, s', hrun, hcancelled, hnodup, hmem⟩ :=
    Traversal.run_walk (cascade_follows reason hkeys) hnodes
      (fun h => length_discovered_le h) (cascadeBound s.world) (Cancelled.start reason s)
      (Traversal.Walk.start r) (by
        simp only [cascadeBound, List.length_singleton, List.length_map, List.length_nil,
          Nat.sub_zero]
        omega)
  refine ⟨s', order, fun fuel hfuel => ?_, hnodup, hmem, hcancelled⟩
  rw [cancelRun, cancelRuns_eq]
  exact Traversal.run_of_le _ hfuel hrun

/-! ## Two runs that are each other's children -/

/-- A run of another one's trigger. -/
def childOf (parent id : RunId) (status : WorkflowStatus) : WorkflowRun where
  id := id
  workflow_id := "workflow"
  status := status
  state_variables := .obj [("trigger", .obj [("parentWorkflowRunId", .str (toString parent))])]

/-- Two runs that name each other, a third below one of them that has ended, and a fourth. -/
def circularRuns : CascadeState where
  world := {
    runs := [childOf 2 1 .running, childOf 1 2 .pending, childOf 2 3 .completed,
      childOf 3 4 .running] }

theorem circular_runs_cancelled : ∃ s' order,
    cancelRun { isChildOf := hasParent } (cascadeBound circularRuns.world) 1 "stop" circularRuns =
      some s' ∧ order.Nodup ∧ Cancelled "stop" circularRuns order s' := by
  obtain ⟨s', order, hrun, hnodup, -, hcancelled⟩ :=
    cascade_exact { isChildOf := hasParent } circularRuns (by decide) 1 "stop"
  exact ⟨s', order, hrun _ (Nat.le_refl _), hnodup, hcancelled⟩

/-! ## The cascade of the engine -/

/-- The repository's relation of children, and nothing that fails. -/
def enginePorts : CascadePorts where
  isChildOf := hasParent

end WorkflowCancellationCascadeService

end Nexus
