import Nexus.Execution.Lifecycle
import Nexus.Lib.OrderedMap
import Mathlib.Data.List.Induction

/-!
# The container-loss debounce

The sweeps of `ExecutionSupervisorService` keep, for each execution, when its container was first
observed lost. The timer is touched only by rows that are processed, and only an alive container or
a gone row stops it: it runs on while a row is frozen, while a child excuses the loss, and when the
row gets another container. A `container_lost` reap rests on an uninterrupted loss in every run in
which no loss that counts comes on top of a timer kept by such a sweep (`container_loss_debounced`).
-/

set_option autoImplicit false

namespace Nexus

namespace ExecutionSupervisorService

/-! ## Classification -/

inductive AgentEndOutcome where
  | success
  | failure
  deriving DecidableEq, Repr

structure SupervisionInput where
  kind : ExecutionKind
  state : ExecutionState
  createdAtMs : Int
  lastHeartbeatAtMs : Int
  containerLost : Bool
  containerLostForMs : Option Int := none
  hasLiveChildSubagent : Bool := false
  agentEndedForMs : Option Int := none
  agentEndedOutcome : Option AgentEndOutcome := none
  durableOutputPersisted : Bool := false
  durableOutputQuiescentForMs : Option Int := none
  ownerLeaseExpiredForMs : Option Int := none
  latestJobActivityQuiescentForMs : Option Int := none

/-- The resolved limits of the service. -/
structure SupervisionLimits where
  idleTimeoutMs : Int := 15 * 60000
  maxRuntimeMs : Int := 4 * 60 * 60000
  containerLostGraceMs : Int := 90000
  provisionGraceMs : Int := 5 * 60000

def RECONCILE_GRACE_MS : Int := 60000

def DURABLE_OUTPUT_QUIESCENCE_MS : Int := 3 * 60000

def WORKFLOW_STEP_OWNER_ORPHAN_GRACE_MS : Int := 3 * 60000

def shouldReapForContainerLost (input : SupervisionInput) (containerLostGraceMs : Int) : Bool :=
  if !input.containerLost then false
  else
    match input.containerLostForMs with
    | none => false
    | some lostForMs =>
        if lostForMs < containerLostGraceMs then false
        else if input.kind = .workflowStep ∧ input.hasLiveChildSubagent = true then false
        else true

def classifyStaleProvisionState (input : SupervisionInput) (nowMs provisionGraceMs : Int) :
    Option ReapDecision :=
  if input.state = .provisioning ∧ nowMs - input.createdAtMs > provisionGraceMs then
    some (.reap .spawnTimeout)
  else if input.state = .pending ∧ nowMs - input.createdAtMs > provisionGraceMs then
    some (.reap .neverDispatched)
  else none

def shouldReapForExpiredOwnerLease (input : SupervisionInput) : Bool :=
  if input.kind ≠ .workflowStep then false
  else if input.state ≠ .running then false
  else if input.containerLost then false
  else if input.hasLiveChildSubagent then false
  else if input.agentEndedForMs.isSome then false
  else if input.durableOutputPersisted then false
  else if input.ownerLeaseExpiredForMs.getD 0 < WORKFLOW_STEP_OWNER_ORPHAN_GRACE_MS then false
  else WORKFLOW_STEP_OWNER_ORPHAN_GRACE_MS ≤ input.latestJobActivityQuiescentForMs.getD 0

def classifyWorkflowStep (input : SupervisionInput) : Option ReapDecision :=
  if input.state ≠ .running ∨ input.containerLost = true ∨ input.hasLiveChildSubagent = true then
    none
  else if input.agentEndedForMs.any fun endedFor => RECONCILE_GRACE_MS ≤ endedFor then
    if input.agentEndedOutcome = some .failure then some .reconcileFailed
    else some .reconcileCompleted
  else if input.durableOutputPersisted = true ∧
      (input.durableOutputQuiescentForMs.any fun quiescentFor =>
        DURABLE_OUTPUT_QUIESCENCE_MS ≤ quiescentFor) = true then
    some .reconcileCompleted
  else if shouldReapForExpiredOwnerLease input then some (.reap .idleTimeout)
  else none

def classifyExecutionForReaping (input : SupervisionInput) (nowMs : Int)
    (limits : SupervisionLimits) : Option ReapDecision :=
  if shouldReapForContainerLost input limits.containerLostGraceMs then
    some (.reap .containerLost)
  else if nowMs - input.createdAtMs > limits.maxRuntimeMs then some (.reap .maxRuntimeExceeded)
  else
    match classifyStaleProvisionState input nowMs limits.provisionGraceMs with
    | some decision => some decision
    | none =>
        if input.state = .awaitingInput then none
        else if input.kind = .workflowStep then classifyWorkflowStep input
        else if nowMs - input.lastHeartbeatAtMs > limits.idleTimeoutMs then
          some (.reap .idleTimeout)
        else none

/-! ## What a sweep meets -/

/-- A row of `executions` with the times that only the supervisor reads. -/
structure SupervisedRow where
  execution : Execution
  created_at : Int
  owner_lease_expires_at : Option Int := none

structure AgentEndSignal where
  endedAtMs : Int
  outcome : AgentEndOutcome

/-- The readers of the event ledger, on a run and a job; an outer `none` is a read that throws. -/
structure LedgerReaders where
  findLatestAgentEnd : Option (String → String → Option (Option AgentEndSignal)) := none
  /-- `findCompletionCandidate` and `findLatestJobActivity`, with the latest activity. -/
  jobOutput : Option ((String → String → Option (Option Int)) ×
    (String → String → Option (Option Int))) := none

/-- What one call of `sweepOnce` meets. -/
structure SweepCall where
  isReapingSuspended : Bool := false
  isShuttingDown : Bool := false
  now : Int
  /-- `findNonTerminal`. -/
  rows : List SupervisedRow
  /-- `id` is the primary key. -/
  distinct : (rows.map fun row => row.execution.id).Nodup
  /-- The runs with a non-terminal subagent. -/
  runIdsWithLiveSubagents : List String := []
  isContainerLost : String → Bool
  readers : LedgerReaders := {}
  /-- Executions whose event cannot be published. -/
  publishFails : String → Bool := fun _ => false

/-- The call sweeps. -/
def SweepCall.runs (call : SweepCall) : Bool := !call.isReapingSuspended && !call.isShuttingDown

/-! ## Signals -/

section Signals

variable (readers : LedgerReaders) (row : SupervisedRow) (now : Int)
  (containerLost hasLiveChildSubagent : Bool)

/-- The run and the job of a running step whose container is up and that waits for no child. -/
def ledgerKey : Option (String × String) :=
  if row.execution.kind ≠ .workflowStep ∨ row.execution.state ≠ .running ∨
      containerLost = true ∨ hasLiveChildSubagent = true then none
  else
    match row.execution.workflow_run_id, row.execution.context_id with
    | some "", _ => none
    | _, some "" => none
    | some runId, some contextId => some (runId, contextId)
    | _, _ => none

def resolveAgentEndSignal : Option (Option (Int × AgentEndOutcome)) :=
  match ledgerKey row containerLost hasLiveChildSubagent, readers.findLatestAgentEnd with
  | some (runId, contextId), some findLatest =>
      (findLatest runId contextId).map fun signal =>
        signal.map fun signal => (now - signal.endedAtMs, signal.outcome)
  | _, _ => some none

/-- `resolveDurableOutputSignal`: the quiescence of a persisted output. -/
def resolveDurableOutputSignal (agentEnd : Option (Int × AgentEndOutcome)) : Option (Option Int) :=
  match ledgerKey row containerLost hasLiveChildSubagent, readers.jobOutput with
  | some (runId, contextId), some (findCompletionCandidate, _) =>
      if agentEnd.isSome then some none
      else
        (findCompletionCandidate runId contextId).map fun candidate =>
          candidate.map fun latestActivityMs => now - latestActivityMs
  | _, _ => some none

/-- `resolveOwnerLeaseSignal`: how long the lease has expired and the job has been quiet. -/
def resolveOwnerLeaseSignal (agentEnd : Option (Int × AgentEndOutcome))
    (durableOutputPersisted : Bool) : Option (Option (Int × Int)) :=
  match ledgerKey row containerLost hasLiveChildSubagent, readers.jobOutput,
      row.owner_lease_expires_at with
  | some (runId, contextId), some (_, findLatestJobActivity), some expiresAt =>
      if agentEnd.isSome ∨ durableOutputPersisted = true ∨ now - expiresAt < 0 then some none
      else
        (findLatestJobActivity runId contextId).map fun activity =>
          some (now - expiresAt, match activity with
            | some latestActivityMs => now - latestActivityMs
            | none => now - expiresAt)
  | _, _, _ => some none

end Signals

/-! ## Sweeps -/

/-- `containerLostSince`. -/
abbrev LossTimers : Type := OrderedMap String Int

/-- `trackContainerLost`: the timers, and how long the container has been lost. -/
def trackContainerLost (timers : LossTimers) (executionId : String) (containerLost : Bool)
    (now : Int) : LossTimers × Option Int :=
  if !containerLost then (OrderedMap.erase timers executionId, none)
  else
    let since := (OrderedMap.get? timers executionId).getD now
    (OrderedMap.set timers executionId since, some (now - since))

/-- What a sweep sees of a row that it processes. -/
structure Observation where
  executionId : String
  containerId : Option String
  containerLost : Bool
  hasLiveChildSubagent : Bool
  deriving DecidableEq, Repr

section Rows

variable (limits : SupervisionLimits) (call : SweepCall)

/-- `row.container_id ? await this.docker.isContainerLost(row.container_id) : false`. -/
def SweepCall.probe (row : SupervisedRow) : Bool :=
  match row.execution.container_id with
  | none => false
  | some "" => false
  | some containerId => call.isContainerLost containerId

def SweepCall.observe (row : SupervisedRow) : Observation where
  executionId := row.execution.id
  containerId := row.execution.container_id
  containerLost := call.probe row
  hasLiveChildSubagent := row.execution.kind = .workflowStep ∧
    (row.execution.workflow_run_id.any fun runId =>
      runId ∈ call.runIdsWithLiveSubagents) = true

/-- The input of the classification; `none` where a reader throws. -/
def supervisionInput (row : SupervisedRow) (seen : Observation) (containerLostForMs : Option Int) :
    Option SupervisionInput := do
  let now := call.now
  let agentEnd ← resolveAgentEndSignal call.readers row now seen.containerLost
    seen.hasLiveChildSubagent
  let durableOutput ← resolveDurableOutputSignal call.readers row now seen.containerLost
    seen.hasLiveChildSubagent agentEnd
  let ownerLease ← resolveOwnerLeaseSignal call.readers row now seen.containerLost
    seen.hasLiveChildSubagent agentEnd durableOutput.isSome
  return {
    kind := row.execution.kind
    state := row.execution.state
    createdAtMs := row.created_at
    lastHeartbeatAtMs := (row.execution.last_heartbeat_at.map Int.ofNat).getD row.created_at
    containerLost := seen.containerLost
    containerLostForMs
    hasLiveChildSubagent := seen.hasLiveChildSubagent
    agentEndedForMs := agentEnd.map Prod.fst
    agentEndedOutcome := agentEnd.map Prod.snd
    durableOutputPersisted := durableOutput.isSome
    durableOutputQuiescentForMs := durableOutput
    ownerLeaseExpiredForMs := ownerLease.map Prod.fst
    latestJobActivityQuiescentForMs := ownerLease.map Prod.snd }

/-- What the rows of a sweep lead to. -/
structure Swept where
  timers : LossTimers
  observations : List Observation := []
  decisions : List (String × ReapDecision) := []
  threw : Bool := false

/-- `processRow`. -/
def processRow (row : SupervisedRow) (timers : LossTimers) : Swept :=
  let seen := call.observe row
  let (timers, containerLostForMs) :=
    trackContainerLost timers row.execution.id seen.containerLost call.now
  match supervisionInput call row seen containerLostForMs with
  | none => { timers, observations := [seen], threw := true }
  | some input =>
      match classifyExecutionForReaping input call.now limits with
      | none => { timers, observations := [seen] }
      | some decision => {
          timers
          observations := [seen]
          decisions := [(row.execution.id, decision)]
          threw := call.publishFails row.execution.id }

/-- The loop of `sweepOnce` over the rows. -/
def sweepRows : List SupervisedRow → LossTimers → Swept
  | [], timers => { timers }
  | row :: rows, timers =>
      if row.execution.frozen then sweepRows rows timers
      else
        let first := processRow limits call row timers
        if first.threw then first
        else
          let rest := sweepRows rows first.timers
          { rest with
            observations := first.observations ++ rest.observations
            decisions := first.decisions ++ rest.decisions }

/-- `pruneContainerLostTracking`. -/
def pruneContainerLostTracking (liveIds : List String) (timers : LossTimers) : LossTimers :=
  timers.filter fun entry => entry.1 ∈ liveIds

def SweepCall.liveIds : List String := call.rows.map fun row => row.execution.id

/-- `sweepOnce` when it sweeps. -/
def sweep (timers : LossTimers) : Swept :=
  let swept := sweepRows limits call call.rows timers
  if swept.threw then swept
  else { swept with timers := pruneContainerLostTracking call.liveIds swept.timers }

end Rows

/-! ## Runs -/

/-- A sweep of a run: the call, and what it led to. -/
structure SweepRecord where
  call : SweepCall
  swept : Swept

/-- The timers of a supervisor, and its sweeps, the last one first. -/
structure SupervisorRun where
  timers : LossTimers := []
  sweeps : List SweepRecord := []

/-- `sweepOnce`. -/
def SupervisorRun.sweepOnce (limits : SupervisionLimits) (run : SupervisorRun)
    (call : SweepCall) : SupervisorRun :=
  if call.runs then
    let swept := sweep limits call run.timers
    { timers := swept.timers, sweeps := ⟨call, swept⟩ :: run.sweeps }
  else run

/-- The calls of a supervisor since it was started. -/
def supervise (limits : SupervisionLimits) (calls : List SweepCall) : SupervisorRun :=
  calls.foldl (SupervisorRun.sweepOnce limits) {}

/-! ## What sweeps see -/

section Seen

variable (r : SweepRecord) (e : String)

/-- The sweep processed the row of the execution, found its container lost, and no child excused
the loss. -/
def SweepRecord.SawLost (c : String) : Prop :=
  ∃ seen ∈ r.swept.observations, seen.executionId = e ∧ seen.containerId = some c ∧
    seen.containerLost = true ∧ seen.hasLiveChildSubagent = false

/-- The sweep found the container lost, excused or not. -/
def SweepRecord.SawAnyLoss : Prop :=
  ∃ seen ∈ r.swept.observations, seen.executionId = e ∧ seen.containerLost = true

/-- The sweep found the container alive, or came to its end and did not find the execution. -/
def SweepRecord.SawGone : Prop :=
  (∃ seen ∈ r.swept.observations, seen.executionId = e ∧ seen.containerLost = false) ∨
    r.swept.threw = false ∧ e ∉ r.call.liveIds

/-- A sweep found the container lost, and none since found it alive or the execution gone. -/
def Pending : List SweepRecord → Prop
  | [] => False
  | r :: older => ¬ r.SawGone e ∧ (r.SawAnyLoss e ∨ Pending older)

end Seen

/-- No loss comes on top of a timer that another container, a frozen row, a child or a cut sweep
left running: a sweep that sees a loss while one is pending follows one that saw the same. -/
def Steady (sweeps : List SweepRecord) : Prop :=
  ∀ newer r prev older, sweeps = newer ++ r :: prev :: older → ∀ e c,
    r.SawLost e c → Pending e (prev :: older) → prev.SawLost e c

/-- A reap for a lost container rests on sweeps, for the time of grace, that all saw the loss of the
container that the last one found. -/
def Debounced (limits : SupervisionLimits) (sweeps : List SweepRecord) : Prop :=
  ∀ newer r older e, sweeps = newer ++ r :: older →
    (e, ReapDecision.reap .containerLost) ∈ r.swept.decisions →
    ∃ c recent s oldest, r :: older = recent ++ s :: oldest ∧
      s.call.now ≤ r.call.now - limits.containerLostGraceMs ∧
      ∀ t ∈ recent ++ [s], t.SawLost e c

/-! ## One row -/

variable {seen : Observation}

section Row

variable {limits : SupervisionLimits} {call : SweepCall} {row : SupervisedRow}
  {timers : LossTimers} {e : String}

variable {input : SupervisionInput}

/-- Only the check of the container gives this reason. -/
theorem shouldReap_of_containerLost {now : Int}
    (h : classifyExecutionForReaping input now limits = some (.reap .containerLost)) :
    shouldReapForContainerLost input limits.containerLostGraceMs = true := by
  unfold classifyExecutionForReaping at h
  split at h
  · assumption
  · split at h
    · cases h
    · split at h
      · rename_i decision hstale
        cases h
        unfold classifyStaleProvisionState at hstale
        split at hstale
        · cases hstale
        · split at hstale <;> cases hstale
      · split at h
        · cases h
        · split at h
          · unfold classifyWorkflowStep at h
            split at h
            · cases h
            · split at h
              · split at h <;> cases h
              · split at h
                · cases h
                · split at h <;> cases h
          · split at h <;> cases h

/-- The check of the container, opened. -/
theorem shouldReapForContainerLost_iff {grace : Int} :
    shouldReapForContainerLost input grace = true ↔
      input.containerLost = true ∧
        (∃ lostFor, input.containerLostForMs = some lostFor ∧ grace ≤ lostFor) ∧
        ¬ (input.kind = .workflowStep ∧ input.hasLiveChildSubagent = true) := by
  unfold shouldReapForContainerLost
  cases input.containerLost with
  | false => simp
  | true =>
      cases input.containerLostForMs with
      | none => simp
      | some lostFor =>
          by_cases hgrace : lostFor < grace
          · simp [hgrace, Int.not_le.2 hgrace]
          · by_cases hchild : input.kind = .workflowStep ∧ input.hasLiveChildSubagent = true
            · simp [hgrace, hchild]
            · simp [hgrace, hchild, Int.not_lt.1 hgrace]

theorem processRow_observations : (processRow limits call row timers).observations =
    [call.observe row] := by
  unfold processRow
  dsimp only
  split
  · rfl
  · split <;> rfl

theorem processRow_timers : (processRow limits call row timers).timers =
    (trackContainerLost timers row.execution.id (call.probe row) call.now).1 := by
  unfold processRow
  dsimp only
  split
  · rfl
  · split <;> rfl

/-- The timer of a processed row runs exactly when its container is lost. -/
theorem get?_processRow_timers : OrderedMap.get? (processRow limits call row timers).timers e =
    if row.execution.id = e then
      if call.probe row then some ((OrderedMap.get? timers e).getD call.now) else none
    else OrderedMap.get? timers e := by
  rw [processRow_timers, trackContainerLost]
  cases call.probe row with
  | false => exact OrderedMap.get?_erase timers row.execution.id e
  | true =>
      rw [if_neg (by decide)]
      refine (OrderedMap.get?_set timers row.execution.id e _).trans ?_
      by_cases he : row.execution.id = e
      · subst he
        simp
      · simp [he]

/-- What the classification reads of the observation. -/
theorem supervisionInput_spec {lostFor : Option Int}
    (h : supervisionInput call row seen lostFor = some input) :
    input.kind = row.execution.kind ∧ input.containerLost = seen.containerLost ∧
      input.containerLostForMs = lostFor ∧
      input.hasLiveChildSubagent = seen.hasLiveChildSubagent := by
  unfold supervisionInput at h
  obtain ⟨agentEnd, -, h⟩ := Option.bind_eq_some_iff.1 h
  obtain ⟨durableOutput, -, h⟩ := Option.bind_eq_some_iff.1 h
  obtain ⟨ownerLease, -, h⟩ := Option.bind_eq_some_iff.1 h
  cases h
  exact ⟨rfl, rfl, rfl, rfl⟩

/-- A child excuses steps only. -/
theorem workflowStep_of_hasLiveChildSubagent
    (h : (call.observe row).hasLiveChildSubagent = true) : row.execution.kind = .workflowStep :=
  (of_decide_eq_true h).1

/-- A reap of a row for its container: the container is lost for the time of grace, and no child
excuses it. -/
theorem containerLost_of_processRow
    (h : (e, ReapDecision.reap .containerLost) ∈ (processRow limits call row timers).decisions) :
    row.execution.id = e ∧ (call.observe row).containerLost = true ∧
      (call.observe row).hasLiveChildSubagent = false ∧
      limits.containerLostGraceMs ≤
        call.now - (OrderedMap.get? timers row.execution.id).getD call.now := by
  unfold processRow at h
  dsimp only at h
  split at h
  · cases h
  · rename_i input hinput
    split at h
    · cases h
    · rename_i decision hdecision
      obtain ⟨rfl, rfl⟩ := Prod.mk.inj (List.mem_singleton.1 h)
      obtain ⟨hkind, hlost, hlostFor, hchild⟩ := supervisionInput_spec hinput
      obtain ⟨hcontainer, ⟨lostFor, hfor, hgrace⟩, hexcused⟩ :=
        shouldReapForContainerLost_iff.1 (shouldReap_of_containerLost hdecision)
      rw [hlost] at hcontainer
      refine ⟨rfl, hcontainer, ?_, ?_⟩
      · cases hseen : (call.observe row).hasLiveChildSubagent with
        | false => rfl
        | true =>
            refine absurd ⟨?_, hchild.trans hseen⟩ hexcused
            rw [hkind]
            exact workflowStep_of_hasLiveChildSubagent hseen
      · rw [hlostFor, trackContainerLost, hcontainer, if_neg (by decide)] at hfor
        rw [← Option.some.inj hfor] at hgrace
        exact hgrace

end Row

/-! ## One sweep -/

section Sweeps

variable {limits : SupervisionLimits} {call : SweepCall} {rows : List SupervisedRow}
  {timers : LossTimers} {e : String} {seen : Observation}

/-- A sweep observes rows that are not frozen. -/
theorem observed_row (h : seen ∈ (sweepRows limits call rows timers).observations) :
    ∃ row ∈ rows, seen = call.observe row := by
  induction rows generalizing timers with
  | nil => cases h
  | cons row rows ih =>
      have later : ∀ {timers}, seen ∈ (sweepRows limits call rows timers).observations →
          ∃ row' ∈ row :: rows, seen = call.observe row' := by
        intro timers h
        obtain ⟨row', hrow', hseen⟩ := ih h
        exact ⟨row', List.mem_cons_of_mem _ hrow', hseen⟩
      rw [sweepRows] at h
      split at h
      · exact later h
      · dsimp only at h
        split at h
        · rw [processRow_observations, List.mem_singleton] at h
          exact ⟨row, List.mem_cons_self, h⟩
        · rw [processRow_observations, List.mem_append, List.mem_singleton] at h
          rcases h with h | h
          · exact ⟨row, List.mem_cons_self, h⟩
          · exact later h

theorem observed_id (h : seen ∈ (sweepRows limits call rows timers).observations) :
    seen.executionId ∈ rows.map fun row => row.execution.id := by
  obtain ⟨row, hrow, rfl⟩ := observed_row h
  exact List.mem_map.mpr ⟨row, hrow, rfl⟩

/-- The timers of executions that are not observed stay. -/
theorem get?_sweepRows_of_unseen
    (h : ∀ seen ∈ (sweepRows limits call rows timers).observations, seen.executionId ≠ e) :
    OrderedMap.get? (sweepRows limits call rows timers).timers e = OrderedMap.get? timers e := by
  induction rows generalizing timers with
  | nil => rfl
  | cons row rows ih =>
      rw [sweepRows] at h ⊢
      split at h
      · rename_i hfrozen
        rw [if_pos hfrozen]
        exact ih h
      · rename_i hfrozen
        rw [if_neg hfrozen]
        dsimp only at h ⊢
        split at h
        · rename_i hthrew
          rw [if_pos hthrew, get?_processRow_timers]
          rw [processRow_observations] at h
          exact if_neg (h _ (List.mem_singleton_self _))
        · rename_i hthrew
          rw [if_neg hthrew]
          rw [processRow_observations, List.singleton_append] at h
          obtain ⟨hrow, hrest⟩ := List.forall_mem_cons.1 h
          rw [ih hrest, get?_processRow_timers]
          exact if_neg hrow

/-- The timer of an observed execution runs exactly when its container is lost. -/
theorem get?_sweepRows_of_seen (hd : (rows.map fun row => row.execution.id).Nodup)
    (h : seen ∈ (sweepRows limits call rows timers).observations) :
    OrderedMap.get? (sweepRows limits call rows timers).timers seen.executionId =
      if seen.containerLost then
        some ((OrderedMap.get? timers seen.executionId).getD call.now) else none := by
  induction rows generalizing timers with
  | nil => cases h
  | cons row rows ih =>
      rw [List.map_cons, List.nodup_cons] at hd
      obtain ⟨hnot, hd⟩ := hd
      rw [sweepRows] at h ⊢
      split at h
      · rename_i hfrozen
        rw [if_pos hfrozen]
        exact ih hd h
      · rename_i hfrozen
        rw [if_neg hfrozen]
        dsimp only at h ⊢
        split at h
        · rename_i hthrew
          rw [if_pos hthrew, get?_processRow_timers]
          rw [processRow_observations, List.mem_singleton] at h
          subst h
          exact if_pos rfl
        · rename_i hthrew
          rw [if_neg hthrew]
          rw [processRow_observations, List.singleton_append, List.mem_cons] at h
          rcases h with rfl | h
          · -- the row itself: none of the others has its id
            have hunseen : ∀ seen ∈ (sweepRows limits call rows
                (processRow limits call row timers).timers).observations,
                seen.executionId ≠ row.execution.id := by
              intro seen hseen heq
              exact hnot (heq ▸ observed_id hseen)
            refine (get?_sweepRows_of_unseen hunseen).trans ?_
            rw [get?_processRow_timers]
            exact if_pos rfl
          · have hne : row.execution.id ≠ seen.executionId := by
              intro heq
              exact hnot (heq ▸ observed_id h)
            rw [ih hd h, get?_processRow_timers, if_neg hne]

/-- A reap for a lost container is one of an execution that was observed, and whose timer has run
for the time of grace. -/
theorem containerLost_of_sweepRows (hd : (rows.map fun row => row.execution.id).Nodup)
    (h : (e, ReapDecision.reap .containerLost) ∈ (sweepRows limits call rows timers).decisions) :
    ∃ row ∈ rows, call.observe row ∈ (sweepRows limits call rows timers).observations ∧
      row.execution.id = e ∧ (call.observe row).containerLost = true ∧
      (call.observe row).hasLiveChildSubagent = false ∧
      limits.containerLostGraceMs ≤ call.now - (OrderedMap.get? timers e).getD call.now := by
  induction rows generalizing timers with
  | nil => cases h
  | cons row rows ih =>
      rw [List.map_cons, List.nodup_cons] at hd
      obtain ⟨hnot, hd⟩ := hd
      rw [sweepRows] at h ⊢
      split at h
      · rename_i hfrozen
        rw [if_pos hfrozen]
        obtain ⟨row', hrow', hspec⟩ := ih hd h
        exact ⟨row', List.mem_cons_of_mem _ hrow', hspec⟩
      · rename_i hfrozen
        rw [if_neg hfrozen]
        dsimp only at h ⊢
        have hself : call.observe row ∈ (processRow limits call row timers).observations := by
          rw [processRow_observations]
          exact List.mem_singleton_self _
        split at h
        · rename_i hthrew
          rw [if_pos hthrew]
          obtain ⟨rfl, hspec⟩ := containerLost_of_processRow h
          exact ⟨row, List.mem_cons_self, hself, rfl, hspec⟩
        · rename_i hthrew
          rw [if_neg hthrew]
          rcases List.mem_append.1 h with h | h
          · obtain ⟨rfl, hspec⟩ := containerLost_of_processRow h
            exact ⟨row, List.mem_cons_self, List.mem_append_left _ hself, rfl, hspec⟩
          · obtain ⟨row', hrow', hseen, rfl, hlost, hchild, hgrace⟩ := ih hd h
            have hne : row.execution.id ≠ row'.execution.id := by
              intro heq
              exact hnot (heq ▸ List.mem_map_of_mem hrow')
            rw [get?_processRow_timers, if_neg hne] at hgrace
            exact ⟨row', List.mem_cons_of_mem _ hrow', List.mem_append_right _ hseen, rfl, hlost,
              hchild, hgrace⟩

end Sweeps

section Records

variable {limits : SupervisionLimits} {call : SweepCall} {timers : LossTimers} {e c : String}

/-- The record of a sweep that begins with these timers. -/
def recordOf (limits : SupervisionLimits) (call : SweepCall) (timers : LossTimers) :
    SweepRecord := ⟨call, sweep limits call timers⟩

theorem recordOf_observations : (recordOf limits call timers).swept.observations =
    (sweepRows limits call call.rows timers).observations := by
  unfold recordOf sweep
  dsimp only
  split <;> rfl

theorem recordOf_decisions : (recordOf limits call timers).swept.decisions =
    (sweepRows limits call call.rows timers).decisions := by
  unfold recordOf sweep
  dsimp only
  split <;> rfl

theorem get?_filter_of_neg (p : String → Bool) (m : LossTimers) (he : p e = false) :
    OrderedMap.get? (m.filter fun entry => p entry.1) e = none := by
  rw [OrderedMap.get?_eq_none_iff]
  intro hmem
  obtain ⟨entry, hentry, rfl⟩ := List.mem_map.1 hmem
  rw [(List.mem_filter.1 hentry).2] at he
  cases he

/-- The timers after a sweep: pruned when it came to its end. -/
theorem get?_recordOf (e : String) :
    OrderedMap.get? (recordOf limits call timers).swept.timers e =
      if (recordOf limits call timers).swept.threw = false ∧ e ∉ call.liveIds then none
      else OrderedMap.get? (sweepRows limits call call.rows timers).timers e := by
  unfold recordOf sweep
  dsimp only
  by_cases hthrew : (sweepRows limits call call.rows timers).threw = true
  · simp [hthrew]
  · rw [if_neg hthrew]
    dsimp only
    by_cases he : e ∈ call.liveIds
    · rw [if_neg (fun h => h.2 he)]
      exact OrderedMap.get?_filter (fun id => decide (id ∈ call.liveIds)) _ (decide_eq_true he)
    · rw [if_pos ⟨Bool.eq_false_iff.2 hthrew, he⟩]
      exact get?_filter_of_neg (fun id => decide (id ∈ call.liveIds)) _ (decide_eq_false he)

theorem mem_liveIds_of_seen (h : seen ∈ (recordOf limits call timers).swept.observations) :
    seen.executionId ∈ call.liveIds := by
  rw [recordOf_observations] at h
  exact observed_id h

theorem timer_of_seen (h : seen ∈ (recordOf limits call timers).swept.observations) :
    OrderedMap.get? (recordOf limits call timers).swept.timers seen.executionId =
      if seen.containerLost then
        some ((OrderedMap.get? timers seen.executionId).getD call.now) else none := by
  rw [get?_recordOf, if_neg fun hgone => hgone.2 (mem_liveIds_of_seen h)]
  rw [recordOf_observations] at h
  exact get?_sweepRows_of_seen call.distinct h

/-- A loss starts the timer, or lets it run. -/
theorem timer_of_loss (h : (recordOf limits call timers).SawAnyLoss e) :
    OrderedMap.get? (recordOf limits call timers).swept.timers e =
      some ((OrderedMap.get? timers e).getD call.now) := by
  obtain ⟨seen, hseen, rfl, hlost⟩ := h
  rw [timer_of_seen hseen, hlost, if_pos rfl]

/-- An alive container or a gone execution stops it. -/
theorem timer_of_gone (h : (recordOf limits call timers).SawGone e) :
    OrderedMap.get? (recordOf limits call timers).swept.timers e = none := by
  rcases h with ⟨seen, hseen, rfl, halive⟩ | hgone
  · rw [timer_of_seen hseen, halive, if_neg (by decide)]
  · rw [get?_recordOf]
    exact if_pos hgone

/-- Nothing else touches it. -/
theorem timer_of_neither (hloss : ¬ (recordOf limits call timers).SawAnyLoss e)
    (hgone : ¬ (recordOf limits call timers).SawGone e) :
    OrderedMap.get? (recordOf limits call timers).swept.timers e =
      OrderedMap.get? timers e := by
  rw [get?_recordOf]
  refine (if_neg fun h => hgone (.inr h)).trans ?_
  apply get?_sweepRows_of_unseen
  rintro seen hseen rfl
  rw [← recordOf_observations] at hseen
  cases hlost : seen.containerLost with
  | true => exact hloss ⟨seen, hseen, rfl, hlost⟩
  | false => exact hgone (.inl ⟨seen, hseen, rfl, hlost⟩)

theorem not_gone_of_loss (h : (recordOf limits call timers).SawAnyLoss e) :
    ¬ (recordOf limits call timers).SawGone e := by
  intro hgone
  have hnone := timer_of_gone hgone
  rw [timer_of_loss h] at hnone
  cases hnone

theorem SweepRecord.SawLost.any {r : SweepRecord} (h : r.SawLost e c) : r.SawAnyLoss e := by
  obtain ⟨seen, hseen, hid, -, hlost, -⟩ := h
  exact ⟨seen, hseen, hid, hlost⟩

/-- A reap for a lost container: the sweep saw the loss, and the timer has run for the time of
grace. -/
theorem sawLost_of_decision
    (h : (e, ReapDecision.reap .containerLost) ∈ (recordOf limits call timers).swept.decisions) :
    (∃ c, (recordOf limits call timers).SawLost e c) ∧
      ∃ since, OrderedMap.get? (recordOf limits call timers).swept.timers e = some since ∧
        since ≤ call.now - limits.containerLostGraceMs := by
  rw [recordOf_decisions] at h
  obtain ⟨row, -, hseen, rfl, hlost, hchild, hgrace⟩ := containerLost_of_sweepRows call.distinct h
  rw [← recordOf_observations] at hseen
  refine ⟨?_, _, timer_of_loss ⟨_, hseen, rfl, hlost⟩, by omega⟩
  cases hcontainer : row.execution.container_id with
  | none =>
      have halive : call.probe row = false := by
        unfold SweepCall.probe
        rw [hcontainer]
      rw [SweepCall.observe, halive] at hlost
      cases hlost
  | some c => exact ⟨c, _, hseen, rfl, hcontainer, hlost, hchild⟩

end Records

/-! ## Runs of sweeps -/

section Runs

variable {limits : SupervisionLimits} {run : SupervisorRun} {sweeps : List SweepRecord}
  {r : SweepRecord}

theorem Steady.tail (h : Steady (r :: sweeps)) : Steady sweeps := by
  intro newer r' prev older heq
  exact h (r :: newer) r' prev older (by rw [heq]; rfl)

/-- What the timers of a run mean. -/
structure TimersMatch (run : SupervisorRun) : Prop where
  /-- A timer runs exactly while a loss is pending. -/
  pending : ∀ e, (∃ since, OrderedMap.get? run.timers e = some since) ↔ Pending e run.sweeps
  /-- In a steady run, a timer that the last sweep lets run began with the losses that it ends. -/
  since : Steady run.sweeps → ∀ e since, OrderedMap.get? run.timers e = some since →
    ∀ r older c, run.sweeps = r :: older → r.SawLost e c →
    ∃ recent s oldest, run.sweeps = recent ++ s :: oldest ∧ s.call.now = since ∧
      ∀ t ∈ recent ++ [s], t.SawLost e c

theorem timersMatch_start : TimersMatch {} where
  pending := fun e => iff_of_false (by rintro ⟨since, ⟨⟩⟩) fun h => h
  since := by
    rintro - e since ⟨⟩

theorem TimersMatch.sweep (h : TimersMatch run) (limits : SupervisionLimits) (call : SweepCall) :
    TimersMatch { timers := (recordOf limits call run.timers).swept.timers,
                  sweeps := recordOf limits call run.timers :: run.sweeps } where
  pending := by
    intro e
    by_cases hloss : (recordOf limits call run.timers).SawAnyLoss e
    · exact iff_of_true ⟨_, timer_of_loss hloss⟩ ⟨not_gone_of_loss hloss, .inl hloss⟩
    · by_cases hgone : (recordOf limits call run.timers).SawGone e
      · refine iff_of_false ?_ fun hpending => hpending.1 hgone
        rintro ⟨since, hsince⟩
        dsimp only at hsince
        rw [timer_of_gone hgone] at hsince
        cases hsince
      · dsimp only
        rw [timer_of_neither hloss hgone, h.pending, Pending]
        exact ⟨fun hpending => ⟨hgone, .inr hpending⟩, fun hpending =>
          hpending.2.resolve_left hloss⟩
  since := by
    intro hsteady e since hsince r older c hsweeps hlost
    obtain ⟨rfl, rfl⟩ := List.cons.inj hsweeps
    dsimp only at hsince
    rw [timer_of_loss hlost.any] at hsince
    cases htimer : OrderedMap.get? run.timers e with
    | none =>
        -- the timer starts here
        rw [htimer] at hsince
        refine ⟨[], _, run.sweeps, rfl, Option.some.inj hsince, ?_⟩
        intro t ht
        rw [List.nil_append, List.mem_singleton] at ht
        exact ht ▸ hlost
    | some start =>
        rw [htimer] at hsince
        have hpending := (h.pending e).1 ⟨start, htimer⟩
        cases hprev : run.sweeps with
        | nil =>
            rw [hprev] at hpending
            exact absurd hpending fun h => h
        | cons prev older =>
            have hprevLost : prev.SawLost e c := by
              apply hsteady [] _ prev older _ e c hlost
              · exact hprev ▸ hpending
              · rw [hprev]
                rfl
            obtain ⟨recent, s, oldest, hsplit, hstart, hall⟩ :=
              h.since hsteady.tail e start htimer prev older c hprev hprevLost
            refine ⟨recordOf limits call run.timers :: recent, s, oldest, ?_, ?_, ?_⟩
            · dsimp only
              rw [← hprev, hsplit]
              rfl
            · exact hstart.trans (Option.some.inj hsince)
            · exact List.forall_mem_cons.2 ⟨hlost, hall⟩

/-- A sweep of a steady run reaps for a lost container only after an uninterrupted loss. -/
theorem debounced_cons (h : TimersMatch run) (hrun : Debounced limits run.sweeps)
    (call : SweepCall) (hsteady : Steady (recordOf limits call run.timers :: run.sweeps)) :
    Debounced limits (recordOf limits call run.timers :: run.sweeps) := by
  intro newer r older e hsweeps hdecision
  cases newer with
  | cons r' newer => exact hrun newer r older e (List.cons.inj hsweeps).2 hdecision
  | nil =>
      obtain ⟨rfl, rfl⟩ := List.cons.inj hsweeps
      obtain ⟨⟨c, hlost⟩, since, hsince, hgrace⟩ := sawLost_of_decision hdecision
      obtain ⟨recent, s, oldest, hsplit, hnow, hall⟩ :=
        (h.sweep limits call).since hsteady e since hsince _ _ c rfl hlost
      exact ⟨c, recent, s, oldest, hsplit, by rw [hnow]; exact hgrace, hall⟩

theorem supervise_snoc (limits : SupervisionLimits) (calls : List SweepCall) (call : SweepCall) :
    supervise limits (calls ++ [call]) = (supervise limits calls).sweepOnce limits call :=
  List.foldl_concat ..

theorem timersMatch_supervise (limits : SupervisionLimits) (calls : List SweepCall) :
    TimersMatch (supervise limits calls) := by
  induction calls using List.reverseRecOn with
  | nil => exact timersMatch_start
  | append_singleton calls call ih =>
      rw [supervise_snoc, SupervisorRun.sweepOnce]
      split
      · exact ih.sweep limits call
      · exact ih

end Runs

/-- **The debounce of lost containers.** In every run in which no loss comes on top of a timer left
running, a reap for a lost container rests on an uninterrupted loss for the time of grace. -/
theorem container_loss_debounced (limits : SupervisionLimits) (calls : List SweepCall)
    (hsteady : Steady (supervise limits calls).sweeps) :
    Debounced limits (supervise limits calls).sweeps := by
  induction calls using List.reverseRecOn with
  | nil =>
      intro newer r older e hsweeps
      cases newer <;> cases hsweeps
  | append_singleton calls call ih =>
      rw [supervise_snoc, SupervisorRun.sweepOnce] at hsteady ⊢
      split at hsteady
      · rename_i hruns
        rw [if_pos hruns]
        exact debounced_cons (timersMatch_supervise limits calls) (ih hsteady.tail) call hsteady
      · rename_i hruns
        rw [if_neg hruns]
        exact ih hsteady

/-- A step that runs in the container. -/
def runningStep (container : String) : SupervisedRow where
  execution := {
    id := "e1", kind := .workflowStep, container_id := some container, state := .running }
  created_at := 0

/-- A sweep that finds the container of the step lost. -/
def lossCall (now : Int) (container : String) : SweepCall where
  now := now
  rows := [runningStep container]
  distinct := by simp
  isContainerLost := fun _ => true

theorem container_loss_debounced_unchanged :
    Debounced {} (supervise {} [lossCall 0 "c1", lossCall 90000 "c1"]).sweeps := by
  apply container_loss_debounced
  intro newer r prev older hsweeps e c hlost _
  cases newer with
  | nil =>
      obtain ⟨rfl, hrest⟩ := List.cons.inj hsweeps
      obtain ⟨rfl, -⟩ := List.cons.inj hrest
      exact hlost
  | cons first newer =>
      have hrest : [recordOf {} (lossCall 0 "c1") []] = newer ++ r :: prev :: older :=
        (List.cons.inj hsweeps).2
      have hlength := congrArg List.length hrest
      simp only [List.length_append, List.length_cons, List.length_nil] at hlength
      omega

/-- A new container is reaped the first time it is found lost. -/
theorem new_container_reaped_at_once :
    ¬ ∀ (limits : SupervisionLimits) (calls : List SweepCall),
      (calls.map SweepCall.now).Pairwise (· ≤ ·) →
      Debounced limits (supervise limits calls).sweeps := by
  intro h
  have hclock : ([lossCall 0 "c1", lossCall 90000 "c2"].map SweepCall.now).Pairwise (· ≤ ·) := by
    decide
  obtain ⟨c, recent, s, oldest, hsplit, hnow, hall⟩ :=
    h {} [lossCall 0 "c1", lossCall 90000 "c2"] hclock [] _ _ "e1" rfl (List.mem_singleton_self _)
  cases recent with
  | nil =>
      obtain ⟨rfl, -⟩ := List.cons.inj hsplit
      exact absurd hnow (by decide)
  | cons last recent =>
      obtain ⟨rfl, hrest⟩ := List.cons.inj hsplit
      obtain ⟨seen, hseen, -, hcontainer, -⟩ := hall _ List.mem_cons_self
      obtain rfl := List.mem_singleton.1 hseen
      cases recent with
      | nil =>
          obtain ⟨rfl, -⟩ := List.cons.inj hrest
          obtain ⟨seen', hseen', -, hcontainer', -⟩ := hall _ (List.mem_cons_of_mem _
            List.mem_cons_self)
          obtain rfl := List.mem_singleton.1 hseen'
          exact absurd (hcontainer.trans hcontainer'.symm) (by decide)
      | cons next recent => cases recent <;> cases (List.cons.inj hrest).2

end ExecutionSupervisorService

end Nexus
