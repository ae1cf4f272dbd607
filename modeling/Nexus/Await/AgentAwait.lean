import Nexus.Lib.Json
import Nexus.Lib.Pool

/-!
# Durable agent awaits

`AgentAwaitRepository` and `AgentAwaitRegistryService`: the records that park a parent run on its
children, and the join that marks the children satisfied and promotes a fully satisfied await. Every
repository call is one atomic step; `save` writes every column of the entity it is given.
-/

set_option autoImplicit false

namespace Nexus

/-! ## The records -/

inductive AgentAwaitStatus where
  | waiting
  | resuming
  | resumed
  | cancelled
  deriving DecidableEq, Repr

/-- The statuses of a child that has ended. -/
inductive ChildStatus where
  | completed
  | failed
  | cancelled
  deriving DecidableEq, Repr

/-- The text of a status in messages. -/
def ChildStatus.text : ChildStatus → String
  | .completed => "COMPLETED"
  | .failed => "FAILED"
  | .cancelled => "CANCELLED"

structure SatisfiedChild where
  runId : String
  status : ChildStatus
  deriving DecidableEq, Repr

/-- `HarnessSessionRef`. -/
inductive HarnessSessionRef where
  | pi (treeId : String) (resumeNodeId : Option String)
  | claudeCode (sessionId : String)
  deriving DecidableEq, Repr

/-- A row of `agent_await`. -/
structure AgentAwait where
  id : String
  parent_run_id : String
  parent_step_id : String
  parent_session_tree_id : Option String := none
  parent_session_ref : Option HarnessSessionRef := none
  awaited_run_ids : List String
  satisfied_run_ids : List SatisfiedChild := []
  status : AgentAwaitStatus := .waiting
  updated_at : Nat := 0
  deriving DecidableEq, Repr

/-- The events of an await. -/
inductive AwaitEvent where
  | childSatisfied (awaitId childRunId : String) (status : ChildStatus)
  | resumeStarted (awaitId : String) (satisfiedRunIds : List String)
  | resumed (awaitId : String) (sessionTreeId : Option String)
  | failed (awaitId reason : String)

/-- What a resume or a reconciliation reads of a run: its status when it has ended, and its state
variables. -/
structure AwaitedRun where
  terminal : Option ChildStatus
  state_variables : List (String × Json)

/-! ## The operations -/

/-- The calls of the repositories, of the other services and of the clock, and the accesses to the
memory of the reconciler. -/
inductive AwaitOp where
  | findById (id : String)
  /-- The WAITING awaits whose `awaited_run_ids` contain the child. -/
  | findWaitingByAwaitedChild (childRunId : String)
  | save (entity : AgentAwait)
  | compareAndSetStatus (id : String) (sourceStatus targetStatus : AgentAwaitStatus)
  | cancelOpenForParentRun (parentRunId : String)
  /-- The WAITING and RESUMING awaits. -/
  | findNonTerminal
  | publishProcessEvent (runId : String) (event : AwaitEvent)
  | findRun (runId : String)
  | findSessionTreeByWorkflowRunId (runId : String)
  | appendSystemResultNode (sessionTreeId content : String)
  | clearWaitState (runId : String)
  /-- `resumeJobWithMessage`, with the await it is called for; `none` when it throws. -/
  | resumeJobWithMessage (awaitId runId : String) (sessionTreeId : Option String)
      (message : String) (sessionRef : Option HarnessSessionRef)
  | handleJobFailed (runId jobId reason : String)
  | now
  /-- The test of `reconcileInFlight` that sets it; whether it was clear. -/
  | beginReconcile
  | endReconcile
  | attemptsFor (awaitId : String)
  | recordAttempt (awaitId : String)
  | deleteAttempts (awaitId : String)

/-- What an operation answers. -/
def AwaitOp.Ans : AwaitOp → Type
  | .findById _ => Option AgentAwait
  | .findWaitingByAwaitedChild _ => List AgentAwait
  | .compareAndSetStatus _ _ _ => Bool
  | .cancelOpenForParentRun _ => Nat
  | .findNonTerminal => List AgentAwait
  | .findRun _ => Option AwaitedRun
  | .findSessionTreeByWorkflowRunId _ => Option String
  | .resumeJobWithMessage _ _ _ _ _ => Option String
  | .now => Nat
  | .beginReconcile => Bool
  | .attemptsFor _ => Nat
  | _ => Unit

/-- The table of awaits, the memory of the reconciler and the number of operations executed. -/
structure AwaitStore where
  awaits : List AgentAwait
  reconcileInFlight : Bool := false
  resumeAttempts : String → Nat := fun _ => 0
  time : Nat := 0

/-- What the surroundings answer at each time. -/
structure AwaitSurroundings where
  clock : Nat → Nat
  run : Nat → String → Option AwaitedRun
  sessionTree : Nat → String → Option String
  /-- The job `resumeJobWithMessage` enqueues; `none` when it throws. -/
  resumedJob : Nat → String → Option String

/-- The row with an id. -/
def AwaitStore.find (s : AwaitStore) (id : String) : Option AgentAwait :=
  s.awaits.find? fun x => x.id = id

/-- A change of the rows that satisfy a condition, which also sets their `updated_at`. -/
def AwaitStore.updateWhere (s : AwaitStore) (now : Nat) (p : AgentAwait → Bool)
    (f : AgentAwait → AgentAwait) : AwaitStore :=
  { s with awaits := s.awaits.map fun x => if p x then { f x with updated_at := now } else x }

def AgentAwait.isOpen (x : AgentAwait) : Bool := x.status = .waiting || x.status = .resuming

/-- The effect of an operation, apart from the passing of time. -/
def AwaitOp.effect (e : AwaitSurroundings) (s : AwaitStore) : (o : AwaitOp) → AwaitStore × o.Ans
  | .findById id => (s, s.find id)
  | .findWaitingByAwaitedChild childRunId =>
      (s, s.awaits.filter fun x => x.status = .waiting && x.awaited_run_ids.contains childRunId)
  | .save entity =>
      (s.updateWhere (e.clock s.time)
        (fun x => x.id = entity.id && { entity with updated_at := x.updated_at } ≠ x)
        fun _ => entity, ())
  | .compareAndSetStatus id sourceStatus targetStatus =>
      (s.updateWhere (e.clock s.time) (fun x => x.id = id && x.status = sourceStatus)
          fun x => { x with status := targetStatus },
        s.awaits.any fun x => x.id = id && x.status = sourceStatus)
  | .cancelOpenForParentRun parentRunId =>
      (s.updateWhere (e.clock s.time) (fun x => x.parent_run_id = parentRunId && x.isOpen)
          fun x => { x with status := .cancelled },
        (s.awaits.filter fun x => x.parent_run_id = parentRunId && x.isOpen).length)
  | .findNonTerminal => (s, s.awaits.filter AgentAwait.isOpen)
  | .publishProcessEvent _ _ => (s, ())
  | .findRun runId => (s, e.run s.time runId)
  | .findSessionTreeByWorkflowRunId runId => (s, e.sessionTree s.time runId)
  | .appendSystemResultNode _ _ => (s, ())
  | .clearWaitState _ => (s, ())
  | .resumeJobWithMessage _ runId _ _ _ => (s, e.resumedJob s.time runId)
  | .handleJobFailed _ _ _ => (s, ())
  | .now => (s, e.clock s.time)
  | .beginReconcile => ({ s with reconcileInFlight := true }, !s.reconcileInFlight)
  | .endReconcile => ({ s with reconcileInFlight := false }, ())
  | .attemptsFor awaitId => (s, s.resumeAttempts awaitId)
  | .recordAttempt awaitId =>
      ({ s with
          resumeAttempts := fun id =>
            if id = awaitId then s.resumeAttempts id + 1 else s.resumeAttempts id }, ())
  | .deleteAttempts awaitId =>
      ({ s with resumeAttempts := fun id => if id = awaitId then 0 else s.resumeAttempts id }, ())

/-- An operation takes one unit of time. -/
def AwaitOp.exec (e : AwaitSurroundings) (s : AwaitStore) (o : AwaitOp) : AwaitStore × o.Ans :=
  ({ (o.effect e s).1 with time := s.time + 1 }, (o.effect e s).2)

/-- The store as the shared state of a pool of calls. -/
def awaitStore (e : AwaitSurroundings) : Machine AwaitOp AwaitOp.Ans AwaitStore where
  exec := AwaitOp.exec e
  enabled _ _ := True

instance (e : AwaitSurroundings) (s : AwaitStore) (o : AwaitOp) :
    Decidable ((awaitStore e).enabled s o) :=
  inferInstanceAs (Decidable True)

/-! ## AgentAwaitRepository -/

/-- The exceptions of the services. -/
inductive AwaitError where
  | failure (message : String)
  deriving DecidableEq

/-- The programs of the services. -/
abbrev Awaiting (α : Type) := Prog AwaitOp AwaitOp.Ans AwaitError α

def awaitRepo (o : AwaitOp) : Awaiting o.Ans := Prog.op o

def findAwait (id : String) : Awaiting (Option AgentAwait) := awaitRepo (.findById id)

def compareAndSetStatus (id : String) (sourceStatus targetStatus : AgentAwaitStatus) :
    Awaiting Bool :=
  awaitRepo (.compareAndSetStatus id sourceStatus targetStatus)

/-- Appends the child, unless it has been marked already. -/
def markSatisfied (id : String) (child : SatisfiedChild) : Awaiting Unit := do
  match ← findAwait id with
  | none => pure ()
  | some entity =>
      let alreadySatisfied :=
        entity.satisfied_run_ids.any fun satisfied => satisfied.runId = child.runId
      if alreadySatisfied then pure ()
      else
        awaitRepo
          (.save { entity with satisfied_run_ids := entity.satisfied_run_ids ++ [child] })

/-! ## AgentAwaitRegistryService -/

def satisfyChild (awaitId : String) (child : SatisfiedChild) : Awaiting Unit := do
  markSatisfied awaitId child
  match ← findAwait awaitId with
  | none => pure ()
  | some refreshed =>
      awaitRepo (.publishProcessEvent refreshed.parent_run_id
        (.childSatisfied awaitId child.runId child.status))

def AgentAwait.isFullySatisfied (entity : AgentAwait) : Bool :=
  entity.awaited_run_ids.all fun runId =>
    entity.satisfied_run_ids.any fun satisfied => satisfied.runId = runId

/-- The loop over the awaits of a child; `ready` is the one promoted so far. -/
def promoteReady (child : SatisfiedChild) :
    List AgentAwait → Option AgentAwait → Awaiting (Option AgentAwait)
  | [], ready => pure ready
  | candidate :: waiting, ready => do
      satisfyChild candidate.id child
      match ready with
      | some _ => promoteReady child waiting ready
      | none =>
          match ← findAwait candidate.id with
          | none => promoteReady child waiting none
          | some refreshed =>
              if !refreshed.isFullySatisfied then promoteReady child waiting none
              else
                let won ← compareAndSetStatus refreshed.id .waiting .resuming
                promoteReady child waiting (if won then some refreshed else none)

/-- `onChildTerminal`: the await that this call has promoted. -/
def onChildTerminal (child : SatisfiedChild) : Awaiting (Option AgentAwait) := do
  let waiting ← awaitRepo (.findWaitingByAwaitedChild child.runId)
  promoteReady child waiting none

end Nexus
