import Nexus.Await.AgentAwait
import Mathlib

/-!
# Resuming a parked parent

`DependencyParentResumeService`, `AgentAwaitChildTerminalListener` and
`AgentAwaitReconcilerService`: the events of ended runs, and the periodic pass that promotes the
awaits whose events were lost and retries the resumes that were interrupted. The texts of messages
are measured in UTF-16 code units; a result cut in the middle of a pair of units loses the pair.
-/

set_option autoImplicit false

namespace Nexus

/-! ## Texts -/

/-- The number of UTF-16 code units of a text. -/
def utf16Length (s : String) : Nat :=
  (s.toList.map fun c => if c.toNat < 0x10000 then 1 else 2).sum

/-- The characters that fit into a number of UTF-16 code units. -/
def takeUtf16 : Nat → List Char → List Char
  | _, [] => []
  | n, c :: cs =>
      let size := if c.toNat < 0x10000 then 1 else 2
      if size ≤ n then c :: takeUtf16 (n - size) cs else []

def resultSummaryMaxLength : Nat := 280

/-- `resolveChildResultDetail`, of the run that was found. -/
def childResultDetail (run : Option AwaitedRun) : Option String :=
  match run.map AwaitedRun.state_variables with
  | none | some [] => none
  | some stateVariables =>
      let summary := jsonStringify (.obj stateVariables)
      if utf16Length summary ≤ resultSummaryMaxLength then some summary
      else some (String.ofList (takeUtf16 resultSummaryMaxLength summary.toList) ++ "…")

/-- `buildChildResultNodeContent`. -/
def childResultNodeContent (child : SatisfiedChild) (run : Option AwaitedRun) : String :=
  "Awaited workflow " ++ child.runId ++ " finished with status " ++ child.status.text ++ "." ++
    match childResultDetail run with
    | some detail => " Result: " ++ detail
    | none => ""

/-- The results are inlined for an engine without a session tree. -/
def buildJoinMessage (satisfiedChildren : List SatisfiedChild)
    (inlinedResults : Option (List String)) : String :=
  let outcomes := ", ".intercalate
    (satisfiedChildren.map fun child => child.runId ++ " " ++ child.status.text)
  let header := "Your awaited workflows finished: " ++ outcomes ++ ". "
  match inlinedResults with
  | none | some [] => header ++ "Their results have been added to your context. Continue."
  | some results => header ++ "Their results:\n" ++ "\n".intercalate results ++ "\nContinue."

/-! ## DependencyParentResumeService -/

def missingResumeHandle (awaitRecord : AgentAwait) : String :=
  "Agent await " ++ awaitRecord.id ++ " has no resumable session handle " ++
    "(neither a parent session tree nor a session ref) — the parked " ++
    "parent run " ++ awaitRecord.parent_run_id ++ " cannot be resumed."

/-- A text that is empty counts as missing. -/
def nonEmpty (s : Option String) : Option String := s.filter fun text => text ≠ ""

/-- The loop over the satisfied children; their contents so far are kept in order. -/
def appendChildResults (sessionTreeId : Option String) :
    List SatisfiedChild → List String → Awaiting (List String)
  | [], contents => pure contents
  | child :: children, contents => do
      let run : Option AwaitedRun ← awaitRepo (.findRun child.runId)
      let content := childResultNodeContent child run
      match nonEmpty sessionTreeId with
      | some tree =>
          awaitRepo (.appendSystemResultNode tree content)
          appendChildResults sessionTreeId children (contents ++ [content])
      | none => appendChildResults sessionTreeId children (contents ++ [content])

/-- `resumeJobWithMessage` throws when its operation answers `none`. -/
def resumeJob (awaitRecord : AgentAwait) (sessionTreeId : Option String) (message : String) :
    Awaiting String := do
  match ← awaitRepo (.resumeJobWithMessage awaitRecord.id awaitRecord.parent_run_id sessionTreeId
      message awaitRecord.parent_session_ref) with
  | some jobId => pure jobId
  | none => .fail (.failure "resumeJobWithMessage")

def resumeParent (awaitRecord : AgentAwait) : Awaiting Unit := do
  let freshTree : Option String ←
    awaitRepo (.findSessionTreeByWorkflowRunId awaitRecord.parent_run_id)
  let sessionTreeId := freshTree.or awaitRecord.parent_session_tree_id
  if (nonEmpty sessionTreeId).isNone && awaitRecord.parent_session_ref.isNone then
    awaitRepo (.publishProcessEvent awaitRecord.parent_run_id
      (.failed awaitRecord.id "missing_resume_handle"))
    .fail (.failure (missingResumeHandle awaitRecord))
  else
    awaitRepo (.publishProcessEvent awaitRecord.parent_run_id (.resumeStarted awaitRecord.id
      (awaitRecord.satisfied_run_ids.map SatisfiedChild.runId)))
    let childContents ← appendChildResults sessionTreeId awaitRecord.satisfied_run_ids []
    let joinMessage := buildJoinMessage awaitRecord.satisfied_run_ids
      (if (nonEmpty sessionTreeId).isSome then none else some childContents)
    awaitRepo (.clearWaitState awaitRecord.parent_run_id)
    let _ ← resumeJob awaitRecord sessionTreeId joinMessage
    let _ ← compareAndSetStatus awaitRecord.id .resuming .resumed
    awaitRepo (.publishProcessEvent awaitRecord.parent_run_id
      (.resumed awaitRecord.id sessionTreeId))

/-! ## AgentAwaitChildTerminalListener -/

/-- Exceptions are logged. -/
def notifyChildTerminal (childRunId : String) (status : ChildStatus) : Awaiting Unit :=
  (do
    match ← onChildTerminal ⟨childRunId, status⟩ with
    | some ready => resumeParent ready
    | none => pure () : Awaiting Unit).handle fun _ => pure ()

def handleRunCompleted (workflowRunId : String) : Awaiting Unit :=
  notifyChildTerminal workflowRunId .completed

def handleRunFailed (workflowRunId : String) : Awaiting Unit :=
  notifyChildTerminal workflowRunId .failed

def cancelParentAwaits (parentRunId : String) : Awaiting Unit := do
  let _ ← awaitRepo (.cancelOpenForParentRun parentRunId)
  pure ()

def handleRunCancelled (workflowRunId : String) : Awaiting Unit := do
  cancelParentAwaits workflowRunId
  notifyChildTerminal workflowRunId .cancelled

/-! ## AgentAwaitReconcilerService -/

def maxResumeAttempts : Nat := 3

/-- The default of the grace window, in milliseconds. -/
def defaultResumeGraceMs : Nat := 120000

def giveUpReason (record : AgentAwait) : String :=
  "Agent await " ++ record.id ++ " could not be resumed after " ++ toString maxResumeAttempts ++
    " attempts; failing parked parent run " ++ record.parent_run_id ++ "."

/-- The answer of the compare-and-set is not looked at. -/
def giveUp (record : AgentAwait) : Awaiting Unit := do
  let _ ← compareAndSetStatus record.id .resuming .cancelled
  awaitRepo (.clearWaitState record.parent_run_id)
  awaitRepo (.handleJobFailed record.parent_run_id record.parent_step_id (giveUpReason record))
  awaitRepo (.publishProcessEvent record.parent_run_id
    (.failed record.id "resume_attempts_exhausted"))
  awaitRepo (.deleteAttempts record.id)

/-- Exceptions of the resume are logged, and the attempt stays counted. -/
def attemptResume (record : AgentAwait) : Awaiting Unit := do
  let attempts : Nat ← awaitRepo (.attemptsFor record.id)
  if maxResumeAttempts ≤ attempts then giveUp record
  else
    awaitRepo (.recordAttempt record.id)
    (do
      resumeParent record
      awaitRepo (.deleteAttempts record.id) : Awaiting Unit).handle fun _ => pure ()

/-- The loop over the awaited children; `allTerminal` says whether all of them so far have ended. -/
def satisfyTerminalChildren : List String → Bool → Awaiting Bool
  | [], allTerminal => pure allTerminal
  | childRunId :: children, allTerminal => do
      let run : Option AwaitedRun ← awaitRepo (.findRun childRunId)
      match run.bind AwaitedRun.terminal with
      | none => satisfyTerminalChildren children false
      | some terminalStatus =>
          let _ ← onChildTerminal ⟨childRunId, terminalStatus⟩
          satisfyTerminalChildren children allTerminal

def reconcileWaiting (record : AgentAwait) : Awaiting Unit := do
  let allTerminal ← satisfyTerminalChildren record.awaited_run_ids true
  if !allTerminal then pure ()
  else
    let promoted ← compareAndSetStatus record.id .waiting .resuming
    if !promoted then pure ()
    else
      let refreshed ← findAwait record.id
      attemptResume (refreshed.getD record)

/-- A record without the time of its last change is never older than the grace window. -/
def AgentAwait.isOlderThanGrace (grace now : Nat) (record : AgentAwait) : Bool :=
  record.updated_at ≠ 0 && record.updated_at + grace ≤ now

def reconcileResuming (grace : Nat) (record : AgentAwait) : Awaiting Unit := do
  if record.updated_at = 0 then pure ()
  else
    let now : Nat ← awaitRepo .now
    if !record.isOlderThanGrace grace now then pure ()
    else attemptResume record

def reconcileAwait (grace : Nat) (record : AgentAwait) : Awaiting Unit :=
  match record.status with
  | .waiting => reconcileWaiting record
  | .resuming => reconcileResuming grace record
  | _ => pure ()

/-- The loop over the awaits found at the start of the pass. -/
def reconcileAwaits (grace : Nat) : List AgentAwait → Awaiting Unit
  | [] => pure ()
  | record :: awaits => do
      reconcileAwait grace record
      reconcileAwaits grace awaits

/-- `reconcileOnce`, with the grace window. -/
def reconcileOnce (grace : Nat) : Awaiting Unit := do
  let clear : Bool ← awaitRepo .beginReconcile
  if !clear then pure ()
  else
    (do
      let awaits : List AgentAwait ← awaitRepo .findNonTerminal
      reconcileAwaits grace awaits : Awaiting Unit).handle fun _ => pure ()
    awaitRepo .endReconcile

/-! ## The calls -/

/-- The calls that drive the awaits. -/
inductive AwaitCall where
  | runCompleted (workflowRunId : String)
  | runFailed (workflowRunId : String)
  | runCancelled (workflowRunId : String)
  | reconcileOnce
  | cancelOpenForParentRun (parentRunId : String)
  deriving DecidableEq, Repr

def AwaitCall.program (grace : Nat) : AwaitCall → Awaiting Unit
  | .runCompleted workflowRunId => handleRunCompleted workflowRunId
  | .runFailed workflowRunId => handleRunFailed workflowRunId
  | .runCancelled workflowRunId => handleRunCancelled workflowRunId
  | .reconcileOnce => Nexus.reconcileOnce grace
  | .cancelOpenForParentRun parentRunId => cancelParentAwaits parentRunId

/-- The calls before their first step. -/
def resumeStart {ι : Type} (grace : Nat) (calls : ι → AwaitCall) (s : AwaitStore) :
    Config ι AwaitOp AwaitOp.Ans AwaitError Unit AwaitStore :=
  Pool.start s fun t => (calls t).program grace

end Nexus
