import Nexus.Lib.Json
import Nexus.Lib.Pool

/-!
# Requests for the approval of a tool call

`ToolCallApprovalRequestService`: a call that waits for an approval stores a request, or joins the
pending one with the same correlation id, registers a callback and starts two timers. Approvals and
rejections read the request, save it whole and call the callback back; the interval timer polls the
row; the timeout ends the wait and marks the row expired. Every repository call and every
synchronous block between two of them is one atomic step. The times at which timers fire are left
open: a timer that has not been cleared may fire at any time.
-/

set_option autoImplicit false

namespace Nexus

/-! ## Rows, waits and operations -/

/-- `ToolCallApprovalStatus`. -/
inductive ApprovalStatus where
  | pending
  | approved
  | rejected
  | expired
  deriving DecidableEq, Repr

/-- A row of `tool_call_approval_requests`. -/
structure ToolCallApprovalRequest where
  id : Nat
  workflowRunId : Option String
  jobId : Option String
  scopeId : Option String
  chatSessionId : Option String
  toolName : String
  toolArguments : List (String × Json)
  requestedBy : String
  status : ApprovalStatus := .pending
  approvedBy : Option String := none
  rejectedBy : Option String := none
  rejectionReason : Option String := none
  resolutionRuleId : Option String := none
  correlationId : String

structure ToolCallApprovalResolution where
  status : ApprovalStatus
  rejectionReason : Option String := none
  approvedBy : Option String := none
  deriving DecidableEq

structure RequestApprovalParams where
  workflowRunId : Option String := none
  jobId : Option String := none
  scopeId : Option String := none
  chatSessionId : Option String := none
  toolName : String
  payload : List (String × Json) := []
  requestedBy : String

/-- The promise of a waiting call with its two timers. -/
structure ApprovalWait where
  requestId : Nat
  /-- The interval timer has not been cleared. -/
  interval : Bool := true
  /-- The timeout has neither fired nor been cleared. -/
  timeout : Bool := true
  /-- What the promise was resolved with first. -/
  result : Option ToolCallApprovalResolution := none

structure ApprovalState where
  rows : List ToolCallApprovalRequest := []
  /-- The id of the next row. -/
  nextId : Nat := 0
  /-- The waits in the order of their calls. -/
  waits : List ApprovalWait := []
  /-- `pendingWaits`: the wait whose callback is registered for a request. -/
  pendingWaits : OrderedMap Nat Nat := []

inductive ApprovalOp where
  | findPendingByCorrelationId (correlationId : String)
  /-- The save of a new row, which gets its id. -/
  | insert (request : ToolCallApprovalRequest)
  | findOne (requestId : Nat)
  /-- The save of a row that was read and changed. -/
  | save (request : ToolCallApprovalRequest)
  /-- `update(requestId, { status: 'expired' })`. -/
  | expire (requestId : Nat)
  /-- The executor of the promise in `waitForResolution`. -/
  | register (requestId : Nat)
  | resolveWait (requestId : Nat) (result : ToolCallApprovalResolution)
  /-- A tick of the interval timer of a wait. -/
  | tick (wait : Nat)
  /-- The end of a poll that has found a resolved row. -/
  | settle (wait : Nat) (result : ToolCallApprovalResolution)
  /-- The callback of the timeout of a wait, up to the statement it issues. -/
  | fire (wait : Nat)

abbrev ApprovalOp.Ans : ApprovalOp → Type
  | .findPendingByCorrelationId _ => Option ToolCallApprovalRequest
  | .insert _ => Option ToolCallApprovalRequest
  | .findOne _ => Option ToolCallApprovalRequest
  | .tick _ => Nat
  | .fire _ => Nat
  | _ => Unit

namespace ApprovalState

def find (s : ApprovalState) (requestId : Nat) : Option ToolCallApprovalRequest :=
  s.rows.find? fun row => row.id = requestId

/-- An update of the row with an id. -/
def updateRow (s : ApprovalState) (requestId : Nat)
    (f : ToolCallApprovalRequest → ToolCallApprovalRequest) : ApprovalState :=
  { s with rows := s.rows.map fun row => if row.id = requestId then f row else row }

def updateWait (s : ApprovalState) (wait : Nat) (f : ApprovalWait → ApprovalWait) :
    ApprovalState :=
  { s with waits := s.waits.modify wait f }

/-- The request of a wait. -/
def requestOf (s : ApprovalState) (wait : Nat) : Nat :=
  ((s.waits[wait]?).map fun w => w.requestId).getD 0

end ApprovalState

/-- A promise keeps what it was resolved with first. -/
def ApprovalWait.resolve (w : ApprovalWait) (result : ToolCallApprovalResolution) : ApprovalWait :=
  { w with result := w.result.or (some result) }

/-- The columns `workflow_run_id` and `job_id` are not nullable, and `correlation_id` is unique. -/
def ApprovalState.admits (s : ApprovalState) (request : ToolCallApprovalRequest) : Bool :=
  request.workflowRunId.isSome && request.jobId.isSome &&
    s.rows.all fun row => row.correlationId ≠ request.correlationId

def ApprovalOp.exec (s : ApprovalState) : (o : ApprovalOp) → ApprovalState × o.Ans
  | .findPendingByCorrelationId correlationId =>
      (s, s.rows.find? fun row => row.correlationId = correlationId && row.status = .pending)
  | .insert request =>
      if s.admits request then
        ({ s with rows := s.rows ++ [{ request with id := s.nextId }], nextId := s.nextId + 1 },
          some { request with id := s.nextId })
      else (s, none)
  | .findOne requestId => (s, s.find requestId)
  | .save request => (s.updateRow request.id fun _ => request, ())
  | .expire requestId => (s.updateRow requestId fun row => { row with status := .expired }, ())
  | .register requestId =>
      ({ s with
          waits := s.waits ++ [{ requestId := requestId }]
          pendingWaits := OrderedMap.set s.pendingWaits requestId s.waits.length }, ())
  | .resolveWait requestId result =>
      match OrderedMap.get? s.pendingWaits requestId with
      | some wait =>
          ({ s.updateWait wait fun w => w.resolve result with
              pendingWaits := OrderedMap.erase s.pendingWaits requestId }, ())
      | none => (s, ())
  | .tick wait => (s, s.requestOf wait)
  | .settle wait result =>
      ({ s.updateWait wait fun w => { w.resolve result with interval := false, timeout := false } with
          pendingWaits := OrderedMap.erase s.pendingWaits (s.requestOf wait) }, ())
  | .fire wait =>
      ({ s.updateWait wait fun w =>
            { w.resolve { status := .expired } with interval := false, timeout := false } with
          pendingWaits := OrderedMap.erase s.pendingWaits (s.requestOf wait) }, s.requestOf wait)

/-- A timer fires only while it is set. -/
def ApprovalOp.enabled (s : ApprovalState) : ApprovalOp → Bool
  | .tick wait => (s.waits[wait]?).any fun w => w.interval
  | .fire wait => (s.waits[wait]?).any fun w => w.timeout
  | _ => true

def approvalService : Machine ApprovalOp ApprovalOp.Ans ApprovalState where
  exec := ApprovalOp.exec
  enabled s o := o.enabled s = true

instance (s : ApprovalState) (o : ApprovalOp) : Decidable (approvalService.enabled s o) :=
  inferInstanceAs (Decidable (o.enabled s = true))

abbrev ApprovalProg (α : Type) := Prog ApprovalOp ApprovalOp.Ans String α

/-! ## The service -/

/-- A nullable text as JSON. -/
def nullableText : Option String → Json
  | some text => .str text
  | none => .null

/-- `computeCorrelationId`, with the hexadecimal SHA-256 digest of a text. -/
def computeCorrelationId (digest : String → String) (params : RequestApprovalParams) : String :=
  let sortedPayload := params.payload.mergeSort fun a b => a.1 ≤ b.1
  digest (jsonStringify (.obj [("workflowRunId", nullableText params.workflowRunId),
    ("jobId", nullableText params.jobId), ("chatSessionId", nullableText params.chatSessionId),
    ("toolName", .str params.toolName), ("payload", .obj sortedPayload)]))

namespace ToolCallApprovalRequestService

def await (o : ApprovalOp) : ApprovalProg o.Ans := Prog.op o

def waitForResolution (requestId : Nat) : ApprovalProg Unit := await (.register requestId)

/-- The row that `requestRepo.create` builds; its id comes with the insert. -/
def newRequest (params : RequestApprovalParams) (correlationId : String) :
    ToolCallApprovalRequest where
  id := 0
  workflowRunId := params.workflowRunId
  jobId := params.jobId
  scopeId := params.scopeId
  chatSessionId := params.chatSessionId
  toolName := params.toolName
  toolArguments := params.payload
  requestedBy := params.requestedBy
  status := .pending
  correlationId := correlationId

def requestAndWaitForApproval (digest : String → String) (params : RequestApprovalParams) :
    ApprovalProg Unit := do
  let correlationId := computeCorrelationId digest params
  match ← await (.findPendingByCorrelationId correlationId) with
  | some existing => waitForResolution existing.id
  | none =>
      match ← await (.insert (newRequest params correlationId)) with
      | some saved => waitForResolution saved.id
      | none => .fail "the row violates a constraint of tool_call_approval_requests"

/-- The row that is saved by an approval. -/
def approved (request : ToolCallApprovalRequest) (approvedBy : String)
    (resolutionRuleId : Option String) : ToolCallApprovalRequest :=
  { request with
    status := .approved
    approvedBy := some approvedBy
    resolutionRuleId :=
      (resolutionRuleId.filter fun ruleId => ruleId ≠ "").or request.resolutionRuleId }

/-- The row that is saved by a rejection. -/
def rejected (request : ToolCallApprovalRequest) (rejectedBy : String) (reason : Option String) :
    ToolCallApprovalRequest :=
  { request with status := .rejected, rejectedBy := some rejectedBy, rejectionReason := reason }

def approveRequest (requestId : Nat) (approvedBy : String) (resolutionRuleId : Option String) :
    ApprovalProg Unit := do
  match ← await (.findOne requestId) with
  | none => pure ()
  | some request =>
      if request.status ≠ .pending then pure ()
      else
        await (.save (approved request approvedBy resolutionRuleId))
        await (.resolveWait requestId { status := .approved, approvedBy := some approvedBy })

def rejectRequest (requestId : Nat) (rejectedBy : String) (reason : Option String) :
    ApprovalProg Unit := do
  match ← await (.findOne requestId) with
  | none => pure ()
  | some request =>
      if request.status ≠ .pending then pure ()
      else
        await (.save (rejected request rejectedBy reason))
        await (.resolveWait requestId { status := .rejected, rejectionReason := reason })

/-- A tick of the interval timer with the poll it starts. -/
def pollResolution (wait : Nat) : ApprovalProg Unit := do
  let requestId ← await (.tick wait)
  match ← await (.findOne requestId) with
  | none => pure ()
  | some request =>
      if request.status ≠ .pending then
        await (.settle wait {
          status := request.status
          rejectionReason := request.rejectionReason
          approvedBy := request.approvedBy })
      else pure ()

/-- The timeout of a wait with the update it issues. -/
def timeoutWait (wait : Nat) : ApprovalProg Unit := do
  let requestId ← await (.fire wait)
  await (.expire requestId)

end ToolCallApprovalRequestService

/-! ## Threads -/

/-- What a thread of the service runs: a call, a poll or a timeout. -/
inductive ApprovalCall where
  | request (params : RequestApprovalParams)
  | approve (requestId : Nat) (approvedBy : String) (resolutionRuleId : Option String)
  | reject (requestId : Nat) (rejectedBy : String) (reason : Option String)
  | poll (wait : Nat)
  | timeout (wait : Nat)

open ToolCallApprovalRequestService in
def ApprovalCall.prog (digest : String → String) : ApprovalCall → ApprovalProg Unit
  | .request params => requestAndWaitForApproval digest params
  | .approve requestId approvedBy resolutionRuleId =>
      approveRequest requestId approvedBy resolutionRuleId
  | .reject requestId rejectedBy reason => rejectRequest requestId rejectedBy reason
  | .poll wait => pollResolution wait
  | .timeout wait => timeoutWait wait

/-- The request a call decides on, with the status it means to store. -/
def ApprovalCall.decision : ApprovalCall → Option (Nat × ApprovalStatus)
  | .approve requestId _ _ => some (requestId, .approved)
  | .reject requestId _ _ => some (requestId, .rejected)
  | _ => none

end Nexus
