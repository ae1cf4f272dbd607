import Nexus.Lib.TableRows
import Nexus.Tools.ApprovalRequests

/-!
# The phases of the threads of an approval

How far a thread of the service has come is read off its steps; the programs keep to these phases
(`ApprovalCall.prog_spec`). In every run the waits, the registered callbacks and the threads name
requests that are stored, and a wait that is not resolved still has its timeout (`ApprovalLinked`).
-/


set_option autoImplicit false

namespace Nexus

/-! ## How far a thread has come -/

inductive ApprovalPhase where
  /-- Before its first read; a decision means to store a status for a request. -/
  | start (decision : Option (Nat × ApprovalStatus))
  /-- The thread will wait for a request. -/
  | joining (requestId : Nat)
  | polling (wait requestId : Nat)
  /-- The thread will store the status. -/
  | writing (requestId : Nat) (status : ApprovalStatus)
  /-- The thread will report the status, to a wait of its own or to the registered callback. -/
  | reporting (requestId : Nat) (status : ApprovalStatus) (wait : Option Nat)
  | finished
  deriving DecidableEq

namespace ApprovalPhase

/-- What a row that was read makes of a thread. -/
def afterRead : ApprovalPhase → ToolCallApprovalRequest → ApprovalPhase
  | .start (some (requestId, status)), row =>
      if row.status = .pending then .writing requestId status else .finished
  | .polling wait requestId, row =>
      if row.status = .pending then .finished else .reporting requestId row.status (some wait)
  | _, _ => .finished

def next (g : ApprovalPhase) : (o : ApprovalOp) → o.Ans → ApprovalPhase
  | .findPendingByCorrelationId _, some row => .joining row.id
  | .insert _, some row => .joining row.id
  | .findOne _, some row => g.afterRead row
  | .findOne _, none => .finished
  | .register _, _ => .finished
  | .tick wait, requestId => .polling wait requestId
  | .fire _, requestId => .writing requestId .expired
  | .save request, _ => .reporting request.id request.status none
  | .expire _, _ => .finished
  | .resolveWait _ _, _ => .finished
  | .settle _ _, _ => .finished
  | _, _ => g

/-- The operations that a thread may issue. -/
inductive Issues (decision : Option (Nat × ApprovalStatus)) :
    ApprovalPhase → ApprovalOp → Prop where
  | findPending (correlationId : String) :
      Issues decision (.start none) (.findPendingByCorrelationId correlationId)
  | insert (request : ToolCallApprovalRequest) : request.status = .pending →
      Issues decision (.start none) (.insert request)
  | register (requestId : Nat) : Issues decision (.joining requestId) (.register requestId)
  | tick (wait : Nat) : Issues decision (.start none) (.tick wait)
  | fire (wait : Nat) : Issues decision (.start none) (.fire wait)
  | read (requestId : Nat) (status : ApprovalStatus) : status ≠ .pending →
      Issues decision (.start (some (requestId, status))) (.findOne requestId)
  | poll (wait requestId : Nat) : Issues decision (.polling wait requestId) (.findOne requestId)
  | save (request : ToolCallApprovalRequest) :
      decision = some (request.id, request.status) →
      Issues decision (.writing request.id request.status) (.save request)
  | expire (requestId : Nat) : Issues decision (.writing requestId .expired) (.expire requestId)
  | resolveWait (requestId : Nat) (result : ToolCallApprovalResolution) :
      Issues decision (.reporting requestId result.status none) (.resolveWait requestId result)
  | settle (wait requestId : Nat) (result : ToolCallApprovalResolution) :
      Issues decision (.reporting requestId result.status (some wait)) (.settle wait result)

/-- What the answers are known to be: the row with an id has it. -/
def Answers : (o : ApprovalOp) → o.Ans → Prop
  | .findOne requestId, some row => row.id = requestId
  | _, _ => True

end ApprovalPhase

/-- The program of a call keeps to the phases, from the phase it starts in. -/
abbrev ApprovalSpec (decision : Option (Nat × ApprovalStatus)) (p : ApprovalProg Unit)
    (g : ApprovalPhase) : Prop :=
  Prog.Meets (Pool.following ApprovalPhase.next (ApprovalPhase.Issues decision)
    fun _ => ApprovalPhase.Answers) (fun _ _ => True) (fun _ _ => True) p g

section Programs

open ToolCallApprovalRequestService

variable {decision : Option (Nat × ApprovalStatus)} {g : ApprovalPhase}

theorem meets_await {o : ApprovalOp} {k : o.Ans → ApprovalProg Unit}
    (hissue : ApprovalPhase.Issues decision g o)
    (hk : ∀ ans, ApprovalPhase.Answers o ans → ApprovalSpec decision (k ans) (g.next o ans)) :
    ApprovalSpec decision ((await o).bind k) g := by
  refine Prog.meets_bind (Prog.meets_op hissue ?_)
  rintro ans g' ⟨rfl, hanswer⟩
  exact hk ans hanswer

theorem requestAndWaitForApproval_spec (digest : String → String) (params : RequestApprovalParams) :
    ApprovalSpec none (requestAndWaitForApproval digest params) (.start none) := by
  have hregister : ∀ requestId, ApprovalSpec none (waitForResolution requestId) (.joining requestId) :=
    fun requestId => Prog.meets_op (.register requestId) fun _ _ _ => trivial
  refine meets_await (.findPending _) fun existing _ => ?_
  cases existing with
  | some existing => exact hregister existing.id
  | none =>
      refine meets_await (.insert _ rfl) fun saved _ => ?_
      cases saved with
      | some saved => exact hregister saved.id
      | none => exact trivial

/-- A decision: a read, a check, a save of the same row and a report. -/
theorem decision_spec {requestId : Nat} {status : ApprovalStatus}
    (change : ToolCallApprovalRequest → ToolCallApprovalRequest)
    {result : ToolCallApprovalResolution} (hstatus : status ≠ .pending)
    (hid : ∀ row, (change row).id = row.id) (hchange : ∀ row, (change row).status = status)
    (hresult : result.status = status) {p : ApprovalProg Unit}
    (hp : p = (await (.findOne requestId)).bind fun row =>
      match row with
      | none => .pure ()
      | some request =>
          if request.status ≠ .pending then .pure ()
          else (await (.save (change request))).bind fun _ => await (.resolveWait requestId result)) :
    ApprovalSpec (some (requestId, status)) p (.start (some (requestId, status))) := by
  rw [hp]
  refine meets_await (.read requestId status hstatus) fun row hrow => ?_
  cases row with
  | none => exact trivial
  | some request =>
      replace hrow : request.id = requestId := hrow
      refine Prog.meets_ite (fun _ => trivial) fun hpending => ?_
      have hphase : (ApprovalPhase.start (some (requestId, status))).next (.findOne requestId)
          (some request) = .writing (change request).id (change request).status := by
        rw [hid, hchange, hrow]
        exact if_pos (not_not.1 hpending)
      rw [hphase]
      refine meets_await (.save (change request) (by rw [hid, hchange, hrow])) fun _ _ => ?_
      refine Prog.meets_op ?_ fun _ _ _ => trivial
      have hreport : (ApprovalPhase.writing (change request).id (change request).status).next
          (.save (change request)) () = .reporting requestId result.status none := by
        rw [hresult, ← hchange request, ← hrow, ← hid request]
        rfl
      show ApprovalPhase.Issues _ _ _
      rw [hreport]
      exact .resolveWait requestId result

theorem pollResolution_spec (wait : Nat) :
    ApprovalSpec none (pollResolution wait) (.start none) := by
  refine meets_await (.tick wait) fun requestId _ => ?_
  refine meets_await (.poll wait requestId) fun row _ => ?_
  cases row with
  | none => exact trivial
  | some request =>
      refine Prog.meets_ite (fun hresolved => ?_) fun _ => trivial
      refine Prog.meets_op ?_ fun _ _ _ => trivial
      have hphase : (ApprovalPhase.polling wait requestId).next (.findOne requestId)
          (some request) = .reporting requestId request.status (some wait) := if_neg hresolved
      show ApprovalPhase.Issues _ ((ApprovalPhase.polling wait requestId).next
        (.findOne requestId) (some request)) _
      rw [hphase]
      exact ApprovalPhase.Issues.settle wait requestId
        ⟨request.status, request.rejectionReason, request.approvedBy⟩

theorem timeoutWait_spec (wait : Nat) : ApprovalSpec none (timeoutWait wait) (.start none) :=
  meets_await (.fire wait) fun requestId _ =>
    Prog.meets_op (.expire requestId) fun _ _ _ => trivial

/-- **Every call keeps to the phases.** -/
theorem ApprovalCall.prog_spec (digest : String → String) (call : ApprovalCall) :
    ApprovalSpec call.decision (call.prog digest) (.start call.decision) := by
  cases call with
  | request params => exact requestAndWaitForApproval_spec digest params
  | approve requestId approvedBy ruleId =>
      exact decision_spec (fun row => approved row approvedBy ruleId) (by decide)
        (fun _ => rfl) (fun _ => rfl) rfl rfl
  | reject requestId rejectedBy reason =>
      exact decision_spec (fun row => rejected row rejectedBy reason) (by decide)
        (fun _ => rfl) (fun _ => rfl) rfl rfl
  | poll wait => exact pollResolution_spec wait
  | timeout wait => exact timeoutWait_spec wait

end Programs

/-! ## Statuses and waits -/

/-- The stored status of a request. -/
def ApprovalState.statusOf (s : ApprovalState) (requestId : Nat) : Option ApprovalStatus :=
  (s.find requestId).map fun row => row.status

/-- The wait is one for the request. -/
def ApprovalState.WaitFor (s : ApprovalState) (wait requestId : Nat) : Prop :=
  ∃ w, s.waits[wait]? = some w ∧ w.requestId = requestId

variable {f : ApprovalWait → ApprovalWait}

section States

variable {s : ApprovalState} {requestId wait : Nat} {status : ApprovalStatus}

theorem find_updateRow {f : ToolCallApprovalRequest → ToolCallApprovalRequest}
    (hf : ∀ row, row.id = requestId → (f row).id = requestId) (id : Nat) :
    (s.updateRow requestId f).find id =
      (s.find id).map fun row => if row.id = requestId then f row else row := by
  refine TableRows.find?_map (fun row => ?_) id
  by_cases hrow : row.id = requestId
  · simp [hrow, hf row hrow]
  · simp [hrow]

/-- After an update of a row its status is the new one, and no other status has changed. -/
theorem statusOf_updateRow {f : ToolCallApprovalRequest → ToolCallApprovalRequest}
    (hf : ∀ row, row.id = requestId → (f row).id = requestId ∧ (f row).status = status) (id : Nat) :
    (s.updateRow requestId f).statusOf id =
      if id = requestId then (s.statusOf id).map fun _ => status else s.statusOf id := by
  rw [ApprovalState.statusOf, find_updateRow fun row hrow => (hf row hrow).1]
  rw [ApprovalState.statusOf]
  cases hfind : s.find id with
  | none => simp
  | some row =>
      have hid : row.id = id := by simpa using List.find?_some hfind
      subst hid
      by_cases hrow : row.id = requestId
      · simp [hrow, (hf row hrow).2]
      · simp [hrow]

/-- A stored status stays when a row is appended. -/
theorem statusOf_append {row : ToolCallApprovalRequest} {nextId : Nat}
    (h : s.statusOf requestId = some status) :
    ({ s with rows := s.rows ++ [row], nextId := nextId } : ApprovalState).statusOf requestId =
      some status := by
  rw [ApprovalState.statusOf] at h ⊢
  obtain ⟨found, hfind, rfl⟩ := Option.map_eq_some_iff.1 h
  have hfind : s.rows.find? (fun row => row.id = requestId) = some found := hfind
  rw [ApprovalState.find, List.find?_append, hfind]
  rfl

theorem requestOf_eq (h : s.WaitFor wait requestId) : s.requestOf wait = requestId := by
  obtain ⟨w, hw, rfl⟩ := h
  rw [ApprovalState.requestOf, hw]
  rfl

/-- The waits after an update of one. -/
theorem mem_updateWait {w : ApprovalWait} (h : w ∈ (s.updateWait wait f).waits) :
    w ∈ s.waits ∨ ∃ old, s.waits[wait]? = some old ∧ w = f old := by
  obtain ⟨i, hi⟩ := List.mem_iff_getElem?.1 h
  rw [ApprovalState.updateWait, List.getElem?_modify] at hi
  obtain ⟨old, hold, rfl⟩ := Option.map_eq_some_iff.1 hi
  by_cases heq : wait = i
  · subst heq
    exact .inr ⟨old, hold, if_pos rfl⟩
  · rw [if_neg heq]
    exact .inl (List.mem_of_getElem? hold)

theorem waitFor_updateWait {other : Nat} (hf : ∀ w, (f w).requestId = w.requestId)
    (h : s.WaitFor other requestId) :
    (s.updateWait wait f).WaitFor other requestId := by
  obtain ⟨w, hw, rfl⟩ := h
  by_cases heq : wait = other
  · subst heq
    refine ⟨f w, ?_, hf w⟩
    show (s.waits.modify wait f)[wait]? = some (f w)
    rw [List.getElem?_modify, hw]
    exact congrArg some (if_pos rfl)
  · refine ⟨w, ?_, rfl⟩
    show (s.waits.modify wait f)[other]? = some w
    rw [List.getElem?_modify, hw]
    exact congrArg some (if_neg heq)

end States

/-! ## Runs -/

section Runs

variable {ι : Type} [DecidableEq ι]

abbrev ApprovalConfig (ι : Type) := Config ι ApprovalOp ApprovalOp.Ans String Unit ApprovalState

abbrev ApprovalLog (ι : Type) := List (Entry ι ApprovalOp ApprovalOp.Ans)

/-- How far the threads have come. -/
def approvalPhase (calls : ι → ApprovalCall) (log : ApprovalLog ι) (t : ι) : ApprovalPhase :=
  Pool.track ApprovalPhase.next (fun t => .start (calls t).decision) log t

/-- A process that has just started on stored rows, and the calls, polls and timeouts to come. -/
def approvalStart (digest : String → String) (calls : ι → ApprovalCall)
    (rows : List ToolCallApprovalRequest) (nextId : Nat) : ApprovalConfig ι :=
  Pool.start { rows := rows, nextId := nextId } fun t => (calls t).prog digest

/-- If the thread is going to write to the request, it writes the status. -/
def ApprovalPhase.WritesOnly (requestId : Nat) (status : ApprovalStatus) : ApprovalPhase → Prop
  | .writing id other => id = requestId → other = status
  | _ => True

/-- The condition on a step, for threads that have come so far. -/
def NoClashIn (calls : ι → ApprovalCall) (s : ApprovalState) (ph : ι → ApprovalPhase) (t : ι) :
    ApprovalOp → Prop
  | .findOne requestId => ∀ decision ∈ (calls t).decision,
      s.statusOf requestId = some .pending → ∀ u, (ph u).WritesOnly requestId decision.2
  | .fire wait =>
      (s.statusOf (s.requestOf wait) = some .pending ∨
        s.statusOf (s.requestOf wait) = some .expired) ∧
      ∀ u, (ph u).WritesOnly (s.requestOf wait) .expired
  | _ => True

/-- The condition on a step: writers of a request that overlap write the same status. A decision
reads a pending request only while no thread is about to write another status, and a timeout fires
only while the request is neither approved nor rejected and no decision is about to be stored. -/
def NoClash (calls : ι → ApprovalCall) (c : ApprovalConfig ι) (t : ι) (o : ApprovalOp) : Prop :=
  NoClashIn calls c.world (approvalPhase calls c.log) t o

/-- A call of `approveRequest` has approved the request. -/
def ApprovedIn (calls : ι → ApprovalCall) (log : ApprovalLog ι) (requestId : Nat) : Prop :=
  ∃ entry ∈ log, (calls entry.tid).decision = some (requestId, .approved) ∧
    ∃ row, entry.op = .save row ∧ row.id = requestId

/-! ### What holds of every run -/

/-- What the phase of a thread names: a stored request, or a wait for it. -/
def ApprovalPhase.Linked (decision : Option (Nat × ApprovalStatus)) (s : ApprovalState) :
    ApprovalPhase → Prop
  | .start meant => meant = decision
  | .joining requestId => ∃ row ∈ s.rows, row.id = requestId
  | .polling wait requestId => s.WaitFor wait requestId
  | .reporting requestId _ (some wait) => s.WaitFor wait requestId
  | _ => True

/-- The waits, the callbacks and the threads name requests that are stored. -/
structure ApprovalLinked (calls : ι → ApprovalCall) (s : ApprovalState) (ph : ι → ApprovalPhase) :
    Prop where
  requests : ∀ w ∈ s.waits, ∃ row ∈ s.rows, row.id = w.requestId
  registered : ∀ requestId wait, OrderedMap.get? s.pendingWaits requestId = some wait →
    s.WaitFor wait requestId
  /-- A wait that is not resolved still has its timeout. -/
  armed : ∀ w ∈ s.waits, w.result = none → w.timeout = true
  phases : ∀ t, (ph t).Linked (calls t).decision s

section Linked

variable {calls : ι → ApprovalCall} {s s' : ApprovalState} {ph : ι → ApprovalPhase} {t : ι}
  {g' : ApprovalPhase}

theorem ApprovalPhase.Linked.mono {g : ApprovalPhase} {decision : Option (Nat × ApprovalStatus)}
    (h : g.Linked decision s)
    (hrows : ∀ id, (∃ row ∈ s.rows, row.id = id) → ∃ row ∈ s'.rows, row.id = id)
    (hfor : ∀ wait id, s.WaitFor wait id → s'.WaitFor wait id) : g.Linked decision s' := by
  cases g with
  | start meant => exact h
  | joining requestId => exact hrows requestId h
  | polling wait requestId => exact hfor wait requestId h
  | writing requestId status => trivial
  | reporting requestId status wait =>
      cases wait with
      | none => trivial
      | some wait => exact hfor wait requestId h
  | finished => trivial

/-- A step that keeps the stored requests and the requests of the waits. -/
theorem ApprovalLinked.step (h : ApprovalLinked calls s ph)
    (hrows : ∀ id, (∃ row ∈ s.rows, row.id = id) → ∃ row ∈ s'.rows, row.id = id)
    (hfor : ∀ wait id, s.WaitFor wait id → s'.WaitFor wait id)
    (hrequests : ∀ w ∈ s'.waits, ∃ row ∈ s.rows, row.id = w.requestId)
    (hregistered : ∀ id wait, OrderedMap.get? s'.pendingWaits id = some wait → s'.WaitFor wait id)
    (harmed : ∀ w ∈ s'.waits, w.result = none → w.timeout = true)
    (hphase : g'.Linked (calls t).decision s') :
    ApprovalLinked calls s' (Function.update ph t g') where
  requests := fun w hw => hrows w.requestId (hrequests w hw)
  registered := hregistered
  armed := harmed
  phases := by
    intro u
    by_cases hu : u = t
    · subst hu
      rwa [Function.update_self]
    · rw [Function.update_of_ne hu]
      exact (h.phases u).mono hrows hfor

/-- A step that changes no wait. -/
theorem ApprovalLinked.step_rows (h : ApprovalLinked calls s ph)
    (hrows : ∀ id, (∃ row ∈ s.rows, row.id = id) → ∃ row ∈ s'.rows, row.id = id)
    (hwaits : s'.waits = s.waits) (hpending : s'.pendingWaits = s.pendingWaits)
    (hphase : g'.Linked (calls t).decision s') :
    ApprovalLinked calls s' (Function.update ph t g') := by
  have hfor : ∀ wait id, s.WaitFor wait id → s'.WaitFor wait id := by
    intro wait id hw
    rwa [ApprovalState.WaitFor, hwaits]
  refine h.step hrows hfor ?_ ?_ ?_ hphase
  · rw [hwaits]
    exact h.requests
  · intro id wait hget
    rw [hpending] at hget
    exact hfor wait id (h.registered id wait hget)
  · rw [hwaits]
    exact h.armed

/-- A step that resolves a wait. -/
theorem ApprovalLinked.step_wait (h : ApprovalLinked calls s ph) {wait id : Nat}
    (hf : ∀ w, (f w).requestId = w.requestId) (hresolved : ∀ w, (f w).result ≠ none)
    (hphase : ∀ decision, g'.Linked decision s) :
    ApprovalLinked calls
      { s.updateWait wait f with pendingWaits := OrderedMap.erase s.pendingWaits id }
      (Function.update ph t g') := by
  have hfor : ∀ other requestId, s.WaitFor other requestId →
      ApprovalState.WaitFor
        { s.updateWait wait f with pendingWaits := OrderedMap.erase s.pendingWaits id }
        other requestId := fun _ _ hw => waitFor_updateWait hf hw
  refine h.step (fun _ hrow => hrow) hfor ?_ ?_ ?_ ((hphase _).mono (fun _ hrow => hrow) hfor)
  · intro w hw
    rcases mem_updateWait hw with hold | ⟨old, hold, rfl⟩
    · exact h.requests w hold
    · rw [hf]
      exact h.requests old (List.mem_of_getElem? hold)
  · intro requestId other hget
    rw [OrderedMap.get?_erase] at hget
    by_cases hid : id = requestId
    · simp [hid] at hget
    · rw [if_neg hid] at hget
      exact hfor other requestId (h.registered requestId other hget)
  · intro w hw hnone
    rcases mem_updateWait hw with hold | ⟨old, hold, rfl⟩
    · exact h.armed w hold hnone
    · exact absurd hnone (hresolved old)

/-- A stored row is the one with the id that was asked for. -/
theorem findOne_answers {requestId : Nat} :
    ApprovalPhase.Answers (.findOne requestId) (s.find requestId) := by
  cases hfind : s.find requestId with
  | none => exact trivial
  | some row => exact (by simpa using List.find?_some hfind : row.id = requestId)

/-- **Every step keeps the links.** -/
theorem ApprovalLinked.advance (h : ApprovalLinked calls s ph) {o : ApprovalOp}
    (hissue : ApprovalPhase.Issues (calls t).decision (ph t) o) (henabled : o.enabled s = true) :
    ApprovalPhase.Answers o (o.exec s).2 ∧
      ApprovalLinked calls (o.exec s).1
        (Function.update ph t ((ph t).next o (o.exec s).2)) := by
  have hphase := h.phases t
  generalize hg : ph t = g at hissue hphase ⊢
  cases hissue with
  | findPending correlationId =>
      refine ⟨trivial, h.step_rows (fun _ hrow => hrow) rfl rfl ?_⟩
      cases hfind : s.rows.find? fun row => row.correlationId = correlationId &&
          row.status = .pending with
      | none =>
          rw [ApprovalOp.exec, hfind]
          exact hphase
      | some row =>
          rw [ApprovalOp.exec, hfind]
          exact ⟨row, List.mem_of_find?_eq_some hfind, rfl⟩
  | insert request hpending =>
      refine ⟨trivial, ?_⟩
      rw [ApprovalOp.exec]
      by_cases hadmits : s.admits request = true
      · rw [if_pos hadmits]
        refine h.step_rows (fun id hrow => ?_) rfl rfl ?_
        · obtain ⟨row, hmem, hid⟩ := hrow
          exact ⟨row, List.mem_append_left _ hmem, hid⟩
        · exact ⟨{ request with id := s.nextId }, List.mem_append_right _ (List.mem_singleton_self _),
            rfl⟩
      · rw [if_neg hadmits]
        exact h.step_rows (fun _ hrow => hrow) rfl rfl hphase
  | register requestId =>
      refine ⟨trivial, ?_⟩
      have hfor : ∀ wait id, s.WaitFor wait id → ApprovalState.WaitFor
          (ApprovalOp.exec s (.register requestId)).1 wait id := by
        rintro wait id ⟨w, hw, hid⟩
        refine ⟨w, ?_, hid⟩
        exact (List.getElem?_append_left (List.getElem?_eq_some_iff.1 hw).1).trans hw
      refine h.step (fun _ hrow => hrow) hfor ?_ ?_ ?_ trivial
      · intro w hw
        rcases List.mem_append.1 hw with hold | hnew
        · exact h.requests w hold
        · obtain rfl := List.mem_singleton.1 hnew
          exact hphase
      · intro id wait hget
        by_cases hid : id = requestId
        · subst hid
          have hwait : s.waits.length = wait :=
            Option.some.inj ((OrderedMap.get?_set_self s.pendingWaits id s.waits.length).symm.trans
              hget)
          subst hwait
          exact ⟨{ requestId := id }, List.getElem?_concat_length .., rfl⟩
        · have hold : OrderedMap.get? s.pendingWaits id = some wait :=
            (OrderedMap.get?_set_of_ne s.pendingWaits s.waits.length (Ne.symm hid)).symm.trans hget
          exact hfor wait id (h.registered id wait hold)
      · intro w hw hnone
        rcases List.mem_append.1 hw with hold | hnew
        · exact h.armed w hold hnone
        · obtain rfl := List.mem_singleton.1 hnew
          rfl
  | tick wait =>
      refine ⟨trivial, h.step_rows (fun _ hrow => hrow) rfl rfl ?_⟩
      obtain ⟨w, hw, -⟩ := (Option.any_eq_true _ _).1 henabled
      have hfor : s.WaitFor wait w.requestId := ⟨w, hw, rfl⟩
      show s.WaitFor wait (s.requestOf wait)
      rwa [requestOf_eq hfor]
  | fire wait =>
      refine ⟨trivial, ?_⟩
      exact h.step_wait (fun _ => rfl) (fun w => by simp [ApprovalWait.resolve]) fun _ => trivial
  | read requestId status hstatus =>
      refine ⟨findOne_answers, h.step_rows (fun _ hrow => hrow) rfl rfl ?_⟩
      rw [ApprovalOp.exec]
      cases s.find requestId with
      | none => exact trivial
      | some row =>
          show ApprovalPhase.Linked _ _ (if row.status = .pending then _ else _)
          split
          · trivial
          · trivial
  | poll wait requestId =>
      refine ⟨findOne_answers, h.step_rows (fun _ hrow => hrow) rfl rfl ?_⟩
      rw [ApprovalOp.exec]
      cases s.find requestId with
      | none => exact trivial
      | some row =>
          show ApprovalPhase.Linked _ _ (if row.status = .pending then _ else _)
          split
          · trivial
          · exact hphase
  | save request hdecision =>
      refine ⟨trivial, h.step_rows (fun id hrow => ?_) rfl rfl trivial⟩
      obtain ⟨row, hmem, hid⟩ := hrow
      refine ⟨_, List.mem_map.2 ⟨row, hmem, rfl⟩, ?_⟩
      by_cases hsame : row.id = request.id
      · rw [if_pos hsame, ← hsame, hid]
      · rw [if_neg hsame, hid]
  | expire requestId =>
      refine ⟨trivial, h.step_rows (fun id hrow => ?_) rfl rfl trivial⟩
      obtain ⟨row, hmem, hid⟩ := hrow
      refine ⟨_, List.mem_map.2 ⟨row, hmem, rfl⟩, ?_⟩
      by_cases hsame : row.id = requestId
      · rw [if_pos hsame, hid]
      · rw [if_neg hsame, hid]
  | resolveWait requestId result =>
      refine ⟨trivial, ?_⟩
      rw [ApprovalOp.exec]
      cases OrderedMap.get? s.pendingWaits requestId with
      | none => exact h.step_rows (fun _ hrow => hrow) rfl rfl trivial
      | some wait =>
          exact h.step_wait (fun _ => rfl) (fun w => by simp [ApprovalWait.resolve])
            fun _ => trivial
  | settle wait requestId result =>
      refine ⟨trivial, ?_⟩
      exact h.step_wait (fun _ => rfl) (fun w => by simp [ApprovalWait.resolve]) fun _ => trivial

end Linked

end Runs

end Nexus
