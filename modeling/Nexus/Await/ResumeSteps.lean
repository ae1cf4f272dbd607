import Nexus.Await.ChildJoin
import Nexus.Await.ResumeCalls
import Mathlib

/-!
# Steps on one await

What a step of a call may do with the phase of the call and with the row of the await, when it acts
on a status that the row still has.
-/

set_option autoImplicit false

namespace Nexus

/-- The operation is a call of `resumeJobWithMessage` for the await. -/
def AwaitOp.resumes (awaitId : String) : AwaitOp → Bool
  | .resumeJobWithMessage id _ _ _ _ => id = awaitId
  | _ => false


/-- A call is in an attempt and has not resumed the parent yet. -/
def ResumePhase.Pending (reconciler : Bool) (phase : ResumePhase) : Prop :=
  phase.attempt = .attempting ∨ (reconciler = false ∧ phase.attempt = .promoted)

/-- A call is in an attempt. -/
def ResumePhase.Active (reconciler : Bool) (phase : ResumePhase) : Prop :=
  phase.Pending reconciler ∨ phase.attempt = .called

/-! ## Steps -/

section Steps

variable {e : AwaitSurroundings} {s : AwaitStore} {o : AwaitOp} {awaitId : String} {grace : Nat}
  {reconciler : Bool} {phase : ResumePhase} {row : AgentAwait}

/-- The operations that change the attempt of a phase at most. -/
def AwaitOp.keepsRecords : AwaitOp → Bool
  | .beginReconcile | .endReconcile | .findNonTerminal | .now | .compareAndSetStatus _ _ _ => false
  | _ => true

theorem next_of_keepsRecords (h : o.keepsRecords = true) (ans : o.Ans) :
    ∃ attempt, phase.next awaitId o ans = { phase with attempt := attempt } := by
  cases o with
  | attemptsFor id =>
      by_cases hid : id = awaitId
      · exact ⟨.attempting, by simp [ResumePhase.next, hid]⟩
      · exact ⟨phase.attempt, by simp [ResumePhase.next, hid]⟩
  | resumeJobWithMessage id runId sessionTreeId message sessionRef =>
      by_cases hid : id = awaitId
      · exact ⟨_, if_pos hid⟩
      · exact ⟨phase.attempt, if_neg hid⟩
  | publishProcessEvent runId event =>
      cases event with
      | failed id reason =>
          by_cases hid : id = awaitId
          · exact ⟨.closed, if_pos hid⟩
          · exact ⟨phase.attempt, if_neg hid⟩
      | _ => exact ⟨phase.attempt, rfl⟩
  | beginReconcile | endReconcile | findNonTerminal | now | compareAndSetStatus _ _ _ => cases h
  | _ => exact ⟨phase.attempt, rfl⟩

/-- A record is listed as it is stored. -/
theorem find?_findNonTerminal (hkeys : s.KeysDistinct) (hrow : s.find awaitId = some row)
    {record : AgentAwait}
    (h : List.find? (fun x : AgentAwait => x.id = awaitId)
      (AwaitOp.findNonTerminal.exec e s).2 = some record) : record = row := by
  have hmem : record ∈ s.awaits.filter AgentAwait.isOpen := List.mem_of_find?_eq_some h
  have hid : record.id = awaitId := by simpa using List.find?_some h
  exact eq_of_find hkeys hrow (List.mem_filter.1 hmem).1 hid

theorem resumeAnswers_exec (hkeys : s.KeysDistinct) : phase.Answers o (o.exec e s).2 := by
  cases o with
  | findById id => exact fun entity hentity => find_id hentity
  | findNonTerminal => exact hkeys.sublist (List.filter_sublist.map _)
  | _ => trivial

/-- What a step may do with the attempt of its call. -/
theorem attempt_next (hissues : phase.Issues awaitId grace reconciler o) (ans : o.Ans) :
    (phase.next awaitId o ans).attempt = phase.attempt ∧ o.resumes awaitId = false ∨
      (phase.next awaitId o ans).attempt = .promoted ∧ o.promotes awaitId ans = true ∧
        o.resumes awaitId = false ∨
      (phase.next awaitId o ans).attempt = .attempting ∧ o = .attemptsFor awaitId ∨
      o.resumes awaitId = true ∧ ((phase.next awaitId o ans).attempt = .called ∨
        (phase.next awaitId o ans).attempt = .closed) ∨
      (phase.next awaitId o ans).attempt = .closed ∧ o.resumes awaitId = false ∧
        (phase.attempt = .called →
          ∃ targetStatus, o = .compareAndSetStatus awaitId .resuming targetStatus ∧
            targetStatus ≠ .resuming) := by
  cases o with
  | compareAndSetStatus id sourceStatus targetStatus =>
      by_cases hid : id = awaitId
      · subst hid
        rcases hissues with ⟨rfl, rfl, -⟩ | ⟨rfl, rfl, -⟩ | ⟨rfl, rfl, -⟩
        · cases hans : (ans : Bool) with
          | true => exact .inr (.inl (by
              simp [ResumePhase.next, AttemptPhase.afterSet, AwaitOp.promotes, AwaitOp.resumes]))
          | false => exact .inl (by
              simp [ResumePhase.next, AttemptPhase.afterSet, AwaitOp.resumes])
        · refine .inr (.inr (.inr (.inr ⟨?_, rfl, fun _ => ⟨_, rfl, by simp⟩⟩)))
          simp [ResumePhase.next, AttemptPhase.afterSet]
        · refine .inr (.inr (.inr (.inr ⟨?_, rfl, fun _ => ⟨_, rfl, by simp⟩⟩)))
          simp [ResumePhase.next, AttemptPhase.afterSet]
      · exact .inl (by simp [ResumePhase.next, AwaitOp.resumes, hid])
  | attemptsFor id =>
      by_cases hid : id = awaitId
      · exact .inr (.inr (.inl (by simp [ResumePhase.next, hid])))
      · exact .inl (by simp [ResumePhase.next, AwaitOp.resumes, hid])
  | resumeJobWithMessage id runId sessionTreeId message sessionRef =>
      by_cases hid : id = awaitId
      · refine .inr (.inr (.inr (.inl ⟨by simp [AwaitOp.resumes, hid], ?_⟩)))
        cases hans : (ans : Option String) with
        | some jobId => exact .inl (by simp [ResumePhase.next, hid])
        | none => exact .inr (by simp [ResumePhase.next, hid])
      · exact .inl (by simp [ResumePhase.next, AwaitOp.resumes, hid])
  | publishProcessEvent runId event =>
      cases event with
      | failed id reason =>
          by_cases hid : id = awaitId
          · refine .inr (.inr (.inr (.inr ⟨by simp [ResumePhase.next, hid], rfl, ?_⟩)))
            exact fun hcalled => absurd hcalled (hissues hid)
          · exact .inl (by simp [ResumePhase.next, AwaitOp.resumes, hid])
      | _ => exact .inl ⟨rfl, rfl⟩
  | _ => exact .inl ⟨rfl, rfl⟩

/-- What a step may do with the status of the row. -/
inductive StatusStep (row row' : AgentAwait) (promotes : Bool) : Prop where
  | same (hstatus : row'.status = row.status) (hpromotes : promotes = false)
  | promoted (hwaiting : row.status = .waiting) (hstatus : row'.status = .resuming)
      (hpromotes : promotes = true)
  | ended (hopen : row.isOpen = true) (hstatus : row'.status = .cancelled)
      (hpromotes : promotes = false)
  | resumed (hresuming : row.status = .resuming) (hstatus : row'.status = .resumed)
      (hpromotes : promotes = false)

/-- The status of the row only moves on, and from WAITING to RESUMING only by a promotion. -/
theorem statusStep_after (hkeys : s.KeysDistinct) (hrow : s.find awaitId = some row)
    (hissues : phase.Issues awaitId grace reconciler o)
    (hsave : ∀ entity, o = .save entity → entity.id = awaitId → entity.status = row.status) :
    StatusStep row (row.after (e.clock s.time) o) (o.promotes awaitId (o.exec e s).2) := by
  cases o with
  | save entity =>
      refine .same ?_ rfl
      simp only [AgentAwait.after]
      split
      · rename_i hchange
        exact hsave entity rfl (hchange.1.symm.trans (find_id hrow))
      · rfl
  | compareAndSetStatus id sourceStatus targetStatus =>
      by_cases hid : id = awaitId
      · subst hid
        have hans : ((AwaitOp.compareAndSetStatus id sourceStatus targetStatus).exec e s).2 =
            decide (row.status = sourceStatus) := compareAndSet_ans hkeys hrow
        have hmatch : row.id = id := find_id hrow
        rcases hissues with ⟨rfl, rfl, -⟩ | ⟨rfl, rfl, -⟩ | ⟨rfl, rfl, -⟩
        · by_cases hwaiting : row.status = .waiting
          · refine .promoted hwaiting ?_ ?_
            · simp [AgentAwait.after, hmatch, hwaiting]
            · rw [hans]
              simp [AwaitOp.promotes, hwaiting]
          · refine .same ?_ ?_
            · simp [AgentAwait.after, hwaiting]
            · rw [hans]
              simp [AwaitOp.promotes, hwaiting]
        · by_cases hresuming : row.status = .resuming
          · exact .resumed hresuming (by simp [AgentAwait.after, hmatch, hresuming]) rfl
          · exact .same (by simp [AgentAwait.after, hresuming]) rfl
        · by_cases hresuming : row.status = .resuming
          · refine .ended ?_ (by simp [AgentAwait.after, hmatch, hresuming]) rfl
            simp [AgentAwait.isOpen, hresuming]
          · exact .same (by simp [AgentAwait.after, hresuming]) rfl
      · have hne : row.id ≠ id := fun h => hid (h.symm.trans (find_id hrow))
        refine .same ?_ ?_
        · rw [after_compareAndSet_of_ne hne]
        · cases sourceStatus <;> cases targetStatus <;> simp [AwaitOp.promotes, hid]
  | cancelOpenForParentRun parentRunId =>
      by_cases hmatch : row.parent_run_id = parentRunId ∧ row.isOpen = true
      · refine .ended hmatch.2 ?_ rfl
        simp only [AgentAwait.after, if_pos hmatch]
      · refine .same ?_ rfl
        simp only [AgentAwait.after, if_neg hmatch]
  | _ => exact .same rfl rfl

/-- A compare-and-set away from RESUMING leaves the row in another status. -/
theorem after_ne_resuming {now : Nat} {targetStatus : AgentAwaitStatus} (hid : row.id = awaitId)
    (htarget : targetStatus ≠ .resuming) :
    (row.after now (.compareAndSetStatus awaitId .resuming targetStatus)).status ≠ .resuming := by
  by_cases hresuming : row.status = .resuming
  · simpa [AgentAwait.after, hid, hresuming] using htarget
  · simp [AgentAwait.after, hresuming]

/-- A step leaves the row as it is, or sets its time. -/
theorem after_eq_or_updated {now : Nat} :
    row.after now o = row ∨ (row.after now o).updated_at = now := by
  cases o with
  | save entity =>
      simp only [AgentAwait.after]
      split
      · exact .inr rfl
      · exact .inl rfl
  | compareAndSetStatus id sourceStatus targetStatus =>
      simp only [AgentAwait.after]
      split
      · exact .inr rfl
      · exact .inl rfl
  | cancelOpenForParentRun parentRunId =>
      simp only [AgentAwait.after]
      split
      · exact .inr rfl
      · exact .inl rfl
  | _ => exact .inl rfl

variable {row' : AgentAwait} {promotes : Bool}

theorem not_waiting_of_promotes (h : StatusStep row row' promotes) (hne : row.status ≠ .waiting) :
    promotes = false := by
  cases h with
  | promoted hwaiting _ _ => exact absurd hwaiting hne
  | same _ hpromotes => exact hpromotes
  | ended _ _ hpromotes => exact hpromotes
  | resumed _ _ hpromotes => exact hpromotes

/-- An await that has left WAITING does not return to it. -/
theorem waiting_of_step (h : StatusStep row row' promotes) (hwaiting : row'.status = .waiting) :
    row.status = .waiting ∧ promotes = false := by
  cases h with
  | same hstatus hpromotes => exact ⟨hstatus.symm.trans hwaiting, hpromotes⟩
  | promoted _ hstatus _ => exact absurd (hstatus.symm.trans hwaiting) (by simp)
  | ended _ hstatus _ => exact absurd (hstatus.symm.trans hwaiting) (by simp)
  | resumed _ hstatus _ => exact absurd (hstatus.symm.trans hwaiting) (by simp)

/-- An await that has ended stays as it ended. -/
theorem ended_of_step (h : StatusStep row row' promotes) (hended : row.isOpen = false) :
    row'.status = row.status := by
  cases h with
  | same hstatus _ => exact hstatus
  | promoted hwaiting _ _ => exact absurd hended (by simp [AgentAwait.isOpen, hwaiting])
  | ended hopen _ _ => exact absurd (hopen.symm.trans hended) (by simp)
  | resumed hresuming _ _ => exact absurd hended (by simp [AgentAwait.isOpen, hresuming])

/-- The parent is resumed within an attempt. -/
theorem pending_of_resumes (hissues : phase.Issues awaitId grace reconciler o)
    (hresumes : o.resumes awaitId = true) : phase.Pending reconciler := by
  cases o with
  | resumeJobWithMessage id runId sessionTreeId message sessionRef =>
      exact hissues (of_decide_eq_true hresumes)
  | _ => exact absurd hresumes (by simp [AwaitOp.resumes])

/-- The flag of the reconciler and the passes in flight. -/
theorem inFlight_next (hissues : phase.Issues awaitId grace reconciler o) :
    (reconciler = true ∧ phase.inFlight = false ∧
      (phase.next awaitId o (o.exec e s).2).inFlight = !s.reconcileInFlight ∧
      (o.exec e s).1.reconcileInFlight = true) ∨
    (phase.inFlight = true ∧ (phase.next awaitId o (o.exec e s).2).Quiet ∧
      (phase.next awaitId o (o.exec e s).2).inFlight = false ∧
      (o.exec e s).1.reconcileInFlight = false) ∨
    ((phase.next awaitId o (o.exec e s).2).inFlight = phase.inFlight ∧
      (o.exec e s).1.reconcileInFlight = s.reconcileInFlight) := by
  have hkeeps : o.keepsRecords = true →
      ∃ attempt, phase.next awaitId o (o.exec e s).2 = { phase with attempt := attempt } :=
    fun h => next_of_keepsRecords h _
  cases o with
  | beginReconcile => exact .inl ⟨hissues.1, hissues.2.1, rfl, rfl⟩
  | endReconcile => exact .inr (.inl ⟨hissues.1, hissues.2, rfl, rfl⟩)
  | now | findNonTerminal | compareAndSetStatus _ _ _ => exact .inr (.inr ⟨rfl, rfl⟩)
  | _ =>
      refine .inr (.inr ⟨?_, rfl⟩)
      obtain ⟨attempt, hnext⟩ := hkeeps rfl
      rw [hnext]

/-- A record is listed as the row is, or was listed before. -/
theorem listed_next (hkeys : s.KeysDistinct) (hrow : s.find awaitId = some row)
    {record : AgentAwait}
    (h : (phase.next awaitId o (o.exec e s).2).listed = some record) :
    record = row ∨ phase.listed = some record := by
  have hkeeps : o.keepsRecords = true →
      ∃ attempt, phase.next awaitId o (o.exec e s).2 = { phase with attempt := attempt } :=
    fun h => next_of_keepsRecords h _
  cases o with
  | findNonTerminal => exact .inl (find?_findNonTerminal hkeys hrow h)
  | now | beginReconcile | endReconcile | compareAndSetStatus _ _ _ => exact .inr h
  | _ =>
      obtain ⟨attempt, hnext⟩ := hkeeps rfl
      rw [hnext] at h
      exact .inr h

/-- A record is found stuck by a reading of the clock. -/
theorem foundStuck_next (h : (phase.next awaitId o (o.exec e s).2).FoundStuck grace) :
    phase.FoundStuck grace ∨
      ∃ record, phase.listed = some record ∧ record.status = .resuming ∧
        record.updated_at + grace ≤ e.clock s.time := by
  have hkeeps : o.keepsRecords = true →
      ∃ attempt, phase.next awaitId o (o.exec e s).2 = { phase with attempt := attempt } :=
    fun h => next_of_keepsRecords h _
  cases o with
  | now =>
      obtain ⟨record, now, hlisted, hresuming, hreading, hle⟩ := h
      obtain rfl : e.clock s.time = now := Option.some.inj hreading
      exact .inr ⟨record, hlisted, hresuming, hle⟩
  | findNonTerminal =>
      obtain ⟨record, now, -, -, hreading, -⟩ := h
      exact nomatch hreading
  | beginReconcile | endReconcile | compareAndSetStatus _ _ _ => exact .inl h
  | _ =>
      obtain ⟨attempt, hnext⟩ := hkeeps rfl
      rw [hnext] at h
      exact .inl h

/-- An await is given up by a compare-and-set from RESUMING to CANCELLED. -/
theorem gaveUp_next {ans : o.Ans} {id : String} {won : Bool}
    (h : (phase.next awaitId o ans).gaveUp = some (id, won)) :
    phase.gaveUp = some (id, won) ∨
      ∃ ans' : Bool, HEq ans ans' ∧ o = .compareAndSetStatus id .resuming .cancelled ∧
        won = ans' := by
  have hkeeps : o.keepsRecords = true →
      ∃ attempt, phase.next awaitId o ans = { phase with attempt := attempt } :=
    fun h => next_of_keepsRecords h _
  cases o with
  | compareAndSetStatus id' sourceStatus targetStatus =>
      simp only [ResumePhase.next] at h
      split at h
      · rename_i hcancels
        obtain ⟨rfl, rfl⟩ := hcancels
        obtain ⟨rfl, rfl⟩ := Prod.mk.inj (Option.some.inj h)
        exact .inr ⟨ans, HEq.rfl, rfl, rfl⟩
      · exact .inl h
  | now | beginReconcile | endReconcile | findNonTerminal => exact .inl h
  | _ =>
      obtain ⟨attempt, hnext⟩ := hkeeps rfl
      rw [hnext] at h
      exact .inl h

end Steps

end Nexus
