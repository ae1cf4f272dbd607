import Nexus.Automation.ScheduledJobs
import Mathlib

/-!
# Due times

Every due time starts at most one workflow. What a poll claims is a due time of the current
schedule, and an update that names no schedule field leaves the due time alone, in every run in
which no call writes from an outdated copy of the job (`scheduled_jobs_fire_once`).
-/

set_option autoImplicit false

namespace Nexus

namespace ScheduledJobsService

variable {ι : Type}

abbrev ScheduleEntry (ι : Type) : Type := Entry ι ScheduleOp ScheduleOp.Ans

abbrev ScheduleConfig (ι : Type) : Type :=
  Config ι ScheduleOp ScheduleOp.Ans ScheduleError Unit ScheduleStore

/-! ## The log -/

/-- The due time that a start of a workflow is for. -/
def startedDue : ScheduleEntry ι → Option Int
  | ⟨_, .startWorkflow _ _ dueAt _, _⟩ => some dueAt
  | _ => none

def claimOf : ScheduleEntry ι → Option ClaimedDue
  | ⟨_, .advanceNextRunIfDue _ _ _, claim⟩ => claim
  | _ => none

/-- The row before and after the write of an update. -/
def updateOf : ScheduleEntry ι → Option (ScheduledJob × ScheduledJob)
  | ⟨_, .updateJob _, rows⟩ => some rows
  | _ => none

def startedDues (log : List (ScheduleEntry ι)) : List Int := log.filterMap startedDue

/-- The call is an update that names a schedule field. -/
def namesSchedule : ScheduleCall → Bool
  | .update params => isScheduleChanged params
  | _ => false

/-- Whoever starts a workflow for a due time has claimed it while it came from the schedule of the
job, computed since the last resume. -/
def StartsCurrent (log : List (ScheduleEntry ι)) : Prop :=
  ∀ e ∈ log, ∀ dueAt ∈ startedDue e, ∃ a ∈ log, a.tid = e.tid ∧
    ∃ claim ∈ claimOf a, claim.due.dueAt = dueAt ∧ claim.due.origin = claim.current

/-- An update that names no schedule field leaves the schedule and the due time as they are. -/
def UpdatesKeepDue (calls : ι → ScheduleCall) (log : List (ScheduleEntry ι)) : Prop :=
  ∀ e ∈ log, namesSchedule (calls e.tid) = false → ∀ rows ∈ updateOf e,
    rows.2.schedule = rows.1.schedule ∧ rows.2.next_run_at = rows.1.next_run_at

/-! ## What a call knows -/

/-- The copy of the job that a call has read, the due time it has claimed, and the one it has made a
run for and not started yet. -/
structure ScheduleView where
  copy : Option ScheduledJob := none
  claimed : Option ClaimedDue := none
  created : Option Int := none

def ScheduleView.next (g : ScheduleView) : (o : ScheduleOp) → o.Ans → ScheduleView
  | .findById, job => { g with copy := some job }
  | .findDueJob _, job => { g with copy := job }
  | .advanceNextRunIfDue _ _ _, claim => { g with claimed := claim }
  | .createIfNotExistsByDueKey dueAt _, runId => { g with created := runId.map fun _ => dueAt }
  | .startWorkflow _ _ _ _, _ => { g with created := none }
  | _, _ => g

/-- The operations that a call issues, and what it builds them from. -/
def ScheduleIssue (calls : ι → ScheduleCall) (t : ι) (g : ScheduleView) : ScheduleOp → Prop
  | .advanceNextRunIfDue schedule _ _ => ∃ copy, g.copy = some copy ∧ schedule = copy.schedule
  | .startWorkflow _ _ dueAt _ =>
      g.created = some dueAt ∧ ∃ claim, g.claimed = some claim ∧ claim.due.dueAt = dueAt
  | .updateJob update =>
      ∃ copy, g.copy = some copy ∧
        (namesSchedule (calls t) = false →
          update.schedule = copy.schedule ∧ update.next_run_at = .kept copy.next_run_at) ∧
        (namesSchedule (calls t) = true → copy.status = .active →
          ∃ nextRunAt, update.next_run_at = .computed nextRunAt)
  | .resumeJob schedule _ _ => ∃ copy, g.copy = some copy ∧ schedule = copy.schedule
  | _ => True

/-- A claim takes the due time that was asked for. -/
def ScheduleAnswer : (o : ScheduleOp) → o.Ans → Prop
  | .advanceNextRunIfDue _ dueAt _, claim => ∀ claimed, claim = some claimed →
      claimed.due.dueAt = dueAt
  | _, _ => True

variable {dueAt : Int}

section Calls

variable {calls : ι → ScheduleCall} {t : ι} {g : ScheduleView} {texts : ScheduleTexts}

abbrev scheduleContract (calls : ι → ScheduleCall) (t : ι) :
    Contract ScheduleOp ScheduleOp.Ans ScheduleView :=
  Pool.following ScheduleView.next (ScheduleIssue calls t) fun _ => ScheduleAnswer

theorem meets_awaitSchedule_bind {α : Type} {o : ScheduleOp} {f : o.Ans → ScheduleProg α}
    {Q : α → ScheduleView → Prop} {E : ScheduleError → ScheduleView → Prop}
    (hissue : ScheduleIssue calls t g o)
    (hnext : ∀ ans, ScheduleAnswer o ans →
      (f ans).Meets (scheduleContract calls t) Q E (g.next o ans)) :
    (awaitSchedule o >>= f).Meets (scheduleContract calls t) Q E g := by
  refine ⟨hissue, fun ans g' hpost => ?_⟩
  obtain ⟨rfl, hanswer⟩ := hpost
  exact hnext ans hanswer

theorem meets_orThrow_bind {α β : Type} {checked : Except ScheduleError α}
    {f : α → ScheduleProg β} {Q : β → ScheduleView → Prop}
    (h : ∀ a, checked = .ok a →
      (f a).Meets (scheduleContract calls t) Q (fun _ _ => True) g) :
    (orThrow checked >>= f).Meets (scheduleContract calls t) Q (fun _ _ => True) g := by
  cases checked with
  | ok a => exact h a rfl
  | error error => exact trivial

theorem meets_dispatchScheduledJobRun (job : ScheduledJob) (runId : Nat)
    (hcreated : g.created = some dueAt)
    (hclaimed : ∃ claim, g.claimed = some claim ∧ claim.due.dueAt = dueAt) :
    (dispatchScheduledJobRun job runId dueAt).Meets (scheduleContract calls t) (fun _ _ => True)
      (fun _ _ => True) g := by
  unfold dispatchScheduledJobRun
  refine meets_awaitSchedule_bind trivial fun startedAt _ => ?_
  refine meets_awaitSchedule_bind trivial fun _ _ => ?_
  refine meets_awaitSchedule_bind ⟨hcreated, hclaimed⟩ fun outcome _ => ?_
  match outcome with
  | .ok (some workflowRunId) => exact ⟨trivial, fun _ _ _ => trivial⟩
  | .ok none =>
      refine meets_awaitSchedule_bind trivial fun finishedAt _ => ?_
      exact ⟨trivial, fun _ _ _ => trivial⟩
  | .error message =>
      refine meets_awaitSchedule_bind trivial fun finishedAt _ => ?_
      exact ⟨trivial, fun _ _ _ => trivial⟩

theorem meets_processDueSchedules (now : Int) :
    (processDueSchedules texts now).Meets (scheduleContract calls t) (fun _ _ => True)
      (fun _ _ => True) g := by
  unfold processDueSchedules
  refine meets_awaitSchedule_bind trivial fun job _ => ?_
  cases job with
  | none => exact trivial
  | some job =>
      dsimp only
      unfold processDueScheduledJob
      split
      · exact trivial
      · rename_i due hdue
        refine meets_orThrow_bind fun nextRunAt _ => ?_
        refine meets_awaitSchedule_bind ⟨job, rfl, rfl⟩ fun claim hclaim => ?_
        cases claim with
        | none => exact trivial
        | some claim =>
            refine meets_awaitSchedule_bind trivial fun runId _ => ?_
            cases runId with
            | none => exact trivial
            | some runId =>
                exact (meets_dispatchScheduledJobRun job runId rfl
                  ⟨claim, rfl, hclaim claim rfl⟩).bind fun _ _ _ => trivial

theorem meets_resolveWorkflowId (existing : ScheduledJob) (params : UpdateScheduledJobParams) :
    (resolveWorkflowId existing params).Meets (scheduleContract calls t) (fun _ g' => g' = g)
      (fun _ _ => True) g := by
  unfold resolveWorkflowId
  split
  · rfl
  · refine Prog.meets_ite (fun _ => rfl) fun _ => ?_
    refine meets_awaitSchedule_bind trivial fun checked _ => ?_
    exact meets_orThrow_bind fun _ _ => rfl

/-- What an update writes of the schedule. -/
theorem meets_resolveScheduleFields (existing : ScheduledJob) (params : UpdateScheduledJobParams) :
    (resolveScheduleFields texts existing params).Meets (scheduleContract calls t)
      (fun fields g' => g' = g ∧
        (isScheduleChanged params = false →
          fields.1 = existing.schedule ∧ fields.2 = .kept existing.next_run_at) ∧
        (isScheduleChanged params = true → existing.status = .active →
          ∃ nextRunAt, fields.2 = .computed nextRunAt))
      (fun _ _ => True) g := by
  unfold resolveScheduleFields
  dsimp only
  split
  · rename_i hchanged
    rw [Bool.not_eq_true'] at hchanged
    refine ⟨rfl, fun _ => ⟨?_, rfl⟩, fun h => ?_⟩
    · simp only [isScheduleChanged, Bool.or_eq_false_iff, Option.isSome_eq_false_iff,
        Option.isNone_iff_eq_none] at hchanged
      obtain ⟨⟨htype, hexpression⟩, -⟩ := hchanged
      rw [htype, hexpression]
      rfl
    · rw [hchanged] at h
      nomatch h
  · rename_i hchanged
    rw [Bool.not_eq_true', Bool.not_eq_false] at hchanged
    refine meets_awaitSchedule_bind trivial fun now _ => ?_
    generalize resolveInitialSchedule texts _ _ _ now = checked
    refine meets_orThrow_bind fun resolved _ => ?_
    refine ⟨rfl, fun h => ?_, fun _ hactive => ?_⟩
    · rw [hchanged] at h
      nomatch h
    · rw [if_pos hactive]
      exact ⟨_, rfl⟩

theorem meets_updateScheduledJob {params : UpdateScheduledJobParams}
    (hcall : calls t = .update params) :
    (updateScheduledJob texts params).Meets (scheduleContract calls t) (fun _ _ => True)
      (fun _ _ => True) g := by
  unfold updateScheduledJob
  refine meets_awaitSchedule_bind trivial fun existing _ => ?_
  refine Prog.Meets.bind (Q := fun update g' => ScheduleIssue calls t g' (.updateJob update)) ?_
    fun update g' hupdate => meets_awaitSchedule_bind hupdate fun _ _ => trivial
  unfold buildUpdatePayload
  refine (meets_resolveWorkflowId existing params).bind fun workflowId g₁ hg₁ => ?_
  obtain rfl := hg₁
  refine (meets_resolveScheduleFields existing params).bind fun fields g₂ hfields => ?_
  obtain ⟨rfl, hsame, hcomputed⟩ := hfields
  refine meets_orThrow_bind fun name _ => ⟨existing, rfl, ?_, ?_⟩
  · rw [hcall]
    exact hsame
  · rw [hcall]
    exact hcomputed

theorem meets_pauseScheduledJob (updatedBy : Option String) :
    (pauseScheduledJob updatedBy).Meets (scheduleContract calls t) (fun _ _ => True)
      (fun _ _ => True) g := by
  unfold pauseScheduledJob
  refine meets_awaitSchedule_bind trivial fun existing _ => ?_
  refine Prog.meets_ite (fun _ => trivial) fun _ => ?_
  refine meets_awaitSchedule_bind trivial fun pausedAt _ => ?_
  exact ⟨trivial, fun _ _ _ => trivial⟩

theorem meets_resumeScheduledJob (updatedBy : Option String) :
    (resumeScheduledJob texts updatedBy).Meets (scheduleContract calls t) (fun _ _ => True)
      (fun _ _ => True) g := by
  unfold resumeScheduledJob
  refine meets_awaitSchedule_bind trivial fun existing _ => ?_
  refine meets_awaitSchedule_bind trivial fun now _ => ?_
  generalize resolveInitialSchedule texts _ _ _ now = checked
  refine meets_orThrow_bind fun resolved _ => ?_
  exact ⟨⟨existing, rfl, rfl⟩, fun _ _ _ => trivial⟩

/-- **Every call keeps to the contract.** -/
theorem meets_scheduleCall :
    ((calls t).program texts).Meets (scheduleContract calls t) (fun _ _ => True)
      (fun _ _ => True) {} := by
  cases hcall : calls t with
  | poll now => exact (meets_processDueSchedules now).bind fun _ _ _ => trivial
  | update params => exact (meets_updateScheduledJob hcall).bind fun _ _ _ => trivial
  | pause updatedBy => exact (meets_pauseScheduledJob updatedBy).bind fun _ _ _ => trivial
  | resume updatedBy => exact (meets_resumeScheduledJob updatedBy).bind fun _ _ _ => trivial

end Calls

/-! ## Runs -/

section Runs

variable [DecidableEq ι]

/-- What a call knows after a log. -/
abbrev viewOf (log : List (ScheduleEntry ι)) (t : ι) : ScheduleView :=
  Pool.track ScheduleView.next (fun _ => {}) log t

/-- No write rests on an outdated copy: a claim and a resume on another schedule than the one of the
job, an update that names no schedule field on another schedule or due time, an update that names
one on the copy of a paused job that has been resumed. -/
def KeepsDue (calls : ι → ScheduleCall) (c : ScheduleConfig ι) (t : ι) : ScheduleOp → Prop
  | .advanceNextRunIfDue schedule dueAt _ =>
      (c.world.claimable dueAt).isSome = true → schedule = c.world.job.schedule
  | .updateJob _ =>
      ∀ copy ∈ (viewOf c.log t).copy,
        (namesSchedule (calls t) = false →
          copy.schedule = c.world.job.schedule ∧
            copy.next_run_at.map DueTime.dueAt = c.world.job.next_run_at.map DueTime.dueAt) ∧
        (namesSchedule (calls t) = true → c.world.job.status = .active → copy.status = .active)
  | .resumeJob schedule _ _ => schedule = c.world.job.schedule
  | _ => True

/-- The calls before the first step; the due time that the job has then counts as one of its
schedule. -/
def scheduleStart (texts : ScheduleTexts) (s : ScheduleStore) (calls : ι → ScheduleCall) :
    ScheduleConfig ι :=
  Pool.start
    { s with
      steps := 0
      job := { s.job with
        next_run_at := s.job.next_run_at.map fun due => s.due s.job.schedule due.dueAt } }
    fun t => (calls t).program texts

variable {env : ScheduleEnv} {calls : ι → ScheduleCall} {c : ScheduleConfig ι} {t : ι}
  {o : ScheduleOp}

/-- The entry of a step. -/
abbrev entryOf (env : ScheduleEnv) (c : ScheduleConfig ι) (t : ι) (o : ScheduleOp) :
    ScheduleEntry ι := ⟨t, o, o.answer env c.world⟩

omit [DecidableEq ι] in
theorem scheduleAnswer_exec (s : ScheduleStore) : ScheduleAnswer o (o.answer env s) := by
  cases o with
  | advanceNextRunIfDue schedule dueAt nextRunAt =>
      intro claimed hclaimed
      obtain ⟨due, hdue, rfl⟩ := Option.map_eq_some_iff.1 hclaimed
      rw [ScheduleStore.claimable] at hdue
      split at hdue
      · exact of_decide_eq_true (Option.filter_eq_some_iff.1 hdue).2
      · nomatch hdue
  | _ => exact trivial

/-! ## Once -/

/-- Runs are only added. -/
theorem hasRun_write {s : ScheduleStore} (h : s.hasRun dueAt = true) :
    (o.write s).hasRun dueAt = true := by
  cases o with
  | advanceNextRunIfDue schedule dueAt' nextRunAt =>
      rw [ScheduleOp.write]
      split
      · exact h
      · exact h
  | createIfNotExistsByDueKey dueAt' triggeredAt =>
      rw [ScheduleOp.write]
      split
      · exact h
      · rw [ScheduleStore.hasRun, List.any_append]
        exact Bool.or_eq_true_iff.2 (.inl h)
  | updateRun runId change =>
      rw [ScheduleStore.hasRun, List.any_eq_true] at h ⊢
      obtain ⟨run, hrun, hdue⟩ := h
      obtain ⟨i, hi⟩ := List.mem_iff_getElem?.1 hrun
      have hchanged : ∀ run : ScheduledJobRun, (run.change change).due_at = run.due_at := by
        intro run
        cases change with
        | running startedAt => rfl
        | dispatched workflowRunId => rfl
        | skipped finishedAt => rfl
        | failed finishedAt message => rfl
      by_cases hid : runId = i
      · refine ⟨run.change change, List.mem_iff_getElem?.2 ⟨i, ?_⟩, ?_⟩
        · simp [ScheduleOp.write, hi, hid]
        · rw [hchanged]
          exact hdue
      · refine ⟨run, List.mem_iff_getElem?.2 ⟨i, ?_⟩, hdue⟩
        simp [ScheduleOp.write, hi, hid]
  | _ => exact h

/-- Each due time is started by the call that made its run, and by no other. -/
structure OnceInv (c : ScheduleConfig ι) : Prop where
  created : ∀ t dueAt, (viewOf c.log t).created = some dueAt →
    c.world.hasRun dueAt = true ∧ dueAt ∉ startedDues c.log ∧
      ∀ u, (viewOf c.log u).created = some dueAt → u = t
  started : ∀ dueAt ∈ startedDues c.log, c.world.hasRun dueAt = true
  once : (startedDues c.log).Nodup

variable {u : ι}

namespace OnceInv

variable (h : OnceInv c) (hissue : ScheduleIssue calls t (viewOf c.log t) o)

include h hissue

/-- A due time that a call has made a run for was made before, or is made now by the first run. -/
theorem created_cases (hcreated : (viewOf (entryOf env c t o :: c.log) u).created = some dueAt) :
    (viewOf c.log u).created = some dueAt ∧ startedDue (entryOf env c t o) ≠ some dueAt ∨
      u = t ∧ c.world.hasRun dueAt = false ∧
        ∃ triggeredAt, o = .createIfNotExistsByDueKey dueAt triggeredAt := by
  by_cases hu : t = u
  · rw [viewOf, Pool.track, if_pos hu] at hcreated
    cases o with
    | createIfNotExistsByDueKey dueAt' triggeredAt =>
        obtain ⟨runId, hrunId, rfl⟩ := Option.map_eq_some_iff.1 hcreated
        right
        change (if c.world.hasRun dueAt' then none else some c.world.runs.length) = some runId
          at hrunId
        split at hrunId
        · cases hrunId
        · rename_i hrun
          exact ⟨hu.symm, Bool.eq_false_iff.2 hrun, triggeredAt, rfl⟩
    | startWorkflow target runId dueAt' payload => cases hcreated
    | _ => exact .inl ⟨hcreated, fun hstarted => by cases hstarted⟩
  · rw [viewOf, Pool.track, if_neg hu] at hcreated
    refine .inl ⟨hcreated, fun hstarted => ?_⟩
    cases o with
    | startWorkflow target runId dueAt' payload =>
        obtain rfl : dueAt' = dueAt := Option.some.inj hstarted
        exact hu ((h.created t dueAt' hissue.1).2.2 u hcreated).symm
    | _ => cases hstarted

theorem started_step (hdue : dueAt ∈ startedDues (entryOf env c t o :: c.log)) :
    c.world.hasRun dueAt = true := by
  obtain ⟨e, he, hstarted⟩ := List.mem_filterMap.1 hdue
  rcases List.mem_cons.1 he with rfl | he
  · cases o with
    | startWorkflow target runId dueAt' payload =>
        obtain rfl : dueAt' = dueAt := Option.some.inj hstarted
        exact (h.created t dueAt' hissue.1).1
    | _ => nomatch hstarted
  · exact h.started dueAt (List.mem_filterMap.2 ⟨e, he, hstarted⟩)

theorem once_step : (startedDues (entryOf env c t o :: c.log)).Nodup := by
  rw [startedDues, List.filterMap_cons]
  split
  · exact h.once
  · rename_i dueAt hstarted
    cases o with
    | startWorkflow target runId dueAt' payload =>
        obtain rfl : dueAt' = dueAt := Option.some.inj hstarted
        exact List.nodup_cons.2 ⟨(h.created t dueAt' hissue.1).2.1, h.once⟩
    | _ => nomatch hstarted

theorem created_step (hcreated : (viewOf (entryOf env c t o :: c.log) u).created = some dueAt) :
    (o.write c.world).hasRun dueAt = true ∧
      dueAt ∉ startedDues (entryOf env c t o :: c.log) ∧
        ∀ v, (viewOf (entryOf env c t o :: c.log) v).created = some dueAt → v = u := by
  rcases h.created_cases hissue hcreated with ⟨hold, hnot⟩ | ⟨rfl, hnew, triggeredAt, rfl⟩
  · obtain ⟨hrun, hunstarted, hunique⟩ := h.created u dueAt hold
    refine ⟨hasRun_write hrun, fun hdue => ?_, fun v hv => ?_⟩
    · obtain ⟨e, he, hstarted⟩ := List.mem_filterMap.1 hdue
      rcases List.mem_cons.1 he with rfl | he
      · exact hnot hstarted
      · exact hunstarted (List.mem_filterMap.2 ⟨e, he, hstarted⟩)
    · rcases h.created_cases hissue hv with ⟨hold', -⟩ | ⟨-, hnew, -⟩
      · exact hunique v hold'
      · rw [hrun] at hnew
        nomatch hnew
  · refine ⟨?_, fun hdue => ?_, fun v hv => ?_⟩
    · rw [ScheduleOp.write, if_neg (by simp [hnew]), ScheduleStore.hasRun, List.any_append]
      simp
    · rw [h.started_step hissue hdue] at hnew
      nomatch hnew
    · rcases h.created_cases hissue hv with ⟨hold, -⟩ | ⟨hv', -⟩
      · rw [(h.created v dueAt hold).1] at hnew
        nomatch hnew
      · exact hv'

theorem advance (k : o.Ans → ScheduleProg Unit) :
    OnceInv (Pool.advance (scheduleMachine env) c t o k) where
  created _ _ := h.created_step hissue
  started _ hdue := hasRun_write (h.started_step hissue hdue)
  once := h.once_step hissue

end OnceInv

theorem onceInv_start (texts : ScheduleTexts) (s : ScheduleStore) :
    OnceInv (scheduleStart texts s calls) where
  created := nofun
  started := nofun
  once := List.nodup_nil

/-! ## The current schedule -/

/-- The due time of an active job comes from its schedule and from the time since the last resume,
and so does everything that was claimed. -/
structure CurrentInv (calls : ι → ScheduleCall) (c : ScheduleConfig ι) : Prop where
  due : c.world.job.status = .active → ∀ due, c.world.job.next_run_at = some due →
    due.origin = { schedule := c.world.job.schedule, resumes := c.world.resumes }
  claims : ∀ e ∈ c.log, ∀ claim, claimOf e = some claim → claim.due.origin = claim.current
  claimed : ∀ t claim, (viewOf c.log t).claimed = some claim →
    ∃ a ∈ c.log, a.tid = t ∧ claimOf a = some claim
  starts : StartsCurrent c.log
  kept : UpdatesKeepDue calls c.log

namespace CurrentInv

variable (h : CurrentInv calls c)

include h

theorem due_step (hissue : ScheduleIssue calls t (viewOf c.log t) o)
    (hkeeps : KeepsDue calls c t o) (hactive : (o.write c.world).job.status = .active)
    {due : DueTime} (hdue : (o.write c.world).job.next_run_at = some due) :
    due.origin = { schedule := (o.write c.world).job.schedule,
                   resumes := (o.write c.world).resumes } := by
  cases o with
  | advanceNextRunIfDue schedule dueAt nextRunAt =>
      rw [ScheduleOp.write] at hactive hdue ⊢
      split at hdue
      · rename_i hclaimable
        rw [if_pos hclaimable]
        obtain ⟨n, -, rfl⟩ := Option.map_eq_some_iff.1 hdue
        rw [hkeeps hclaimable]
        rfl
      · rename_i hclaimable
        rw [if_neg hclaimable] at hactive ⊢
        exact h.due hactive due hdue
  | createIfNotExistsByDueKey dueAt triggeredAt =>
      rw [ScheduleOp.write] at hactive hdue ⊢
      split at hdue
      · rename_i hrun
        rw [if_pos hrun] at hactive ⊢
        exact h.due hactive due hdue
      · rename_i hrun
        rw [if_neg hrun] at hactive ⊢
        exact h.due hactive due hdue
  | updateJob update =>
      obtain ⟨copy, hcopy, hsame, hcomputed⟩ := hissue
      obtain ⟨hkept, hstatus⟩ := hkeeps copy hcopy
      change c.world.job.status = .active at hactive
      change (c.world.updateJob update).next_run_at = some due at hdue
      change due.origin = { schedule := update.schedule, resumes := c.world.resumes }
      by_cases hnames : namesSchedule (calls t) = true
      · obtain ⟨n, hn⟩ := hcomputed hnames (hstatus hnames hactive)
        rw [ScheduleStore.updateJob, hn] at hdue
        rw [← Option.some.inj hdue]
        rfl
      · rw [Bool.not_eq_true] at hnames
        obtain ⟨hschedule, hnext⟩ := hsame hnames
        rw [ScheduleStore.updateJob, hnext, ScheduleStore.written, if_pos (hkept hnames).2] at hdue
        rw [hschedule, (hkept hnames).1]
        exact h.due hactive due hdue
  | pauseJob pausedAt updatedBy => nomatch hactive
  | resumeJob schedule nextRunAt updatedBy =>
      have hschedule : schedule = c.world.job.schedule := hkeeps
      rw [← Option.some.inj hdue, hschedule]
      rfl
  | _ => exact h.due hactive due hdue

theorem claims_step {e : ScheduleEntry ι} (he : e ∈ entryOf env c t o :: c.log)
    {claim : ClaimedDue} (hclaim : claimOf e = some claim) :
    claim.due.origin = claim.current := by
  rcases List.mem_cons.1 he with rfl | he
  · cases o with
    | advanceNextRunIfDue schedule dueAt nextRunAt =>
        obtain ⟨due, hdue, rfl⟩ := Option.map_eq_some_iff.1 hclaim
        rw [ScheduleStore.claimable] at hdue
        split at hdue
        · rename_i hactive
          exact h.due hactive due (Option.filter_eq_some_iff.1 hdue).1
        · nomatch hdue
    | _ => nomatch hclaim
  · exact h.claims e he claim hclaim

theorem claimed_step {claim : ClaimedDue}
    (hclaimed : (viewOf (entryOf env c t o :: c.log) u).claimed = some claim) :
    ∃ a ∈ entryOf env c t o :: c.log, a.tid = u ∧ claimOf a = some claim := by
  have hold : (viewOf c.log u).claimed = some claim →
      ∃ a ∈ entryOf env c t o :: c.log, a.tid = u ∧ claimOf a = some claim := by
    intro hclaimed
    obtain ⟨a, ha, hrest⟩ := h.claimed u claim hclaimed
    exact ⟨a, List.mem_cons_of_mem _ ha, hrest⟩
  by_cases hu : t = u
  · rw [viewOf, Pool.track, if_pos hu] at hclaimed
    cases o with
    | advanceNextRunIfDue schedule dueAt nextRunAt =>
        exact ⟨_, List.mem_cons_self, hu, hclaimed⟩
    | _ => exact hold hclaimed
  · rw [viewOf, Pool.track, if_neg hu] at hclaimed
    exact hold hclaimed

theorem starts_step (hissue : ScheduleIssue calls t (viewOf c.log t) o) :
    StartsCurrent (entryOf env c t o :: c.log) := by
  intro e he dueAt hstarted
  rcases List.mem_cons.1 he with rfl | he
  · cases o with
    | startWorkflow target runId dueAt' payload =>
        obtain rfl : dueAt' = dueAt := Option.some.inj hstarted
        obtain ⟨-, claim, hclaimed, hdue⟩ := hissue
        obtain ⟨a, ha, htid, hclaim⟩ := h.claimed t claim hclaimed
        exact ⟨a, List.mem_cons_of_mem _ ha, htid, claim, hclaim, hdue, h.claims a ha claim hclaim⟩
    | _ => nomatch hstarted
  · obtain ⟨a, ha, hrest⟩ := h.starts e he dueAt hstarted
    exact ⟨a, List.mem_cons_of_mem _ ha, hrest⟩

theorem kept_step (hissue : ScheduleIssue calls t (viewOf c.log t) o)
    (hkeeps : KeepsDue calls c t o) : UpdatesKeepDue calls (entryOf env c t o :: c.log) := by
  intro e he hnames rows hrows
  rcases List.mem_cons.1 he with rfl | he
  · cases o with
    | updateJob update =>
        obtain ⟨copy, hcopy, hsame, -⟩ := hissue
        obtain ⟨hschedule, hnext⟩ := hsame hnames
        obtain ⟨hschedule', hnext'⟩ := (hkeeps copy hcopy).1 hnames
        rw [← Option.some.inj hrows]
        refine ⟨hschedule.trans hschedule', ?_⟩
        change c.world.written update.schedule update.next_run_at = _
        rw [hnext, ScheduleStore.written, if_pos hnext']
        rfl
    | _ => nomatch hrows
  · exact h.kept e he hnames rows hrows

theorem advance (hissue : ScheduleIssue calls t (viewOf c.log t) o)
    (hkeeps : KeepsDue calls c t o) (k : o.Ans → ScheduleProg Unit) :
    CurrentInv calls (Pool.advance (scheduleMachine env) c t o k) where
  due hactive _ := h.due_step hissue hkeeps hactive
  claims _ he _ := h.claims_step he
  claimed _ _ := h.claimed_step
  starts := h.starts_step hissue
  kept := h.kept_step hissue hkeeps

end CurrentInv

theorem currentInv_start (texts : ScheduleTexts) (s : ScheduleStore) :
    CurrentInv calls (scheduleStart texts s calls) where
  due := by
    intro _ due hdue
    obtain ⟨old, -, rfl⟩ := Option.map_eq_some_iff.1 hdue
    rfl
  claims := List.forall_mem_nil _
  claimed _ _ h := nomatch h
  starts := List.forall_mem_nil _
  kept := List.forall_mem_nil _

omit [DecidableEq ι] in
instance (log : List (ScheduleEntry ι)) : Decidable (startedDues log).Nodup :=
  inferInstanceAs (Decidable (List.Nodup _))

instance (log : List (ScheduleEntry ι)) : Decidable (StartsCurrent log) := by
  unfold StartsCurrent
  infer_instance

instance (calls : ι → ScheduleCall) (log : List (ScheduleEntry ι)) :
    Decidable (UpdatesKeepDue calls log) := by
  unfold UpdatesKeepDue
  infer_instance

instance (calls : ι → ScheduleCall) (c : ScheduleConfig ι) (t : ι) (o : ScheduleOp) :
    Decidable (KeepsDue calls c t o) := by
  unfold KeepsDue
  split <;> infer_instance

end Runs

/-- A clock that moves by a second with every step; every workflow starts. -/
def scheduleEnv : ScheduleEnv where
  clock n := n * 1000
  inBatch _ := true
  workflowError _ := none
  startWorkflow _ := .ok (some "run")

/-- Every expression is due every minute. -/
def everyMinute : ScheduleTexts where
  parseDate _ := none
  isTimezone _ := true
  cronNext _ _ now := some (now + 60000)

def minuteSchedule : ScheduleFields where
  scheduleType := .cron
  scheduleExpression := "* * * * *"
  timezone := some "UTC"

/-- A job that is due at the first second. -/
def minuteJob : ScheduleStore where
  job :=
    { name := "job"
      status := .active
      schedule := minuteSchedule
      next_run_at :=
        some { dueAt := 1000, origin := { schedule := minuteSchedule, resumes := 0 } }
      execution_target_ref := "workflow"
      payload_json := .null
      updated_by := none
      paused_at := none }

/-- A renaming, a pause, a resume, and polls. -/
def scheduleCalls : Nat → ScheduleCall
  | 0 => .update { name := some "renamed" }
  | 1 => .pause none
  | 2 => .resume none
  | 3 => .poll 1000
  | _ => .poll 90000

end ScheduledJobsService

end Nexus
