import Nexus.Automation.ScheduledJobs
import Mathlib

/-!
# Catching up after a gap

What a poll makes of a due time that has passed. An interval skips the due times up to the poll. A
cron expression is read from the old due time, so its next due time may have passed as well
(`schedules_catch_up_iff`), and the polls after a gap replay one due time after the other.
-/

set_option autoImplicit false

namespace Nexus

namespace ScheduledJobsService

/-! ## The instants of a schedule -/

/-- The cron parser answers the least match after a date, and an expression with a next match has one
after every date. -/
structure CronParser (texts : ScheduleTexts) (isMatch : String → String → Int → Prop) : Prop where
  next_least : ∀ {expression timezone : String} {t n : Int},
    texts.cronNext expression timezone t = some n →
      IsLeast {m | isMatch expression timezone m ∧ t < m} n
  recurs : ∀ {expression timezone : String} {t n : Int},
    texts.cronNext expression timezone t = some n →
      ∀ t', ∃ n', texts.cronNext expression timezone t' = some n'

/-- `resolveInitialSchedule` accepts the schedule. -/
def Accepted (texts : ScheduleTexts) (schedule : ScheduleFields) : Prop :=
  ∃ now resolved, resolveInitialSchedule texts schedule.scheduleType schedule.scheduleExpression
    schedule.timezone now = .ok resolved

/-- The instants of a schedule that is due at `d`. -/
def IsInstant (texts : ScheduleTexts) (isMatch : String → String → Int → Prop)
    (schedule : ScheduleFields) (d t : Int) : Prop :=
  match schedule.scheduleType with
  | .oneTime => t = d
  | .interval => ∃ seconds, parseIntervalSeconds (jsTrim schedule.scheduleExpression) = .ok seconds ∧
      ∃ k : Nat, t = d + k * (seconds * 1000)
  | .cron => ∃ timezone, normalizeTimezone texts schedule.timezone = .ok timezone ∧
      isMatch (jsTrim schedule.scheduleExpression) timezone t

/-- The due time after an execution is the least instant later than the poll. -/
def NextIsLeast (texts : ScheduleTexts) (isMatch : String → String → Int → Prop)
    (schedule : ScheduleFields) (now d : Int) : Prop :=
  ∃ n, computeNextRunAfterExecution texts schedule now d = .ok (some n) ∧
    IsLeast {t | IsInstant texts isMatch schedule d t ∧ now < t} n

/-- No match of a cron expression has passed between the due time and the poll. -/
def NoneMissed (texts : ScheduleTexts) (isMatch : String → String → Int → Prop)
    (schedule : ScheduleFields) (now d : Int) : Prop :=
  schedule.scheduleType = .cron →
    ∀ t, IsInstant texts isMatch schedule d t → d < t → now < t

section Instants

variable {texts : ScheduleTexts} {isMatch : String → String → Int → Prop}
  {schedule : ScheduleFields} {now d : Int}

theorem parseIntervalSeconds_ok {expression : String} {seconds : Int}
    (h : parseIntervalSeconds expression = .ok seconds) : 5 ≤ seconds := by
  rw [parseIntervalSeconds] at h
  split at h
  · exact absurd h (by simp)
  split at h
  · exact absurd h (by simp)
  split at h
  · exact absurd h (by simp)
  · rename_i hmin
    rw [← Except.ok.inj h]
    exact not_lt.1 hmin

/-- The first multiple of an interval past a poll. -/
theorem isLeast_interval {ms : Int} (hms : 0 < ms) (hdue : d ≤ now) :
    IsLeast {t | (∃ k : Nat, t = d + k * ms) ∧ now < t} (d + ((now - d) / ms + 1) * ms) := by
  have hnonneg : 0 ≤ (now - d) / ms := Int.ediv_nonneg (by omega) hms.le
  have hpast : now - d < ((now - d) / ms + 1) * ms := Int.lt_ediv_add_one_mul_self _ hms
  refine ⟨⟨⟨((now - d) / ms + 1).toNat, ?_⟩, by omega⟩, ?_⟩
  · rw [Int.toNat_of_nonneg (by omega)]
  · rintro t ⟨⟨k, rfl⟩, hlater⟩
    have hk : (now - d) / ms < k := Int.ediv_lt_of_lt_mul hms (by omega)
    have hmul := Int.mul_le_mul_of_nonneg_right (show (now - d) / ms + 1 ≤ k by omega) hms.le
    omega

theorem nextIsLeast_interval (htype : schedule.scheduleType = .interval)
    (haccepted : Accepted texts schedule) (hdue : d ≤ now) :
    NextIsLeast texts isMatch schedule now d := by
  obtain ⟨now₀, resolved, hresolved⟩ := haccepted
  obtain ⟨seconds, hseconds⟩ : ∃ seconds,
      parseIntervalSeconds (jsTrim schedule.scheduleExpression) = .ok seconds := by
    simp only [resolveInitialSchedule, htype] at hresolved
    split at hresolved
    · exact absurd hresolved (by simp)
    · cases hparse : parseIntervalSeconds (jsTrim schedule.scheduleExpression) with
      | ok seconds => exact ⟨seconds, rfl⟩
      | error error =>
          rw [hparse] at hresolved
          exact absurd hresolved (by simp [bind, Except.bind])
  have hmin := parseIntervalSeconds_ok hseconds
  have hnext : computeNextRunAfterExecution texts schedule now d =
      .ok (some (d + ((now - d) / (seconds * 1000) + 1) * (seconds * 1000))) := by
    rw [computeNextRunAfterExecution, htype]
    simp only [hseconds, bind, Except.bind]
    by_cases hnow : now ≤ d
    · obtain rfl : now = d := by omega
      rw [if_pos hnow, Int.sub_self, Int.zero_ediv, Int.zero_add, Int.one_mul]
    · rw [if_neg hnow]
  have hinstants : {t | IsInstant texts isMatch schedule d t ∧ now < t} =
      {t | (∃ k : Nat, t = d + k * (seconds * 1000)) ∧ now < t} := by
    ext t
    simp [IsInstant, htype, hseconds]
  refine ⟨_, hnext, ?_⟩
  rw [hinstants]
  exact isLeast_interval (by omega) hdue

/-- A cron expression is read from the due time. -/
theorem computeNextRun_cron (hparser : CronParser texts isMatch)
    (htype : schedule.scheduleType = .cron) (haccepted : Accepted texts schedule) (now d : Int) :
    ∃ n, computeNextRunAfterExecution texts schedule now d = .ok (some n) ∧
      IsLeast {t | IsInstant texts isMatch schedule d t ∧ d < t} n := by
  obtain ⟨now₀, resolved, hresolved⟩ := haccepted
  simp only [resolveInitialSchedule, htype] at hresolved
  split at hresolved
  · exact absurd hresolved (by simp)
  cases hzone : normalizeTimezone texts schedule.timezone with
  | error error =>
      rw [hzone] at hresolved
      exact absurd hresolved (by simp [bind, Except.bind])
  | ok timezone =>
      cases hcron : texts.cronNext (jsTrim schedule.scheduleExpression) timezone now₀ with
      | none =>
          rw [hzone] at hresolved
          exact absurd hresolved (by simp [bind, Except.bind, parseCronNextRun, hcron])
      | some n₀ =>
          obtain ⟨n, hnext⟩ := hparser.recurs hcron d
          refine ⟨n, ?_, ?_⟩
          · simp [computeNextRunAfterExecution, htype, hzone, parseCronNextRun, hnext, bind,
              Except.bind]
          · have hinstants : {t | IsInstant texts isMatch schedule d t ∧ d < t} =
                {t | isMatch (jsTrim schedule.scheduleExpression) timezone t ∧ d < t} := by
              ext t
              simp [IsInstant, htype, hzone]
            rw [hinstants]
            exact hparser.next_least hnext

theorem nextIsLeast_iff (hparser : CronParser texts isMatch) (haccepted : Accepted texts schedule)
    (htype : schedule.scheduleType ≠ .oneTime) (hdue : d ≤ now) :
    NextIsLeast texts isMatch schedule now d ↔ NoneMissed texts isMatch schedule now d := by
  cases hkind : schedule.scheduleType with
  | oneTime => exact absurd hkind htype
  | interval =>
      refine iff_of_true (nextIsLeast_interval hkind haccepted hdue) fun hcron => ?_
      rw [hkind] at hcron
      exact absurd hcron (by decide)
  | cron =>
      obtain ⟨n, hnext, ⟨hinstant, hpast⟩, hleast⟩ :=
        computeNextRun_cron hparser hkind haccepted now d
      constructor
      · rintro ⟨n', hnext', ⟨-, hlater⟩, -⟩ _ t ht hdt
        obtain rfl : n = n' := by simpa [hnext] using hnext'
        exact lt_of_lt_of_le hlater (hleast ⟨ht, hdt⟩)
      · intro hnone
        refine ⟨n, hnext, ⟨hinstant, hnone hkind n hinstant hpast⟩, ?_⟩
        rintro t ⟨ht, hlater⟩
        exact hleast ⟨ht, by omega⟩

end Instants

/-! ## Polls -/

/-- The due times that polls have fired, each with the time of the poll. -/
def fires (s : ScheduleStore) : List (Int × Int) :=
  s.runs.map fun run => (run.due_at, run.triggered_at)

/-- The tables after a poll. -/
def poll (texts : ScheduleTexts) (env : ScheduleEnv) (s : ScheduleStore) (now : Int) :
    ScheduleStore :=
  ((processDueSchedules texts now).run (ScheduleOp.exec env) s).1

/-- The tables that polls reach, each of which satisfies `cond`. -/
inductive Polled (texts : ScheduleTexts) (env : ScheduleEnv) (cond : ScheduleStore → Int → Prop)
    (s₀ : ScheduleStore) : ScheduleStore → Prop where
  | start : Polled texts env cond s₀ s₀
  | poll {s : ScheduleStore} (now : Int) : Polled texts env cond s₀ s → cond s now →
      Polled texts env cond s₀ (poll texts env s now)

/-- A poll that finds the job due finds that no match of its expression has passed since. -/
def PollMissesNone (texts : ScheduleTexts) (isMatch : String → String → Int → Prop)
    (s : ScheduleStore) (now : Int) : Prop :=
  ∀ due, s.job.next_run_at = some due → due.dueAt ≤ now →
    NoneMissed texts isMatch s.job.schedule now due.dueAt

section Polls

variable {texts : ScheduleTexts} {env : ScheduleEnv} {s : ScheduleStore}

/-- The statements of a dispatch. -/
def Dispatches : ScheduleOp → Prop
  | .newDate => True
  | .updateRun _ _ => True
  | .startWorkflow _ _ _ _ => True
  | _ => False

theorem dispatch_uses (job : ScheduledJob) (runId : Nat) (dueAt : Int) :
    Prog.Uses Dispatches (dispatchScheduledJobRun job runId dueAt) := by
  refine Prog.uses_bind (Prog.uses_op trivial) fun startedAt => ?_
  refine Prog.uses_bind (Prog.uses_op trivial) fun _ => ?_
  refine Prog.uses_bind (Prog.uses_op trivial) fun outcome => ?_
  rcases outcome with message | (_ | workflowRunId)
  · exact Prog.uses_bind (Prog.uses_op trivial) fun _ => Prog.uses_op trivial
  · exact Prog.uses_bind (Prog.uses_op trivial) fun _ => Prog.uses_op trivial
  · exact Prog.uses_op trivial

theorem change_due (run : ScheduledJobRun) (change : RunChange) :
    ((run.change change).due_at, (run.change change).triggered_at) =
      (run.due_at, run.triggered_at) := by
  cases change <;> rfl

/-- A dispatch changes neither the job nor what has fired. -/
theorem dispatch_keeps (job : ScheduledJob) (runId : Nat) (dueAt : Int) :
    let s' := ((dispatchScheduledJobRun job runId dueAt).run (ScheduleOp.exec env) s).1
    s'.job = s.job ∧ fires s' = fires s := by
  refine (dispatch_uses job runId dueAt).run (ScheduleOp.exec env)
    (I := fun s' => s'.job = s.job ∧ fires s' = fires s) ⟨rfl, rfl⟩ fun s' o hkept ho => ?_
  cases o with
  | newDate => exact hkept
  | startWorkflow target id due payload => exact hkept
  | updateRun id change =>
      refine ⟨hkept.1, Eq.trans ?_ hkept.2⟩
      refine List.ext_getElem? fun i => ?_
      simp only [fires, ScheduleOp.exec, ScheduleOp.write, List.getElem?_map, List.getElem?_modify]
      cases s'.runs[i]? with
      | none => rfl
      | some run =>
          by_cases hid : id = i
          · simp [hid, change_due]
          · simp [hid]
  | _ => exact absurd ho id

theorem run_then (p : ScheduleProg Unit) (b : Bool) :
    (Prog.run (ScheduleOp.exec env) (p.bind fun _ => .pure b) s).1 =
      (p.run (ScheduleOp.exec env) s).1 := by
  rw [Prog.run_bind]
  cases p.run (ScheduleOp.exec env) s with
  | mk s' outcome => cases outcome <;> rfl

theorem exec_advance (schedule : ScheduleFields) (dueAt : Int) (next : Option Int) :
    ∃ s' claimed, ScheduleOp.exec env s (.advanceNextRunIfDue schedule dueAt next) = (s', claimed) ∧
      fires s' = fires s ∧ (claimed = none → s'.job = s.job) ∧
      (claimed.isSome → s'.job.schedule = s.job.schedule ∧
        s'.job.next_run_at.map DueTime.dueAt = next) := by
  refine ⟨_, _, rfl, ?_⟩
  cases hclaim : s.claimable dueAt with
  | none => simp [ScheduleOp.write, ScheduleOp.answer, hclaim, fires]
  | some claimed => cases next <;> simp [ScheduleOp.write, ScheduleOp.answer, hclaim, fires,
      ScheduleStore.due]

theorem exec_create (dueAt now : Int) :
    ∃ s' created, ScheduleOp.exec env s (.createIfNotExistsByDueKey dueAt now) = (s', created) ∧
      s'.job = s.job ∧ fires s' = if created.isSome then fires s ++ [(dueAt, now)] else fires s := by
  refine ⟨_, _, rfl, ?_⟩
  cases hrun : s.hasRun dueAt with
  | true => simp [ScheduleOp.write, ScheduleOp.answer, hrun, fires]
  | false => simp [ScheduleOp.write, ScheduleOp.answer, hrun, fires]

/-- What a poll makes of the tables: a job that is due moves on, and its old due time fires at most
once. -/
inductive PollStep (texts : ScheduleTexts) (now : Int) (s s' : ScheduleStore) : Prop where
  | left (hjob : s'.job = s.job) (hfires : fires s' = fires s)
  | moved {due : DueTime} {next : Option Int} (hdue : s.job.next_run_at = some due)
      (hpast : due.dueAt ≤ now)
      (hcomputed : computeNextRunAfterExecution texts s.job.schedule now due.dueAt = .ok next)
      (hschedule : s'.job.schedule = s.job.schedule)
      (hnext : s'.job.next_run_at.map DueTime.dueAt = next)
      (hfires : fires s' = fires s ∨ fires s' = fires s ++ [(due.dueAt, now)])

theorem processDueScheduledJob_step {now : Int}
    (hpast : ∀ due, s.job.next_run_at = some due → due.dueAt ≤ now) :
    PollStep texts now s
      ((processDueScheduledJob texts s.job now).run (ScheduleOp.exec env) s).1 := by
  cases hnext : s.job.next_run_at with
  | none =>
      simp only [processDueScheduledJob, hnext]
      exact .left rfl rfl
  | some due =>
      cases hcomputed : computeNextRunAfterExecution texts s.job.schedule now due.dueAt with
      | error error =>
          simp only [processDueScheduledJob, hnext, hcomputed, orThrow]
          exact .left rfl rfl
      | ok next =>
          obtain ⟨s₁, claimed, hadvance, hfires₁, hleft, hmoved⟩ :=
            @exec_advance env s s.job.schedule due.dueAt next
          simp only [processDueScheduledJob, hnext, hcomputed, orThrow, awaitSchedule, Prog.bind_eq,
            Prog.pure_bind, Prog.call_bind, Prog.run_call, hadvance]
          cases claimed with
          | none => exact .left (hleft rfl) hfires₁
          | some claimed =>
              obtain ⟨hschedule, hdue⟩ := hmoved rfl
              obtain ⟨s₂, created, hcreate, hjob₂, hfires₂⟩ := @exec_create env s₁ due.dueAt now
              simp only [Prog.run_call, hcreate]
              have hdueNow := hpast due hnext
              cases created with
              | none =>
                  exact .moved hnext hdueNow hcomputed (hjob₂ ▸ hschedule) (hjob₂ ▸ hdue)
                    (.inl (hfires₂.trans hfires₁))
              | some runId =>
                  obtain ⟨hjob₃, hfires₃⟩ := @dispatch_keeps env s₂ s.job runId due.dueAt
                  simp only [run_then]
                  rw [hfires₂, hfires₁] at hfires₃
                  exact .moved hnext hdueNow hcomputed (hjob₃ ▸ hjob₂ ▸ hschedule)
                    (hjob₃ ▸ hjob₂ ▸ hdue) (.inr hfires₃)

theorem poll_step (s : ScheduleStore) (now : Int) :
    PollStep texts now s (poll texts env s now) := by
  simp only [poll, processDueSchedules, awaitSchedule, Prog.bind_eq, Prog.pure_bind, Prog.call_bind,
    Prog.run_call, ScheduleOp.exec, ScheduleOp.write, ScheduleOp.answer]
  by_cases hfound : (s.job.status = .active && s.job.next_run_at.any (fun due => due.dueAt ≤ now) &&
      env.inBatch s.steps) = true
  · rw [if_pos hfound]
    simp only [Bool.and_eq_true, Option.any_eq_true, decide_eq_true_eq] at hfound
    obtain ⟨⟨-, due₀, hdue₀, hpast⟩, -⟩ := hfound
    have hstep := @processDueScheduledJob_step texts env { s with steps := s.steps + 1 } now
      fun due hdue => Option.some.inj (hdue₀.symm.trans hdue) ▸ hpast
    cases hstep with
    | left hjob hfires => exact .left hjob hfires
    | moved hdue hpast hcomputed hschedule hnext hfires =>
        exact .moved hdue hpast hcomputed hschedule hnext hfires
  · rw [if_neg hfound]
    exact .left rfl rfl

theorem length_fires_poll (s : ScheduleStore) (now : Int) :
    (fires (poll texts env s now)).length ≤ (fires s).length + 1 := by
  cases @poll_step texts env s now with
  | left _ hfires =>
      rw [hfires]
      exact Nat.le_succ _
  | moved _ _ _ _ _ hfires =>
      rcases hfires with hfires | hfires
      · rw [hfires]
        exact Nat.le_succ _
      · rw [hfires, List.length_append, List.length_singleton]

/-- **The step lemma.** What has fired since a store, and the due time after it. -/
theorem caughtUp_step {isMatch : String → String → Int → Prop} {s₀ : ScheduleStore} {now : Int}
    {new : List (Int × Int)} (hparser : CronParser texts isMatch)
    (haccepted : Accepted texts s.job.schedule) (htype : s.job.schedule.scheduleType ≠ .oneTime)
    (hnone : PollMissesNone texts isMatch s now) (hfires : fires s = fires s₀ ++ new)
    (hordered : new.Pairwise fun f g => f.2 < g.1)
    (hahead : ∀ f ∈ new, ∀ due, s.job.next_run_at = some due → f.2 < due.dueAt) :
    ∃ new, fires (poll texts env s now) = fires s₀ ++ new ∧
      (new.Pairwise fun f g => f.2 < g.1) ∧
      ∀ f ∈ new, ∀ due, (poll texts env s now).job.next_run_at = some due → f.2 < due.dueAt := by
  rcases @poll_step texts env s now with
    ⟨hjob, hsame⟩ | @⟨due, next, hdue, hpast, hcomputed, -, hnext, hfired⟩
  · exact ⟨new, hsame.trans hfires, hordered, hjob ▸ hahead⟩
  · obtain ⟨n, hn, ⟨-, hlater⟩, -⟩ :=
      (nextIsLeast_iff hparser haccepted htype hpast).2 (hnone due hdue hpast)
    obtain rfl : some n = next := Except.ok.inj (hn.symm.trans hcomputed)
    have hmoved : ∀ due', (poll texts env s now).job.next_run_at = some due' → now < due'.dueAt := by
      intro due' hdue'
      rw [hdue'] at hnext
      exact hlater.trans_eq (Option.some.inj hnext).symm
    have hbefore : ∀ f ∈ new, f.2 < due.dueAt := fun f hf => hahead f hf due hdue
    rcases hfired with hfired | hfired
    · refine ⟨new, hfired.trans hfires, hordered, fun f hf due' hdue' => ?_⟩
      exact (hbefore f hf).trans (hpast.trans_lt (hmoved due' hdue'))
    · refine ⟨new ++ [(due.dueAt, now)], ?_, ?_, fun f hf due' hdue' => ?_⟩
      · rw [hfired, hfires, List.append_assoc]
      · refine List.pairwise_append.2 ⟨hordered, List.pairwise_singleton _ _, fun f hf g hg => ?_⟩
        rw [List.mem_singleton.1 hg]
        exact hbefore f hf
      · rcases List.mem_append.1 hf with hf | hf
        · exact (hbefore f hf).trans (hpast.trans_lt (hmoved due' hdue'))
        · rw [List.mem_singleton.1 hf]
          exact hmoved due' hdue'

theorem schedule_poll (s : ScheduleStore) (now : Int) :
    (poll texts env s now).job.schedule = s.job.schedule := by
  cases @poll_step texts env s now with
  | left hjob => rw [hjob]
  | moved _ _ _ hschedule => exact hschedule

end Polls

/-- The texts that know one expression, which matches every full hour. -/
def hourlyTexts : ScheduleTexts where
  parseDate _ := none
  isTimezone _ := true
  cronNext expression _ t :=
    if expression = "0 * * * *" then some ((t / 3600000 + 1) * 3600000) else none

def IsHour (expression _ : String) (t : Int) : Prop :=
  expression = "0 * * * *" ∧ ∃ k : Int, t = k * 3600000

def hourlySchedule : ScheduleFields := ⟨.cron, "0 * * * *", none⟩

theorem cronParser_hourly : CronParser hourlyTexts IsHour where
  next_least := by
    intro expression timezone t n hnext
    simp only [hourlyTexts, Option.ite_none_right_eq_some, Option.some.injEq] at hnext
    obtain ⟨rfl, rfl⟩ := hnext
    refine ⟨⟨⟨rfl, _, rfl⟩, by omega⟩, ?_⟩
    rintro m ⟨⟨-, k, rfl⟩, hlater⟩
    omega
  recurs := by
    intro expression timezone t n hnext t'
    simp only [hourlyTexts, Option.ite_none_right_eq_some] at hnext
    exact ⟨_, if_pos hnext.1⟩

theorem hourly_accepted : Accepted hourlyTexts hourlySchedule := by
  have htrim : jsTrim "0 * * * *" = "0 * * * *" := by decide +kernel
  have hzone : normalizeTimezone hourlyTexts none = .ok "UTC" := by decide +kernel
  have hcron : hourlyTexts.cronNext "0 * * * *" "UTC" 0 = some 3600000 := by decide +kernel
  refine ⟨0, ⟨"0 * * * *", some "UTC", 3600000⟩, ?_⟩
  simp [resolveInitialSchedule, hourlySchedule, htrim, hzone, parseCronNextRun, hcron, bind,
    Except.bind]

/-- The job was due at one o'clock, and the polls stood still until five. -/
def missedHours : ScheduleStore where
  job :=
    { name := "hourly"
      status := .active
      schedule := hourlySchedule
      next_run_at := some ⟨3600000, ⟨hourlySchedule, 0⟩⟩
      execution_target_ref := "workflow"
      payload_json := .null
      updated_by := none
      paused_at := none }

def runsEverything : ScheduleEnv where
  clock step := step
  inBatch _ := true
  workflowError _ := none
  startWorkflow _ := .ok (some "run")

end ScheduledJobsService

end Nexus
