import Nexus.Lib.Json
import Nexus.Lib.Pool
import Nexus.Workflow.Definition

/-!
# Scheduled jobs

One scheduled job and what touches its due time: the polls of `ScheduledJobsRunnerService` and the
edits of `ScheduledJobsService`. Every repository call is one atomic step. Every due time carries
the schedule it was computed from and the number of resumes before it, for bookkeeping; no modelled
function reads them. Date texts, time zones and cron expressions belong to libraries and are
parameters.
-/

set_option autoImplicit false

namespace Nexus

namespace ScheduledJobsService

/-! ## Schedules -/

inductive ScheduledJobType where
  | oneTime
  | interval
  | cron
  deriving DecidableEq, Repr

inductive ScheduledJobStatus where
  | active
  | paused
  deriving DecidableEq, Repr

inductive ScheduleError where
  | badRequest (message : String)
  | notFound (message : String)
  deriving DecidableEq, Repr

/-- `Date.parse`, the check of a time zone, and the next time of a cron expression. -/
structure ScheduleTexts where
  parseDate : String → Option Int
  isTimezone : String → Bool
  cronNext : String → String → Int → Option Int

/-- The columns that say when a job is due. -/
structure ScheduleFields where
  scheduleType : ScheduledJobType
  scheduleExpression : String
  timezone : Option String
  deriving DecidableEq, Repr

structure ResolvedInitialSchedule where
  normalizedExpression : String
  timezone : Option String
  nextRunAt : Int

def MIN_INTERVAL_SECONDS : Int := 5

def DEFAULT_SCHEDULE_TIMEZONE : String := "UTC"

def parseIntervalSeconds (expression : String) : Except ScheduleError Int :=
  match expression.toInt? with
  | none => .error (.badRequest "interval schedule_expression must be an integer number of seconds")
  | some parsed =>
      if toString parsed ≠ expression then
        .error (.badRequest "interval schedule_expression must be an integer number of seconds")
      else if parsed < MIN_INTERVAL_SECONDS then
        .error (.badRequest ("interval schedule_expression must be at least " ++
          toString MIN_INTERVAL_SECONDS ++ " seconds"))
      else .ok parsed

def normalizeTimezone (texts : ScheduleTexts) (timezone : Option String) :
    Except ScheduleError String :=
  let trimmed := jsTrim (timezone.getD "")
  let value := if trimmed = "" then DEFAULT_SCHEDULE_TIMEZONE else trimmed
  if texts.isTimezone value then .ok value
  else .error (.badRequest "timezone must be a valid IANA timezone")

def parseCronNextRun (texts : ScheduleTexts) (expression timezone : String) (currentDate : Int) :
    Except ScheduleError Int :=
  match texts.cronNext expression timezone currentDate with
  | some nextRunAt => .ok nextRunAt
  | none => .error (.badRequest "cron schedule_expression must be a valid cron expression")

def resolveInitialSchedule (texts : ScheduleTexts) (scheduleType : ScheduledJobType)
    (scheduleExpression : String) (timezone : Option String) (now : Int) :
    Except ScheduleError ResolvedInitialSchedule := do
  let normalizedExpression := jsTrim scheduleExpression
  if normalizedExpression = "" then .error (.badRequest "schedule_expression is required")
  else
    match scheduleType with
    | .oneTime =>
        match texts.parseDate normalizedExpression with
        | none =>
            .error (.badRequest "one_time schedule_expression must be a valid ISO date-time")
        | some nextRunAt =>
            if nextRunAt ≤ now then
              .error (.badRequest "one_time schedule_expression must be in the future")
            else .ok ⟨normalizedExpression, none, nextRunAt⟩
    | .interval => do
        let intervalSeconds ← parseIntervalSeconds normalizedExpression
        .ok ⟨normalizedExpression, none, now + intervalSeconds * 1000⟩
    | .cron => do
        let timezone ← normalizeTimezone texts timezone
        let nextRunAt ← parseCronNextRun texts normalizedExpression timezone now
        .ok ⟨normalizedExpression, some timezone, nextRunAt⟩

def computeNextRunAfterExecution (texts : ScheduleTexts) (schedule : ScheduleFields)
    (now lastRunAt : Int) : Except ScheduleError (Option Int) := do
  let normalizedExpression := jsTrim schedule.scheduleExpression
  match schedule.scheduleType with
  | .oneTime => .ok none
  | .interval => do
      let intervalSeconds ← parseIntervalSeconds normalizedExpression
      let intervalMs := intervalSeconds * 1000
      if now ≤ lastRunAt then .ok (some (lastRunAt + intervalMs))
      else
        let skippedIntervals := (now - lastRunAt) / intervalMs + 1
        .ok (some (lastRunAt + skippedIntervals * intervalMs))
  | .cron => do
      let timezone ← normalizeTimezone texts schedule.timezone
      let nextRunAt ← parseCronNextRun texts normalizedExpression timezone lastRunAt
      .ok (some nextRunAt)

/-! ## The tables -/

/-- Which schedule a due time was computed from, and after how many resumes. -/
structure DueOrigin where
  schedule : ScheduleFields
  resumes : Nat
  deriving DecidableEq, Repr

structure DueTime where
  dueAt : Int
  origin : DueOrigin
  deriving DecidableEq, Repr

structure ScheduledJob where
  name : String
  status : ScheduledJobStatus
  schedule : ScheduleFields
  next_run_at : Option DueTime
  execution_target_ref : String
  payload_json : Json
  updated_by : Option String
  paused_at : Option Int

inductive ScheduledJobRunStatus where
  | triggered
  | running
  | skipped
  | failed
  deriving DecidableEq, Repr

/-- A row of `scheduled_job_runs` that a poll has made; its id is its position. -/
structure ScheduledJobRun where
  due_at : Int
  triggered_at : Int
  status : ScheduledJobRunStatus := .triggered
  started_at : Option Int := none
  finished_at : Option Int := none
  workflow_run_id : Option String := none
  error_code : Option String := none
  error_message : Option String := none

/-- What the environment decides, by the number of the step. -/
structure ScheduleEnv where
  clock : Nat → Int
  /-- Whether a due job is in the batch of a poll. -/
  inBatch : Nat → Bool
  workflowError : Nat → Option ScheduleError
  startWorkflow : Nat → Except String (Option String)

structure ScheduleStore where
  steps : Nat := 0
  job : ScheduledJob
  /-- The number of resumes that have been written. -/
  resumes : Nat := 0
  runs : List ScheduledJobRun := []

/-- A due time that a call writes: one that it has read, or one that it has computed. -/
inductive NextRun where
  | kept (due : Option DueTime)
  | computed (nextRunAt : Int)

/-- The columns that `updateScheduledJob` writes. -/
structure JobUpdate where
  name : String
  schedule : ScheduleFields
  next_run_at : NextRun
  execution_target_ref : String
  payload_json : Json
  updated_by : Option String

/-- The columns that the runner writes into a run. -/
inductive RunChange where
  | running (startedAt : Int)
  | dispatched (workflowRunId : String)
  | skipped (finishedAt : Int)
  | failed (finishedAt : Int) (message : String)

def ScheduledJobRun.change (run : ScheduledJobRun) : RunChange → ScheduledJobRun
  | .running startedAt => { run with status := .running, started_at := some startedAt }
  | .dispatched workflowRunId => { run with workflow_run_id := some workflowRunId }
  | .skipped finishedAt =>
      { run with
        status := .skipped
        finished_at := some finishedAt
        error_code := some "workflow_not_started"
        error_message :=
          some "Workflow start returned no run id (likely skipped by concurrency policy)" }
  | .failed finishedAt message =>
      { run with
        status := .failed
        finished_at := some finishedAt
        error_code := some "workflow_start_failed"
        error_message := some message }

/-- A claim of a due time, with the row that it met. -/
structure ClaimedDue where
  due : DueTime
  current : DueOrigin
  deriving DecidableEq, Repr

inductive ScheduleOp where
  | newDate
  | findById
  | findDueJob (now : Int)
  | ensureWorkflowExists (workflowId : String)
  | advanceNextRunIfDue (schedule : ScheduleFields) (dueAt : Int) (nextRunAt : Option Int)
  | createIfNotExistsByDueKey (dueAt triggeredAt : Int)
  | updateRun (runId : Nat) (change : RunChange)
  | startWorkflow (target : String) (runId : Nat) (dueAt : Int) (payload : Json)
  | updateJob (update : JobUpdate)
  | pauseJob (pausedAt : Int) (updatedBy : Option String)
  | resumeJob (schedule : ScheduleFields) (nextRunAt : Int) (updatedBy : Option String)

/-- A write of the job answers the row as it was and as it is. -/
abbrev ScheduleOp.Ans : ScheduleOp → Type
  | .newDate => Int
  | .findById => ScheduledJob
  | .findDueJob _ => Option ScheduledJob
  | .ensureWorkflowExists _ => Except ScheduleError Unit
  | .advanceNextRunIfDue _ _ _ => Option ClaimedDue
  | .createIfNotExistsByDueKey _ _ => Option Nat
  | .updateRun _ _ => Unit
  | .startWorkflow _ _ _ _ => Except String (Option String)
  | .updateJob _ => ScheduledJob × ScheduledJob
  | .pauseJob _ _ => ScheduledJob
  | .resumeJob _ _ _ => ScheduledJob

namespace ScheduleStore

/-- A due time that is computed now from a schedule. -/
def due (s : ScheduleStore) (schedule : ScheduleFields) (nextRunAt : Int) : DueTime :=
  { dueAt := nextRunAt, origin := { schedule := schedule, resumes := s.resumes } }

/-- The due time that a claim of `dueAt` takes. -/
def claimable (s : ScheduleStore) (dueAt : Int) : Option DueTime :=
  if s.job.status = .active then s.job.next_run_at.filter fun due => due.dueAt = dueAt else none

/-- The due time after a write: a column that is written as it stands keeps its origin. -/
def written (s : ScheduleStore) (schedule : ScheduleFields) : NextRun → Option DueTime
  | .kept due =>
      if due.map DueTime.dueAt = s.job.next_run_at.map DueTime.dueAt then s.job.next_run_at else due
  | .computed nextRunAt => some (s.due schedule nextRunAt)

def updateJob (s : ScheduleStore) (update : JobUpdate) : ScheduledJob :=
  { s.job with
    name := update.name
    schedule := update.schedule
    next_run_at := s.written update.schedule update.next_run_at
    execution_target_ref := update.execution_target_ref
    payload_json := update.payload_json
    updated_by := update.updated_by }

def pauseJob (s : ScheduleStore) (pausedAt : Int) (updatedBy : Option String) : ScheduledJob :=
  { s.job with status := .paused, paused_at := some pausedAt, updated_by := updatedBy }

/-- A resume counts itself. -/
def resumeJob (s : ScheduleStore) (schedule : ScheduleFields) (nextRunAt : Int)
    (updatedBy : Option String) : ScheduledJob :=
  { s.job with
    status := .active
    paused_at := none
    next_run_at :=
      some { dueAt := nextRunAt, origin := { schedule := schedule, resumes := s.resumes + 1 } }
    updated_by := updatedBy }

def hasRun (s : ScheduleStore) (dueAt : Int) : Bool := s.runs.any fun run => run.due_at = dueAt

end ScheduleStore

def ScheduleOp.write (s : ScheduleStore) : ScheduleOp → ScheduleStore
  | .advanceNextRunIfDue schedule dueAt nextRunAt =>
      if (s.claimable dueAt).isSome then
        { s with job := { s.job with next_run_at := nextRunAt.map fun n => s.due schedule n } }
      else s
  | .createIfNotExistsByDueKey dueAt triggeredAt =>
      if s.hasRun dueAt then s
      else { s with runs := s.runs ++ [{ due_at := dueAt, triggered_at := triggeredAt }] }
  | .updateRun runId change => { s with runs := s.runs.modify runId fun run => run.change change }
  | .updateJob update => { s with job := s.updateJob update }
  | .pauseJob pausedAt updatedBy => { s with job := s.pauseJob pausedAt updatedBy }
  | .resumeJob schedule nextRunAt updatedBy =>
      { s with
        job := s.resumeJob schedule nextRunAt updatedBy
        resumes := s.resumes + 1 }
  | .newDate | .findById | .findDueJob _ | .ensureWorkflowExists _ | .startWorkflow _ _ _ _ => s

def ScheduleOp.answer (env : ScheduleEnv) (s : ScheduleStore) : (o : ScheduleOp) → o.Ans
  | .newDate => env.clock s.steps
  | .findById => s.job
  | .findDueJob now =>
      if s.job.status = .active && s.job.next_run_at.any (fun due => due.dueAt ≤ now) &&
          env.inBatch s.steps then
        some s.job
      else none
  | .ensureWorkflowExists _ =>
      match env.workflowError s.steps with
      | some error => .error error
      | none => .ok ()
  | .advanceNextRunIfDue _ dueAt _ =>
      (s.claimable dueAt).map fun due =>
        { due := due, current := { schedule := s.job.schedule, resumes := s.resumes } }
  | .createIfNotExistsByDueKey dueAt _ => if s.hasRun dueAt then none else some s.runs.length
  | .updateRun _ _ => ()
  | .startWorkflow _ _ _ _ => env.startWorkflow s.steps
  | .updateJob update => (s.job, s.updateJob update)
  | .pauseJob pausedAt updatedBy => s.pauseJob pausedAt updatedBy
  | .resumeJob schedule nextRunAt updatedBy => s.resumeJob schedule nextRunAt updatedBy

def ScheduleOp.exec (env : ScheduleEnv) (s : ScheduleStore) (o : ScheduleOp) :
    ScheduleStore × o.Ans :=
  ({ o.write s with steps := s.steps + 1 }, o.answer env s)

def scheduleMachine (env : ScheduleEnv) : Machine ScheduleOp ScheduleOp.Ans ScheduleStore :=
  ⟨ScheduleOp.exec env, fun _ _ => True⟩

instance (env : ScheduleEnv) (s : ScheduleStore) (o : ScheduleOp) :
    Decidable ((scheduleMachine env).enabled s o) :=
  inferInstanceAs (Decidable True)

/-! ## The runner -/

abbrev ScheduleProg (α : Type) := Prog ScheduleOp ScheduleOp.Ans ScheduleError α

/-- One repository call. -/
def awaitSchedule (o : ScheduleOp) : ScheduleProg o.Ans := .call o .pure

/-- The error of a check is thrown. -/
def orThrow {α : Type} : Except ScheduleError α → ScheduleProg α
  | .ok a => .pure a
  | .error error => .fail error

def dispatchScheduledJobRun (job : ScheduledJob) (runId : Nat) (dueAt : Int) :
    ScheduleProg Unit := do
  let startedAt ← awaitSchedule .newDate
  awaitSchedule (.updateRun runId (.running startedAt))
  match ← awaitSchedule (.startWorkflow job.execution_target_ref runId dueAt job.payload_json) with
  | .ok (some workflowRunId) => awaitSchedule (.updateRun runId (.dispatched workflowRunId))
  | .ok none => do
      let finishedAt ← awaitSchedule .newDate
      awaitSchedule (.updateRun runId (.skipped finishedAt))
  | .error message => do
      let finishedAt ← awaitSchedule .newDate
      awaitSchedule (.updateRun runId (.failed finishedAt message))

def processDueScheduledJob (texts : ScheduleTexts) (job : ScheduledJob) (now : Int) :
    ScheduleProg Bool :=
  match job.next_run_at with
  | none => .pure false
  | some due => do
      let nextRunAt ← orThrow (computeNextRunAfterExecution texts job.schedule now due.dueAt)
      match ← awaitSchedule (.advanceNextRunIfDue job.schedule due.dueAt nextRunAt) with
      | none => .pure false
      | some _ =>
          match ← awaitSchedule (.createIfNotExistsByDueKey due.dueAt now) with
          | none => .pure false
          | some runId => do
              dispatchScheduledJobRun job runId due.dueAt
              .pure true

/-- What a poll does with the job. -/
def processDueSchedules (texts : ScheduleTexts) (now : Int) : ScheduleProg Bool := do
  match ← awaitSchedule (.findDueJob now) with
  | none => .pure false
  | some job => processDueScheduledJob texts job now

/-! ## The edits -/

structure UpdateScheduledJobParams where
  name : Option String := none
  workflow_id : Option String := none
  schedule_type : Option ScheduledJobType := none
  schedule_expression : Option String := none
  timezone : Option String := none
  payload_json : Option Json := none
  updated_by : Option String := none

def isScheduleChanged (params : UpdateScheduledJobParams) : Bool :=
  params.schedule_type.isSome || params.schedule_expression.isSome || params.timezone.isSome

def normalizeName (name : String) : Except ScheduleError String :=
  let trimmed := jsTrim name
  if trimmed = "" then .error (.badRequest "name is required") else .ok trimmed

def resolveName (existing : ScheduledJob) (params : UpdateScheduledJobParams) :
    Except ScheduleError String :=
  match params.name with
  | none => .ok existing.name
  | some name => normalizeName name

def resolveWorkflowId (existing : ScheduledJob) (params : UpdateScheduledJobParams) :
    ScheduleProg String :=
  match params.workflow_id with
  | none => .pure existing.execution_target_ref
  | some workflowId =>
      if workflowId = "" then .pure existing.execution_target_ref
      else do
        orThrow (← awaitSchedule (.ensureWorkflowExists workflowId))
        .pure workflowId

def resolveScheduleFields (texts : ScheduleTexts) (existing : ScheduledJob)
    (params : UpdateScheduledJobParams) : ScheduleProg (ScheduleFields × NextRun) :=
  let scheduleType := params.schedule_type.getD existing.schedule.scheduleType
  let scheduleExpression := params.schedule_expression.getD existing.schedule.scheduleExpression
  let timezone := params.timezone.or existing.schedule.timezone
  if !isScheduleChanged params then
    .pure ({ scheduleType := scheduleType, scheduleExpression := scheduleExpression,
             timezone := existing.schedule.timezone }, .kept existing.next_run_at)
  else do
    let now ← awaitSchedule .newDate
    let resolved ← orThrow
      (resolveInitialSchedule texts scheduleType scheduleExpression timezone now)
    .pure ({ scheduleType := scheduleType, scheduleExpression := resolved.normalizedExpression,
             timezone := resolved.timezone },
      if existing.status = .active then .computed resolved.nextRunAt
      else .kept existing.next_run_at)

def buildUpdatePayload (texts : ScheduleTexts) (existing : ScheduledJob)
    (params : UpdateScheduledJobParams) : ScheduleProg JobUpdate := do
  let workflowId ← resolveWorkflowId existing params
  let (schedule, nextRunAt) ← resolveScheduleFields texts existing params
  let name ← orThrow (resolveName existing params)
  .pure
    { name := name
      schedule := schedule
      next_run_at := nextRunAt
      execution_target_ref := workflowId
      payload_json := params.payload_json.getD existing.payload_json
      updated_by := params.updated_by.or existing.updated_by }

def updateScheduledJob (texts : ScheduleTexts) (params : UpdateScheduledJobParams) :
    ScheduleProg ScheduledJob := do
  let existing ← awaitSchedule .findById
  let updatePayload ← buildUpdatePayload texts existing params
  let (_, updated) ← awaitSchedule (.updateJob updatePayload)
  .pure updated

def pauseScheduledJob (updatedBy : Option String) : ScheduleProg ScheduledJob := do
  let existing ← awaitSchedule .findById
  if existing.status = .paused then .pure existing
  else do
    let pausedAt ← awaitSchedule .newDate
    awaitSchedule (.pauseJob pausedAt (updatedBy.or existing.updated_by))

def resumeScheduledJob (texts : ScheduleTexts) (updatedBy : Option String) :
    ScheduleProg ScheduledJob := do
  let existing ← awaitSchedule .findById
  let now ← awaitSchedule .newDate
  let resolved ← orThrow (resolveInitialSchedule texts existing.schedule.scheduleType
    existing.schedule.scheduleExpression existing.schedule.timezone now)
  awaitSchedule (.resumeJob existing.schedule resolved.nextRunAt
    (updatedBy.or existing.updated_by))

/-! ## The threads -/

inductive ScheduleCall where
  | poll (now : Int)
  | update (params : UpdateScheduledJobParams)
  | pause (updatedBy : Option String)
  | resume (updatedBy : Option String)

/-- The program of a call; what it returns is left out. -/
def ScheduleCall.program (texts : ScheduleTexts) : ScheduleCall → ScheduleProg Unit
  | .poll now => do
      let _ ← processDueSchedules texts now
      .pure ()
  | .update params => do
      let _ ← updateScheduledJob texts params
      .pure ()
  | .pause updatedBy => do
      let _ ← pauseScheduledJob updatedBy
      .pure ()
  | .resume updatedBy => do
      let _ ← resumeScheduledJob texts updatedBy
      .pure ()

end ScheduledJobsService

end Nexus
