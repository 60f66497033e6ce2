import HumanGate.Model.Dispatcher

set_option autoImplicit false

/-! # The scheduler

`app/orchestration/scheduler.py`: lease due jobs fairly, return expired job leases, and carry
out a leased job. `rows` is the order in which the database scans the jobs (the workers, for
`processLeasedJob`).
-/

namespace HumanGate

open Lib Lib.Calendar

/-! ## Leasing due jobs -/

def JobSchedule.due (now : Instant) (j : JobSchedule) : Bool :=
  j.status == .pending && decide (j.runAfter ≤ now)

/-- `priority DESC, run_after ASC`. -/
def jobLe (a b : JobSchedule) : Bool :=
  decide (b.priority < a.priority) || (a.priority == b.priority && decide (a.runAfter ≤ b.runAfter))

def jobRows (s : Db) (rows : List JobId) : List (JobId × JobSchedule) :=
  rows.filterMap fun jid => (s.jobs[jid]?).map fun j => (jid, j)

/-- The due jobs, over-fetched three times. -/
def dueJobs (s : Db) (now : Instant) (batchSize : Nat) (rows : List JobId) :
    List (JobId × JobSchedule) :=
  (((jobRows s rows).filter fun p => p.2.due now).insertionSort
    fun a b => jobLe a.2 b.2 = true).take (batchSize * 3)

/-- `_fairness_limits` of one workspace: its tick allowance, halved (at least 1) while the
workspace is throttled. -/
def fairnessLimit (cfg : Config) (s : Db) (ws : WorkspaceId) : Int :=
  let configured : Int := match cfg.concurrencyLimit ws with
    | some limit => limit.maxPerSchedulerTick
    | none => 5
  if s.backpressure.lookup ws = some .throttled then max 1 (configured / 2) else configured

/-- The jobs each workspace may have leased, workspaces in the order they first appear. -/
def workspaceQueues (cfg : Config) (s : Db) (candidates : List (JobId × JobSchedule)) :
    List (List JobId) :=
  ((candidates.map fun p => p.2.workspaceId).reverse.dedup.reverse).map fun ws =>
    ((candidates.filter fun p => p.2.workspaceId == ws).map Prod.fst).take
      (fairnessLimit cfg s ws).toNat

/-- One job of each workspace in turn, until the batch is full or the queues are empty. -/
def roundRobin : Nat → List (List JobId) → Nat → List JobId
  | 0, _, _ => []
  | rounds + 1, queues, room =>
      let heads := (queues.filterMap List.head?).take room
      heads ++ roundRobin rounds (queues.map List.tail) (room - heads.length)

def leaseSeconds : Nat := 30

def JobSchedule.lease (now : Instant) (j : JobSchedule) : JobSchedule :=
  { j with status := .leased, leaseExpiresAt := some (now + seconds leaseSeconds) }

def updateJobs (s : Db) (f : JobSchedule → JobSchedule) : List JobId → Db
  | [] => s
  | jid :: rest => updateJobs (s.updateJob jid f) f rest

/-- `poll_and_lease`. -/
def pollAndLease (cfg : Config) (s : Db) (now : Instant) (batchSize : Nat) (rows : List JobId) :
    Db :=
  let candidates := dueJobs s now batchSize rows
  updateJobs s (JobSchedule.lease now)
    (roundRobin candidates.length (workspaceQueues cfg s candidates) batchSize)

/-- The lease fields of a job that is not leased. -/
def JobSchedule.park (runAfter : Instant) (j : JobSchedule) : JobSchedule :=
  { j with status := .pending, runAfter := runAfter, leaseExpiresAt := none }

def JobSchedule.unlease (j : JobSchedule) : JobSchedule :=
  { j with status := .pending, leaseExpiresAt := none, attempt := j.attempt + 1 }

/-- `scheduler.reap_expired_leases`. -/
def reapExpiredJobLeases (s : Db) (now : Instant) (batchSize : Nat) (rows : List JobId) : Db :=
  updateJobs s JobSchedule.unlease
    ((rows.filter fun jid => (s.jobs[jid]?).any fun j =>
      j.status == .leased && j.leaseExpiresAt.any fun t => decide (t < now)).take batchSize)

/-! ## Carrying out a job -/

def noWorkerMaxRetries : Nat := 20
def noWorkerRetryBaseSeconds : Nat := 5
def noWorkerRetryMaxSeconds : Nat := 120
def spendHoldRetrySeconds : Nat := 60

def JobSchedule.finish (j : JobSchedule) : JobSchedule := { j with status := .done }

def JobSchedule.cancel (j : JobSchedule) : JobSchedule :=
  { j with status := .cancelled, leaseExpiresAt := none }

/-- A `STAGE` or `RETRY` job. -/
def JobSchedule.isWork (j : JobSchedule) : Bool := j.jobType == .stage || j.jobType == .retry

/-- `PENDING` or `LEASED`. -/
def JobSchedule.isLive (j : JobSchedule) : Bool := j.status == .pending || j.status == .leased

/-- The call of `dispatch_stage` that a work job of the run `rid` stands for. -/
def JobSchedule.dispatchArgs (j : JobSchedule) (rid : RunId) : DispatchArgs :=
  { workspaceId := j.workspaceId
    pipelineRunId := rid
    stage := j.refTable
    attemptNumber := j.attempt + 1 }

/-- The open assignments of a run for one stage. -/
def openStageAssignments (s : Db) (rid : RunId) (stage : ContentStage) : List AssignmentId :=
  Table.select (fun a => a.pipelineRunId == rid && a.stage == stage && a.status.isOpen)
    s.assignments

/-- The last retry failed too: cancel the job and its open assignments and dead-letter it.
The run itself is left as it is. -/
def exhaustJob (s : Db) (now : Instant) (jid : JobId) (job : JobSchedule) (rid : RunId) :
    Except Err Db :=
  let s := s.updateJob jid fun j =>
    { j with status := .cancelled, attempt := job.attempt + 1 }
  let deadLetter := fun s => routeToDeadLetter s now job.workspaceId (.jobSchedule jid)
    ("stage_dispatch:" ++ job.refTable) "no eligible worker available after repeated attempts"
    (job.attempt + 1) job.createdAt
  match s.runs[rid]? with
  | none => .ok (deadLetter s)
  | some run =>
      let s := releaseAllReservations s now rid run.workspaceId
      -- the query compares an enumeration column, so any other text raises
      match ContentStage.ofText? job.refTable with
      | none => .error (.invalidStage job.refTable)
      | some stage =>
          .ok (deadLetter (cancelAssignments s now (openStageAssignments s rid stage)))

/-- No capacity right now: try again later, or give up. -/
def rescheduleJob (s : Db) (now : Instant) (jid : JobId) (job : JobSchedule) (rid : RunId)
    (jitter : Nat) : Except Err Db :=
  if noWorkerMaxRetries ≤ job.attempt + 1 then exhaustJob s now jid job rid
  else
    .ok (s.updateJob jid fun j => { j.park (now + computeBackoff (job.attempt + 1)
      noWorkerRetryBaseSeconds 2 noWorkerRetryMaxSeconds jitter) with attempt := job.attempt + 1 })

/-- What the outcome of the dispatch means for the job. -/
def settleJob (s : Db) (now : Instant) (jid : JobId) (job : JobSchedule) (rid : RunId)
    (jitter : Nat) : DispatchOutcome → Except Err Db
  -- parked with its attempt unchanged, so that it can wait for the budget forever
  | .spendHold => .ok (s.updateJob jid (JobSchedule.park (now + seconds spendHoldRetrySeconds)))
  | .skipped => .ok (s.updateJob jid JobSchedule.cancel)
  -- a replay and a row that waits for a worker are done too
  | .dispatched | .idempotent | .noWorker => .ok (s.updateJob jid JobSchedule.finish)
  | .backpressure => rescheduleJob s now jid job rid jitter

/-- The dispatch of a work job. Also returns the outcome. -/
def processWorkJob (cfg : Config) (s : Db) (now : Instant) (jid : JobId) (job : JobSchedule)
    (rid : RunId) (rows : List WorkerId) (jitter : Nat) : Except Err (Db × DispatchOutcome) :=
  match dispatchStage cfg s now (job.dispatchArgs rid) rows with
  | .error e => .error e
  | .ok (s1, outcome) =>
      match settleJob s1 now jid job rid jitter outcome with
      | .error e => .error e
      | .ok s2 => .ok (s2, outcome)

/-- `process_leased_job`. -/
def processLeasedJob (cfg : Config) (s : Db) (now : Instant) (jid : JobId) (rows : List WorkerId)
    (jitter : Nat) : Except Err Db :=
  match s.jobs[jid]? with
  | none => .error .jobNotFound
  | some job =>
      match job.jobType, job.refId with
      | .stage, .run rid | .retry, .run rid =>
          (processWorkJob cfg s now jid job rid rows jitter).map Prod.fst
      | .stageTimeout, .run rid =>
          match ContentStage.ofText? job.refTable with
          -- no run is in such a stage, so the timeout is stale
          | none => .ok (s.updateJob jid JobSchedule.finish)
          | some stage =>
              (handleStageTimeout cfg s now rid stage jitter).map
                fun s => s.updateJob jid JobSchedule.finish
      | .reviewTimeout, .gate gid =>
          .ok ((handleReviewTimeout s now gid).updateJob jid JobSchedule.finish)
      | .compensation, _ => .ok (s.updateJob jid JobSchedule.finish)
      | _, _ => .error .notImplemented

end HumanGate
