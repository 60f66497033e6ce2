import HumanGate.Lib.System
import HumanGate.Model.Claiming
import HumanGate.Model.Recovery
import HumanGate.Model.Review
import HumanGate.Model.Scheduler

set_option autoImplicit false

/-! # The operations of the system

The operator's `retry_failed_jobs` (`app/services/operations_mission.py`), and `Op`, the
transactions the orchestration consists of. `exec` runs one: an exception rolls it back, and
the commit flushes the session. An operation carries everything the code does not decide
itself: the instant, the scan orders, the random draws, and the caller's arguments.
-/

namespace HumanGate

open Lib Lib.Calendar

/-! ## Manual retry -/

def retryJob (now : Instant) (ws : WorkspaceId) (rid : RunId) (stage : String) (attempt : Nat) :
    JobSchedule :=
  { workspaceId := ws
    jobType := .retry
    refTable := stage
    refId := .run rid
    runAfter := now
    attempt := attempt
    createdAt := now }

/-- A failed run runs again; any other keeps its status. -/
def PipelineRun.reopen (run : PipelineRun) : PipelineRun :=
  if run.status = .failed then { run with status := .running } else run

/-- The run and the stage text a dead-letter entry stands for. -/
def deadLetterTarget (s : Db) (entry : DeadLetterJob) : Option (RunId × String) :=
  match entry.relatedId with
  | .pipelineRun rid => some (rid, entry.jobType)
  | .stageAssignment aid => (s.assignments[aid]?).map fun a => (a.pipelineRunId, a.stage.value)
  | .jobSchedule _ | .outboxEvent _ => none

/-- `SUCCEEDED` or `CANCELLED`: what a manual retry leaves alone. -/
def PipelineRunStatus.isClosed : PipelineRunStatus → Bool
  | .succeeded | .cancelled => true
  | _ => false

def Db.resolveDeadLetter (s : Db) (i : Nat) : Db :=
  { s with deadLetters := s.deadLetters.modify i fun e => { e with status := .resolved } }

/-- Reopen a run and add a retry job for it. -/
def requeueRun (s : Db) (now : Instant) (ws : WorkspaceId) (rid : RunId) (stage : String)
    (attempt : Nat) : Db :=
  { s.updateRun rid PipelineRun.reopen with
    jobs := s.jobs ++ [retryJob now ws rid stage attempt] }

/-- One dead-letter entry of `retry_failed_jobs`. -/
def retryDeadLetter (s : Db) (now : Instant) (ws : WorkspaceId) (i : Nat) : Db :=
  match s.deadLetters[i]? with
  | none => s
  | some entry =>
      match deadLetterTarget s entry with
      | none => s
      | some (rid, stage) =>
          match s.runs[rid]? with
          | none => s
          | some run =>
              if run.workspaceId ≠ ws then s
              else if run.status.isClosed then s.resolveDeadLetter i
              else (requeueRun s now ws rid stage entry.attemptCount).resolveDeadLetter i

def retryDeadLetters (s : Db) (now : Instant) (ws : WorkspaceId) : List Nat → Db
  | [] => s
  | i :: rest => retryDeadLetters (retryDeadLetter s now ws i) now ws rest

/-- A pending retry job of the run, as the query sees it: the jobs this operation adds are not
flushed yet. -/
def hasPendingRetry (flushed : List JobSchedule) (ws : WorkspaceId) (rid : RunId) : Bool :=
  flushed.any fun j => j.workspaceId == ws && j.refId == .run rid && j.jobType == .retry
    && j.status == .pending

/-- One failed assignment of `retry_failed_jobs`. -/
def retryAssignment (flushed : List JobSchedule) (s : Db) (now : Instant) (ws : WorkspaceId)
    (aid : AssignmentId) : Db :=
  match s.assignments[aid]? with
  | none => s
  | some a =>
      if hasPendingRetry flushed ws a.pipelineRunId then s
      else
        match s.runs[a.pipelineRunId]? with
        | none => s
        | some run =>
            if run.workspaceId ≠ ws ∨ run.status.isClosed then s
            else requeueRun s now ws a.pipelineRunId a.stage.value a.attemptNumber

def retryAssignments (flushed : List JobSchedule) (s : Db) (now : Instant) (ws : WorkspaceId) :
    List AssignmentId → Db
  | [] => s
  | aid :: rest => retryAssignments flushed (retryAssignment flushed s now ws aid) now ws rest

/-- The pending dead-letter entries of a workspace. -/
def pendingDeadLetters (s : Db) (ws : WorkspaceId) : List Nat :=
  Table.select (fun e => e.workspaceId == ws && e.status == .pending) s.deadLetters

/-- The assignments of a workspace that failed within seven days, at most fifty. -/
def recentlyFailed (s : Db) (now : Instant) (ws : WorkspaceId) (rows : List AssignmentId) :
    List AssignmentId :=
  (rows.filter fun aid => (s.assignments[aid]?).any fun a =>
    a.workspaceId == ws && a.status == .failed
      && decide (now ≤ a.updatedAt + seconds (7 * 86400))).take 50

def retryFailedJobs (s : Db) (now : Instant) (ws : WorkspaceId) (rows : List AssignmentId) : Db :=
  retryAssignments s.jobs (retryDeadLetters s now ws (pendingDeadLetters s ws)) now ws
    (recentlyFailed s now ws rows)

/-! ## Operations -/

/-- What happens in an operation, apart from its instant. -/
inductive Action where
  | startRun (ws : WorkspaceId) (item : ItemId) (definition : DefinitionId)
  | pollAndLease (batchSize : Nat) (rows : List JobId)
  | reapExpiredJobLeases (batchSize : Nat) (rows : List JobId)
  | processLeasedJob (jid : JobId) (rows : List WorkerId) (jitter : Nat)
  | dispatchStage (args : DispatchArgs) (rows : List WorkerId)
  | claimAssignment (wid : WorkerId) (token : Option ClaimToken)
      (requestWorkspaceId : Option WorkspaceId) (rows : List AssignmentId)
  | acknowledge (aid : AssignmentId) (leaseSeconds : Option Nat) (worker : Option WorkerId)
  | renewLease (aid : AssignmentId) (leaseSeconds : Option Nat) (worker : Option WorkerId)
  | submitResult (aid : AssignmentId) (success : Bool) (result : Option JsonObject)
      (errorMessage : String) (worker : Option WorkerId) (jitter : Nat)
  | recoverAssignment (aid : AssignmentId) (reason : RecoveryReason) (detail : Option String)
  | reapExpiredLeases (batchSize : Option Nat) (rows : List AssignmentId)
  | reapWorkerAssignments (wid : WorkerId) (reason : RecoveryReason) (batchSize : Option Nat)
      (detail : Option String) (rows : List AssignmentId)
  | pauseForReview (rid : RunId) (stage : ContentStage) (timeoutSeconds : Nat)
  | submitReviewDecision (gid : GateId) (reviewer : UserId) (approved : Bool)
      (notes : Option String)
  | dispatchOne (eid : EventId)
  | submitAndDeliver (gid : GateId) (reviewer : UserId) (approved : Bool) (notes : Option String)
  | decideReviewGate (ws : WorkspaceId) (gid : GateId) (reviewer : UserId) (approved : Bool)
      (expectedContentVersionId : Option VersionId) (notes : Option String)
  | editReviewGateContent (ws : WorkspaceId) (gid : GateId)
      (expectedContentVersionId : VersionId) (scriptHook scriptBody scriptCta : Option String)
  | handleReviewTimeout (gid : GateId)
  | handleStageTimeout (rid : RunId) (stage : ContentStage) (jitter : Nat)
  | reserveSpend (rid : RunId) (stage : ContentStage) (provider : String) (estimate : ℚ≥0)
  | cancelRun (rid : RunId)
  | retryFailedJobs (ws : WorkspaceId) (rows : List AssignmentId)

/-- A transaction: what happens, and when. -/
structure Op where
  now : Instant
  action : Action

/-- `reserve_spend` as a transaction of its own. -/
def reserveSpendFor (s : Db) (now : Instant) (rid : RunId) (stage : ContentStage)
    (provider : String) (estimate : ℚ≥0) : Db :=
  match s.runs[rid]? with
  | none => s
  | some run => (reserveSpend s now rid run.workspaceId stage provider estimate).1

/-- The code an operation runs. -/
def Op.call (cfg : Config) (s : Db) (o : Op) : Call :=
  match o.action with
  | .startRun ws item definition => startRun cfg s o.now ws item definition
  | .pollAndLease batchSize rows => { db := pollAndLease cfg s o.now batchSize rows }
  | .reapExpiredJobLeases batchSize rows =>
      { db := reapExpiredJobLeases s o.now batchSize rows }
  | .processLeasedJob jid rows jitter =>
      Call.ofExcept s (processLeasedJob cfg s o.now jid rows jitter)
  | .dispatchStage args rows =>
      Call.ofExcept s ((dispatchStage cfg s o.now args rows).map Prod.fst)
  | .claimAssignment wid token ws rows =>
      Call.ofExcept s ((claimAssignment cfg s o.now wid token ws rows).map ClaimResult.db)
  | .acknowledge aid secs worker => Call.ofExcept s (acknowledge cfg s o.now aid secs worker)
  | .renewLease aid secs worker => Call.ofExcept s (renewLease cfg s o.now aid secs worker)
  | .submitResult aid success result errorMessage worker jitter =>
      submitResult cfg s o.now aid success result errorMessage worker jitter
  | .recoverAssignment aid reason detail =>
      Call.ofExcept s (recoverAssignment cfg s o.now aid reason detail)
  | .reapExpiredLeases batchSize rows =>
      Call.ofExcept s (reapExpiredLeases cfg s o.now batchSize rows)
  | .reapWorkerAssignments wid reason batchSize detail rows =>
      Call.ofExcept s (reapWorkerAssignments cfg s o.now wid reason batchSize detail rows)
  | .pauseForReview rid stage timeoutSeconds =>
      pauseForReview s o.now rid stage timeoutSeconds
  | .submitReviewDecision gid reviewer approved notes =>
      Call.ofExcept s ((submitReviewDecision s o.now gid reviewer approved notes).map Prod.fst)
  | .dispatchOne eid => dispatchOne cfg s o.now eid
  | .submitAndDeliver gid reviewer approved notes =>
      submitAndDeliver cfg s o.now gid reviewer approved notes
  | .decideReviewGate ws gid reviewer approved expected notes =>
      decideReviewGate cfg s o.now ws gid reviewer approved expected notes
  | .editReviewGateContent ws gid expected hook body cta =>
      Call.ofExcept s (editReviewGateContent s ws gid expected hook body cta)
  | .handleReviewTimeout gid => { db := handleReviewTimeout s o.now gid }
  | .handleStageTimeout rid stage jitter =>
      Call.ofExcept s (handleStageTimeout cfg s o.now rid stage jitter)
  | .reserveSpend rid stage provider estimate =>
      { db := reserveSpendFor s o.now rid stage provider estimate }
  | .cancelRun rid => { db := cancelRun s o.now rid }
  | .retryFailedJobs ws rows => { db := retryFailedJobs s o.now ws rows }

/-- The state after the transaction: rolled back, or flushed and committed. -/
def Call.commit (s : Db) (c : Call) : Db :=
  match c.raised with
  | some _ => s
  | none => c.db.flush

def exec (cfg : Config) (s : Db) (o : Op) : Db := (o.call cfg s).commit s

/-- Nothing has been orchestrated yet. There may be content, workers, caps and past spend. -/
structure Fresh (s : Db) : Prop where
  runs : s.runs = []
  stageRuns : s.stageRuns = []
  jobs : s.jobs = []
  assignments : s.assignments = []
  gates : s.gates = []
  gateColumn : s.gateColumn = []
  decisions : s.decisions = []
  reservations : s.reservations = []
  outbox : s.outbox = []

/-- The orchestration, where `allowed` says which operations are issued. -/
def orchestration (cfg : Config) (allowed : Db → Op → Prop) : System Db Op where
  init := Fresh
  allowed := allowed
  exec := exec cfg

end HumanGate
