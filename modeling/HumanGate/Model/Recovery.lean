import HumanGate.Model.Dispatcher

set_option autoImplicit false

/-! # Lease recovery

`app/orchestration/recovery.py`: an assignment whose lease ran out or whose worker is gone is
requeued for another attempt, or dead-lettered when its attempts are used up.
-/

namespace HumanGate

open Lib Lib.Calendar

/-- `_clear_lease_and_claim_fields`. -/
def StageAssignment.clearLeaseAndClaim (a : StageAssignment) : StageAssignment :=
  { a with
    workerId := none
    leaseExpiresAt := none
    leaseStartedAt := none
    leaseExtensionCount := 0
    dispatchedAt := none
    acknowledgedAt := none
    claimedBy := none
    claimedAt := none
    claimToken := none }

/-- `_release_worker_slot`. Unlike `submit_result` it turns a busy worker without load online. -/
def WorkerRegistration.releaseSlot (w : WorkerRegistration) : WorkerRegistration :=
  { w with
    currentLoad := w.currentLoad - 1
    status := if w.status = .busy ∧ w.currentLoad - 1 < w.maxConcurrency then .online
      else w.status }

/-- `_resolve_max_attempts`. -/
def resolveMaxAttempts (cfg : Config) (s : Db) (a : StageAssignment) : Nat :=
  match (s.runs[a.pipelineRunId]?).bind fun run => run.definitionId.bind cfg.definition with
  -- a run without a definition, or a row of no run
  | none => cfg.settings.assignmentDefaultMaxAttempts
  | some d =>
      match d.stageRow a.stage with
      | none => cfg.settings.assignmentDefaultMaxAttempts
      | some row => row.maxAttempts

/-- `_audit`. -/
def auditRecovery (s : Db) (aid : AssignmentId) (a : StageAssignment) (reason : RecoveryReason)
    (newAttempt : Option Nat) (outcome : RecoveryOutcome) (detail : Option String) : Db :=
  { s with recoveryAudit := s.recoveryAudit ++ [{
      workspaceId := a.workspaceId
      assignmentId := aid
      previousWorkerId := a.workerId
      reason := reason
      previousStatus := a.status
      previousAttempt := a.attemptNumber
      newAttempt := newAttempt
      outcome := outcome
      detail := detail }] }

def StageAssignment.exhaust (now : Instant) (a : StageAssignment) : StageAssignment :=
  { a.clearLeaseAndClaim with status := .failed, completedAt := some now }

/-- The key of an assignment's next attempt. -/
def StageAssignment.nextKey (a : StageAssignment) : IdempotencyKey :=
  ⟨a.pipelineRunId, a.stage.value, a.attemptNumber + 1⟩

def StageAssignment.requeue (a : StageAssignment) : StageAssignment :=
  { a.clearLeaseAndClaim with
    status := .pending
    attemptNumber := a.attemptNumber + 1
    idempotencyKey := a.nextKey }

/-- Fail the run unless it is over. -/
def failRunUnlessTerminal (s : Db) (now : Instant) (rid : RunId) : Db :=
  match s.runs[rid]? with
  | none => s
  | some run => if run.status.isTerminal then s else failRun s now rid run.workspaceId

/-- The attempts are used up: dead-letter the assignment and fail its run. -/
def exhaustAssignment (s : Db) (now : Instant) (aid : AssignmentId) (a : StageAssignment)
    (reason : RecoveryReason) (maxAttempts : Nat) (detail : Option String) : Db :=
  let s := s.updateAssignment now aid (StageAssignment.exhaust now)
  let s := routeToDeadLetter s now a.workspaceId (.stageAssignment aid)
    ("stage:" ++ a.stage.formatted)
    ("recovery exhausted (" ++ reason.value ++ ") after " ++ toString a.attemptNumber
      ++ " attempts") a.attemptNumber now
  let s := failRunUnlessTerminal s now a.pipelineRunId
  auditRecovery s aid a reason none .deadLettered
    (some (detail.getD ("max_attempts=" ++ toString maxAttempts)))

/-- Another assignment of the workspace has the key; the unique index then refuses it. -/
def keyTaken (s : Db) (aid : AssignmentId) (ws : WorkspaceId) (key : IdempotencyKey) : Bool :=
  (Table.select (fun a => a.workspaceId == ws && a.idempotencyKey == key) s.assignments).any
    fun i => i != aid

/-- Back to pending for another attempt. The reservation goes: the claim reserves afresh. -/
def requeueAssignment (s : Db) (now : Instant) (aid : AssignmentId) (a : StageAssignment)
    (reason : RecoveryReason) (detail : Option String) : Except Err Db :=
  let s := match s.runs[a.pipelineRunId]? with
    | none => s
    | some run =>
        releaseEach s now a.pipelineRunId run.workspaceId
          (openReservationsFor s a.pipelineRunId a.stage)
  if keyTaken s aid a.workspaceId a.nextKey then .error .integrityError
  else
    let s := s.updateAssignment now aid StageAssignment.requeue
    let s := s.emit now .stageReassigned a.workspaceId a.pipelineRunId
    .ok (auditRecovery s aid a reason (some (a.attemptNumber + 1)) .requeued detail)

/-- `recover_assignment`. -/
def recoverAssignment (cfg : Config) (s : Db) (now : Instant) (aid : AssignmentId)
    (reason : RecoveryReason) (detail : Option String) : Except Err Db :=
  match s.assignments[aid]? with
  | none => .error .assignmentNotFound
  | some a =>
      if ¬ a.status.inFlight then
        .ok (auditRecovery s aid a reason none .skipped (some (detail.getD "not in-flight")))
      else
        -- the slot goes first, whether the row is requeued or given up
        let s := freeSlot s a.workerId WorkerRegistration.releaseSlot
        let maxAttempts := resolveMaxAttempts cfg s a
        if maxAttempts < a.attemptNumber + 1 then
          .ok (exhaustAssignment s now aid a reason maxAttempts detail)
        else requeueAssignment s now aid a reason detail

def recoverEach (cfg : Config) (s : Db) (now : Instant) (reason : RecoveryReason)
    (detail : Option String) : List AssignmentId → Except Err Db
  | [] => .ok s
  | aid :: rest =>
      match recoverAssignment cfg s now aid reason detail with
      | .error e => .error e
      | .ok s => recoverEach cfg s now reason detail rest

/-! ## The reapers -/

/-- The lease ran out. -/
def StageAssignment.leaseExpired (now : Instant) (a : StageAssignment) : Bool :=
  a.status.inFlight && a.leaseExpiresAt.any fun t => decide (t < now)

/-- The rows `reap_expired_leases` locks: expired, earliest lease first. -/
def expiredAssignments (s : Db) (now : Instant) (limit : Nat) (rows : List AssignmentId) :
    List AssignmentId :=
  let expiry := fun aid => ((s.assignments[aid]?).bind StageAssignment.leaseExpiresAt).getD 0
  ((rows.filter fun aid =>
      (s.assignments[aid]?).any (StageAssignment.leaseExpired now)).insertionSort
    fun i j => expiry i ≤ expiry j).take limit

/-- `recovery.reap_expired_leases`. -/
def reapExpiredLeases (cfg : Config) (s : Db) (now : Instant) (batchSize : Option Nat)
    (rows : List AssignmentId) : Except Err Db :=
  recoverEach cfg s now .leaseExpired none
    (expiredAssignments s now (batchSize.getD cfg.settings.assignmentReaperBatchSize) rows)

/-- The assignments a worker still holds. -/
def holdings (s : Db) (wid : WorkerId) (limit : Nat) (rows : List AssignmentId) :
    List AssignmentId :=
  (rows.filter fun aid => (s.assignments[aid]?).any fun a =>
    a.workerId == some wid && a.status.inFlight).take limit

/-- The batches of `reap_worker_assignments`; `fuel` bounds their number. -/
def reapWorkerBatches (cfg : Config) (now : Instant) (wid : WorkerId) (reason : RecoveryReason)
    (detail : Option String) (limit : Nat) (rows : List AssignmentId) : Nat → Db → Except Err Db
  | 0, s => .ok s
  | fuel + 1, s =>
      match holdings s wid limit rows with
      -- the loop of the source ends at an empty batch, or a short one
      | [] => .ok s
      | batch =>
          match recoverEach cfg s now reason detail batch with
          | .error e => .error e
          | .ok s' =>
              if batch.length < limit then .ok s'
              else reapWorkerBatches cfg now wid reason detail limit rows fuel s'

/-- `recovery.reap_worker_assignments`. Every batch recovers at least one of the scanned rows,
so one more batch than there are rows is enough. -/
def reapWorkerAssignments (cfg : Config) (s : Db) (now : Instant) (wid : WorkerId)
    (reason : RecoveryReason) (batchSize : Option Nat) (detail : Option String)
    (rows : List AssignmentId) : Except Err Db :=
  reapWorkerBatches cfg now wid reason detail
    (batchSize.getD cfg.settings.assignmentReaperBatchSize) rows (rows.length + 1) s

end HumanGate
