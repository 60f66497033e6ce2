import HumanGate.Model.Controller

set_option autoImplicit false

/-! # The dispatcher

`app/orchestration/dispatcher.py` and `provider_budgets.py`: worker selection, the creation of
assignments, leases, and the entry point for results. `rows` is the order in which the
database scans the workers; it decides between workers that `select_worker` ranks equal.
-/

namespace HumanGate

open Lib Lib.Calendar

/-! ## Selecting a worker -/

/-- The `WHERE` clause of `select_worker`. -/
def WorkerRegistration.eligibleFor (w : WorkerRegistration) (stage : String) : Bool :=
  (w.status == .online || w.status == .busy) && !w.drain && w.deregisteredAt.isNone
    && decide (50 ≤ w.healthScore) && w.supportedStages.contains stage
    && decide (w.currentLoad < w.maxConcurrency)

/-- `last_heartbeat_at ASC NULLS FIRST`. -/
def heartbeatLe : Option Instant → Option Instant → Bool
  | none, _ => true
  | some _, none => false
  | some a, some b => decide (a ≤ b)

/-- The `ORDER BY` clause of `select_worker`: health descending, load ascending, heartbeat
ascending. -/
def WorkerRegistration.rankLe (a b : WorkerRegistration) : Bool :=
  decide (b.healthScore < a.healthScore) ||
    (a.healthScore == b.healthScore && (decide (a.currentLoad < b.currentLoad) ||
      (a.currentLoad == b.currentLoad && heartbeatLe a.lastHeartbeatAt b.lastHeartbeatAt)))

/-- The eligible workers, as scanned. -/
def eligibleWorkers (s : Db) (stage : String) (rows : List WorkerId) :
    List (WorkerId × WorkerRegistration) :=
  (rows.filterMap fun wid => (s.workers[wid]?).map fun w => (wid, w)).filter
    fun p => p.2.eligibleFor stage

def selectWorker (s : Db) (stage : String) (rows : List WorkerId) :
    Option (WorkerId × WorkerRegistration) :=
  ((eligibleWorkers s stage rows).insertionSort fun a b => a.2.rankLe b.2 = true).head?

/-! ## Limits -/

def countInflight (s : Db) (ws : WorkspaceId) (provider : String) : Nat :=
  (s.assignments.filter fun a =>
    a.workspaceId == ws && a.provider == some provider && a.status.inFlight).length

/-- A missing or blank provider, or one without a budget, has capacity. -/
def hasProviderCapacity (cfg : Config) (s : Db) (ws : WorkspaceId) : Option String → Bool
  | none => true
  | some provider =>
      if provider = "" then true
      else
        match cfg.providerBudget ws provider with
        | none => true
        | some maxConcurrent => decide (countInflight s ws provider < maxConcurrent)

def maxConcurrentAssignments (cfg : Config) (ws : WorkspaceId) : Nat :=
  match cfg.concurrencyLimit ws with
  | some limit => limit.maxConcurrentAssignments
  | none => 10

def inFlightCount (s : Db) (ws : WorkspaceId) : Nat :=
  (s.assignments.filter fun a => a.workspaceId == ws && a.status.inFlight).length

/-! ## Dispatching -/

inductive DispatchOutcome where
  | dispatched | idempotent | noWorker | backpressure | spendHold | skipped
  deriving DecidableEq, Repr

/-- The arguments of `dispatch_stage`. -/
structure DispatchArgs where
  workspaceId : WorkspaceId
  pipelineRunId : RunId
  stage : String
  attemptNumber : Nat
  provider : Option String := none
  priority : Option Int := none

def DispatchArgs.key (a : DispatchArgs) : IdempotencyKey :=
  ⟨a.pipelineRunId, a.stage, a.attemptNumber⟩

/-- `provider or "draft_desk"`. -/
def effectiveProvider : Option String → String
  | none => "draft_desk"
  | some p => if p = "" then "draft_desk" else p

/-- The answer of `dispatch_stage` for a run it must not dispatch. -/
def runRefusal : Option PipelineRun → Option DispatchOutcome
  | none => none
  | some run =>
      if run.status.isTerminal then some .skipped
      else if run.status = .paused then
        if run.pauseReason = some .spendHold then some .spendHold else some .skipped
      else none

/-- The assignment of the workspace under this key. -/
def assignmentByKey (s : Db) (ws : WorkspaceId) (key : IdempotencyKey) : Option StageAssignment :=
  s.assignments.find? fun a => a.workspaceId == ws && a.idempotencyKey == key

/-- One more assignment on a worker. -/
def WorkerRegistration.takeSlot (w : WorkerRegistration) : WorkerRegistration :=
  { w with
    currentLoad := w.currentLoad + 1
    status := if w.maxConcurrency ≤ w.currentLoad + 1 then .busy else w.status }

def newAssignment (cfg : Config) (now : Instant) (a : DispatchArgs) (stage : ContentStage)
    (worker : Option WorkerId) : StageAssignment :=
  { workspaceId := a.workspaceId
    pipelineRunId := a.pipelineRunId
    stage := stage
    attemptNumber := a.attemptNumber
    workerId := worker
    status := if worker.isSome then .dispatched else .pending
    idempotencyKey := a.key
    leaseExpiresAt := worker.map fun _ => now + seconds cfg.settings.assignmentLeaseSeconds
    leaseStartedAt := worker.map fun _ => now
    leaseExtensionCount := 0
    dispatchedAt := worker.map fun _ => now
    priority := a.priority.getD (workspacePriority cfg a.workspaceId)
    provider := some (effectiveProvider a.provider)
    createdAt := now
    updatedAt := now }

/-- Insert the assignment and take the worker's slot. -/
def insertAssignment (s : Db) (now : Instant) (new : StageAssignment) : Db :=
  let s := { s with assignments := s.assignments ++ [new] }
  let s := match new.workerId with
    | some wid => s.updateWorker wid WorkerRegistration.takeSlot
    | none => s
  s.emit now .stageAssigned new.workspaceId new.pipelineRunId

/-- The rest of `dispatch_stage`, when the run may be dispatched and the key is new. The
columns `stage` and `pipeline_run_id` only take a stage of the enumeration and a run of the
table. -/
def assignStage (cfg : Config) (s : Db) (now : Instant) (a : DispatchArgs)
    (worker : Option WorkerId) : Except Err (Db × DispatchOutcome) :=
  match ContentStage.ofText? a.stage, s.runs[a.pipelineRunId]? with
  | none, _ => .error (.invalidStage a.stage)
  | some _, none => .error .integrityError
  | some stage, some run =>
      match worker with
      -- a pending row reserves nothing: the claim does
      | none => .ok (insertAssignment s now (newAssignment cfg now a stage none), .noWorker)
      | some wid =>
          let reserved := reserveSpend s now a.pipelineRunId run.workspaceId stage
            (effectiveProvider a.provider) cfg.settings.defaultStageEstimateUsd
          match reserved.2 with
          | none => .ok (reserved.1, .spendHold)
          | some _ =>
              .ok (insertAssignment reserved.1 now (newAssignment cfg now a stage (some wid)),
                .dispatched)

/-- `dispatch_stage`. -/
def dispatchStage (cfg : Config) (s : Db) (now : Instant) (a : DispatchArgs)
    (rows : List WorkerId) : Except Err (Db × DispatchOutcome) :=
  if maxConcurrentAssignments cfg a.workspaceId ≤ inFlightCount s a.workspaceId then
    .ok (s, .backpressure)
  else
    match runRefusal s.runs[a.pipelineRunId]? with
    | some outcome => .ok (s, outcome)
    | none =>
        match assignmentByKey s a.workspaceId a.key with
        -- whatever the status of the row under the key
        | some _ => .ok (s, .idempotent)
        | none =>
            let worker :=
              if hasProviderCapacity cfg s a.workspaceId a.provider then
                (selectWorker s a.stage rows).map Prod.fst
              else none
            assignStage cfg s now a worker

/-! ## Leases -/

/-- `assert_lease_extendable`; `none` when it passes. -/
def leaseRefusal (cfg : Config) (a : StageAssignment) (wid : WorkerId) (now : Instant)
    (leaseSeconds : Nat) : Option Err :=
  if a.workerId ≠ some wid then some .leaseNotOwned
  else if ¬ a.status.inFlight then some (.leaseConflict "invalid_status")
  else if a.leaseExpiresAt.all (fun t => decide (t < now)) then
    some (.leaseConflict "lease_expired")
  else if (a.leaseStartedAt.getD (a.dispatchedAt.getD now))
      + seconds cfg.settings.assignmentMaxLeaseSeconds < now + seconds leaseSeconds then
    some (.leaseConflict "max_lease_exceeded")
  else none

/-- The lease fields after an extension. -/
def StageAssignment.extendLease (now : Instant) (leaseSeconds : Nat) (a : StageAssignment) :
    StageAssignment :=
  { a with
    leaseExpiresAt := some (now + seconds leaseSeconds)
    leaseStartedAt := some (a.leaseStartedAt.getD (a.dispatchedAt.getD now))
    leaseExtensionCount := a.leaseExtensionCount + 1 }

def StageAssignment.acknowledge (now : Instant) (leaseSeconds : Nat) (a : StageAssignment) :
    StageAssignment :=
  { a.extendLease now leaseSeconds with
    status := .acknowledged
    acknowledgedAt := some now }

/-- `acknowledge`; without a worker no check is made. -/
def acknowledge (cfg : Config) (s : Db) (now : Instant) (aid : AssignmentId)
    (leaseSeconds : Option Nat) (worker : Option WorkerId) : Except Err Db :=
  match s.assignments[aid]? with
  | none => .error .assignmentNotFound
  | some a =>
      let secs := leaseSeconds.getD cfg.settings.assignmentLeaseSeconds
      let refusal := worker.bind fun wid =>
        (leaseRefusal cfg a wid now secs).or
          (if a.status = .dispatched then none else some (.leaseConflict "invalid_status"))
      match refusal with
      | some e => .error e
      | none => .ok (s.updateAssignment now aid (StageAssignment.acknowledge now secs))

/-- `renew_lease`; without a worker no check is made. -/
def renewLease (cfg : Config) (s : Db) (now : Instant) (aid : AssignmentId)
    (leaseSeconds : Option Nat) (worker : Option WorkerId) : Except Err Db :=
  match s.assignments[aid]? with
  | none => .error .assignmentNotFound
  | some a =>
      let secs := leaseSeconds.getD cfg.settings.assignmentLeaseSeconds
      match worker.bind fun wid => leaseRefusal cfg a wid now secs with
      | some e => .error e
      | none => .ok (s.updateAssignment now aid (StageAssignment.extendLease now secs))

/-! ## Results -/

/-- The checks of `submit_result`; `none` when they pass. -/
def submitRefusal (a : StageAssignment) (worker : Option WorkerId) (now : Instant) : Option Err :=
  if worker.isSome ∧ a.workerId ≠ worker then some .leaseNotOwned
  else if ¬ a.status.inFlight then some (.leaseConflict "invalid_status")
  -- only a worker is held to its lease
  else if worker.isSome ∧ a.leaseExpiresAt.all (fun t => decide (t < now)) then
    some (.leaseConflict "lease_expired")
  else none

def StageAssignment.close (now : Instant) (success : Bool) (result : Option JsonObject)
    (a : StageAssignment) : StageAssignment :=
  { a with
    status := if success then .completed else .failed
    completedAt := some now
    result := result
    leaseExpiresAt := none
    leaseStartedAt := none }

/-- One assignment less on a worker, as `submit_result` counts. -/
def WorkerRegistration.returnSlot (w : WorkerRegistration) : WorkerRegistration :=
  if 0 < w.currentLoad then
    { w with
      currentLoad := w.currentLoad - 1
      status := if w.status = .busy ∧ w.currentLoad - 1 < w.maxConcurrency then .online
        else w.status }
  else w

/-- Free the slot of the assignment's worker, if it has one. -/
def freeSlot (s : Db) (worker : Option WorkerId) (f : WorkerRegistration → WorkerRegistration) :
    Db :=
  match worker with
  | some wid => s.updateWorker wid f
  | none => s

/-- The open reservation of a run and stage that was created last. -/
def latestOpenReservation (s : Db) (rid : RunId) (stage : ContentStage) : Option ReservationId :=
  ((openReservationsFor s rid stage).insertionSort fun i j =>
    ((s.reservations[j]?).map SpendReservation.createdAt).getD 0
      ≤ ((s.reservations[i]?).map SpendReservation.createdAt).getD 0).head?

/-- The cost a worker reports under `estimated_cost_usd`, or the default estimate. -/
def reportedCost (cfg : Config) (result : Option JsonObject) : Decimal :=
  let default := Decimal.finite (cfg.settings.defaultStageEstimateUsd : ℚ)
  match result.bind fun r => r.lookup "estimated_cost_usd" with
  | none => default
  | some .null => default
  | some v => (Decimal.ofJson v).getD default

/-- The assignment closed, the slot returned, and the stage run recorded. The unique index on
`(pipeline_run_id, stage, attempt_number)` refuses a second record. -/
def recordResult (s : Db) (now : Instant) (aid : AssignmentId) (a : StageAssignment)
    (run : PipelineRun) (success : Bool) (result : Option JsonObject) (errorMessage : String) :
    Except Err Db :=
  let s := s.updateAssignment now aid (StageAssignment.close now success result)
  let s := freeSlot s a.workerId WorkerRegistration.returnSlot
  if s.stageRuns.any fun r => r.pipelineRunId == a.pipelineRunId && r.stage == a.stage
      && r.attemptNumber == a.attemptNumber then .error .integrityError
  else
    .ok (Db.flush { s with stageRuns := s.stageRuns ++ [{
      workspaceId := a.workspaceId
      pipelineRunId := a.pipelineRunId
      contentItemId := run.contentItemId
      stage := a.stage
      attemptNumber := a.attemptNumber
      status := if success then .succeeded else .failed
      errorMessage := if success then none else some errorMessage
      startedAt := a.dispatchedAt
      completedAt := some now }] })

/-- A successful result: commit the spend and advance the run. -/
def submitSuccess (cfg : Config) (s : Db) (now : Instant) (a : StageAssignment)
    (run : PipelineRun) (result : Option JsonObject) : Call :=
  let s := s.emit now .stageCompleted a.workspaceId a.pipelineRunId
  let committed : Except Err Db := match latestOpenReservation s a.pipelineRunId a.stage with
    | none => .ok s
    | some resId =>
        commitSpend s now a.pipelineRunId run.workspaceId resId (reportedCost cfg result)
  match committed with
  | .error e => { db := s, raised := some e }
  | .ok s => handleStageSuccess cfg s now a.pipelineRunId a.stage (result.getD [])

/-- A failed result: release the spend and retry or fail. -/
def submitFailure (cfg : Config) (s : Db) (now : Instant) (a : StageAssignment)
    (run : PipelineRun) (errorMessage : String) (jitter : Nat) : Call :=
  let released := match latestOpenReservation s a.pipelineRunId a.stage with
    | none => s
    | some resId => releaseSpend s now a.pipelineRunId run.workspaceId resId
  Call.ofExcept s (handleStageFailure cfg released now a.pipelineRunId a.stage a.stage.formatted
    a.attemptNumber errorMessage jitter)

/-- `submit_result`. -/
def submitResult (cfg : Config) (s : Db) (now : Instant) (aid : AssignmentId) (success : Bool)
    (result : Option JsonObject) (errorMessage : String) (worker : Option WorkerId)
    (jitter : Nat) : Call :=
  match s.assignments[aid]? with
  | none => { db := s, raised := some .assignmentNotFound }
  | some a =>
      match submitRefusal a worker now with
      | some e => { db := s, raised := some e }
      | none =>
          match s.runs[a.pipelineRunId]? with
          | none =>
              -- the row is closed and the slot returned, and that is all
              { db := freeSlot (s.updateAssignment now aid
                  (StageAssignment.close now success result)) a.workerId
                  WorkerRegistration.returnSlot }
          | some run =>
              match recordResult s now aid a run success result errorMessage with
              | .error e => { db := s, raised := some e }
              | .ok s1 =>
                  if success then submitSuccess cfg s1 now a run result
                  else submitFailure cfg s1 now a run errorMessage jitter

/-- The result of a decoded submission as the database stores it. -/
def storedResult? : Option BodyFields → Option (Option JsonObject)
  | none => some none
  | some fields => (storedFields? fields).map some

/-- `submit_result` with the result as it was decoded. The flush that stores the result comes before
its cost is read, and raises if the database does not store it. -/
def submitDecoded (cfg : Config) (s : Db) (now : Instant) (aid : AssignmentId) (success : Bool)
    (body : Option BodyFields) (errorMessage : String) (worker : Option WorkerId) (jitter : Nat) :
    Call :=
  match storedResult? body with
  | some result => submitResult cfg s now aid success result errorMessage worker jitter
  | none =>
      let refusal := (s.assignments[aid]?).elim (some .assignmentNotFound) fun a =>
        submitRefusal a worker now
      { db := s, raised := some (refusal.getD .dataError) }

end HumanGate
