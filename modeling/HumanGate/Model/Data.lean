import HumanGate.Lib.Calendar
import HumanGate.Model.Json
import Mathlib.Data.NNRat.Defs

set_option autoImplicit false

/-! # The orchestration database

The rows of the orchestration tables (`app/models`), the enumerations of their columns and
the database `Db` they live in. A row's identifier is its position in its table
(`Lib/Table.lean`), so `uuid4` is "the next position". Columns that no modelled function reads
(tracing, versions, descriptive text) are left out.

Amounts of money are non-negative rationals: the columns `daily_cap_usd`, `monthly_cap_usd`,
`estimated_cost_usd` and `cost_usd` carry a `CHECK (... >= 0)`.
-/

namespace HumanGate

open Lib.Calendar

/-! ## Identifiers -/

abbrev WorkspaceId := Nat
abbrev UserId := Nat
abbrev DefinitionId := Nat
abbrev ItemId := Nat
abbrev VersionId := Nat
abbrev RunId := Nat
abbrev JobId := Nat
abbrev AssignmentId := Nat
abbrev WorkerId := Nat
abbrev GateId := Nat
abbrev ReservationId := Nat
abbrev EventId := Nat
abbrev ClaimToken := Nat

/-! ## Enumerations -/

inductive ContentStage where
  | idea | scripting | voiceover | visuals | rendering | seo | review | scheduled | published
  deriving DecidableEq, Repr

/-- The text of a stage, as job rows and worker registrations carry it. -/
def ContentStage.value : ContentStage → String
  | .idea => "idea"
  | .scripting => "scripting"
  | .voiceover => "voiceover"
  | .visuals => "visuals"
  | .rendering => "rendering"
  | .seo => "seo"
  | .review => "review"
  | .scheduled => "scheduled"
  | .published => "published"

/-- The text `f"{stage}"` of a member of the enumeration, which is not its value. -/
def ContentStage.formatted : ContentStage → String
  | .idea => "ContentStage.IDEA"
  | .scripting => "ContentStage.SCRIPTING"
  | .voiceover => "ContentStage.VOICEOVER"
  | .visuals => "ContentStage.VISUALS"
  | .rendering => "ContentStage.RENDERING"
  | .seo => "ContentStage.SEO"
  | .review => "ContentStage.REVIEW"
  | .scheduled => "ContentStage.SCHEDULED"
  | .published => "ContentStage.PUBLISHED"

/-- `ContentStage(text)`; `none` where it raises. -/
def ContentStage.ofText? : String → Option ContentStage
  | "idea" => some .idea
  | "scripting" => some .scripting
  | "voiceover" => some .voiceover
  | "visuals" => some .visuals
  | "rendering" => some .rendering
  | "seo" => some .seo
  | "review" => some .review
  | "scheduled" => some .scheduled
  | "published" => some .published
  | _ => none

@[simp] theorem ContentStage.ofText?_value (s : ContentStage) :
    ContentStage.ofText? s.value = some s := by
  cases s <;> rfl

theorem ContentStage.value_injective : Function.Injective ContentStage.value := by
  intro a b h
  have := congrArg ContentStage.ofText? h
  simpa using this

theorem ContentStage.value_of_ofText? {t : String} {s : ContentStage}
    (h : ContentStage.ofText? t = some s) : s.value = t := by
  unfold ContentStage.ofText? at h
  split at h <;> cases h <;> rfl

inductive PipelineRunStatus where
  | created | running | paused | compensating | succeeded | failed | cancelled
  deriving DecidableEq, Repr

/-- The statuses `succeeded`, `failed` and `cancelled`. -/
def PipelineRunStatus.isTerminal : PipelineRunStatus → Bool
  | .succeeded | .failed | .cancelled => true
  | _ => false

inductive PauseReason where
  | reviewGate | manual | spendHold
  deriving DecidableEq, Repr

inductive WorkflowTransitionTrigger where
  | onSuccess | onFailure | onReviewApproved | onReviewRejected
  deriving DecidableEq, Repr

inductive JobType where
  | stage | retry | stageTimeout | reviewTimeout | recurring | compensation
  deriving DecidableEq, Repr

inductive JobScheduleStatus where
  | pending | leased | done | cancelled
  deriving DecidableEq, Repr

inductive WorkerStatus where
  | online | busy | draining | offline
  deriving DecidableEq, Repr

inductive StageAssignmentStatus where
  | pending | dispatched | acknowledged | completed | failed | cancelled
  deriving DecidableEq, Repr

/-- `DISPATCHED` or `ACKNOWLEDGED`: a worker holds the assignment. -/
def StageAssignmentStatus.inFlight : StageAssignmentStatus → Bool
  | .dispatched | .acknowledged => true
  | _ => false

/-- Pending or in flight. -/
def StageAssignmentStatus.isOpen : StageAssignmentStatus → Bool
  | .pending | .dispatched | .acknowledged => true
  | _ => false

inductive ReviewGateStatus where
  | awaiting | approved | rejected | timedOut | escalated
  deriving DecidableEq, Repr

inductive ReviewDecisionValue where
  | approved | changesRequested | rejected
  deriving DecidableEq, Repr

inductive ReservationStatus where
  | reserved | committed | released
  deriving DecidableEq, Repr

inductive StageRunStatus where
  | succeeded | failed
  deriving DecidableEq, Repr

inductive OutboxEventStatus where
  | pending | dispatched | poison
  deriving DecidableEq, Repr

inductive DeadLetterStatus where
  | pending | resolved | discarded
  deriving DecidableEq, Repr

inductive ClaimOutcome where
  | granted | noWork | capacity | ineligible
  deriving DecidableEq, Repr

inductive RecoveryReason where
  | leaseExpired | workerOffline | workerDeregistered | workerRevoked | workerRestart
  | maxLeaseExceeded
  deriving DecidableEq, Repr

def RecoveryReason.value : RecoveryReason → String
  | .leaseExpired => "lease_expired"
  | .workerOffline => "worker_offline"
  | .workerDeregistered => "worker_deregistered"
  | .workerRevoked => "worker_revoked"
  | .workerRestart => "worker_restart"
  | .maxLeaseExceeded => "max_lease_exceeded"

inductive RecoveryOutcome where
  | requeued | deadLettered | skipped
  deriving DecidableEq, Repr

inductive BackpressureState where
  | normal | pressured | throttled
  deriving DecidableEq, Repr

/-- The event types the modelled functions emit (`events/types.py`). -/
inductive EventType where
  | pipelineCancelled | pipelineFailed | pipelineSucceeded
  | stageAssigned | stageReassigned | stageCompleted | stageFailed
  | reviewRequested | reviewApproved | reviewRejected | reviewTimedOut | reviewEscalated
  | spendReserved | spendCommitted | spendReleased | spendBudgetExceeded
  deriving DecidableEq, Repr

/-! ## Workflow definitions -/

/-- `max_attempts` is a natural number: a negative value allows no more attempts than 0. -/
structure WorkflowStage where
  stageKey : ContentStage
  ordinal : Int
  maxAttempts : Nat := 3
  backoffBaseSeconds : Nat := 5
  backoffMultiplier : Nat := 2
  backoffMaxSeconds : Nat := 300
  timeoutSeconds : Nat := 600
  isReviewGate : Bool := false
  isTerminal : Bool := false
  compensationStageKey : Option ContentStage := none

structure WorkflowTransition where
  fromStage : ContentStage
  toStage : ContentStage
  trigger : WorkflowTransitionTrigger
  condition : Option Condition := none
  priority : Int := 0

/-- One immutable version of a workflow. The unique index on `(definition_id, stage_key)`
is a field. -/
structure WorkflowDefinition where
  stages : List WorkflowStage
  transitions : List WorkflowTransition
  stages_unique : (stages.map WorkflowStage.stageKey).Nodup

/-! ## Rows -/

structure ContentItem where
  workspaceId : WorkspaceId
  currentVersionId : Option VersionId

structure ContentVersion where
  contentItemId : ItemId
  scriptHook : Option String
  scriptBody : Option String
  scriptCta : Option String

structure PipelineRun where
  workspaceId : WorkspaceId
  contentItemId : ItemId
  currentStage : ContentStage
  status : PipelineRunStatus
  pauseReason : Option PauseReason := none
  definitionId : Option DefinitionId := none
  startedAt : Option Instant := none
  completedAt : Option Instant := none
  deriving DecidableEq

structure PipelineStageRun where
  workspaceId : WorkspaceId
  pipelineRunId : RunId
  contentItemId : ItemId
  stage : ContentStage
  attemptNumber : Nat
  status : StageRunStatus
  errorMessage : Option String
  startedAt : Option Instant
  completedAt : Option Instant

/-- What `job_schedule.ref_id` identifies. -/
inductive RefId where
  | run (id : RunId)
  | gate (id : GateId)
  deriving DecidableEq

structure JobSchedule where
  workspaceId : WorkspaceId
  jobType : JobType
  refTable : String
  refId : RefId
  runAfter : Instant
  status : JobScheduleStatus := .pending
  leaseExpiresAt : Option Instant := none
  attempt : Nat := 0
  priority : Int := 0
  createdAt : Instant
  deriving DecidableEq

/-- The text `f"{pipeline_run_id}:{stage}:{attempt_number}"`. -/
structure IdempotencyKey where
  pipelineRunId : RunId
  stage : String
  attemptNumber : Nat
  deriving DecidableEq

structure StageAssignment where
  workspaceId : WorkspaceId
  pipelineRunId : RunId
  stage : ContentStage
  attemptNumber : Nat
  workerId : Option WorkerId
  status : StageAssignmentStatus
  idempotencyKey : IdempotencyKey
  leaseExpiresAt : Option Instant
  leaseStartedAt : Option Instant
  leaseExtensionCount : Nat
  dispatchedAt : Option Instant
  acknowledgedAt : Option Instant := none
  completedAt : Option Instant := none
  result : Option JsonObject := none
  claimedAt : Option Instant := none
  claimedBy : Option WorkerId := none
  claimCount : Nat := 0
  claimToken : Option ClaimToken := none
  priority : Int
  provider : Option String
  createdAt : Instant
  updatedAt : Instant

structure WorkerRegistration where
  workspaceId : Option WorkspaceId
  supportedStages : List String
  status : WorkerStatus
  maxConcurrency : Nat
  currentLoad : Nat
  healthScore : Nat
  lastHeartbeatAt : Option Instant
  drain : Bool
  deregisteredAt : Option Instant

structure ReviewGate where
  workspaceId : WorkspaceId
  pipelineRunId : RunId
  contentVersionId : Option VersionId
  stage : ContentStage
  status : ReviewGateStatus := .awaiting
  requestedAt : Instant
  timeoutAt : Option Instant
  decidedAt : Option Instant := none
  decidedBy : Option UserId := none
  escalationLevel : Nat := 0
  deriving DecidableEq

structure ReviewDecision where
  workspaceId : WorkspaceId
  contentItemId : ItemId
  reviewerId : UserId
  decision : ReviewDecisionValue
  notes : Option String
  deriving DecidableEq

/-- A cap row; `provider = none` is the workspace-wide cap. -/
structure SpendCap where
  workspaceId : WorkspaceId
  provider : Option String
  dailyCapUsd : ℚ≥0
  monthlyCapUsd : ℚ≥0

/-- An amount in whole dollars. -/
def usd (dollars : Nat) : ℚ≥0 := dollars

/-- A workspace-wide cap for workspace 0, in whole dollars. -/
def wideCap (daily monthly : Nat) : SpendCap := ⟨0, none, usd daily, usd monthly⟩

structure SpendReservation where
  workspaceId : WorkspaceId
  pipelineRunId : Option RunId
  provider : String
  stage : Option ContentStage
  estimatedCostUsd : ℚ≥0
  status : ReservationStatus
  createdAt : Instant

structure SpendLog where
  workspaceId : WorkspaceId
  provider : String
  stage : Option ContentStage
  costUsd : ℚ≥0
  occurredAt : Instant

/-- What a dead-letter entry's `(related_table, related_id)` identifies. -/
inductive RelatedId where
  | pipelineRun (id : RunId)
  | stageAssignment (id : AssignmentId)
  | jobSchedule (id : JobId)
  | outboxEvent (id : EventId)
  deriving DecidableEq

structure DeadLetterJob where
  workspaceId : WorkspaceId
  relatedId : RelatedId
  jobType : String
  failureReason : String
  attemptCount : Nat
  firstFailedAt : Instant
  lastFailedAt : Instant
  status : DeadLetterStatus := .pending

/-- An outbox event of a pipeline run. Of the payload only `review_gate_id` is ever read. -/
structure OutboxEvent where
  eventType : EventType
  workspaceId : WorkspaceId
  aggregateId : RunId
  sequence : Nat
  reviewGateId : Option GateId
  occurredAt : Instant
  status : OutboxEventStatus := .pending
  deliveryAttempts : Nat := 0

structure StageClaimAudit where
  workspaceId : WorkspaceId
  assignmentId : Option AssignmentId
  workerId : WorkerId
  outcome : ClaimOutcome
  stage : Option ContentStage
  detail : String

structure StageRecoveryAudit where
  workspaceId : WorkspaceId
  assignmentId : AssignmentId
  previousWorkerId : Option WorkerId
  reason : RecoveryReason
  previousStatus : StageAssignmentStatus
  previousAttempt : Nat
  newAttempt : Option Nat
  outcome : RecoveryOutcome
  detail : Option String

/-! ## The database -/

/-- The tables. `gateColumn` is the `status` column of `review_gates` as last flushed: the
sessions run with `autoflush=False`, so until the next flush a query still sees the old value
of a changed gate. `lastSequence` is the checkpoint of the consumer `pipeline-controller`. -/
structure Db where
  items : List ContentItem := []
  versions : List ContentVersion := []
  runs : List PipelineRun := []
  stageRuns : List PipelineStageRun := []
  jobs : List JobSchedule := []
  assignments : List StageAssignment := []
  workers : List WorkerRegistration := []
  gates : List ReviewGate := []
  gateColumn : List ReviewGateStatus := []
  decisions : List ReviewDecision := []
  caps : List SpendCap := []
  reservations : List SpendReservation := []
  logs : List SpendLog := []
  outbox : List OutboxEvent := []
  lastSequence : RunId → Nat := fun _ => 0
  deadLetters : List DeadLetterJob := []
  claimAudit : List StageClaimAudit := []
  recoveryAudit : List StageRecoveryAudit := []
  backpressure : List (WorkspaceId × BackpressureState) := []

/-! ## Configuration -/

/-- The settings the modelled functions read (`core/config.py`). -/
structure Settings where
  assignmentLeaseSeconds : Nat := 60
  assignmentMaxLeaseSeconds : Nat := 900
  assignmentReaperBatchSize : Nat := 100
  assignmentDefaultMaxAttempts : Nat := 3
  assignmentAgeBoostIntervalSeconds : Nat := 60
  assignmentAgeBoostPerInterval : Nat := 1
  assignmentAgeBoostMax : Nat := 100
  workspaceTierPriorityWeight : Nat := 10
  workerOfflineAfterSeconds : Nat := 90
  workerCapabilityProtocolVersions : List Nat := [1]
  defaultStageEstimateUsd : ℚ≥0 := 1 / 100

structure WorkspaceConcurrencyLimit where
  maxConcurrentAssignments : Nat := 10
  maxPerSchedulerTick : Int := 5

/-- What the orchestration reads and never writes: settings, workflow definitions (immutable
per version), concurrency limits, provider budgets and workspace tiers. -/
structure Config where
  settings : Settings := {}
  definition : DefinitionId → Option WorkflowDefinition := fun _ => none
  concurrencyLimit : WorkspaceId → Option WorkspaceConcurrencyLimit := fun _ => none
  providerBudget : WorkspaceId → String → Option Nat := fun _ _ => none
  priorityTier : WorkspaceId → Option Nat := fun _ => none

/-! ## Exceptions -/

/-- What the modelled functions raise. -/
inductive Err where
  | noDefinition (run : RunId)
  | noStages
  | noStageRow (stage : String)
  | noMatchingTransition (stage : ContentStage) (trigger : WorkflowTransitionTrigger)
  | condition (e : PyError)
  | terminalRun (status : PipelineRunStatus)
  | noContentItem (run : RunId)
  | gateWithoutRun (gate : GateId)
  | gateNotAwaiting (gate : GateId)
  | gateNotFound
  | payloadWithoutGate
  | gateWithoutVersion
  | gateContentChanged
  | decisionNotApplied
  | assignmentNotFound
  | jobNotFound
  | notCommittable (status : ReservationStatus)
  | negativeCost
  | invalidOperation
  | leaseNotOwned
  | leaseConflict (code : String)
  | multipleResultsFound
  | integrityError
  | dataError
  | invalidStage (text : String)
  | notImplemented
  deriving DecidableEq

/-- `str(exc)`, for the exceptions whose text is stored in a dead-letter entry. -/
def Err.message : Err → String
  | .noDefinition run => s!"pipeline run {run} has no definition_id pinned"
  | .noStageRow stage => s!"workflow_stages has no row for stage {stage}"
  | .noMatchingTransition .. => "no matching transition"
  | .condition (.unsupportedOperator op) => s!"unsupported condition operator: {op}"
  | .condition .typeError => "TypeError"
  | .terminalRun _ => "cannot open review gate on terminal run"
  | .noContentItem run => s!"pipeline run {run} has no content item"
  | .gateWithoutRun gate => s!"review_gate {gate} has no pipeline_run"
  | .payloadWithoutGate => "'review_gate_id'"
  | .multipleResultsFound => "MultipleResultsFound"
  | _ => "error"

/-! ## Writing rows -/

namespace Db

/-- `session.flush()`: from here on queries see the gates as they are. -/
def flush (s : Db) : Db := { s with gateColumn := s.gates.map ReviewGate.status }

def updateRun (s : Db) (rid : RunId) (f : PipelineRun → PipelineRun) : Db :=
  { s with runs := s.runs.modify rid f }

def updateJob (s : Db) (jid : JobId) (f : JobSchedule → JobSchedule) : Db :=
  { s with jobs := s.jobs.modify jid f }

/-- Every `UPDATE` of an assignment sets `updated_at`. -/
def updateAssignment (s : Db) (now : Instant) (aid : AssignmentId)
    (f : StageAssignment → StageAssignment) : Db :=
  { s with assignments := s.assignments.modify aid fun a => { f a with updatedAt := now } }

def updateWorker (s : Db) (wid : WorkerId) (f : WorkerRegistration → WorkerRegistration) : Db :=
  { s with workers := s.workers.modify wid f }

def updateGate (s : Db) (gid : GateId) (f : ReviewGate → ReviewGate) : Db :=
  { s with gates := s.gates.modify gid f }

/-- `COALESCE(MAX(sequence), 0) + 1` over the run's events. -/
def nextSequence (s : Db) (rid : RunId) : Nat :=
  ((s.outbox.filter fun e => e.aggregateId = rid).map OutboxEvent.sequence).foldr max 0 + 1

/-- `outbox.emit`: insert one event of the run `rid` and flush. -/
def emit (s : Db) (now : Instant) (eventType : EventType) (ws : WorkspaceId) (rid : RunId)
    (reviewGateId : Option GateId := none) : Db :=
  flush { s with outbox := s.outbox ++ [{
    eventType := eventType
    workspaceId := ws
    aggregateId := rid
    sequence := s.nextSequence rid
    reviewGateId := reviewGateId
    occurredAt := now }] }

end Db

end HumanGate
