import HumanGate.Lib.Table
import HumanGate.Model.Data

set_option autoImplicit false

/-! # Spend protection

`app/orchestration/controller.py`, the spend hooks: the sum a cap is compared with, the cap
row that governs a reservation, and the life of a reservation (reserve, commit, release).
Functions that take the run object in the source take its identifier `rid` and its workspace
`ws` here; that is all they read of it.
-/

namespace HumanGate

open Lib Lib.Calendar

/-! ## The usage figure -/

/-- The `WHERE` clause of the sum over `spend_logs`. -/
def logCounts (ws : WorkspaceId) (provider : Option String) (since : Option Instant)
    (l : SpendLog) : Bool :=
  l.workspaceId == ws && since.all (fun t => decide (t ≤ l.occurredAt))
    && provider.all (fun p => l.provider == p)

/-- The `WHERE` clause of the sum over open `spend_reservations`. -/
def reservationCounts (ws : WorkspaceId) (provider : Option String) (r : SpendReservation) :
    Bool :=
  r.workspaceId == ws && r.status == .reserved && provider.all (fun p => r.provider == p)

/-- The first `SELECT` of `spend_committed_plus_reserved`. -/
def committedSum (logs : List SpendLog) (ws : WorkspaceId) (provider : Option String)
    (since : Option Instant) : ℚ≥0 :=
  Table.total (logCounts ws provider since) SpendLog.costUsd logs

/-- The second `SELECT` of `spend_committed_plus_reserved`. -/
def reservedSum (reservations : List SpendReservation) (ws : WorkspaceId)
    (provider : Option String) : ℚ≥0 :=
  Table.total (reservationCounts ws provider) SpendReservation.estimatedCostUsd reservations

def spendCommittedPlusReserved (s : Db) (ws : WorkspaceId) (provider : Option String)
    (since : Option Instant) : ℚ≥0 :=
  committedSum s.logs ws provider since + reservedSum s.reservations ws provider

/-- The provider's own cap row if there is one, else the workspace-wide row. -/
def loadSpendCapForUpdate (s : Db) (ws : WorkspaceId) (provider : String) : Option SpendCap :=
  match s.caps.find? (fun c => c.workspaceId == ws && c.provider == some provider) with
  | some cap => some cap
  | none => s.caps.find? (fun c => c.workspaceId == ws && c.provider == none)

/-! ## Reserve, commit, release -/

/-- The values of `cap_kind` in the event `spend.budget_exceeded`. -/
inductive CapKind where
  | missingCap | daily | monthly
  deriving DecidableEq

/-- The two comparisons of `reserve_spend`, given the two usage figures. -/
def capExceeded (cap : SpendCap) (daily monthly estimate : ℚ≥0) : Option CapKind :=
  if cap.dailyCapUsd < daily + estimate then some .daily
  else if cap.monthlyCapUsd < monthly + estimate then some .monthly
  else none

/-- A workspace-wide cap aggregates all providers, a provider's cap only its own. -/
def usageProvider (cap : SpendCap) (provider : String) : Option String :=
  cap.provider.map fun _ => provider

/-- Which cap, if any, a reservation of `estimate` would exceed. A missing cap row blocks. -/
def exceededCap (s : Db) (now : Instant) (ws : WorkspaceId) (provider : String)
    (estimate : ℚ≥0) : Option CapKind :=
  match loadSpendCapForUpdate s ws provider with
  | none => some .missingCap
  | some cap =>
      capExceeded cap
        (spendCommittedPlusReserved s ws (usageProvider cap provider) (some (dayStart now)))
        (spendCommittedPlusReserved s ws (usageProvider cap provider) (some (monthStart now)))
        estimate

def SpendReservation.withStatus (status : ReservationStatus) (r : SpendReservation) :
    SpendReservation :=
  { r with status := status }

def releaseSpend (s : Db) (now : Instant) (rid : RunId) (ws : WorkspaceId)
    (resId : ReservationId) : Db :=
  match s.reservations[resId]? with
  | none => s
  | some r =>
      if r.status = .reserved then
        Db.emit { s with reservations :=
          s.reservations.modify resId (SpendReservation.withStatus .released) }
          now .spendReleased ws rid
      else s

def releaseEach (s : Db) (now : Instant) (rid : RunId) (ws : WorkspaceId) :
    List ReservationId → Db
  | [] => s
  | resId :: rest => releaseEach (releaseSpend s now rid ws resId) now rid ws rest

/-- The open reservations of a run, for one stage. -/
def openReservationsFor (s : Db) (rid : RunId) (stage : ContentStage) : List ReservationId :=
  Table.select (fun r => r.pipelineRunId == some rid && r.stage == some stage
    && r.status == .reserved) s.reservations

/-- The open reservations of a run. -/
def openReservations (s : Db) (rid : RunId) : List ReservationId :=
  Table.select (fun r => r.pipelineRunId == some rid && r.status == .reserved) s.reservations

def releaseAllReservations (s : Db) (now : Instant) (rid : RunId) (ws : WorkspaceId) : Db :=
  releaseEach s now rid ws (openReservations s rid)

/-- The run as `reserve_spend` leaves it when a cap is exceeded. -/
def PipelineRun.holdForSpend (run : PipelineRun) : PipelineRun :=
  { run with status := .paused, pauseReason := some .spendHold }

/-- The end of `reserve_spend`: hold the run, or insert the reservation. -/
def recordReservation (s : Db) (now : Instant) (rid : RunId) (ws : WorkspaceId)
    (stage : ContentStage) (provider : String) (estimate : ℚ≥0) :
    Option CapKind → Db × Option ReservationId
  | some _ =>
      ((s.updateRun rid PipelineRun.holdForSpend).emit now .spendBudgetExceeded ws rid, none)
  | none =>
      (Db.emit { s with reservations := s.reservations ++ [{
          workspaceId := ws
          pipelineRunId := some rid
          provider := provider
          stage := some stage
          estimatedCostUsd := estimate
          status := .reserved
          createdAt := now }] } now .spendReserved ws rid,
        some s.reservations.length)

/-- Reserve an estimate for a stage of a run. `none` (and a paused run) when a cap would be
exceeded. Earlier open reservations of the same run and stage are released first. -/
def reserveSpend (s : Db) (now : Instant) (rid : RunId) (ws : WorkspaceId)
    (stage : ContentStage) (provider : String) (estimate : ℚ≥0) :
    Db × Option ReservationId :=
  let s := releaseEach s now rid ws (openReservationsFor s rid stage)
  recordReservation s now rid ws stage provider estimate (exceededCap s now ws provider estimate)

/-- The reported cost, not above the reservation. Ordering a NaN raises. -/
def settledCost (reserved : ℚ≥0) : Decimal → Except Err ℚ≥0
  | .nan => .error .invalidOperation
  | .infinity true => .error .negativeCost
  | .infinity false => .ok reserved
  | .finite q =>
      if q < 0 then .error .negativeCost
      else if (reserved : ℚ) < q then .ok reserved
      else .ok q.toNNRat

def commitSpend (s : Db) (now : Instant) (rid : RunId) (ws : WorkspaceId)
    (resId : ReservationId) (actual : Decimal) : Except Err Db :=
  match s.reservations[resId]? with
  | none => .ok s
  | some r =>
      match r.status with
      -- a second commit of one reservation is a no-op
      | .committed => .ok s
      | .released => .error (.notCommittable .released)
      | .reserved =>
          match settledCost r.estimatedCostUsd actual with
          | .error e => .error e
          | .ok cost =>
              .ok (Db.emit { s with
                reservations :=
                  s.reservations.modify resId (SpendReservation.withStatus .committed)
                -- only a commit writes to the usage log
                logs := s.logs ++ [{
                  workspaceId := ws
                  provider := r.provider
                  stage := r.stage
                  costUsd := cost
                  occurredAt := now }] } now .spendCommitted ws rid)

/-! ## What the spend functions leave alone

`Db.core` forgets the ledger tables, the outbox and the flushed column. Releasing and
committing do not touch the rest at all; reserving touches one run, when it is held. -/

/-- The database without the ledger, the outbox and the flushed gate column. -/
def Db.core (s : Db) : Db :=
  { s with reservations := [], logs := [], outbox := [], gateColumn := [] }

@[simp] theorem core_emit (s : Db) (now : Instant) (e : EventType) (ws : WorkspaceId)
    (rid : RunId) (g : Option GateId) : (s.emit now e ws rid g).core = s.core := rfl

@[simp] theorem core_releaseSpend (s : Db) (now : Instant) (rid : RunId) (ws : WorkspaceId)
    (resId : ReservationId) : (releaseSpend s now rid ws resId).core = s.core := by
  unfold releaseSpend
  split
  · rfl
  · split <;> rfl

@[simp] theorem core_releaseEach (now : Instant) (rid : RunId) (ws : WorkspaceId)
    (ids : List ReservationId) : ∀ s : Db, (releaseEach s now rid ws ids).core = s.core := by
  induction ids with
  | nil => intro s; rfl
  | cons resId rest ih =>
      intro s
      rw [releaseEach, ih, core_releaseSpend]

@[simp] theorem core_releaseAllReservations (s : Db) (now : Instant) (rid : RunId)
    (ws : WorkspaceId) : (releaseAllReservations s now rid ws).core = s.core :=
  core_releaseEach now rid ws _ s

theorem core_commitSpend {s s' : Db} {now : Instant} {rid : RunId} {ws : WorkspaceId}
    {resId : ReservationId} {actual : Decimal}
    (h : commitSpend s now rid ws resId actual = .ok s') : s'.core = s.core := by
  unfold commitSpend at h
  split at h
  · cases h; rfl
  · split at h
    · cases h; rfl
    · cases h
    · split at h
      · cases h
      · cases h; rfl

/-- Everything but the ledger after a reservation: unchanged when it is granted, the run
held when it is not. -/
theorem core_reserveSpend (s : Db) (now : Instant) (rid : RunId) (ws : WorkspaceId)
    (stage : ContentStage) (provider : String) (estimate : ℚ≥0) :
    ((reserveSpend s now rid ws stage provider estimate).2 = none ∧
      (reserveSpend s now rid ws stage provider estimate).1.core
        = (s.updateRun rid PipelineRun.holdForSpend).core) ∨
    ((reserveSpend s now rid ws stage provider estimate).2.isSome ∧
      (reserveSpend s now rid ws stage provider estimate).1.core = s.core) := by
  have hc := core_releaseEach now rid ws (openReservationsFor s rid stage) s
  unfold reserveSpend recordReservation
  simp only
  split
  · left
    refine ⟨rfl, ?_⟩
    -- holding the run does not look at the ledger
    have hold : ∀ t : Db, (t.updateRun rid PipelineRun.holdForSpend).core
        = t.core.updateRun rid PipelineRun.holdForSpend := fun _ => rfl
    simp only [core_emit, hold, hc]
  · right
    exact ⟨rfl, hc⟩

end HumanGate
