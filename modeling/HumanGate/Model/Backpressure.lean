import HumanGate.Lib.System
import HumanGate.Model.Scheduler

set_option autoImplicit false

/-! # Back-pressure

`app/orchestration/backpressure.py`: the depth of a workspace's queue is classified, the class is
kept in a row for each workspace, and a change of it is an event in the outbox. A maintenance pass
evaluates at most `batch_size` workspaces out of those that have pending assignments; the query has
no order, so the database decides which.
-/

namespace HumanGate

open Lib Lib.Calendar

/-! ## Tables -/

/-- The queue limits in a row of `workspace_concurrency_limits`, with its `CHECK`. -/
structure QueueLimits where
  queueSoftLimit : ℕ+
  queueHardLimit : Nat
  ordered : queueSoftLimit ≤ queueHardLimit

structure PressureConfig where
  queueSoftLimitDefault : ℕ+ := 50
  queueHardLimitDefault : ℕ+ := 200
  limit : WorkspaceId → Option QueueLimits := fun _ => none

structure WorkspaceBackpressureState where
  workspaceId : WorkspaceId
  state : BackpressureState
  pendingDepth : Nat
  enteredAt : Option Instant
  updatedAt : Instant

/-- `backpressure.entered` and `backpressure.cleared`. -/
inductive PressureEventType where
  | entered | cleared
  deriving DecidableEq

/-- The event of a workspace, with its payload. -/
structure PressureEvent where
  workspaceId : WorkspaceId
  eventType : PressureEventType
  state : BackpressureState
  previousState : BackpressureState
  pendingDepth : Nat
  softLimit : Nat
  hardLimit : Nat

structure PressureDb where
  assignments : List StageAssignment := []
  rows : List WorkspaceBackpressureState := []
  outbox : List PressureEvent := []

structure BackpressureSnapshot where
  workspaceId : WorkspaceId
  state : BackpressureState
  pendingDepth : Nat
  softLimit : Nat
  hardLimit : Nat
  changed : Bool

/-! ## One workspace -/

def classifyDepth (depth soft hard : Nat) : BackpressureState :=
  if hard ≤ depth then .throttled
  else if soft ≤ depth then .pressured
  else .normal

def pendingDepth (s : PressureDb) (ws : WorkspaceId) : Nat :=
  s.assignments.countP fun a => a.workspaceId == ws && a.status == .pending

/-- `_limits`, without the tick allowance, which this module does not use. -/
def queueLimits (cfg : PressureConfig) (ws : WorkspaceId) : Nat × Nat :=
  match cfg.limit ws with
  | none => (cfg.queueSoftLimitDefault, cfg.queueHardLimitDefault)
  | some row => (row.queueSoftLimit, row.queueHardLimit)

def PressureDb.row (s : PressureDb) (ws : WorkspaceId) : Option WorkspaceBackpressureState :=
  s.rows.find? fun row => row.workspaceId == ws

/-- `NORMAL` if there is no row. -/
def PressureDb.stateOf (s : PressureDb) (ws : WorkspaceId) : BackpressureState :=
  ((s.row ws).map WorkspaceBackpressureState.state).getD .normal

def enteredAt (now : Instant) (state : BackpressureState) : Option Instant :=
  if state = .normal then none else some now

/-- Insert or update the row of the workspace. -/
def PressureDb.upsert (s : PressureDb) (now : Instant) (ws : WorkspaceId)
    (state : BackpressureState)
    (depth : Nat) : PressureDb :=
  match s.row ws with
  | none =>
      { s with rows := s.rows ++ [{
          workspaceId := ws
          state := state
          pendingDepth := depth
          enteredAt := enteredAt now state
          updatedAt := now }] }
  | some _ =>
      { s with rows := s.rows.map fun row =>
          if row.workspaceId = ws then
            { row with
              state := state
              pendingDepth := depth
              enteredAt := if row.state = state then row.enteredAt else enteredAt now state
              updatedAt := now }
          else row }

def transitionType (state : BackpressureState) : PressureEventType :=
  if state = .normal then .cleared else .entered

def evaluateWorkspaceBackpressure (cfg : PressureConfig) (now : Instant) (s : PressureDb)
    (ws : WorkspaceId) : PressureDb × BackpressureSnapshot :=
  let limits := queueLimits cfg ws
  let depth := pendingDepth s ws
  let state := classifyDepth depth limits.1 limits.2
  let previous := s.stateOf ws
  let changed := previous != state
  let event : PressureEvent :=
    { workspaceId := ws
      eventType := transitionType state
      state := state
      previousState := previous
      pendingDepth := depth
      softLimit := limits.1
      hardLimit := limits.2 }
  let written := s.upsert now ws state depth
  ({ written with outbox := if changed then written.outbox ++ [event] else written.outbox },
    { workspaceId := ws
      state := state
      pendingDepth := depth
      softLimit := limits.1
      hardLimit := limits.2
      changed := changed })

/-! ## A pass -/

/-- The workspaces with pending assignments. -/
def pendingWorkspaces (s : PressureDb) : List WorkspaceId :=
  ((s.assignments.filter fun a => a.status == .pending).map StageAssignment.workspaceId).dedup

/-- What the grouped query with `LIMIT batch_size` may return. -/
structure Selected (s : PressureDb) (batchSize : Nat) (visited : List WorkspaceId) : Prop where
  nodup : visited.Nodup
  pending : ∀ ws ∈ visited, ws ∈ pendingWorkspaces s
  length : visited.length = min batchSize (pendingWorkspaces s).length

/-- `evaluate_all_active_workspaces`, for the workspaces that the query returned, each with the
instant of its evaluation. -/
def evaluateAllActiveWorkspaces (cfg : PressureConfig) :
    List (WorkspaceId × Instant) → PressureDb → PressureDb × List BackpressureSnapshot
  | [], s => (s, [])
  | (ws, now) :: rest, s =>
      let evaluated := evaluateWorkspaceBackpressure cfg now s ws
      let others := evaluateAllActiveWorkspaces cfg rest evaluated.1
      (others.1, evaluated.2 :: others.2)

/-- Halve the tick allowance of a throttled workspace, to at least 1. -/
def effectiveSchedulerTickLimit (s : PressureDb) (ws : WorkspaceId) (configured : Int) : Int :=
  if (s.row ws).map WorkspaceBackpressureState.state = some .throttled then max 1 (configured / 2)
  else configured

/-! ## Histories -/

/-- Assignments enter the table, change their status, and passes are made. -/
inductive QueueOp where
  | enqueue (a : StageAssignment)
  | setStatus (aid : AssignmentId) (status : StageAssignmentStatus)
  | evaluate (batchSize : Nat) (visited : List (WorkspaceId × Instant))

def StageAssignment.withStatus (status : StageAssignmentStatus) (a : StageAssignment) :
    StageAssignment :=
  { a with status := status }

def queueExec (cfg : PressureConfig) (s : PressureDb) : QueueOp → PressureDb
  | .enqueue a => { s with assignments := s.assignments ++ [a] }
  | .setStatus aid status =>
      { s with assignments := s.assignments.modify aid (StageAssignment.withStatus status) }
  | .evaluate _ visited => (evaluateAllActiveWorkspaces cfg visited s).1

def queueAllowed (s : PressureDb) : QueueOp → Prop
  | .evaluate batchSize visited => Selected s batchSize (visited.map Prod.fst)
  | _ => True

/-- Any history, from any queue that has not been evaluated yet. -/
def queuePressure (cfg : PressureConfig) : System PressureDb QueueOp where
  init s := s.rows = [] ∧ s.outbox = []
  allowed := queueAllowed
  exec := queueExec cfg

end HumanGate
