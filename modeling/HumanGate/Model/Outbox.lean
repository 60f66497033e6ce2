import HumanGate.Lib.System
import HumanGate.Model.Controller

set_option autoImplicit false

/-! # The outbox

`app/orchestration/outbox.py` at the level of its statements: the advisory lock, the query for
the next number and the insert. `emitters` is any number of transactions that call `emit` in
sessions that see every row. `emitIn` is `emit` in the session of a user, under the row-level
policies of `outbox_events` as they are after migration 0052.
-/

namespace HumanGate

open Lib Lib.Calendar

/-! ## Rows and numbers -/

/-- `aggregate_type` and `aggregate_id`. -/
structure Aggregate where
  aggregateType : String
  aggregateId : Nat
  deriving DecidableEq

/-- The text whose hash is locked. -/
def Aggregate.lockText (agg : Aggregate) : String :=
  agg.aggregateType ++ ":" ++ toString agg.aggregateId

/-- The columns that the numbering and the policies read. The others are stored as given. -/
structure OutboxRow where
  workspaceId : WorkspaceId
  aggregate : Aggregate
  sequence : Nat
  deriving DecidableEq

/-- The numbers of an aggregate, in the order of the rows. -/
def sequencesOf (rows : List OutboxRow) (agg : Aggregate) : List Nat :=
  (rows.filter fun r => r.aggregate == agg).map OutboxRow.sequence

/-- `COALESCE(MAX(sequence), 0)`. -/
def maxSequence (rows : List OutboxRow) (agg : Aggregate) : Nat :=
  (sequencesOf rows agg).foldr max 0

/-- What `_next_sequence` computes from the rows that it sees. -/
def nextSequence (rows : List OutboxRow) (agg : Aggregate) : Nat := maxSequence rows agg + 1

/-- `uq_outbox_events_aggregate_sequence`. -/
def sequenceTaken (rows : List OutboxRow) (agg : Aggregate) (sequence : Nat) : Bool :=
  (sequencesOf rows agg).contains sequence

/-! ## Transactions that emit -/

/-- The statement of `emit` that is next. -/
inductive EmitStep where
  | lock
  | number
  | insert (sequence : Nat)

/-- A call of `emit` that has not returned. -/
structure EmitCall where
  workspaceId : WorkspaceId
  aggregate : Aggregate
  step : EmitStep

/-- A transaction: the locks it holds, the rows it has inserted, and the call it is in. -/
structure EmitTxn where
  isOpen : Bool := true
  locks : List Int := []
  inserted : List OutboxRow := []
  call : Option EmitCall := none

/-- A transaction that is over. Its locks are released, and its rows are committed or gone. -/
def EmitTxn.closed : EmitTxn := { isOpen := false }

/-- What each transaction has committed, in the order of the commits, and the transactions. -/
structure OutboxState where
  commits : List (List OutboxRow) := []
  txns : List EmitTxn := []

def OutboxState.rows (s : OutboxState) : List OutboxRow := s.commits.flatten

/-- The next statement of a call, over the committed rows. A number that is taken makes the
insert fail, and the transaction is rolled back. -/
def EmitTxn.next (hashtext : String → Int) (rows : List OutboxRow) (t : EmitTxn) (c : EmitCall) :
    EmitTxn :=
  match c.step with
  | .lock =>
      { t with
        locks := hashtext c.aggregate.lockText :: t.locks
        call := some { c with step := .number } }
  | .number =>
      { t with
        call := some { c with step := .insert (nextSequence (rows ++ t.inserted) c.aggregate) } }
  | .insert sequence =>
      if sequenceTaken (rows ++ t.inserted) c.aggregate sequence then .closed
      else
        { t with
          inserted := t.inserted ++ [⟨c.workspaceId, c.aggregate, sequence⟩]
          call := none }

inductive OutboxAction where
  | begin
  | emit (i : Nat) (ws : WorkspaceId) (agg : Aggregate)
  | statement (i : Nat)
  | commit (i : Nat)
  | rollback (i : Nat)

/-- `emit` is awaited: a transaction is in one call at a time, and commits outside of calls. -/
def outboxExec (hashtext : String → Int) (s : OutboxState) : OutboxAction → OutboxState
  | .begin => { s with txns := s.txns ++ [{}] }
  | .emit i ws agg =>
      { s with txns := s.txns.modify i fun t =>
          if t.isOpen ∧ t.call.isNone then { t with call := some ⟨ws, agg, .lock⟩ } else t }
  | .statement i =>
      { s with txns := s.txns.modify i fun t =>
          match t.call with
          | none => t
          | some c => t.next hashtext s.rows c }
  | .commit i =>
      match s.txns[i]? with
      | none => s
      | some t =>
          if t.isOpen ∧ t.call.isNone then
            { commits := s.commits ++ [t.inserted]
              txns := s.txns.modify i fun _ => .closed }
          else s
  | .rollback i => { s with txns := s.txns.modify i fun _ => .closed }

/-- The next statement of the call has to wait for the transaction `u`: for a lock it holds, or
for a number it has inserted. -/
def EmitTxn.blocks (hashtext : String → Int) (c : EmitCall) (u : EmitTxn) : Bool :=
  match c.step with
  | .lock => u.locks.contains (hashtext c.aggregate.lockText)
  | .number => false
  | .insert sequence => sequenceTaken u.inserted c.aggregate sequence

def outboxAllowed (hashtext : String → Int) (s : OutboxState) : OutboxAction → Prop
  | .statement i => ∀ t ∈ s.txns[i]?, ∀ c ∈ t.call, ∀ p ∈ s.txns.zipIdx, p.2 ≠ i →
      p.1.blocks hashtext c = false
  | _ => True

/-- Any number of transactions that emit, interleaved in any way. -/
def emitters (hashtext : String → Int) : System OutboxState OutboxAction where
  init s := s = {}
  allowed s a := outboxAllowed hashtext s a
  exec := outboxExec hashtext

/-! ## Sessions of users -/

inductive WorkspaceRole where
  | admin | editor | reviewer
  deriving DecidableEq, Repr

structure WorkspaceMembership where
  workspaceId : WorkspaceId
  userId : UserId
  role : WorkspaceRole

/-- The session of a request: the user, and the memberships the policies look up. -/
structure UserSession where
  userId : UserId
  memberships : List WorkspaceMembership

/-- `app_user_has_workspace_role`. -/
def UserSession.hasWorkspaceRole (u : UserSession) (ws : WorkspaceId)
    (roles : List WorkspaceRole) : Bool :=
  u.memberships.any fun m => m.workspaceId == ws && m.userId == u.userId && roles.contains m.role

/-- `outbox_events_select_member`, from migration 0015. -/
def UserSession.sees (u : UserSession) (row : OutboxRow) : Bool :=
  u.hasWorkspaceRole row.workspaceId [.admin, .editor]

/-- `outbox_events_insert_roles`, from migration 0052. -/
def UserSession.mayInsert (u : UserSession) (ws : WorkspaceId) : Bool :=
  u.hasWorkspaceRole ws [.admin, .editor, .reviewer]

/-- Why a session fails. -/
inductive SessionError where
  | rowSecurity
  | uniqueViolation
  | refused (e : Err)
  deriving DecidableEq

/-- `emit` in the session of a user: the row it inserts. The policies hide rows from the query
but not from the unique index. -/
def emitRow (u : UserSession) (rows : List OutboxRow) (ws : WorkspaceId) (agg : Aggregate) :
    Except SessionError OutboxRow :=
  let sequence := nextSequence (rows.filter u.sees) agg
  if u.mayInsert ws = false then .error .rowSecurity
  else if sequenceTaken rows agg sequence then .error .uniqueViolation
  else .ok ⟨ws, agg, sequence⟩

/-! ## A decision in the reviewer's session -/

/-- The events of the orchestration are about pipeline runs. -/
def runAggregate (rid : RunId) : Aggregate := ⟨"pipeline_run", rid⟩

def OutboxEvent.row (e : OutboxEvent) : OutboxRow :=
  ⟨e.workspaceId, runAggregate e.aggregateId, e.sequence⟩

def Db.outboxRows (s : Db) : List OutboxRow := s.outbox.map OutboxEvent.row

/-- `emit` for an event of a run, in the session of a user. -/
def Db.emitIn (s : Db) (u : UserSession) (now : Instant) (eventType : EventType)
    (ws : WorkspaceId) (rid : RunId) (reviewGateId : Option GateId) : Except SessionError Db :=
  match emitRow u s.outboxRows ws (runAggregate rid) with
  | .error e => .error e
  | .ok row =>
      .ok (Db.flush { s with outbox := s.outbox ++ [{
        eventType := eventType
        workspaceId := row.workspaceId
        aggregateId := rid
        sequence := row.sequence
        reviewGateId := reviewGateId
        occurredAt := now }] })

/-- `submit_review_decision` in the session of a user. -/
def submitReviewDecisionIn (u : UserSession) (s : Db) (now : Instant) (gid : GateId)
    (reviewer : UserId) (approved : Bool) (notes : Option String) :
    Except SessionError (Db × EventId) :=
  match s.gates[gid]? with
  | none => .error (.refused .gateNotFound)
  | some gate =>
      if gate.status ≠ .awaiting then .error (.refused (.gateNotAwaiting gid))
      else
        match s.runs[gate.pipelineRunId]? with
        | none => .error (.refused (.gateWithoutRun gid))
        | some run =>
            let decision : ReviewDecision :=
              { workspaceId := gate.workspaceId
                contentItemId := run.contentItemId
                reviewerId := reviewer
                decision := if approved then .approved else .rejected
                notes := notes }
            let s1 := { s.updateGate gid (ReviewGate.decideBy reviewer) with
              decisions := s.decisions ++ [decision] }
            match s1.emitIn u now (if approved then .reviewApproved else .reviewRejected)
                gate.workspaceId gate.pipelineRunId (some gid) with
            | .error e => .error e
            | .ok s2 => .ok (s2, s.outbox.length)

end HumanGate
