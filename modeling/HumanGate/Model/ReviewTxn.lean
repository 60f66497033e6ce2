import HumanGate.Lib.Interleaving
import HumanGate.Model.Controller

set_option autoImplicit false

/-! # Transactions on a review gate

`decide_review_gate` with the delivery of its event, the relay's `resume_from_review` and the
scheduler's `handle_review_timeout` on one gate, statement by statement under READ COMMITTED. Only
`decide_review_gate` reads the gate under a row lock. The other two read it without one; their
`UPDATE` waits for the row and then writes the columns that were computed from what was read.
`emit` takes the advisory lock of the run first. What is pending in a session is written at the
commit; until then its row is locked. The database may give up a transaction at any statement.
-/

namespace HumanGate

open Lib Lib.Calendar Lib.Interleaving

/-- What is committed about the gate, and the locks of the row and of the run's events. -/
structure ReviewDb where
  gid : GateId
  gate : ReviewGate
  contentItemId : Option ItemId
  decisions : List ReviewDecision := []
  /-- The `review.approved` and `review.rejected` events: whether each approves. -/
  events : List Bool := []
  /-- Why the run was failed. -/
  failures : List String := []
  rowLock : Option Nat := none
  advisory : Option Nat := none

inductive ReviewRequest where
  | decide (reviewer : UserId) (approved : Bool) (expectedContentVersionId : Option VersionId)
      (notes : Option String)
  /-- The handler of a `review.approved` or `review.rejected` event. -/
  | resume (approved : Bool)
  | timeout
  deriving DecidableEq

/-- The columns and rows that a transaction is about to commit. -/
inductive ReviewWrite where
  | decide (decision : ReviewDecision) (approved : Bool) (decidedAt : Instant) (failsRun : Bool)
  | resume (approved : Bool) (decidedAt : Instant) (failsRun : Bool)
  | escalate (level : Nat) (timeoutAt : Instant)
  | timeOut
  deriving DecidableEq

/-- How far a transaction is, by its last statement. -/
inductive ReviewStep where
  | begun
  /-- The row of the gate was read under its lock. -/
  | locked (gate : ReviewGate)
  /-- The row of the gate was read without a lock. -/
  | read (gate : ReviewGate)
  /-- The advisory lock of the run is held. -/
  | ordered (gate : ReviewGate)
  /-- The row is locked and written, and not yet committed. -/
  | written (write : ReviewWrite)
  | finished (error : Option Err)
  deriving DecidableEq

structure ReviewTxn where
  request : ReviewRequest
  step : ReviewStep := .begun
  deriving DecidableEq

/-- The time, and how the delivery of the decision's event ends: the handler does not come to decide
the gate, or it does and may fail the run. -/
inductive ReviewFate where
  | go (now : Instant) (delivery : Option Bool)
  | abort
  deriving DecidableEq

def ReviewTxn.to (t : ReviewTxn) (step : ReviewStep) : ReviewTxn := { t with step := step }

/-! ## Statements -/

/-- The guards of `decide_review_gate`. -/
def reviewRefusal (gid : GateId) (gate : ReviewGate) (approved : Bool)
    (expected : Option VersionId) : Option Err :=
  if gate.status ≠ .awaiting then some (.gateNotAwaiting gid)
  else if approved ∧ gate.contentVersionId = none then some .gateWithoutVersion
  else if expected ≠ none ∧ expected ≠ gate.contentVersionId then some .gateContentChanged
  else none

/-- The first statement reads the gate; only a decision locks it. -/
def ReviewRequest.begin (s : ReviewDb) (i : Nat) : ReviewRequest → ReviewDb × ReviewStep
  | .decide _ approved expected _ =>
      match reviewRefusal s.gid s.gate approved expected with
      | some e => (s, .finished (some e))
      | none => ({ s with rowLock := some i }, .locked s.gate)
  | .resume _ | .timeout =>
      if s.gate.status = .awaiting then (s, .read s.gate) else (s, .finished none)

def reviewDecision (gate : ReviewGate) (itemId : ItemId) (reviewer : UserId) (approved : Bool)
    (notes : Option String) : ReviewDecision where
  workspaceId := gate.workspaceId
  contentItemId := itemId
  reviewerId := reviewer
  decision := if approved then .approved else .rejected
  notes := notes

/-- The decision is recorded and delivered at once. What the handler did not decide is refused. -/
def deliverDecision (s : ReviewDb) (gate : ReviewGate) (reviewer : UserId) (approved : Bool)
    (notes : Option String) (now : Instant) (delivery : Option Bool) : ReviewStep :=
  match s.contentItemId, delivery with
  | none, _ => .finished (some (.gateWithoutRun s.gid))
  | some _, none => .finished (some .decisionNotApplied)
  | some itemId, some failsRun =>
      .written (.decide (reviewDecision gate itemId reviewer approved notes) approved now
        (failsRun && !approved))

/-- What `handle_review_timeout` makes of the gate that it has read. -/
def timeoutWrite (gate : ReviewGate) (now : Instant) : ReviewWrite :=
  if gate.escalationLevel = 0 then
    .escalate (gate.escalationLevel + 1) (now + seconds (defaultReviewTimeoutHours * 3600))
  else .timeOut

/-- The statement after the advisory lock; an `UPDATE` locks the row. -/
def ReviewRequest.write (s : ReviewDb) (i : Nat) (gate : ReviewGate) (now : Instant)
    (delivery : Option Bool) : ReviewRequest → ReviewDb × ReviewStep
  | .decide reviewer approved _ notes =>
      (s, deliverDecision s gate reviewer approved notes now delivery)
  | .resume approved =>
      ({ s with rowLock := some i },
        .written (.resume approved now (delivery.getD false && !approved)))
  | .timeout => ({ s with rowLock := some i }, .written (timeoutWrite gate now))

/-- The reasons that a decision adds. -/
def reviewFailures (failsRun : Bool) : List String := if failsRun then ["review_rejected"] else []

/-- The commit. -/
def ReviewWrite.apply (s : ReviewDb) : ReviewWrite → ReviewDb
  | .decide decision approved decidedAt failsRun =>
      { s with
        gate := (s.gate.decideBy decision.reviewerId).decide approved decidedAt
        decisions := s.decisions ++ [decision]
        events := s.events ++ [approved]
        failures := s.failures ++ reviewFailures failsRun }
  | .resume approved decidedAt failsRun =>
      { s with
        gate := s.gate.decide approved decidedAt
        failures := s.failures ++ reviewFailures failsRun }
  | .escalate level timeoutAt =>
      { s with gate := { s.gate with
          status := .escalated
          escalationLevel := level
          timeoutAt := some timeoutAt } }
  | .timeOut =>
      { s with
        gate := s.gate.timeOut
        failures := s.failures ++ ["review_gate_timed_out"] }

/-- A transaction that ends releases its locks. -/
def ReviewDb.release (s : ReviewDb) (i : Nat) : ReviewDb :=
  { s with
    rowLock := if s.rowLock = some i then none else s.rowLock
    advisory := if s.advisory = some i then none else s.advisory }

/-- The next statement: what is committed and locked after it, and where the transaction is. -/
def ReviewTxn.advance (s : ReviewDb) (i : Nat) (t : ReviewTxn) (now : Instant)
    (delivery : Option Bool) : ReviewDb × ReviewStep :=
  match t.step with
  | .begun => t.request.begin s i
  | .locked gate | .read gate => ({ s with advisory := some i }, .ordered gate)
  | .ordered gate => t.request.write s i gate now delivery
  | .written write => (write.apply s, .finished none)
  | .finished error => (s, .finished error)

def ReviewTxn.next (s : ReviewDb) (i : Nat) (t : ReviewTxn) : ReviewFate → ReviewDb × ReviewTxn
  | .abort =>
      match t.step with
      | .finished _ => (s, t)
      | _ => (s.release i, t.to (.finished (some .integrityError)))
  | .go now delivery =>
      match t.advance s i now delivery with
      | (s', .finished error) => (s'.release i, t.to (.finished error))
      | (s', step) => (s', t.to step)

/-! ## Waiting -/

def heldByOther (lock : Option Nat) (i : Nat) : Bool := lock.any fun j => j != i

/-- The next statement has to wait for a lock. -/
def ReviewTxn.waits (s : ReviewDb) (i : Nat) (t : ReviewTxn) : Bool :=
  match t.step, t.request with
  | .begun, .decide .. => heldByOther s.rowLock i
  | .locked _, _ | .read _, _ => heldByOther s.advisory i
  | .ordered _, .resume _ | .ordered _, .timeout => heldByOther s.rowLock i
  | _, _ => false

def reviewReady (s : ReviewDb) (ts : List ReviewTxn) (i : Nat) : ReviewFate → Prop
  | .abort => True
  | .go _ _ => ∀ t ∈ ts[i]?, t.waits s i = false

instance decReviewReady (s : ReviewDb) (ts : List ReviewTxn) (i : Nat) :
    (c : ReviewFate) → Decidable (reviewReady s ts i c)
  | .abort => isTrue trivial
  | .go _ _ => inferInstanceAs (Decidable (∀ t ∈ ts[i]?, t.waits s i = false))

/-- The event that is delivered. -/
def ReviewRequest.event : ReviewRequest → Option Bool
  | .resume approved => some approved
  | _ => none

/-- The relay delivers an event that was committed. -/
def ReviewTxn.starts (s : ReviewDb) (t : ReviewTxn) : Prop :=
  t.step = .begun ∧ ∀ approved ∈ t.request.event, approved ∈ s.events

instance decReviewStarts (s : ReviewDb) (t : ReviewTxn) : Decidable (t.starts s) :=
  inferInstanceAs (Decidable (t.step = .begun ∧ ∀ approved ∈ t.request.event, approved ∈ s.events))

/-- Any number of decisions, deliveries and timeouts of the gate at once. -/
def reviewTxns : Program ReviewDb ReviewTxn ReviewFate where
  starts := ReviewTxn.starts
  ready := reviewReady
  next := ReviewTxn.next

instance (s : ReviewDb) (t : ReviewTxn) : Decidable (reviewTxns.starts s t) :=
  decReviewStarts s t

instance (s : ReviewDb) (ts : List ReviewTxn) (i : Nat) (c : ReviewFate) :
    Decidable (reviewTxns.ready s ts i c) :=
  decReviewReady s ts i c

end HumanGate
