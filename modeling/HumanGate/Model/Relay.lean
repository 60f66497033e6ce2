import HumanGate.Model.Outbox
import HumanGate.Model.Review

set_option autoImplicit false

/-! # The relay

`app/orchestration/relay.py` with one registered consumer, for events of any type and any
aggregate. A tick (`poll_and_dispatch`) is one transaction: it locks a batch of pending events,
calls the handler of one after the other, and commits. Any number of ticks are open at once.

A tick keeps in its session what it has loaded and written; the others see none of it before
the commit. Handlers write in the same session, so the calls of a tick that is rolled back have
no effect. A tick that has to wait for a row that another one has written goes on at once here:
this only adds interleavings.
-/

namespace HumanGate

open Lib Lib.Calendar

/-! ## Tables -/

/-- A row of `outbox_events`, as far as the relay reads and writes it. -/
structure RelayEvent where
  workspaceId : WorkspaceId
  eventType : String
  aggregate : Aggregate
  sequence : Nat
  occurredAt : Instant
  status : OutboxEventStatus := .pending
  deliveryAttempts : Nat := 0

/-- The consumer in the registry, and the event types it has a handler for. -/
structure EventConsumer where
  name : String
  handles : String → Bool

/-- A call of a handler, and the text of what it raised. -/
structure HandlerCall where
  eventId : EventId
  raised : Option String
  deriving DecidableEq

/-- What is committed. `lastSequence` is the consumer's checkpoint of an aggregate, if the row
exists. `calls` is no table: it is the record of the handler calls. -/
structure RelayDb where
  events : List RelayEvent
  lastSequence : Aggregate → Option Nat := fun _ => none
  deadLetters : List DeadLetterJob := []
  calls : List HandlerCall := []

/-! ## A tick -/

/-- An open tick: the events it has locked, those it has still to dispatch, and what it has in
its session. -/
structure RelayTick where
  batch : List EventId := []
  todo : List EventId := []
  written : EventId → Option RelayEvent := fun _ => none
  lastSequence : Aggregate → Option Nat := fun _ => none
  inserted : List Aggregate := []
  advanced : List Aggregate := []
  deadLetters : List DeadLetterJob := []
  calls : List HandlerCall := []

namespace RelayTick

def write (t : RelayTick) (eid : EventId) (e : RelayEvent) : RelayTick :=
  { t with written := Function.update t.written eid (some e) }

/-- An event as the tick sees it. -/
def view (t : RelayTick) (db : RelayDb) (eid : EventId) : Option RelayEvent :=
  (t.written eid).or db.events[eid]?

/-- `_get_or_create_checkpoint`: a row that is in the session is not loaded again. -/
def loadCheckpoint (t : RelayTick) (db : RelayDb) (agg : Aggregate) : RelayTick :=
  match t.lastSequence agg, db.lastSequence agg with
  -- the identity map answers with the value it was loaded with
  | some _, _ => t
  | none, some last => { t with lastSequence := Function.update t.lastSequence agg (some last) }
  | none, none =>
      { t with
        lastSequence := Function.update t.lastSequence agg (some 0)
        inserted := agg :: t.inserted }

end RelayTick

def RelayEvent.dispatched (e : RelayEvent) : RelayEvent := { e with status := .dispatched }

/-- The event after a call that raised: pending, or poison once its attempts are used up. -/
def RelayEvent.fail (e : RelayEvent) : RelayEvent :=
  { e with
    deliveryAttempts := e.deliveryAttempts + 1
    status := if maxDeliveryAttempts ≤ e.deliveryAttempts + 1 then .poison else e.status }

/-- The entry for an event that the consumer could not handle. -/
def poisonLetter (consumer : EventConsumer) (now : Instant) (eid : EventId) (e : RelayEvent)
    (failureReason : String) : DeadLetterJob :=
  { workspaceId := e.workspaceId
    relatedId := .outboxEvent eid
    jobType := "event_consumer:" ++ consumer.name
    failureReason := failureReason
    attemptCount := e.deliveryAttempts + 1
    firstFailedAt := e.occurredAt
    lastFailedAt := now }

/-- The handler is called, and returns or raises. -/
def RelayTick.call (t : RelayTick) (consumer : EventConsumer) (now : Instant) (eid : EventId)
    (e : RelayEvent) (raised : Option String) : RelayTick :=
  let t : RelayTick := { t with calls := t.calls ++ [⟨eid, raised⟩] }
  match raised with
  | none =>
      { t.write eid e.dispatched with
        lastSequence := Function.update t.lastSequence e.aggregate (some e.sequence)
        advanced := e.aggregate :: t.advanced }
  | some text =>
      { t.write eid e.fail with
        deadLetters :=
          if maxDeliveryAttempts ≤ e.deliveryAttempts + 1 then
            t.deadLetters ++ [poisonLetter consumer now eid e text]
          else t.deadLetters }

/-- The consumer's checkpoint has passed the event: it counts as applied. -/
def RelayTick.applied (t : RelayTick) (db : RelayDb) (e : RelayEvent) : Bool :=
  decide (e.sequence ≤ ((t.loadCheckpoint db e.aggregate).lastSequence e.aggregate).getD 0)

/-- `dispatch_one`. -/
def RelayTick.dispatchOne (t : RelayTick) (db : RelayDb) (consumer : EventConsumer) (now : Instant)
    (eid : EventId) (e : RelayEvent) (raised : Option String) : RelayTick :=
  -- an event of another type is done without a checkpoint
  if consumer.handles e.eventType = false then t.write eid e.dispatched
  else if t.applied db e then (t.loadCheckpoint db e.aggregate).write eid e.dispatched
  else (t.loadCheckpoint db e.aggregate).call consumer now eid e raised

/-! ## Replicas -/

structure Relay where
  db : RelayDb
  ticks : List RelayTick := []

/-- The events that a tick locks: pending, not locked by another one, the oldest first. `rows`
is the scan order, which decides between events of the same instant. -/
def Relay.pollBatch (s : Relay) (batchSize : Nat) (rows : List EventId) : List EventId :=
  let occurred := fun eid => ((s.db.events[eid]?).map RelayEvent.occurredAt).getD 0
  ((rows.filter fun eid => (s.db.events[eid]?).any (fun e => e.status == .pending)
      && !s.ticks.any fun t => t.batch.contains eid).insertionSort
    fun i j => occurred i ≤ occurred j).take batchSize

/-- The tables after the commit of a tick. -/
def RelayTick.commit (t : RelayTick) (db : RelayDb) : RelayDb where
  events := db.events.mapIdx fun eid e => (t.written eid).getD e
  lastSequence := fun agg =>
    if agg ∈ t.inserted ∨ agg ∈ t.advanced then t.lastSequence agg else db.lastSequence agg
  deadLetters := db.deadLetters ++ t.deadLetters
  calls := db.calls ++ t.calls

/-- Another tick has inserted a checkpoint row that this one inserted too
(`uq_consumer_checkpoint`). -/
def RelayTick.clashes (t : RelayTick) (db : RelayDb) : Bool :=
  t.inserted.any fun agg => (db.lastSequence agg).isSome

inductive RelayAction where
  | begin (batchSize : Nat) (rows : List EventId)
  | dispatch (i : Nat) (now : Instant) (raised : Option String)
  | commit (i : Nat)
  | rollback (i : Nat)

/-- A tick that is over is left empty in the list. -/
def relayExec (consumer : EventConsumer) (s : Relay) : RelayAction → Relay
  | .begin batchSize rows =>
      let batch := s.pollBatch batchSize rows
      { s with ticks := s.ticks ++ [{ batch := batch, todo := batch }] }
  | .dispatch i now raised =>
      match s.ticks[i]? with
      | none => s
      | some t =>
          match t.todo with
          | [] => s
          | eid :: rest =>
              match s.db.events[eid]? with
              | none => s
              | some e =>
                  { s with ticks := s.ticks.modify i fun _ =>
                      { t.dispatchOne s.db consumer now eid e raised with todo := rest } }
  | .commit i =>
      match s.ticks[i]? with
      | none => s
      | some t =>
          if t.todo ≠ [] then s
          -- the commit fails on the unique key, and nothing of the tick stays
          else if t.clashes s.db then { s with ticks := s.ticks.modify i fun _ => {} }
          else { db := t.commit s.db, ticks := s.ticks.modify i fun _ => {} }
  | .rollback i => { s with ticks := s.ticks.modify i fun _ => {} }

/-- The numbers of an aggregate's events. -/
def relaySequences (events : List RelayEvent) (agg : Aggregate) : List Nat :=
  (events.filter fun e => e.aggregate == agg).map RelayEvent.sequence

/-- Nothing has been delivered, and the events of every aggregate are numbered from one on. -/
structure RelayFresh (s : Relay) : Prop where
  ticks : s.ticks = []
  lastSequence : s.db.lastSequence = fun _ => none
  deadLetters : s.db.deadLetters = []
  calls : s.db.calls = []
  events : ∀ e ∈ s.db.events, e.status = .pending ∧ e.deliveryAttempts = 0
  dense : ∀ agg, (relaySequences s.db.events agg).Perm
    (List.range' 1 (relaySequences s.db.events agg).length)

/-- A scan returns a row once. -/
def RelayAction.scansOnce : RelayAction → Prop
  | .begin _ rows => rows.Nodup
  | _ => True

/-- Any number of replicas that tick in any order, with handlers that return or raise. -/
def relays (consumer : EventConsumer) : System Relay RelayAction where
  init := RelayFresh
  allowed _ a := a.scansOnce
  exec := relayExec consumer

end HumanGate
