import HumanGate.Model.Relay

set_option autoImplicit false

/-! # Consumers of one event

`dispatch_one` of `app/orchestration/relay.py` for any registry: one event is offered to every
registered consumer in turn, tick after tick, until it is no longer pending. The number of attempts
and the status are columns of the event, so all consumers share them; a checkpoint is a consumer's
own.

What a handler does in a tick is given: the text of what it raises, or nothing.
-/

namespace HumanGate

open Lib Lib.Calendar

/-- An entry of `_REGISTRY`, with the row of `event_consumers`. -/
structure RegisteredConsumer extends EventConsumer where
  maxDeliveryAttempts : Nat := HumanGate.maxDeliveryAttempts

/-- `_REGISTRY`, in the order of its insertions. A name is a key of the dictionary. -/
structure Registry where
  entries : List RegisteredConsumer
  nodup : (entries.map fun c => c.name).Nodup

/-- A call of a consumer's handler, and the text of what it raised. -/
structure ConsumerCall where
  consumer : String
  raised : Option String
  deriving DecidableEq

/-- An event on its way. `lastSequence` is each consumer's checkpoint of the event's aggregate.
`calls` is no table: it is the record of the handler calls. -/
structure Delivery where
  event : RelayEvent
  lastSequence : String → Nat := fun _ => 0
  deadLetters : List DeadLetterJob := []
  calls : List ConsumerCall := []

/-- What the handlers do in a tick, by consumer. -/
abbrev Handlers := String → Option String

namespace Delivery

variable (eid : EventId) (now : Instant) (raises : Handlers)

/-- The consumer has a handler for the event, and its checkpoint has not passed it. -/
def owed (d : Delivery) (c : RegisteredConsumer) : Bool :=
  c.handles d.event.eventType && decide (d.lastSequence c.name < d.event.sequence)

/-- The handler is called and returns. -/
def apply (d : Delivery) (c : RegisteredConsumer) : Delivery :=
  { d with
    lastSequence := Function.update d.lastSequence c.name d.event.sequence
    calls := d.calls ++ [⟨c.name, none⟩] }

/-- The handler is called and raises; the attempts of the event are used up for the consumer. -/
def poison (d : Delivery) (c : RegisteredConsumer) (text : String) : Delivery :=
  { d with
    event := { d.event with
      deliveryAttempts := d.event.deliveryAttempts + 1
      status := .poison }
    deadLetters := d.deadLetters ++ [poisonLetter c.toEventConsumer now eid d.event text]
    calls := d.calls ++ [⟨c.name, some text⟩] }

/-- The handler is called and raises; it will be called again. -/
def retry (d : Delivery) (c : RegisteredConsumer) (text : String) : Delivery :=
  { d with
    event := { d.event with deliveryAttempts := d.event.deliveryAttempts + 1 }
    calls := d.calls ++ [⟨c.name, some text⟩] }

/-- The body of the loop over the registry; the flag is `any_pending`. -/
def offer (p : Delivery × Bool) (c : RegisteredConsumer) : Delivery × Bool :=
  if p.1.owed c = false then p
  else
    match raises c.name with
    | none => (p.1.apply c, p.2)
    | some text =>
        if c.maxDeliveryAttempts ≤ p.1.event.deliveryAttempts + 1 then
          (p.1.poison eid now c text, p.2)
        else (p.1.retry c text, true)

/-- `dispatch_one`. -/
def dispatchOne (r : Registry) (d : Delivery) : Delivery :=
  let p := r.entries.foldl (offer eid now raises) (d, false)
  if p.1.event.status ≠ .poison ∧ p.2 = false then { p.1 with event := p.1.event.dispatched }
  else p.1

/-- A relay tick picks the event while it is pending. -/
def tick (r : Registry) (d : Delivery) : Delivery :=
  if d.event.status = .pending then d.dispatchOne eid now raises r else d

end Delivery

/-- The first `n` ticks. -/
def Delivery.ticks (r : Registry) (eid : EventId) (now : Nat → Instant) (raises : Nat → Handlers)
    (d : Delivery) : Nat → Delivery
  | 0 => d
  | n + 1 => (d.ticks r eid now raises n).tick eid (now n) (raises n) r

/-- What becomes of a consumer: whether it has applied the event, how often its handler has
failed, and the attempts recorded with its dead letters. -/
structure ConsumerOutcome where
  applied : Bool
  failedCalls : Nat
  recorded : List Nat
  deriving DecidableEq

def Delivery.outcome (c : RegisteredConsumer) (d : Delivery) : ConsumerOutcome where
  applied := decide (d.event.sequence ≤ d.lastSequence c.name)
  failedCalls := d.calls.countP fun call => call.consumer == c.name && call.raised.isSome
  recorded := (d.deadLetters.filter fun l => l.jobType == "event_consumer:" ++ c.name).map
    DeadLetterJob.attemptCount

/-- The same handlers, but for those of one consumer. -/
def withHandler (raises : Nat → Handlers) (name : String) (pattern : Nat → Option String) :
    Nat → Handlers :=
  fun t => Function.update (raises t) name (pattern t)

end HumanGate
