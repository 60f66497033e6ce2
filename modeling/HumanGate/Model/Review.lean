import HumanGate.Model.Controller

set_option autoImplicit false

/-! # Delivering review decisions

The relay's `dispatch_one` with the one registered consumer, `pipeline-controller`
(`app/orchestration/relay.py`, `consumers.py`), and the review desk that records a decision
and delivers its event at once (`app/services/content_desk.py`).
-/

namespace HumanGate

open Lib Lib.Calendar

/-! ## The relay -/

def Db.updateEvent (s : Db) (eid : EventId) (f : OutboxEvent → OutboxEvent) : Db :=
  { s with outbox := s.outbox.modify eid f }

/-- `EventConsumer.max_delivery_attempts`. -/
def maxDeliveryAttempts : Nat := 10

/-- The handler of an event type, and whether it approves. -/
def reviewHandler : EventType → Option Bool
  | .reviewApproved => some true
  | .reviewRejected => some false
  | _ => none

/-- `_on_review_approved` and `_on_review_rejected`. -/
def onReview (cfg : Config) (s : Db) (now : Instant) (event : OutboxEvent) (approved : Bool) :
    Call :=
  match event.reviewGateId with
  | none => { db := s, raised := some .payloadWithoutGate }
  | some gid => resumeFromReview cfg s now gid approved

def OutboxEvent.markDispatched (e : OutboxEvent) : OutboxEvent :=
  if e.status = .poison then e else { e with status := .dispatched }

/-- The bookkeeping of a failed delivery: retry later, or poison the event. -/
def failDelivery (s : Db) (now : Instant) (eid : EventId) (event : OutboxEvent) (e : Err) : Db :=
  let attempts := event.deliveryAttempts + 1
  if maxDeliveryAttempts ≤ attempts then
    routeToDeadLetter
      (s.updateEvent eid fun ev => { ev with status := .poison, deliveryAttempts := attempts })
      now event.workspaceId (.outboxEvent eid) "event_consumer:pipeline-controller" e.message
      attempts event.occurredAt
  else s.updateEvent eid fun ev => { ev with deliveryAttempts := attempts }

/-- `dispatch_one`. The handler's exception is caught here: what it wrote stays written. -/
def dispatchOne (cfg : Config) (s : Db) (now : Instant) (eid : EventId) : Call :=
  match s.outbox[eid]? with
  | none => { db := s }
  | some event =>
      match reviewHandler event.eventType with
      | none => { db := s.updateEvent eid OutboxEvent.markDispatched }
      | some approved =>
          if event.sequence ≤ s.lastSequence event.aggregateId then
            { db := s.updateEvent eid OutboxEvent.markDispatched }
          else
            let call := onReview cfg s now event approved
            match call.raised with
            | none =>
                { db := { call.db.updateEvent eid OutboxEvent.markDispatched with
                    lastSequence :=
                      Function.update call.db.lastSequence event.aggregateId event.sequence }
                  entered := call.entered }
            | some e =>
                { db := failDelivery call.db now eid event e
                  entered := call.entered }

/-! ## The review desk -/

/-- `submit_review_decision` with the delivery of its event. -/
def submitAndDeliver (cfg : Config) (s : Db) (now : Instant) (gid : GateId) (reviewer : UserId)
    (approved : Bool) (notes : Option String) : Call :=
  match submitReviewDecision s now gid reviewer approved notes with
  | .error e => { db := s, raised := some e }
  | .ok (s1, eid) => dispatchOne cfg s1 now eid

/-- `decide_review_gate`. -/
def decideReviewGate (cfg : Config) (s : Db) (now : Instant) (ws : WorkspaceId) (gid : GateId)
    (reviewer : UserId) (approved : Bool) (expectedContentVersionId : Option VersionId)
    (notes : Option String) : Call :=
  match s.gates[gid]? with
  | none => { db := s, raised := some .gateNotFound }
  | some gate =>
      if gate.workspaceId ≠ ws then { db := s, raised := some .gateNotFound }
      else if gate.status ≠ .awaiting then { db := s, raised := some (.gateNotAwaiting gid) }
      else if approved ∧ gate.contentVersionId = none then
        { db := s, raised := some .gateWithoutVersion }
      else if expectedContentVersionId ≠ none
          ∧ expectedContentVersionId ≠ gate.contentVersionId then
        { db := s, raised := some .gateContentChanged }
      else
        let call := submitAndDeliver cfg s now gid reviewer approved notes
        if call.raised = none ∧ (call.db.gates[gid]?).map ReviewGate.status = some .awaiting then
          { db := s, raised := some .decisionNotApplied }
        else call

def ReviewGate.showVersion (vid : VersionId) (gate : ReviewGate) : ReviewGate :=
  { gate with contentVersionId := some vid }

/-- `edit_review_gate_content`: a new version, shown by the item and by the gate. -/
def editReviewGateContent (s : Db) (ws : WorkspaceId) (gid : GateId)
    (expectedContentVersionId : VersionId) (scriptHook scriptBody scriptCta : Option String) :
    Except Err Db :=
  match s.gates[gid]? with
  | none => .error .gateNotFound
  | some gate =>
      if gate.workspaceId ≠ ws then .error .gateNotFound
      else if gate.status ≠ .awaiting then .error (.gateNotAwaiting gid)
      else if gate.contentVersionId ≠ some expectedContentVersionId then
        .error .gateContentChanged
      else
        match s.runs[gate.pipelineRunId]? with
        | none => .error (.gateWithoutRun gid)
        | some run =>
            match s.items[run.contentItemId]? with
            | none => .error (.noContentItem gate.pipelineRunId)
            | some item =>
                let current := item.currentVersionId.bind fun v => s.versions[v]?
                let version : ContentVersion :=
                  { contentItemId := run.contentItemId
                    scriptHook := scriptHook.or (current.bind ContentVersion.scriptHook)
                    scriptBody := scriptBody.or (current.bind ContentVersion.scriptBody)
                    scriptCta := scriptCta.or (current.bind ContentVersion.scriptCta) }
                let vid := s.versions.length
                .ok (Db.flush { s.updateGate gid (ReviewGate.showVersion vid) with
                  versions := s.versions ++ [version]
                  items := s.items.modify run.contentItemId
                    fun i => { i with currentVersionId := some vid } })

end HumanGate
