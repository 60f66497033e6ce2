import HumanGate.Model.Desk
import HumanGate.Run.Routing

set_option autoImplicit false

/-! # A delivery that fails

`dispatch_one` catches what the handler raises, and the tick commits the session: without a
savepoint, what the handler had written by then is committed with the bookkeeping of the failure.
The review consumers decide the gate and resume the run before they look for the way on. So a
decision that has none leaves a decided gate and a running run behind
(`failed_delivery_decides`), and the next delivery takes the decision for applied.

`delivery_traceless_iff` says when a failing handler leaves no trace: when it fails before it has
found a gate to decide, which for a gate that is awaiting means that the decision has a way on.
-/

namespace HumanGate

open Lib Lib.Calendar

variable {cfg : Config}

/-! ## The way on -/

/-- The run can be paused for another review. -/
def CanPause (s : Db) (rid : RunId) (run : PipelineRun) : Prop :=
  match awaitingGates s rid with
  | [] => (s.items[run.contentItemId]?).isSome = true
  | [_] => True
  | _ :: _ :: _ => False

/-- The decision has a way on: the run fails on a rejection without an edge, it is over in a
terminal stage without an edge, or the edge leads to a stage that the run can enter. -/
def HasWayOn (cfg : Config) (s : Db) (gate : ReviewGate) (run : PipelineRun) (approved : Bool) :
    Prop :=
  ∃ d, definitionOf cfg gate.pipelineRunId run = .ok d ∧
    ((findTransition d gate.stage (reviewTrigger approved) [] = .ok none ∧
        (approved = false ∨ ∃ row, getStageDef d gate.stage = .ok row ∧ row.isTerminal = true)) ∨
      ∃ t row, findTransition d gate.stage (reviewTrigger approved) [] = .ok (some t) ∧
        getStageDef d t.toStage = .ok row ∧
        (row.isTerminal = true ∨ row.isReviewGate = false ∨ CanPause s gate.pipelineRunId run))

/-- The gates that a query sees do not change when a gate is decided or a run updated. -/
theorem awaitingGates_decide (s : Db) (gid : GateId) (approved : Bool) (now : Instant)
    (rid rid' : RunId) (f : PipelineRun → PipelineRun) :
    awaitingGates ((s.updateGate gid (ReviewGate.decide approved now)).updateRun rid f) rid'
      = awaitingGates s rid' := by
  have hselect : Table.select (fun g => g.pipelineRunId == rid')
      (s.gates.modify gid (ReviewGate.decide approved now))
        = Table.select (fun g => g.pipelineRunId == rid') s.gates := by
    unfold Table.select
    rw [List.length_modify]
    refine List.filter_congr fun i _ => ?_
    rw [List.getElem?_modify]
    cases s.gates[i]? with
    | none => rfl
    | some g =>
        by_cases hi : gid = i
        · simp [hi, ReviewGate.decide]
        · simp [hi]
  unfold awaitingGates
  show (Table.select _ (s.gates.modify gid (ReviewGate.decide approved now))).filter _ = _
  rw [hselect]
  rfl

/-- The state in which the decision looks for its way on. -/
abbrev Db.resumed (s : Db) (now : Instant) (gid : GateId) (rid : RunId) (approved : Bool) : Db :=
  (s.updateGate gid (ReviewGate.decide approved now)).updateRun rid PipelineRun.resume

theorem pauseForReview_raised {s : Db} {now : Instant} {gid : GateId} {rid : RunId}
    {approved : Bool} {run : PipelineRun} (hrun : s.runs[rid]? = some run) (stage : ContentStage)
    (timeoutSeconds : Nat) :
    ((pauseForReview ((s.resumed now gid rid approved).updateRun rid (PipelineRun.enter stage)) now
        rid stage timeoutSeconds).raised = none ↔ CanPause s rid run) := by
  have hrow : ((s.resumed now gid rid approved).updateRun rid (PipelineRun.enter stage)).runs[rid]?
      = some (run.resume.enter stage) := Table.get_modify_self (Table.get_modify_self hrun)
  have hgates : awaitingGates ((s.resumed now gid rid approved).updateRun rid
      (PipelineRun.enter stage)) rid = awaitingGates s rid :=
    awaitingGates_decide s gid approved now rid rid PipelineRun.resume
  have hitems : ((s.resumed now gid rid approved).updateRun rid (PipelineRun.enter stage)).items
      = s.items := rfl
  unfold pauseForReview CanPause
  rw [hrow, hgates, hitems]
  rcases awaitingGates s rid with _ | ⟨g, _ | ⟨g', more⟩⟩
  · cases hitem : s.items[run.contentItemId]? with
    | none => simp [PipelineRun.resume, PipelineRun.enter, PipelineRunStatus.isTerminal, hitem]
    | some item => simp [PipelineRun.resume, PipelineRun.enter, PipelineRunStatus.isTerminal, hitem]
  · simp [PipelineRun.resume, PipelineRun.enter, PipelineRunStatus.isTerminal]
  · simp [PipelineRun.resume, PipelineRun.enter, PipelineRunStatus.isTerminal]

theorem enterStage_raised {s : Db} {now : Instant} {gid : GateId} {rid : RunId} {approved : Bool}
    {run : PipelineRun} (hrun : s.runs[rid]? = some run) (ws : WorkspaceId) (row : WorkflowStage) :
    ((enterStage cfg (s.resumed now gid rid approved) now rid ws row).raised = none ↔
      row.isTerminal = true ∨ row.isReviewGate = false ∨ CanPause s rid run) := by
  unfold enterStage
  simp only
  split
  · rename_i hterm
    simp [hterm]
  · rename_i hterm
    split
    · rename_i hgate
      simp only [hterm, hgate, Bool.true_eq_false, Bool.false_eq_true, false_or]
      exact pauseForReview_raised hrun row.stageKey row.timeoutSeconds
    · rename_i hgate
      simp [hgate]

theorem advanceOrFinish_raised {s : Db} {now : Instant} {gid : GateId} {rid : RunId}
    {approved : Bool} {run : PipelineRun} {d : WorkflowDefinition}
    (hrun : s.runs[rid]? = some run) (hd : definitionOf cfg rid run = .ok d) (stage : ContentStage)
    (trigger : WorkflowTransitionTrigger) :
    ((advanceOrFinish cfg (s.resumed now gid rid approved) now rid stage trigger []).raised = none ↔
      (findTransition d stage trigger [] = .ok none ∧
        ∃ row, getStageDef d stage = .ok row ∧ row.isTerminal = true) ∨
      ∃ t row, findTransition d stage trigger [] = .ok (some t) ∧
        getStageDef d t.toStage = .ok row ∧
        (row.isTerminal = true ∨ row.isReviewGate = false ∨ CanPause s rid run)) := by
  have hrow : (s.resumed now gid rid approved).runs[rid]? = some run.resume :=
    Table.get_modify_self hrun
  have hd' : definitionOf cfg rid run.resume = .ok d := hd
  unfold advanceOrFinish
  simp only [hrow, hd']
  cases hfind : findTransition d stage trigger [] with
  | error e => simp
  | ok found =>
      cases found with
      | none =>
          cases hstage : getStageDef d stage with
          | error e => simp
          | ok row =>
              by_cases hterm : row.isTerminal = true
              · simp [hterm]
              · simp [hterm]
      | some t =>
          cases hstage : getStageDef d t.toStage with
          | error e => simp [hstage]
          | ok row =>
              simp only [hstage, enterStage_raised hrun]
              constructor
              · intro h
                exact .inr ⟨t, row, rfl, hstage, h⟩
              · rintro (⟨hnone, _⟩ | ⟨t', row', heq, hstage', h⟩)
                · cases hnone
                · cases heq
                  rw [hstage] at hstage'
                  cases hstage'
                  exact h

/-- **A decision is delivered without an exception** exactly if it has a way on. -/
theorem resumeFromReview_raised {s : Db} (now : Instant) {gid : GateId} {approved : Bool}
    {gate : ReviewGate} {run : PipelineRun} (hgate : s.gates[gid]? = some gate)
    (hawait : gate.status = .awaiting) (hrun : s.runs[gate.pipelineRunId]? = some run) :
    ((resumeFromReview cfg s now gid approved).raised = none ↔
      HasWayOn cfg s gate run approved) := by
  have hrow : (s.resumed now gid gate.pipelineRunId approved).runs[gate.pipelineRunId]?
      = some run.resume := Table.get_modify_self hrun
  unfold resumeFromReview HasWayOn
  simp only [hgate, hawait, hrun, ne_eq, not_true_eq_false, if_false]
  cases hd : definitionOf cfg gate.pipelineRunId run with
  | error e =>
      have hd' : definitionOf cfg gate.pipelineRunId run.resume = .error e := hd
      cases approved with
      | true =>
          simp only [if_true]
          unfold advanceOrFinish
          simp [hrow, hd']
      | false => simp
  | ok d =>
      simp only [Except.ok.injEq, exists_eq_left']
      cases approved with
      | true =>
          simp only [if_true, reviewTrigger, Bool.true_eq_false, false_or]
          exact advanceOrFinish_raised hrun hd gate.stage .onReviewApproved
      | false =>
          simp only [Bool.false_eq_true, if_false, reviewTrigger]
          cases hfind : findTransition d gate.stage .onReviewRejected [] with
          | error e => simp
          | ok found =>
              cases found with
              | none => simp
              | some t =>
                  simp only
                  rw [advanceOrFinish_raised hrun hd gate.stage .onReviewRejected, hfind]
                  simp

/-! ## What a failing handler leaves -/

theorem pauseForReview_failed {s : Db} {now : Instant} {rid : RunId} {stage : ContentStage}
    {timeoutSeconds : Nat} {e : Err}
    (h : (pauseForReview s now rid stage timeoutSeconds).raised = some e) :
    (pauseForReview s now rid stage timeoutSeconds).db = s := by
  unfold pauseForReview at h ⊢
  split
  · rfl
  · rename_i run hrun
    simp only [hrun] at h
    split
    · rfl
    · rename_i hterm
      rw [if_neg hterm] at h
      split
      · rfl
      · rfl
      · rename_i hnone
        simp only [hnone] at h
        split
        · rfl
        · rename_i item hitem
          simp only [hitem] at h
          cases h

/-- Routing that raises leaves the gates. -/
theorem advanceOrFinish_failed {s : Db} {now : Instant} {rid : RunId} {stage : ContentStage}
    {trigger : WorkflowTransitionTrigger} {e : Err}
    (h : (advanceOrFinish cfg s now rid stage trigger []).raised = some e) :
    (advanceOrFinish cfg s now rid stage trigger []).db.gates = s.gates := by
  have hrouted := advanceOrFinish_routed cfg s now rid stage trigger []
  generalize advanceOrFinish cfg s now rid stage trigger [] = c at h hrouted
  cases hrouted with
  | raised => rfl
  | ended => cases h
  | @entered d row ws _ _ _ =>
      unfold enterStage at h ⊢
      simp only at h ⊢
      split at h
      · cases h
      · rename_i hterm
        split at h
        · rename_i hgate
          rw [if_neg hterm, if_pos hgate]
          have hsame := congrArg Db.gates (pauseForReview_failed h)
          exact hsame
        · cases h

/-- **A handler that fails after it has found the gate has decided it.** -/
theorem resumeFromReview_failed {s : Db} {now : Instant} {gid : GateId} {approved : Bool}
    {gate : ReviewGate} {run : PipelineRun} {e : Err} (hgate : s.gates[gid]? = some gate)
    (hawait : gate.status = .awaiting) (hrun : s.runs[gate.pipelineRunId]? = some run)
    (h : (resumeFromReview cfg s now gid approved).raised = some e) :
    (resumeFromReview cfg s now gid approved).db.gates[gid]? = some (gate.decide approved now) := by
  have hdecided : (s.updateGate gid (ReviewGate.decide approved now)).gates[gid]?
      = some (gate.decide approved now) := Table.get_modify_self hgate
  have hadvance : ∀ trigger, (advanceOrFinish cfg
      (s.resumed now gid gate.pipelineRunId approved) now
      gate.pipelineRunId gate.stage trigger []).raised = some e →
      (advanceOrFinish cfg (s.resumed now gid gate.pipelineRunId approved) now
        gate.pipelineRunId gate.stage trigger []).db.gates[gid]?
          = some (gate.decide approved now) := by
    intro trigger hraised
    rw [advanceOrFinish_failed hraised]
    exact hdecided
  unfold resumeFromReview at h ⊢
  simp only [hgate, hawait, hrun, ne_eq, not_true_eq_false, if_false] at h ⊢
  split
  · rename_i happ
    rw [if_pos happ] at h
    exact hadvance _ h
  · rename_i happ
    rw [if_neg happ] at h
    split
    · exact hdecided
    · rename_i d hd
      simp only [hd] at h
      split
      · exact hdecided
      · rename_i hnone
        simp only [hnone] at h
        cases h
      · rename_i t ht
        simp only [ht] at h
        exact hadvance _ h

/-! ## Deliveries -/

/-- The call of a handler in `dispatch_one`, if one is called. -/
def handlerCall (cfg : Config) (s : Db) (now : Instant) (eid : EventId) : Option Call :=
  (s.outbox[eid]?).bind fun event =>
    (reviewHandler event.eventType).bind fun approved =>
      if event.sequence ≤ s.lastSequence event.aggregateId then none
      else some (onReview cfg s now event approved)

/-- The same but for the event's status and number of attempts, and at most one entry more among
the dead letters. -/
def SameBut (eid : EventId) (s s' : Db) : Prop :=
  ∃ (status : OutboxEventStatus) (attempts : Nat) (letters : List DeadLetterJob),
    letters.length ≤ 1 ∧ s' = Db.flush
      { s.updateEvent eid fun e => { e with status := status, deliveryAttempts := attempts } with
        deadLetters := s.deadLetters ++ letters }

/-- If the handler raises, the tick leaves no trace of it. -/
def Traceless (cfg : Config) (s : Db) (now : Instant) (eid : EventId) : Prop :=
  ∀ call e, handlerCall cfg s now eid = some call → call.raised = some e →
    SameBut eid s (exec cfg s ⟨now, .dispatchOne eid⟩)

/-- The decision that the event carries has a way on, if its gate is awaiting. -/
def Deliverable (cfg : Config) (s : Db) (eid : EventId) : Prop :=
  ∀ event approved gid gate run, s.outbox[eid]? = some event →
    reviewHandler event.eventType = some approved →
    s.lastSequence event.aggregateId < event.sequence → event.reviewGateId = some gid →
    s.gates[gid]? = some gate → gate.status = .awaiting →
    s.runs[gate.pipelineRunId]? = some run → HasWayOn cfg s gate run approved

theorem handlerCall_some {s : Db} {now : Instant} {eid : EventId} {call : Call}
    (h : handlerCall cfg s now eid = some call) :
    ∃ event approved, s.outbox[eid]? = some event ∧ reviewHandler event.eventType = some approved ∧
      s.lastSequence event.aggregateId < event.sequence ∧
      call = onReview cfg s now event approved := by
  unfold handlerCall at h
  obtain ⟨event, hevent, h⟩ := Option.bind_eq_some_iff.mp h
  obtain ⟨approved, happ, h⟩ := Option.bind_eq_some_iff.mp h
  split_ifs at h with hseq
  cases h
  exact ⟨event, approved, hevent, happ, Nat.lt_of_not_le hseq, rfl⟩

/-- A delivery that fails is committed with what the handler has written. -/
theorem dispatchOne_failed {s : Db} {now : Instant} {eid : EventId} {event : OutboxEvent}
    {approved : Bool} {e : Err} (hevent : s.outbox[eid]? = some event)
    (happ : reviewHandler event.eventType = some approved)
    (hseq : s.lastSequence event.aggregateId < event.sequence)
    (hraised : (onReview cfg s now event approved).raised = some e) :
    exec cfg s ⟨now, .dispatchOne eid⟩
      = (failDelivery (onReview cfg s now event approved).db now eid event e).flush := by
  show (dispatchOne cfg s now eid).commit s = _
  unfold dispatchOne
  simp only [hevent, happ, if_neg (Nat.not_le.mpr hseq), hraised]
  rfl

/-- The bookkeeping touches the event and the dead letters. -/
theorem failDelivery_sameBut {s : Db} {now : Instant} {eid : EventId} {event : OutboxEvent}
    (hevent : s.outbox[eid]? = some event) (e : Err) :
    SameBut eid s (failDelivery s now eid event e).flush := by
  unfold failDelivery
  simp only
  split
  · exact ⟨.poison, event.deliveryAttempts + 1, [_], by simp, rfl⟩
  · refine ⟨event.status, event.deliveryAttempts + 1, [], by simp, ?_⟩
    have houtbox : s.outbox.modify eid
        (fun ev => { ev with deliveryAttempts := event.deliveryAttempts + 1 })
      = s.outbox.modify eid (fun ev =>
        { ev with status := event.status, deliveryAttempts := event.deliveryAttempts + 1 }) := by
      refine List.ext_getElem? fun i => ?_
      rw [List.getElem?_modify, List.getElem?_modify]
      by_cases hi : eid = i
      · subst hi
        simp [hevent]
      · simp [hi]
    simp only [Db.updateEvent, houtbox, List.append_nil]

/-- A handler that fails before it has written anything leaves no trace. -/
theorem sameBut_of_unwritten {s : Db} {now : Instant} {eid : EventId} {event : OutboxEvent}
    {approved : Bool} {e : Err} (hevent : s.outbox[eid]? = some event)
    (happ : reviewHandler event.eventType = some approved)
    (hseq : s.lastSequence event.aggregateId < event.sequence)
    (hraised : (onReview cfg s now event approved).raised = some e)
    (hdb : (onReview cfg s now event approved).db = s) :
    SameBut eid s (exec cfg s ⟨now, .dispatchOne eid⟩) := by
  rw [dispatchOne_failed hevent happ hseq hraised, hdb]
  exact failDelivery_sameBut hevent e

/-- A decision without a way on fails, and its gate is decided. -/
theorem dispatchOne_decides {s : Db} (now : Instant) {eid : EventId} {event : OutboxEvent}
    {approved : Bool} {gid : GateId} {gate : ReviewGate} {run : PipelineRun}
    (hevent : s.outbox[eid]? = some event) (happ : reviewHandler event.eventType = some approved)
    (hseq : s.lastSequence event.aggregateId < event.sequence)
    (hgid : event.reviewGateId = some gid)
    (hgate : s.gates[gid]? = some gate) (hawait : gate.status = .awaiting)
    (hrun : s.runs[gate.pipelineRunId]? = some run) (hway : ¬ HasWayOn cfg s gate run approved) :
    (∃ call e, handlerCall cfg s now eid = some call ∧ call.raised = some e) ∧
      (exec cfg s ⟨now, .dispatchOne eid⟩).gates[gid]? = some (gate.decide approved now) := by
  have hcall : onReview cfg s now event approved = resumeFromReview cfg s now gid approved := by
    unfold onReview
    rw [hgid]
  rw [← resumeFromReview_raised now hgate hawait hrun] at hway
  obtain ⟨e, hraised⟩ := Option.ne_none_iff_exists'.mp hway
  refine ⟨⟨resumeFromReview cfg s now gid approved, e, ?_, hraised⟩, ?_⟩
  · unfold handlerCall
    rw [hevent, Option.bind_some, happ, Option.bind_some, if_neg (Nat.not_le.mpr hseq), hcall]
  · rw [dispatchOne_failed hevent happ hseq (by rw [hcall]; exact hraised), hcall]
    have hboard := congrArg Board.gates (board_failDelivery
      (resumeFromReview cfg s now gid approved).db now eid event e)
    have hgates : (failDelivery (resumeFromReview cfg s now gid approved).db now eid event e).gates
        = (resumeFromReview cfg s now gid approved).db.gates := hboard
    show (failDelivery (resumeFromReview cfg s now gid approved).db now eid event e).gates[gid]? = _
    rw [hgates]
    exact resumeFromReview_failed hgate hawait hrun hraised

theorem decide_not_awaiting (gate : ReviewGate) (approved : Bool) (now : Instant) :
    (gate.decide approved now).status ≠ .awaiting := by
  cases approved <;> exact fun h => nomatch h

/-- **When a failing handler leaves no trace**: exactly if the decision it delivers has a way on or
its gate is not awaiting. Otherwise the gate is decided by the failed delivery, so that the next
one does not find it awaiting. -/
theorem delivery_traceless_iff (cfg : Config) (s : Db) (now : Instant) (eid : EventId) :
    (Traceless cfg s now eid ↔ Deliverable cfg s eid) ∧
    (¬ Deliverable cfg s eid → ∃ event gid gate, s.outbox[eid]? = some event ∧
      event.reviewGateId = some gid ∧ s.gates[gid]? = some gate ∧ gate.status = .awaiting ∧
      ∀ gate', (exec cfg s ⟨now, .dispatchOne eid⟩).gates[gid]? = some gate' →
        gate'.status ≠ .awaiting) := by
  refine ⟨⟨fun htrace event approved gid gate run hevent happ hseq hgid hgate hawait hrun => ?_,
    fun hdeliver call e hcall hraised => ?_⟩, fun hnot => ?_⟩
  · -- the gate would be decided in a state that is the same but for the event
    by_contra hway
    obtain ⟨⟨call, e, hcall, hraised⟩, hdecided⟩ :=
      dispatchOne_decides now hevent happ hseq hgid hgate hawait hrun hway
    obtain ⟨status, attempts, letters, _, hsame⟩ := htrace call e hcall hraised
    rw [hsame] at hdecided
    have heq : gate = gate.decide approved now := Option.some.inj (hgate.symm.trans hdecided)
    exact decide_not_awaiting gate approved now (heq ▸ hawait)
  · -- where the gate has a way on the handler raises before it writes
    obtain ⟨event, approved, hevent, happ, hseq, rfl⟩ := handlerCall_some hcall
    refine sameBut_of_unwritten hevent happ hseq hraised ?_
    cases hgid : event.reviewGateId with
    | none =>
        unfold onReview
        rw [hgid]
    | some gid =>
        have hon : onReview cfg s now event approved = resumeFromReview cfg s now gid approved := by
          unfold onReview
          rw [hgid]
        rw [hon] at hraised ⊢
        cases hgate : s.gates[gid]? with
        | none => simp [resumeFromReview, hgate]
        | some gate =>
            by_cases hawait : gate.status = .awaiting
            · cases hrun : s.runs[gate.pipelineRunId]? with
              | none => simp [resumeFromReview, hgate, hawait, hrun]
              | some run =>
                  have hway := hdeliver event approved gid gate run hevent happ hseq hgid hgate
                    hawait hrun
                  rw [← resumeFromReview_raised now hgate hawait hrun, hraised] at hway
                  cases hway
            · simp [resumeFromReview, hgate, hawait]
  · -- the gate of the decision that has no way on
    unfold Deliverable at hnot
    push Not at hnot
    obtain ⟨event, approved, gid, gate, run, hevent, happ, hseq, hgid, hgate, hawait, hrun, hway⟩ :=
      hnot
    refine ⟨event, gid, gate, hevent, hgid, hgate, hawait, fun gate' hgate' => ?_⟩
    have hdecided := (dispatchOne_decides now hevent happ hseq hgid hgate hawait hrun hway).2
    rw [hdecided] at hgate'
    cases hgate'
    exact decide_not_awaiting gate approved now

/-! ## A decision without a way on -/

/-- The desk's workflow without the edge of an approval. -/
def stuckWorkflow : WorkflowDefinition :=
  { deskWorkflow with transitions := deskTransitions.take 1 }

def stuckConfig : Config := configOf stuckWorkflow

/-- A draft is approved; the event with the decision is not delivered yet. -/
def decidedOps : List Op := draftedOps ++ [⟨4, .submitReviewDecision 0 0 true none⟩]

/-- The state before the event is delivered. -/
def decidedDb : Db := runOps stuckConfig deskDb decidedOps

/-- The delivery fails, and yet the gate is approved and the run goes on. -/
theorem failed_delivery_decides :
    (orchestration stuckConfig fun _ _ => True).Reachable decidedDb ∧
    (handlerCall stuckConfig decidedDb 5 5).bind Call.raised
      = some (.noMatchingTransition .review .onReviewApproved) ∧
    decidedDb.gates.map ReviewGate.status = [.awaiting] ∧
    (exec stuckConfig decidedDb ⟨5, .dispatchOne 5⟩).gates.map ReviewGate.status = [.approved] ∧
    (exec stuckConfig decidedDb ⟨5, .dispatchOne 5⟩).runs.map PipelineRun.status = [.running] ∧
    ¬ Traceless stuckConfig decidedDb 5 5 := by
  have hraised : (handlerCall stuckConfig decidedDb 5 5).bind Call.raised
      = some (.noMatchingTransition .review .onReviewApproved) := by decide +kernel
  have hbefore : decidedDb.gates.map ReviewGate.status = [.awaiting] := by decide +kernel
  have hafter : (exec stuckConfig decidedDb ⟨5, .dispatchOne 5⟩).gates.map ReviewGate.status
      = [.approved] := by decide +kernel
  refine ⟨runOps_reachable stuckConfig deskDb_fresh decidedOps, hraised, hbefore, hafter,
    by decide +kernel, fun htrace => ?_⟩
  obtain ⟨call, hcall, hraised⟩ := Option.bind_eq_some_iff.mp hraised
  obtain ⟨status, attempts, letters, _, hsame⟩ := htrace call _ hcall hraised
  rw [hsame] at hafter
  cases hbefore.symm.trans hafter

end HumanGate
