import HumanGate.Run.Stages

set_option autoImplicit false

/-! # Routing

What the functions that move a run do, on every branch: `advanceOrFinish_routed` for the
routing itself, `submitResult_success` and `submitResult_failure` for a worker's report, and
`resumeFromReview_resumed` for a decision. `routeTarget` is the stage that a trigger leads to,
in terms of the state before.
-/

namespace HumanGate

open Lib Lib.Calendar Relation

variable {cfg : Config}

/-! ## Where routing leads -/

/-- The stage that a trigger leads to. -/
def routeTarget (cfg : Config) (b : Board) (rid : RunId) (fromStage : ContentStage)
    (trigger : WorkflowTransitionTrigger) (context : JsonObject) : Option WorkflowStage :=
  match b.definition cfg rid with
  | none => none
  | some d =>
      match findTransition d fromStage trigger context with
      | .ok (some t) => d.stageRow t.toStage
      | _ => none

theorem routeTarget_congr {b b' : Board} {rid : RunId}
    (h : b'.definition cfg rid = b.definition cfg rid) (fromStage : ContentStage)
    (trigger : WorkflowTransitionTrigger) (context : JsonObject) :
    routeTarget cfg b' rid fromStage trigger context
      = routeTarget cfg b rid fromStage trigger context := by
  unfold routeTarget
  rw [h]

theorem Db.definition_congr (cfg : Config) {s s' : Db} (h : s'.runs = s.runs) (rid : RunId) :
    s'.board.definition cfg rid = s.board.definition cfg rid := by
  unfold Board.definition
  rw [show s'.board.runs = s.board.runs from h]

/-- The trigger of a review decision. -/
def reviewTrigger (approved : Bool) : WorkflowTransitionTrigger :=
  if approved then .onReviewApproved else .onReviewRejected

/-- The successful result that an operation reports, with its assignment. -/
def Op.reports (o : Op) : Option (AssignmentId × JsonObject) :=
  match o.action with
  | .submitResult aid true result _ _ _ => some (aid, result.getD [])
  | _ => none

/-- The review decision that an operation delivers, with its gate. -/
def Op.delivers (s : Db) (o : Op) : Option (GateId × Bool) :=
  match o.action with
  | .dispatchOne eid => deliveredVerdict s eid
  | .submitAndDeliver gid _ approved _ => some (gid, approved)
  | .decideReviewGate _ gid _ approved _ _ => some (gid, approved)
  | _ => none

/-- What routing may do: raise, end the run in a terminal stage that has no way out, or enter
the stage it leads to. -/
inductive Routed (cfg : Config) (s : Db) (now : Instant) (rid : RunId) (fromStage : ContentStage)
    (trigger : WorkflowTransitionTrigger) (context : JsonObject) : Call → Prop
  | raised {e : Err} : Routed cfg s now rid fromStage trigger context
      { db := s, raised := some e }
  | ended {s' : Db} {d : WorkflowDefinition} {row : WorkflowStage} :
      s.board.definition cfg rid = some d → d.stageRow fromStage = some row →
      row.isTerminal = true → s'.statusOf rid = some .succeeded →
      Routed cfg s now rid fromStage trigger context
        { db := s', entered := some (rid, fromStage) }
  | entered {d : WorkflowDefinition} {row : WorkflowStage} {ws : WorkspaceId} :
      s.board.definition cfg rid = some d →
      routeTarget cfg s.board rid fromStage trigger context = some row →
      d.stageRow row.stageKey = some row →
      Routed cfg s now rid fromStage trigger context (enterStage cfg s now rid ws row)

theorem advanceOrFinish_routed (cfg : Config) (s : Db) (now : Instant) (rid : RunId)
    (fromStage : ContentStage)
    (trigger : WorkflowTransitionTrigger) (context : JsonObject) :
    Routed cfg s now rid fromStage trigger context
      (advanceOrFinish cfg s now rid fromStage trigger context) := by
  unfold advanceOrFinish
  split
  · exact .raised
  · rename_i run hrun
    split
    · exact .raised
    · rename_i d hd
      have hdef : s.board.definition cfg rid = some d := by
        unfold Board.definition
        rw [show s.board.runs[rid]? = some run from hrun]
        exact definitionOf_ok hd
      split
      · exact .raised
      · split
        · exact .raised
        · rename_i row hrow
          split
          · rename_i hterm
            refine .ended hdef (getStageDef_ok hrow) hterm ?_
            exact Option.map_eq_some_iff.mpr
              ⟨_, Table.get_modify_self (Table.get_modify_self hrun), rfl⟩
          · exact .raised
      · rename_i t ht
        split
        · exact .raised
        · rename_i row hrow
          have hrow' := getStageDef_ok hrow
          refine .entered hdef ?_ ?_
          · unfold routeTarget
            simp only [hdef, ht, hrow']
          · rw [stageRow_key hrow']
            exact hrow'

/-- Entering a stage is recorded. -/
theorem enterStage_entered (s : Db) (now : Instant) (rid : RunId) (ws : WorkspaceId)
    (row : WorkflowStage) :
    (enterStage cfg s now rid ws row).entered = some (rid, row.stageKey) := by
  unfold enterStage
  simp only
  split
  · rfl
  · split <;> rfl

/-! ## The flushed gates -/

/-- Queries see the gates as they are. -/
def Db.Synced (s : Db) : Prop := s.gateColumn = s.gates.map ReviewGate.status

theorem exec_synced {s : Db} {o : Op} (hs : s.Synced) : (exec cfg s o).Synced := by
  unfold exec Call.commit
  split
  · exact hs
  · rfl

theorem Fresh.synced {s : Db} (h : Fresh s) : s.Synced := by
  unfold Db.Synced
  rw [h.gates, h.gateColumn]
  rfl

theorem awaitingGates_congr {s s' : Db} (hs : s.Synced) (hs' : s'.Synced)
    (hg : s'.gates = s.gates) (rid : RunId) : awaitingGates s' rid = awaitingGates s rid := by
  unfold awaitingGates
  rw [hs', hs, hg]

theorem mem_awaitingGates {s : Db} (hs : s.Synced) {rid : RunId} {gid : GateId}
    (h : gid ∈ awaitingGates s rid) :
    ∃ g, s.gates[gid]? = some g ∧ g.pipelineRunId = rid ∧ g.status = .awaiting := by
  unfold awaitingGates at h
  rw [List.mem_filter, Table.mem_select] at h
  obtain ⟨⟨g, hg, hr⟩, hc⟩ := h
  refine ⟨g, hg, by simpa using hr, ?_⟩
  rw [hs, List.getElem?_map, hg] at hc
  simpa using hc

theorem commitSpend_synced {s s' : Db} {now : Instant} {rid : RunId} {ws : WorkspaceId}
    {resId : ReservationId} {actual : Decimal} (hs : s.Synced)
    (h : commitSpend s now rid ws resId actual = .ok s') : s'.Synced := by
  unfold commitSpend at h
  split at h
  · cases h; exact hs
  · split at h
    · cases h; exact hs
    · cases h
    · split at h
      · cases h
      · cases h; rfl

/-! ## A worker's report -/

/-- Recording a result leaves the runs and the gates. -/
theorem recordResult_same {s s' : Db} {now : Instant} {aid : AssignmentId} {a : StageAssignment}
    {run : PipelineRun} {success : Bool} {result : Option JsonObject} {errorMessage : String}
    (h : recordResult s now aid a run success result errorMessage = .ok s') :
    s'.runs = s.runs ∧ s'.gates = s.gates ∧ s'.jobs = s.jobs := by
  have hboard := recordResult_ok h
  refine ⟨(congrArg Board.runs hboard).trans (freeSlot_runs ..),
    (congrArg Board.gates hboard).trans ?_, (congrArg Board.jobs hboard).trans ?_⟩
  · show (freeSlot _ _ _).gates = _
    unfold freeSlot
    split <;> rfl
  · show (freeSlot _ _ _).jobs = _
    unfold freeSlot
    split <;> rfl

/-- A successful result that is accepted: the run is over (or gone), or it is routed from the
stage of the assignment, with the runs and the gates as they were. -/
theorem submitResult_success {s : Db} {now : Instant} {aid : AssignmentId}
    {result : Option JsonObject} {errorMessage : String} {worker : Option WorkerId} {jitter : Nat}
    (h : (submitResult cfg s now aid true result errorMessage worker jitter).raised = none) :
    ∃ a, s.assignments[aid]? = some a ∧
      (((submitResult cfg s now aid true result errorMessage worker jitter).entered = none ∧
        (submitResult cfg s now aid true result errorMessage worker jitter).db.runs = s.runs ∧
        ∀ run, s.runs[a.pipelineRunId]? = some run → run.status.isTerminal = true) ∨
      ∃ s2 : Db, s2.runs = s.runs ∧ s2.gates = s.gates ∧ s2.Synced ∧
        submitResult cfg s now aid true result errorMessage worker jitter
          = advanceOrFinish cfg s2 now a.pipelineRunId a.stage .onSuccess (result.getD [])) := by
  unfold submitResult at h ⊢
  split at h
  · cases h
  · rename_i a ha
    refine ⟨a, ha, ?_⟩
    split at h
    · cases h
    · split at h
      · rename_i hnone
        refine .inl ⟨rfl, freeSlot_runs .., fun run hrun => ?_⟩
        rw [hnone] at hrun
        cases hrun
      · rename_i run hrun
        split at h
        · cases h
        · rename_i s1 hrecord
          obtain ⟨hruns, hgates, _⟩ := recordResult_same hrecord
          rw [if_pos rfl] at h ⊢
          unfold submitSuccess at h ⊢
          simp only at h ⊢
          split at h
          · cases h
          · rename_i s2 hcommit
            -- the commit of the spend leaves runs and gates alone
            have hs2 : s2.board = s1.board ∧ s2.Synced := by
              have hemit : (s1.emit now .stageCompleted a.workspaceId a.pipelineRunId).Synced := rfl
              split at hcommit
              · cases hcommit
                exact ⟨rfl, hemit⟩
              · exact ⟨board_of_core ((core_commitSpend hcommit).trans rfl),
                  commitSpend_synced hemit hcommit⟩
            have hruns2 : s2.runs = s.runs := (congrArg Board.runs hs2.1).trans hruns
            have hgates2 : s2.gates = s.gates := (congrArg Board.gates hs2.1).trans hgates
            unfold handleStageSuccess at h ⊢
            split at h
            · cases h
            · rename_i run2 hrun2
              split at h
              · rename_i hterm
                refine .inl ⟨by rw [if_pos hterm], by rw [if_pos hterm]; exact hruns2, ?_⟩
                intro run' hrun'
                rw [← hruns2, hrun2] at hrun'
                cases hrun'
                exact hterm
              · rename_i hlive
                exact .inr ⟨s2, hruns2, hgates2, hs2.2, by rw [if_neg hlive]⟩

/-- Pending work for a stage of a run: a job to be processed, or an open assignment. -/
def Board.HasWork (b : Board) (rid : RunId) (stage : ContentStage) : Prop :=
  (∃ j ∈ b.jobs, j.isWork = true ∧ j.isLive = true ∧ j.refId = .run rid ∧
    j.refTable = stage.value) ∨
  ∃ a ∈ b.assignments, a.pipelineRunId = rid ∧ a.stage = stage ∧ a.status.isOpen = true

/-- A stage that is enqueued has work. -/
theorem enqueueStage_hasWork (s : Db) (now : Instant) (rid : RunId) (ws : WorkspaceId)
    (stage : ContentStage) (attempt : Nat) (runAfter : Instant) :
    (enqueueStage cfg s now rid ws stage attempt runAfter).board.HasWork rid stage := by
  refine .inl ⟨_, List.mem_append_right _ (List.mem_singleton_self _), ?_, rfl, rfl, rfl⟩
  by_cases h : attempt = 0 <;> simp [stageJob, JobSchedule.isWork, h]

theorem failRun_statusOf {s : Db} {now : Instant} {rid : RunId} {ws : WorkspaceId}
    {run : PipelineRun} (hrun : s.runs[rid]? = some run) :
    (failRun s now rid ws).statusOf rid = some .failed := by
  show ((failRun s now rid ws).board.runs[rid]?).map _ = _
  unfold failRun
  rw [board_releaseAllReservations]
  exact Option.map_eq_some_iff.mpr ⟨_, Table.get_modify_self hrun, rfl⟩

/-- A failed attempt is retried, or the run fails. -/
theorem handleStageFailure_retried {s s' : Db} {now : Instant} {rid : RunId}
    {stage : ContentStage} {stageText : String} {attempt : Nat} {errorMessage : String}
    {jitter : Nat}
    (h : handleStageFailure cfg s now rid stage stageText attempt errorMessage jitter = .ok s') :
    s'.board.HasWork rid stage ∨ s'.statusOf rid = some .failed := by
  unfold handleStageFailure at h
  split at h
  · cases h
  · rename_i run hrun
    simp only at h
    split at h
    · cases h
    · split at h
      · cases h
      · rename_i row hrow
        split at h
        · cases h
          exact .inl (enqueueStage_hasWork ..)
        · right
          have hfailed : (giveUpStage (s.emit now .stageFailed run.workspaceId rid) now rid run
              stageText attempt errorMessage).statusOf rid = some .failed := failRun_statusOf hrun
          split at h
          · cases h
            exact hfailed
          · unfold triggerCompensation at h
            split at h
            · cases h
            · cases h
              obtain ⟨run', hrun', _⟩ := Option.map_eq_some_iff.mp hfailed
              exact Option.map_eq_some_iff.mpr ⟨_, Table.get_modify_self hrun', rfl⟩

theorem ofExcept_entered (s : Db) (e : Except Err Db) : (Call.ofExcept s e).entered = none := by
  cases e <;> rfl

theorem ofExcept_ok {P : Db → Prop} {s : Db} {e : Except Err Db}
    (hraised : (Call.ofExcept s e).raised = none) (h : ∀ s', e = .ok s' → P s') :
    P (Call.ofExcept s e).db := by
  cases e with
  | error _ => cases hraised
  | ok s' => exact h s' rfl

/-- A failure that is accepted: the run is gone, the stage has work again, or the run fails. -/
theorem submitResult_failure {s : Db} {now : Instant} {aid : AssignmentId}
    {result : Option JsonObject} {errorMessage : String} {worker : Option WorkerId} {jitter : Nat}
    (h : (submitResult cfg s now aid false result errorMessage worker jitter).raised = none) :
    (submitResult cfg s now aid false result errorMessage worker jitter).entered = none ∧
    ∃ a, s.assignments[aid]? = some a ∧ (s.runs[a.pipelineRunId]? = none ∨
      (submitResult cfg s now aid false result errorMessage worker jitter).db.board.HasWork
        a.pipelineRunId a.stage ∨
      (submitResult cfg s now aid false result errorMessage worker jitter).db.statusOf
        a.pipelineRunId = some .failed) := by
  unfold submitResult at h ⊢
  split at h
  · cases h
  · rename_i a ha
    split at h
    · cases h
    · split at h
      · rename_i hnone
        exact ⟨rfl, a, ha, .inl hnone⟩
      · rename_i run hrun
        split at h
        · cases h
        · rename_i s1 hrecord
          rw [if_neg Bool.false_ne_true] at h ⊢
          unfold submitFailure at h ⊢
          simp only at h ⊢
          exact ⟨ofExcept_entered .., a, ha, .inr (ofExcept_ok
            (P := fun t => t.board.HasWork a.pipelineRunId a.stage ∨
              t.statusOf a.pipelineRunId = some .failed) h fun _ => handleStageFailure_retried)⟩

/-! ## A review decision -/

/-- What a decision on a gate may do to the run: leave it, fail it, or resume and route it. -/
inductive Resumed (cfg : Config) (s : Db) (now : Instant) (gid : GateId) (approved : Bool) :
    Call → Prop
  | still {c : Call} : c.entered = none → c.db.runs = s.runs → c.db.jobs = s.jobs →
      c.db.assignments = s.assignments → Resumed cfg s now gid approved c
  | failed {c : Call} {g : ReviewGate} : s.gates[gid]? = some g → c.entered = none →
      c.db.statusOf g.pipelineRunId = some .failed → Resumed cfg s now gid approved c
  | routed {g : ReviewGate} {s2 : Db} : s.gates[gid]? = some g →
      resumeOverwrites cfg s gid approved = some (g.pipelineRunId, .running) →
      s2.board = ((s.updateGate gid (ReviewGate.decide approved now)).updateRun g.pipelineRunId
        PipelineRun.resume).board →
      Resumed cfg s now gid approved (advanceOrFinish cfg s2 now g.pipelineRunId g.stage
        (reviewTrigger approved) [])

theorem resumeFromReview_resumed (cfg : Config) (s : Db) (now : Instant) (gid : GateId)
    (approved : Bool) :
    Resumed cfg s now gid approved (resumeFromReview cfg s now gid approved) := by
  unfold resumeFromReview
  split
  · exact .still rfl rfl rfl rfl
  · rename_i g hg
    split
    · exact .still rfl rfl rfl rfl
    · rename_i hstatus
      split
      · exact .still rfl rfl rfl rfl
      · rename_i run hrun
        simp only
        split
        · rename_i happ
          subst happ
          refine .routed hg ?_ rfl
          unfold resumeOverwrites
          simp only [hg, if_neg hstatus, hrun, if_true]
        · rename_i happ
          have happ' : approved = false := by simpa using happ
          subst happ'
          split
          · exact .still rfl rfl rfl rfl
          · rename_i d hd
            split
            · exact .still rfl rfl rfl rfl
            · exact .failed hg rfl (failRun_statusOf (Table.get_modify_self hrun))
            · rename_i t ht
              refine .routed hg ?_ rfl
              unfold resumeOverwrites
              simp only [hg, if_neg hstatus, hrun, hd, ht, Bool.false_eq_true, if_false]

/-- The delivery of a decision: the state `s1` with the decision recorded, and there nothing
more, or the decision applied. -/
structure Delivered (cfg : Config) (s : Db) (now : Instant) (gid : GateId) (approved : Bool)
    (c : Call) (s1 : Db) : Prop where
  runs : s1.runs = s.runs
  jobs : s1.jobs = s.jobs
  assignments : s1.assignments = s.assignments
  gate : ∀ g1, s1.gates[gid]? = some g1 → ∃ g, s.gates[gid]? = some g ∧
    g1.pipelineRunId = g.pipelineRunId ∧ g1.stage = g.stage
  overwrites : resumeOverwrites cfg s1 gid approved = resumeOverwrites cfg s gid approved
  applied : (c.db.board = s1.board ∧ c.entered = none) ∨
    (c.db.board = (resumeFromReview cfg s1 now gid approved).db.board ∧
      c.entered = (resumeFromReview cfg s1 now gid approved).entered)

/-- Nothing is delivered. -/
theorem Delivered.none {s : Db} {now : Instant} {gid : GateId} {approved : Bool} {c : Call}
    (hdb : c.db = s) (hentered : c.entered = none) : Delivered cfg s now gid approved c s :=
  ⟨rfl, rfl, rfl, fun g hg => ⟨g, hg, rfl, rfl⟩, rfl, .inl ⟨by rw [hdb], hentered⟩⟩

theorem dispatchOne_delivered {s : Db} {now : Instant} {eid : EventId} {gid : GateId}
    {approved : Bool} (h : deliveredVerdict s eid = some (gid, approved)) :
    Delivered cfg s now gid approved (dispatchOne cfg s now eid) s := by
  refine ⟨rfl, rfl, rfl, fun g hg => ⟨g, hg, rfl, rfl⟩, rfl, ?_⟩
  right
  unfold deliveredVerdict at h
  unfold dispatchOne
  cases hevent : s.outbox[eid]? with
  | none =>
      rw [hevent] at h
      cases h
  | some event =>
      simp only [hevent] at h ⊢
      split at h
      · rename_i approved' gid' happ hgid
        split at h
        · cases h
        · rename_i hseq
          cases h
          simp only [happ, if_neg hseq, onReview, hgid]
          split
          · exact ⟨rfl, rfl⟩
          · exact ⟨board_failDelivery .., rfl⟩
      · cases h

theorem dispatchOne_stale {s : Db} {now : Instant} {eid : EventId}
    (h : deliveredVerdict s eid = none) :
    (dispatchOne cfg s now eid).db.board = s.board ∧
    (dispatchOne cfg s now eid).entered = none := by
  unfold deliveredVerdict at h
  unfold dispatchOne
  cases hevent : s.outbox[eid]? with
  | none => exact ⟨rfl, rfl⟩
  | some event =>
      simp only [hevent] at h ⊢
      cases happ : reviewHandler event.eventType with
      | none => exact ⟨rfl, rfl⟩
      | some approved =>
          simp only
          split
          · exact ⟨rfl, rfl⟩
          · rename_i hseq
            cases hgid : event.reviewGateId with
            | none =>
                simp only [onReview, hgid]
                exact ⟨board_failDelivery .., trivial⟩
            | some gid => simp [happ, hgid, hseq] at h

/-- The event of a recorded decision is delivered, or it is a stale one. -/
theorem submitAndDeliver_delivered (s : Db) (now : Instant) (gid : GateId) (reviewer : UserId)
    (approved : Bool) (notes : Option String) :
    ∃ s1, Delivered cfg s now gid approved
      (submitAndDeliver cfg s now gid reviewer approved notes) s1 := by
  unfold submitAndDeliver
  split
  · exact ⟨s, .none rfl rfl⟩
  · rename_i s1 eid hsubmit
    obtain ⟨_, hverdict, hover⟩ := submitReviewDecision_backed cfg hsubmit
    obtain ⟨hruns, g, hg, hg1⟩ := submitReviewDecision_gate hsubmit
    have hrows : s1.jobs = s.jobs ∧ s1.assignments = s.assignments := by
      unfold submitReviewDecision at hsubmit
      split at hsubmit
      · cases hsubmit
      · split at hsubmit
        · cases hsubmit
        · split at hsubmit
          · cases hsubmit
          · cases hsubmit
            exact ⟨rfl, rfl⟩
    refine ⟨s1, hruns, hrows.1, hrows.2, fun g1 h1 => ?_, hover approved, ?_⟩
    · rw [hg1] at h1
      cases h1
      exact ⟨g, hg, rfl, rfl⟩
    · cases hd : deliveredVerdict s1 eid with
      | none => exact .inl (dispatchOne_stale hd)
      | some v =>
          obtain ⟨rfl, rfl⟩ := hverdict v.1 v.2 hd
          exact (dispatchOne_delivered hd).applied

theorem decideReviewGate_delivered (s : Db) (now : Instant) (ws : WorkspaceId) (gid : GateId)
    (reviewer : UserId) (approved : Bool) (expected : Option VersionId) (notes : Option String) :
    ∃ s1, Delivered cfg s now gid approved
      (decideReviewGate cfg s now ws gid reviewer approved expected notes) s1 := by
  unfold decideReviewGate
  split
  · exact ⟨s, .none rfl rfl⟩
  · split
    · exact ⟨s, .none rfl rfl⟩
    · split
      · exact ⟨s, .none rfl rfl⟩
      · split
        · exact ⟨s, .none rfl rfl⟩
        · split
          · exact ⟨s, .none rfl rfl⟩
          · simp only
            split
            · exact ⟨s, .none rfl rfl⟩
            · exact submitAndDeliver_delivered s now gid reviewer approved notes

/-- **Every delivery of a decision** records it and then applies it or not. -/
theorem call_delivered (cfg : Config) {s : Db} {o : Op} {gid : GateId} {approved : Bool}
    (h : o.delivers s = some (gid, approved)) :
    ∃ s1, Delivered cfg s o.now gid approved (o.call cfg s) s1 := by
  obtain ⟨now, action⟩ := o
  cases action with
  | dispatchOne eid => exact ⟨s, dispatchOne_delivered h⟩
  | submitAndDeliver gid' reviewer approved' notes =>
      cases h
      exact submitAndDeliver_delivered s now gid reviewer approved notes
  | decideReviewGate ws gid' reviewer approved' expected notes =>
      cases h
      exact decideReviewGate_delivered s now ws gid reviewer approved expected notes
  | _ => cases h

end HumanGate
