import HumanGate.Docket.Turns
import HumanGate.Run.Routing

set_option autoImplicit false

/-! # The controller on the dockets

What the functions of the controller do to the docket of the run they are about. Those that put
a new work item on a docket are called when the old one is used up, so they start from a docket
without work items.
-/

namespace HumanGate

open Lib Lib.Calendar Relation

variable {cfg : Config} {s t u : Db} {now : Instant} {rid : RunId} {run : PipelineRun}
  {reserved : ContentStage → Nat}

theorem docket_trans {d e : Docket} (h : t.docket = Function.update s.docket rid d)
    (h' : u.docket = Function.update t.docket rid e) :
    u.docket = Function.update s.docket rid e := by
  rw [h', h, Function.update_idem]

theorem docket_self {d : Docket} (h : t.docket = Function.update s.docket rid d) :
    t.docket rid = d := by
  rw [h, Function.update_self]

/-! ## Enqueueing -/

theorem stageJob_waitsFor (cfg : Config) (now : Instant) (rid : RunId) (ws : WorkspaceId)
    (stage : String) (attempt : Nat) (runAfter : Instant) :
    (stageJob cfg now rid ws stage attempt runAfter).waitsFor rid = true := by
  by_cases h : attempt = 0
  · simp [stageJob, JobSchedule.waitsFor, JobSchedule.isWork, JobSchedule.isLive, h]
  · simp [stageJob, JobSchedule.waitsFor, JobSchedule.isWork, JobSchedule.isLive, h]

theorem docket_enqueueStage (h : s.docket rid = .idle (some run) reserved) (ws : WorkspaceId)
    (stage : ContentStage) (attempt : Nat) (runAfter : Instant) :
    (enqueueStage cfg s now rid ws stage attempt runAfter).docket = Function.update s.docket rid
      (.queued (some run) (stageJob cfg now rid ws stage.value attempt runAfter) reserved) := by
  unfold enqueueStage
  rw [docket_flush, docket_pushJob s (stageJob_waitsFor ..), h]
  rfl

/-! ## Routing -/

/-- The run is paused at a new gate. The timer of the gate is no work item. -/
theorem docket_openGate (h : s.docket rid = .idle (some run) reserved) {g : ReviewGate}
    {timer : JobSchedule} (hg : g.awaitedBy rid = true) (htimer : timer.isWork = false) :
    Db.docket { s.updateRun rid PipelineRun.pauseForReview with
      gates := s.gates ++ [g]
      jobs := s.jobs ++ [timer] } = Function.update s.docket rid
        (.gated (some run.pauseForReview) g reserved) := by
  have hheld : (s.updateRun rid PipelineRun.pauseForReview).docket
      = Function.update s.docket rid (.idle (some run.pauseForReview) reserved) := by
    rw [docket_updateRun, h]
    rfl
  have hgate : Db.docket { s.updateRun rid PipelineRun.pauseForReview with gates := s.gates ++ [g] }
      = Function.update s.docket rid (.gated (some run.pauseForReview) g reserved) := by
    refine docket_trans hheld ((docket_pushGate _ hg).trans ?_)
    rw [docket_self hheld]
    rfl
  refine Eq.trans (docket_pushJobs { s.updateRun rid PipelineRun.pauseForReview with
    gates := s.gates ++ [g] } fun j hj => ?_) hgate
  rw [List.mem_singleton] at hj
  rw [hj]
  exact htimer

/-- A gate is opened, or the call leaves the tables. -/
theorem pauseForReview_docket (h : s.docket rid = .idle (some run) reserved)
    (stage : ContentStage) (timeoutSeconds : Nat) :
    (pauseForReview s now rid stage timeoutSeconds).db.docket = s.docket ∨
    ∃ g : ReviewGate, g.stage = stage ∧ g.pipelineRunId = rid ∧ g.status = .awaiting ∧
      (pauseForReview s now rid stage timeoutSeconds).db.docket = Function.update s.docket rid
        (.gated (some run.pauseForReview) g reserved) := by
  have hrun : s.runs[rid]? = some run := congrArg Docket.run h
  unfold pauseForReview
  simp only [hrun]
  split
  · exact .inl rfl
  · split
    · exact .inl rfl
    · exact .inl rfl
    · split
      · exact .inl rfl
      · right
        refine ⟨_, ?_, ?_, ?_, (docket_emit ..).trans (docket_openGate h ?_ ?_)⟩
        · rfl
        · rfl
        · rfl
        · simp [ReviewGate.awaitedBy]
        · rfl

/-- The run enters a stage that an edge leads to. -/
theorem enterStage_docket (h : s.docket rid = .idle (some run) reserved)
    {fromStage : ContentStage} {row : WorkflowStage} (hedge : Edge cfg run fromStage row)
    (ws : WorkspaceId) :
    ∃ d, Docket.Route cfg now rid run fromStage reserved d ∧
      (enterStage cfg s now rid ws row).db.docket = Function.update s.docket rid d := by
  have hin : (s.updateRun rid (PipelineRun.enter row.stageKey)).docket
      = Function.update s.docket rid (.idle (some (run.enter row.stageKey)) reserved) := by
    rw [docket_updateRun, h]
    rfl
  unfold enterStage
  simp only
  split
  · rename_i hterm
    refine ⟨_, .finished hedge hterm, docket_trans hin ?_⟩
    rw [docket_emit, docket_updateRun, docket_self hin]
    rfl
  · rename_i hterm
    split
    · rename_i hflag
      rcases pauseForReview_docket (docket_self hin) row.stageKey row.timeoutSeconds with
        hsame | ⟨g, hstage, hrun, hst, hopened⟩
      · exact ⟨_, .stuck hedge hflag, hsame.trans hin⟩
      · exact ⟨_, .paused hedge (Bool.not_eq_true _ ▸ hterm) hflag hstage hrun hst,
          docket_trans hin hopened⟩
    · rename_i hflag
      exact ⟨_, .enqueued hedge (Bool.not_eq_true _ ▸ hterm) (Bool.not_eq_true _ ▸ hflag),
        docket_trans hin (docket_enqueueStage (docket_self hin) ..)⟩

/-- Routing raises before it writes anything, or it leads the run on. -/
theorem advanceOrFinish_docket (h : s.docket rid = .idle (some run) reserved)
    (fromStage : ContentStage) (trigger : WorkflowTransitionTrigger) (context : JsonObject) :
    ((advanceOrFinish cfg s now rid fromStage trigger context).db = s ∧
      (advanceOrFinish cfg s now rid fromStage trigger context).raised.isSome = true) ∨
    ∃ d, Docket.Route cfg now rid run fromStage reserved d ∧
      (advanceOrFinish cfg s now rid fromStage trigger context).db.docket
        = Function.update s.docket rid d := by
  have hrun : s.runs[rid]? = some run := congrArg Docket.run h
  unfold advanceOrFinish
  simp only [hrun]
  split
  · exact .inl ⟨rfl, rfl⟩
  · rename_i d hd
    split
    · exact .inl ⟨rfl, rfl⟩
    · split
      · exact .inl ⟨rfl, rfl⟩
      · split
        · right
          refine ⟨_, .ended, ?_⟩
          have hdone : (s.updateRun rid (PipelineRun.succeed now)).docket
              = Function.update s.docket rid (.idle (some (run.succeed now)) reserved) := by
            rw [docket_updateRun, h]
            rfl
          refine docket_trans hdone ?_
          rw [docket_emit, docket_updateRun, docket_self hdone]
          rfl
        · exact .inl ⟨rfl, rfl⟩
    · rename_i w hw
      split
      · exact .inl ⟨rfl, rfl⟩
      · rename_i row hrow
        obtain ⟨hmem, hfrom, _⟩ := findTransition_spec hw
        have hkey := stageRow_key (getStageDef_ok hrow)
        refine .inr (enterStage_docket h ⟨d, w, definitionOf_ok hd, hmem, hfrom, hkey.symm, ?_⟩ _)
        rw [hkey]
        exact getStageDef_ok hrow

/-! ## Failing and cancelling -/

theorem docket_failRun (s : Db) (now : Instant) (rid : RunId) (ws : WorkspaceId) :
    (failRun s now rid ws).docket = Function.update s.docket rid
      { s.docket rid with
        run := (s.docket rid).run.map (PipelineRun.fail now)
        reserved := fun _ => 0 } := by
  unfold failRun
  rw [docket_releaseAll, docket_emit, docket_updateRun, Function.update_idem, Function.update_self]

/-- A failed attempt is enqueued again, or the run fails. -/
theorem handleStageFailure_docket (h : s.docket rid = .idle (some run) reserved)
    {stage : ContentStage} {stageText : String} {attempt : Nat} {errorMessage : String}
    {jitter : Nat}
    (hok : handleStageFailure cfg s now rid stage stageText attempt errorMessage jitter = .ok t) :
    (∃ d row ws runAfter, run.pinned cfg = some d ∧ d.stageRow stage = some row ∧
      attempt < row.maxAttempts ∧ t.docket = Function.update s.docket rid
        (.queued (some run) (stageJob cfg now rid ws stage.value attempt runAfter) reserved)) ∨
    ∃ run', (run' = run.fail now ∨ run' = (run.fail now).markFailed) ∧
      t.docket = Function.update s.docket rid (.idle (some run') fun _ => 0) := by
  have hrun : s.runs[rid]? = some run := congrArg Docket.run h
  unfold handleStageFailure at hok
  simp only [hrun] at hok
  split at hok
  · cases hok
  · rename_i d hd
    split at hok
    · cases hok
    · rename_i row hrow
      split at hok
      · rename_i hretry
        cases hok
        unfold mayRetry at hretry
        rw [Bool.and_eq_true, decide_eq_true_eq] at hretry
        exact .inl ⟨d, row, _, _, definitionOf_ok hd, getStageDef_ok hrow, hretry.2,
          docket_enqueueStage h ..⟩
      · right
        -- the run fails, and its reservations are released
        have hfail : (giveUpStage (s.emit now .stageFailed run.workspaceId rid) now rid run
            stageText attempt errorMessage).docket
              = Function.update s.docket rid (.idle (some (run.fail now)) fun _ => 0) := by
          unfold giveUpStage
          rw [docket_failRun, docket_routeToDeadLetter, docket_emit, h]
          rfl
        split at hok
        · cases hok
          exact ⟨_, .inl rfl, hfail⟩
        · unfold triggerCompensation at hok
          split at hok
          · cases hok
          · rename_i jobs hjobs
            cases hok
            refine ⟨_, .inr rfl, docket_trans hfail ?_⟩
            refine Eq.trans (docket_pushJobs (Db.updateRun _ rid PipelineRun.markFailed) ?_) ?_
            · intro j hj
              have htype := compensationJobs_type hjobs j hj
              simp [JobSchedule.isWork, htype]
            · rw [docket_updateRun, docket_self hfail]
              rfl

theorem cancelAssignments_eq (now : Instant) (ids : List AssignmentId) : ∀ s : Db,
    cancelAssignments s now ids = { s with
      assignments := Table.modifyAll (fun a => { a.cancel with updatedAt := now }) ids
        s.assignments } := by
  induction ids with
  | nil => intro s; rfl
  | cons aid rest ih =>
      intro s
      rw [cancelAssignments, ih]
      rfl

/-- All open assignments of a run are cancelled. -/
theorem docket_cancelAssignments (s : Db) (now : Instant) (rid : RunId) :
    (cancelAssignments s now (openAssignments s rid)).docket = Function.update s.docket rid
      { s.docket rid with rows := [] } := by
  have hclosed : ∀ (r : RunId) (a : StageAssignment),
      StageAssignment.openFor r { a.cancel with updatedAt := now } = false := by
    intro r a
    simp [StageAssignment.openFor, StageAssignment.cancel, StageAssignmentStatus.isOpen]
  rw [cancelAssignments_eq]
  funext r
  by_cases hr : r = rid
  · subst hr
    rw [Function.update_self]
    refine Docket.ext rfl rfl ?_ rfl rfl
    refine Table.filter_modifyAll_none (hclosed r) _ fun i a ha hopen => ?_
    exact Table.mem_select.mpr ⟨a, ha, hopen⟩
  · rw [Function.update_of_ne hr]
    refine Docket.ext rfl rfl ?_ rfl rfl
    refine Table.filter_modifyAll_same (hclosed r) _ fun i hi a ha => ?_
    obtain ⟨a', ha', hopen⟩ := Table.mem_select.mp hi
    rw [ha] at ha'
    cases ha'
    have hrun := (openFor_iff.mp hopen).1
    rw [← Bool.not_eq_true, openFor_iff]
    exact fun h => hr (h.1.symm.trans hrun)

/-! ## Turns of one function

What a function does to the dockets: nothing, or one turn of one run. -/

/-- The dockets take at most one turn. -/
abbrev Turned (cfg : Config) (now : Instant) (s t : Db) : Prop :=
  ReflGen (Lib.Family.Step (Docket.Turn cfg now)) s.docket t.docket

theorem Turned.same (h : t.docket = s.docket) : Turned cfg now s t := by
  unfold Turned
  rw [h]

theorem Turned.of_eq {d : Docket} (heq : t.docket = Function.update s.docket rid d)
    (h : Docket.Turn cfg now rid (s.docket rid) d) : Turned cfg now s t :=
  .single (.of_eq h heq)

theorem cancelRun_turned (s : Db) (now : Instant) (rid : RunId) :
    Turned cfg now s (cancelRun s now rid) := by
  unfold cancelRun
  split
  · exact .refl
  · rename_i run hrun
    split
    · exact .refl
    · rename_i hterm
      have hrows := docket_cancelAssignments s now rid
      generalize cancelAssignments s now (openAssignments s rid) = s1 at hrows
      have hcancel : (s1.updateRun rid (PipelineRun.cancel now)).docket
          = Function.update s.docket rid ⟨some (run.cancel now), (s.docket rid).jobs, [],
            (s.docket rid).gates, (s.docket rid).reserved⟩ := by
        rw [docket_updateRun, hrows, Function.update_idem, Function.update_self]
        simp only [show (s.docket rid).run = some run from hrun, Option.map_some]
      have hreleased := docket_releaseAll (s1.updateRun rid (PipelineRun.cancel now)) now rid
        run.workspaceId
      rw [docket_self hcancel] at hreleased
      refine .of_eq (docket_trans hcancel ((docket_emit ..).trans hreleased)) ?_
      · have hd : s.docket rid = ⟨some run, (s.docket rid).jobs, (s.docket rid).rows,
            (s.docket rid).gates, (s.docket rid).reserved⟩ := Docket.ext hrun rfl rfl rfl rfl
        rw [hd]
        exact .cancel (by simpa using hterm)

/-! ## Starting a run -/

theorem docket_pushRun (s : Db) (run : PipelineRun) :
    Db.docket { s with runs := s.runs ++ [run] } = Function.update s.docket s.runs.length
      { s.docket s.runs.length with run := some run } := by
  funext r
  by_cases h : r = s.runs.length
  · subst h
    rw [Function.update_self]
    exact Docket.ext (Table.get_push_new ..) rfl rfl rfl rfl
  · rw [Function.update_of_ne h]
    refine Docket.ext ?_ rfl rfl rfl rfl
    show (s.runs ++ [run])[r]? = s.runs[r]?
    rcases Nat.lt_or_gt_of_ne h with hlt | hgt
    · exact List.getElem?_append_left hlt
    · rw [List.getElem?_eq_none (by simp; omega), List.getElem?_eq_none (by omega)]

theorem startRun_turned (hs : ∀ r, (s.docket r).Sound) (ws : WorkspaceId) (item : ItemId)
    (definition : DefinitionId) : Turned cfg now s (startRun cfg s now ws item definition).db := by
  unfold startRun
  split
  · rename_i d _ hd _
    split
    · exact .refl
    · rename_i first hfirst
      have hnone : (s.docket s.runs.length).run = none := List.getElem?_eq_none (Nat.le_refl _)
      have hidle : s.docket s.runs.length = .idle none (s.docket s.runs.length).reserved := by
        have hitems := (hs s.runs.length).real hnone
        simp only [Docket.items] at hitems
        refine Docket.ext hnone ?_ ?_ ?_ rfl
        · exact List.length_eq_zero_iff.mp (by omega)
        · exact List.length_eq_zero_iff.mp (by omega)
        · exact List.length_eq_zero_iff.mp (by omega)
      simp only
      have hpush : ∀ run : PipelineRun, Db.docket { s with runs := s.runs ++ [run] }
          = Function.update s.docket s.runs.length
            (.idle (some run) (s.docket s.runs.length).reserved) := by
        intro run
        rw [docket_pushRun, hidle]
        rfl
      refine .of_eq (docket_trans (hpush _) (docket_enqueueStage (docket_self (hpush _)) ..)) ?_
      rw [hidle]
      exact .start hd hfirst rfl rfl rfl
  · exact .refl

/-! ## Review decisions -/

/-- The gate that a run waits at is decided: the run has no work. -/
theorem docket_closeGate {gid : GateId} {g : ReviewGate} {f : ReviewGate → ReviewGate}
    (h : s.docket g.pipelineRunId = .gated (some run) g reserved)
    (hg : s.gates[gid]? = some g) (hst : g.status = .awaiting)
    (hrun : (f g).pipelineRunId = g.pipelineRunId) (hclosed : (f g).status ≠ .awaiting) :
    (s.updateGate gid f).docket = Function.update s.docket g.pipelineRunId
      (.idle (some run) reserved) := by
  have hsingle : (s.docket g.pipelineRunId).Single := by
    rw [h]
    exact Nat.le_refl 1
  have hnot : (f g).awaitedBy g.pipelineRunId = false := by
    rw [← Bool.not_eq_true, awaitedBy_iff]
    exact fun hw => hclosed hw.2
  rw [docket_updateGate hsingle hg (awaitedBy_iff.mpr ⟨rfl, hst⟩) hrun, h,
    List.filter_cons_of_neg (by rw [hnot]; exact Bool.false_ne_true)]
  rfl

theorem docket_of_awaiting (hs : ∀ r, (s.docket r).Sound) {gid : GateId} {g : ReviewGate}
    (hg : s.gates[gid]? = some g) (hst : g.status = .awaiting) :
    ∃ run reserved, s.runs[g.pipelineRunId]? = some run ∧
      s.docket g.pipelineRunId = .gated (some run) g reserved := by
  have hd := docket_of_gate (hs g.pipelineRunId).single hg (awaitedBy_iff.mpr ⟨rfl, hst⟩)
  have hsound := hs g.pipelineRunId
  rw [hd] at hsound
  obtain ⟨run, hrun⟩ := hsound.run_gated
  rw [hrun] at hd
  exact ⟨run, _, hrun, hd⟩

/-- What becomes of the run when a decision is applied to its gate. -/
theorem resumeFromReview_docket (hs : ∀ r, (s.docket r).Sound) (gid : GateId) (approved : Bool) :
    (resumeFromReview cfg s now gid approved).db.docket = s.docket ∨
    ∃ (g : ReviewGate) (run : PipelineRun) (reserved : ContentStage → Nat) (d : Docket),
      s.gates[gid]? = some g ∧ s.docket g.pipelineRunId = .gated (some run) g reserved ∧
      Docket.Decided cfg now g.pipelineRunId run g.stage reserved d ∧
      (resumeFromReview cfg s now gid approved).db.docket
        = Function.update s.docket g.pipelineRunId d := by
  unfold resumeFromReview
  split
  · exact .inl rfl
  · rename_i g hg
    split
    · exact .inl rfl
    · rename_i hst
      rw [not_not] at hst
      obtain ⟨run, reserved, hrun, hd⟩ := docket_of_awaiting hs hg hst
      simp only [hrun]
      right
      refine ⟨g, run, reserved, ?_⟩
      -- the gate is decided first, and the run resumed or failed after that
      have hdecided : (s.updateGate gid (ReviewGate.decide approved now)).docket
          = Function.update s.docket g.pipelineRunId (.idle (some run) reserved) := by
        refine docket_closeGate hd hg hst rfl ?_
        cases approved <;> simp [ReviewGate.decide]
      have hresumed : ((s.updateGate gid (ReviewGate.decide approved now)).updateRun
          g.pipelineRunId PipelineRun.resume).docket
            = Function.update s.docket g.pipelineRunId (.idle (some run.resume) reserved) := by
        refine docket_trans hdecided ?_
        rw [docket_updateRun, docket_self hdecided]
        rfl
      have hroute : ∀ trigger, ∃ d, Docket.Decided cfg now g.pipelineRunId run g.stage reserved d ∧
          (advanceOrFinish cfg ((s.updateGate gid (ReviewGate.decide approved now)).updateRun
            g.pipelineRunId PipelineRun.resume) now g.pipelineRunId g.stage trigger []).db.docket
              = Function.update s.docket g.pipelineRunId d := by
        intro trigger
        rcases advanceOrFinish_docket (docket_self hresumed) g.stage trigger [] with
          ⟨hdb, _⟩ | ⟨d, hroute, hdocket⟩
        · rw [hdb]
          exact ⟨_, .settled (.inr rfl), hresumed⟩
        · exact ⟨d, .routed hroute, docket_trans hresumed hdocket⟩
      split
      · obtain ⟨d, hdec, hdocket⟩ := hroute .onReviewApproved
        exact ⟨d, hg, hd, hdec, hdocket⟩
      · split
        · exact ⟨_, hg, hd, .settled (.inl rfl), hdecided⟩
        · split
          · exact ⟨_, hg, hd, .settled (.inl rfl), hdecided⟩
          · refine ⟨_, hg, hd, .rejected (.inr rfl), ?_⟩
            have hcleared : ((s.updateGate gid (ReviewGate.decide approved now)).updateRun
                g.pipelineRunId PipelineRun.clearReason).docket
                  = Function.update s.docket g.pipelineRunId
                    (.idle (some run.clearReason) reserved) := by
              refine docket_trans hdecided ?_
              rw [docket_updateRun, docket_self hdecided]
              rfl
            refine docket_trans hcleared ?_
            rw [docket_failRun, docket_self hcleared]
            rfl
          · obtain ⟨d, hdec, hdocket⟩ := hroute .onReviewRejected
            exact ⟨d, hg, hd, hdec, hdocket⟩

theorem handleReviewTimeout_turned (hs : ∀ r, (s.docket r).Sound) (gid : GateId) :
    Turned cfg now s (handleReviewTimeout s now gid) := by
  unfold handleReviewTimeout
  split
  · exact .refl
  · rename_i g hg
    split
    · exact .refl
    · rename_i hst
      rw [not_not] at hst
      obtain ⟨run, reserved, hrun, hd⟩ := docket_of_awaiting hs hg hst
      split
      · -- an escalated gate is not awaiting any more
        simp only
        have hclosed : ∀ timeoutAt, (s.updateGate gid (ReviewGate.escalate timeoutAt)).docket
            = Function.update s.docket g.pipelineRunId (.idle (some run) reserved) :=
          fun timeoutAt => docket_closeGate hd hg hst rfl (by simp [ReviewGate.escalate])
        refine .of_eq ((docket_emit ..).trans (Eq.trans (docket_pushJobs
          (s.updateGate gid (ReviewGate.escalate _)) ?_) (hclosed _))) ?_
        · intro j hj
          rw [List.mem_singleton] at hj
          rw [hj]
          rfl
        · rw [hd]
          exact .decide (.settled (.inl rfl))
      · have hclosed : (s.updateGate gid ReviewGate.timeOut).docket
            = Function.update s.docket g.pipelineRunId (.idle (some run) reserved) :=
          docket_closeGate hd hg hst rfl (by simp [ReviewGate.timeOut])
        have hrun' : ((s.updateGate gid ReviewGate.timeOut).emit now .reviewTimedOut g.workspaceId
            g.pipelineRunId (some gid)).runs[g.pipelineRunId]? = some run := hrun
        simp only [hrun']
        have hfailed := docket_failRun ((s.updateGate gid ReviewGate.timeOut).emit now
          .reviewTimedOut g.workspaceId g.pipelineRunId (some gid)) now g.pipelineRunId
          run.workspaceId
        rw [docket_emit, docket_self hclosed] at hfailed
        refine .of_eq (docket_trans hclosed hfailed) ?_
        rw [hd]
        exact .decide (.rejected (.inl rfl))

/-- A write to an awaiting gate that leaves it awaiting. -/
theorem docket_reviseGate (hs : ∀ r, (s.docket r).Sound) {gid : GateId} {g : ReviewGate}
    {f : ReviewGate → ReviewGate} (hg : s.gates[gid]? = some g) (hst : g.status = .awaiting)
    (hrun : (f g).pipelineRunId = g.pipelineRunId) (hf : (f g).status = g.status) :
    ∃ run reserved, s.docket g.pipelineRunId = .gated (some run) g reserved ∧
      (s.updateGate gid f).docket = Function.update s.docket g.pipelineRunId
        (.gated (some run) (f g) reserved) := by
  obtain ⟨run, reserved, _, hd⟩ := docket_of_awaiting hs hg hst
  refine ⟨run, reserved, hd, ?_⟩
  rw [docket_updateGate (hs _).single hg (awaitedBy_iff.mpr ⟨rfl, hst⟩) hrun, hd,
    List.filter_cons_of_pos (awaitedBy_iff.mpr ⟨hrun, hf.trans hst⟩)]
  rfl

theorem editReviewGateContent_turned (hs : ∀ r, (s.docket r).Sound) {ws : WorkspaceId}
    {gid : GateId} {expected : VersionId} {hook body cta : Option String}
    (h : editReviewGateContent s ws gid expected hook body cta = .ok t) : Turned cfg now s t := by
  unfold editReviewGateContent at h
  split at h
  · cases h
  · rename_i g hg
    split at h
    · cases h
    · split at h
      · cases h
      · rename_i hst
        rw [not_not] at hst
        split at h
        · cases h
        · split at h
          · cases h
          · split at h
            · cases h
            · cases h
              obtain ⟨run, reserved, hd, hrevised⟩ := docket_reviseGate hs hg hst
                (f := ReviewGate.showVersion s.versions.length) rfl rfl
              refine .of_eq hrevised ?_
              rw [hd]
              exact .revise rfl rfl rfl

/-- The decision is written on the gate, which stays awaiting until the event is delivered. -/
theorem submitReviewDecision_docket (hs : ∀ r, (s.docket r).Sound) {gid : GateId}
    {reviewer : UserId} {approved : Bool} {notes : Option String} {eid : EventId}
    (h : submitReviewDecision s now gid reviewer approved notes = .ok (t, eid)) :
    ∃ (g : ReviewGate) (run : PipelineRun) (reserved : ContentStage → Nat),
      s.docket g.pipelineRunId = .gated (some run) g reserved ∧
      t.gates[gid]? = some (g.decideBy reviewer) ∧
      t.docket = Function.update s.docket g.pipelineRunId
        (.gated (some run) (g.decideBy reviewer) reserved) := by
  unfold submitReviewDecision at h
  split at h
  · cases h
  · rename_i g hg
    split at h
    · cases h
    · rename_i hst
      rw [not_not] at hst
      split at h
      · cases h
      · cases h
        obtain ⟨run, reserved, hd, hrevised⟩ := docket_reviseGate hs hg hst
          (f := ReviewGate.decideBy reviewer) rfl rfl
        exact ⟨g, run, reserved, hd, Table.get_modify_self hg, hrevised⟩

/-! ## Deliveries -/

/-- The dockets see of a delivery what the handler does, if it is called. -/
theorem dispatchOne_docket (cfg : Config) (s : Db) (now : Instant) (eid : EventId) :
    (dispatchOne cfg s now eid).db.docket = s.docket ∨
    ∃ gid approved, deliveredVerdict s eid = some (gid, approved) ∧
      (dispatchOne cfg s now eid).db.docket
        = (resumeFromReview cfg s now gid approved).db.docket := by
  unfold dispatchOne
  cases hevent : s.outbox[eid]? with
  | none => exact .inl rfl
  | some event =>
      simp only
      cases happ : reviewHandler event.eventType with
      | none => exact .inl rfl
      | some approved =>
          simp only
          split
          · exact .inl rfl
          · rename_i hseq
            cases hgid : event.reviewGateId with
            | none =>
                simp only [onReview, hgid]
                exact .inl (docket_failDelivery ..)
            | some gid =>
                right
                refine ⟨gid, approved, ?_, ?_⟩
                · unfold deliveredVerdict
                  simp only [hevent, happ, hgid, if_neg hseq]
                · simp only [onReview, hgid]
                  split
                  · rfl
                  · exact docket_failDelivery ..

theorem dispatchOne_turned (hs : ∀ r, (s.docket r).Sound) (eid : EventId) :
    Turned cfg now s (dispatchOne cfg s now eid).db := by
  rcases dispatchOne_docket cfg s now eid with hsame | ⟨gid, approved, _, happlied⟩
  · exact .same hsame
  · rcases resumeFromReview_docket hs gid approved with
      hsame | ⟨g, run, reserved, d, _, hd, hdecided, hdocket⟩
    · exact .same (happlied.trans hsame)
    · refine .of_eq (happlied.trans hdocket) ?_
      rw [hd]
      exact .decide hdecided

theorem submitAndDeliver_turned (hs : ∀ r, (s.docket r).Sound) (gid : GateId) (reviewer : UserId)
    (approved : Bool) (notes : Option String) :
    Turned cfg now s (submitAndDeliver cfg s now gid reviewer approved notes).db := by
  unfold submitAndDeliver
  split
  · exact .refl
  · rename_i s1 eid hsubmit
    obtain ⟨g, run, reserved, hd, hg1, hrevised⟩ := submitReviewDecision_docket hs hsubmit
    have hs1 : ∀ r, (s1.docket r).Sound := by
      intro r
      rw [hrevised]
      by_cases hr : r = g.pipelineRunId
      · subst hr
        rw [Function.update_self]
        exact .gated ..
      · rw [Function.update_of_ne hr]
        exact hs r
    have hsame : ∀ {u : Db}, u.docket = s1.docket → Turned cfg now s u := by
      intro u hu
      refine .of_eq (hu.trans hrevised) ?_
      rw [hd]
      exact .revise rfl rfl rfl
    rcases dispatchOne_docket cfg s1 now eid with hstale | ⟨gid', approved', hverdict, happlied⟩
    · exact hsame hstale
    · -- the event that is delivered is the one of this decision
      obtain ⟨rfl, rfl⟩ := (submitReviewDecision_backed cfg hsubmit).2.1 gid' approved' hverdict
      rcases resumeFromReview_docket hs1 gid' approved' with
        hstill | ⟨g', run', reserved', d, hg', hd', hdecided, hdocket⟩
      · exact hsame (happlied.trans hstill)
      · rw [hg1] at hg'
        cases hg'
        have heq : Docket.gated (some run) (g.decideBy reviewer) reserved
            = .gated (some run') (g.decideBy reviewer) reserved' :=
          (docket_self hrevised).symm.trans hd'
        injection heq with hrun _ _ _ hreserved
        cases hrun
        subst hreserved
        refine .of_eq (docket_trans hrevised (happlied.trans hdocket)) ?_
        rw [hd]
        exact .decide hdecided

theorem decideReviewGate_turned (hs : ∀ r, (s.docket r).Sound) (ws : WorkspaceId) (gid : GateId)
    (reviewer : UserId) (approved : Bool) (expected : Option VersionId) (notes : Option String) :
    Turned cfg now s (decideReviewGate cfg s now ws gid reviewer approved expected notes).db := by
  unfold decideReviewGate
  split
  · exact .refl
  · split
    · exact .refl
    · split
      · exact .refl
      · split
        · exact .refl
        · split
          · exact .refl
          · simp only
            split
            · exact .refl
            · exact submitAndDeliver_turned hs gid reviewer approved notes

end HumanGate
