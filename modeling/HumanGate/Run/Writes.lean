import HumanGate.Run.Board

set_option autoImplicit false

/-! # Every operation is a sequence of writes

For each function of the model, that what it does to the board is a sequence of the writes of
`Run/Board.lean`. The hypotheses of a lemma are the guards its callers provide; they are
discharged where the code checks them. `exec_writes` puts the functions together, with
`Op.scope` saying for each operation what it may do beyond the common guards.
-/

namespace HumanGate

open Lib Lib.Calendar Relation

variable {cfg : Config} {sc : Scope}

/-! ## Guards after a write -/

theorem Board.definition_updateRun {b : Board} {rid rid' : RunId} {f : PipelineRun → PipelineRun}
    (hf : ∀ r, (f r).definitionId = r.definitionId) :
    (b.updateRun rid f).definition cfg rid' = b.definition cfg rid' := by
  unfold Board.definition Board.updateRun
  simp only [List.getElem?_modify]
  cases hrow : b.runs[rid']? with
  | none => rfl
  | some r =>
      by_cases h : rid = rid'
      · simp [h, hf]
      · simp [h]

@[simp] theorem Board.definition_enter (b : Board) (rid rid' : RunId) (stage : ContentStage) :
    (b.updateRun rid (PipelineRun.enter stage)).definition cfg rid' = b.definition cfg rid' :=
  Board.definition_updateRun (f := PipelineRun.enter stage) fun _ => rfl

theorem Board.Live.updateRun {b : Board} {rid rid' : RunId} {f : PipelineRun → PipelineRun}
    (hf : ∀ r, (f r).status.isTerminal = false ∨ (f r).status = r.status) (h : b.Live rid') :
    (b.updateRun rid f).Live rid' := by
  obtain ⟨run, hrun, ht⟩ := h
  by_cases hr : rid = rid'
  · subst hr
    refine ⟨f run, Table.get_modify_self hrun, ?_⟩
    rcases hf run with h | h
    · exact h
    · rw [h]; exact ht
  · exact ⟨run, (Table.get_modify_ne hr).trans hrun, ht⟩

theorem Board.NotClosed.of_update {b : Board} {rid : RunId} {f : PipelineRun → PipelineRun}
    {run : PipelineRun} (hrun : b.runs[rid]? = some run)
    (hf : ∀ r, (f r).status.isClosed = false) : (b.updateRun rid f).NotClosed rid :=
  ⟨f run, Table.get_modify_self hrun, hf run⟩

/-! ## The controller -/

theorem cancelAssignments_writes (now : Instant) (ids : List AssignmentId) :
    ∀ s : Db, (∀ aid ∈ ids, ∀ a, s.assignments[aid]? = some a →
      sc.spends a.pipelineRunId a.stage) →
      Writes cfg sc s.board (cancelAssignments s now ids).board := by
  induction ids with
  | nil => intro s _; exact .refl
  | cons aid rest ih =>
      intro s hspends
      have hfirst : Write cfg sc s.board
          (s.updateAssignment now aid StageAssignment.cancel).board :=
        .assignment (.keep fun a => ⟨⟨rfl, rfl, rfl, id⟩, rfl⟩)
          (.inr (hspends aid List.mem_cons_self))
      refine .head hfirst (ih _ fun aid' haid' a' ha' => ?_)
      -- a cancelled row is still one of the same run and stage
      obtain ⟨a, ha, ⟨_, rfl⟩ | ⟨_, rfl⟩⟩ := Table.get_modify ha'
      · exact hspends aid' (List.mem_cons_of_mem _ haid') a ha
      · exact hspends aid' (List.mem_cons_of_mem _ haid') a' ha

theorem reserveSpend_writes (s : Db) (now : Instant) {rid : RunId} (ws : WorkspaceId)
    (stage : ContentStage) (provider : String) (estimate : ℚ≥0)
    (h : (reserveSpend s now rid ws stage provider estimate).2 = none →
      s.board.Live rid ∨ sc.loose rid .paused) :
    Writes cfg sc s.board (reserveSpend s now rid ws stage provider estimate).1.board := by
  rcases core_reserveSpend s now rid ws stage provider estimate with ⟨hnone, hcore⟩ | ⟨_, hcore⟩
  · rw [board_of_core hcore]
    exact .single (.run (.hold (h hnone)))
  · rw [board_of_core hcore]

theorem enqueueStage_writes (s : Db) (now : Instant) {rid : RunId} (ws : WorkspaceId)
    {stage : ContentStage} (attempt : Nat) (runAfter : Instant)
    (h : s.board.MayRun cfg rid stage ∨
      sc.job (stageJob cfg now rid ws stage.value attempt runAfter)) :
    Writes cfg sc s.board (enqueueStage cfg s now rid ws stage attempt runAfter).board := by
  refine .single (.newJob ?_)
  rcases h with h | h
  · refine NewJob.work rfl rfl ?_ h
    by_cases ha : attempt = 0 <;> simp [stageJob, JobSchedule.isWork, ha]
  · refine .extra ?_ h
    by_cases ha : attempt = 0 <;> simp [stageJob, JobSchedule.isWork, ha]

/-- Jobs that are not work. -/
theorem newJobs_writes (b : Board) (jobs : List JobSchedule)
    (h : ∀ j ∈ jobs, j.jobType = .reviewTimeout ∨ j.jobType = .compensation) :
    Writes cfg sc b { b with jobs := b.jobs ++ jobs } := by
  induction jobs generalizing b with
  | nil =>
      rw [List.append_nil]
  | cons j rest ih =>
      have hfirst : Write cfg sc b { b with jobs := b.jobs ++ [j] } :=
        .newJob (.other (h j List.mem_cons_self))
      have hrest := ih { b with jobs := b.jobs ++ [j] }
        fun j' hj' => h j' (List.mem_cons_of_mem _ hj')
      simp only [List.append_assoc, List.singleton_append] at hrest
      exact .head hfirst hrest

theorem pauseForReview_writes (s : Db) (now : Instant) {rid : RunId} {stage : ContentStage}
    (timeoutSeconds : Nat)
    (h : ∀ g : ReviewGate, g.pipelineRunId = rid → g.stage = stage →
      (∃ d row, s.board.definition cfg rid = some d ∧ d.stageRow stage = some row ∧
        row.isTerminal = false) ∨ sc.gate g) :
    Writes cfg sc s.board (pauseForReview s now rid stage timeoutSeconds).db.board := by
  unfold pauseForReview
  split
  · exact .refl
  · rename_i run hrun
    split
    · exact .refl
    · rename_i hterm
      split
      · exact .refl
      · exact .refl
      · split
        · exact .refl
        · rename_i item _
          let gate : ReviewGate :=
            { workspaceId := run.workspaceId
              pipelineRunId := rid
              contentVersionId := item.currentVersionId
              stage := stage
              requestedAt := now
              timeoutAt := some (now + seconds timeoutSeconds) }
          -- the three writes, the run last
          have h1 : Write cfg sc s.board { s.board with gates := s.board.gates ++ [gate] } :=
            .newGate ⟨rfl, rfl, h gate rfl rfl⟩
          have h2 : Write cfg sc { s.board with gates := s.board.gates ++ [gate] }
              { s.board with
                gates := s.board.gates ++ [gate]
                jobs := s.board.jobs ++ [reviewTimeoutJob now run.workspaceId s.gates.length
                  (now + seconds timeoutSeconds)] } :=
            .newJob (.other (.inl rfl))
          have hlive : s.board.Live rid := ⟨run, hrun, by simpa using hterm⟩
          exact ((ReflTransGen.single h1).tail h2).tail (.run (.pause hlive))

theorem enterStage_writes (s : Db) (now : Instant) {rid : RunId} (ws : WorkspaceId)
    {row : WorkflowStage} {d : WorkflowDefinition} (hmoves : sc.moves rid)
    (hlive : s.board.Live rid)
    (hd : s.board.definition cfg rid = some d) (hrow : d.stageRow row.stageKey = some row)
    (hfin : row.isTerminal = true → s.board.Finishes cfg rid) :
    Writes cfg sc s.board (enterStage cfg s now rid ws row).db.board := by
  have henter : Write cfg sc s.board (s.board.updateRun rid (PipelineRun.enter row.stageKey)) :=
    .run (.enter row.stageKey hmoves)
  have hd' : (s.board.updateRun rid (PipelineRun.enter row.stageKey)).definition cfg rid
      = some d := by
    rw [Board.definition_enter]
    exact hd
  have hlive' : (s.board.updateRun rid (PipelineRun.enter row.stageKey)).Live rid :=
    hlive.updateRun fun _ => .inr rfl
  unfold enterStage
  simp only
  split
  · rename_i hterm
    refine (ReflTransGen.single henter).tail (.run (.succeed now hlive' ?_))
    -- entering a stage changes none of the reasons to finish
    cases hfin hterm with
    | edge hd ht hr hrt happ =>
        exact .edge (by rw [Board.definition_enter]; exact hd) ht hr hrt happ
    | here hd hr hrt hfrom =>
        exact .here (by rw [Board.definition_enter]; exact hd) hr hrt hfrom
  · rename_i hterm
    have hterm' : row.isTerminal = false := by simpa using hterm
    split
    · refine ReflTransGen.trans (.single henter) (pauseForReview_writes
        (s.updateRun rid (PipelineRun.enter row.stageKey)) now row.timeoutSeconds ?_)
      intro g _ _
      exact .inl ⟨d, row, hd', hrow, hterm'⟩
    · rename_i hgate
      refine ReflTransGen.trans (.single henter) (enqueueStage_writes
        (s.updateRun rid (PipelineRun.enter row.stageKey)) now ws 0 now
        (.inl (.plain hd' hrow hterm' ?_)))
      simpa using hgate

theorem advanceOrFinish_writes (s : Db) (now : Instant) {rid : RunId}
    {fromStage : ContentStage} {trigger : WorkflowTransitionTrigger} (context : JsonObject)
    (hmoves : sc.moves rid) (hlive : s.board.Live rid)
    (hfrom : s.board.Assigned rid fromStage ∨ s.board.Gated rid fromStage)
    (happ : trigger = .onReviewApproved → s.board.Approved rid) :
    Writes cfg sc s.board (advanceOrFinish cfg s now rid fromStage trigger context).db.board := by
  unfold advanceOrFinish
  split
  · exact .refl
  · rename_i run hrun
    split
    · exact .refl
    · rename_i d hd
      have hdef : s.board.definition cfg rid = some d := by
        unfold Board.definition
        rw [show s.board.runs[rid]? = some run from hrun]
        exact definitionOf_ok hd
      split
      · exact .refl
      · split
        · exact .refl
        · rename_i row hrow
          split
          · rename_i hterm
            have hrow' := getStageDef_ok hrow
            have hkey := stageRow_key hrow'
            subst hkey
            exact ((ReflTransGen.single (.run (.succeed now hlive
              (.here hdef hrow' hterm hfrom)))).tail (.run (.enter row.stageKey hmoves)))
          · exact .refl
      · rename_i t ht
        split
        · exact .refl
        · rename_i row hrow
          obtain ⟨hmem, _, htrig⟩ := findTransition_spec ht
          have hrow' := getStageDef_ok hrow
          have hkey := stageRow_key hrow'
          refine enterStage_writes s now run.workspaceId hmoves hlive hdef (hkey ▸ hrow') ?_
          intro hterm
          exact .edge hdef hmem hrow' hterm fun h => happ (htrig ▸ h)

theorem handleStageSuccess_writes (s : Db) (now : Instant) {rid : RunId} {stage : ContentStage}
    (context : JsonObject) (hmoves : sc.moves rid) (hfrom : s.board.Assigned rid stage) :
    Writes cfg sc s.board (handleStageSuccess cfg s now rid stage context).db.board := by
  unfold handleStageSuccess
  split
  · exact .refl
  · rename_i run hrun
    split
    · exact .refl
    · rename_i hterm
      refine advanceOrFinish_writes s now context hmoves ⟨run, hrun, by simpa using hterm⟩
        (.inl hfrom) ?_
      intro h
      cases h

theorem startRun_writes (s : Db) (now : Instant) (ws : WorkspaceId) (item : ItemId)
    (definition : DefinitionId) (hstart : sc.start definition) :
    Writes cfg sc s.board (startRun cfg s now ws item definition).db.board := by
  unfold startRun
  split
  · rename_i d _ hd _
    split
    · exact .refl
    · rename_i first hfirst
      let run : PipelineRun :=
        { workspaceId := ws
          contentItemId := item
          currentStage := first.stageKey
          status := .running
          definitionId := some definition
          startedAt := some now }
      have h1 : Write cfg sc s.board { s.board with runs := s.board.runs ++ [run] } :=
        .startRun hstart rfl rfl
      refine ReflTransGen.trans (.single h1) (enqueueStage_writes { s with runs := s.runs ++ [run] }
        now ws 0 now (.inl (.first ?_ hfirst)))
      show ((s.runs ++ [run])[s.runs.length]?).bind _ = some d
      rw [Table.get_push_new]
      exact hd
  · exact .refl

theorem failRun_writes (s : Db) (now : Instant) {rid : RunId} (ws : WorkspaceId)
    (h : s.board.NotClosed rid ∨ sc.loose rid .failed) :
    Writes cfg sc s.board (failRun s now rid ws).board := by
  unfold failRun
  rw [board_releaseAllReservations]
  exact .single (.run (.fail now h))

theorem cancelAssignments_runs (now : Instant) (ids : List AssignmentId) : ∀ s : Db,
    (cancelAssignments s now ids).runs = s.runs := by
  induction ids with
  | nil => intro s; rfl
  | cons aid rest ih => intro s; exact ih _

theorem cancelRun_writes (s : Db) (now : Instant) (rid : RunId)
    (hspends : ∀ stage, sc.spends rid stage) :
    Writes cfg sc s.board (cancelRun s now rid).board := by
  unfold cancelRun
  split
  · exact .refl
  · rename_i run hrun
    split
    · exact .refl
    · rename_i hterm
      simp only [board_emit, board_releaseAllReservations, board_updateRun]
      have hcancel : Writes cfg sc s.board
          (cancelAssignments s now (openAssignments s rid)).board :=
        cancelAssignments_writes now (openAssignments s rid) s fun aid haid a ha => by
          obtain ⟨a', ha', hopen⟩ := Table.mem_select.mp haid
          rw [ha] at ha'
          cases ha'
          simp only [Bool.and_eq_true, beq_iff_eq] at hopen
          rw [hopen.1]
          exact hspends a.stage
      refine hcancel.tail (.run (.cancel now ⟨run, ?_, by simpa using hterm⟩))
      exact (congrArg (fun l => l[rid]?) (cancelAssignments_runs now _ s)).trans hrun

theorem compensationJobs_type {d : WorkflowDefinition} {now : Instant} {rid : RunId}
    {ws : WorkspaceId} {rs : List PipelineStageRun} {jobs : List JobSchedule}
    (h : compensationJobs d now rid ws rs = .ok jobs) : ∀ j ∈ jobs, j.jobType = .compensation := by
  induction rs generalizing jobs with
  | nil =>
      cases h
      intro j hj
      cases hj
  | cons r rest ih =>
      unfold compensationJobs at h
      split at h
      · cases h
      · split at h
        · cases h
        · rename_i more hmore
          split at h
          · cases h
            exact ih hmore
          · cases h
            intro j hj
            rcases List.mem_cons.mp hj with rfl | hj
            · rfl
            · exact ih hmore j hj

theorem triggerCompensation_writes {d : WorkflowDefinition} {s s' : Db} {now : Instant}
    {rid : RunId} {ws : WorkspaceId} (hnc : s.board.NotClosed rid ∨ sc.loose rid .failed)
    (h : triggerCompensation d s now rid ws = .ok s') : Writes cfg sc s.board s'.board := by
  unfold triggerCompensation at h
  split at h
  · cases h
  · rename_i jobs hjobs
    cases h
    have hrun : Write cfg sc s.board (s.board.updateRun rid PipelineRun.markFailed) :=
      .run (.markFailed hnc)
    exact .head hrun (newJobs_writes _ jobs fun j hj => .inr (compensationJobs_type hjobs j hj))

/-- A failed attempt: retried with another job, or the end of the run. Only in the second case
is the status written. -/
theorem handleStageFailure_writes {s s' : Db} {now : Instant} {rid : RunId}
    {stage : ContentStage} {stageText : String} {attempt : Nat} {errorMessage : String}
    {jitter : Nat}
    (hfrom : s.board.Assigned rid stage ∨
      ∀ ws runAfter, sc.job (stageJob cfg now rid ws stage.value attempt runAfter))
    (hloose : ∀ d row, s.board.definition cfg rid = some d → d.stageRow stage = some row →
      mayRetry row attempt errorMessage = false → s.board.NotClosed rid ∨ sc.loose rid .failed)
    (h : handleStageFailure cfg s now rid stage stageText attempt errorMessage jitter = .ok s') :
    Writes cfg sc s.board s'.board := by
  unfold handleStageFailure at h
  split at h
  · cases h
  · rename_i run hrun
    simp only at h
    split at h
    · cases h
    · rename_i d hd
      have hdef : s.board.definition cfg rid = some d := by
        unfold Board.definition
        rw [show s.board.runs[rid]? = some run from hrun]
        exact definitionOf_ok hd
      split at h
      · cases h
      · rename_i row hrow
        split at h
        · cases h
          refine enqueueStage_writes (s.emit now .stageFailed run.workspaceId rid) now _ _ _ ?_
          rcases hfrom with hfrom | hfrom
          · exact .inl (.again hfrom)
          · exact .inr (hfrom _ _)
        · rename_i hretry
          have hnc := hloose d row hdef (getStageDef_ok hrow) (by simpa using hretry)
          have hfail : Writes cfg sc s.board (giveUpStage (s.emit now .stageFailed run.workspaceId
              rid) now rid run stageText attempt errorMessage).board :=
            failRun_writes (routeToDeadLetter (s.emit now .stageFailed run.workspaceId rid) now
              run.workspaceId (.pipelineRun rid) ("stage:" ++ stageText) errorMessage attempt
              (run.startedAt.getD now)) now run.workspaceId hnc
          split at h
          · cases h
            exact hfail
          · refine hfail.trans (triggerCompensation_writes (.inl ?_) h)
            -- it has failed by now
            unfold giveUpStage failRun
            rw [board_releaseAllReservations]
            exact Board.NotClosed.of_update (b := s.board) (f := PipelineRun.fail now) hrun
              fun _ => rfl

theorem handleStageTimeout_writes {s s' : Db} {now : Instant} {rid : RunId}
    {stage : ContentStage} {jitter : Nat}
    (hjob : ∀ ws attempt runAfter, sc.job (stageJob cfg now rid ws stage.value attempt runAfter))
    (h : handleStageTimeout cfg s now rid stage jitter = .ok s') :
    Writes cfg sc s.board s'.board := by
  unfold handleStageTimeout at h
  split at h
  · cases h; exact .refl
  · rename_i run hrun
    split at h
    · rename_i hcond
      refine handleStageFailure_writes (.inr fun ws runAfter => hjob ws _ runAfter) ?_ h
      intro d row _ _ _
      refine .inl ⟨run, hrun, ?_⟩
      rw [hcond.2]
      rfl
    · cases h; exact .refl

/-! ## Review -/

/-- The status `resume_from_review` writes to the run of the gate. -/
def resumeOverwrites (cfg : Config) (s : Db) (gid : GateId) (approved : Bool) :
    Option (RunId × PipelineRunStatus) :=
  match s.gates[gid]? with
  | none => none
  | some gate =>
      if gate.status ≠ .awaiting then none
      else
        match s.runs[gate.pipelineRunId]? with
        | none => none
        | some run =>
            if approved then some (gate.pipelineRunId, .running)
            else
              match definitionOf cfg gate.pipelineRunId run with
              | .error _ => none
              | .ok d =>
                  match findTransition d gate.stage .onReviewRejected [] with
                  | .error _ => none
                  | .ok none => some (gate.pipelineRunId, .failed)
                  | .ok (some _) => some (gate.pipelineRunId, .running)

theorem resumeFromReview_writes (s : Db) (now : Instant) (gid : GateId) (approved : Bool)
    (hloose : ∀ rid st, resumeOverwrites cfg s gid approved = some (rid, st) → sc.loose rid st)
    (hmoves : ∀ g, s.gates[gid]? = some g → sc.moves g.pipelineRunId)
    (hverdict : s.board.Backed gid approved ∨ sc.verdict) :
    Writes cfg sc s.board (resumeFromReview cfg s now gid approved).db.board := by
  unfold resumeOverwrites at hloose
  unfold resumeFromReview
  split
  · exact .refl
  · rename_i gate hgate
    simp only [hgate] at hloose
    split
    · exact .refl
    · rename_i hstatus
      have hawait : gate.status = .awaiting := by simpa using hstatus
      simp only [hawait, ne_eq, not_true_eq_false, if_false] at hloose
      split
      · exact .refl
      · rename_i run hrun
        simp only [hrun] at hloose
        have hdecide : Write cfg sc s.board (s.updateGate gid
            (ReviewGate.decide approved now)).board :=
          .gate (.decide approved now ⟨gate, hgate, hawait⟩ hverdict)
        -- where the run is resumed, it runs, and the gate stands decided
        have hresume : sc.loose gate.pipelineRunId .running → Writes cfg sc s.board ((s.updateGate
            gid (ReviewGate.decide approved now)).updateRun gate.pipelineRunId
              PipelineRun.resume).board :=
          fun hl => (ReflTransGen.single hdecide).tail (.run (.resume hl (hmoves gate hgate)))
        have hlive : ((s.updateGate gid (ReviewGate.decide approved now)).updateRun
            gate.pipelineRunId PipelineRun.resume).board.Live gate.pipelineRunId :=
          ⟨run.resume, Table.get_modify_self hrun, rfl⟩
        have hmem : gate.decide approved now ∈ s.gates.modify gid
            (ReviewGate.decide approved now) :=
          Table.mem_of_get (Table.get_modify_self hgate)
        have hgated : ((s.updateGate gid (ReviewGate.decide approved now)).updateRun
            gate.pipelineRunId PipelineRun.resume).board.Gated gate.pipelineRunId gate.stage :=
          ⟨gate.decide approved now, hmem, rfl, rfl⟩
        simp only
        split
        · rename_i happ
          simp only [happ, if_true] at hloose
          refine (hresume (hloose _ _ rfl)).trans
            (advanceOrFinish_writes _ now [] (hmoves gate hgate) hlive (.inr hgated) fun _ => ?_)
          refine ⟨gate.decide approved now, hmem, rfl, ?_⟩
          show (if approved then ReviewGateStatus.approved else .rejected) = .approved
          rw [if_pos happ]
        · rename_i happ
          simp only [happ] at hloose
          split
          · exact .single hdecide
          · rename_i d hd
            simp only [hd] at hloose
            split
            · exact .single hdecide
            · rename_i hnone
              simp only [hnone] at hloose
              exact ((ReflTransGen.single hdecide).tail (.run .clearReason)).trans
                (failRun_writes ((s.updateGate gid (ReviewGate.decide approved now)).updateRun
                  gate.pipelineRunId PipelineRun.clearReason) now run.workspaceId
                  (.inr (hloose _ _ rfl)))
            · rename_i t ht
              simp only [ht] at hloose
              refine (hresume (hloose _ _ rfl)).trans
                (advanceOrFinish_writes _ now [] (hmoves gate hgate) hlive (.inr hgated) ?_)
              intro h
              cases h

/-- The second branch of `handle_review_timeout` is never taken: an awaiting gate has not been
escalated. -/
theorem handleReviewTimeout_writes (s : Db) (now : Instant) (gid : GateId) (hs : s.board.Sane) :
    Writes cfg sc s.board (handleReviewTimeout s now gid).board := by
  unfold handleReviewTimeout
  split
  · exact .refl
  · rename_i gate hgate
    split
    · exact .refl
    · rename_i hstatus
      have hawait : gate.status = .awaiting := by simpa using hstatus
      have hlevel := hs.level gate (Table.mem_of_get hgate) hawait
      rw [if_pos hlevel]
      have hesc : Write cfg sc s.board (s.board.updateGate gid (ReviewGate.escalate
          (now + seconds (defaultReviewTimeoutHours * 3600)))) :=
        .gate (.escalate _ hgate hawait hlevel)
      exact (ReflTransGen.single hesc).tail (.newJob (.other (.inl rfl)))

theorem handleReviewTimeout_jobs (s : Db) (now : Instant) (gid : GateId) {jid : JobId}
    {job : JobSchedule} (h : s.jobs[jid]? = some job) :
    (handleReviewTimeout s now gid).jobs[jid]? = some job := by
  have hfail : ∀ (t : Db) (rid : RunId) (ws : WorkspaceId), (failRun t now rid ws).jobs = t.jobs :=
    fun t rid ws => congrArg Board.jobs (board_releaseAllReservations ..)
  unfold handleReviewTimeout
  split
  · exact h
  · split
    · exact h
    · split
      · exact Table.get_push_of_some h
      · simp only
        split
        · exact h
        · rw [hfail]
          exact h

theorem submitReviewDecision_writes {s s' : Db} {now : Instant} {gid : GateId}
    {reviewer : UserId} {approved : Bool} {notes : Option String} {eid : EventId}
    (h : submitReviewDecision s now gid reviewer approved notes = .ok (s', eid)) :
    Writes cfg sc s.board s'.board := by
  unfold submitReviewDecision at h
  split at h
  · cases h
  · rename_i gate hgate
    split at h
    · cases h
    · rename_i hstatus
      split at h
      · cases h
      · cases h
        have hby : Write cfg sc s.board (s.board.updateGate gid (ReviewGate.decideBy reviewer)) :=
          .gate (.decideBy reviewer ⟨gate, hgate, by simpa using hstatus⟩)
        exact (ReflTransGen.single hby).tail .decision

end HumanGate
