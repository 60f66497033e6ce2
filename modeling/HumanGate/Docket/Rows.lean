import HumanGate.Docket.Queue
import HumanGate.Fleet.Moves

set_option autoImplicit false

/-! # Assignments on the dockets

What becomes of the assignment that a run waits for: it is claimed, acknowledged, prolonged,
closed by a result, requeued or exhausted.
-/

namespace HumanGate

open Lib Lib.Calendar Relation

variable {cfg : Config} {s t : Db} {now : Instant}

/-- The docket of a run with an open assignment. -/
theorem docket_of_open (hs : ∀ r, (s.docket r).Sound) {aid : AssignmentId} {a : StageAssignment}
    (ha : s.assignments[aid]? = some a) (hopen : a.status.isOpen = true) :
    ∃ run reserved, s.runs[a.pipelineRunId]? = some run ∧
      s.docket a.pipelineRunId = .assigned (some run) a reserved := by
  have hd := docket_of_row (hs a.pipelineRunId).single ha (openFor_iff.mpr ⟨rfl, hopen⟩)
  have hsound := hs a.pipelineRunId
  rw [hd] at hsound
  obtain ⟨run, hrun⟩ := hsound.run_assigned
  rw [hrun] at hd
  exact ⟨run, _, hrun, hd⟩

theorem isOpen_of_inFlight {st : StageAssignmentStatus} (h : st.inFlight = true) :
    st.isOpen = true := by
  cases st with
  | dispatched | acknowledged => rfl
  | pending | completed | failed | cancelled => cases h

/-- The assignment of a run changes and stays open. -/
theorem docket_keepRow {aid : AssignmentId} {a : StageAssignment} {run : PipelineRun}
    {reserved : ContentStage → Nat} {f : StageAssignment → StageAssignment}
    (hd : s.docket a.pipelineRunId = .assigned (some run) a reserved)
    (ha : s.assignments[aid]? = some a) (hopen : a.status.isOpen = true)
    (hrun : (f a).pipelineRunId = a.pipelineRunId) (hf : (f a).status.isOpen = true) :
    (s.updateAssignment now aid f).docket = Function.update s.docket a.pipelineRunId
      (.assigned (some run) { f a with updatedAt := now } reserved) := by
  have hsingle : (s.docket a.pipelineRunId).Single := by
    rw [hd]
    exact Nat.le_refl 1
  have hkept : StageAssignment.openFor a.pipelineRunId { f a with updatedAt := now } = true :=
    openFor_iff.mpr ⟨hrun, hf⟩
  rw [docket_updateRow hsingle ha (openFor_iff.mpr ⟨rfl, hopen⟩) hrun, hd,
    List.filter_cons_of_pos hkept]
  rfl

/-- The assignment of a run is closed. -/
theorem docket_closeRow {aid : AssignmentId} {a : StageAssignment} {run : PipelineRun}
    {reserved : ContentStage → Nat} {f : StageAssignment → StageAssignment}
    (hd : s.docket a.pipelineRunId = .assigned (some run) a reserved)
    (ha : s.assignments[aid]? = some a) (hopen : a.status.isOpen = true)
    (hrun : (f a).pipelineRunId = a.pipelineRunId) (hf : (f a).status.isOpen = false) :
    (s.updateAssignment now aid f).docket = Function.update s.docket a.pipelineRunId
      (.idle (some run) reserved) := by
  have hsingle : (s.docket a.pipelineRunId).Single := by
    rw [hd]
    exact Nat.le_refl 1
  have hnot : ¬ StageAssignment.openFor a.pipelineRunId { f a with updatedAt := now } = true := by
    rw [openFor_iff]
    intro h
    have hopen' : (f a).status.isOpen = true := h.2
    rw [hf] at hopen'
    cases hopen'
  rw [docket_updateRow hsingle ha (openFor_iff.mpr ⟨rfl, hopen⟩) hrun, hd,
    List.filter_cons_of_neg hnot]
  rfl

/-! ## Claims -/

theorem docket_grantClaim {aid : AssignmentId} {a : StageAssignment} {run : PipelineRun}
    {reserved : ContentStage → Nat}
    (hd : s.docket a.pipelineRunId = .assigned (some run) a reserved)
    (ha : s.assignments[aid]? = some a) (hst : a.status = .pending) (wid : WorkerId)
    (w : WorkerRegistration) (token : Option ClaimToken) (ws : Option WorkspaceId) :
    (grantClaim cfg s now wid w aid a token ws).db.docket = Function.update s.docket
      a.pipelineRunId (.assigned (some run)
        { a.claim cfg now wid token with updatedAt := now } reserved) := by
  unfold grantClaim
  simp only [docket_emit, docket_recordClaim, docket_updateWorker]
  exact docket_keepRow hd ha (by rw [hst]; rfl) rfl rfl

theorem reserved_of_openReservations (s : Db) (rid : RunId) (stage : ContentStage) :
    (s.docket rid).reserved stage = (openReservationsFor s rid stage).length :=
  (Table.length_select (SpendReservation.openAt rid stage) s.reservations).symm

theorem claimWithSpend_turned {wid : WorkerId} {w : WorkerRegistration} {aid : AssignmentId}
    {a : StageAssignment} {token : Option ClaimToken} {ws : Option WorkspaceId} {r : ClaimResult}
    (hs : ∀ r, (s.docket r).Sound) (ha : s.assignments[aid]? = some a) (hst : a.status = .pending)
    (h : claimWithSpend cfg s now wid w aid a token ws = .ok r) : Turned cfg now s r.db := by
  obtain ⟨run, reserved, hrun, hd⟩ := docket_of_open hs ha (by rw [hst]; rfl)
  have hcount := reserved_of_openReservations s a.pipelineRunId a.stage
  rw [hd] at hcount
  have hclaim : ∀ {reserved' : ContentStage → Nat} {u : Db},
      reserved' = Function.update reserved a.stage 1 → reserved a.stage ≤ 1 →
      u.docket = Function.update s.docket a.pipelineRunId (.assigned (some run)
        { a.claim cfg now wid token with updatedAt := now } reserved') → Turned cfg now s u := by
    rintro _ u rfl hle hdocket
    refine .of_eq hdocket ?_
    rw [hd]
    exact .claim hst ⟨rfl, rfl⟩ rfl rfl fun _ => hle
  unfold claimWithSpend at h
  simp only [hrun] at h
  split at h
  · cases h
  · rename_i x hopen
    cases h
    -- the reservation that the dispatch made
    have hone : reserved a.stage = 1 := by
      rw [hopen] at hcount
      exact hcount
    refine hclaim ?_ hone.le (docket_grantClaim hd ha hst wid w token ws)
    rw [← hone, Function.update_eq_self]
  · rename_i hopen
    -- there is none, and the claim reserves before it hands out
    have hzero : reserved a.stage = 0 := by
      rw [hopen] at hcount
      exact hcount
    have hreserve := docket_reserveSpend s now a.pipelineRunId run.workspaceId a.stage
      (effectiveProvider a.provider) cfg.settings.defaultStageEstimateUsd
    have hcore := core_reserveSpend s now a.pipelineRunId run.workspaceId a.stage
      (effectiveProvider a.provider) cfg.settings.defaultStageEstimateUsd
    rw [hd] at hreserve
    rcases hreserve with ⟨hres, hdocket⟩ | ⟨hres, hdocket⟩
    · rw [hres] at h
      cases h
      refine .of_eq ((docket_recordClaim ..).trans hdocket) ?_
      rw [hd]
      exact .claimHold hst
    · obtain ⟨res, hsome⟩ := Option.isSome_iff_exists.mp hres
      rw [hsome] at h
      cases h
      have ha' : (reserveSpend s now a.pipelineRunId run.workspaceId a.stage
          (effectiveProvider a.provider) cfg.settings.defaultStageEstimateUsd).1.assignments[aid]?
            = some a := by
        have hcore' := (hcore.resolve_left fun hleft => by rw [hsome] at hleft; cases hleft.1).2
        have hrows := congrArg Db.assignments hcore'
        simp only [Db.core] at hrows
        rw [hrows]
        exact ha
      refine hclaim rfl (by omega) (docket_trans hdocket
        (docket_grantClaim (docket_self hdocket) ha' hst wid w token ws))

theorem claimAssignment_turned {wid : WorkerId} {token : Option ClaimToken}
    {ws : Option WorkspaceId} {rows : List AssignmentId} {r : ClaimResult}
    (hs : ∀ r, (s.docket r).Sound)
    (h : claimAssignment cfg s now wid token ws rows = .ok r) : Turned cfg now s r.db := by
  unfold claimAssignment at h
  split at h
  · cases h
    exact .refl
  · rename_i w hw
    split at h
    · cases h
    · cases h
      exact .same (docket_recordClaim ..)
    · unfold claimFresh at h
      split at h
      · cases h
        exact .same (docket_recordClaim ..)
      · split at h
        · cases h
        · split at h
          · rename_i aid a hcand
            obtain ⟨ha, hclaimable, _⟩ := claimCandidate_spec hcand
            unfold claimable at hclaimable
            simp only [Bool.and_eq_true, beq_iff_eq] at hclaimable
            exact claimWithSpend_turned hs ha hclaimable.1.1 h
          · split at h
            · cases h
              exact .same (docket_recordClaim ..)
            · cases h
              exact .same (docket_recordClaim ..)

/-! ## Leases -/

/-- The lease of the assignment is prolonged, whatever its status. -/
theorem extendLease_turned (hs : ∀ r, (s.docket r).Sound) {aid : AssignmentId}
    {a : StageAssignment} (ha : s.assignments[aid]? = some a) (secs : Nat) :
    Turned cfg now s (s.updateAssignment now aid (StageAssignment.extendLease now secs)) := by
  by_cases hopen : a.status.isOpen = true
  · obtain ⟨run, reserved, _, hd⟩ := docket_of_open hs ha hopen
    refine .of_eq (docket_keepRow hd ha hopen rfl hopen) ?_
    rw [hd]
    exact .touch ⟨rfl, rfl⟩ rfl rfl hopen fun h => h
  · refine .same (docket_updateRow_other fun a' ha' => ?_)
    rw [ha] at ha'
    cases ha'
    have hclosed : a.status.isOpen = false := by simpa using hopen
    exact ⟨hclosed, hclosed⟩

theorem renewLease_turned (hs : ∀ r, (s.docket r).Sound) {aid : AssignmentId} {secs : Option Nat}
    {worker : Option WorkerId} (h : renewLease cfg s now aid secs worker = .ok t) :
    Turned cfg now s t := by
  unfold renewLease at h
  split at h
  · cases h
  · rename_i a ha
    simp only at h
    split at h
    · cases h
    · cases h
      exact extendLease_turned hs ha _

theorem acknowledge_turned (hs : ∀ r, (s.docket r).Sound) {aid : AssignmentId}
    {secs : Option Nat} {wid : WorkerId} (h : acknowledge cfg s now aid secs (some wid) = .ok t) :
    Turned cfg now s t := by
  unfold acknowledge at h
  split at h
  · cases h
  · rename_i a ha
    simp only at h
    split at h
    · cases h
    · rename_i hrefusal
      cases h
      have hst : a.status = .dispatched := by
        by_contra hne
        simp [hne] at hrefusal
      have hopen : a.status.isOpen = true := by
        rw [hst]
        rfl
      obtain ⟨run, reserved, _, hd⟩ := docket_of_open hs ha hopen
      refine .of_eq (docket_keepRow hd ha hopen rfl rfl) ?_
      rw [hd]
      exact .touch ⟨rfl, rfl⟩ rfl (by rw [hst]; rfl) rfl fun _ => hst

/-! ## Results -/

theorem docket_recordResult {aid : AssignmentId} {a : StageAssignment} {run : PipelineRun}
    {reserved : ContentStage → Nat} {success : Bool} {result : Option JsonObject}
    {errorMessage : String} (hd : s.docket a.pipelineRunId = .assigned (some run) a reserved)
    (ha : s.assignments[aid]? = some a) (hflight : a.status.inFlight = true)
    (h : recordResult s now aid a run success result errorMessage = .ok t) :
    t.docket = Function.update s.docket a.pipelineRunId (.idle (some run) reserved) := by
  have hclosed : (freeSlot (s.updateAssignment now aid (StageAssignment.close now success result))
      a.workerId WorkerRegistration.returnSlot).docket
        = Function.update s.docket a.pipelineRunId (.idle (some run) reserved) := by
    rw [docket_freeSlot]
    refine docket_closeRow hd ha (isOpen_of_inFlight hflight) rfl ?_
    cases success <;> rfl
  unfold recordResult at h
  simp only at h
  split at h
  · cases h
  · cases h
    exact hclosed

/-- Without an open reservation there is nothing to settle. -/
theorem docket_settle_none {rid : RunId} {run : Option PipelineRun}
    {reserved : ContentStage → Nat} {stage : ContentStage}
    (hd : s.docket rid = .idle run reserved) (hzero : reserved stage = 0) :
    Function.update s.docket rid
      (.idle run (Function.update reserved stage (reserved stage - 1))) = s.docket := by
  have hsame : Docket.settle (.idle run reserved) stage = .idle run reserved :=
    Docket.settle_of_zero hzero
  rw [show Docket.idle run (Function.update reserved stage (reserved stage - 1))
    = .idle run reserved from hsame, ← hd, Function.update_eq_self]

/-- A successful result: the reservation is committed and the run led on. -/
theorem submitSuccess_docket {a : StageAssignment} {run : PipelineRun}
    {reserved : ContentStage → Nat} (hflight : a.status.inFlight = true)
    (hd : s.docket a.pipelineRunId = .idle (some run) reserved) (result : Option JsonObject)
    (h : (submitSuccess cfg s now a run result).raised = none) :
    ∃ d, Docket.Turn cfg now a.pipelineRunId (.assigned (some run) a reserved) d ∧
      (submitSuccess cfg s now a run result).db.docket
        = Function.update s.docket a.pipelineRunId d := by
  unfold submitSuccess at h ⊢
  simp only at h ⊢
  split at h
  · cases h
  · rename_i s2 hcommit
    -- the commit takes one reservation of the stage off the docket
    have hsettled : s2.docket = Function.update s.docket a.pipelineRunId (.idle (some run)
        (Function.update reserved a.stage (reserved a.stage - 1))) := by
      have hemit : (s.emit now .stageCompleted a.workspaceId a.pipelineRunId).docket = s.docket :=
        rfl
      split at hcommit
      · rename_i hnone
        cases hcommit
        have hzero : ((s.emit now .stageCompleted a.workspaceId
            a.pipelineRunId).docket a.pipelineRunId).reserved a.stage = 0 :=
          latestOpenReservation_none hnone
        rw [hemit, hd] at hzero
        exact hemit.trans (docket_settle_none hd hzero).symm
      · rename_i resId hlatest
        obtain ⟨r, hr, hopen⟩ := latestOpenReservation_open hlatest
        have hcommitted := docket_commitSpend hr hopen hcommit
        rw [hemit, hd] at hcommitted
        exact hcommitted
    have hrun2 : s2.runs[a.pipelineRunId]? = some run :=
      congrArg Docket.run (docket_self hsettled)
    unfold handleStageSuccess at h ⊢
    simp only [hrun2] at h ⊢
    split at h
    · rename_i hterm
      rw [if_pos hterm]
      exact ⟨_, .close hflight hterm, hsettled⟩
    · rename_i hterm
      rw [if_neg hterm]
      rcases advanceOrFinish_docket (docket_self hsettled) a.stage .onSuccess (result.getD []) with
        ⟨_, hraised⟩ | ⟨d, hroute, hdocket⟩
      · rw [h] at hraised
        cases hraised
      · exact ⟨d, .advance hflight (by simpa using hterm) hroute, docket_trans hsettled hdocket⟩

/-- A failed result: the reservation is released, and the stage enqueued again or the run
failed. -/
theorem submitFailure_docket {a : StageAssignment} {run : PipelineRun}
    {reserved : ContentStage → Nat} (hflight : a.status.inFlight = true)
    (hd : s.docket a.pipelineRunId = .idle (some run) reserved) (errorMessage : String)
    (jitter : Nat) (h : (submitFailure cfg s now a run errorMessage jitter).raised = none) :
    ∃ d, Docket.Turn cfg now a.pipelineRunId (.assigned (some run) a reserved) d ∧
      (submitFailure cfg s now a run errorMessage jitter).db.docket
        = Function.update s.docket a.pipelineRunId d := by
  unfold submitFailure at h ⊢
  simp only at h ⊢
  -- with the reservation released or without one, the attempt is handled the same way
  have hhandled : ∀ {s1 s2 : Db}, s1.docket = Function.update s.docket a.pipelineRunId
      (.idle (some run) (Function.update reserved a.stage (reserved a.stage - 1))) →
      handleStageFailure cfg s1 now a.pipelineRunId a.stage a.stage.formatted a.attemptNumber
        errorMessage jitter = .ok s2 →
      ∃ d, Docket.Turn cfg now a.pipelineRunId (.assigned (some run) a reserved) d ∧
        s2.docket = Function.update s.docket a.pipelineRunId d := by
    intro s1 s2 hsettled hok
    rcases handleStageFailure_docket (docket_self hsettled) hok with
      ⟨wd, row, ws, runAfter, hpinned, hrow, hlt, hdocket⟩ | ⟨run', hrun', hdocket⟩
    · exact ⟨_, .retry hflight hpinned hrow hlt, docket_trans hsettled hdocket⟩
    · exact ⟨_, .fail hflight hrun', docket_trans hsettled hdocket⟩
  refine ofExcept_ok (P := fun t => ∃ d, Docket.Turn cfg now a.pipelineRunId
    (.assigned (some run) a reserved) d ∧ t.docket = Function.update s.docket a.pipelineRunId d) h
    fun s2 hok => ?_
  split at hok
  · rename_i hnone
    refine hhandled ?_ hok
    have hzero := latestOpenReservation_none hnone
    rw [hd] at hzero
    exact (docket_settle_none hd hzero).symm
  · rename_i resId hlatest
    refine hhandled ?_ hok
    obtain ⟨r, hr, hopen⟩ := latestOpenReservation_open hlatest
    rw [docket_releaseSpend hr hopen, hd]
    rfl

theorem submitResult_turned (hs : ∀ r, (s.docket r).Sound) {aid : AssignmentId} {success : Bool}
    {result : Option JsonObject} {errorMessage : String} {worker : Option WorkerId} {jitter : Nat}
    (h : (submitResult cfg s now aid success result errorMessage worker jitter).raised = none) :
    Turned cfg now s (submitResult cfg s now aid success result errorMessage worker jitter).db := by
  unfold submitResult at h ⊢
  split at h
  · cases h
  · rename_i a ha
    split at h
    · cases h
    · rename_i hrefusal
      have hflight := submitRefusal_inFlight hrefusal
      obtain ⟨run, reserved, hrun, hd⟩ := docket_of_open hs ha (isOpen_of_inFlight hflight)
      simp only [hrun] at h ⊢
      split at h
      · cases h
      · rename_i s1 hrecord
        have hclosed := docket_recordResult hd ha hflight hrecord
        cases success with
        | true =>
            rw [if_pos rfl] at h ⊢
            obtain ⟨d, hturn, hdocket⟩ := submitSuccess_docket hflight (docket_self hclosed)
              result h
            refine .of_eq (docket_trans hclosed hdocket) ?_
            rw [hd]
            exact hturn
        | false =>
            rw [if_neg Bool.false_ne_true] at h ⊢
            obtain ⟨d, hturn, hdocket⟩ := submitFailure_docket hflight (docket_self hclosed)
              errorMessage jitter h
            refine .of_eq (docket_trans hclosed hdocket) ?_
            rw [hd]
            exact hturn

/-! ## Recovery -/

theorem resolveMaxAttempts_eq {a : StageAssignment} {run : PipelineRun}
    (hrun : s.runs[a.pipelineRunId]? = some run) :
    resolveMaxAttempts cfg s a = run.maxAttempts cfg a.stage := by
  unfold resolveMaxAttempts PipelineRun.maxAttempts PipelineRun.pinned
  rw [hrun]
  rfl

theorem exhaustAssignment_quieted {aid : AssignmentId} {a : StageAssignment} {run : PipelineRun}
    {reserved : ContentStage → Nat}
    (hd : s.docket a.pipelineRunId = .assigned (some run) a reserved)
    (ha : s.assignments[aid]? = some a) (hflight : a.status.inFlight = true)
    (hmax : run.maxAttempts cfg a.stage < a.attemptNumber + 1) (reason : RecoveryReason)
    (maxAttempts : Nat) (detail : Option String) :
    Quieted cfg now s (exhaustAssignment s now aid a reason maxAttempts detail) := by
  have hclosed : (s.updateAssignment now aid (StageAssignment.exhaust now)).docket
      = Function.update s.docket a.pipelineRunId (.idle (some run) reserved) :=
    docket_closeRow hd ha (isOpen_of_inFlight hflight) rfl rfl
  unfold exhaustAssignment
  simp only
  generalize hfiled : routeToDeadLetter (s.updateAssignment now aid (StageAssignment.exhaust now))
    now a.workspaceId (.stageAssignment aid) _ _ a.attemptNumber now = s1
  have hs1 : s1.docket = Function.update s.docket a.pipelineRunId (.idle (some run) reserved) := by
    rw [← hfiled, docket_routeToDeadLetter]
    exact hclosed
  have hrun1 : s1.runs[a.pipelineRunId]? = some run := congrArg Docket.run (docket_self hs1)
  unfold failRunUnlessTerminal
  simp only [hrun1]
  split
  · rename_i hterm
    refine .of_eq ((docket_auditRecovery ..).trans hs1) ?_
    rw [hd]
    exact ⟨.close hflight hterm, rfl, fun h => nomatch h⟩
  · rename_i hterm
    have hfailed := docket_failRun s1 now a.pipelineRunId run.workspaceId
    rw [docket_self hs1] at hfailed
    refine .of_eq ((docket_auditRecovery ..).trans (docket_trans hs1 hfailed)) ?_
    rw [hd]
    exact ⟨.exhaust hflight (by simpa using hterm) hmax, rfl, fun h => nomatch h⟩

theorem requeueAssignment_quieted {aid : AssignmentId} {a : StageAssignment} {run : PipelineRun}
    {reserved : ContentStage → Nat} {reason : RecoveryReason} {detail : Option String}
    (hd : s.docket a.pipelineRunId = .assigned (some run) a reserved)
    (ha : s.assignments[aid]? = some a) (hflight : a.status.inFlight = true)
    (hmax : a.attemptNumber + 1 ≤ run.maxAttempts cfg a.stage)
    (h : requeueAssignment s now aid a reason detail = .ok t) : Quieted cfg now s t := by
  have hrun : s.runs[a.pipelineRunId]? = some run := congrArg Docket.run hd
  have hreleased := docket_releaseFor s now a.pipelineRunId run.workspaceId a.stage
  rw [hd] at hreleased
  have hrows : (releaseEach s now a.pipelineRunId run.workspaceId
      (openReservationsFor s a.pipelineRunId a.stage)).assignments[aid]? = some a := by
    have hcore := congrArg Db.assignments (core_releaseEach now a.pipelineRunId run.workspaceId
      (openReservationsFor s a.pipelineRunId a.stage) s)
    simp only [Db.core] at hcore
    rw [hcore]
    exact ha
  unfold requeueAssignment at h
  simp only [hrun] at h
  split at h
  · cases h
  · cases h
    have hrequeued : ((releaseEach s now a.pipelineRunId run.workspaceId
        (openReservationsFor s a.pipelineRunId a.stage)).updateAssignment now aid
          StageAssignment.requeue).docket = _ :=
      docket_trans hreleased (docket_keepRow (docket_self hreleased) hrows
        (isOpen_of_inFlight hflight) rfl rfl)
    refine Quieted.of_eq ((docket_auditRecovery ..).trans ((docket_emit ..).trans hrequeued)) ?_
    rw [hd]
    exact ⟨.requeue hflight ⟨rfl, rfl⟩ rfl rfl hmax, rfl, fun h => by cases h⟩

theorem recoverAssignment_quieted (hs : ∀ r, (s.docket r).Sound) {aid : AssignmentId}
    {reason : RecoveryReason} {detail : Option String}
    (h : recoverAssignment cfg s now aid reason detail = .ok t) : Quieted cfg now s t := by
  unfold recoverAssignment at h
  split at h
  · cases h
  · rename_i a ha
    split at h
    · cases h
      exact .refl
    · rename_i hflight
      have hflight' : a.status.inFlight = true := by simpa using hflight
      obtain ⟨run, reserved, hrun, hd⟩ := docket_of_open hs ha (isOpen_of_inFlight hflight')
      have hfree := docket_freeSlot s a.workerId WorkerRegistration.releaseSlot
      have hd1 : (freeSlot s a.workerId WorkerRegistration.releaseSlot).docket a.pipelineRunId
          = .assigned (some run) a reserved := by
        rw [hfree]
        exact hd
      have ha1 : (freeSlot s a.workerId WorkerRegistration.releaseSlot).assignments[aid]?
          = some a := by
        rw [freeSlot_assignments]
        exact ha
      have hmax : resolveMaxAttempts cfg (freeSlot s a.workerId WorkerRegistration.releaseSlot) a
          = run.maxAttempts cfg a.stage := resolveMaxAttempts_eq (congrArg Docket.run hd1)
      simp only [hmax] at h
      rw [Quieted, ← hfree]
      split at h
      · rename_i hlt
        cases h
        exact exhaustAssignment_quieted hd1 ha1 hflight' hlt reason _ detail
      · rename_i hle
        exact requeueAssignment_quieted hd1 ha1 hflight' (by omega) h

theorem recoverEach_quieted {reason : RecoveryReason} {detail : Option String}
    (ids : List AssignmentId) : ∀ {s t : Db}, (∀ r, (s.docket r).Sound) →
      recoverEach cfg s now reason detail ids = .ok t → Quieted cfg now s t := by
  induction ids with
  | nil =>
      intro s t _ h
      cases h
      exact .refl
  | cons aid rest ih =>
      intro s t hs h
      unfold recoverEach at h
      split at h
      · cases h
      · rename_i s1 hfirst
        have hquiet := recoverAssignment_quieted hs hfirst
        exact hquiet.trans (ih (hquiet.sound hs) h)

theorem reapWorkerBatches_quieted {wid : WorkerId} {reason : RecoveryReason}
    {detail : Option String} {limit : Nat} {rows : List AssignmentId} (fuel : Nat) :
    ∀ {s t : Db}, (∀ r, (s.docket r).Sound) →
      reapWorkerBatches cfg now wid reason detail limit rows fuel s = .ok t →
      Quieted cfg now s t := by
  induction fuel with
  | zero =>
      intro s t _ h
      cases h
      exact .refl
  | succ fuel ih =>
      intro s t hs h
      unfold reapWorkerBatches at h
      split at h
      · cases h
        exact .refl
      · split at h
        · cases h
        · rename_i s1 hbatch
          have hquiet := recoverEach_quieted _ hs hbatch
          split at h
          · cases h
            exact hquiet
          · exact hquiet.trans (ih (hquiet.sound hs) h)

end HumanGate
