import HumanGate.Run.Operations

set_option autoImplicit false

/-! # What opens a gate and what decides it

Apart from the review functions, an operation leaves the gates as they are and may open some
(`Db.Opens`). What escalates or times out a gate, or shows a new version on it, touches a gate that
is awaiting and does not approve it either: a gate that is approved afterwards was there before,
just as it is (`Db.Undecided`).
-/

namespace HumanGate

open Lib Lib.Calendar

/-! ## Opening gates -/

/-- The gates are as they were, and new ones are awaiting. -/
def Db.Opens (s s' : Db) : Prop :=
  ∃ more, s'.gates = s.gates ++ more ∧ ∀ g ∈ more, g.status = .awaiting

variable {cfg : Config} {s t u s' : Db} {now : Instant}

theorem Db.Opens.of_eq (h : s'.gates = s.gates) : s.Opens s' :=
  ⟨[], by rw [h, List.append_nil], by simp⟩

theorem Db.Opens.refl (s : Db) : s.Opens s := .of_eq rfl

theorem Db.Opens.trans (h : s.Opens t) (h' : t.Opens u) : s.Opens u := by
  obtain ⟨more, hgates, hmore⟩ := h
  obtain ⟨more', hgates', hmore'⟩ := h'
  refine ⟨more ++ more', by rw [hgates', hgates, List.append_assoc], ?_⟩
  intro g hg
  rcases List.mem_append.mp hg with hg | hg
  · exact hmore g hg
  · exact hmore' g hg

theorem Db.Opens.of_core (h : s'.core = s.core) : s.Opens s' := by
  have hgates : s'.core.gates = s.core.gates := by rw [h]
  exact .of_eq hgates

theorem opens_emit (s : Db) (now : Instant) (e : EventType) (ws : WorkspaceId) (rid : RunId)
    (g : Option GateId) : s.Opens (s.emit now e ws rid g) := .of_eq rfl

theorem opens_ofExcept {e : Except Err Db} (h : ∀ s', e = .ok s' → s.Opens s') :
    s.Opens (Call.ofExcept s e).db := by
  cases e with
  | error _ => exact .refl s
  | ok s' => exact h s' rfl

/-! ## The controller -/

theorem opens_reserveSpend (s : Db) (now : Instant) (rid : RunId) (ws : WorkspaceId)
    (stage : ContentStage) (provider : String) (estimate : ℚ≥0) :
    s.Opens (reserveSpend s now rid ws stage provider estimate).1 := by
  rcases core_reserveSpend s now rid ws stage provider estimate with ⟨_, h⟩ | ⟨_, h⟩
  · have hheld : s.Opens (s.updateRun rid PipelineRun.holdForSpend) := .of_eq rfl
    exact hheld.trans (.of_core h)
  · exact .of_core h

theorem opens_releaseEach (s : Db) (now : Instant) (rid : RunId) (ws : WorkspaceId)
    (ids : List ReservationId) : s.Opens (releaseEach s now rid ws ids) :=
  .of_core (core_releaseEach ..)

theorem opens_releaseAllReservations (s : Db) (now : Instant) (rid : RunId) (ws : WorkspaceId) :
    s.Opens (releaseAllReservations s now rid ws) :=
  .of_core (core_releaseAllReservations ..)

theorem opens_pauseForReview (s : Db) (now : Instant) (rid : RunId) (stage : ContentStage)
    (timeoutSeconds : Nat) : s.Opens (pauseForReview s now rid stage timeoutSeconds).db := by
  unfold pauseForReview
  split
  · exact .refl s
  split
  · exact .refl s
  split
  · exact .refl s
  · exact .refl s
  split
  · exact .refl s
  · exact ⟨[_], rfl, by simp⟩

theorem opens_enterStage (s : Db) (now : Instant) (rid : RunId) (ws : WorkspaceId)
    (row : WorkflowStage) : s.Opens (enterStage cfg s now rid ws row).db := by
  unfold enterStage
  simp only
  split
  · exact .of_eq rfl
  split
  · have hentered : s.Opens (s.updateRun rid (PipelineRun.enter row.stageKey)) := .of_eq rfl
    exact hentered.trans (opens_pauseForReview _ now rid row.stageKey row.timeoutSeconds)
  · exact .of_eq rfl

theorem opens_advanceOrFinish (s : Db) (now : Instant) (rid : RunId) (fromStage : ContentStage)
    (trigger : WorkflowTransitionTrigger) (context : JsonObject) :
    s.Opens (advanceOrFinish cfg s now rid fromStage trigger context).db := by
  unfold advanceOrFinish
  split
  · exact .refl s
  split
  · exact .refl s
  split
  · exact .refl s
  · split
    · exact .refl s
    · split <;> exact .of_eq rfl
  · split
    · exact .refl s
    · exact opens_enterStage ..

theorem opens_startRun (s : Db) (now : Instant) (ws : WorkspaceId) (item : ItemId)
    (definition : DefinitionId) : s.Opens (startRun cfg s now ws item definition).db := by
  unfold startRun
  split
  · split <;> exact .of_eq rfl
  · exact .refl s

theorem opens_handleStageSuccess (s : Db) (now : Instant) (rid : RunId) (stage : ContentStage)
    (context : JsonObject) : s.Opens (handleStageSuccess cfg s now rid stage context).db := by
  unfold handleStageSuccess
  split
  · exact .refl s
  split
  · exact .refl s
  · exact opens_advanceOrFinish ..

theorem opens_failRun (s : Db) (now : Instant) (rid : RunId) (ws : WorkspaceId) :
    s.Opens (failRun s now rid ws) := by
  have hfailed : s.Opens ((s.updateRun rid (PipelineRun.fail now)).emit now .pipelineFailed
      ws rid) :=
    .of_eq rfl
  exact hfailed.trans (opens_releaseAllReservations ..)

theorem opens_cancelAssignments (now : Instant) (ids : List AssignmentId) : ∀ s : Db,
    s.Opens (cancelAssignments s now ids) := by
  induction ids with
  | nil => exact .refl
  | cons aid rest ih => exact fun s => ih (s.updateAssignment now aid StageAssignment.cancel)

theorem opens_cancelRun (s : Db) (now : Instant) (rid : RunId) : s.Opens (cancelRun s now rid) := by
  unfold cancelRun
  split
  · exact .refl s
  rename_i run _
  split
  · exact .refl s
  · have hrows := opens_cancelAssignments now (openAssignments s rid) s
    have hrun : s.Opens ((cancelAssignments s now (openAssignments s rid)).updateRun rid
        (PipelineRun.cancel now)) := hrows.trans (.of_eq rfl)
    exact hrun.trans (opens_releaseAllReservations _ now rid run.workspaceId)

theorem opens_triggerCompensation {d : WorkflowDefinition} {rid : RunId} {ws : WorkspaceId}
    (h : triggerCompensation d s now rid ws = .ok s') : s.Opens s' := by
  unfold triggerCompensation at h
  split at h
  · cases h
  · cases h
    exact .of_eq rfl

theorem opens_handleStageFailure {rid : RunId} {stage : ContentStage} {stageText : String}
    {attempt : Nat} {errorMessage : String} {jitter : Nat}
    (h : handleStageFailure cfg s now rid stage stageText attempt errorMessage jitter = .ok s') :
    s.Opens s' := by
  unfold handleStageFailure at h
  split at h
  · cases h
  rename_i run _
  simp only at h
  split at h
  · cases h
  split at h
  · cases h
  split at h
  · cases h
    exact .of_eq rfl
  · have hgiven : s.Opens (giveUpStage (s.emit now .stageFailed run.workspaceId rid) now rid run
        stageText attempt errorMessage) :=
      Db.Opens.trans (t := routeToDeadLetter (s.emit now .stageFailed run.workspaceId rid) now
        run.workspaceId (.pipelineRun rid) ("stage:" ++ stageText) errorMessage attempt
        (run.startedAt.getD now)) (.of_eq rfl) (opens_failRun ..)
    split at h
    · cases h
      exact hgiven
    · exact hgiven.trans (opens_triggerCompensation h)

theorem opens_handleStageTimeout {rid : RunId} {stage : ContentStage} {jitter : Nat}
    (h : handleStageTimeout cfg s now rid stage jitter = .ok s') : s.Opens s' := by
  unfold handleStageTimeout at h
  split at h
  · cases h
    exact .refl s
  split at h
  · exact opens_handleStageFailure h
  · cases h
    exact .refl s

/-! ## Dispatching and results -/

theorem opens_insertAssignment (s : Db) (now : Instant) (a : StageAssignment) :
    s.Opens (insertAssignment s now a) := by
  unfold insertAssignment
  simp only
  split <;> exact .of_eq rfl

theorem opens_assignStage {args : DispatchArgs} {worker : Option WorkerId}
    {outcome : DispatchOutcome} (h : assignStage cfg s now args worker = .ok (s', outcome)) :
    s.Opens s' := by
  unfold assignStage at h
  split at h
  · cases h
  · cases h
  split at h
  · cases h
    exact opens_insertAssignment ..
  simp only at h
  split at h
  · cases h
    exact opens_reserveSpend ..
  · cases h
    exact (opens_reserveSpend ..).trans (opens_insertAssignment ..)

theorem opens_dispatchStage {args : DispatchArgs} {rows : List WorkerId} {outcome : DispatchOutcome}
    (h : dispatchStage cfg s now args rows = .ok (s', outcome)) : s.Opens s' := by
  unfold dispatchStage at h
  split at h
  · cases h
    exact .refl s
  split at h
  · cases h
    exact .refl s
  split at h
  · cases h
    exact .refl s
  · exact opens_assignStage h

theorem opens_acknowledge {aid : AssignmentId} {secs : Option Nat} {worker : Option WorkerId}
    (h : acknowledge cfg s now aid secs worker = .ok s') : s.Opens s' := by
  unfold acknowledge at h
  split at h
  · cases h
  simp only at h
  split at h
  · cases h
  · cases h
    exact .of_eq rfl

theorem opens_renewLease {aid : AssignmentId} {secs : Option Nat} {worker : Option WorkerId}
    (h : renewLease cfg s now aid secs worker = .ok s') : s.Opens s' := by
  unfold renewLease at h
  split at h
  · cases h
  simp only at h
  split at h
  · cases h
  · cases h
    exact .of_eq rfl

theorem opens_freeSlot (s : Db) (worker : Option WorkerId)
    (f : WorkerRegistration → WorkerRegistration) : s.Opens (freeSlot s worker f) := by
  unfold freeSlot
  split <;> exact .of_eq rfl

theorem opens_recordResult {aid : AssignmentId} {a : StageAssignment} {run : PipelineRun}
    {success : Bool} {result : Option JsonObject} {errorMessage : String}
    (h : recordResult s now aid a run success result errorMessage = .ok s') : s.Opens s' := by
  unfold recordResult at h
  simp only at h
  split at h
  · cases h
  · cases h
    have hclosed : s.Opens (s.updateAssignment now aid
        (StageAssignment.close now success result)) :=
      .of_eq rfl
    have hfreed := hclosed.trans (opens_freeSlot _ a.workerId WorkerRegistration.returnSlot)
    exact hfreed.trans (.of_eq rfl)

theorem opens_submitSuccess (s : Db) (now : Instant) (a : StageAssignment) (run : PipelineRun)
    (result : Option JsonObject) : s.Opens (submitSuccess cfg s now a run result).db := by
  have hemit : s.Opens (s.emit now .stageCompleted a.workspaceId a.pipelineRunId) := .of_eq rfl
  unfold submitSuccess
  simp only
  split
  · exact hemit
  · rename_i s1 hcommitted
    refine Db.Opens.trans (t := s1) (hemit.trans ?_) (opens_handleStageSuccess ..)
    split at hcommitted
    · cases hcommitted
      exact .refl _
    · exact .of_core (core_commitSpend hcommitted)

theorem opens_submitFailure (s : Db) (now : Instant) (a : StageAssignment) (run : PipelineRun)
    (errorMessage : String) (jitter : Nat) :
    s.Opens (submitFailure cfg s now a run errorMessage jitter).db := by
  unfold submitFailure
  simp only
  refine opens_ofExcept fun s' h => ?_
  refine Db.Opens.trans ?_ (opens_handleStageFailure h)
  split
  · exact .refl s
  · exact .of_core (core_releaseSpend ..)

theorem opens_submitResult (s : Db) (now : Instant) (aid : AssignmentId) (success : Bool)
    (result : Option JsonObject) (errorMessage : String) (worker : Option WorkerId) (jitter : Nat) :
    s.Opens (submitResult cfg s now aid success result errorMessage worker jitter).db := by
  unfold submitResult
  split
  · exact .refl s
  rename_i a _
  split
  · exact .refl s
  split
  · have hclosed : s.Opens (s.updateAssignment now aid
        (StageAssignment.close now success result)) :=
      .of_eq rfl
    exact hclosed.trans (opens_freeSlot ..)
  split
  · exact .refl s
  · rename_i s1 hrecord
    split
    · exact (opens_recordResult hrecord).trans (opens_submitSuccess ..)
    · exact (opens_recordResult hrecord).trans (opens_submitFailure ..)

/-! ## Claiming and recovery -/

theorem opens_recordClaim (s : Db) (wid : WorkerId) (w : WorkerRegistration)
    (outcome : ClaimOutcome)
    (reason : String) (a : Option (AssignmentId × StageAssignment)) (ws : Option WorkspaceId) :
    s.Opens (recordClaim s wid w outcome reason a ws) := by
  unfold recordClaim
  split <;> exact .of_eq rfl

theorem opens_grantClaim (s : Db) (now : Instant) (wid : WorkerId) (w : WorkerRegistration)
    (aid : AssignmentId) (a : StageAssignment) (token : Option ClaimToken)
    (ws : Option WorkspaceId) : s.Opens (grantClaim cfg s now wid w aid a token ws).db := by
  have htaken : s.Opens ((s.updateAssignment now aid
      (StageAssignment.claim cfg now wid token)).updateWorker
      wid WorkerRegistration.takeSlot) := .of_eq rfl
  exact (htaken.trans (opens_recordClaim ..)).trans (.of_eq rfl)

theorem opens_claimWithSpend {wid : WorkerId} {w : WorkerRegistration} {aid : AssignmentId}
    {a : StageAssignment} {token : Option ClaimToken} {ws : Option WorkspaceId} {r : ClaimResult}
    (h : claimWithSpend cfg s now wid w aid a token ws = .ok r) : s.Opens r.db := by
  unfold claimWithSpend at h
  split at h
  · cases h
    exact opens_grantClaim ..
  split at h
  · cases h
  · cases h
    exact opens_grantClaim ..
  simp only at h
  split at h
  · cases h
    exact (opens_reserveSpend ..).trans (opens_grantClaim ..)
  · cases h
    exact (opens_reserveSpend ..).trans (opens_recordClaim ..)

theorem opens_claimFresh {wid : WorkerId} {w : WorkerRegistration} {token : Option ClaimToken}
    {ws : Option WorkspaceId} {rows : List AssignmentId} {r : ClaimResult}
    (h : claimFresh cfg s now wid w token ws rows = .ok r) : s.Opens r.db := by
  unfold claimFresh at h
  split at h
  · cases h
    exact opens_recordClaim ..
  split at h
  · cases h
  split at h
  · exact opens_claimWithSpend h
  split at h
  · cases h
    exact opens_recordClaim ..
  · cases h
    exact opens_recordClaim ..

theorem opens_claimAssignment {wid : WorkerId} {token : Option ClaimToken} {ws : Option WorkspaceId}
    {rows : List AssignmentId} {r : ClaimResult}
    (h : claimAssignment cfg s now wid token ws rows = .ok r) : s.Opens r.db := by
  unfold claimAssignment at h
  split at h
  · cases h
    exact .refl s
  split at h
  · cases h
  · cases h
    exact opens_recordClaim ..
  · exact opens_claimFresh h

theorem opens_failRunUnlessTerminal (s : Db) (now : Instant) (rid : RunId) :
    s.Opens (failRunUnlessTerminal s now rid) := by
  unfold failRunUnlessTerminal
  split
  · exact .refl s
  split
  · exact .refl s
  · exact opens_failRun ..

theorem opens_exhaustAssignment (s : Db) (now : Instant) (aid : AssignmentId) (a : StageAssignment)
    (reason : RecoveryReason) (maxAttempts : Nat) (detail : Option String) :
    s.Opens (exhaustAssignment s now aid a reason maxAttempts detail) := by
  let t := routeToDeadLetter (s.updateAssignment now aid (StageAssignment.exhaust now)) now
    a.workspaceId (.stageAssignment aid) ("stage:" ++ a.stage.formatted)
    ("recovery exhausted (" ++ reason.value ++ ") after " ++ toString a.attemptNumber ++
      " attempts")
    a.attemptNumber now
  have hfailed : t.Opens (failRunUnlessTerminal t now a.pipelineRunId) :=
    opens_failRunUnlessTerminal t now a.pipelineRunId
  exact hfailed

theorem opens_requeueAssignment {aid : AssignmentId} {a : StageAssignment} {reason : RecoveryReason}
    {detail : Option String} (h : requeueAssignment s now aid a reason detail = .ok s') :
    s.Opens s' := by
  unfold requeueAssignment at h
  simp only at h
  split at h
  · split at h
    · cases h
    · cases h
      exact .of_eq rfl
  · split at h
    · cases h
    · cases h
      exact (opens_releaseEach ..).trans (.of_eq rfl)

theorem opens_recoverAssignment {aid : AssignmentId} {reason : RecoveryReason}
    {detail : Option String} (h : recoverAssignment cfg s now aid reason detail = .ok s') :
    s.Opens s' := by
  unfold recoverAssignment at h
  split at h
  · cases h
  split at h
  · cases h
    exact .of_eq rfl
  simp only at h
  split at h
  · cases h
    exact (opens_freeSlot ..).trans (opens_exhaustAssignment ..)
  · exact (opens_freeSlot ..).trans (opens_requeueAssignment h)

theorem opens_recoverEach {reason : RecoveryReason} {detail : Option String}
    (ids : List AssignmentId) : ∀ {s : Db}, recoverEach cfg s now reason detail ids = .ok s' →
      s.Opens s' := by
  induction ids with
  | nil =>
      intro s h
      cases h
      exact .refl _
  | cons aid rest ih =>
      intro s h
      unfold recoverEach at h
      split at h
      · cases h
      · rename_i t hfirst
        exact (opens_recoverAssignment hfirst).trans (ih h)

theorem opens_reapWorkerBatches {wid : WorkerId} {reason : RecoveryReason} {detail : Option String}
    {limit : Nat} {rows : List AssignmentId} (fuel : Nat) : ∀ {s : Db},
      reapWorkerBatches cfg now wid reason detail limit rows fuel s = .ok s' → s.Opens s' := by
  induction fuel with
  | zero =>
      intro s h
      cases h
      exact .refl _
  | succ fuel ih =>
      intro s h
      unfold reapWorkerBatches at h
      split at h
      · cases h
        exact .refl _
      split at h
      · cases h
      · rename_i t hbatch
        split at h
        · cases h
          exact opens_recoverEach _ hbatch
        · exact (opens_recoverEach _ hbatch).trans (ih h)

/-! ## Jobs -/

theorem opens_updateJobs (f : JobSchedule → JobSchedule) (ids : List JobId) : ∀ s : Db,
    s.Opens (updateJobs s f ids) := by
  induction ids with
  | nil => exact .refl
  | cons jid rest ih => exact fun s => ih (s.updateJob jid f)

theorem opens_exhaustJob {jid : JobId} {job : JobSchedule} {rid : RunId}
    (h : exhaustJob s now jid job rid = .ok s') : s.Opens s' := by
  unfold exhaustJob at h
  simp only at h
  split at h
  · cases h
    exact .of_eq rfl
  rename_i run _
  split at h
  · cases h
  · cases h
    have hjob : s.Opens (s.updateJob jid fun j =>
        { j with status := .cancelled, attempt := job.attempt + 1 }) := .of_eq rfl
    have hreleased := hjob.trans (opens_releaseAllReservations _ now rid run.workspaceId)
    exact (hreleased.trans (opens_cancelAssignments now _ _)).trans (.of_eq rfl)

theorem opens_settleJob {jid : JobId} {job : JobSchedule} {rid : RunId} {jitter : Nat}
    {outcome : DispatchOutcome} (h : settleJob s now jid job rid jitter outcome = .ok s') :
    s.Opens s' := by
  cases outcome with
  | backpressure =>
      have h : rescheduleJob s now jid job rid jitter = .ok s' := h
      unfold rescheduleJob at h
      split at h
      · exact opens_exhaustJob h
      · cases h
        exact .of_eq rfl
  | dispatched | idempotent | noWorker | spendHold | skipped =>
      cases h
      exact .of_eq rfl

theorem opens_processWorkJob {jid : JobId} {job : JobSchedule} {rid : RunId} {rows : List WorkerId}
    {jitter : Nat} {outcome : DispatchOutcome}
    (h : processWorkJob cfg s now jid job rid rows jitter = .ok (s', outcome)) : s.Opens s' := by
  unfold processWorkJob at h
  split at h
  · cases h
  · rename_i hdispatch
    split at h
    · cases h
    · rename_i hsettle
      cases h
      exact (opens_dispatchStage hdispatch).trans (opens_settleJob hsettle)

theorem opens_retryDeadLetters (now : Instant) (ws : WorkspaceId) (ids : List Nat) : ∀ s : Db,
    s.Opens (retryDeadLetters s now ws ids) := by
  induction ids with
  | nil => exact .refl
  | cons i rest ih =>
      intro s
      have hfirst : s.Opens (retryDeadLetter s now ws i) := by
        unfold retryDeadLetter
        split
        · exact .refl s
        split
        · exact .refl s
        split
        · exact .refl s
        split
        · exact .refl s
        split <;> exact .of_eq rfl
      exact hfirst.trans (ih _)

theorem opens_retryAssignments (flushed : List JobSchedule) (now : Instant) (ws : WorkspaceId)
    (ids : List AssignmentId) : ∀ s : Db, s.Opens (retryAssignments flushed s now ws ids) := by
  induction ids with
  | nil => exact .refl
  | cons aid rest ih =>
      intro s
      have hfirst : s.Opens (retryAssignment flushed s now ws aid) := by
        unfold retryAssignment
        split
        · exact .refl s
        split
        · exact .refl s
        split
        · exact .refl s
        split <;> exact .of_eq rfl
      exact hfirst.trans (ih _)

/-! ## Gates that are not approved by an operation -/

/-- What is approved afterwards was there before, just as it is. -/
def Db.Undecided (s s' : Db) : Prop :=
  ∀ (gid : GateId) (g : ReviewGate), s'.gates[gid]? = some g → g.status = .approved →
    s.gates[gid]? = some g

theorem Db.Undecided.refl (s : Db) : s.Undecided s := fun _ _ hg _ => hg

theorem Db.Undecided.trans (h : s.Undecided t) (h' : t.Undecided u) : s.Undecided u :=
  fun gid g hg happ => h gid g (h' gid g hg happ) happ

theorem Db.Opens.undecided (h : s.Opens s') : s.Undecided s' := by
  intro gid g hg happ
  obtain ⟨more, hgates, hmore⟩ := h
  rw [hgates] at hg
  by_cases hlt : gid < s.gates.length
  · rwa [List.getElem?_append_left hlt] at hg
  · -- a gate that was opened is awaiting
    rw [List.getElem?_append_right (Nat.le_of_not_lt hlt)] at hg
    have hawait := hmore g (List.mem_of_getElem? hg)
    rw [hawait] at happ
    cases happ

theorem undecided_updateGate {gid : GateId} {f : ReviewGate → ReviewGate} {gate : ReviewGate}
    (hgate : s.gates[gid]? = some gate) (hf : (f gate).status ≠ .approved) :
    s.Undecided (s.updateGate gid f) := by
  intro gid' g hg happ
  obtain ⟨old, hold, ⟨rfl, rfl⟩ | ⟨_, rfl⟩⟩ := Table.get_modify hg
  · rw [hgate] at hold
    cases hold
    exact absurd happ hf
  · exact hold

theorem undecided_handleReviewTimeout (s : Db) (now : Instant) (gid : GateId) :
    s.Undecided (handleReviewTimeout s now gid) := by
  unfold handleReviewTimeout
  split
  · exact .refl s
  rename_i gate hgate
  split
  · exact .refl s
  split
  · let newTimeout := now + seconds (defaultReviewTimeoutHours * 3600)
    have hescalated : s.Undecided (s.updateGate gid (ReviewGate.escalate newTimeout)) := by
      refine undecided_updateGate hgate ?_
      intro h
      cases h
    exact hescalated.trans (Db.Opens.of_eq rfl).undecided
  · have hout : s.Undecided (s.updateGate gid ReviewGate.timeOut) := by
      refine undecided_updateGate hgate ?_
      intro h
      cases h
    have hout := hout.trans (opens_emit _ now .reviewTimedOut gate.workspaceId gate.pipelineRunId
      (some gid)).undecided
    simp only
    split
    · exact hout
    · exact hout.trans (opens_failRun _ now gate.pipelineRunId _).undecided

theorem undecided_submitReviewDecision {gid : GateId} {reviewer : UserId} {approved : Bool}
    {notes : Option String} {eid : EventId}
    (h : submitReviewDecision s now gid reviewer approved notes = .ok (s', eid)) :
    s.Undecided s' := by
  unfold submitReviewDecision at h
  split at h
  · cases h
  rename_i gate hgate
  split at h
  · cases h
  rename_i hawait
  split at h
  · cases h
  · cases h
    have hby : s.Undecided (s.updateGate gid (ReviewGate.decideBy reviewer)) := by
      refine undecided_updateGate hgate fun happ => hawait fun h => ?_
      have happ : gate.status = .approved := happ
      rw [happ] at h
      cases h
    exact hby.trans (Db.Opens.of_eq rfl).undecided

theorem undecided_editReviewGateContent {ws : WorkspaceId} {gid : GateId} {expected : VersionId}
    {hook body cta : Option String}
    (h : editReviewGateContent s ws gid expected hook body cta = .ok s') : s.Undecided s' := by
  unfold editReviewGateContent at h
  split at h
  · cases h
  rename_i gate hgate
  split at h
  · cases h
  split at h
  · cases h
  rename_i hawait
  split at h
  · cases h
  split at h
  · cases h
  split at h
  · cases h
  · cases h
    have hshown : s.Undecided (s.updateGate gid (ReviewGate.showVersion s.versions.length)) := by
      refine undecided_updateGate hgate fun happ => hawait fun h => ?_
      have happ : gate.status = .approved := happ
      rw [happ] at h
      cases h
    exact hshown.trans (Db.Opens.of_eq rfl).undecided

theorem undecided_processLeasedJob {jid : JobId} {rows : List WorkerId} {jitter : Nat}
    (h : processLeasedJob cfg s now jid rows jitter = .ok s') : s.Undecided s' := by
  unfold processLeasedJob at h
  split at h
  · cases h
  · have hfinish : ∀ t : Db, t.Opens (t.updateJob jid JobSchedule.finish) := fun _ => .of_eq rfl
    split at h
    · obtain ⟨r, hwork, rfl⟩ := map_ok h
      exact (opens_processWorkJob hwork).undecided
    · obtain ⟨r, hwork, rfl⟩ := map_ok h
      exact (opens_processWorkJob hwork).undecided
    · split at h
      · cases h
        exact (hfinish s).undecided
      · obtain ⟨t, htimeout, rfl⟩ := map_ok h
        exact ((opens_handleStageTimeout htimeout).trans (hfinish t)).undecided
    · cases h
      exact (undecided_handleReviewTimeout s now _).trans (hfinish _).undecided
    · cases h
      exact (hfinish s).undecided
    · cases h

/-! ## Operations -/

/-- The operations that deliver a decision. -/
def Action.decides : Action → Bool
  | .dispatchOne .. | .submitAndDeliver .. | .decideReviewGate .. => true
  | _ => false

theorem call_undecided (cfg : Config) (s : Db) (now : Instant) (action : Action)
    (hdecides : action.decides = false) : s.Undecided (Op.call cfg s ⟨now, action⟩).db := by
  cases action with
  | startRun ws item definition => exact (opens_startRun s now ws item definition).undecided
  | pollAndLease batchSize rows =>
      exact (opens_updateJobs (JobSchedule.lease now) _ s).undecided
  | reapExpiredJobLeases batchSize rows =>
    exact (opens_updateJobs JobSchedule.unlease _ s).undecided
  | processLeasedJob jid rows jitter =>
      show s.Undecided (Call.ofExcept s (processLeasedJob cfg s now jid rows jitter)).db
      cases h : processLeasedJob cfg s now jid rows jitter with
      | error _ => exact .refl s
      | ok s' => exact undecided_processLeasedJob h
  | dispatchStage args rows =>
      refine (opens_ofExcept fun s' h => ?_).undecided
      obtain ⟨r, hdispatch, rfl⟩ := map_ok h
      exact opens_dispatchStage hdispatch
  | claimAssignment wid token ws rows =>
      refine (opens_ofExcept fun s' h => ?_).undecided
      obtain ⟨r, hclaim, rfl⟩ := map_ok h
      exact opens_claimAssignment hclaim
  | acknowledge aid secs worker => exact (opens_ofExcept fun _ h => opens_acknowledge h).undecided
  | renewLease aid secs worker => exact (opens_ofExcept fun _ h => opens_renewLease h).undecided
  | submitResult aid success result errorMessage worker jitter =>
      exact (opens_submitResult s now aid success result errorMessage worker jitter).undecided
  | recoverAssignment aid reason detail =>
      exact (opens_ofExcept fun _ h => opens_recoverAssignment h).undecided
  | reapExpiredLeases batchSize rows =>
      exact (opens_ofExcept fun _ h => opens_recoverEach _ h).undecided
  | reapWorkerAssignments wid reason batchSize detail rows =>
      exact (opens_ofExcept fun _ h => opens_reapWorkerBatches _ h).undecided
  | pauseForReview rid stage timeoutSeconds =>
      exact (opens_pauseForReview s now rid stage timeoutSeconds).undecided
  | submitReviewDecision gid reviewer approved notes =>
      show s.Undecided (Call.ofExcept s
        ((submitReviewDecision s now gid reviewer approved notes).map Prod.fst)).db
      cases h : submitReviewDecision s now gid reviewer approved notes with
      | error _ => exact .refl s
      | ok r => exact undecided_submitReviewDecision h
  | editReviewGateContent ws gid expected hook body cta =>
      show s.Undecided (Call.ofExcept s (editReviewGateContent s ws gid expected hook body cta)).db
      cases h : editReviewGateContent s ws gid expected hook body cta with
      | error _ => exact .refl s
      | ok s' => exact undecided_editReviewGateContent h
  | handleReviewTimeout gid => exact undecided_handleReviewTimeout s now gid
  | handleStageTimeout rid stage jitter =>
      exact (opens_ofExcept fun _ h => opens_handleStageTimeout h).undecided
  | reserveSpend rid stage provider estimate =>
      show s.Undecided (reserveSpendFor s now rid stage provider estimate)
      unfold reserveSpendFor
      split
      · exact .refl s
      · exact (opens_reserveSpend s now rid _ stage provider estimate).undecided
  | cancelRun rid => exact (opens_cancelRun s now rid).undecided
  | retryFailedJobs ws rows =>
      exact ((opens_retryDeadLetters now ws _ s).trans
        (opens_retryAssignments s.jobs now ws _ _)).undecided
  | dispatchOne | submitAndDeliver | decideReviewGate => cases hdecides

/-- **Only a decision approves a gate.** -/
theorem exec_undecided (cfg : Config) (s : Db) {o : Op} (hdecides : o.action.decides = false) :
    s.Undecided (exec cfg s o) := by
  have hcall := call_undecided cfg s o.now o.action hdecides
  unfold exec Call.commit
  split
  · exact .refl s
  · exact hcall.trans (Db.Opens.of_eq rfl).undecided

end HumanGate
