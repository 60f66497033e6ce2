import HumanGate.Model.Operations

set_option autoImplicit false

/-! # What the controller leaves alone

Starting, advancing, pausing, failing and reviewing a run write the run, its jobs and gates,
the ledger and the outbox. The assignments, the workers, the record of the attempts and the
dead letters are *backstage*: these functions do not touch them.
-/

namespace HumanGate

open Lib Lib.Calendar

/-- The database without what the controller writes. -/
def Db.backstage (s : Db) : Db :=
  { s with
    items := []
    versions := []
    runs := []
    jobs := []
    gates := []
    gateColumn := []
    decisions := []
    reservations := []
    logs := []
    outbox := [] }

theorem backstage_of_core {s s' : Db} (h : s'.core = s.core) : s'.backstage = s.backstage := by
  have hc : s'.core.backstage = s.core.backstage := by rw [h]
  exact hc

section Frame

variable (s : Db) (now : Instant)

@[simp] theorem backstage_flush : s.flush.backstage = s.backstage := rfl

@[simp] theorem backstage_emit (e : EventType) (ws : WorkspaceId) (rid : RunId)
    (g : Option GateId) :
    (s.emit now e ws rid g).backstage = s.backstage := rfl

@[simp] theorem backstage_updateRun (rid : RunId) (f : PipelineRun → PipelineRun) :
    (s.updateRun rid f).backstage = s.backstage := rfl

@[simp] theorem backstage_updateJob (jid : JobId) (f : JobSchedule → JobSchedule) :
    (s.updateJob jid f).backstage = s.backstage := rfl

@[simp] theorem backstage_updateGate (gid : GateId) (f : ReviewGate → ReviewGate) :
    (s.updateGate gid f).backstage = s.backstage := rfl

@[simp] theorem backstage_updateEvent (eid : EventId) (f : OutboxEvent → OutboxEvent) :
    (s.updateEvent eid f).backstage = s.backstage := rfl

@[simp] theorem backstage_releaseEach (rid : RunId) (ws : WorkspaceId) (ids : List ReservationId) :
    (releaseEach s now rid ws ids).backstage = s.backstage :=
  backstage_of_core (core_releaseEach ..)

@[simp] theorem backstage_releaseAllReservations (rid : RunId) (ws : WorkspaceId) :
    (releaseAllReservations s now rid ws).backstage = s.backstage :=
  backstage_of_core (core_releaseAllReservations ..)

@[simp] theorem backstage_reserveSpend (rid : RunId) (ws : WorkspaceId) (stage : ContentStage)
    (provider : String) (estimate : ℚ≥0) :
    (reserveSpend s now rid ws stage provider estimate).1.backstage = s.backstage := by
  rcases core_reserveSpend s now rid ws stage provider estimate with ⟨_, h⟩ | ⟨_, h⟩
  · exact (backstage_of_core h).trans rfl
  · exact backstage_of_core h

@[simp] theorem backstage_enqueueStage (cfg : Config) (rid : RunId) (ws : WorkspaceId)
    (stage : ContentStage) (attempt : Nat) (runAfter : Instant) :
    (enqueueStage cfg s now rid ws stage attempt runAfter).backstage = s.backstage := rfl

@[simp] theorem backstage_updateJobs (f : JobSchedule → JobSchedule) (ids : List JobId) :
    (updateJobs s f ids).backstage = s.backstage := by
  induction ids generalizing s with
  | nil => rfl
  | cons jid rest ih => exact ih _

@[simp] theorem backstage_pauseForReview (rid : RunId) (stage : ContentStage)
    (timeoutSeconds : Nat) :
    (pauseForReview s now rid stage timeoutSeconds).db.backstage = s.backstage := by
  unfold pauseForReview
  split
  · rfl
  · split
    · rfl
    · split
      · rfl
      · rfl
      · split <;> rfl

@[simp] theorem backstage_enterStage (cfg : Config) (rid : RunId) (ws : WorkspaceId)
    (row : WorkflowStage) : (enterStage cfg s now rid ws row).db.backstage = s.backstage := by
  unfold enterStage
  simp only
  split
  · rfl
  · split
    · exact backstage_pauseForReview ..
    · rfl

@[simp] theorem backstage_advanceOrFinish (cfg : Config) (rid : RunId) (fromStage : ContentStage)
    (trigger : WorkflowTransitionTrigger) (context : JsonObject) :
    (advanceOrFinish cfg s now rid fromStage trigger context).db.backstage = s.backstage := by
  unfold advanceOrFinish
  split
  · rfl
  · split
    · rfl
    · split
      · rfl
      · split
        · rfl
        · split <;> rfl
      · split
        · rfl
        · exact backstage_enterStage ..

@[simp] theorem backstage_startRun (cfg : Config) (ws : WorkspaceId) (item : ItemId)
    (definition : DefinitionId) :
    (startRun cfg s now ws item definition).db.backstage = s.backstage := by
  unfold startRun
  split
  · split <;> rfl
  · rfl

@[simp] theorem backstage_handleStageSuccess (cfg : Config) (rid : RunId) (stage : ContentStage)
    (context : JsonObject) :
    (handleStageSuccess cfg s now rid stage context).db.backstage = s.backstage := by
  unfold handleStageSuccess
  split
  · rfl
  · split
    · rfl
    · exact backstage_advanceOrFinish ..

@[simp] theorem backstage_failRun (rid : RunId) (ws : WorkspaceId) :
    (failRun s now rid ws).backstage = s.backstage := by
  unfold failRun
  rw [backstage_releaseAllReservations]
  rfl

@[simp] theorem backstage_failRunUnlessTerminal (rid : RunId) :
    (failRunUnlessTerminal s now rid).backstage = s.backstage := by
  unfold failRunUnlessTerminal
  split
  · rfl
  · split
    · rfl
    · exact backstage_failRun ..

@[simp] theorem backstage_resumeFromReview (cfg : Config) (gid : GateId) (approved : Bool) :
    (resumeFromReview cfg s now gid approved).db.backstage = s.backstage := by
  unfold resumeFromReview
  split
  · rfl
  · split
    · rfl
    · split
      · rfl
      · simp only
        split
        · exact backstage_advanceOrFinish ..
        · split
          · rfl
          · split
            · rfl
            · exact backstage_failRun ..
            · exact backstage_advanceOrFinish ..

@[simp] theorem backstage_handleReviewTimeout (gid : GateId) :
    (handleReviewTimeout s now gid).backstage = s.backstage := by
  unfold handleReviewTimeout
  split
  · rfl
  · split
    · rfl
    · split
      · rfl
      · simp only
        split
        · rfl
        · exact backstage_failRun ..

end Frame

variable {cfg : Config} {now : Instant}

theorem backstage_commitSpend {s s' : Db} {rid : RunId} {ws : WorkspaceId} {resId : ReservationId}
    {actual : Decimal} (h : commitSpend s now rid ws resId actual = .ok s') :
    s'.backstage = s.backstage :=
  backstage_of_core (core_commitSpend h)

theorem backstage_triggerCompensation {d : WorkflowDefinition} {s s' : Db} {rid : RunId}
    {ws : WorkspaceId} (h : triggerCompensation d s now rid ws = .ok s') :
    s'.backstage = s.backstage := by
  unfold triggerCompensation at h
  split at h
  · cases h
  · cases h; rfl

theorem backstage_submitReviewDecision {s s' : Db} {gid : GateId} {reviewer : UserId}
    {approved : Bool} {notes : Option String} {eid : EventId}
    (h : submitReviewDecision s now gid reviewer approved notes = .ok (s', eid)) :
    s'.backstage = s.backstage := by
  unfold submitReviewDecision at h
  split at h
  · cases h
  · split at h
    · cases h
    · split at h
      · cases h
      · cases h; rfl

theorem backstage_editReviewGateContent {s s' : Db} {ws : WorkspaceId} {gid : GateId}
    {expected : VersionId} {hook body cta : Option String}
    (h : editReviewGateContent s ws gid expected hook body cta = .ok s') :
    s'.backstage = s.backstage := by
  unfold editReviewGateContent at h
  split at h
  · cases h
  · split at h
    · cases h
    · split at h
      · cases h
      · split at h
        · cases h
        · split at h
          · cases h
          · split at h
            · cases h
            · cases h; rfl

end HumanGate
