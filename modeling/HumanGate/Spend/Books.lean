import HumanGate.Run.Operations
import HumanGate.Spend.ReadCommitted

set_option autoImplicit false

/-! # The books

The reservations and the spend logs. Nothing links a log to a reservation in the tables, so the
two are tied here by the entries that are made (`Entry`): a reservation is opened, released, or
committed together with the log of its cost. Every operation is a sequence of such entries
(`exec_entries`), and in books that are kept this way the logs are matched one to one with the
committed reservations (`Books.Balanced`).
-/

namespace HumanGate

open Lib Lib.Calendar Relation

/-! ## Entries -/

structure Books where
  reservations : List SpendReservation
  logs : List SpendLog

def Db.books (s : Db) : Books := ⟨s.reservations, s.logs⟩

/-- The log is the one of the committed reservation: for its provider and stage, and for no more
than its estimate. -/
structure SpendLog.Settles (l : SpendLog) (r : SpendReservation) : Prop where
  provider : l.provider = r.provider
  stage : l.stage = r.stage
  cost : l.costUsd ≤ r.estimatedCostUsd

inductive Entry (b : Books) : Books → Prop
  | opened {r : SpendReservation} : r.status = .reserved → r.stage.isSome = true →
      Entry b { b with reservations := b.reservations ++ [r] }
  | released {i : ReservationId} {r : SpendReservation} : b.reservations[i]? = some r →
      r.status = .reserved →
      Entry b { b with
        reservations := b.reservations.modify i (SpendReservation.withStatus .released) }
  | committed {i : ReservationId} {r : SpendReservation} {l : SpendLog} :
      b.reservations[i]? = some r → r.status = .reserved → l.Settles r →
      Entry b
        { reservations := b.reservations.modify i (SpendReservation.withStatus .committed)
          logs := b.logs ++ [l] }

abbrev Entries : Books → Books → Prop := ReflTransGen Entry

variable {b b' : Books}

/-- A reservation that has left `RESERVED` stays as it is. -/
theorem Entry.closed (h : Entry b b') {i : ReservationId} {r : SpendReservation}
    (hr : b.reservations[i]? = some r) (hst : r.status ≠ .reserved) :
    b'.reservations[i]? = some r := by
  have hne : ∀ {j : ReservationId} {r' : SpendReservation}, b.reservations[j]? = some r' →
      r'.status = .reserved → j ≠ i := by
    rintro j r' hr' hst' rfl
    rw [hr] at hr'
    cases hr'
    exact hst hst'
  cases h with
  | opened => exact Table.get_push_of_some hr
  | released hr' hst' => exact (Table.get_modify_ne (hne hr' hst')).trans hr
  | committed hr' hst' => exact (Table.get_modify_ne (hne hr' hst')).trans hr

theorem Entries.closed (h : Entries b b') {i : ReservationId} {r : SpendReservation}
    (hr : b.reservations[i]? = some r) (hst : r.status ≠ .reserved) :
    b'.reservations[i]? = some r := by
  induction h with
  | refl => exact hr
  | tail _ hentry ih => exact hentry.closed ih hst

/-- Every reservation is for a stage. -/
def Books.Staged (b : Books) : Prop := ∀ r ∈ b.reservations, r.stage.isSome = true

theorem Entry.staged (h : Entry b b') (hb : b.Staged) : b'.Staged := by
  have hmodify : ∀ (i : ReservationId) (status : ReservationStatus), ∀ r ∈
      b.reservations.modify i (SpendReservation.withStatus status), r.stage.isSome = true := by
    intro i status
    exact Table.forall_modify hb fun r hr => hb r (List.mem_of_getElem? hr)
  cases h with
  | opened _ hstage =>
      intro r hr
      rcases List.mem_append.mp hr with hold | hnew
      · exact hb r hold
      · rw [List.mem_singleton.mp hnew]
        exact hstage
  | released => exact hmodify _ _
  | committed => exact hmodify _ _

theorem Entries.staged (h : Entries b b') (hb : b.Staged) : b'.Staged := by
  induction h with
  | refl => exact hb
  | tail _ hentry ih => exact hentry.staged ih

/-! ## Balanced books -/

/-- The reservation `i` is committed, and the log is its log. -/
def Books.Booked (b : Books) (i : ReservationId) (l : SpendLog) : Prop :=
  ∃ r, b.reservations[i]? = some r ∧ r.status = .committed ∧ l.Settles r

/-- The logs after the first `logs` are those of the reservations `ids`, in this order, and these
are the committed ones. -/
structure Books.Balanced (logs : List SpendLog) (b : Books) (ids : List ReservationId) : Prop where
  unique : ids.Nodup
  complete : ∀ i r, b.reservations[i]? = some r → r.status = .committed → i ∈ ids
  booked : ∃ new, b.logs = logs ++ new ∧ List.Forall₂ b.Booked ids new

theorem Books.Booked.entry (h : Entry b b') {i : ReservationId} {l : SpendLog}
    (hb : b.Booked i l) : b'.Booked i l := by
  obtain ⟨r, hr, hst, hl⟩ := hb
  exact ⟨r, h.closed hr (by rw [hst]; decide), hst, hl⟩

theorem Books.Balanced.mem {logs : List SpendLog} {ids : List ReservationId}
    (h : b.Balanced logs ids) {i : ReservationId} (hi : i ∈ ids) : ∃ l, b.Booked i l := by
  obtain ⟨new, _, hall⟩ := h.booked
  obtain ⟨j, hj⟩ := List.getElem?_of_mem hi
  have hlen := hall.length_eq
  obtain ⟨hlt, rfl⟩ := List.getElem?_eq_some_iff.mp hj
  exact ⟨_, hall.get hlt (hlen ▸ hlt)⟩

/-- **Every entry keeps the books balanced.** -/
theorem Entry.balanced (h : Entry b b') {logs : List SpendLog} {ids : List ReservationId}
    (hb : b.Balanced logs ids) : ∃ ids', b'.Balanced logs ids' := by
  obtain ⟨new, hlogs, hall⟩ := hb.booked
  have hall' : List.Forall₂ b'.Booked ids new := hall.imp fun i l hi => hi.entry h
  -- a reservation that is committed now was committed before, or is the one of this entry
  cases h with
  | opened hst _ =>
      refine ⟨ids, hb.unique, fun i r hr hcommitted => ?_, new, hlogs, hall'⟩
      rcases Table.get_push hr with hold | ⟨_, rfl⟩
      · exact hb.complete i r hold hcommitted
      · rw [hst] at hcommitted
        cases hcommitted
  | released hr' hst' =>
      refine ⟨ids, hb.unique, fun i r hr hcommitted => ?_, new, hlogs, hall'⟩
      obtain ⟨old, hold, ⟨_, rfl⟩ | ⟨_, rfl⟩⟩ := Table.get_modify hr
      · cases hcommitted
      · exact hb.complete i _ hold hcommitted
  | @committed i₀ r₀ l hr₀ hst₀ hl =>
      refine ⟨ids ++ [i₀], ?_, fun i r hr hcommitted => ?_, new ++ [l], ?_, ?_⟩
      · refine List.nodup_append.mpr ⟨hb.unique, List.nodup_singleton i₀, ?_⟩
        intro i hi j hj
        rw [List.mem_singleton.mp hj]
        rintro rfl
        obtain ⟨_, r, hr, hcommitted, _⟩ := hb.mem hi
        rw [hr₀] at hr
        cases hr
        rw [hst₀] at hcommitted
        cases hcommitted
      · obtain ⟨old, hold, ⟨hi, _⟩ | ⟨_, rfl⟩⟩ := Table.get_modify hr
        · subst hi
          exact List.mem_append_right _ (List.mem_singleton_self _)
        · exact List.mem_append_left _ (hb.complete i _ hold hcommitted)
      · show b.logs ++ [l] = logs ++ (new ++ [l])
        rw [hlogs, List.append_assoc]
      · refine List.rel_append hall' (.cons ?_ .nil)
        exact ⟨_, Table.get_modify_self hr₀, rfl, hl.provider, hl.stage, hl.cost⟩

theorem Entries.balanced (h : Entries b b') {logs : List SpendLog}
    (hb : ∃ ids, b.Balanced logs ids) : ∃ ids, b'.Balanced logs ids := by
  induction h with
  | refl => exact hb
  | tail _ hentry ih =>
      obtain ⟨ids, hids⟩ := ih
      exact hentry.balanced hids

/-! ## The spend functions -/

variable {cfg : Config} {s t : Db} {now : Instant}

/-- The tables are kept in order: what changes of the books is made of entries. -/
abbrev KeepsBooks (s t : Db) : Prop := Entries s.books t.books

theorem KeepsBooks.same (h : t.books = s.books) : KeepsBooks s t := by
  unfold KeepsBooks
  rw [h]

/-- A call that raises makes no entry. -/
theorem ofExcept_entries {e : Except Err Db} (h : ∀ t, e = .ok t → KeepsBooks s t) :
    KeepsBooks s (Call.ofExcept s e).db := by
  cases e with
  | error _ => exact .refl
  | ok t => exact h t rfl

section Frame

variable (s : Db) (now : Instant)

@[simp] theorem books_flush : s.flush.books = s.books := rfl

@[simp] theorem books_emit (e : EventType) (ws : WorkspaceId) (rid : RunId) (g : Option GateId) :
    (s.emit now e ws rid g).books = s.books := rfl

@[simp] theorem books_updateRun (rid : RunId) (f : PipelineRun → PipelineRun) :
    (s.updateRun rid f).books = s.books := rfl

@[simp] theorem books_updateJob (jid : JobId) (f : JobSchedule → JobSchedule) :
    (s.updateJob jid f).books = s.books := rfl

@[simp] theorem books_updateGate (gid : GateId) (f : ReviewGate → ReviewGate) :
    (s.updateGate gid f).books = s.books := rfl

@[simp] theorem books_updateAssignment (aid : AssignmentId)
    (f : StageAssignment → StageAssignment) : (s.updateAssignment now aid f).books = s.books := rfl

@[simp] theorem books_updateWorker (wid : WorkerId)
    (f : WorkerRegistration → WorkerRegistration) : (s.updateWorker wid f).books = s.books := rfl

@[simp] theorem books_freeSlot (worker : Option WorkerId)
    (f : WorkerRegistration → WorkerRegistration) : (freeSlot s worker f).books = s.books := by
  unfold freeSlot
  split <;> rfl

@[simp] theorem books_routeToDeadLetter (ws : WorkspaceId) (related : RelatedId)
    (jobType reason : String) (attempts : Nat) (first : Instant) :
    (routeToDeadLetter s now ws related jobType reason attempts first).books = s.books := rfl

@[simp] theorem books_auditRecovery (aid : AssignmentId) (a : StageAssignment)
    (reason : RecoveryReason) (newAttempt : Option Nat) (outcome : RecoveryOutcome)
    (detail : Option String) :
    (auditRecovery s aid a reason newAttempt outcome detail).books = s.books := rfl

@[simp] theorem books_recordClaim (wid : WorkerId) (w : WorkerRegistration)
    (outcome : ClaimOutcome) (reason : String) (a : Option (AssignmentId × StageAssignment))
    (ws : Option WorkspaceId) : (recordClaim s wid w outcome reason a ws).books = s.books := by
  unfold recordClaim
  split <;> rfl

@[simp] theorem books_insertAssignment (a : StageAssignment) :
    (insertAssignment s now a).books = s.books := by
  unfold insertAssignment
  simp only [books_emit]
  split <;> rfl

end Frame

theorem releaseSpend_entries (s : Db) (now : Instant) (rid : RunId) (ws : WorkspaceId)
    (resId : ReservationId) : KeepsBooks s (releaseSpend s now rid ws resId) := by
  unfold releaseSpend
  split
  · exact .refl
  · rename_i r hr
    split
    · rename_i hst
      exact .single (.released hr hst)
    · exact .refl

theorem releaseEach_entries (now : Instant) (rid : RunId) (ws : WorkspaceId)
    (ids : List ReservationId) : ∀ s : Db, KeepsBooks s (releaseEach s now rid ws ids) := by
  induction ids with
  | nil => intro s; exact .refl
  | cons resId rest ih =>
      intro s
      exact (releaseSpend_entries s now rid ws resId).trans (ih _)

theorem releaseAllReservations_entries (s : Db) (now : Instant) (rid : RunId) (ws : WorkspaceId) :
    KeepsBooks s (releaseAllReservations s now rid ws) :=
  releaseEach_entries now rid ws _ s

theorem commitSpend_entries {rid : RunId} {ws : WorkspaceId} {resId : ReservationId}
    {actual : Decimal} (h : commitSpend s now rid ws resId actual = .ok t) : KeepsBooks s t := by
  unfold commitSpend at h
  split at h
  · cases h
    exact .refl
  · rename_i r hr
    split at h
    · cases h
      exact .refl
    · cases h
    · rename_i hst
      split at h
      · cases h
      · rename_i cost hcost
        cases h
        exact .single (.committed hr hst ⟨rfl, rfl, settledCost_le hcost⟩)

theorem reserveSpend_entries (s : Db) (now : Instant) (rid : RunId) (ws : WorkspaceId)
    (stage : ContentStage) (provider : String) (estimate : ℚ≥0) :
    KeepsBooks s (reserveSpend s now rid ws stage provider estimate).1 := by
  have hreleased := releaseEach_entries now rid ws (openReservationsFor s rid stage) s
  unfold reserveSpend recordReservation
  simp only
  split
  · exact hreleased
  · exact hreleased.tail (.opened rfl rfl)

/-! ## The controller -/

theorem failRun_entries (s : Db) (now : Instant) (rid : RunId) (ws : WorkspaceId) :
    KeepsBooks s (failRun s now rid ws) :=
  releaseAllReservations_entries ((s.updateRun rid (PipelineRun.fail now)).emit now .pipelineFailed
    ws rid) now rid ws

@[simp] theorem books_cancelAssignments (now : Instant) (ids : List AssignmentId) : ∀ s : Db,
    (cancelAssignments s now ids).books = s.books := by
  induction ids with
  | nil => intro s; rfl
  | cons aid rest ih => intro s; exact ih _

theorem cancelRun_entries (s : Db) (now : Instant) (rid : RunId) :
    KeepsBooks s (cancelRun s now rid) := by
  unfold cancelRun
  split
  · exact .refl
  · rename_i run _
    split
    · exact .refl
    · have hreleased := releaseAllReservations_entries ((cancelAssignments s now
        (openAssignments s rid)).updateRun rid (PipelineRun.cancel now)) now rid run.workspaceId
      unfold KeepsBooks at hreleased
      rw [books_updateRun, books_cancelAssignments] at hreleased
      exact hreleased

@[simp] theorem books_pauseForReview (s : Db) (now : Instant) (rid : RunId) (stage : ContentStage)
    (timeoutSeconds : Nat) :
    (pauseForReview s now rid stage timeoutSeconds).db.books = s.books := by
  unfold pauseForReview
  split
  · rfl
  · split
    · rfl
    · split
      · rfl
      · rfl
      · split <;> rfl

@[simp] theorem books_enterStage (s : Db) (now : Instant) (rid : RunId) (ws : WorkspaceId)
    (row : WorkflowStage) : (enterStage cfg s now rid ws row).db.books = s.books := by
  unfold enterStage
  simp only
  split
  · rfl
  · split
    · exact books_pauseForReview ..
    · rfl

@[simp] theorem books_advanceOrFinish (s : Db) (now : Instant) (rid : RunId)
    (fromStage : ContentStage) (trigger : WorkflowTransitionTrigger) (context : JsonObject) :
    (advanceOrFinish cfg s now rid fromStage trigger context).db.books = s.books := by
  unfold advanceOrFinish
  split
  · rfl
  · split
    · rfl
    · split
      · rfl
      · split
        · rfl
        · split <;> rfl
      · split
        · rfl
        · exact books_enterStage ..

@[simp] theorem books_handleStageSuccess (s : Db) (now : Instant) (rid : RunId)
    (stage : ContentStage) (context : JsonObject) :
    (handleStageSuccess cfg s now rid stage context).db.books = s.books := by
  unfold handleStageSuccess
  split
  · rfl
  · split
    · rfl
    · exact books_advanceOrFinish ..

theorem handleStageFailure_entries {rid : RunId} {stage : ContentStage} {stageText : String}
    {attempt : Nat} {errorMessage : String} {jitter : Nat}
    (h : handleStageFailure cfg s now rid stage stageText attempt errorMessage jitter = .ok t) :
    KeepsBooks s t := by
  unfold handleStageFailure at h
  split at h
  · cases h
  · rename_i run _
    simp only at h
    split at h
    · cases h
    · split at h
      · cases h
      · split at h
        · cases h
          exact .refl
        · have hfailed := failRun_entries (routeToDeadLetter (s.emit now .stageFailed
            run.workspaceId rid) now run.workspaceId (.pipelineRun rid) ("stage:" ++ stageText)
            errorMessage attempt (run.startedAt.getD now)) now rid run.workspaceId
          split at h
          · cases h
            exact hfailed
          · unfold triggerCompensation at h
            split at h
            · cases h
            · cases h
              exact hfailed

theorem handleStageTimeout_entries {rid : RunId} {stage : ContentStage} {jitter : Nat}
    (h : handleStageTimeout cfg s now rid stage jitter = .ok t) : KeepsBooks s t := by
  unfold handleStageTimeout at h
  split at h
  · cases h
    exact .refl
  · split at h
    · exact handleStageFailure_entries h
    · cases h
      exact .refl

theorem resumeFromReview_entries (s : Db) (now : Instant) (gid : GateId) (approved : Bool) :
    KeepsBooks s (resumeFromReview cfg s now gid approved).db := by
  unfold resumeFromReview
  split
  · exact .refl
  · rename_i g _
    split
    · exact .refl
    · split
      · exact .refl
      · rename_i run _
        simp only
        split
        · exact .same (books_advanceOrFinish ..)
        · split
          · exact .refl
          · split
            · exact .refl
            · exact failRun_entries ((s.updateGate gid (ReviewGate.decide approved now)).updateRun
                g.pipelineRunId PipelineRun.clearReason) now g.pipelineRunId run.workspaceId
            · exact .same (books_advanceOrFinish ..)

theorem handleReviewTimeout_entries (s : Db) (now : Instant) (gid : GateId) :
    KeepsBooks s (handleReviewTimeout s now gid) := by
  unfold handleReviewTimeout
  split
  · exact .refl
  · rename_i g _
    split
    · exact .refl
    · split
      · exact .refl
      · simp only
        split
        · exact .refl
        · rename_i run _
          exact failRun_entries ((s.updateGate gid ReviewGate.timeOut).emit now .reviewTimedOut
            g.workspaceId g.pipelineRunId (some gid)) now g.pipelineRunId run.workspaceId

theorem submitReviewDecision_entries {gid : GateId} {reviewer : UserId} {approved : Bool}
    {notes : Option String} {eid : EventId}
    (h : submitReviewDecision s now gid reviewer approved notes = .ok (t, eid)) :
    KeepsBooks s t := by
  unfold submitReviewDecision at h
  split at h
  · cases h
  · split at h
    · cases h
    · split at h
      · cases h
      · cases h
        exact .refl

theorem dispatchOne_entries (s : Db) (now : Instant) (eid : EventId) :
    KeepsBooks s (dispatchOne cfg s now eid).db := by
  have hcall : ∀ event approved, KeepsBooks s (onReview cfg s now event approved).db := by
    intro event approved
    unfold onReview
    split
    · exact .refl
    · exact resumeFromReview_entries ..
  unfold dispatchOne
  split
  · exact .refl
  · rename_i event _
    split
    · exact .refl
    · rename_i approved _
      split
      · exact .refl
      · simp only
        split
        · exact hcall event approved
        · refine (hcall event approved).trans (KeepsBooks.same ?_)
          unfold failDelivery
          simp only
          split <;> rfl

theorem submitAndDeliver_entries (s : Db) (now : Instant) (gid : GateId) (reviewer : UserId)
    (approved : Bool) (notes : Option String) :
    KeepsBooks s (submitAndDeliver cfg s now gid reviewer approved notes).db := by
  unfold submitAndDeliver
  split
  · exact .refl
  · rename_i h
    exact (submitReviewDecision_entries h).trans (dispatchOne_entries ..)

theorem decideReviewGate_entries (s : Db) (now : Instant) (ws : WorkspaceId) (gid : GateId)
    (reviewer : UserId) (approved : Bool) (expected : Option VersionId) (notes : Option String) :
    KeepsBooks s (decideReviewGate cfg s now ws gid reviewer approved expected notes).db := by
  unfold decideReviewGate
  split
  · exact .refl
  · split
    · exact .refl
    · split
      · exact .refl
      · split
        · exact .refl
        · split
          · exact .refl
          · simp only
            split
            · exact .refl
            · exact submitAndDeliver_entries ..

theorem editReviewGateContent_entries {ws : WorkspaceId} {gid : GateId} {expected : VersionId}
    {hook body cta : Option String}
    (h : editReviewGateContent s ws gid expected hook body cta = .ok t) : KeepsBooks s t := by
  unfold editReviewGateContent at h
  split at h
  · cases h
  · split at h
    · cases h
    · split at h
      · cases h
      · split at h
        · cases h
        · split at h
          · cases h
          · split at h
            · cases h
            · cases h
              exact .refl

/-! ## Dispatching -/

theorem assignStage_entries {a : DispatchArgs} {worker : Option WorkerId}
    {outcome : DispatchOutcome} (h : assignStage cfg s now a worker = .ok (t, outcome)) :
    KeepsBooks s t := by
  unfold assignStage at h
  split at h
  · cases h
  · cases h
  · rename_i stage run _ _
    split at h
    · cases h
      exact .same (books_insertAssignment ..)
    · have hreserved := reserveSpend_entries s now a.pipelineRunId run.workspaceId stage
        (effectiveProvider a.provider) cfg.settings.defaultStageEstimateUsd
      simp only at h
      split at h
      · cases h
        exact hreserved
      · cases h
        exact hreserved.trans (KeepsBooks.same (books_insertAssignment ..))

theorem dispatchStage_entries {a : DispatchArgs} {rows : List WorkerId}
    {outcome : DispatchOutcome} (h : dispatchStage cfg s now a rows = .ok (t, outcome)) :
    KeepsBooks s t := by
  unfold dispatchStage at h
  split at h
  · cases h
    exact .refl
  · split at h
    · cases h
      exact .refl
    · split at h
      · cases h
        exact .refl
      · exact assignStage_entries h

theorem exhaustJob_entries {jid : JobId} {job : JobSchedule} {rid : RunId}
    (h : exhaustJob s now jid job rid = .ok t) : KeepsBooks s t := by
  unfold exhaustJob at h
  simp only at h
  split at h
  · cases h
    exact .refl
  · rename_i run _
    split at h
    · cases h
    · cases h
      refine (releaseAllReservations_entries (s.updateJob jid fun j =>
        { j with status := .cancelled, attempt := job.attempt + 1 }) now rid
        run.workspaceId).trans (KeepsBooks.same ?_)
      rw [books_routeToDeadLetter, books_cancelAssignments]

theorem settleJob_entries {jid : JobId} {job : JobSchedule} {rid : RunId} {jitter : Nat}
    {outcome : DispatchOutcome} (h : settleJob s now jid job rid jitter outcome = .ok t) :
    KeepsBooks s t := by
  cases outcome with
  | backpressure =>
      simp only [settleJob, rescheduleJob] at h
      split at h
      · exact exhaustJob_entries h
      · cases h
        exact .refl
  | dispatched | idempotent | noWorker | spendHold | skipped =>
      cases h
      exact .refl

theorem processWorkJob_entries {jid : JobId} {job : JobSchedule} {rid : RunId}
    {rows : List WorkerId} {jitter : Nat} {outcome : DispatchOutcome}
    (h : processWorkJob cfg s now jid job rid rows jitter = .ok (t, outcome)) :
    KeepsBooks s t := by
  unfold processWorkJob at h
  split at h
  · cases h
  · rename_i hdispatch
    split at h
    · cases h
    · rename_i hsettle
      cases h
      exact (dispatchStage_entries hdispatch).trans (settleJob_entries hsettle)

theorem processLeasedJob_entries {jid : JobId} {rows : List WorkerId} {jitter : Nat}
    (h : processLeasedJob cfg s now jid rows jitter = .ok t) : KeepsBooks s t := by
  unfold processLeasedJob at h
  split at h
  · cases h
  · split at h
    · obtain ⟨⟨_, _⟩, hwork, rfl⟩ := map_ok h
      exact processWorkJob_entries hwork
    · obtain ⟨⟨_, _⟩, hwork, rfl⟩ := map_ok h
      exact processWorkJob_entries hwork
    · split at h
      · cases h
        exact .refl
      · obtain ⟨u, htimeout, rfl⟩ := map_ok h
        have htimed : KeepsBooks s u := handleStageTimeout_entries htimeout
        exact htimed
    · cases h
      exact handleReviewTimeout_entries ..
    · cases h
      exact .refl
    · cases h

/-! ## Workers -/

@[simp] theorem books_grantClaim (s : Db) (now : Instant) (wid : WorkerId)
    (w : WorkerRegistration) (aid : AssignmentId) (a : StageAssignment)
    (token : Option ClaimToken) (ws : Option WorkspaceId) :
    (grantClaim cfg s now wid w aid a token ws).db.books = s.books := by
  unfold grantClaim
  simp only [books_emit, books_recordClaim, books_updateWorker, books_updateAssignment]

theorem claimWithSpend_entries {wid : WorkerId} {w : WorkerRegistration} {aid : AssignmentId}
    {a : StageAssignment} {token : Option ClaimToken} {ws : Option WorkspaceId} {r : ClaimResult}
    (h : claimWithSpend cfg s now wid w aid a token ws = .ok r) : KeepsBooks s r.db := by
  unfold claimWithSpend at h
  split at h
  · cases h
    exact .same (books_grantClaim ..)
  · rename_i run _
    split at h
    · cases h
    · cases h
      exact .same (books_grantClaim ..)
    · have hreserved := reserveSpend_entries s now a.pipelineRunId run.workspaceId a.stage
        (effectiveProvider a.provider) cfg.settings.defaultStageEstimateUsd
      simp only at h
      split at h
      · cases h
        exact hreserved.trans (KeepsBooks.same (books_grantClaim ..))
      · cases h
        exact hreserved.trans (KeepsBooks.same (books_recordClaim ..))

theorem claimAssignment_entries {wid : WorkerId} {token : Option ClaimToken}
    {ws : Option WorkspaceId} {rows : List AssignmentId} {r : ClaimResult}
    (h : claimAssignment cfg s now wid token ws rows = .ok r) : KeepsBooks s r.db := by
  unfold claimAssignment at h
  split at h
  · cases h
    exact .refl
  · split at h
    · cases h
    · cases h
      exact .same (books_recordClaim ..)
    · unfold claimFresh at h
      split at h
      · cases h
        exact .same (books_recordClaim ..)
      · split at h
        · cases h
        · split at h
          · exact claimWithSpend_entries h
          · split at h
            · cases h
              exact .same (books_recordClaim ..)
            · cases h
              exact .same (books_recordClaim ..)

theorem acknowledge_entries {aid : AssignmentId} {secs : Option Nat} {worker : Option WorkerId}
    (h : acknowledge cfg s now aid secs worker = .ok t) : KeepsBooks s t := by
  unfold acknowledge at h
  split at h
  · cases h
  · simp only at h
    split at h
    · cases h
    · cases h
      exact .refl

theorem renewLease_entries {aid : AssignmentId} {secs : Option Nat} {worker : Option WorkerId}
    (h : renewLease cfg s now aid secs worker = .ok t) : KeepsBooks s t := by
  unfold renewLease at h
  split at h
  · cases h
  · simp only at h
    split at h
    · cases h
    · cases h
      exact .refl

theorem recordResult_entries {aid : AssignmentId} {a : StageAssignment} {run : PipelineRun}
    {success : Bool} {result : Option JsonObject} {errorMessage : String}
    (h : recordResult s now aid a run success result errorMessage = .ok t) : KeepsBooks s t := by
  unfold recordResult at h
  simp only at h
  split at h
  · cases h
  · cases h
    exact .same (books_freeSlot ..)

theorem submitSuccess_entries {a : StageAssignment} {run : PipelineRun}
    {result : Option JsonObject} (h : (submitSuccess cfg s now a run result).raised = none) :
    KeepsBooks s (submitSuccess cfg s now a run result).db := by
  unfold submitSuccess at h ⊢
  simp only at h ⊢
  split
  · rename_i hcommitted
    simp only [hcommitted] at h
    cases h
  · rename_i u hcommitted
    have hcommit : KeepsBooks s u := by
      split at hcommitted
      · cases hcommitted
        exact .refl
      · have hsettled := commitSpend_entries hcommitted
        exact hsettled
    exact hcommit.trans (KeepsBooks.same (books_handleStageSuccess ..))

theorem submitFailure_entries {a : StageAssignment} {run : PipelineRun} {errorMessage : String}
    {jitter : Nat} : KeepsBooks s (submitFailure cfg s now a run errorMessage jitter).db := by
  unfold submitFailure
  refine ofExcept_entries fun t h => .trans ?_ (handleStageFailure_entries h)
  split
  · exact .refl
  · exact releaseSpend_entries ..

theorem submitResult_entries {aid : AssignmentId} {success : Bool} {result : Option JsonObject}
    {errorMessage : String} {worker : Option WorkerId} {jitter : Nat}
    (h : (submitResult cfg s now aid success result errorMessage worker jitter).raised = none) :
    KeepsBooks s (submitResult cfg s now aid success result errorMessage worker jitter).db := by
  unfold submitResult at h ⊢
  split
  · exact .refl
  · rename_i a ha
    simp only [ha] at h
    split
    · exact .refl
    · rename_i hrefusal
      simp only [hrefusal] at h
      split
      · exact .same (books_freeSlot ..)
      · rename_i hrun
        simp only [hrun] at h
        split
        · exact .refl
        · rename_i hrecord
          simp only [hrecord] at h
          split
          · rename_i hsuccess
            rw [if_pos hsuccess] at h
            exact (recordResult_entries hrecord).trans (submitSuccess_entries h)
          · exact (recordResult_entries hrecord).trans submitFailure_entries

/-! ## Recovery -/

theorem exhaustAssignment_entries (s : Db) (now : Instant) (aid : AssignmentId)
    (a : StageAssignment) (reason : RecoveryReason) (maxAttempts : Nat) (detail : Option String) :
    KeepsBooks s (exhaustAssignment s now aid a reason maxAttempts detail) := by
  unfold exhaustAssignment failRunUnlessTerminal
  simp only [KeepsBooks, books_auditRecovery]
  split
  · exact .refl
  · split
    · exact .refl
    · exact failRun_entries (routeToDeadLetter (s.updateAssignment now aid
        (StageAssignment.exhaust now)) ..) ..

theorem requeueAssignment_entries {aid : AssignmentId} {a : StageAssignment}
    {reason : RecoveryReason} {detail : Option String}
    (h : requeueAssignment s now aid a reason detail = .ok t) : KeepsBooks s t := by
  unfold requeueAssignment at h
  simp only at h
  -- the reservations of the attempt go first
  have hreleased : ∃ u, KeepsBooks s u ∧ (if keyTaken u aid a.workspaceId a.nextKey then
      Except.error Err.integrityError
    else Except.ok (auditRecovery ((u.updateAssignment now aid StageAssignment.requeue).emit now
      .stageReassigned a.workspaceId a.pipelineRunId) aid a reason (some (a.attemptNumber + 1))
      .requeued detail)) = Except.ok t := by
    refine ⟨_, ?_, h⟩
    split
    · exact .refl
    · exact releaseEach_entries ..
  obtain ⟨u, hu, hrequeued⟩ := hreleased
  split at hrequeued
  · cases hrequeued
  · cases hrequeued
    exact hu

theorem recoverAssignment_entries {aid : AssignmentId} {reason : RecoveryReason}
    {detail : Option String} (h : recoverAssignment cfg s now aid reason detail = .ok t) :
    KeepsBooks s t := by
  unfold recoverAssignment at h
  split at h
  · cases h
  · rename_i a _
    split at h
    · cases h
      exact .refl
    · have hfreed : KeepsBooks s (freeSlot s a.workerId WorkerRegistration.releaseSlot) :=
        .same (books_freeSlot ..)
      simp only at h
      split at h
      · cases h
        exact hfreed.trans (exhaustAssignment_entries ..)
      · exact hfreed.trans (requeueAssignment_entries h)

theorem recoverEach_entries {reason : RecoveryReason} {detail : Option String}
    (ids : List AssignmentId) : ∀ {s t : Db},
    recoverEach cfg s now reason detail ids = .ok t → KeepsBooks s t := by
  induction ids with
  | nil =>
      intro s t h
      cases h
      exact .refl
  | cons aid rest ih =>
      intro s t h
      unfold recoverEach at h
      split at h
      · cases h
      · rename_i hfirst
        exact (recoverAssignment_entries hfirst).trans (ih h)

theorem reapWorkerBatches_entries {wid : WorkerId} {reason : RecoveryReason}
    {detail : Option String} {limit : Nat} {rows : List AssignmentId} (fuel : Nat) :
    ∀ {s t : Db}, reapWorkerBatches cfg now wid reason detail limit rows fuel s = .ok t →
      KeepsBooks s t := by
  induction fuel with
  | zero =>
      intro s t h
      cases h
      exact .refl
  | succ fuel ih =>
      intro s t h
      unfold reapWorkerBatches at h
      split at h
      · cases h
        exact .refl
      · split at h
        · cases h
        · rename_i hbatch
          have hrecovered := recoverEach_entries _ hbatch
          split at h
          · cases h
            exact hrecovered
          · exact hrecovered.trans (ih h)

/-! ## Every operation -/

@[simp] theorem books_updateJobs (f : JobSchedule → JobSchedule) (ids : List JobId) : ∀ s : Db,
    (updateJobs s f ids).books = s.books := by
  induction ids with
  | nil => intro s; rfl
  | cons jid rest ih => intro s; exact ih _

@[simp] theorem books_startRun (s : Db) (now : Instant) (ws : WorkspaceId) (item : ItemId)
    (definition : DefinitionId) : (startRun cfg s now ws item definition).db.books = s.books := by
  unfold startRun
  split
  · split <;> rfl
  · rfl

@[simp] theorem books_retryDeadLetters (now : Instant) (ws : WorkspaceId) (entries : List Nat) :
    ∀ s : Db, (retryDeadLetters s now ws entries).books = s.books := by
  induction entries with
  | nil => intro s; rfl
  | cons i rest ih =>
      intro s
      refine (ih _).trans ?_
      unfold retryDeadLetter
      split
      · rfl
      · split
        · rfl
        · split
          · rfl
          · split
            · rfl
            · split <;> rfl

@[simp] theorem books_retryAssignments (flushed : List JobSchedule) (now : Instant)
    (ws : WorkspaceId) (ids : List AssignmentId) : ∀ s : Db,
    (retryAssignments flushed s now ws ids).books = s.books := by
  induction ids with
  | nil => intro s; rfl
  | cons aid rest ih =>
      intro s
      refine (ih _).trans ?_
      unfold retryAssignment
      split
      · rfl
      · split
        · rfl
        · split
          · rfl
          · split <;> rfl

theorem call_entries (cfg : Config) (s : Db) (now : Instant) (action : Action)
    (h : (Op.call cfg s ⟨now, action⟩).raised = none) :
    KeepsBooks s (Op.call cfg s ⟨now, action⟩).db := by
  cases action with
  | startRun ws item definition => exact .same (books_startRun ..)
  | pollAndLease batchSize rows => exact .same (books_updateJobs ..)
  | reapExpiredJobLeases batchSize rows => exact .same (books_updateJobs ..)
  | processLeasedJob jid rows jitter => exact ofExcept_entries fun _ => processLeasedJob_entries
  | dispatchStage args rows =>
      refine ofExcept_entries fun t h => ?_
      obtain ⟨⟨_, _⟩, hdispatch, rfl⟩ := map_ok h
      exact dispatchStage_entries hdispatch
  | claimAssignment wid token ws rows =>
      refine ofExcept_entries fun t h => ?_
      obtain ⟨_, hclaim, rfl⟩ := map_ok h
      exact claimAssignment_entries hclaim
  | acknowledge aid secs worker => exact ofExcept_entries fun _ => acknowledge_entries
  | renewLease aid secs worker => exact ofExcept_entries fun _ => renewLease_entries
  | submitResult aid success result errorMessage worker jitter => exact submitResult_entries h
  | recoverAssignment aid reason detail =>
      exact ofExcept_entries fun _ => recoverAssignment_entries
  | reapExpiredLeases batchSize rows => exact ofExcept_entries fun _ => recoverEach_entries _
  | reapWorkerAssignments wid reason batchSize detail rows =>
      exact ofExcept_entries fun _ => reapWorkerBatches_entries _
  | pauseForReview rid stage timeoutSeconds => exact .same (books_pauseForReview ..)
  | submitReviewDecision gid reviewer approved notes =>
      refine ofExcept_entries fun t h => ?_
      obtain ⟨⟨_, _⟩, hsubmit, rfl⟩ := map_ok h
      exact submitReviewDecision_entries hsubmit
  | dispatchOne eid => exact dispatchOne_entries ..
  | submitAndDeliver gid reviewer approved notes => exact submitAndDeliver_entries ..
  | decideReviewGate ws gid reviewer approved expected notes => exact decideReviewGate_entries ..
  | editReviewGateContent ws gid expected hook body cta =>
      exact ofExcept_entries fun _ => editReviewGateContent_entries
  | handleReviewTimeout gid => exact handleReviewTimeout_entries ..
  | handleStageTimeout rid stage jitter =>
      exact ofExcept_entries fun _ => handleStageTimeout_entries
  | reserveSpend rid stage provider estimate =>
      show KeepsBooks s (reserveSpendFor s now rid stage provider estimate)
      unfold reserveSpendFor
      split
      · exact .refl
      · exact reserveSpend_entries ..
  | cancelRun rid => exact cancelRun_entries ..
  | retryFailedJobs ws rows =>
      exact .same ((books_retryAssignments ..).trans (books_retryDeadLetters ..))

/-- **Every operation is a sequence of entries.** -/
theorem exec_entries (cfg : Config) (s : Db) (o : Op) : KeepsBooks s (exec cfg s o) := by
  unfold exec Call.commit
  split
  · exact .refl
  · rename_i hraised
    exact call_entries cfg s o.now o.action hraised

end HumanGate
