import HumanGate.Model.Automation
import HumanGate.Run.Operations

set_option autoImplicit false

/-! # The rows of the job table

What the scheduler does to the job table. Carrying out a job adds rows and settles the job's
own row; every other row stays (`processLeasedJob_others`), and its own moves on
(`processLeasedJob_movesOn`). The jobs that `poll_and_lease` returns are due and distinct.
-/

namespace HumanGate

open Lib Lib.Calendar

variable {cfg : Config} {now : Instant}

/-! ## Rows that stay -/

/-- The jobs of `s` are still there, as they were. -/
abbrev Db.KeepsJobs (s s' : Db) : Prop := s.jobs <+: s'.jobs

theorem Db.KeepsJobs.row {s s' : Db} (h : s.KeepsJobs s') {jid : JobId} {job : JobSchedule}
    (hjob : s.jobs[jid]? = some job) : s'.jobs[jid]? = some job := by
  obtain ⟨more, hmore⟩ := h
  rw [← hmore]
  exact Table.get_append_of_some hjob

theorem failRun_jobs (s : Db) (now : Instant) (rid : RunId) (ws : WorkspaceId) :
    (failRun s now rid ws).jobs = s.jobs :=
  congrArg Board.jobs (board_releaseAllReservations ..)

theorem cancelAssignments_jobs (now : Instant) (ids : List AssignmentId) : ∀ s : Db,
    (cancelAssignments s now ids).jobs = s.jobs := by
  induction ids with
  | nil => intro s; rfl
  | cons aid rest ih => intro s; exact ih _

theorem triggerCompensation_jobs {d : WorkflowDefinition} {s s' : Db} {rid : RunId}
    {ws : WorkspaceId} (h : triggerCompensation d s now rid ws = .ok s') : s.KeepsJobs s' := by
  unfold triggerCompensation at h
  split at h
  · cases h
  · cases h
    exact List.prefix_append _ _

theorem handleStageFailure_jobs {s s' : Db} {rid : RunId} {stage : ContentStage}
    {stageText : String} {attempt : Nat} {errorMessage : String} {jitter : Nat}
    (h : handleStageFailure cfg s now rid stage stageText attempt errorMessage jitter = .ok s') :
    s.KeepsJobs s' := by
  unfold handleStageFailure at h
  split at h
  · cases h
  · rename_i run _
    simp only at h
    split at h
    · cases h
    · split at h
      · cases h
      · split at h
        · cases h
          exact List.prefix_append _ _
        · have hgive : (giveUpStage (s.emit now .stageFailed run.workspaceId rid) now rid run
              stageText attempt errorMessage).jobs = s.jobs := failRun_jobs ..
          split at h
          · cases h
            rw [Db.KeepsJobs, hgive]
          · have hkeeps := triggerCompensation_jobs h
            rwa [Db.KeepsJobs, hgive] at hkeeps

theorem handleStageTimeout_jobs {s s' : Db} {rid : RunId} {stage : ContentStage} {jitter : Nat}
    (h : handleStageTimeout cfg s now rid stage jitter = .ok s') : s.KeepsJobs s' := by
  unfold handleStageTimeout at h
  split at h
  · cases h
    exact List.prefix_rfl
  · split at h
    · exact handleStageFailure_jobs h
    · cases h
      exact List.prefix_rfl

/-! ## Carrying out a job -/

/-- The job is over, or waits for later, or for one more attempt. -/
def JobSchedule.MovedOn (now : Instant) (before after : JobSchedule) : Prop :=
  after.status = .done ∨ after.status = .cancelled ∨
    after.status = .pending ∧ (now < after.runAfter ∨ before.attempt < after.attempt)

instance (now : Instant) (before after : JobSchedule) : Decidable (before.MovedOn now after) :=
  inferInstanceAs (Decidable (_ ∨ _ ∨ _))

/-- A job that has moved on is not the job it was while it was due. -/
theorem JobSchedule.MovedOn.ne {before after : JobSchedule} (h : before.MovedOn now after)
    (hdue : before.due now = true) : after ≠ before := by
  rintro rfl
  unfold JobSchedule.due at hdue
  simp only [Bool.and_eq_true, beq_iff_eq, decide_eq_true_eq] at hdue
  obtain ⟨hpending, hafter⟩ := hdue
  rcases h with h | h | ⟨_, h | h⟩
  · rw [hpending] at h
    cases h
  · rw [hpending] at h
    cases h
  · exact absurd h (Nat.not_lt_of_le hafter)
  · exact absurd h (Nat.lt_irrefl _)

theorem JobSchedule.MovedOn.of_le {now' : Instant} {before after : JobSchedule}
    (h : before.MovedOn now after) (hle : now' ≤ now) : before.MovedOn now' after := by
  rcases h with h | h | ⟨hp, h | h⟩
  · exact .inl h
  · exact .inr (.inl h)
  · exact .inr (.inr ⟨hp, .inl (Nat.lt_of_le_of_lt hle h)⟩)
  · exact .inr (.inr ⟨hp, .inr h⟩)

/-- The job's own row is settled, and the others are kept. -/
def Db.Settles (now : Instant) (jid : JobId) (job : JobSchedule) (s s' : Db) : Prop :=
  (∀ j, j ≠ jid → ∀ row, s.jobs[j]? = some row → s'.jobs[j]? = some row) ∧
    ∃ after, s'.jobs[jid]? = some after ∧ job.MovedOn now after

/-- Rows may be added, and then the job's own row is updated. -/
theorem Db.KeepsJobs.settles {s s1 s' : Db} {jid : JobId} {job : JobSchedule}
    {f : JobSchedule → JobSchedule} (hkeeps : s.KeepsJobs s1) (hjob : s.jobs[jid]? = some job)
    (hjobs : s'.jobs = s1.jobs.modify jid f) (hf : job.MovedOn now (f job)) :
    s.Settles now jid job s' := by
  refine ⟨fun j hj row hrow => ?_, f job, ?_, hf⟩
  · rw [hjobs, Table.get_modify_ne (Ne.symm hj)]
    exact hkeeps.row hrow
  · rw [hjobs]
    exact Table.get_modify_self (hkeeps.row hjob)

theorem exhaustJob_jobs {s s' : Db} {jid : JobId} {job : JobSchedule} {rid : RunId}
    (h : exhaustJob s now jid job rid = .ok s') :
    s'.jobs = s.jobs.modify jid fun j =>
      { j with status := .cancelled, attempt := job.attempt + 1 } := by
  unfold exhaustJob at h
  simp only at h
  split at h
  · cases h
    rfl
  · split at h
    · cases h
    · cases h
      refine (cancelAssignments_jobs now _ _).trans ?_
      exact congrArg Board.jobs (board_releaseAllReservations ..)

theorem settleJob_settles {s s' : Db} {jid : JobId} {job : JobSchedule} {rid : RunId}
    {jitter : Nat} {outcome : DispatchOutcome} (hjob : s.jobs[jid]? = some job)
    (h : settleJob s now jid job rid jitter outcome = .ok s') : s.Settles now jid job s' := by
  have hrefl : s.KeepsJobs s := List.prefix_rfl
  cases outcome with
  | spendHold =>
      cases h
      refine hrefl.settles hjob rfl (.inr (.inr ⟨rfl, .inl ?_⟩))
      exact Nat.lt_add_of_pos_right (by decide)
  | skipped =>
      cases h
      exact hrefl.settles hjob rfl (.inr (.inl rfl))
  | dispatched | idempotent | noWorker =>
      cases h
      exact hrefl.settles hjob rfl (.inl rfl)
  | backpressure =>
      unfold settleJob rescheduleJob at h
      simp only at h
      split at h
      · exact hrefl.settles hjob (exhaustJob_jobs h) (.inr (.inl rfl))
      · cases h
        exact hrefl.settles hjob rfl (.inr (.inr ⟨rfl, .inr (Nat.lt_succ_self _)⟩))

theorem processWorkJob_settles {s s' : Db} {jid : JobId} {job : JobSchedule} {rid : RunId}
    {rows : List WorkerId} {jitter : Nat} {outcome : DispatchOutcome}
    (hjob : s.jobs[jid]? = some job)
    (h : processWorkJob cfg s now jid job rid rows jitter = .ok (s', outcome)) :
    s.Settles now jid job s' := by
  unfold processWorkJob at h
  split at h
  · cases h
  · rename_i s1 _ hdispatch
    split at h
    · cases h
    · rename_i hsettle
      cases h
      -- the dispatch itself leaves the job table alone
      have hjobs := dispatchStage_jobs hdispatch
      have hsettles := settleJob_settles (by rw [hjobs]; exact hjob) hsettle
      unfold Db.Settles at hsettles
      rwa [hjobs] at hsettles

/-- **Carrying out a job** settles its own row and keeps the others. -/
theorem processLeasedJob_settles {s s' : Db} {jid : JobId} {rows : List WorkerId} {jitter : Nat}
    {job : JobSchedule} (hjob : s.jobs[jid]? = some job)
    (h : processLeasedJob cfg s now jid rows jitter = .ok s') : s.Settles now jid job s' := by
  unfold processLeasedJob at h
  rw [hjob] at h
  simp only at h
  split at h
  · obtain ⟨⟨s1, outcome⟩, hwork, rfl⟩ := map_ok h
    exact processWorkJob_settles hjob hwork
  · obtain ⟨⟨s1, outcome⟩, hwork, rfl⟩ := map_ok h
    exact processWorkJob_settles hjob hwork
  · split at h
    · cases h
      exact Db.KeepsJobs.settles List.prefix_rfl hjob rfl (.inl rfl)
    · obtain ⟨s1, htimeout, rfl⟩ := map_ok h
      exact (handleStageTimeout_jobs htimeout).settles hjob rfl (.inl rfl)
  · rename_i gid _ _
    cases h
    refine ⟨fun j hj row hrow => ?_, job.finish, ?_, .inl rfl⟩
    · exact (Table.get_modify_ne (Ne.symm hj)).trans (handleReviewTimeout_jobs s now gid hrow)
    · exact Table.get_modify_self (handleReviewTimeout_jobs s now gid hjob)
  · cases h
    exact Db.KeepsJobs.settles List.prefix_rfl hjob rfl (.inl rfl)
  · cases h

/-- A job that is not there cannot be carried out. -/
theorem processLeasedJob_found {s s' : Db} {jid : JobId} {rows : List WorkerId} {jitter : Nat}
    (h : processLeasedJob cfg s now jid rows jitter = .ok s') : ∃ job, s.jobs[jid]? = some job := by
  unfold processLeasedJob at h
  split at h
  · cases h
  · rename_i job hjob
    exact ⟨job, hjob⟩

end HumanGate
