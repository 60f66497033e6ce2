import HumanGate.Model.Desk
import HumanGate.Run.Operations

set_option autoImplicit false

/-! # The way out of a review

`handle_review_timeout` escalates a gate the first time and is meant to time it out the second
time. But the escalation takes the gate out of the status `AWAITING`, and that is the status
which the second timeout, like the decision of a reviewer, asks for: a gate that is awaiting
has never been escalated (`Board.Sane`). So no gate ever times out, and the run of an
escalated gate waits forever.
-/

namespace HumanGate

open Lib Lib.Calendar

/-- A `REVIEW_TIMEOUT` job of the gate that is still to be processed. -/
def Db.ReviewTimer (s : Db) (gid : GateId) (jid : JobId) : Prop :=
  ∃ j, s.jobs[jid]? = some j ∧ j.jobType = .reviewTimeout ∧ j.refId = .gate gid ∧
    j.isLive = true

/-- The gate is the way out for its run: a reviewer's decision is accepted, a timeout is
scheduled, and two timeouts in a row end the review and fail the run. -/
structure WayOut (cfg : Config) (s : Db) (rid : RunId) (gid : GateId) : Prop where
  gate : ∃ g, s.gates[gid]? = some g ∧ g.pipelineRunId = rid
  accepts : ∀ now reviewer approved notes,
    ∃ r, submitReviewDecision s now gid reviewer approved notes = .ok r
  timer : ∃ jid, s.ReviewTimer gid jid
  twice : ∀ o o' jid jid' rows rows' jitter jitter', o.action = .processLeasedJob jid rows jitter →
    o'.action = .processLeasedJob jid' rows' jitter' → s.ReviewTimer gid jid →
    (exec cfg s o).ReviewTimer gid jid' →
    ((exec cfg (exec cfg s o) o').gates[gid]?).map ReviewGate.status = some .timedOut ∧
      (exec cfg (exec cfg s o) o').statusOf rid = some .failed

variable {cfg : Config}

/-- A gate that accepts a decision is awaiting. -/
theorem submitReviewDecision_awaiting {s : Db} {now : Instant} {gid : GateId} {reviewer : UserId}
    {approved : Bool} {notes : Option String} {r : Db × EventId}
    (h : submitReviewDecision s now gid reviewer approved notes = .ok r) :
    ∃ g, s.gates[gid]? = some g ∧ g.status = .awaiting := by
  unfold submitReviewDecision at h
  split at h
  · cases h
  · rename_i g hg
    split at h
    · cases h
    · rename_i hs
      exact ⟨g, hg, by simpa using hs⟩

/-- Processing a review timeout is `handle_review_timeout`, and the job is done. -/
theorem exec_reviewTimer {s : Db} {gid : GateId} {jid : JobId} (h : s.ReviewTimer gid jid)
    (now : Instant) (rows : List WorkerId) (jitter : Nat) :
    exec cfg s ⟨now, .processLeasedJob jid rows jitter⟩
      = ((handleReviewTimeout s now gid).updateJob jid JobSchedule.finish).flush := by
  obtain ⟨j, hj, htype, href, _⟩ := h
  have hcall : processLeasedJob cfg s now jid rows jitter
      = .ok ((handleReviewTimeout s now gid).updateJob jid JobSchedule.finish) := by
    unfold processLeasedJob
    simp only [hj, htype, href]
  show (Call.ofExcept s (processLeasedJob cfg s now jid rows jitter)).commit s = _
  rw [hcall]
  rfl

/-- The first timeout: the gate is escalated, and another timeout is scheduled. -/
theorem handleReviewTimeout_escalates {s : Db} {gid : GateId} {g : ReviewGate} (now : Instant)
    (hg : s.gates[gid]? = some g) (hs : g.status = .awaiting) (hl : g.escalationLevel = 0) :
    (∃ g', (handleReviewTimeout s now gid).gates[gid]? = some g' ∧ g'.status = .escalated) ∧
      ∃ job, (handleReviewTimeout s now gid).jobs = s.jobs ++ [job] ∧
        job.jobType = .reviewTimeout ∧ job.refId = .gate gid ∧ job.isLive = true := by
  unfold handleReviewTimeout
  simp only [hg, hs, hl, ne_eq, not_true_eq_false, if_false, if_true]
  exact ⟨⟨_, Table.get_modify_self hg, rfl⟩, _, rfl, rfl, rfl, rfl⟩

/-- The second timeout: nothing happens. -/
theorem handleReviewTimeout_ignores {s : Db} {gid : GateId} {g : ReviewGate} (now : Instant)
    (hg : s.gates[gid]? = some g) (hs : g.status ≠ .awaiting) :
    handleReviewTimeout s now gid = s := by
  unfold handleReviewTimeout
  simp only [hg, if_pos hs]

/-- No gate of a sane board is a way out: after two timeouts it is escalated. -/
theorem Board.Sane.not_wayOut {s : Db} (hs : s.board.Sane) (rid : RunId) (gid : GateId) :
    ¬ WayOut cfg s rid gid := by
  intro h
  obtain ⟨r, hr⟩ := h.accepts 0 0 true none
  obtain ⟨g, hg, hawait⟩ := submitReviewDecision_awaiting hr
  obtain ⟨jid, htimer⟩ := h.timer
  obtain ⟨⟨g₁, hg₁, hst₁⟩, job, hjobs, htype, href, hlive⟩ := handleReviewTimeout_escalates 0 hg
    hawait (hs.level g (Table.mem_of_get hg) hawait)
  have hexec : exec cfg s ⟨0, .processLeasedJob jid [] 0⟩ = _ := exec_reviewTimer htimer 0 [] 0
  -- the job that the escalation has scheduled
  have htimer' : (exec cfg s ⟨0, .processLeasedJob jid [] 0⟩).ReviewTimer gid s.jobs.length := by
    have hne : jid ≠ s.jobs.length := by
      obtain ⟨j, hj, _⟩ := htimer
      exact Nat.ne_of_lt (List.getElem?_eq_some_iff.mp hj).1
    refine ⟨job, ?_, htype, href, hlive⟩
    rw [hexec]
    show ((handleReviewTimeout s 0 gid).jobs.modify jid JobSchedule.finish)[s.jobs.length]? = _
    rw [Table.get_modify_ne hne, hjobs, Table.get_push_new]
  have hg₁' : (exec cfg s ⟨0, .processLeasedJob jid [] 0⟩).gates[gid]? = some g₁ := by
    rw [hexec]
    exact hg₁
  obtain ⟨htimedOut, _⟩ := h.twice _ ⟨0, .processLeasedJob s.jobs.length [] 0⟩ _ _ _ _ _ _ rfl rfl
    htimer htimer'
  rw [exec_reviewTimer htimer' 0 [] 0] at htimedOut
  rw [handleReviewTimeout_ignores 0 hg₁' (by rw [hst₁]; intro h; cases h)] at htimedOut
  rw [show ((exec cfg s ⟨0, .processLeasedJob jid [] 0⟩).updateJob s.jobs.length
    JobSchedule.finish).flush.gates[gid]? = some g₁ from hg₁'] at htimedOut
  rw [Option.map_some, hst₁] at htimedOut
  cases htimedOut

theorem orchestration_sane {allowed : Db → Op → Prop} {s : Db}
    (h : (orchestration cfg allowed).Reachable s) : s.board.Sane :=
  h.invariant (I := fun s => s.board.Sane) (fun _ hinit => Fresh.sane hinit)
    fun _ o hs _ => exec_sane cfg o hs

/-- **A run waiting for review never has the way out** that two timeouts would be. -/
theorem review_without_way_out (cfg : Config) {s : Db}
    (h : (orchestration cfg fun _ _ => True).Reachable s) (rid : RunId) :
    ¬ ∃ gid, WayOut cfg s rid gid := by
  rintro ⟨gid, hout⟩
  exact (orchestration_sane h).not_wayOut rid gid hout

/-! ## The desk's workflow -/

theorem draft_without_way_out :
    (runOps deskConfig deskDb draftedOps).WaitsForReview 0 ∧
      ¬ ∃ gid, WayOut deskConfig (runOps deskConfig deskDb draftedOps) 0 gid :=
  ⟨by decide +kernel,
    review_without_way_out deskConfig (runOps_reachable deskConfig deskDb_fresh _) 0⟩

/-- The draft waits, and no gate is a way out. -/
theorem paused_run_stuck : ∃ s rid, (orchestration deskConfig fun _ _ => True).Reachable s ∧
    s.WaitsForReview rid ∧ ¬ ∃ gid, WayOut deskConfig s rid gid := by
  have hreach := runOps_reachable deskConfig deskDb_fresh draftedOps
  refine ⟨_, 0, hreach, by decide +kernel, ?_⟩
  rintro ⟨gid, hout⟩
  exact (orchestration_sane hreach).not_wayOut 0 gid hout

end HumanGate
