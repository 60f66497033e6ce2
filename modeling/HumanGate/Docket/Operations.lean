import HumanGate.Docket.Rows
import HumanGate.Run.Progress

set_option autoImplicit false

/-! # Every operation is a turn

An operation is one turn of one run, or, if it works through a batch, a sequence of quiet turns of
several runs (`exec_turns`).

The operations are issued as the system does (`Op.Routine`): a job is processed when it is
leased, an acknowledgement comes from a worker, and `dispatch_stage`, `pause_for_review` and
`reserve_spend` are only called by the functions that are modelled here. Stage timeouts and
manual retries are left out; both put a second work item on a docket.
-/

namespace HumanGate

open Lib Lib.Calendar Relation

variable {cfg : Config} {s t : Db} {now : Instant}

/-! ## The operations -/

/-- What the system issues by itself, apart from stage timeouts and manual retries. -/
def Action.isRoutine : Action → Bool
  | .acknowledge _ _ worker => worker.isSome
  | .dispatchStage .. | .pauseForReview .. | .reserveSpend .. => false
  | .handleStageTimeout .. | .retryFailedJobs .. => false
  | _ => true

/-- The job is leased, and no stage timeout. -/
def JobSchedule.Ready (j : JobSchedule) : Prop := j.status = .leased ∧ j.jobType ≠ .stageTimeout

instance (j : JobSchedule) : Decidable j.Ready :=
  inferInstanceAs (Decidable (j.status = .leased ∧ j.jobType ≠ .stageTimeout))

def Op.Routine (s : Db) (o : Op) : Prop :=
  o.action.isRoutine = true ∧ ∀ jid ∈ o.processes, ∀ j ∈ s.jobs[jid]?, j.Ready

instance (s : Db) (o : Op) : Decidable (o.Routine s) :=
  inferInstanceAs (Decidable (o.action.isRoutine = true ∧
    ∀ jid ∈ o.processes, ∀ j ∈ s.jobs[jid]?, j.Ready))

/-- The orchestration with routine operations only. -/
def routine (cfg : Config) : System Db Op := orchestration cfg fun s o => o.Routine s

instance (cfg : Config) (s : Db) (o : Op) : Decidable ((routine cfg).allowed s o) :=
  inferInstanceAs (Decidable (o.Routine s))

/-! ## Jobs of other types -/

theorem processLeasedJob_turned (hs : ∀ r, (s.docket r).Sound) {jid : JobId}
    {rows : List WorkerId} {jitter : Nat} {job : JobSchedule} (hjob : s.jobs[jid]? = some job)
    (hleased : job.status = .leased) (htype : job.jobType ≠ .stageTimeout)
    (h : processLeasedJob cfg s now jid rows jitter = .ok t) : Turned cfg now s t := by
  have hlive : job.isLive = true := by
    unfold JobSchedule.isLive
    rw [hleased]
    rfl
  have hother : ∀ {u : Db}, u.jobs[jid]? = some job → job.isWork = false →
      (u.updateJob jid JobSchedule.finish).docket = u.docket := by
    intro u hu hwork
    refine docket_updateJob_other fun j hj r => ?_
    rw [hu] at hj
    cases hj
    have hfinish : job.finish.isWork = false := hwork
    simp [JobSchedule.waitsFor, hwork, hfinish]
  unfold processLeasedJob at h
  rw [hjob] at h
  simp only at h
  split at h
  · rename_i hstage href
    obtain ⟨⟨s1, outcome⟩, hwork, rfl⟩ := map_ok h
    refine processWorkJob_turned hs hjob ?_ hwork
    simp [JobSchedule.waitsFor, JobSchedule.isWork, hstage, hlive, href]
  · rename_i hretry href
    obtain ⟨⟨s1, outcome⟩, hwork, rfl⟩ := map_ok h
    refine processWorkJob_turned hs hjob ?_ hwork
    simp [JobSchedule.waitsFor, JobSchedule.isWork, hretry, hlive, href]
  · rename_i htimeout _
    exact absurd htimeout htype
  · rename_i gid hreview _
    cases h
    unfold Turned
    rw [hother (handleReviewTimeout_jobs s now gid hjob) (by simp [JobSchedule.isWork, hreview])]
    exact handleReviewTimeout_turned hs gid
  · rename_i hcomp
    cases h
    exact .same (hother hjob (by simp [JobSchedule.isWork, hcomp]))
  · cases h

/-! ## Every operation -/

/-- What a transaction does to the dockets, from what its call does if it does not raise. -/
theorem commit_turns {P : Db → Prop} {c : Call} (hs : P s) (hc : c.raised = none → P c.db.flush) :
    P (c.commit s) := by
  unfold Call.commit
  cases h : c.raised with
  | some e => exact hs
  | none => exact hc h

/-- The dockets take one turn, or quiet ones. -/
def Proceeds (cfg : Config) (now : Instant) (s t : Db) : Prop :=
  Quieted cfg now s t ∨ Lib.Family.Step (Docket.Turn cfg now) s.docket t.docket

theorem Turned.proceeds (h : Turned cfg now s t) : Proceeds cfg now s t := by
  rcases (reflGen_iff _ _ _).mp h with hsame | hturn
  · exact .inl (.same hsame)
  · exact .inr hturn

theorem ofExcept_proceeds {e : Except Err Db} (h : ∀ t, e = .ok t → Proceeds cfg now s t) :
    Proceeds cfg now s ((Call.ofExcept s e).commit s) := by
  cases e with
  | error _ => exact .inl .refl
  | ok t => exact h t rfl

/-- **Every operation** is a turn of one run, or a sequence of quiet turns. -/
theorem exec_turns (cfg : Config) {s : Db} {o : Op} (hs : ∀ r, (s.docket r).Sound)
    (ho : o.Routine s) :
    Proceeds cfg o.now s (exec cfg s o) := by
  obtain ⟨now, action⟩ := o
  cases action with
  | startRun ws item definition =>
      exact commit_turns (P := Proceeds cfg now s) (.inl .refl) fun _ =>
        (startRun_turned hs ws item definition).proceeds
  | pollAndLease batchSize rows => exact .inl (pollAndLease_quieted hs batchSize rows)
  | reapExpiredJobLeases batchSize rows =>
      exact .inl (reapExpiredJobLeases_quieted hs batchSize rows)
  | processLeasedJob jid rows jitter =>
      refine ofExcept_proceeds fun t h => ?_
      cases hjob : s.jobs[jid]? with
      | none =>
          unfold processLeasedJob at h
          rw [hjob] at h
          cases h
      | some job =>
          obtain ⟨hleased, htype⟩ := ho.2 jid rfl job hjob
          exact (processLeasedJob_turned hs hjob hleased htype h).proceeds
  | claimAssignment wid token ws rows =>
      refine ofExcept_proceeds fun t h => ?_
      obtain ⟨r, hclaim, rfl⟩ := map_ok h
      exact (claimAssignment_turned hs hclaim).proceeds
  | acknowledge aid secs worker =>
      refine ofExcept_proceeds fun t h => ?_
      obtain ⟨wid, rfl⟩ := Option.isSome_iff_exists.mp ho.1
      exact (acknowledge_turned hs h).proceeds
  | renewLease aid secs worker =>
      exact ofExcept_proceeds fun t h => (renewLease_turned hs h).proceeds
  | submitResult aid success result errorMessage worker jitter =>
      exact commit_turns (P := Proceeds cfg now s) (.inl .refl) fun h =>
        (submitResult_turned hs h).proceeds
  | recoverAssignment aid reason detail =>
      exact ofExcept_proceeds fun t h => .inl (recoverAssignment_quieted hs h)
  | reapExpiredLeases batchSize rows =>
      exact ofExcept_proceeds fun t h => .inl (recoverEach_quieted _ hs h)
  | reapWorkerAssignments wid reason batchSize detail rows =>
      exact ofExcept_proceeds fun t h => .inl (reapWorkerBatches_quieted _ hs h)
  | submitReviewDecision gid reviewer approved notes =>
      refine ofExcept_proceeds fun t h => ?_
      obtain ⟨⟨t', eid⟩, hsubmit, rfl⟩ := map_ok h
      obtain ⟨g, run, reserved, hd, _, hrevised⟩ := submitReviewDecision_docket hs hsubmit
      refine (Turned.of_eq hrevised ?_).proceeds
      rw [hd]
      exact .revise rfl rfl rfl
  | dispatchOne eid =>
      exact commit_turns (P := Proceeds cfg now s) (.inl .refl) fun _ =>
        (dispatchOne_turned hs eid).proceeds
  | submitAndDeliver gid reviewer approved notes =>
      exact commit_turns (P := Proceeds cfg now s) (.inl .refl) fun _ =>
        (submitAndDeliver_turned hs gid reviewer approved notes).proceeds
  | decideReviewGate ws gid reviewer approved expected notes =>
      exact commit_turns (P := Proceeds cfg now s) (.inl .refl) fun _ =>
        (decideReviewGate_turned hs ws gid reviewer approved expected notes).proceeds
  | editReviewGateContent ws gid expected hook body cta =>
      exact ofExcept_proceeds fun t h => (editReviewGateContent_turned hs h).proceeds
  | handleReviewTimeout gid =>
      have hturned : Turned cfg now s (handleReviewTimeout s now gid) :=
        handleReviewTimeout_turned hs gid
      exact hturned.proceeds
  | cancelRun rid => exact (cancelRun_turned s now rid).proceeds
  | dispatchStage | pauseForReview | reserveSpend | handleStageTimeout | retryFailedJobs =>
      exact absurd ho.1 Bool.false_ne_true

/-- What every turn of a run keeps, every operation keeps for all runs. -/
theorem Proceeds.invariant {I : RunId → Docket → Prop} (h : Proceeds cfg now s t)
    (hstep : ∀ r d d', Docket.Turn cfg now r d d' → I r d → I r d')
    (hs : ∀ r, I r (s.docket r)) : ∀ r, I r (t.docket r) := by
  intro r
  rcases h with hquiet | hturn
  · exact hquiet.invariant (I := I) (fun r d d' hq => hstep r d d' hq.turn) hs r
  · rcases hturn.member r with hsame | hmove
    · rw [hsame]
      exact hs r
    · exact hstep r _ _ hmove (hs r)

theorem Proceeds.sound (h : Proceeds cfg now s t) (hs : ∀ r, (s.docket r).Sound) :
    ∀ r, (t.docket r).Sound :=
  h.invariant (I := fun _ d => d.Sound) (fun _ _ _ hturn hd => hturn.sound hd) hs

/-- The dockets before anything has been orchestrated. -/
theorem Fresh.docket (h : Fresh s) (r : RunId) : s.docket r = .idle none fun _ => 0 := by
  unfold Db.docket
  rw [h.runs, h.jobs, h.assignments, h.gates, h.reservations]
  rfl

/-- **Every run of the system** keeps what holds of an empty docket and is kept by every turn. -/
theorem routine_invariant {I : RunId → Docket → Prop} (hinit : ∀ r, I r (.idle none fun _ => 0))
    (hstep : ∀ now r d d', Docket.Turn cfg now r d d' → d.Sound → I r d → I r d')
    (h : (routine cfg).Reachable s) : ∀ r, (s.docket r).Sound ∧ I r (s.docket r) := by
  refine h.invariant (I := fun s => ∀ r, (s.docket r).Sound ∧ I r (s.docket r)) ?_ ?_
  · intro s hfresh r
    rw [Fresh.docket hfresh r]
    exact ⟨.idle .., hinit r⟩
  · intro s o hs ho
    refine (exec_turns cfg (fun r => (hs r).1) ho).invariant (I := fun r d => d.Sound ∧ I r d) ?_ hs
    intro r d d' hturn hd
    exact ⟨hturn.sound hd.1, hstep o.now r d d' hturn hd.1 hd.2⟩

end HumanGate
