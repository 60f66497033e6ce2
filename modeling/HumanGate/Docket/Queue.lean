import HumanGate.Docket.Controller
import HumanGate.Fleet.Moves
import HumanGate.Jobs.Tick

set_option autoImplicit false

/-! # The scheduler on the dockets

What becomes of the job that a run waits for: it is leased, its lease ends, it is put off, given
up or dropped, or it gives way to an assignment. A batch of leases is a sequence of quiet turns of
several runs.
-/

namespace HumanGate

open Lib Lib.Calendar Relation

variable {cfg : Config} {s t : Db} {now : Instant} {rid : RunId}

/-- The dockets take quiet turns. -/
abbrev Quieted (cfg : Config) (now : Instant) (s t : Db) : Prop :=
  Lib.Family.Steps (Docket.Quiet cfg now) s.docket t.docket

theorem Quieted.same (h : t.docket = s.docket) : Quieted cfg now s t := .of_eq h

theorem Quieted.of_eq {d : Docket} (heq : t.docket = Function.update s.docket rid d)
    (h : Docket.Quiet cfg now rid (s.docket rid) d) : Quieted cfg now s t :=
  .single (.of_eq h heq)

theorem Quieted.sound (h : Quieted cfg now s t) (hs : ∀ r, (s.docket r).Sound) :
    ∀ r, (t.docket r).Sound :=
  h.invariant (I := fun _ d => d.Sound) (fun _ _ _ hquiet hd => hquiet.turn.sound hd) hs

/-! ## Jobs -/

/-- The docket of a run that a job waits for. -/
theorem docket_of_waiting (hs : ∀ r, (s.docket r).Sound) {jid : JobId} {j : JobSchedule}
    (hj : s.jobs[jid]? = some j) (hw : j.waitsFor rid = true) :
    ∃ run, s.runs[rid]? = some run ∧
      s.docket rid = .queued (some run) j (s.docket rid).reserved := by
  have hd := docket_of_job (hs rid).single hj hw
  have hsound := hs rid
  rw [hd] at hsound
  obtain ⟨run, hrun⟩ := hsound.run_queued
  rw [hrun] at hd
  exact ⟨run, hrun, hd⟩

/-- A lease, the end of a lease, or a postponement: the job stays what it is. -/
structure JobSchedule.Waits (j' j : JobSchedule) : Prop where
  same : j'.Same j
  jobType : j'.jobType = j.jobType
  live : j'.isLive = true
  attempt : j'.attempt = j.attempt ∨ j'.attempt = j.attempt + 1

theorem JobSchedule.Waits.waitsFor {j' j : JobSchedule} (h : j'.Waits j) (hj : j.isLive = true)
    (r : RunId) : j'.waitsFor r = j.waitsFor r := by
  unfold JobSchedule.waitsFor JobSchedule.isWork
  rw [h.jobType, h.same.refId, h.live, hj]

/-- The job of a run is put off. -/
theorem docket_waitJob {run : Option PipelineRun} {reserved : ContentStage → Nat} {jid : JobId}
    {j : JobSchedule} {f : JobSchedule → JobSchedule} (hd : s.docket rid = .queued run j reserved)
    (hj : s.jobs[jid]? = some j) (hw : j.waitsFor rid = true) (hf : (f j).Waits j) :
    (s.updateJob jid f).docket = Function.update s.docket rid (.queued run (f j) reserved) := by
  have hlive : j.isLive = true := by
    unfold JobSchedule.waitsFor at hw
    simp only [Bool.and_eq_true] at hw
    exact hw.1.2
  have hw' : (f j).waitsFor rid = true := (hf.waitsFor hlive rid).trans hw
  have hlen : (s.docket rid).jobs.length ≤ 1 := by
    rw [hd]
    exact Nat.le_refl 1
  rw [docket_updateJob hlen hj hw hf.same.refId, List.filter_cons_of_pos hw', List.filter_nil, hd]
  rfl

theorem updateJob_quieted (hs : ∀ r, (s.docket r).Sound) {jid : JobId}
    {f : JobSchedule → JobSchedule} (hlive : ∀ j, s.jobs[jid]? = some j → j.isLive = true)
    (hf : ∀ j, (f j).Waits j) : Quieted cfg now s (s.updateJob jid f) := by
  by_cases hwork : ∃ j r, s.jobs[jid]? = some j ∧ j.waitsFor r = true
  · obtain ⟨j, r, hj, hw⟩ := hwork
    obtain ⟨run, hrun, hd⟩ := docket_of_waiting hs hj hw
    refine .of_eq (docket_waitJob hd hj hw (hf j)) ?_
    rw [hd]
    refine ⟨?_, rfl, fun h => h⟩
    rcases (hf j).attempt with hsame | hnext
    · exact .wait (hf j).same hsame
    · exact .defer (hf j).same hnext
  · refine .same (docket_updateJob_other fun j hj r => ?_)
    have hnot : j.waitsFor r = false := by
      rw [← Bool.not_eq_true]
      exact fun hw => hwork ⟨j, r, hj, hw⟩
    exact ⟨hnot, ((hf j).waitsFor (hlive j hj) r).trans hnot⟩

theorem updateJobs_quieted {f : JobSchedule → JobSchedule} (hf : ∀ j, (f j).Waits j)
    (ids : List JobId) : ∀ {s : Db}, (∀ r, (s.docket r).Sound) →
      (∀ jid ∈ ids, ∀ j, s.jobs[jid]? = some j → j.isLive = true) →
      Quieted cfg now s (updateJobs s f ids) := by
  induction ids with
  | nil => intro s _ _; exact .refl
  | cons jid rest ih =>
      intro s hs hlive
      have hfirst : Quieted cfg now s (s.updateJob jid f) :=
        updateJob_quieted hs (hlive jid List.mem_cons_self) hf
      refine hfirst.trans (ih (hfirst.sound hs) fun jid' hjid' j hj => ?_)
      obtain ⟨old, hold, ⟨_, rfl⟩ | ⟨_, rfl⟩⟩ := Table.get_modify hj
      · exact (hf old).live
      · exact hlive jid' (List.mem_cons_of_mem _ hjid') _ hold

theorem pollAndLease_quieted (hs : ∀ r, (s.docket r).Sound) (batchSize : Nat)
    (rows : List JobId) : Quieted cfg now s (pollAndLease cfg s now batchSize rows) := by
  have hlease : ∀ j : JobSchedule, (j.lease now).Waits j :=
    fun j => ⟨⟨rfl, rfl, rfl⟩, rfl, rfl, .inl rfl⟩
  refine updateJobs_quieted hlease _ hs fun jid hjid j hj => ?_
  obtain ⟨j', hj', hdue⟩ := leasedJobs_due hjid
  rw [hj] at hj'
  cases hj'
  unfold JobSchedule.due at hdue
  rw [Bool.and_eq_true] at hdue
  unfold JobSchedule.isLive
  rw [hdue.1, Bool.true_or]

theorem reapExpiredJobLeases_quieted (hs : ∀ r, (s.docket r).Sound) (batchSize : Nat)
    (rows : List JobId) : Quieted cfg now s (reapExpiredJobLeases s now batchSize rows) := by
  have hunlease : ∀ j : JobSchedule, j.unlease.Waits j :=
    fun j => ⟨⟨rfl, rfl, rfl⟩, rfl, rfl, .inr rfl⟩
  refine updateJobs_quieted hunlease _ hs fun jid hjid j hj => ?_
  have hexpired := (List.mem_filter.mp (List.mem_of_mem_take hjid)).2
  rw [hj, Option.any_some, Bool.and_eq_true] at hexpired
  unfold JobSchedule.isLive
  rw [hexpired.1, Bool.or_true]

/-! ## Dispatching a job -/

/-- What the dispatch of a job does to the docket of its run: nothing, it holds the run, or it
adds an assignment, with a reservation if a worker gets it. -/
inductive Places (cfg : Config) (s : Db) (now : Instant) (rid : RunId) (run : PipelineRun)
    (job : JobSchedule) (reserved : ContentStage → Nat) : Db → DispatchOutcome → Prop
  | nothing {outcome : DispatchOutcome} : outcome ≠ .dispatched → outcome ≠ .noWorker →
      Places cfg s now rid run job reserved s outcome
  | held {s' : Db} {stage : ContentStage} : run.status.isTerminal = false →
      stage.value = job.refTable →
      s'.docket = Function.update s.docket rid
        (.queued (some run.holdForSpend) job (Function.update reserved stage 0)) →
      Places cfg s now rid run job reserved s' .spendHold
  | queued {s' : Db} {stage : ContentStage} : run.status.isTerminal = false →
      stage.value = job.refTable →
      s'.docket = Function.update s.docket rid
        ⟨some run, [job], [newAssignment cfg now (job.dispatchArgs rid) stage none], [],
          reserved⟩ →
      Places cfg s now rid run job reserved s' .noWorker
  | assigned {s' : Db} {stage : ContentStage} {wid : WorkerId} : run.status.isTerminal = false →
      stage.value = job.refTable →
      s'.docket = Function.update s.docket rid
        ⟨some run, [job], [newAssignment cfg now (job.dispatchArgs rid) stage (some wid)], [],
          Function.update reserved stage 1⟩ →
      Places cfg s now rid run job reserved s' .dispatched

theorem docket_insertAssignment (s : Db) (now : Instant) {a : StageAssignment}
    (hopen : a.openFor rid = true) :
    (insertAssignment s now a).docket = Function.update s.docket rid
      { s.docket rid with rows := (s.docket rid).rows ++ [a] } := by
  rw [← docket_pushRow s hopen]
  unfold insertAssignment
  simp only [docket_emit]
  split
  · rfl
  · rfl

theorem newAssignment_openFor (cfg : Config) (now : Instant) (args : DispatchArgs)
    (stage : ContentStage) (worker : Option WorkerId) :
    (newAssignment cfg now args stage worker).openFor args.pipelineRunId = true := by
  rw [openFor_iff]
  refine ⟨rfl, ?_⟩
  cases worker <;> rfl

/-- The outcomes of a refusal. -/
theorem runRefusal_outcome {run : Option PipelineRun} {outcome : DispatchOutcome}
    (h : runRefusal run = some outcome) : outcome ≠ .dispatched ∧ outcome ≠ .noWorker := by
  unfold runRefusal at h
  split at h
  · cases h
  · split at h
    · cases h
      decide
    · split at h
      · split at h
        · cases h
          decide
        · cases h
          decide
      · cases h

theorem dispatchStage_places {run : PipelineRun} {job : JobSchedule}
    {reserved : ContentStage → Nat} (hd : s.docket rid = .queued (some run) job reserved)
    {rows : List WorkerId} {outcome : DispatchOutcome}
    (h : dispatchStage cfg s now (job.dispatchArgs rid) rows = .ok (t, outcome)) :
    Places cfg s now rid run job reserved t outcome := by
  have hrun : s.runs[(job.dispatchArgs rid).pipelineRunId]? = some run := congrArg Docket.run hd
  unfold dispatchStage at h
  split at h
  · cases h
    exact .nothing (by decide) (by decide)
  · split at h
    · rename_i out hrefused
      cases h
      obtain ⟨hne, hne'⟩ := runRefusal_outcome hrefused
      exact .nothing hne hne'
    · rename_i hrefusal
      have hterm := (runRefusal_none hrefusal hrun).1
      split at h
      · cases h
        exact .nothing (by decide) (by decide)
      · simp only at h
        unfold assignStage at h
        rw [hrun] at h
        split at h
        · cases h
        · cases h
        · rename_i stage run' hstage hrun'
          cases hrun'
          have hvalue := ContentStage.value_of_ofText? hstage
          split at h
          · cases h
            have hnew := docket_insertAssignment s now
              (newAssignment_openFor cfg now (job.dispatchArgs rid) stage none)
            change _ = Function.update s.docket rid _ at hnew
            rw [show s.docket (job.dispatchArgs rid).pipelineRunId = _ from hd] at hnew
            exact .queued hterm hvalue hnew
          · rename_i wid hwid
            simp only at h
            -- the reservation comes before the row
            have hreserve := docket_reserveSpend s now (job.dispatchArgs rid).pipelineRunId
              run.workspaceId stage (effectiveProvider (job.dispatchArgs rid).provider)
              cfg.settings.defaultStageEstimateUsd
            rw [show s.docket (job.dispatchArgs rid).pipelineRunId = _ from hd] at hreserve
            rcases hreserve with ⟨hres, hdocket⟩ | ⟨hres, hdocket⟩
            · rw [hres] at h
              cases h
              exact .held hterm hvalue hdocket
            · obtain ⟨res, hsome⟩ := Option.isSome_iff_exists.mp hres
              rw [hsome] at h
              cases h
              have hnew := docket_insertAssignment (reserveSpend s now
                (job.dispatchArgs rid).pipelineRunId run.workspaceId stage
                (effectiveProvider (job.dispatchArgs rid).provider)
                cfg.settings.defaultStageEstimateUsd).1 now
                (newAssignment_openFor cfg now (job.dispatchArgs rid) stage (some wid))
              rw [docket_self hdocket] at hnew
              exact .assigned hterm hvalue (docket_trans hdocket hnew)

/-- The job is finished or cancelled, once the docket of its run has one job at most. -/
theorem docket_endJob {d : Docket} {jid : JobId} {job : JobSchedule}
    {f : JobSchedule → JobSchedule} (hd : s.docket rid = d) (hjobs : d.jobs = [job])
    (hjob : s.jobs[jid]? = some job) (hw : job.waitsFor rid = true)
    (href : (f job).refId = job.refId) (hf : (f job).isLive = false) :
    (s.updateJob jid f).docket = Function.update s.docket rid { d with jobs := [] } := by
  subst hd
  have hlen : (s.docket rid).jobs.length ≤ 1 := by
    rw [hjobs]
    exact Nat.le_refl 1
  have hnot : ¬ (f job).waitsFor rid = true := by
    simp [JobSchedule.waitsFor, hf]
  rw [docket_updateJob hlen hjob hw href, List.filter_cons_of_neg hnot, List.filter_nil]

/-- There is nothing to cancel on a docket without assignments. -/
theorem openStageAssignments_nil (h : (s.docket rid).rows = []) (stage : ContentStage) :
    openStageAssignments s rid stage = [] := by
  rw [List.eq_nil_iff_forall_not_mem]
  intro aid haid
  obtain ⟨a, ha, hopen⟩ := Table.mem_select.mp haid
  simp only [Bool.and_eq_true, beq_iff_eq] at hopen
  have hmem : a ∈ (s.docket rid).rows :=
    List.mem_filter.mpr ⟨Table.mem_of_get ha, openFor_iff.mpr ⟨hopen.1.1, hopen.2⟩⟩
  rw [h] at hmem
  cases hmem

/-- Back-pressure: the job is put off, or given up. -/
theorem rescheduleJob_docket {jid : JobId} {job : JobSchedule} {run : PipelineRun}
    {reserved : ContentStage → Nat} {jitter : Nat}
    (hd : s.docket rid = .queued (some run) job reserved) (hjob : s.jobs[jid]? = some job)
    (hw : job.waitsFor rid = true) (h : rescheduleJob s now jid job rid jitter = .ok t) :
    ∃ d, Docket.Turn cfg now rid (s.docket rid) d ∧
      t.docket = Function.update s.docket rid d := by
  unfold rescheduleJob at h
  split at h
  · rename_i hmax
    refine ⟨.idle (some run) fun _ => 0, by rw [hd]; exact .giveUp hmax, ?_⟩
    have hended : (s.updateJob jid fun j =>
        { j with status := .cancelled, attempt := job.attempt + 1 }).docket
          = Function.update s.docket rid (.idle (some run) reserved) :=
      docket_endJob hd rfl hjob hw rfl rfl
    unfold exhaustJob at h
    have hrun : (s.updateJob jid fun j =>
        { j with status := .cancelled, attempt := job.attempt + 1 }).runs[rid]? = some run :=
      congrArg Docket.run hd
    simp only [hrun] at h
    split at h
    · cases h
    · rename_i stage hstage
      cases h
      have hreleased := docket_trans hended (docket_releaseAll (s.updateJob jid fun j =>
        { j with status := .cancelled, attempt := job.attempt + 1 }) now rid run.workspaceId)
      rw [docket_self hended] at hreleased
      have hrows := congrArg Docket.rows (docket_self hreleased)
      rw [docket_routeToDeadLetter, openStageAssignments_nil hrows stage]
      exact hreleased
  · cases h
    refine ⟨_, ?_, docket_waitJob hd hjob hw ⟨⟨rfl, rfl, rfl⟩, rfl, rfl, .inr rfl⟩⟩
    rw [hd]
    exact .defer ⟨rfl, rfl, rfl⟩ rfl

/-- **A work job is processed**: one turn of its run. -/
theorem processWorkJob_turned (hs : ∀ r, (s.docket r).Sound) {jid : JobId} {job : JobSchedule}
    {rows : List WorkerId} {jitter : Nat} {outcome : DispatchOutcome}
    (hjob : s.jobs[jid]? = some job) (hw : job.waitsFor rid = true)
    (h : processWorkJob cfg s now jid job rid rows jitter = .ok (t, outcome)) :
    Turned cfg now s t := by
  obtain ⟨run, hrun, hd⟩ := docket_of_waiting hs hjob hw
  generalize (s.docket rid).reserved = reserved at hd
  unfold processWorkJob at h
  split at h
  · cases h
  · rename_i s1 out hdispatch
    have hjob1 : s1.jobs[jid]? = some job := by
      rw [dispatchStage_jobs hdispatch]
      exact hjob
    split at h
    · cases h
    · rename_i s2 hsettle
      cases h
      -- what the dispatch did decides what becomes of the job
      cases dispatchStage_places hd hdispatch with
      | nothing hne hne' =>
          cases outcome with
          | dispatched => exact absurd rfl hne
          | noWorker => exact absurd rfl hne'
          | idempotent | skipped =>
              cases hsettle
              refine .of_eq (docket_endJob hd rfl hjob hw rfl rfl) ?_
              rw [hd]
              exact .drop
          | spendHold =>
              cases hsettle
              refine .of_eq (docket_waitJob hd hjob hw ⟨⟨rfl, rfl, rfl⟩, rfl, rfl, .inl rfl⟩) ?_
              rw [hd]
              exact .wait ⟨rfl, rfl, rfl⟩ rfl
          | backpressure =>
              obtain ⟨d, hturn, hdocket⟩ := rescheduleJob_docket hd hjob hw hsettle
              exact .of_eq hdocket hturn
      | held hterm hstage hdocket =>
          cases hsettle
          refine .of_eq (docket_trans hdocket (docket_waitJob (docket_self hdocket) hjob1 hw
            ⟨⟨rfl, rfl, rfl⟩, rfl, rfl, .inl rfl⟩)) ?_
          rw [hd]
          exact .hold hterm hstage ⟨rfl, rfl, rfl⟩ rfl
      | queued hterm hstage hdocket =>
          cases hsettle
          refine .of_eq (docket_trans hdocket (docket_endJob (docket_self hdocket) rfl hjob1 hw
            rfl rfl)) ?_
          rw [hd]
          exact .queue hterm hstage
      | assigned hterm hstage hdocket =>
          cases hsettle
          refine .of_eq (docket_trans hdocket (docket_endJob (docket_self hdocket) rfl hjob1 hw
            rfl rfl)) ?_
          rw [hd]
          exact .assign hterm hstage

end HumanGate
