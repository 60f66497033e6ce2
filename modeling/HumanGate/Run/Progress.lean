import HumanGate.Model.Desk
import HumanGate.Run.Routing

set_option autoImplicit false

/-! # No run is stranded

A run that is `RUNNING` at a stage which does not end it is to have pending work for that
stage: a live `STAGE` or `RETRY` job, or an open assignment (`Served`). Every operation hands
the work on. The exceptions are these:

* a stage that is entered again is dispatched under an idempotency key that the first pass has
  used, so the job is finished against an assignment that is closed
  (`reworked_run_stranded`);
* a job that has met back-pressure twenty times is cancelled, and the run is left running;
* a decision that the definition gives no edge for, or whose edge leads to another gate,
  leaves the run running at a stage that nobody works on.

`HandsOn` excludes these, as a condition on the operation and the state before it.
-/

namespace HumanGate

open Lib Lib.Calendar Relation

variable {cfg : Config} {sc : Scope}

/-! ## The property -/

/-- The current stage of the run ends it, by the definition the run is pinned to. -/
def PipelineRun.atEnd (cfg : Config) (run : PipelineRun) : Bool :=
  ((run.definitionId.bind cfg.definition).bind fun d => d.stageRow run.currentStage).any
    WorkflowStage.isTerminal

/-- The run is running at a stage that does not end it. -/
def PipelineRun.underway (cfg : Config) (run : PipelineRun) : Bool :=
  run.status == .running && !run.atEnd cfg

/-- There is work for the current stage of the run, if it is underway. -/
def Board.ServedAt (cfg : Config) (b : Board) (rid : RunId) : Prop :=
  ∀ run, b.runs[rid]? = some run → run.underway cfg = true → b.HasWork rid run.currentStage

/-- No run is stranded. -/
def Board.Served (cfg : Config) (b : Board) : Prop := ∀ rid, b.ServedAt cfg rid

/-- The run exists and is not running. -/
def Board.Halted (b : Board) (rid : RunId) : Prop :=
  ∃ run, b.runs[rid]? = some run ∧ run.status ≠ .running

theorem Db.halted {s : Db} {rid : RunId} (st : PipelineRunStatus) (h : s.statusOf rid = some st)
    (hne : st ≠ .running) : s.board.Halted rid := by
  obtain ⟨run, hrun, rfl⟩ := Option.map_eq_some_iff.mp h
  exact ⟨run, hrun, hne⟩

theorem Board.Halted.servedAt {b : Board} {rid : RunId} (h : b.Halted rid) :
    b.ServedAt cfg rid := by
  intro run hrun hway
  obtain ⟨run', hrun', hne⟩ := h
  rw [hrun] at hrun'
  cases hrun'
  unfold PipelineRun.underway at hway
  simp [hne] at hway

theorem Board.ServedAt.congr {b b' : Board} {rid : RunId} (h : b.ServedAt cfg rid)
    (hruns : b'.runs = b.runs) (hjobs : b'.jobs = b.jobs)
    (hassigned : b'.assignments = b.assignments) : b'.ServedAt cfg rid := by
  unfold Board.ServedAt Board.HasWork at h ⊢
  rw [hruns, hjobs, hassigned]
  exact h

/-! ## Writes -/

/-- Work that is not used up stays. -/
theorem Write.hasWork {b b' : Board} {rid : RunId} {stage : ContentStage}
    (h : Write cfg sc b b') (hkeep : ¬ sc.spends rid stage) (hb : b.HasWork rid stage) :
    b'.HasWork rid stage := by
  rcases hb with ⟨j, hj, hwork, hlive, href, htable⟩ | ⟨a, ha, hr, hst, hopen⟩
  · -- the work is a job
    left
    cases h with
    | newJob _ => exact ⟨j, List.mem_append_left _ hj, hwork, hlive, href, htable⟩
    | @job jid f hf hstays =>
        obtain ⟨i, hi⟩ := List.mem_iff_getElem?.mp hj
        by_cases hij : jid = i
        · subst hij
          obtain ⟨htype, htab, hrefId, _⟩ := hf j
          refine ⟨f j, Table.mem_of_get (Table.get_modify_self hi), ?_, ?_, hrefId.trans href,
            htab.trans htable⟩
          · unfold JobSchedule.isWork at hwork ⊢
            rw [htype]
            exact hwork
          · rcases hstays with hstays | hspent
            · exact hstays j hlive
            · exact absurd (hspent j hi rid stage hwork href htable) hkeep
        · exact ⟨j, Table.mem_of_get ((Table.get_modify_ne hij).trans hi), hwork, hlive,
            href, htable⟩
    | startRun | run | newAssignment | assignment | worker | newGate | gate | decision =>
        exact ⟨j, hj, hwork, hlive, href, htable⟩
  · -- the work is an assignment
    right
    cases h with
    | newAssignment _ => exact ⟨a, List.mem_append_left _ ha, hr, hst, hopen⟩
    | @assignment aid f hf hstays =>
        obtain ⟨i, hi⟩ := List.mem_iff_getElem?.mp ha
        by_cases hij : aid = i
        · subst hij
          obtain ⟨_, hrun, hstage, _⟩ := hf.sameTarget a
          refine ⟨f a, Table.mem_of_get (Table.get_modify_self hi), hrun.trans hr,
            hstage.trans hst, ?_⟩
          rcases hstays with hstays | hspent
          · exact hstays a hopen
          · have hused := hspent a hi
            rw [hr, hst] at hused
            exact absurd hused hkeep
        · exact ⟨a, Table.mem_of_get ((Table.get_modify_ne hij).trans hi), hr, hst, hopen⟩
    | startRun | run | newJob | job | worker | newGate | gate | decision =>
        exact ⟨a, ha, hr, hst, hopen⟩

/-- A write that does not move the run may end or pause it, no more. -/
theorem RunWrite.underway {b : Board} {rid : RunId} {f : PipelineRun → PipelineRun}
    (h : RunWrite cfg sc b rid f) (hkeep : ¬ sc.moves rid) (run : PipelineRun)
    (hway : (f run).underway cfg = true) :
    run.underway cfg = true ∧ (f run).currentStage = run.currentStage := by
  cases h with
  | enter _ hmoves => exact absurd hmoves hkeep
  | resume _ hmoves => exact absurd hmoves hkeep
  | reopen _ hmoves => exact absurd hmoves hkeep
  | clearReason => exact ⟨hway, rfl⟩
  | hold | pause | succeed | fail | markFailed | cancel => exact absurd hway Bool.false_ne_true

/-- The run was underway at the same stage on the board `b₀`. -/
def Board.Followed (cfg : Config) (b₀ b : Board) (rid : RunId) : Prop :=
  ∀ run, b.runs[rid]? = some run → run.underway cfg = true →
    ∃ run₀, b₀.runs[rid]? = some run₀ ∧ run₀.underway cfg = true ∧
      run.currentStage = run₀.currentStage

theorem Write.followed {b₀ b b' : Board} {rid : RunId} (h : Write cfg sc b b')
    (hstart : ∀ definition, ¬ sc.start definition) (hkeep : ¬ sc.moves rid)
    (hb : b₀.Followed cfg b rid) : b₀.Followed cfg b' rid := by
  intro run hrun hway
  cases h with
  | startRun hs _ _ => exact absurd hs (hstart _)
  | @run rid' f hf =>
      obtain ⟨old, hold, ⟨rfl, rfl⟩ | ⟨_, rfl⟩⟩ := Table.get_modify hrun
      · obtain ⟨hway', hstage⟩ := hf.underway hkeep old hway
        obtain ⟨run₀, hrun₀, hway₀, heq⟩ := hb old hold hway'
        exact ⟨run₀, hrun₀, hway₀, hstage.trans heq⟩
      · exact hb run hold hway
  | newJob | job | newAssignment | assignment | worker | newGate | gate | decision =>
      exact hb run hrun hway

/-- **Work is handed on** by a sequence of writes that does not move the run, if whatever it
uses up is replaced or the run no longer runs. -/
theorem Writes.servedAt {b b' : Board} {rid : RunId} (h : Writes cfg sc b b')
    (hstart : ∀ definition, ¬ sc.start definition) (hmoves : ¬ sc.moves rid)
    (hspends : ∀ run, b.runs[rid]? = some run → run.underway cfg = true →
      sc.spends rid run.currentStage → b'.HasWork rid run.currentStage ∨ b'.Halted rid)
    (hb : b.ServedAt cfg rid) : b'.ServedAt cfg rid := by
  have hfollowed : b.Followed cfg b' rid :=
    h.invariant (I := fun c => b.Followed cfg c rid) (fun _ _ hw => hw.followed hstart hmoves)
      fun run hrun hway => ⟨run, hrun, hway, rfl⟩
  intro run hrun hway
  obtain ⟨run₀, hrun₀, hway₀, hstage⟩ := hfollowed run hrun hway
  rw [hstage]
  by_cases hsp : sc.spends rid run₀.currentStage
  · rcases hspends run₀ hrun₀ hway₀ hsp with hwork | hhalted
    · exact hwork
    · rw [← hstage]
      exact hhalted.servedAt run hrun hway
  · exact h.invariant (I := fun c => c.HasWork rid run₀.currentStage)
      (fun _ _ hw => hw.hasWork hsp) (hb run₀ hrun₀ hway₀)

/-! ## Keys -/

/-- Every key is one of its assignment's run and stage. -/
def Board.Keyed (b : Board) : Prop := ∀ a ∈ b.assignments, a.Keyed

theorem Write.keyed {b b' : Board} (h : Write cfg sc b b')
    (hassign : ∀ a, sc.assign a → a.Keyed) (hb : b.Keyed) : b'.Keyed := by
  cases h with
  | newAssignment ha => exact Table.forall_push hb (hassign _ ha)
  | assignment hf _ =>
      exact Table.forall_modify hb fun a ha => (hf.sameTarget a).2.2.2 (hb a (Table.mem_of_get ha))
  | startRun | run | newJob | job | worker | newGate | gate | decision => exact hb

theorem IsDispatchRow.keyed {s : Db} {now : Instant} {args : DispatchArgs}
    {rows : List WorkerId} {a : StageAssignment} (h : IsDispatchRow cfg s now args rows a) :
    a.Keyed := by
  obtain ⟨stage, worker, hstage, _, rfl⟩ := h
  exact ⟨rfl, (ContentStage.value_of_ofText? hstage).symm⟩

theorem Op.inserts_keyed {s : Db} {o : Op} {a : StageAssignment} (h : o.inserts cfg s a) :
    a.Keyed := by
  obtain ⟨now, action⟩ := o
  cases action with
  | dispatchStage args rows => exact IsDispatchRow.keyed h
  | processLeasedJob jid rows jitter =>
      obtain ⟨_, _, _, _, _, hrow⟩ := h
      exact hrow.keyed
  | _ => exact False.elim h

theorem exec_keyed {s : Db} (o : Op) (hsane : s.board.Sane) (hs : s.board.Keyed) :
    (exec cfg s o).board.Keyed :=
  (exec_writes cfg o fun _ => hsane).invariant (I := Board.Keyed)
    (fun _ _ hw => hw.keyed fun _ => Op.inserts_keyed) hs

theorem Fresh.keyed {s : Db} (h : Fresh s) : s.board.Keyed := by
  intro a ha
  rw [show s.board.assignments = [] from h.assignments] at ha
  cases ha

/-- An assignment is found under the key of its run and stage. -/
theorem assignmentByKey_spec {s : Db} {ws : WorkspaceId} {args : DispatchArgs}
    {stage : ContentStage} {a : StageAssignment} (hs : s.board.Keyed)
    (hstage : args.stage = stage.value) (h : assignmentByKey s ws args.key = some a) :
    a ∈ s.assignments ∧ a.pipelineRunId = args.pipelineRunId ∧ a.stage = stage := by
  have hmem := List.mem_of_find?_eq_some h
  have hkey := List.find?_some h
  simp only [Bool.and_eq_true, beq_iff_eq] at hkey
  obtain ⟨hrun, htext⟩ := hs a hmem
  rw [hkey.2] at hrun htext
  exact ⟨hmem, hrun.symm, ContentStage.value_injective (htext.symm.trans hstage)⟩

/-! ## Processing a job -/

/-- What becomes of a dispatch: it meets back-pressure, its key is taken, the run is not (or no
longer) running, or there is a new assignment. -/
inductive Dispatched (cfg : Config) (s : Db) (args : DispatchArgs) : Db → DispatchOutcome → Prop
  | pushedBack : maxConcurrentAssignments cfg args.workspaceId ≤ inFlightCount s args.workspaceId →
      Dispatched cfg s args s .backpressure
  | taken {a : StageAssignment} :
      ¬ maxConcurrentAssignments cfg args.workspaceId ≤ inFlightCount s args.workspaceId →
      assignmentByKey s args.workspaceId args.key = some a → Dispatched cfg s args s .idempotent
  | halted {s' : Db} {outcome : DispatchOutcome} (st : PipelineRunStatus) :
      s'.statusOf args.pipelineRunId = some st → st ≠ .running → outcome ≠ .backpressure →
      Dispatched cfg s args s' outcome
  | inserted {s' : Db} {outcome : DispatchOutcome} {stage : ContentStage} {a : StageAssignment} :
      stage.value = args.stage → a ∈ s'.assignments → a.pipelineRunId = args.pipelineRunId →
      a.stage = stage → a.status.isOpen = true → outcome ≠ .backpressure →
      Dispatched cfg s args s' outcome

theorem runRefusal_some {s : Db} {rid : RunId} {outcome : DispatchOutcome}
    (h : runRefusal s.runs[rid]? = some outcome) :
    outcome ≠ .backpressure ∧ ∃ st, s.statusOf rid = some st ∧ st ≠ .running := by
  unfold Db.statusOf
  cases hrun : s.runs[rid]? with
  | none =>
      rw [hrun] at h
      cases h
  | some run =>
      rw [hrun] at h
      simp only [runRefusal] at h
      refine ⟨?_, run.status, rfl, ?_⟩
      · split at h
        · cases h; decide
        · split at h
          · split at h <;> cases h <;> decide
          · cases h
      · intro hst
        rw [hst] at h
        cases h

theorem insertAssignment_mem (s : Db) (now : Instant) (new : StageAssignment) :
    new ∈ (insertAssignment s now new).assignments := by
  unfold insertAssignment
  simp only
  split <;> exact List.mem_append_right _ (List.mem_singleton_self _)

theorem newAssignment_isOpen (now : Instant) (args : DispatchArgs) (stage : ContentStage)
    (worker : Option WorkerId) :
    (newAssignment cfg now args stage worker).status.isOpen = true := by
  cases worker <;> rfl

theorem dispatchStage_dispatched {s s' : Db} {now : Instant} {args : DispatchArgs}
    {rows : List WorkerId} {outcome : DispatchOutcome}
    (h : dispatchStage cfg s now args rows = .ok (s', outcome)) :
    Dispatched cfg s args s' outcome := by
  unfold dispatchStage at h
  split at h
  · rename_i hfull
    cases h
    exact .pushedBack hfull
  · rename_i hfull
    split at h
    · rename_i out hrefusal
      cases h
      obtain ⟨hout, st, hst, hne⟩ := runRefusal_some hrefusal
      exact .halted st hst hne hout
    · split at h
      · rename_i a hkey
        cases h
        exact .taken hfull hkey
      · simp only at h
        unfold assignStage at h
        split at h
        · cases h
        · cases h
        · rename_i stage run hstage hrun
          have htext := ContentStage.value_of_ofText? hstage
          split at h
          · cases h
            exact .inserted htext (insertAssignment_mem ..) rfl rfl (newAssignment_isOpen ..)
              (by decide)
          · simp only at h
            split at h
            · rename_i hnone
              cases h
              -- the cap is exceeded: `reserve_spend` has paused the run
              refine .halted .paused ?_ (by decide) (by decide)
              rcases core_reserveSpend s now args.pipelineRunId run.workspaceId stage
                (effectiveProvider args.provider) cfg.settings.defaultStageEstimateUsd
                with ⟨_, hcore⟩ | ⟨hsome, _⟩
              · have hruns := congrArg Board.runs (board_of_core hcore)
                exact Option.map_eq_some_iff.mpr
                  ⟨_, (congrArg (fun rows => rows[args.pipelineRunId]?) hruns).trans
                    (Table.get_modify_self hrun), rfl⟩
              · rw [hnone] at hsome
                cases hsome
            · cases h
              exact .inserted htext (insertAssignment_mem ..) rfl rfl (newAssignment_isOpen ..)
                (by decide)

/-- The job of the run hands its work on, if it is work the run waits for: back-pressure does
not exhaust it, and no closed assignment has taken its key. -/
def JobSchedule.HandsOn (cfg : Config) (s : Db) (job : JobSchedule) (rid : RunId) : Prop :=
  ∀ run ∈ s.runs[rid]?, run.underway cfg = true → job.refTable = run.currentStage.value →
    (maxConcurrentAssignments cfg job.workspaceId ≤ inFlightCount s job.workspaceId →
      job.attempt + 1 < noWorkerMaxRetries) ∧
    (inFlightCount s job.workspaceId < maxConcurrentAssignments cfg job.workspaceId →
      job.isLive = true →
      ∀ a ∈ assignmentByKey s job.workspaceId (job.dispatchArgs rid).key, a.status.isOpen = true)

/-- An outcome other than back-pressure settles the job by an update of its row. -/
theorem settleJob_rows {s s' : Db} {now : Instant} {jid : JobId} {job : JobSchedule}
    {rid : RunId} {jitter : Nat} {outcome : DispatchOutcome} (hout : outcome ≠ .backpressure)
    (h : settleJob s now jid job rid jitter outcome = .ok s') :
    s'.runs = s.runs ∧ s'.assignments = s.assignments ∧ ∃ f, s'.jobs = s.jobs.modify jid f := by
  cases outcome with
  | backpressure => exact absurd rfl hout
  | spendHold | skipped | dispatched | idempotent | noWorker =>
      cases h
      exact ⟨rfl, rfl, _, rfl⟩

/-- A job that is over carries no work, so its update keeps the work there is. -/
theorem Board.HasWork.of_modify {b b' : Board} {rid : RunId} {stage : ContentStage} {jid : JobId}
    {job : JobSchedule} {f : JobSchedule → JobSchedule} (h : b.HasWork rid stage)
    (hjob : b.jobs[jid]? = some job) (hover : ¬ job.isLive = true)
    (hjobs : b'.jobs = b.jobs.modify jid f) (hassigned : b'.assignments = b.assignments) :
    b'.HasWork rid stage := by
  rcases h with ⟨j, hj, hwork, hlive, hrest⟩ | ⟨a, ha, hrest⟩
  · refine .inl ⟨j, ?_, hwork, hlive, hrest⟩
    rw [hjobs]
    refine Table.mem_modify_of_ne hjob hj ?_
    rintro rfl
    exact hover hlive
  · exact .inr ⟨a, hassigned ▸ ha, hrest⟩

/-- **A dispatch hands the work on**, or the run is not running afterwards. -/
theorem processWorkJob_handsOn {s s' : Db} {now : Instant} {jid : JobId} {job : JobSchedule}
    {rid : RunId} {rows : List WorkerId} {jitter : Nat} {outcome : DispatchOutcome}
    {run : PipelineRun} (hjob : s.jobs[jid]? = some job) (hwork : job.isWork = true)
    (href : job.refId = .run rid) (hkeyed : s.board.Keyed) (hserved : s.board.ServedAt cfg rid)
    (hcond : job.HandsOn cfg s rid) (hrun : s.runs[rid]? = some run)
    (hway : run.underway cfg = true) (hstage : job.refTable = run.currentStage.value)
    (h : processWorkJob cfg s now jid job rid rows jitter = .ok (s', outcome)) :
    s'.board.HasWork rid run.currentStage ∨ s'.board.Halted rid := by
  obtain ⟨hretries, hkey⟩ := hcond run hrun hway hstage
  unfold processWorkJob at h
  split at h
  · cases h
  · rename_i s1 out hdispatch
    split at h
    · cases h
    · rename_i s2 hsettle
      cases h
      have hjobs := dispatchStage_jobs hdispatch
      cases dispatchStage_dispatched hdispatch with
      | pushedBack hfull =>
          -- parked for another try, and pending
          change rescheduleJob s now jid job rid jitter = .ok s' at hsettle
          unfold rescheduleJob at hsettle
          rw [if_neg (Nat.not_le.mpr (hretries hfull))] at hsettle
          cases hsettle
          refine .inl (.inl ⟨_, Table.mem_of_get (Table.get_modify_self hjob), hwork, ?_, href,
            hstage⟩)
          rfl
      | @taken a hfull htaken =>
          obtain ⟨_, hassigned, f, hmodify⟩ := settleJob_rows (by decide) hsettle
          left
          by_cases hlive : job.isLive = true
          · obtain ⟨hmem, hr, hst⟩ := assignmentByKey_spec hkeyed hstage htaken
            rw [← hassigned] at hmem
            exact .inr ⟨a, hmem, hr, hst, hkey (Nat.not_le.mp hfull) hlive a htaken⟩
          · exact (hserved run hrun hway).of_modify hjob hlive hmodify hassigned
      | halted st hst hne hout =>
          obtain ⟨hruns, _, _⟩ := settleJob_rows hout hsettle
          refine .inr (Db.halted st ?_ hne)
          unfold Db.statusOf at hst ⊢
          rw [hruns]
          exact hst
      | @inserted _ _ stage a htext hmem hr hst hopen hout =>
          obtain ⟨_, hassigned, _⟩ := settleJob_rows hout hsettle
          rw [← hassigned] at hmem
          refine .inl (.inr ⟨a, hmem, hr, ?_, hopen⟩)
          rw [hst]
          exact ContentStage.value_injective (htext.trans hstage)

theorem processLeasedJob_handsOn {s s' : Db} {now : Instant} {jid : JobId} {job : JobSchedule}
    {rid : RunId} {rows : List WorkerId} {jitter : Nat} {run : PipelineRun}
    (hjob : s.jobs[jid]? = some job) (hwork : job.isWork = true) (href : job.refId = .run rid)
    (hkeyed : s.board.Keyed) (hserved : s.board.ServedAt cfg rid)
    (hcond : job.HandsOn cfg s rid) (hrun : s.runs[rid]? = some run)
    (hway : run.underway cfg = true) (hstage : job.refTable = run.currentStage.value)
    (h : processLeasedJob cfg s now jid rows jitter = .ok s') :
    s'.board.HasWork rid run.currentStage ∨ s'.board.Halted rid := by
  have hprocess : (processWorkJob cfg s now jid job rid rows jitter).map Prod.fst = .ok s' := by
    unfold processLeasedJob at h
    unfold JobSchedule.isWork at hwork
    simp only [hjob, href] at h
    cases htype : job.jobType with
    | stage | retry =>
        rw [htype] at h
        exact h
    | _ =>
        rw [htype] at hwork
        cases hwork
  cases hp : processWorkJob cfg s now jid job rid rows jitter with
  | error e =>
      rw [hp] at hprocess
      cases hprocess
  | ok r =>
      obtain ⟨s1, outcome⟩ := r
      rw [hp] at hprocess
      cases hprocess
      exact processWorkJob_handsOn hjob hwork href hkeyed hserved hcond hrun hway hstage hp

/-! ## Recovery -/

theorem failRunUnlessTerminal_halted {s : Db} {now : Instant} {rid : RunId} {run : PipelineRun}
    (hrun : s.runs[rid]? = some run) : (failRunUnlessTerminal s now rid).board.Halted rid := by
  unfold failRunUnlessTerminal
  simp only [hrun]
  split
  · rename_i hterm
    refine ⟨run, hrun, ?_⟩
    intro hst
    rw [hst] at hterm
    cases hterm
  · exact Db.halted .failed (failRun_statusOf hrun) (by decide)

/-- Recovering an assignment puts it back, or fails the run. -/
theorem recoverAssignment_servedAt {s s' : Db} {now : Instant} {aid : AssignmentId}
    {reason : RecoveryReason} {detail : Option String} {rid : RunId}
    (hs : s.board.ServedAt cfg rid)
    (h : recoverAssignment cfg s now aid reason detail = .ok s') : s'.board.ServedAt cfg rid := by
  unfold recoverAssignment at h
  split at h
  · cases h
  · rename_i a ha
    split at h
    · cases h
      exact hs
    · simp only at h
      split at h
      · cases h
        -- only the work of this assignment is used up, and its run is over
        let used : Scope :=
          { spends := fun rid' stage => rid' = a.pipelineRunId ∧ stage = a.stage }
        have hfree : Writes cfg used s.board
            (freeSlot s a.workerId WorkerRegistration.releaseSlot).board :=
          freeSlot_writes s a.workerId fun _ => rfl
        refine Writes.servedAt
          (hfree.trans (exhaustAssignment_writes _ now aid a reason _ detail ?_))
          (fun _ h => h) (fun h => h) ?_ hs
        · intro a' ha'
          rw [freeSlot_assignments, ha] at ha'
          cases ha'
          exact ⟨rfl, rfl⟩
        · rintro run hrun _ ⟨rfl, _⟩
          right
          have hrun' : (freeSlot s a.workerId WorkerRegistration.releaseSlot).runs[a.pipelineRunId]?
              = some run := by
            rw [freeSlot_runs]
            exact hrun
          exact failRunUnlessTerminal_halted (s := routeToDeadLetter (Db.updateAssignment
            (freeSlot s a.workerId WorkerRegistration.releaseSlot) now aid
            (StageAssignment.exhaust now)) now _ _ _ _ _ _) hrun'
      · have hfree : Writes cfg {} s.board
            (freeSlot s a.workerId WorkerRegistration.releaseSlot).board :=
          freeSlot_writes s a.workerId fun _ => rfl
        exact Writes.servedAt (hfree.trans (requeueAssignment_writes h)) (fun _ h => h) (fun h => h)
          (fun _ _ _ h => False.elim h) hs

theorem recoverEach_servedAt {now : Instant} {reason : RecoveryReason} {detail : Option String}
    {rid : RunId} (ids : List AssignmentId) : ∀ {s s' : Db}, s.board.ServedAt cfg rid →
    recoverEach cfg s now reason detail ids = .ok s' → s'.board.ServedAt cfg rid := by
  induction ids with
  | nil =>
      intro s s' hs h
      cases h
      exact hs
  | cons aid rest ih =>
      intro s s' hs h
      unfold recoverEach at h
      split at h
      · cases h
      · rename_i s1 hfirst
        exact ih (recoverAssignment_servedAt hs hfirst) h

theorem reapWorkerBatches_servedAt {now : Instant} {wid : WorkerId} {reason : RecoveryReason}
    {detail : Option String} {limit : Nat} {rows : List AssignmentId} {rid : RunId} (fuel : Nat) :
    ∀ {s s' : Db}, s.board.ServedAt cfg rid →
      reapWorkerBatches cfg now wid reason detail limit rows fuel s = .ok s' →
      s'.board.ServedAt cfg rid := by
  induction fuel with
  | zero =>
      intro s s' hs h
      cases h
      exact hs
  | succ fuel ih =>
      intro s s' hs h
      unfold reapWorkerBatches at h
      split at h
      · cases h
        exact hs
      · split at h
        · cases h
        · rename_i s1 hbatch
          have hfirst := recoverEach_servedAt _ hs hbatch
          split at h
          · cases h
            exact hfirst
          · exact ih hfirst h

/-! ## Moving a run -/

/-- A pause that does not raise takes a running run out of `RUNNING`, unless another gate of
the run is awaiting. -/
theorem pauseForReview_halted {s : Db} {now : Instant} {rid : RunId} {stage : ContentStage}
    {timeoutSeconds : Nat} {run : PipelineRun} (hrun : s.runs[rid]? = some run)
    (hclear : run.status = .running → awaitingGates s rid = [])
    (hraised : (pauseForReview s now rid stage timeoutSeconds).raised = none) :
    (pauseForReview s now rid stage timeoutSeconds).db.board.Halted rid := by
  unfold pauseForReview at hraised ⊢
  simp only [hrun] at hraised ⊢
  split at hraised
  · cases hraised
  · rename_i hlive
    rw [if_neg hlive]
    split at hraised
    · cases hraised
    · rename_i gid hone
      refine ⟨run, hrun, fun hst => ?_⟩
      rw [hclear hst] at hone
      cases hone
    · split at hraised
      · cases hraised
      · refine Db.halted .paused ?_ (by decide)
        exact Option.map_eq_some_iff.mpr ⟨_, Table.get_modify_self hrun, rfl⟩

/-- Entering a stage ends the run, pauses it, or enqueues work, unless the stage is a gate and
another gate of the running run is awaiting. -/
theorem enterStage_servedAt {s : Db} {now : Instant} {rid : RunId} {ws : WorkspaceId}
    {row : WorkflowStage} {run : PipelineRun} (hrun : s.runs[rid]? = some run)
    (hgate : row.isTerminal = false → row.isReviewGate = true →
      (enterStage cfg s now rid ws row).raised = none ∧
        (run.status = .running → awaitingGates s rid = [])) :
    (enterStage cfg s now rid ws row).db.board.ServedAt cfg rid := by
  have hentered : (s.updateRun rid (PipelineRun.enter row.stageKey)).runs[rid]?
      = some (run.enter row.stageKey) := Table.get_modify_self hrun
  unfold enterStage at hgate ⊢
  simp only at hgate ⊢
  split
  · refine Board.Halted.servedAt (Db.halted .succeeded ?_ (by decide))
    exact Option.map_eq_some_iff.mpr ⟨_, Table.get_modify_self hentered, rfl⟩
  · rename_i hterm
    split
    · rename_i hflag
      obtain ⟨hraised, hclear⟩ := hgate (by simpa using hterm) hflag
      rw [if_neg hterm, if_pos hflag] at hraised
      exact (pauseForReview_halted hentered hclear hraised).servedAt
    · intro run' hrun' _
      have hsame := hentered.symm.trans hrun'
      cases hsame
      exact enqueueStage_hasWork ..

/-- Where routing has a target, it enters it. -/
theorem advanceOrFinish_enters {s : Db} (now : Instant) {rid : RunId} {fromStage : ContentStage}
    {trigger : WorkflowTransitionTrigger} {context : JsonObject} {row : WorkflowStage}
    (h : routeTarget cfg s.board rid fromStage trigger context = some row) :
    ∃ run, s.runs[rid]? = some run ∧
      advanceOrFinish cfg s now rid fromStage trigger context
        = enterStage cfg s now rid run.workspaceId row := by
  unfold routeTarget at h
  split at h
  · cases h
  · rename_i d hd
    obtain ⟨run, hrun, hdef⟩ := Option.bind_eq_some_iff.mp hd
    split at h
    · rename_i t ht
      refine ⟨run, hrun, ?_⟩
      unfold advanceOrFinish
      rw [show s.runs[rid]? = some run from hrun]
      simp only [definitionOf, hdef, ht, getStageDef, h]
    · cases h

/-- A successful result moves the run of its assignment on. -/
theorem submitResult_servedAt {s : Db} {now : Instant} {aid : AssignmentId} {a : StageAssignment}
    {result : Option JsonObject} {errorMessage : String} {worker : Option WorkerId} {jitter : Nat}
    (hsync : s.Synced) (ha : s.assignments[aid]? = some a)
    (hgate : ∀ row ∈ routeTarget cfg s.board a.pipelineRunId a.stage .onSuccess (result.getD []),
      row.isTerminal = false → row.isReviewGate = true →
      s.statusOf a.pipelineRunId = some .running → awaitingGates s a.pipelineRunId = [])
    (hraised : (submitResult cfg s now aid true result errorMessage worker jitter).raised = none) :
    (submitResult cfg s now aid true result errorMessage worker jitter).db.board.ServedAt cfg
      a.pipelineRunId := by
  obtain ⟨a', ha', hcase⟩ := submitResult_success hraised
  rw [ha] at ha'
  cases ha'
  rcases hcase with ⟨_, hruns, hterm⟩ | ⟨s2, hruns, hgates, hsync2, hcall⟩
  · intro run hrun hway
    have hover := hterm run ((congrArg (fun rows => rows[a.pipelineRunId]?) hruns).symm.trans hrun)
    have hhalted : Board.Halted _ a.pipelineRunId := ⟨run, hrun, fun hst => by
      rw [hst] at hover
      cases hover⟩
    exact hhalted.servedAt run hrun hway
  · rw [hcall] at hraised ⊢
    have hdef := Db.definition_congr cfg hruns a.pipelineRunId
    have hrouted := advanceOrFinish_routed cfg s2 now a.pipelineRunId a.stage .onSuccess
      (result.getD [])
    generalize advanceOrFinish cfg s2 now a.pipelineRunId a.stage .onSuccess (result.getD []) = c
      at hraised hrouted ⊢
    cases hrouted with
    | raised => cases hraised
    | ended _ _ _ hst => exact (Db.halted .succeeded hst (by decide)).servedAt
    | @entered d row ws hd htarget hrow =>
        obtain ⟨run, hrun, _⟩ := Option.bind_eq_some_iff.mp hd
        refine enterStage_servedAt hrun fun hterm hflag => ⟨hraised, fun hst => ?_⟩
        rw [routeTarget_congr hdef] at htarget
        rw [awaitingGates_congr hsync hsync2 hgates]
        refine hgate row htarget hterm hflag ?_
        unfold Db.statusOf
        rw [← hruns]
        exact Option.map_eq_some_iff.mpr ⟨run, hrun, hst⟩

/-- The decision's edge leads out of the reviews. -/
def LeadsOut (cfg : Config) (s : Db) (gid : GateId) (approved : Bool) : Prop :=
  ∀ g ∈ s.gates[gid]?, resumeOverwrites cfg s gid approved = some (g.pipelineRunId, .running) →
    ∃ row ∈ routeTarget cfg s.board g.pipelineRunId g.stage (reviewTrigger approved) [],
      row.isTerminal = true ∨ row.isReviewGate = false

theorem resumeFromReview_servedAt {s : Db} {now : Instant} {gid : GateId} {approved : Bool}
    {g : ReviewGate} (hg : s.gates[gid]? = some g) (hcond : LeadsOut cfg s gid approved)
    (hs : s.board.ServedAt cfg g.pipelineRunId) :
    (resumeFromReview cfg s now gid approved).db.board.ServedAt cfg g.pipelineRunId := by
  have hresumed := resumeFromReview_resumed cfg s now gid approved
  generalize resumeFromReview cfg s now gid approved = c at hresumed ⊢
  cases hresumed with
  | still _ hruns hjobs hassigned => exact hs.congr hruns hjobs hassigned
  | failed hg' _ hst =>
      rw [hg] at hg'
      cases hg'
      exact (Db.halted .failed hst (by decide)).servedAt
  | @routed g' s2 hg' hover hs2 =>
      rw [hg] at hg'
      cases hg'
      obtain ⟨row, htarget, hout⟩ := hcond g hg hover
      have hdef : s2.board.definition cfg g.pipelineRunId
          = s.board.definition cfg g.pipelineRunId := by
        rw [hs2, board_updateRun, Board.definition_updateRun (f := PipelineRun.resume) fun _ => rfl]
        rfl
      obtain ⟨run, hrun, henter⟩ := advanceOrFinish_enters now
        ((routeTarget_congr hdef ..).trans htarget)
      rw [henter]
      refine enterStage_servedAt hrun fun hterm hflag => ?_
      rcases hout with hout | hout
      · rw [hterm] at hout
        cases hout
      · rw [hflag] at hout
        cases hout

/-- A decision, however it is delivered, moves the run of its gate on. -/
theorem Delivered.servedAt {s s1 : Db} {now : Instant} {gid : GateId} {approved : Bool} {c : Call}
    {g : ReviewGate} (h : Delivered cfg s now gid approved c s1) (hg : s.gates[gid]? = some g)
    (hcond : LeadsOut cfg s gid approved) (hs : s.board.ServedAt cfg g.pipelineRunId) :
    c.db.board.ServedAt cfg g.pipelineRunId := by
  have hs1 : s1.board.ServedAt cfg g.pipelineRunId := hs.congr h.runs h.jobs h.assignments
  rcases h.applied with ⟨hboard, _⟩ | ⟨hboard, _⟩
  · rw [hboard]
    exact hs1
  · rw [hboard]
    cases hg1 : s1.gates[gid]? with
    | none =>
        -- without the gate nothing is resumed
        have hnone : resumeFromReview cfg s1 now gid approved = { db := s1 } := by
          unfold resumeFromReview
          rw [hg1]
        rw [hnone]
        exact hs1
    | some g1 =>
        obtain ⟨g', hg', hr, hst⟩ := h.gate g1 hg1
        rw [hg] at hg'
        cases hg'
        rw [← hr] at hs1 ⊢
        refine resumeFromReview_servedAt hg1 (fun g2 hg2 hover => ?_) hs1
        rw [hg1] at hg2
        cases hg2
        rw [h.overwrites, hr] at hover
        rw [hr, hst, routeTarget_congr (Db.definition_congr cfg h.runs _)]
        exact hcond g hg hover

/-! ## Starting and cancelling a run -/

theorem startRun_served {s : Db} {now : Instant} {ws : WorkspaceId} {item : ItemId}
    {definition : DefinitionId} (hs : s.board.Served cfg) :
    (startRun cfg s now ws item definition).db.board.Served cfg := by
  unfold startRun
  split
  · split
    · exact hs
    · rename_i first hfirst
      intro rid run hrun hway
      rcases Table.get_push hrun with hold | ⟨rfl, rfl⟩
      · rcases hs rid run hold hway with ⟨j, hj, hrest⟩ | hassigned
        · exact .inl ⟨j, List.mem_append_left _ hj, hrest⟩
        · exact .inr hassigned
      · exact enqueueStage_hasWork ..
  · exact hs

theorem cancelRun_halted {s : Db} {now : Instant} {rid : RunId} {run : PipelineRun}
    (hrun : s.runs[rid]? = some run) : (cancelRun s now rid).board.Halted rid := by
  unfold cancelRun
  simp only [hrun]
  split
  · rename_i hterm
    refine ⟨run, hrun, ?_⟩
    intro hst
    rw [hst] at hterm
    cases hterm
  · simp only [board_emit, board_releaseAllReservations, board_updateRun]
    refine ⟨run.cancel now, Table.get_modify_self ?_, fun h => nomatch h⟩
    exact (congrArg (fun l => l[rid]?) (cancelAssignments_runs now _ s)).trans hrun

/-! ## Every operation -/

/-- The job that an operation processes. -/
def Op.processes (o : Op) : Option JobId :=
  match o.action with
  | .processLeasedJob jid .. => some jid
  | _ => none

/-- The operation hands the pending work of a run on: a job is neither exhausted nor finished
against a closed assignment, no result leads a running run to a gate while another is
awaiting, and a decision that resumes a run leads to a stage that ends it or can be worked on. -/
def HandsOn (cfg : Config) (s : Db) (o : Op) : Prop :=
  (∀ jid ∈ o.processes, ∀ job ∈ s.jobs[jid]?, ∀ rid ∈ job.worksFor, job.HandsOn cfg s rid) ∧
  (∀ report ∈ o.reports, ∀ a ∈ s.assignments[report.1]?,
    ∀ row ∈ routeTarget cfg s.board a.pipelineRunId a.stage .onSuccess report.2,
    row.isTerminal = false → row.isReviewGate = true →
    s.statusOf a.pipelineRunId = some .running → awaitingGates s a.pipelineRunId = []) ∧
  (∀ verdict ∈ o.delivers s, LeadsOut cfg s verdict.1 verdict.2)

/-- What is kept along a run of the system. -/
structure Progressing (cfg : Config) (s : Db) : Prop where
  sane : s.board.Sane
  keyed : s.board.Keyed
  synced : s.Synced
  served : s.board.Served cfg

/-- A run that the operation does not move. -/
theorem exec_servedAt {s : Db} {o : Op} {rid : RunId} (hs : Progressing cfg s)
    (hstart : o.starts = none) (hmoves : ¬ o.moves s rid)
    (hspends : ∀ run, s.runs[rid]? = some run → run.underway cfg = true →
      o.spends s rid run.currentStage →
      (exec cfg s o).board.HasWork rid run.currentStage ∨ (exec cfg s o).board.Halted rid) :
    (exec cfg s o).board.ServedAt cfg rid := by
  refine Writes.servedAt (exec_writes cfg o fun _ => hs.sane) ?_ hmoves hspends (hs.served rid)
  intro definition h
  change definition ∈ o.starts at h
  rw [hstart] at h
  cases h

/-- What holds before and after a call that does not raise holds after the transaction. -/
theorem commit_induction {P : Board → Prop} {s : Db} {c : Call} (hs : P s.board)
    (hc : c.raised = none → P c.db.board) : P (c.commit s).board := by
  unfold Call.commit
  cases h : c.raised with
  | some e => exact hs
  | none => exact hc h

theorem ofExcept_induction {P : Board → Prop} {s : Db} {e : Except Err Db} (hs : P s.board)
    (he : ∀ s', e = .ok s' → P s'.board) : P ((Call.ofExcept s e).commit s).board := by
  cases e with
  | error _ => exact hs
  | ok s' => exact he s' rfl

theorem delivery_served {s : Db} {o : Op} {gid : GateId} {approved : Bool} (hs : Progressing cfg s)
    (hdelivers : o.delivers s = some (gid, approved)) (hcond : LeadsOut cfg s gid approved)
    (hstart : o.starts = none) (hspends : ∀ rid stage, ¬ o.spends s rid stage)
    (hmoves : ∀ rid, o.moves s rid → ∃ g, s.gates[gid]? = some g ∧ g.pipelineRunId = rid) :
    (exec cfg s o).board.Served cfg := by
  intro rid
  by_cases hmoved : o.moves s rid
  · obtain ⟨g, hg, rfl⟩ := hmoves rid hmoved
    obtain ⟨s1, hdelivered⟩ := call_delivered cfg hdelivers
    exact commit_induction (P := fun b => b.ServedAt cfg g.pipelineRunId) (hs.served _)
      fun _ => hdelivered.servedAt hg hcond (hs.served _)
  · exact exec_servedAt hs hstart hmoved fun _ _ _ h => absurd h (hspends _ _)

theorem exec_served {s : Db} {o : Op} (hs : Progressing cfg s)
    (hinternal : o.action.isInternal = false) (ho : HandsOn cfg s o) :
    (exec cfg s o).board.Served cfg := by
  obtain ⟨hjobs, hreports, hverdicts⟩ := ho
  obtain ⟨now, action⟩ := o
  cases action with
  | startRun ws item definition =>
      exact commit_induction (P := Board.Served cfg) hs.served fun _ => startRun_served hs.served
  | processLeasedJob jid rows jitter =>
      intro rid
      refine exec_servedAt hs rfl (fun h => h) ?_
      rintro run hrun hway ⟨job, hjob, hwork, href, hstage⟩
      have hcond := hjobs jid rfl job hjob rid (by simp [JobSchedule.worksFor, href, hwork])
      exact ofExcept_induction (P := fun b => b.HasWork rid run.currentStage ∨ b.Halted rid)
        (.inl (hs.served rid run hrun hway)) fun _ => processLeasedJob_handsOn hjob hwork href
          hs.keyed (hs.served rid) hcond hrun hway hstage
  | submitResult aid success result errorMessage worker jitter =>
      intro rid
      by_cases hmoved : Op.moves s ⟨now, .submitResult aid success result errorMessage worker
        jitter⟩ rid
      · obtain ⟨rfl, a, ha, rfl⟩ := hmoved
        exact commit_induction (P := fun b => b.ServedAt cfg a.pipelineRunId) (hs.served _)
          (submitResult_servedAt hs.synced ha (hreports _ rfl a ha))
      · -- a run that is not led on keeps its work, is retried or fails
        refine exec_servedAt hs rfl hmoved ?_
        rintro run hrun hway ⟨a, ha, rfl, hstage⟩
        cases success with
        | true => exact absurd ⟨rfl, a, ha, rfl⟩ hmoved
        | false =>
            refine commit_induction (P := fun b => b.HasWork a.pipelineRunId run.currentStage
              ∨ b.Halted a.pipelineRunId) (.inl (hs.served _ run hrun hway)) fun hraised => ?_
            obtain ⟨_, a', ha', hcase⟩ := submitResult_failure hraised
            rw [ha] at ha'
            cases ha'
            rcases hcase with hnone | hwork | hfailed
            · rw [hrun] at hnone
              cases hnone
            · rw [← hstage]
              exact .inl hwork
            · exact .inr (Db.halted .failed hfailed (by decide))
  | recoverAssignment aid reason detail =>
      intro rid
      exact ofExcept_induction (P := fun b => b.ServedAt cfg rid) (hs.served rid)
        fun _ => recoverAssignment_servedAt (hs.served rid)
  | reapExpiredLeases batchSize rows =>
      intro rid
      exact ofExcept_induction (P := fun b => b.ServedAt cfg rid) (hs.served rid)
        fun _ => recoverEach_servedAt _ (hs.served rid)
  | reapWorkerAssignments wid reason batchSize detail rows =>
      intro rid
      exact ofExcept_induction (P := fun b => b.ServedAt cfg rid) (hs.served rid)
        fun _ => reapWorkerBatches_servedAt _ (hs.served rid)
  | dispatchOne eid =>
      cases hv : deliveredVerdict s eid with
      | none =>
          refine fun rid => exec_servedAt hs rfl ?_ fun _ _ _ h => False.elim h
          rintro ⟨gid, approved, h, _⟩
          rw [hv] at h
          cases h
      | some v =>
          refine delivery_served hs hv (hverdicts v hv) rfl (fun _ _ h => h) ?_
          rintro rid ⟨gid, approved, h, hg⟩
          rw [hv] at h
          cases h
          exact hg
  | submitAndDeliver gid reviewer approved notes =>
      exact delivery_served hs rfl (hverdicts _ rfl) rfl (fun _ _ h => h) fun _ h => h
  | decideReviewGate ws gid reviewer approved expected notes =>
      exact delivery_served hs rfl (hverdicts _ rfl) rfl (fun _ _ h => h) fun _ h => h
  | cancelRun rid' =>
      intro rid
      refine exec_servedAt hs rfl (fun h => h) ?_
      rintro run hrun _ rfl
      exact .inr (cancelRun_halted hrun)
  | pauseForReview | handleStageTimeout | retryFailedJobs =>
      exact absurd hinternal.symm Bool.false_ne_true
  | pollAndLease | reapExpiredJobLeases | dispatchStage | claimAssignment | acknowledge
  | renewLease | submitReviewDecision | editReviewGateContent | handleReviewTimeout
  | reserveSpend =>
      exact fun rid => exec_servedAt hs rfl (fun h => h) fun _ _ _ h => False.elim h

theorem exec_progressing {s : Db} {o : Op} (hs : Progressing cfg s)
    (hinternal : o.action.isInternal = false) (ho : HandsOn cfg s o) :
    Progressing cfg (exec cfg s o) :=
  ⟨exec_sane cfg o hs.sane, exec_keyed o hs.sane hs.keyed, exec_synced hs.synced,
    exec_served hs hinternal ho⟩

theorem Fresh.progressing {s : Db} (h : Fresh s) : Progressing cfg s := by
  refine ⟨h.sane, h.keyed, h.synced, fun rid run hrun => ?_⟩
  rw [show s.board.runs = [] from h.runs] at hrun
  cases hrun

/-- The orchestration without internal calls, where every operation hands the work on. -/
def handingOn (cfg : Config) : System Db Op :=
  (orchestration cfg fun _ o => o.action.isInternal = false).restrict (HandsOn cfg)

/-- **No run is stranded**, in every run of the system whose operations hand the work on. -/
theorem no_run_stranded (cfg : Config) {s : Db} (h : (handingOn cfg).Reachable s) :
    s.board.Served cfg := by
  have hprogressing : Progressing cfg s := by
    refine h.invariant (I := Progressing cfg) ?_ ?_
    · intro s hinit
      exact Fresh.progressing hinit
    · intro s o hs hallowed
      exact exec_progressing hs hallowed.1 hallowed.2
  exact hprogressing.served

/-! ## The desk's workflow, and one with a rework edge -/

instance (cfg : Config) (s : Db) (job : JobSchedule) (rid : RunId) :
    Decidable (job.HandsOn cfg s rid) :=
  inferInstanceAs (Decidable (∀ run ∈ s.runs[rid]?, run.underway cfg = true →
    job.refTable = run.currentStage.value → (_ → _) ∧ (_ → _ → ∀ a ∈ assignmentByKey s
      job.workspaceId (job.dispatchArgs rid).key, a.status.isOpen = true)))

instance (cfg : Config) (s : Db) (gid : GateId) (approved : Bool) :
    Decidable (LeadsOut cfg s gid approved) :=
  inferInstanceAs (Decidable (∀ g ∈ s.gates[gid]?, _ → ∃ row ∈ routeTarget cfg s.board
    g.pipelineRunId g.stage (reviewTrigger approved) [], _ ∨ _))

instance (cfg : Config) (s : Db) (o : Op) : Decidable ((handingOn cfg).allowed s o) :=
  inferInstanceAs (Decidable (o.action.isInternal = false ∧
    (∀ jid ∈ o.processes, ∀ job ∈ s.jobs[jid]?, ∀ rid ∈ job.worksFor, job.HandsOn cfg s rid) ∧
    (∀ report ∈ o.reports, ∀ a ∈ s.assignments[report.1]?,
      ∀ row ∈ routeTarget cfg s.board a.pipelineRunId a.stage .onSuccess report.2, _ → _ → _ → _) ∧
    (∀ verdict ∈ o.delivers s, LeadsOut cfg s verdict.1 verdict.2)))

instance (b : Board) (rid : RunId) (stage : ContentStage) : Decidable (b.HasWork rid stage) :=
  inferInstanceAs (Decidable ((∃ j ∈ b.jobs, _) ∨ ∃ a ∈ b.assignments, _))

/-- The draft is being written: its run is underway, and served. -/
theorem drafting_run_served :
    ((runOps deskConfig deskDb (draftedOps.take 3)).runs[0]?).any
        (PipelineRun.underway deskConfig) = true ∧
      (runOps deskConfig deskDb (draftedOps.take 3)).board.Served deskConfig :=
  ⟨by decide +kernel, no_run_stranded deskConfig (System.Reachable.of_legal
    (draftedOps.take 3) (.init deskDb_fresh) (by decide +kernel))⟩

/-- The desk's workflow where a rejected draft is written again. -/
def reworkConfig : Config :=
  configOf (deskWorkflowWith
    [{ fromStage := .review, toStage := .scripting, trigger := .onReviewRejected }])

/-- The draft is rejected, and the job for the second draft is leased and processed. -/
def reworkedOps : List Op :=
  draftedOps ++ [⟨4, .submitAndDeliver 0 7 false none⟩, ⟨5, .pollAndLease 10 [2]⟩,
    ⟨6, .processLeasedJob 2 [0] 0⟩]

/-- The second draft has the key of the first, which is completed: the job is done, and the run
is running with nothing to do. -/
theorem reworked_run_stranded :
    ∃ s, (orchestration reworkConfig fun _ o => o.action.isInternal = false).Reachable s ∧
      ¬ s.board.Served reworkConfig := by
  refine ⟨runOps reworkConfig deskDb reworkedOps, System.Reachable.of_legal reworkedOps
    (.init deskDb_fresh) ?_, ?_⟩
  · exact ⟨rfl, rfl, rfl, rfl, rfl, rfl, rfl, trivial⟩
  · intro h
    have hidle : ∃ run ∈ (runOps reworkConfig deskDb reworkedOps).runs[0]?,
        run.underway reworkConfig = true ∧
        ¬ (runOps reworkConfig deskDb reworkedOps).board.HasWork 0 run.currentStage := by
      decide +kernel
    obtain ⟨run, hrun, hway, hnone⟩ := hidle
    exact hnone (h 0 run hrun hway)

end HumanGate
