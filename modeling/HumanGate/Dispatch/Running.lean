import HumanGate.Fleet.Moves
import HumanGate.Model.Desk
import HumanGate.Review.Timeout

set_option autoImplicit false

/-! # Work is handed out for running runs

Work reaches a worker on two paths. `dispatch_stage` looks at the run's status and refuses a run
that is over or paused. `claim_assignment` takes a row from the queue and never looks at the
run: a row that became pending while the run was running stays claimable when the run has been
paused or has ended in the meantime (`paused_run_handed_out`). `PendingRunning` says that no
such row is in reach of a worker; it is exactly what keeps its claims to running runs.
-/

namespace HumanGate

open Lib Lib.Calendar Relation

variable {cfg : Config}

/-! ## Run statuses -/

/-- A run is never left `created` or `compensating`. -/
def Board.Settled (b : Board) : Prop :=
  ∀ run ∈ b.runs, run.status ≠ .created ∧ run.status ≠ .compensating

theorem RunWrite.settled {sc : Scope} {b : Board} {rid : RunId} {f : PipelineRun → PipelineRun}
    (h : RunWrite cfg sc b rid f) {run : PipelineRun}
    (hrun : run.status ≠ .created ∧ run.status ≠ .compensating) :
    (f run).status ≠ .created ∧ (f run).status ≠ .compensating := by
  cases h with
  | reopen _ =>
      unfold PipelineRun.reopen
      split
      · exact ⟨by simp, by simp⟩
      · exact hrun
  | enter | clearReason => exact hrun
  | _ => exact ⟨by nofun, by nofun⟩

theorem Write.settled {sc : Scope} {b b' : Board} (h : Write cfg sc b b') (hb : b.Settled) :
    b'.Settled := by
  cases h with
  | startRun _ _ hst => exact Table.forall_push hb (by rw [hst]; exact ⟨by simp, by simp⟩)
  | run hf => exact Table.forall_modify hb fun run hrun =>
    hf.settled (hb run (Table.mem_of_get hrun))
  | newJob | job | newAssignment | assignment | worker | newGate | gate | decision => exact hb

theorem orchestration_settled {allowed : Db → Op → Prop} {s : Db}
    (h : (orchestration cfg allowed).Reachable s) : s.board.Settled := by
  have hboth : s.board.Sane ∧ s.board.Settled := by
    refine h.invariant (I := fun s => s.board.Sane ∧ s.board.Settled) ?_ ?_
    · intro s hinit
      refine ⟨Fresh.sane hinit, fun run hrun => ?_⟩
      rw [show s.board.runs = [] from hinit.runs] at hrun
      cases hrun
    · intro s o hs _
      exact ⟨exec_sane cfg o hs.1, (exec_writes cfg o fun _ => hs.1).invariant
        (I := Board.Settled) (fun _ _ => Write.settled) hs.2⟩
  exact hboth.2

/-- A run that is neither over nor paused is running. -/
theorem Board.Settled.running {s : Db} (hs : s.board.Settled) {rid : RunId} {run : PipelineRun}
    (hrun : s.runs[rid]? = some run) (hterm : run.status.isTerminal = false)
    (hpaused : run.status ≠ .paused) : s.statusOf rid = some .running := by
  have hknown := hs run (Table.mem_of_get hrun)
  unfold Db.statusOf
  rw [hrun]
  cases hst : run.status <;> simp_all [PipelineRunStatus.isTerminal]

/-! ## Handing out -/

/-- Every assignment that the operation turns `DISPATCHED` is one of a run that is `RUNNING`
afterwards. -/
def HandsOutForRunning (cfg : Config) (s : Db) (o : Op) : Prop :=
  ∀ (aid : AssignmentId) (a : StageAssignment), (exec cfg s o).assignments[aid]? = some a →
    a.status = .dispatched → (s.assignments[aid]?).map StageAssignment.status ≠ some .dispatched →
    (exec cfg s o).statusOf a.pipelineRunId = some .running

/-- Rows that are `DISPATCHED` in `c` were so in `c₀`, for the same run. -/
def NoneHandedOut (c₀ c : Crew) : Prop :=
  ∀ (aid : AssignmentId) (a : StageAssignment), c.assignments[aid]? = some a →
    a.status = .dispatched → ∃ a₀ : StageAssignment, c₀.assignments[aid]? = some a₀ ∧
      a₀.status = .dispatched ∧ a₀.pipelineRunId = a.pipelineRunId

theorem RowMove.not_dispatched {now : Instant} {k : MoveKind} {a a' : StageAssignment}
    (h : RowMove cfg now a k a') (hk : k ≠ .claim) (hst : a'.status = .dispatched) :
    a.status = .dispatched ∧ a'.pipelineRunId = a.pipelineRunId := by
  cases h with
  | claim => exact absurd rfl hk
  | extend => exact ⟨hst, rfl⟩
  | close success => cases success <;> cases hst
  | acknowledge | confirm | requeue | exhaust | cancel => cases hst

/-- Only an assignment by the dispatcher and a claim hand out work. -/
theorem Moves.noneHandedOut {now : Instant} {kinds : List MoveKind} {c c' : Crew}
    (h : Moves cfg now kinds c c') (hassign : .assign ∉ kinds) (hclaim : .claim ∉ kinds) :
    NoneHandedOut c c' := by
  refine h.invariant (I := NoneHandedOut c) ?_ fun aid a ha hst => ⟨a, ha, hst, rfl⟩
  intro k hk c₁ c₂ hmove hc aid a ha hst
  rcases hmove.row ha with hold | ⟨a₁, ha₁, hrow⟩ | ⟨_, hnew⟩
  · exact hc aid a hold hst
  · obtain ⟨hst₁, hrun⟩ := hrow.not_dispatched (fun heq => hclaim (heq ▸ hk)) hst
    obtain ⟨a₀, ha₀, hst₀, hrun₀⟩ := hc aid a₁ ha₁ hst₁
    exact ⟨a₀, ha₀, hst₀, hrun₀.trans hrun.symm⟩
  · cases hnew with
    | queue args stage heq =>
        rw [heq] at hst
        cases hst
    | assign => exact absurd hk hassign

theorem NoneHandedOut.handsOutForRunning {s : Db} {o : Op}
    (h : NoneHandedOut s.crew (exec cfg s o).crew) : HandsOutForRunning cfg s o := by
  intro aid a ha hst hnew
  obtain ⟨a₀, ha₀, hst₀, _⟩ := h aid a ha hst
  refine absurd ?_ hnew
  rw [show s.assignments[aid]? = some a₀ from ha₀]
  exact congrArg some hst₀

/-! ## Dispatching -/

/-- After a dispatch: what is `DISPATCHED` was so before, or belongs to a running run. -/
theorem Placed.running {s s' : Db} {now : Instant} {args : DispatchArgs} {rows : List WorkerId}
    {outcome : DispatchOutcome} (h : Placed cfg s now args rows s' outcome)
    (hs : s.board.Settled) {aid : AssignmentId} {a : StageAssignment}
    (ha : s'.assignments[aid]? = some a) :
    s.assignments[aid]? = some a ∨ s'.statusOf a.pipelineRunId = some .running := by
  cases h with
  | nothing hcrew _ =>
      have hassign : s'.assignments = s.assignments := congrArg Crew.assignments hcrew
      rw [hassign] at ha
      exact .inl ha
  | placed stage worker hrun hterm hpaused _ hcrew hruns _ =>
      have hassign := congrArg Crew.assignments hcrew
      rw [Crew.slot_assignments] at hassign
      rw [show s'.assignments = _ from hassign] at ha
      rcases Table.get_push ha with hold | ⟨_, rfl⟩
      · exact .inl hold
      · right
        show (s'.runs[args.pipelineRunId]?).map _ = _
        rw [hruns]
        exact hs.running hrun hterm hpaused

theorem settleJob_runs {s s' : Db} {now : Instant} {jid : JobId} {job : JobSchedule}
    {rid : RunId} {jitter : Nat} {outcome : DispatchOutcome}
    (h : settleJob s now jid job rid jitter outcome = .ok s') : s'.runs = s.runs := by
  have hrelease : ∀ t : Db, ∀ ws, (releaseAllReservations t now rid ws).runs = t.runs :=
    fun t ws => congrArg Board.runs (board_releaseAllReservations ..)
  cases outcome with
  | spendHold | skipped | dispatched | idempotent | noWorker =>
      cases h
      rfl
  | backpressure =>
      change rescheduleJob s now jid job rid jitter = .ok s' at h
      unfold rescheduleJob at h
      split at h
      · unfold exhaustJob at h
        simp only at h
        split at h
        · cases h
          rfl
        · split at h
          · cases h
          · cases h
            exact (cancelAssignments_runs now _ _).trans (hrelease _ _)
      · cases h
        rfl

theorem processWorkJob_running {s s' : Db} {now : Instant} {jid : JobId} {job : JobSchedule}
    {rid : RunId} {rows : List WorkerId} {jitter : Nat} {outcome : DispatchOutcome}
    (h : processWorkJob cfg s now jid job rid rows jitter = .ok (s', outcome))
    (hs : s.board.Settled) {aid : AssignmentId} {a : StageAssignment}
    (ha : s'.assignments[aid]? = some a) (hst : a.status = .dispatched) :
    (s.assignments[aid]?).map StageAssignment.status = some .dispatched ∨
      s'.statusOf a.pipelineRunId = some .running := by
  unfold processWorkJob at h
  split at h
  · cases h
  · rename_i s1 out hdispatch
    split at h
    · cases h
    · rename_i s2 hsettle
      cases h
      -- settling the job hands nothing out
      have hmoves : Moves cfg now [.cancel] s1.crew s'.crew := settleJob_moves hsettle
      obtain ⟨a₁, ha₁, hst₁, hrun₁⟩ := hmoves.noneHandedOut (by simp) (by simp) aid a ha hst
      rcases (dispatchStage_placed hdispatch).running hs ha₁ with hold | hrunning
      · left
        rw [hold]
        exact congrArg some hst₁
      · right
        unfold Db.statusOf
        rw [settleJob_runs hsettle, ← hrun₁]
        exact hrunning

theorem processLeasedJob_running {s s' : Db} {now : Instant} {jid : JobId} {rows : List WorkerId}
    {jitter : Nat} (h : processLeasedJob cfg s now jid rows jitter = .ok s')
    (hs : s.board.Settled) {aid : AssignmentId} {a : StageAssignment}
    (ha : s'.assignments[aid]? = some a) (hst : a.status = .dispatched) :
    (s.assignments[aid]?).map StageAssignment.status = some .dispatched ∨
      s'.statusOf a.pipelineRunId = some .running := by
  rcases processLeasedJob_work h with ⟨job, rid, outcome, _, _, hp⟩ | hcrew
  · exact processWorkJob_running hp hs ha hst
  · left
    have hassign : s'.assignments = s.assignments := congrArg Crew.assignments hcrew
    rw [← hassign, ha]
    exact congrArg some hst

/-- A step other than a claim hands out work only for running runs. -/
theorem exec_handsOutForRunning {s : Db} {o : Op} (hs : s.board.Settled)
    (ho : ∀ wid token ws rows, o.action ≠ .claimAssignment wid token ws rows) :
    HandsOutForRunning cfg s o := by
  have hmoves := exec_moves cfg s o
  obtain ⟨now, action⟩ := o
  cases action with
  | claimAssignment wid token ws rows => exact absurd rfl (ho wid token ws rows)
  | dispatchStage args rows =>
      intro aid a ha hst hnew
      rcases commit_ofExcept (t := exec cfg s ⟨now, .dispatchStage args rows⟩) rfl
        with hexec | ⟨s', hok, hexec⟩
      · rw [hexec] at ha
        rw [ha] at hnew
        exact absurd (congrArg some hst) hnew
      · obtain ⟨r, hd, rfl⟩ := map_ok hok
        rw [hexec] at ha ⊢
        rcases (dispatchStage_placed hd).running hs ha with hold | hrunning
        · rw [hold] at hnew
          exact absurd (congrArg some hst) hnew
        · exact hrunning
  | processLeasedJob jid rows jitter =>
      intro aid a ha hst hnew
      rcases commit_ofExcept (t := exec cfg s ⟨now, .processLeasedJob jid rows jitter⟩) rfl
        with hexec | ⟨s', hok, hexec⟩
      · rw [hexec] at ha
        rw [ha] at hnew
        exact absurd (congrArg some hst) hnew
      · rw [hexec] at ha ⊢
        rcases processLeasedJob_running hok hs ha hst with hold | hrunning
        · exact absurd hold hnew
        · exact hrunning
  | acknowledge aid secs worker =>
      cases worker <;>
        exact (hmoves.noneHandedOut (by simp [Action.kinds])
          (by simp [Action.kinds])).handsOutForRunning
  | _ =>
      exact (hmoves.noneHandedOut (by simp [Action.kinds])
        (by simp [Action.kinds])).handsOutForRunning

/-! ## Claiming -/

/-- Every pending assignment that the worker could be granted at this instant belongs to a
`RUNNING` run. It could be granted if the worker passes the checks on itself, supports the
stage and serves the workspace, and the provider budget and the spend gate let it pass. -/
def PendingRunning (cfg : Config) (s : Db) (now : Instant) (wid : WorkerId) : Prop :=
  ∀ w ∈ s.workers[wid]?, MayClaim cfg now w → ∀ a ∈ s.assignments, claimable w a = true →
    hasProviderCapacity cfg s a.workspaceId a.provider = true → spendAdmits cfg s now a = true →
    s.statusOf a.pipelineRunId = some .running

theorem claim_handsOutForRunning {s : Db} {now : Instant} {wid : WorkerId}
    (h : PendingRunning cfg s now wid) (token : Option ClaimToken) (ws : Option WorkspaceId)
    (rows : List AssignmentId) :
    HandsOutForRunning cfg s ⟨now, .claimAssignment wid token ws rows⟩ := by
  intro aid a ha hst hnew
  rcases commit_ofExcept (t := exec cfg s ⟨now, .claimAssignment wid token ws rows⟩) rfl
    with hexec | ⟨s', hok, hexec⟩
  · rw [hexec] at ha
    rw [ha] at hnew
    exact absurd (congrArg some hst) hnew
  · obtain ⟨r, hc, rfl⟩ := map_ok hok
    rw [hexec] at ha ⊢
    have hclaimed := claimAssignment_claimed hc
    change r.db.assignments[aid]? = some a at ha
    change r.db.statusOf a.pipelineRunId = some .running
    generalize r.db = t at ha hclaimed ⊢
    cases hclaimed with
    | nothing hcrew =>
        have hassign : t.assignments = s.assignments := congrArg Crew.assignments hcrew
        rw [hassign] at ha
        rw [ha] at hnew
        exact absurd (congrArg some hst) hnew
    | @granted w aid' a' hw hmay hcand hspend hcrew hruns =>
        obtain ⟨ha', hclaimable, hcap⟩ := claimCandidate_spec hcand
        have hassign : t.assignments = _ := congrArg Crew.assignments hcrew
        unfold Crew.give at hassign
        rw [Crew.slot_assignments] at hassign
        rw [hassign] at ha
        have hrunning := h w hw hmay a' (Table.mem_of_get ha') hclaimable hcap hspend
        unfold Db.statusOf at hrunning ⊢
        rw [hruns]
        obtain ⟨a₀, ha₀, ⟨heq, rfl⟩ | ⟨_, rfl⟩⟩ := Table.get_modify ha
        · -- the granted row
          subst heq
          have hsame : s.assignments[aid']? = some a₀ := ha₀
          rw [ha'] at hsame
          cases hsame
          exact hrunning
        · rw [show s.assignments[aid]? = some a from ha₀] at hnew
          exact absurd (congrArg some hst) hnew

/-- A pending assignment in reach of the worker is granted by the claim that finds it alone. -/
theorem claim_grants {s : Db} {now : Instant} {wid : WorkerId} {w : WorkerRegistration}
    {aid : AssignmentId} {a : StageAssignment} (hw : s.workers[wid]? = some w)
    (hmay : MayClaim cfg now w) (ha : s.assignments[aid]? = some a)
    (hclaimable : claimable w a = true)
    (hcap : hasProviderCapacity cfg s a.workspaceId a.provider = true)
    (hspend : spendAdmits cfg s now a = true) :
    ∃ r, claimAssignment cfg s now wid none none [aid] = .ok r ∧
      r.db.crew = s.crew.give cfg now aid wid none ∧ r.db.runs = s.runs := by
  have hcand : claimCandidate cfg s now w [aid] = some (aid, a) := by
    have hsat : saturatedProviderPair cfg s a = false := by
      rw [hasProviderCapacity_eq_not_saturated] at hcap
      simpa using hcap
    simp [claimCandidate, assignmentRows, ha, hclaimable, hsat]
  have hfresh : claimAssignment cfg s now wid none none [aid]
      = claimWithSpend cfg s now wid w aid a none none := by
    simp [claimAssignment, claimFresh, hw, hmay.1, hmay.2, hcand]
  cases hc : claimWithSpend cfg s now wid w aid a none none with
  | ok r =>
      rcases claimWithSpend_claimed hc with ⟨_, hcrew, hruns⟩ | ⟨hno, _⟩
      · exact ⟨r, hfresh.trans hc, hcrew, hruns⟩
      · rw [hspend] at hno
        cases hno
  | error e =>
      -- the only exception is for two open reservations, and the gate does not admit those
      exfalso
      unfold claimWithSpend at hc
      unfold spendAdmits at hspend
      split at hc
      · cases hc
      · rename_i run hrun
        simp only [hrun] at hspend
        split at hc
        · rename_i hopen
          simp [hopen] at hspend
        · cases hc
        · simp only at hc
          split at hc <;> cases hc

theorem claim_hands_out_otherwise {s : Db} {now : Instant} {wid : WorkerId}
    (h : ¬ PendingRunning cfg s now wid) :
    ∃ rows, ¬ HandsOutForRunning cfg s ⟨now, .claimAssignment wid none none rows⟩ := by
  unfold PendingRunning at h
  push Not at h
  obtain ⟨w, hw, hmay, a, hmem, hclaimable, hcap, hspend, hstatus⟩ := h
  obtain ⟨aid, ha⟩ := List.mem_iff_getElem?.mp hmem
  refine ⟨[aid], fun hout => hstatus ?_⟩
  obtain ⟨r, hc, hcrew, hruns⟩ := claim_grants hw hmay ha hclaimable hcap hspend
  have hexec : exec cfg s ⟨now, .claimAssignment wid none none [aid]⟩ = r.db.flush := by
    simp [exec, Op.call, hc, Except.map, Call.ofExcept, Call.commit]
  -- the row was pending, and it is dispatched now
  have hrow : (exec cfg s ⟨now, .claimAssignment wid none none [aid]⟩).assignments[aid]?
      = some { a.claim cfg now wid none with updatedAt := now } := by
    rw [hexec]
    have hassign : r.db.assignments = _ := congrArg Crew.assignments hcrew
    unfold Crew.give at hassign
    rw [Crew.slot_assignments] at hassign
    show r.db.assignments[aid]? = _
    rw [hassign]
    exact Table.get_modify_self ha
  have hpending : a.status = .pending := by
    unfold claimable at hclaimable
    simp only [Bool.and_eq_true, beq_iff_eq] at hclaimable
    exact hclaimable.1.1
  have hrunning := hout aid _ hrow rfl (by rw [ha]; simp [hpending])
  rw [hexec] at hrunning
  unfold Db.statusOf at hrunning ⊢
  rw [← hruns]
  exact hrunning

/-! ## Runs of the system -/

/-- The worker that an operation claims for. -/
def Op.claims (o : Op) : Option WorkerId :=
  match o.action with
  | .claimAssignment wid .. => some wid
  | _ => none

/-- A claim is made only while what the worker could be granted belongs to running runs. -/
def ClaimsForRunning (cfg : Config) (s : Db) (o : Op) : Prop :=
  ∀ wid ∈ o.claims, PendingRunning cfg s o.now wid

/-- The orchestration with such claims only. -/
def claimingForRunning (cfg : Config) : System Db Op :=
  (orchestration cfg fun _ _ => True).restrict (ClaimsForRunning cfg)

/-- **Work is handed out only for running runs**, in every run of the system whose claims find
only work of running runs in reach. And a worker that has other work in reach, in any state of any
run, has a claim that hands it out: the one whose scan finds that row alone, as it does where other
transactions hold the locks of the rows before it. -/
theorem work_handed_out_for_running_runs (cfg : Config) :
    (∀ s o, (claimingForRunning cfg).Reachable s → (claimingForRunning cfg).allowed s o →
      HandsOutForRunning cfg s o) ∧
    ∀ s now wid, (orchestration cfg fun _ _ => True).Reachable s →
      ¬ PendingRunning cfg s now wid →
      ∃ rows, ¬ HandsOutForRunning cfg s ⟨now, .claimAssignment wid none none rows⟩ := by
  refine ⟨fun s o hs ho => ?_, fun s now wid _ hout => claim_hands_out_otherwise hout⟩
  -- only a claim hands out without reading the run
  by_cases hclaim : ∃ wid token ws rows, o.action = .claimAssignment wid token ws rows
  · obtain ⟨wid, token, ws, rows, haction⟩ := hclaim
    obtain ⟨now, action⟩ := o
    cases haction
    exact claim_handsOutForRunning (ho.2 wid rfl) token ws rows
  · push Not at hclaim
    exact exec_handsOutForRunning (orchestration_settled hs.of_restrict) hclaim

/-! ## Two runs and one cap -/

instance (cfg : Config) (now : Instant) (w : WorkerRegistration) : Decidable (MayClaim cfg now w) :=
  inferInstanceAs (Decidable (_ ∧ _))

instance (cfg : Config) (s : Db) (now : Instant) (wid : WorkerId) :
    Decidable (PendingRunning cfg s now wid) :=
  inferInstanceAs (Decidable (∀ w ∈ s.workers[wid]?, MayClaim cfg now w →
    ∀ a ∈ s.assignments, claimable w a = true →
      hasProviderCapacity cfg s a.workspaceId a.provider = true → spendAdmits cfg s now a = true →
      s.statusOf a.pipelineRunId = some .running))

instance (cfg : Config) (s : Db) (o : Op) : Decidable ((claimingForRunning cfg).allowed s o) :=
  inferInstanceAs (Decidable (True ∧ ∀ wid ∈ o.claims, PendingRunning cfg s o.now wid))

/-- Two workers for scripts: the first takes one job at a time, the second is too unhealthy to
be selected but may claim. -/
def pairDb (cap : SpendCap) : Db :=
  { deskDb with
    workers := [{ deskWorker [.scripting] with maxConcurrency := 1 },
      { deskWorker [.scripting] with healthScore := 40 }]
    caps := [cap] }

/-- Two runs; the script of the first is dispatched, that of the second waits for a claim. -/
def pairOps : List Op :=
  [⟨0, .startRun 0 0 0⟩, ⟨0, .startRun 0 0 0⟩, ⟨1, .pollAndLease 10 [0, 1]⟩,
   ⟨2, .processLeasedJob 0 [0, 1] 0⟩, ⟨3, .processLeasedJob 1 [0, 1] 0⟩]

/-- The second worker asks for work. -/
def secondClaims : Op := ⟨4, .claimAssignment 1 none none [0, 1]⟩

/-- With room in the cap, the script of the running second run is handed out. -/
theorem running_run_handed_out :
    (exec deskConfig (runOps deskConfig (pairDb (wideCap 10 100)) pairOps)
      secondClaims).assignments.map
      StageAssignment.workerId = [some 0, some 1] ∧
    HandsOutForRunning deskConfig (runOps deskConfig (pairDb (wideCap 10 100)) pairOps)
      secondClaims :=
  ⟨by decide +kernel, (work_handed_out_for_running_runs deskConfig).1 _ secondClaims
    (.of_legal pairOps (.init ⟨rfl, rfl, rfl, rfl, rfl, rfl, rfl, rfl, rfl⟩) (by decide +kernel))
    (by decide +kernel)⟩

/-- A cap that leaves room for one script at a time. -/
def oneScriptCap : SpendCap := ⟨0, none, deskConfig.settings.defaultStageEstimateUsd, usd 100⟩

/-- The claim of the second run's script finds the cap exhausted and pauses the run; then the
first run fails and its reservation is released. -/
def heldPairOps : List Op :=
  pairOps ++ [secondClaims, ⟨5, .submitResult 0 false none "broken" (some 0) 0⟩]

/-- The next claim hands out the script of the paused run. -/
theorem paused_run_handed_out :
    ∃ s o, (orchestration deskConfig fun _ _ => True).Reachable s ∧
      (∃ wid token ws rows, o.action = .claimAssignment wid token ws rows) ∧
      s.statusOf 1 = some .paused ∧ ¬ HandsOutForRunning deskConfig s o := by
  refine ⟨runOps deskConfig (pairDb oneScriptCap) heldPairOps, secondClaims,
    runOps_reachable deskConfig ⟨rfl, rfl, rfl, rfl, rfl, rfl, rfl, rfl, rfl⟩ _,
    ⟨_, _, _, _, rfl⟩, by decide +kernel, fun h => ?_⟩
  have hrow : ((exec deskConfig (runOps deskConfig (pairDb oneScriptCap) heldPairOps)
      secondClaims).assignments[1]?).map (fun a => (a.status, a.pipelineRunId))
      = some (.dispatched, 1) := by
    decide +kernel
  obtain ⟨a, ha, heq⟩ := Option.map_eq_some_iff.mp hrow
  obtain ⟨hst, hrun⟩ := Prod.mk.inj heq
  have hrunning := h 1 a ha hst (by decide +kernel)
  rw [hrun] at hrunning
  exact absurd hrunning (by decide +kernel)

end HumanGate
