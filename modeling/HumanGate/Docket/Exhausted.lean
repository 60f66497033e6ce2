import HumanGate.Docket.Attempts
import HumanGate.Jobs.Letters

set_option autoImplicit false

/-! # Attempts that are used up

When an assignment whose attempts are used up fails or loses its worker, its run fails and a
dead-letter entry reports the stage (`Db.Exhausted`). Afterwards the run has no work item any more,
so nothing brings it back.

Only a result and a recovery turn an assignment `FAILED`. The other operations leave the failed
assignments and, as they add dead-letter entries only, what is reported of them.
-/

namespace HumanGate

open Lib Lib.Calendar Relation

variable {cfg : Config} {s t : Db} {now : Instant} {rid : RunId} {d d' : Docket}

/-! ## Dockets of runs that are over -/

/-- A run with an open assignment is not over. -/
def Docket.Working (d : Docket) : Prop :=
  d.rows ≠ [] → ∀ run, d.run = some run → run.status.isTerminal = false

/-- The run is pinned to the definition. -/
def Docket.PinnedTo (definition : Option DefinitionId) (d : Docket) : Prop :=
  d.run.map PipelineRun.definitionId = some definition

/-- The run has failed, and nobody works for it. -/
def Docket.Failed (d : Docket) : Prop :=
  ∃ run reserved, d = .idle (some run) reserved ∧ run.status = .failed

theorem Docket.Working.of_rows (h : d.rows = []) : d.Working := fun hrows => absurd h hrows

theorem Docket.Working.assigned {run : PipelineRun} {a : StageAssignment}
    {reserved : ContentStage → Nat} (h : run.status.isTerminal = false) :
    (Docket.assigned (some run) a reserved).Working := by
  intro _ run' hrun'
  cases hrun'
  exact h

theorem Docket.Working.run {run : PipelineRun} {a : StageAssignment}
    {reserved : ContentStage → Nat} (h : (Docket.assigned (some run) a reserved).Working) :
    run.status.isTerminal = false := h (List.cons_ne_nil _ _) run rfl

theorem Docket.Route.rows {run : PipelineRun} {fromStage : ContentStage}
    {reserved : ContentStage → Nat} (h : Docket.Route cfg now rid run fromStage reserved d) :
    d.rows = [] := by
  cases h <;> rfl

theorem Docket.Decided.rows {run : PipelineRun} {stage : ContentStage}
    {reserved : ContentStage → Nat} (h : Docket.Decided cfg now rid run stage reserved d) :
    d.rows = [] := by
  cases h with
  | routed hroute => exact hroute.rows
  | settled | rejected => rfl

theorem Docket.Turn.working (h : Docket.Turn cfg now rid d d') (hsound : d.Sound)
    (hd : d.Working) : d'.Working := by
  cases h with
  | start | wait | defer | hold | drop | giveUp | exhaust | close | retry | fail | revise
  | cancel => exact .of_rows rfl
  | queue hrun | assign hrun => exact .assigned hrun
  | claim | touch =>
      obtain ⟨run, rfl⟩ := hsound.run_assigned
      exact .assigned hd.run
  | claimHold => exact .assigned rfl
  | requeue => exact .assigned hd.run
  | advance _ _ hroute => exact .of_rows hroute.rows
  | decide hdecided => exact .of_rows hdecided.rows

theorem Docket.Route.pinnedTo {run : PipelineRun} {fromStage : ContentStage}
    {reserved : ContentStage → Nat} {definition : Option DefinitionId}
    (h : Docket.Route cfg now rid run fromStage reserved d)
    (hdef : run.definitionId = definition) : d.PinnedTo definition := by
  subst hdef
  cases h <;> rfl

theorem Docket.Turn.pinnedTo {definition : Option DefinitionId} (h : Docket.Turn cfg now rid d d')
    (hd : d.PinnedTo definition) : d'.PinnedTo definition := by
  cases h with
  | start => cases hd
  | wait | defer | hold | drop | giveUp | queue | assign | claim | claimHold | touch | requeue
  | exhaust | close | retry | revise | cancel => exact hd
  | fail _ hrun =>
      rcases hrun with rfl | rfl
      · exact hd
      · exact hd
  | advance _ _ hroute => exact hroute.pinnedTo (Option.some.inj hd)
  | decide hdecided =>
      cases hdecided with
      | routed hroute => exact hroute.pinnedTo (Option.some.inj hd)
      | settled hrun | rejected hrun =>
          rcases hrun with rfl | rfl
          · exact hd
          · exact hd

/-- A run that has failed takes no more turns. -/
theorem Docket.Failed.no_turn (hd : d.Failed) : ¬ Docket.Turn cfg now rid d d' := by
  obtain ⟨run, reserved, rfl, hst⟩ := hd
  generalize hidle : Docket.idle (some run) reserved = d
  intro h
  cases h with
  | start => cases hidle
  | wait | defer | hold | drop | giveUp | queue | assign | claim | claimHold | touch | requeue
  | exhaust | close | advance | retry | fail | decide | revise =>
      simp [Docket.idle, Docket.queued, Docket.assigned, Docket.gated] at hidle
  | cancel hrun =>
      cases hidle
      rw [hst] at hrun
      cases hrun

/-! ## Operations -/

theorem Proceeds.working (h : Proceeds cfg now s t) (hs : ∀ r, (s.docket r).Sound)
    (hw : ∀ r, (s.docket r).Working) : ∀ r, (t.docket r).Working := by
  intro r
  refine (h.invariant (I := fun _ d => d.Sound ∧ d.Working) ?_ (fun r => ⟨hs r, hw r⟩) r).2
  intro r d d' hturn hd
  exact ⟨hturn.sound hd.1, hturn.working hd.1 hd.2⟩

theorem Proceeds.pinnedTo {definition : Option DefinitionId} (h : Proceeds cfg now s t)
    (hd : (s.docket rid).PinnedTo definition) : (t.docket rid).PinnedTo definition := by
  refine h.invariant (I := fun r d => r = rid → d.PinnedTo definition) ?_ ?_ rid rfl
  · exact fun r d d' hturn hd hr => hturn.pinnedTo (hd hr)
  · rintro r rfl
    exact hd

/-- A run that has failed is left alone. -/
theorem Proceeds.failed (h : Proceeds cfg now s t) (hd : (s.docket rid).Failed) :
    (t.docket rid).Failed := by
  refine h.invariant (I := fun r d => r = rid → d.Failed) ?_ ?_ rid rfl
  · exact fun r d d' hturn hd hr => absurd hturn (hd hr).no_turn
  · rintro r rfl
    exact hd

/-! ## Giving up -/

/-- The same attempt at the same stage. -/
structure StageAssignment.SameAttempt (a' a : StageAssignment) : Prop where
  pipelineRunId : a'.pipelineRunId = a.pipelineRunId
  stage : a'.stage = a.stage
  attemptNumber : a'.attemptNumber = a.attemptNumber

/-- The entry is about the attempt: it names the run or the assignment, the stage and the number. -/
structure DeadLetterJob.Reports (e : DeadLetterJob) (aid : AssignmentId) (a : StageAssignment) :
    Prop where
  related : e.relatedId = .pipelineRun a.pipelineRunId ∨ e.relatedId = .stageAssignment aid
  stage : e.jobType = "stage:" ++ a.stage.formatted
  attempts : e.attemptCount = a.attemptNumber

/-- The run of the assignment has failed, and an entry reports it. -/
structure Db.GaveUp (s : Db) (aid : AssignmentId) (a : StageAssignment) : Prop where
  failed : (s.docket a.pipelineRunId).Failed
  reported : ∃ e ∈ s.deadLetters, e.Reports aid a

/-- Every assignment that has failed with its last attempt is given up. -/
def Db.Exhausted (cfg : Config) (s : Db) : Prop :=
  ∀ (aid : AssignmentId) (a : StageAssignment), s.assignments[aid]? = some a → a.status = .failed →
    ∃ run, s.runs[a.pipelineRunId]? = some run ∧
      (run.maxAttempts cfg a.stage ≤ a.attemptNumber → s.GaveUp aid a)

/-- The failed assignments after an operation: old ones, and new ones that are given up. -/
def Db.Fails (cfg : Config) (s t : Db) : Prop :=
  ∀ (aid : AssignmentId) (a : StageAssignment), t.assignments[aid]? = some a → a.status = .failed →
    (∃ a₀, s.assignments[aid]? = some a₀ ∧ a₀.status = .failed ∧ a.SameAttempt a₀) ∨
    ∃ run, t.runs[a.pipelineRunId]? = some run ∧
      (run.maxAttempts cfg a.stage ≤ a.attemptNumber → t.GaveUp aid a)

/-- What an operation has to show of the assignments that it fails. -/
theorem Db.Exhausted.step (hs : s.Exhausted cfg) (hproceeds : Proceeds cfg now s t)
    (hletters : s.deadLetters ⊆ t.deadLetters) (hfails : Db.Fails cfg s t) : t.Exhausted cfg := by
  intro aid a ha hst
  rcases hfails aid a ha hst with ⟨a₀, ha₀, hst₀, hsame⟩ | hnew
  · obtain ⟨run₀, hrun₀, hgave⟩ := hs aid a₀ ha₀ hst₀
    have hpin : (s.docket a₀.pipelineRunId).PinnedTo run₀.definitionId := congrArg _ hrun₀
    obtain ⟨run, hrun, hdef⟩ := Option.map_eq_some_iff.mp (hproceeds.pinnedTo hpin)
    rw [hsame.pipelineRunId, hsame.stage, hsame.attemptNumber]
    refine ⟨run, hrun, fun hmax => ?_⟩
    rw [maxAttempts_congr hdef] at hmax
    obtain ⟨hfailed, e, he, hreports⟩ := hgave hmax
    refine ⟨?_, e, hletters he, ?_⟩
    · rw [hsame.pipelineRunId]
      exact hproceeds.failed hfailed
    · refine ⟨?_, ?_, ?_⟩
      · rw [hsame.pipelineRunId]
        exact hreports.related
      · rw [hsame.stage]
        exact hreports.stage
      · rw [hsame.attemptNumber]
        exact hreports.attempts
  · exact hnew

/-! ## Results -/

/-- Without attempts left, a failed stage is given up. -/
theorem handleStageFailure_gaveUp {run : PipelineRun} {reserved : ContentStage → Nat}
    {stage : ContentStage} {stageText : String} {attempt : Nat} {errorMessage : String}
    {jitter : Nat} (hd : s.docket rid = .idle (some run) reserved)
    (hmax : run.maxAttempts cfg stage ≤ attempt)
    (h : handleStageFailure cfg s now rid stage stageText attempt errorMessage jitter = .ok t) :
    (t.docket rid).Failed ∧ ∃ e ∈ t.deadLetters, e.relatedId = .pipelineRun rid ∧
      e.jobType = "stage:" ++ stageText ∧ e.attemptCount = attempt := by
  constructor
  · rcases handleStageFailure_docket hd h with
      ⟨wd, row, ws, runAfter, hpinned, hrow, hlt, _⟩ | ⟨run', hrun', hdocket⟩
    · have hlimit : run.maxAttempts cfg stage = row.maxAttempts := by
        unfold PipelineRun.maxAttempts
        simp only [hpinned, hrow]
      omega
    · refine ⟨run', _, docket_self hdocket, ?_⟩
      rcases hrun' with rfl | rfl <;> rfl
  · have hrun : s.runs[rid]? = some run := congrArg Docket.run hd
    unfold handleStageFailure at h
    simp only [hrun] at h
    split at h
    · cases h
    · rename_i wd hwd
      split at h
      · cases h
      · rename_i row hrow
        have hpinned : run.pinned cfg = some wd := definitionOf_ok hwd
        have hstage : wd.stageRow stage = some row := getStageDef_ok hrow
        have hlimit : run.maxAttempts cfg stage = row.maxAttempts := by
          unfold PipelineRun.maxAttempts
          simp only [hpinned, hstage]
        -- it was the last attempt, so the failure is final
        have hspent : mayRetry row attempt errorMessage = false := by
          have hnot : ¬ attempt < row.maxAttempts := by omega
          simp [mayRetry, hnot]
        rw [if_neg (by rw [hspent]; decide)] at h
        have hfiled : ∃ e ∈ (giveUpStage (s.emit now .stageFailed run.workspaceId rid) now rid run
            stageText attempt errorMessage).deadLetters, e.relatedId = .pipelineRun rid ∧
            e.jobType = "stage:" ++ stageText ∧ e.attemptCount = attempt := by
          unfold giveUpStage
          rw [letters_of_backstage (backstage_failRun ..)]
          exact ⟨_, List.mem_append_right _ (List.mem_singleton_self _), rfl, rfl, rfl⟩
        split at h
        · cases h
          exact hfiled
        · rw [letters_of_backstage (backstage_triggerCompensation h)]
          exact hfiled

/-- One assignment changes and does not fail. -/
theorem Db.Fails.of_update {aid : AssignmentId} {a : StageAssignment}
    {f : StageAssignment → StageAssignment} (ha : s.assignments[aid]? = some a)
    (hrows : t.assignments = (s.crew.update now aid f).assignments)
    (hf : (f a).status = .failed → ∃ run, t.runs[a.pipelineRunId]? = some run ∧
      (run.maxAttempts cfg a.stage ≤ a.attemptNumber → t.GaveUp aid a))
    (hsame : (f a).status = .failed → (f a).SameAttempt a) : Db.Fails cfg s t := by
  intro aid' a' ha' hst
  rw [hrows] at ha'
  rcases Crew.get_update ha' with hold | ⟨a₀, rfl, ha₀, rfl⟩
  · exact .inl ⟨a', hold, hst, ⟨rfl, rfl, rfl⟩⟩
  · have haa : a₀ = a := Option.some.inj (ha₀.symm.trans ha)
    subst haa
    obtain ⟨run, hrun, hgave⟩ := hf hst
    have hsame := hsame hst
    refine .inr ⟨run, ?_, fun hmax => ?_⟩
    · show t.runs[(f a₀).pipelineRunId]? = some run
      rw [hsame.pipelineRunId]
      exact hrun
    · have hmax : run.maxAttempts cfg (f a₀).stage ≤ (f a₀).attemptNumber := hmax
      rw [hsame.stage, hsame.attemptNumber] at hmax
      obtain ⟨hfailed, e, he, hreports⟩ := hgave hmax
      refine ⟨?_, e, he, ?_, ?_, ?_⟩
      · show (t.docket (f a₀).pipelineRunId).Failed
        rw [hsame.pipelineRunId]
        exact hfailed
      · show e.relatedId = .pipelineRun (f a₀).pipelineRunId ∨ _
        rw [hsame.pipelineRunId]
        exact hreports.related
      · show e.jobType = "stage:" ++ (f a₀).stage.formatted
        rw [hsame.stage]
        exact hreports.stage
      · show e.attemptCount = (f a₀).attemptNumber
        rw [hsame.attemptNumber]
        exact hreports.attempts

theorem submitFailure_gaveUp {aid : AssignmentId} {a : StageAssignment} {run : PipelineRun}
    {reserved : ContentStage → Nat} (hd : s.docket a.pipelineRunId = .idle (some run) reserved)
    (hmax : run.maxAttempts cfg a.stage ≤ a.attemptNumber) (errorMessage : String) (jitter : Nat)
    (h : (submitFailure cfg s now a run errorMessage jitter).raised = none) :
    (submitFailure cfg s now a run errorMessage jitter).db.GaveUp aid a := by
  -- with the reservation released or without one, the attempt is handled the same way
  have hhandled : ∀ {s1 s2 : Db} {reserved' : ContentStage → Nat},
      s1.docket a.pipelineRunId = .idle (some run) reserved' →
      handleStageFailure cfg s1 now a.pipelineRunId a.stage a.stage.formatted a.attemptNumber
        errorMessage jitter = .ok s2 → s2.GaveUp aid a := by
    intro s1 s2 reserved' hd1 hok
    obtain ⟨hfailed, e, he, hrelated, hstage, hattempts⟩ := handleStageFailure_gaveUp hd1 hmax hok
    exact ⟨hfailed, e, he, .inl hrelated, hstage, hattempts⟩
  unfold submitFailure at h ⊢
  simp only at h ⊢
  refine ofExcept_ok (P := fun t => t.GaveUp aid a) h fun s2 hok => ?_
  split at hok
  · exact hhandled hd hok
  · rename_i resId hlatest
    obtain ⟨r, hr, hopen⟩ := latestOpenReservation_open hlatest
    have hreleased : (releaseSpend s now a.pipelineRunId run.workspaceId resId).docket
        a.pipelineRunId = (s.docket a.pipelineRunId).settle a.stage :=
      docket_self (docket_releaseSpend hr hopen)
    rw [hd] at hreleased
    exact hhandled hreleased hok

/-- A result fails an assignment as `Db.Fails` says. -/
theorem submitResult_fails (hs : ∀ r, (s.docket r).Sound) {aid : AssignmentId} {success : Bool}
    {result : Option JsonObject} {errorMessage : String} {worker : Option WorkerId} {jitter : Nat}
    (h : (submitResult cfg s now aid success result errorMessage worker jitter).raised = none) :
    Db.Fails cfg s (submitResult cfg s now aid success result errorMessage worker jitter).db := by
  unfold submitResult at h ⊢
  split at h
  · cases h
  · rename_i a ha
    split at h
    · cases h
    · rename_i hrefusal
      have hflight := submitRefusal_inFlight hrefusal
      obtain ⟨run, reserved, hrun, hd⟩ := docket_of_open hs ha (isOpen_of_inFlight hflight)
      simp only [hrun] at h ⊢
      split at h
      · cases h
      · rename_i s1 hrecord
        have hclosed := docket_self (docket_recordResult hd ha hflight hrecord)
        obtain ⟨rs, _, hcrew⟩ := recordResult_crew hrecord
        have hrows : s1.crew.assignments = (s.crew.update now aid
            (StageAssignment.close now success result)).assignments := by
          rw [hcrew]
          exact Crew.slot_assignments ..
        cases success with
        | true =>
            rw [if_pos rfl]
            refine .of_update ha ((congrArg Crew.assignments (crew_submitSuccess ..)).trans hrows)
              (fun hst => nomatch hst) fun _ => ⟨rfl, rfl, rfl⟩
        | false =>
            rw [if_neg Bool.false_ne_true] at h ⊢
            refine .of_update ha ((congrArg Crew.assignments (crew_submitFailure ..)).trans hrows)
              (fun _ => ?_) fun _ => ⟨rfl, rfl, rfl⟩
            obtain ⟨d, hturn, hdocket⟩ := submitFailure_docket hflight hclosed errorMessage jitter h
            have hpin : d.PinnedTo run.definitionId := hturn.pinnedTo rfl
            rw [← docket_self hdocket] at hpin
            obtain ⟨run', hrun', hdef⟩ := Option.map_eq_some_iff.mp hpin
            refine ⟨run', hrun', fun hmax => ?_⟩
            rw [maxAttempts_congr hdef] at hmax
            exact submitFailure_gaveUp hclosed hmax errorMessage jitter h

/-! ## Recovery -/

theorem exhaustAssignment_gaveUp {aid : AssignmentId} {a : StageAssignment} {run : PipelineRun}
    {reserved : ContentStage → Nat}
    (hd : s.docket a.pipelineRunId = .assigned (some run) a reserved)
    (ha : s.assignments[aid]? = some a) (hflight : a.status.inFlight = true)
    (hworks : run.status.isTerminal = false) (reason : RecoveryReason) (maxAttempts : Nat)
    (detail : Option String) :
    (exhaustAssignment s now aid a reason maxAttempts detail).GaveUp aid a := by
  have hclosed : (s.updateAssignment now aid (StageAssignment.exhaust now)).docket
      = Function.update s.docket a.pipelineRunId (.idle (some run) reserved) :=
    docket_closeRow hd ha (isOpen_of_inFlight hflight) rfl rfl
  unfold exhaustAssignment
  simp only
  generalize hfiled : routeToDeadLetter (s.updateAssignment now aid (StageAssignment.exhaust now))
    now a.workspaceId (.stageAssignment aid) _ _ a.attemptNumber now = s1
  have hs1 : s1.docket a.pipelineRunId = .idle (some run) reserved := by
    rw [← hfiled, docket_routeToDeadLetter]
    exact docket_self hclosed
  have hentry : ∃ e ∈ s1.deadLetters, e.Reports aid a := by
    rw [← hfiled]
    exact ⟨_, List.mem_append_right _ (List.mem_singleton_self _), .inr rfl, rfl, rfl⟩
  have hrun1 : s1.runs[a.pipelineRunId]? = some run := congrArg Docket.run hs1
  unfold failRunUnlessTerminal
  simp only [hrun1, hworks]
  constructor
  · rw [docket_auditRecovery]
    have hfailed := docket_self (docket_failRun s1 now a.pipelineRunId run.workspaceId)
    rw [hs1] at hfailed
    exact ⟨run.fail now, _, hfailed, rfl⟩
  · obtain ⟨e, he, hreports⟩ := hentry
    refine ⟨e, ?_, hreports⟩
    show e ∈ (failRun s1 now a.pipelineRunId run.workspaceId).deadLetters
    rw [letters_of_backstage (backstage_failRun ..)]
    exact he

/-- A recovery fails an assignment as `Db.Fails` says. -/
theorem recoverAssignment_fails (hs : ∀ r, (s.docket r).Sound) (hw : ∀ r, (s.docket r).Working)
    {aid : AssignmentId} {reason : RecoveryReason} {detail : Option String}
    (h : recoverAssignment cfg s now aid reason detail = .ok t) : Db.Fails cfg s t := by
  unfold recoverAssignment at h
  split at h
  · cases h
  · rename_i a ha
    split at h
    · cases h
      exact fun aid a ha hst => .inl ⟨a, ha, hst, rfl, rfl, rfl⟩
    · rename_i hflight
      have hflight : a.status.inFlight = true := by simpa using hflight
      obtain ⟨run, reserved, hrun, hd⟩ := docket_of_open hs ha (isOpen_of_inFlight hflight)
      have hworks := hw a.pipelineRunId
      rw [hd] at hworks
      have hfree : ∀ f : StageAssignment → StageAssignment,
          ((freeSlot s a.workerId WorkerRegistration.releaseSlot).crew.update now aid f).assignments
            = (s.crew.update now aid f).assignments := by
        intro f
        rw [crew_freeSlot]
        unfold Crew.update
        rw [Crew.slot_assignments]
      simp only at h
      split at h
      · cases h
        have hd1 : (freeSlot s a.workerId WorkerRegistration.releaseSlot).docket a.pipelineRunId
            = .assigned (some run) a reserved := by
          rw [docket_freeSlot]
          exact hd
        have ha1 : (freeSlot s a.workerId WorkerRegistration.releaseSlot).assignments[aid]?
            = some a := by
          rw [freeSlot_assignments]
          exact ha
        generalize resolveMaxAttempts cfg _ a = limit
        -- the row is given up, and its run with it
        have hgave : (exhaustAssignment (freeSlot s a.workerId WorkerRegistration.releaseSlot) now
            aid a reason limit detail).GaveUp aid a :=
          exhaustAssignment_gaveUp hd1 ha1 hflight hworks.run reason limit detail
        obtain ⟨run', reserved', hidle, hst'⟩ := hgave.failed
        refine .of_update ha ((congrArg Crew.assignments (crew_exhaustAssignment _ now aid a reason
          limit detail)).trans (hfree _)) (fun _ => ?_) fun _ => ⟨rfl, rfl, rfl⟩
        exact ⟨run', congrArg Docket.run hidle, fun _ => hgave⟩
      · refine .of_update ha ((congrArg Crew.assignments (requeueAssignment_crew h)).trans
          (hfree _)) (fun hst => nomatch hst) fun hst => nomatch hst

/-- What the operations keep: dockets that are sound and at work, and given-up assignments. -/
structure Db.Settled (cfg : Config) (s : Db) : Prop where
  sound : ∀ r, (s.docket r).Sound
  working : ∀ r, (s.docket r).Working
  exhausted : s.Exhausted cfg

theorem Db.Settled.step (hs : s.Settled cfg) (hproceeds : Proceeds cfg now s t)
    (hletters : s.deadLetters ⊆ t.deadLetters) (hfails : Db.Fails cfg s t) : t.Settled cfg where
  sound := hproceeds.sound hs.sound
  working := hproceeds.working hs.sound hs.working
  exhausted := hs.exhausted.step hproceeds hletters hfails

theorem Db.Files.subset {P : DeadLetterJob → Prop} (h : s.Files P t) :
    s.deadLetters ⊆ t.deadLetters := by
  obtain ⟨new, hnew, _⟩ := h
  rw [hnew]
  exact List.subset_append_left ..

theorem recoverAssignment_settled {aid : AssignmentId} {reason : RecoveryReason}
    {detail : Option String} (hs : s.Settled cfg)
    (h : recoverAssignment cfg s now aid reason detail = .ok t) : t.Settled cfg :=
  hs.step (.inl (recoverAssignment_quieted hs.sound h)) (recoverAssignment_files h).subset
    (recoverAssignment_fails hs.sound hs.working h)

theorem recoverEach_settled {reason : RecoveryReason} {detail : Option String}
    (ids : List AssignmentId) : ∀ {s t : Db}, s.Settled cfg →
      recoverEach cfg s now reason detail ids = .ok t → t.Settled cfg := by
  induction ids with
  | nil =>
      intro s t hs h
      cases h
      exact hs
  | cons aid rest ih =>
      intro s t hs h
      unfold recoverEach at h
      split at h
      · cases h
      · rename_i s1 hfirst
        exact ih (recoverAssignment_settled hs hfirst) h

theorem reapWorkerBatches_settled {wid : WorkerId} {reason : RecoveryReason}
    {detail : Option String} {limit : Nat} {rows : List AssignmentId} (fuel : Nat) :
    ∀ {s t : Db}, s.Settled cfg →
      reapWorkerBatches cfg now wid reason detail limit rows fuel s = .ok t → t.Settled cfg := by
  induction fuel with
  | zero =>
      intro s t hs h
      cases h
      exact hs
  | succ fuel ih =>
      intro s t hs h
      unfold reapWorkerBatches at h
      split at h
      · cases h
        exact hs
      · split at h
        · cases h
        · rename_i s1 hbatch
          have hs1 := recoverEach_settled _ hs hbatch
          split at h
          · cases h
            exact hs1
          · exact ih hs1 h

/-! ## Every operation -/

/-- Kinds of moves that fail no assignment. -/
def MoveKind.failsNone : MoveKind → Bool
  | .close | .exhaust | .confirm => false
  | _ => true

theorem Moves.fails {kinds : List MoveKind} (h : Moves cfg now kinds s.crew t.crew)
    (hkinds : ∀ k ∈ kinds, k.failsNone = true) : Db.Fails cfg s t := by
  intro aid a ha hst
  refine .inl ?_
  refine h.invariant (I := fun c => ∀ a, c.assignments[aid]? = some a → a.status = .failed →
    ∃ a₀, s.assignments[aid]? = some a₀ ∧ a₀.status = .failed ∧ a.SameAttempt a₀) ?_
    (fun a ha hst => ⟨a, ha, hst, rfl, rfl, rfl⟩) a ha hst
  intro k hk c c' hmove ih a' ha' hst'
  have hk' := hkinds k hk
  rcases hmove.row ha' with hsame | ⟨a, ha, hrow⟩ | ⟨_, hnew⟩
  · exact ih a' hsame hst'
  · cases hrow with
    | extend =>
        obtain ⟨a₀, ha₀, hst₀, hrun, hstage, hattempt⟩ := ih a ha hst'
        exact ⟨a₀, ha₀, hst₀, hrun, hstage, hattempt⟩
    | claim | acknowledge | requeue | cancel => cases hst'
    | close | exhaust | confirm => cases hk'
  · cases hnew with
    | queue args stage heq =>
        rw [heq] at hst'
        cases hst'
    | assign args stage wid heq =>
        rw [heq] at hst'
        cases hst'

theorem Op.Routine.isRetry {o : Op} (ho : o.Routine s) : o.action.isRetry = false := by
  obtain ⟨now, action⟩ := o
  cases action with
  | retryFailedJobs => cases ho.1
  | _ => rfl

theorem exec_letters (cfg : Config) (s : Db) {o : Op} (hretry : o.action.isRetry = false) :
    s.deadLetters ⊆ (exec cfg s o).deadLetters := by
  have hfiles := (call_files cfg s o.now hretry).subset
  unfold exec Call.commit
  split
  · exact List.Subset.refl _
  · exact hfiles

theorem Db.GaveUp.flush {aid : AssignmentId} {a : StageAssignment} (h : s.GaveUp aid a) :
    s.flush.GaveUp aid a := ⟨h.failed, h.reported⟩

theorem Db.Fails.flush (h : Db.Fails cfg s t) : Db.Fails cfg s t.flush := by
  intro aid a ha hst
  rcases h aid a ha hst with hold | ⟨run, hrun, hgave⟩
  · exact .inl hold
  · exact .inr ⟨run, hrun, fun hmax => (hgave hmax).flush⟩

theorem Db.Settled.flush (h : s.Settled cfg) : s.flush.Settled cfg := by
  refine ⟨h.sound, h.working, fun aid a ha hst => ?_⟩
  obtain ⟨run, hrun, hgave⟩ := h.exhausted aid a ha hst
  exact ⟨run, hrun, fun hmax => (hgave hmax).flush⟩

/-- What a call keeps, its transaction keeps. -/
theorem ofExcept_settled {e : Except Err Db} (hs : s.Settled cfg)
    (h : ∀ t, e = .ok t → t.Settled cfg) : ((Call.ofExcept s e).commit s).Settled cfg := by
  cases e with
  | error _ => exact hs
  | ok t => exact (h t rfl).flush

/-- **Every operation** gives up what it fails with the last attempt. -/
theorem exec_exhausted (cfg : Config) {s : Db} {o : Op} (hs : s.Settled cfg) (ho : o.Routine s) :
    (exec cfg s o).Settled cfg := by
  have hproceeds := exec_turns cfg hs.sound ho
  have hletters := exec_letters cfg s ho.isRetry
  have hmoves := exec_moves cfg s o
  obtain ⟨now, action⟩ := o
  cases action with
  | submitResult aid success result errorMessage worker jitter =>
      refine hs.step hproceeds hletters ?_
      unfold exec Call.commit
      split
      · exact fun aid a ha hst => .inl ⟨a, ha, hst, rfl, rfl, rfl⟩
      · rename_i hraised
        exact (submitResult_fails hs.sound hraised).flush
  | recoverAssignment aid reason detail =>
      exact ofExcept_settled hs fun t h => recoverAssignment_settled hs h
  | reapExpiredLeases batchSize rows =>
      exact ofExcept_settled hs fun t h => recoverEach_settled _ hs h
  | reapWorkerAssignments wid reason batchSize detail rows =>
      exact ofExcept_settled hs fun t h => reapWorkerBatches_settled _ hs h
  | acknowledge aid secs worker =>
      obtain ⟨wid, rfl⟩ := Option.isSome_iff_exists.mp ho.1
      exact hs.step hproceeds hletters (hmoves.fails (by simp [Action.kinds, MoveKind.failsNone]))
  | startRun | pollAndLease | processLeasedJob | dispatchStage | claimAssignment | renewLease
  | reapExpiredJobLeases | pauseForReview | submitReviewDecision | dispatchOne | submitAndDeliver
  | decideReviewGate | editReviewGateContent | handleReviewTimeout | handleStageTimeout
  | reserveSpend | cancelRun | retryFailedJobs =>
      exact hs.step hproceeds hletters (hmoves.fails (by simp [Action.kinds, MoveKind.failsNone]))

theorem routine_settled {s : Db} (h : (routine cfg).Reachable s) : s.Settled cfg := by
  refine h.invariant (I := fun s => s.Settled cfg) ?_ fun s o hs ho => exec_exhausted cfg hs ho
  intro s hfresh
  refine ⟨fun r => ?_, fun r => ?_, fun aid a ha => ?_⟩
  · rw [Fresh.docket hfresh r]
    exact .idle ..
  · rw [Fresh.docket hfresh r]
    exact .of_rows rfl
  · rw [hfresh.assignments] at ha
    cases ha

/-! ## Attempts -/

/-- **Attempts are bounded** as long as all operations are routine (no manual retry, no stage
timeout): a run of a workflow without cycles starts a stage at most `max_attempts` times, or once,
with increasing attempt numbers. An assignment that has failed with a number from `max_attempts` on
has left its run failed, and a dead-letter entry reports it. -/
theorem attempts_bounded (cfg : Config) {p : Db × List StageAssignment}
    (h : (tracked cfg).Reachable p) {rid : RunId} {run : PipelineRun}
    (hrun : p.1.runs[rid]? = some run) {wd : WorkflowDefinition}
    (hpinned : run.pinned cfg = some wd) (hacyclic : wd.Acyclic) (stage : ContentStage) :
    (startsAt p.2 rid stage).length ≤ max 1 (run.maxAttempts cfg stage) ∧
    (startsAt p.2 rid stage).Pairwise (fun a b => a.attemptNumber < b.attemptNumber) ∧
    ∀ (aid : AssignmentId) (a : StageAssignment), p.1.assignments[aid]? = some a →
      a.pipelineRunId = rid → a.stage = stage → a.status = .failed →
      run.maxAttempts cfg stage ≤ a.attemptNumber →
        run.status = .failed ∧ ∃ e ∈ p.1.deadLetters, e.Reports aid a := by
  have hclimbs := attempts_climb h hrun hpinned hacyclic stage
  refine ⟨?_, List.pairwise_map.mp hclimbs.increasing, ?_⟩
  · have hlen := hclimbs.length_le
    rwa [List.length_map] at hlen
  · -- who has failed for the last time has given up, and with it its run
    rintro aid a ha rfl rfl hst hmax
    have hsettled := routine_settled (System.Reachable.of_logged h)
    obtain ⟨run', hrun', hgave⟩ := hsettled.exhausted aid a ha hst
    have hsame : run' = run := Option.some.inj (hrun'.symm.trans hrun)
    subst hsame
    obtain ⟨⟨run₁, reserved, hidle, hfailed⟩, hreported⟩ := hgave hmax
    refine ⟨?_, hreported⟩
    have hrun₁ : p.1.runs[a.pipelineRunId]? = some run₁ := congrArg Docket.run hidle
    rw [hrun] at hrun₁
    cases hrun₁
    exact hfailed

/-- The script times out three times. -/
def thirdAttemptOps : List Op :=
  secondAttemptOps.take 6 ++
  [⟨1000000002, .submitResult 1 false none "timeout" none 0⟩,
   ⟨2000000000, .pollAndLease 10 [0, 1, 2]⟩, ⟨2000000001, .processLeasedJob 2 [0] 0⟩,
   ⟨2000000002, .submitResult 2 false none "timeout" none 0⟩]

theorem thirdAttempt_reachable :
    (tracked patientConfig).Reachable (trackedOps patientConfig thirdAttemptOps) :=
  System.Reachable.of_legal thirdAttemptOps (.init ⟨deskDb_fresh, rfl⟩) (by decide +kernel)

theorem patientWorkflow_acyclic : patientWorkflow.Acyclic := by
  refine WorkflowDefinition.acyclic_of_rank
    (fun stage => if stage = .scripting then 0 else if stage = .review then 1 else 2) ?_
  decide

/-- All three attempts are spent, and the third is reported. -/
theorem third_attempt_bounded :
    (startsAt (trackedOps patientConfig thirdAttemptOps).2 0 .scripting).length = 3 ∧
    (startsAt (trackedOps patientConfig thirdAttemptOps).2 0 .scripting).Pairwise
      (fun a b => a.attemptNumber < b.attemptNumber) ∧
    ∃ run a, (trackedOps patientConfig thirdAttemptOps).1.runs[0]? = some run ∧
      (trackedOps patientConfig thirdAttemptOps).1.assignments[2]? = some a ∧ run.status = .failed ∧
      ∃ e ∈ (trackedOps patientConfig thirdAttemptOps).1.deadLetters, e.Reports 2 a := by
  have hlast : ((trackedOps patientConfig thirdAttemptOps).1.assignments[2]?).any (fun a =>
      a.pipelineRunId == 0 && a.stage == .scripting && a.status == .failed
        && a.attemptNumber == 3) = true := by
    decide +kernel
  have hpin : ((trackedOps patientConfig thirdAttemptOps).1.runs[0]?).map PipelineRun.definitionId
      = some (some 0) := by
    decide +kernel
  obtain ⟨run, hrun, hdef⟩ := Option.map_eq_some_iff.mp hpin
  obtain ⟨a, ha, hfields⟩ := (Option.any_eq_true _ _).mp hlast
  simp only [Bool.and_eq_true, beq_iff_eq] at hfields
  obtain ⟨⟨⟨hid, hstage⟩, hst⟩, hnumber⟩ := hfields
  have hpinned : run.pinned patientConfig = some patientWorkflow := by
    unfold PipelineRun.pinned
    rw [hdef]
    rfl
  have hmax : run.maxAttempts patientConfig .scripting = 3 := by
    unfold PipelineRun.maxAttempts
    rw [hpinned]
    rfl
  obtain ⟨_, hnumbers, hreported⟩ :=
    attempts_bounded patientConfig thirdAttempt_reachable hrun hpinned patientWorkflow_acyclic
      .scripting
  obtain ⟨hfailed, e, he⟩ := hreported 2 a ha hid hstage hst (by rw [hmax, hnumber])
  exact ⟨by decide +kernel, hnumbers, run, a, hrun, ha, hfailed, e, he⟩

end HumanGate
