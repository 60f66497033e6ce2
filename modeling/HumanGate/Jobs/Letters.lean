import HumanGate.Run.Backstage
import HumanGate.Run.Stages

set_option autoImplicit false

/-! # What is written to the dead letters

Four functions write dead-letter entries: `handle_stage_failure` about a run,
`recover_assignment` about an assignment, the scheduler about a job and the relay about an
event. An operation adds entries and changes no entry that is there, except for `retry_failed_jobs`,
which resolves some. So every entry about a run is as `handle_stage_failure` has written it
(`exec_lettersFiled`).
-/

namespace HumanGate

open Lib Lib.Calendar

variable {cfg : Config} {now : Instant}

/-- The text of a stage after `stage:`, as a value or as a member of the enumeration. -/
def IsStageLetter (text : String) : Prop :=
  ∃ stage : ContentStage, text = "stage:" ++ stage.value ∨ text = "stage:" ++ stage.formatted

/-- An entry about a run: the run is there, it is of the entry's workspace, and the entry names
a stage. -/
def Db.Filed (s : Db) (e : DeadLetterJob) : Prop :=
  ∀ rid, e.relatedId = .pipelineRun rid →
    (∃ run, s.runs[rid]? = some run ∧ run.workspaceId = e.workspaceId) ∧ IsStageLetter e.jobType

def Db.LettersFiled (s : Db) : Prop := ∀ e ∈ s.deadLetters, s.Filed e

/-- The entry is not about a run. -/
def DeadLetterJob.Elsewhere (e : DeadLetterJob) : Prop := ∀ rid, e.relatedId ≠ .pipelineRun rid

theorem DeadLetterJob.Elsewhere.filed {e : DeadLetterJob} (h : e.Elsewhere) (s : Db) :
    s.Filed e :=
  fun rid hrid => absurd hrid (h rid)

/-! ## Adding entries -/

/-- Entries are added, and each of them has the property. -/
def Db.Files (P : DeadLetterJob → Prop) (s s' : Db) : Prop :=
  ∃ new, s'.deadLetters = s.deadLetters ++ new ∧ ∀ e ∈ new, P e

variable {P : DeadLetterJob → Prop}

theorem Db.Files.of_eq {s s' : Db} (h : s'.deadLetters = s.deadLetters) : s.Files P s' :=
  ⟨[], by rw [h, List.append_nil], fun _ he => absurd he List.not_mem_nil⟩

theorem Db.Files.trans {s s1 s2 : Db} (h : s.Files P s1) (h' : s1.Files P s2) : s.Files P s2 := by
  obtain ⟨new, hnew, hP⟩ := h
  obtain ⟨new', hnew', hP'⟩ := h'
  refine ⟨new ++ new', by rw [hnew', hnew, List.append_assoc], fun e he => ?_⟩
  rcases List.mem_append.mp he with he | he
  · exact hP e he
  · exact hP' e he

theorem Db.Files.mono {Q : DeadLetterJob → Prop} {s s' : Db} (h : s.Files P s')
    (hPQ : ∀ e, P e → Q e) : s.Files Q s' := by
  obtain ⟨new, hnew, hP⟩ := h
  exact ⟨new, hnew, fun e he => hPQ e (hP e he)⟩

/-- Entries are filed as before when neither they nor the runs have changed. -/
theorem Db.Files.congr {s s1 s' : Db} (hletters : s1.deadLetters = s.deadLetters)
    (hruns : s1.runs = s.runs) (h : s1.Files s1.Filed s') : s.Files s.Filed s' := by
  unfold Db.Files Db.Filed at h
  rwa [hletters, hruns] at h

/-- The one way in which an entry is added. -/
theorem routeToDeadLetter_files (s : Db) (now : Instant) (ws : WorkspaceId) (related : RelatedId)
    (jobType reason : String) (attempts : Nat) (first : Instant)
    (h : ∀ e : DeadLetterJob, e.workspaceId = ws → e.relatedId = related → e.jobType = jobType →
      P e) : s.Files P (routeToDeadLetter s now ws related jobType reason attempts first) :=
  ⟨_, rfl, fun e he => by
    rw [List.mem_singleton] at he
    subst he
    exact h _ rfl rfl rfl⟩

theorem letters_of_backstage {s s' : Db} (h : s'.backstage = s.backstage) :
    s'.deadLetters = s.deadLetters := by
  have hl : s'.backstage.deadLetters = s.backstage.deadLetters := by rw [h]
  exact hl

/-! ## Failing -/

theorem handleStageFailure_files {s s' : Db} {rid : RunId} {stage : ContentStage}
    {stageText : String} {attempt : Nat} {errorMessage : String} {jitter : Nat}
    (htext : stageText = stage.value ∨ stageText = stage.formatted)
    (h : handleStageFailure cfg s now rid stage stageText attempt errorMessage jitter = .ok s') :
    s.Files s.Filed s' := by
  unfold handleStageFailure at h
  split at h
  · cases h
  · rename_i run hrun
    simp only at h
    split at h
    · cases h
    · split at h
      · cases h
      · split at h
        · cases h
          exact .of_eq rfl
        · have hroute := routeToDeadLetter_files (P := s.Filed)
            (s.emit now .stageFailed run.workspaceId rid) now run.workspaceId (.pipelineRun rid)
            ("stage:" ++ stageText) errorMessage attempt (run.startedAt.getD now)
            fun e hws hrel hjob rid' hrid' => by
              rw [hrel] at hrid'
              cases hrid'
              refine ⟨⟨run, hrun, hws.symm⟩, stage, ?_⟩
              rcases htext with rfl | rfl
              · exact .inl hjob
              · exact .inr hjob
          have hgive : s.Files s.Filed (giveUpStage (s.emit now .stageFailed run.workspaceId rid)
              now rid run stageText attempt errorMessage) :=
            hroute.trans (.of_eq (letters_of_backstage (backstage_failRun ..)))
          split at h
          · cases h
            exact hgive
          · exact hgive.trans (.of_eq (letters_of_backstage (backstage_triggerCompensation h)))

theorem handleStageTimeout_files {s s' : Db} {rid : RunId} {stage : ContentStage} {jitter : Nat}
    (h : handleStageTimeout cfg s now rid stage jitter = .ok s') : s.Files s.Filed s' := by
  unfold handleStageTimeout at h
  split at h
  · cases h
    exact .of_eq rfl
  · split at h
    · exact handleStageFailure_files (.inl rfl) h
    · cases h
      exact .of_eq rfl

/-! ## Dispatching and claiming -/

theorem letters_insertAssignment (s : Db) (now : Instant) (new : StageAssignment) :
    (insertAssignment s now new).deadLetters = s.deadLetters := by
  unfold insertAssignment
  simp only
  split <;> rfl

theorem letters_reserveSpend (s : Db) (now : Instant) (rid : RunId) (ws : WorkspaceId)
    (stage : ContentStage) (provider : String) (estimate : ℚ≥0) :
    (reserveSpend s now rid ws stage provider estimate).1.deadLetters = s.deadLetters :=
  letters_of_backstage (backstage_reserveSpend ..)

theorem letters_dispatchStage {s s' : Db} {args : DispatchArgs} {rows : List WorkerId}
    {outcome : DispatchOutcome} (h : dispatchStage cfg s now args rows = .ok (s', outcome)) :
    s'.deadLetters = s.deadLetters := by
  unfold dispatchStage at h
  split at h
  · cases h; rfl
  · split at h
    · cases h; rfl
    · split at h
      · cases h; rfl
      · simp only at h
        unfold assignStage at h
        split at h
        · cases h
        · cases h
        · split at h
          · cases h
            exact letters_insertAssignment ..
          · simp only at h
            split at h
            · cases h
              exact letters_reserveSpend ..
            · cases h
              exact (letters_insertAssignment ..).trans (letters_reserveSpend ..)

theorem letters_recordClaim (s : Db) (wid : WorkerId) (w : WorkerRegistration)
    (outcome : ClaimOutcome) (reason : String) (a : Option (AssignmentId × StageAssignment))
    (ws : Option WorkspaceId) :
    (recordClaim s wid w outcome reason a ws).deadLetters = s.deadLetters := by
  unfold recordClaim
  split <;> rfl

theorem letters_grantClaim (s : Db) (now : Instant) (wid : WorkerId) (w : WorkerRegistration)
    (aid : AssignmentId) (a : StageAssignment) (token : Option ClaimToken)
    (ws : Option WorkspaceId) :
    (grantClaim cfg s now wid w aid a token ws).db.deadLetters = s.deadLetters :=
  letters_recordClaim ..

theorem letters_claimAssignment {s : Db} {wid : WorkerId} {token : Option ClaimToken}
    {ws : Option WorkspaceId} {rows : List AssignmentId} {r : ClaimResult}
    (h : claimAssignment cfg s now wid token ws rows = .ok r) :
    r.db.deadLetters = s.deadLetters := by
  unfold claimAssignment at h
  split at h
  · cases h; rfl
  · split at h
    · cases h
    · cases h
      exact letters_recordClaim ..
    · unfold claimFresh at h
      split at h
      · cases h
        exact letters_recordClaim ..
      · split at h
        · cases h
        · split at h
          · unfold claimWithSpend at h
            split at h
            · cases h
              exact letters_grantClaim ..
            · split at h
              · cases h
              · cases h
                exact letters_grantClaim ..
              · simp only at h
                split at h
                · cases h
                  exact (letters_grantClaim ..).trans (letters_reserveSpend ..)
                · cases h
                  exact (letters_recordClaim ..).trans (letters_reserveSpend ..)
          · split at h <;> cases h <;> exact letters_recordClaim ..

theorem letters_acknowledge {s s' : Db} {aid : AssignmentId} {secs : Option Nat}
    {worker : Option WorkerId} (h : acknowledge cfg s now aid secs worker = .ok s') :
    s'.deadLetters = s.deadLetters := by
  unfold acknowledge at h
  split at h
  · cases h
  · simp only at h
    split at h <;> cases h
    rfl

theorem letters_renewLease {s s' : Db} {aid : AssignmentId} {secs : Option Nat}
    {worker : Option WorkerId} (h : renewLease cfg s now aid secs worker = .ok s') :
    s'.deadLetters = s.deadLetters := by
  unfold renewLease at h
  split at h
  · cases h
  · simp only at h
    split at h <;> cases h
    rfl

/-! ## Results -/

theorem letters_freeSlot (s : Db) (worker : Option WorkerId)
    (f : WorkerRegistration → WorkerRegistration) :
    (freeSlot s worker f).deadLetters = s.deadLetters := by
  unfold freeSlot
  split <;> rfl

theorem recordResult_frame {s s' : Db} {aid : AssignmentId} {a : StageAssignment}
    {run : PipelineRun} {success : Bool} {result : Option JsonObject} {errorMessage : String}
    (h : recordResult s now aid a run success result errorMessage = .ok s') :
    s'.deadLetters = s.deadLetters ∧ s'.runs = s.runs := by
  unfold recordResult at h
  simp only at h
  split at h
  · cases h
  · cases h
    exact ⟨letters_freeSlot .., freeSlot_runs ..⟩

theorem letters_submitSuccess (s : Db) (now : Instant) (a : StageAssignment) (run : PipelineRun)
    (result : Option JsonObject) :
    (submitSuccess cfg s now a run result).db.deadLetters = s.deadLetters := by
  unfold submitSuccess
  simp only
  split
  · rfl
  · rename_i s1 hcommit
    refine (letters_of_backstage (backstage_handleStageSuccess ..)).trans ?_
    split at hcommit
    · cases hcommit
      rfl
    · exact (letters_of_backstage (backstage_commitSpend hcommit)).trans rfl

theorem ofExcept_files {s : Db} {e : Except Err Db} (h : ∀ s', e = .ok s' → s.Files P s') :
    s.Files P (Call.ofExcept s e).db := by
  cases e with
  | error _ => exact .of_eq rfl
  | ok s' => exact h s' rfl

theorem submitFailure_files (s : Db) (now : Instant) (a : StageAssignment) (run : PipelineRun)
    (errorMessage : String) (jitter : Nat) :
    s.Files s.Filed (submitFailure cfg s now a run errorMessage jitter).db := by
  -- with the reservation released or without one, the runs are the same
  have hcall : ∀ t : Db, t.deadLetters = s.deadLetters → t.runs = s.runs →
      s.Files s.Filed (Call.ofExcept s (handleStageFailure cfg t now a.pipelineRunId a.stage
        a.stage.formatted a.attemptNumber errorMessage jitter)).db := by
    intro t hletters hruns
    exact ofExcept_files fun s' h => .congr hletters hruns (handleStageFailure_files (.inr rfl) h)
  unfold submitFailure
  simp only
  split
  · exact hcall s rfl rfl
  · exact hcall _ (letters_of_backstage (backstage_of_core (core_releaseSpend ..)))
      (congrArg Board.runs (board_releaseSpend ..))

theorem submitResult_files (s : Db) (now : Instant) (aid : AssignmentId) (success : Bool)
    (result : Option JsonObject) (errorMessage : String) (worker : Option WorkerId)
    (jitter : Nat) :
    s.Files s.Filed (submitResult cfg s now aid success result errorMessage worker jitter).db := by
  unfold submitResult
  split
  · exact .of_eq rfl
  · split
    · exact .of_eq rfl
    · split
      · exact .of_eq (letters_freeSlot ..)
      · split
        · exact .of_eq rfl
        · rename_i s1 hrecord
          obtain ⟨hletters, hruns⟩ := recordResult_frame hrecord
          split
          · exact .of_eq ((letters_submitSuccess ..).trans hletters)
          · exact .congr hletters hruns (submitFailure_files ..)

/-! ## Recovery -/

theorem exhaustAssignment_files (s : Db) (now : Instant) (aid : AssignmentId)
    (a : StageAssignment) (reason : RecoveryReason) (maxAttempts : Nat)
    (detail : Option String) : s.Files DeadLetterJob.Elsewhere
      (exhaustAssignment s now aid a reason maxAttempts detail) := by
  have hroute := routeToDeadLetter_files (P := DeadLetterJob.Elsewhere)
    (s.updateAssignment now aid (StageAssignment.exhaust now)) now a.workspaceId
    (.stageAssignment aid) ("stage:" ++ a.stage.formatted)
    ("recovery exhausted (" ++ reason.value ++ ") after "
      ++ toString a.attemptNumber ++ " attempts") a.attemptNumber now
    fun e _ hrel _ rid hrid => by
      rw [hrel] at hrid
      cases hrid
  have hfail : ∀ t : Db, (failRunUnlessTerminal t now a.pipelineRunId).deadLetters
      = t.deadLetters := fun t => letters_of_backstage (backstage_failRunUnlessTerminal ..)
  exact hroute.trans (.of_eq (hfail _))

theorem letters_requeueAssignment {s s' : Db} {aid : AssignmentId} {a : StageAssignment}
    {reason : RecoveryReason} {detail : Option String}
    (h : requeueAssignment s now aid a reason detail = .ok s') :
    s'.deadLetters = s.deadLetters := by
  have hrelease : ∀ (rid : RunId) (ws : WorkspaceId) (ids : List ReservationId),
      (releaseEach s now rid ws ids).deadLetters = s.deadLetters :=
    fun _ _ _ => letters_of_backstage (backstage_releaseEach ..)
  unfold requeueAssignment at h
  simp only at h
  split at h
  · split at h <;> cases h
    rfl
  · split at h <;> cases h
    exact hrelease ..

theorem recoverAssignment_files {s s' : Db} {aid : AssignmentId} {reason : RecoveryReason}
    {detail : Option String} (h : recoverAssignment cfg s now aid reason detail = .ok s') :
    s.Files DeadLetterJob.Elsewhere s' := by
  unfold recoverAssignment at h
  split at h
  · cases h
  · rename_i a ha
    split at h
    · cases h
      exact .of_eq rfl
    · simp only at h
      have hfree : s.Files DeadLetterJob.Elsewhere
          (freeSlot s a.workerId WorkerRegistration.releaseSlot) := .of_eq (letters_freeSlot ..)
      split at h
      · cases h
        exact hfree.trans (exhaustAssignment_files ..)
      · exact hfree.trans (.of_eq (letters_requeueAssignment h))

theorem recoverEach_files {reason : RecoveryReason} {detail : Option String}
    (ids : List AssignmentId) : ∀ {s s' : Db}, recoverEach cfg s now reason detail ids = .ok s' →
      s.Files DeadLetterJob.Elsewhere s' := by
  induction ids with
  | nil =>
      intro s s' h
      cases h
      exact .of_eq rfl
  | cons aid rest ih =>
      intro s s' h
      unfold recoverEach at h
      split at h
      · cases h
      · rename_i s1 hfirst
        exact (recoverAssignment_files hfirst).trans (ih h)

theorem reapWorkerBatches_files {wid : WorkerId} {reason : RecoveryReason}
    {detail : Option String} {limit : Nat} {rows : List AssignmentId} (fuel : Nat) :
    ∀ {s s' : Db}, reapWorkerBatches cfg now wid reason detail limit rows fuel s = .ok s' →
      s.Files DeadLetterJob.Elsewhere s' := by
  induction fuel with
  | zero =>
      intro s s' h
      cases h
      exact .of_eq rfl
  | succ fuel ih =>
      intro s s' h
      unfold reapWorkerBatches at h
      split at h
      · cases h
        exact .of_eq rfl
      · split at h
        · cases h
        · rename_i s1 hbatch
          have hfirst : s.Files DeadLetterJob.Elsewhere s1 := recoverEach_files _ hbatch
          split at h
          · cases h
            exact hfirst
          · exact hfirst.trans (ih h)

/-! ## The scheduler and the relay -/

theorem letters_cancelAssignments (now : Instant) (ids : List AssignmentId) : ∀ s : Db,
    (cancelAssignments s now ids).deadLetters = s.deadLetters := by
  induction ids with
  | nil => intro s; rfl
  | cons aid rest ih => intro s; exact ih _

theorem exhaustJob_files {s s' : Db} {jid : JobId} {job : JobSchedule} {rid : RunId}
    (h : exhaustJob s now jid job rid = .ok s') : s.Files DeadLetterJob.Elsewhere s' := by
  -- whatever was cancelled and released before, the entry is about the job
  have hroute : ∀ t : Db, t.deadLetters = s.deadLetters → s.Files DeadLetterJob.Elsewhere
      (routeToDeadLetter t now job.workspaceId (.jobSchedule jid)
        ("stage_dispatch:" ++ job.refTable) "no eligible worker available after repeated attempts"
        (job.attempt + 1) job.createdAt) := by
    intro t ht
    refine .trans (.of_eq ht) (routeToDeadLetter_files t now _ _ _ _ _ _ ?_)
    intro e _ hrel _ rid hrid
    rw [hrel] at hrid
    cases hrid
  unfold exhaustJob at h
  simp only at h
  split at h
  · cases h
    exact hroute _ rfl
  · rename_i run _
    split at h
    · cases h
    · cases h
      refine hroute _ ((letters_cancelAssignments ..).trans ?_)
      exact (letters_of_backstage (backstage_releaseAllReservations ..)).trans rfl

theorem settleJob_files {s s' : Db} {jid : JobId} {job : JobSchedule} {rid : RunId}
    {jitter : Nat} {outcome : DispatchOutcome}
    (h : settleJob s now jid job rid jitter outcome = .ok s') :
    s.Files DeadLetterJob.Elsewhere s' := by
  cases outcome with
  | backpressure =>
      unfold settleJob rescheduleJob at h
      simp only at h
      split at h
      · exact exhaustJob_files h
      · cases h
        exact .of_eq rfl
  | _ =>
      cases h
      exact .of_eq rfl

theorem processLeasedJob_files {s s' : Db} {jid : JobId} {rows : List WorkerId} {jitter : Nat}
    (h : processLeasedJob cfg s now jid rows jitter = .ok s') : s.Files s.Filed s' := by
  have hwork : ∀ (job : JobSchedule) (rid : RunId),
      (processWorkJob cfg s now jid job rid rows jitter).map Prod.fst = .ok s' →
        s.Files s.Filed s' := by
    intro job rid hmap
    obtain ⟨⟨s2, outcome⟩, hp, rfl⟩ := map_ok hmap
    unfold processWorkJob at hp
    split at hp
    · cases hp
    · rename_i s1 _ hdispatch
      split at hp
      · cases hp
      · rename_i hsettle
        cases hp
        have hfirst : s.Files s.Filed s1 := .of_eq (letters_dispatchStage hdispatch)
        exact hfirst.trans ((settleJob_files hsettle).mono fun e he => he.filed s)
  unfold processLeasedJob at h
  split at h
  · cases h
  · split at h
    · exact hwork _ _ h
    · exact hwork _ _ h
    · split at h
      · cases h
        exact .of_eq rfl
      · obtain ⟨s1, htimeout, rfl⟩ := map_ok h
        exact (handleStageTimeout_files htimeout).trans (.of_eq rfl)
    · cases h
      exact .of_eq (letters_of_backstage (backstage_handleReviewTimeout ..))
    · cases h
      exact .of_eq rfl
    · cases h

theorem failDelivery_files (s : Db) (now : Instant) (eid : EventId) (event : OutboxEvent)
    (e : Err) : s.Files DeadLetterJob.Elsewhere (failDelivery s now eid event e) := by
  unfold failDelivery
  simp only
  split
  · refine .trans (.of_eq rfl) (routeToDeadLetter_files _ now _ _ _ _ _ _ ?_)
    intro e' _ hrel _ rid hrid
    rw [hrel] at hrid
    cases hrid
  · exact .of_eq rfl

theorem dispatchOne_files (s : Db) (now : Instant) (eid : EventId) :
    s.Files DeadLetterJob.Elsewhere (dispatchOne cfg s now eid).db := by
  have hcall : ∀ event approved,
      (onReview cfg s now event approved).db.deadLetters = s.deadLetters := by
    intro event approved
    unfold onReview
    split
    · rfl
    · exact letters_of_backstage (backstage_resumeFromReview ..)
  unfold dispatchOne
  split
  · exact .of_eq rfl
  · split
    · exact .of_eq rfl
    · split
      · exact .of_eq rfl
      · simp only
        split
        · exact .of_eq (hcall ..)
        · exact .trans (.of_eq (hcall ..)) (failDelivery_files ..)

theorem submitAndDeliver_files (s : Db) (now : Instant) (gid : GateId) (reviewer : UserId)
    (approved : Bool) (notes : Option String) : s.Files DeadLetterJob.Elsewhere
      (submitAndDeliver cfg s now gid reviewer approved notes).db := by
  unfold submitAndDeliver
  split
  · exact .of_eq rfl
  · rename_i h
    exact .trans (.of_eq (letters_of_backstage (backstage_submitReviewDecision h)))
      (dispatchOne_files ..)

theorem decideReviewGate_files (s : Db) (now : Instant) (ws : WorkspaceId) (gid : GateId)
    (reviewer : UserId) (approved : Bool) (expected : Option VersionId) (notes : Option String) :
    s.Files DeadLetterJob.Elsewhere
      (decideReviewGate cfg s now ws gid reviewer approved expected notes).db := by
  unfold decideReviewGate
  split
  · exact .of_eq rfl
  · split
    · exact .of_eq rfl
    · split
      · exact .of_eq rfl
      · split
        · exact .of_eq rfl
        · split
          · exact .of_eq rfl
          · simp only
            split
            · exact .of_eq rfl
            · exact submitAndDeliver_files ..

theorem letters_cancelRun (s : Db) (now : Instant) (rid : RunId) :
    (cancelRun s now rid).deadLetters = s.deadLetters := by
  unfold cancelRun
  split
  · rfl
  · split
    · rfl
    · refine (letters_of_backstage (backstage_releaseAllReservations ..)).trans ?_
      exact letters_cancelAssignments ..

/-! ## Every operation -/

/-- The operator's retry. -/
def Action.isRetry : Action → Bool
  | .retryFailedJobs .. => true
  | _ => false

/-- **Every operation but the retry** adds entries, and files them. -/
theorem call_files (cfg : Config) (s : Db) (now : Instant) {action : Action}
    (hretry : action.isRetry = false) :
    s.Files s.Filed (Op.call cfg s ⟨now, action⟩).db := by
  have helsewhere : ∀ s' : Db, s.Files DeadLetterJob.Elsewhere s' → s.Files s.Filed s' :=
    fun s' h => h.mono fun e he => he.filed s
  cases action with
  | startRun ws item definition => exact .of_eq (letters_of_backstage (backstage_startRun ..))
  | pollAndLease batchSize rows => exact .of_eq (letters_of_backstage (backstage_updateJobs ..))
  | reapExpiredJobLeases batchSize rows =>
      exact .of_eq (letters_of_backstage (backstage_updateJobs ..))
  | processLeasedJob jid rows jitter => exact ofExcept_files fun _ h => processLeasedJob_files h
  | dispatchStage args rows =>
      refine ofExcept_files fun s' h => ?_
      obtain ⟨⟨s1, outcome⟩, hd, rfl⟩ := map_ok h
      exact .of_eq (letters_dispatchStage hd)
  | claimAssignment wid token ws rows =>
      refine ofExcept_files fun s' h => ?_
      obtain ⟨r, hc, rfl⟩ := map_ok h
      exact .of_eq (letters_claimAssignment hc)
  | acknowledge aid secs worker => exact ofExcept_files fun _ h => .of_eq (letters_acknowledge h)
  | renewLease aid secs worker => exact ofExcept_files fun _ h => .of_eq (letters_renewLease h)
  | submitResult aid success result errorMessage worker jitter => exact submitResult_files ..
  | recoverAssignment aid reason detail =>
      exact ofExcept_files fun _ h => helsewhere _ (recoverAssignment_files h)
  | reapExpiredLeases batchSize rows =>
      exact ofExcept_files fun _ h => helsewhere _ (recoverEach_files _ h)
  | reapWorkerAssignments wid reason batchSize detail rows =>
      exact ofExcept_files fun _ h => helsewhere _ (reapWorkerBatches_files _ h)
  | pauseForReview rid stage timeoutSeconds =>
      exact .of_eq (letters_of_backstage (backstage_pauseForReview ..))
  | submitReviewDecision gid reviewer approved notes =>
      refine ofExcept_files fun s' h => ?_
      obtain ⟨⟨s1, eid⟩, hd, rfl⟩ := map_ok h
      exact .of_eq (letters_of_backstage (backstage_submitReviewDecision hd))
  | dispatchOne eid => exact helsewhere _ (dispatchOne_files ..)
  | submitAndDeliver gid reviewer approved notes =>
      exact helsewhere _ (submitAndDeliver_files ..)
  | decideReviewGate ws gid reviewer approved expected notes =>
      exact helsewhere _ (decideReviewGate_files ..)
  | editReviewGateContent ws gid expected hook body cta =>
      exact ofExcept_files fun _ h =>
        .of_eq (letters_of_backstage (backstage_editReviewGateContent h))
  | handleReviewTimeout gid =>
      exact .of_eq (letters_of_backstage (backstage_handleReviewTimeout ..))
  | handleStageTimeout rid stage jitter =>
      exact ofExcept_files fun _ h => handleStageTimeout_files h
  | reserveSpend rid stage provider estimate =>
      show s.Files s.Filed (reserveSpendFor s now rid stage provider estimate)
      unfold reserveSpendFor
      split
      · exact .of_eq rfl
      · exact .of_eq (letters_reserveSpend ..)
  | cancelRun rid => exact .of_eq (letters_cancelRun ..)
  | retryFailedJobs ws rows => cases hretry

/-- A run stays, with its workspace. -/
theorem Writes.keepsRun {sc : Scope} {b b' : Board} {rid : RunId} {run : PipelineRun}
    (h : Writes cfg sc b b') (hrun : b.runs[rid]? = some run) :
    ∃ run', b'.runs[rid]? = some run' ∧ run'.definitionId = run.definitionId ∧
      run'.workspaceId = run.workspaceId := by
  refine h.invariant (I := fun b => ∃ run', b.runs[rid]? = some run' ∧
    run'.definitionId = run.definitionId ∧ run'.workspaceId = run.workspaceId) ?_
    ⟨run, hrun, rfl, rfl⟩
  intro b b' hw ⟨run1, hrun1, hd1, hws1⟩
  obtain ⟨run2, hrun2, hd2, hws2⟩ := hw.keepsRun hrun1
  exact ⟨run2, hrun2, hd2.trans hd1, hws2.trans hws1⟩

/-- An entry that is filed stays so. -/
theorem Db.Filed.writes {sc : Scope} {s s' : Db} {e : DeadLetterJob} (he : s.Filed e)
    (h : Writes cfg sc s.board s'.board) : s'.Filed e := by
  intro rid hrid
  obtain ⟨⟨run, hrun, hws⟩, htext⟩ := he rid hrid
  obtain ⟨run', hrun', _, hws'⟩ := h.keepsRun (show s.board.runs[rid]? = some run from hrun)
  exact ⟨⟨run', hrun', hws'.trans hws⟩, htext⟩

end HumanGate
