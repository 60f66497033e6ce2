import HumanGate.Jobs.Requeued
import HumanGate.Model.Desk

set_option autoImplicit false

/-! # What a manual retry makes of the dead letters

`retry_failed_jobs` reads the entries that four writers have written, each in its own way. An entry
about an assignment leads to the assignment's run and stage, and to a job for the next attempt of
the entry; where that attempt is taken, the job ends without an assignment of its own. An entry
about a run carries its stage behind `stage:`, and the retry takes the whole text for a stage: the
job it enqueues is one that no worker can ever be given, and the entry is resolved all the same.
Entries about jobs and events are left as they are. `retry_fits_iff` says for which entries the
retry fits what was written.
-/

namespace HumanGate

open Lib Lib.Calendar

variable {cfg : Config} {s : Db} {now : Instant} {ws : WorkspaceId}

/-! ## What is known of the rows -/

/-- The stage has a row. -/
def InDefinition : StageProp := fun d stage => (d.stageRow stage).isSome

theorem inDefinition_ofPlain : InDefinition.OfPlain where
  first := fun h => by
    unfold InDefinition
    rw [stageRow_of_mem (firstStage_mem h)]
    rfl
  plain := fun hrow _ _ => by
    unfold InDefinition
    rw [hrow]
    rfl

/-! ## The stages that work is for -/

/-- A stage timeout changes nothing, or its stage has a row. -/
theorem handleStageTimeout_at {s' : Db} {rid : RunId} {stage : ContentStage} {jitter : Nat}
    (h : handleStageTimeout cfg s now rid stage jitter = .ok s') :
    s' = s ∨ s.board.At cfg InDefinition rid stage := by
  unfold handleStageTimeout at h
  split at h
  · cases h
    exact .inl rfl
  · split at h
    · right
      unfold handleStageFailure at h
      split at h
      · cases h
      · rename_i run hrun
        simp only at h
        split at h
        · cases h
        · rename_i d hd
          split at h
          · cases h
          · rename_i row hrow
            refine ⟨run, hrun, fun d' hd' => ?_⟩
            rw [definitionOf_ok hd] at hd'
            cases hd'
            unfold InDefinition
            rw [getStageDef_ok hrow]
            rfl
    · cases h
      exact .inl rfl

theorem exec_carried_inDefinition {o : Op} (ho : o.Queued s)
    (hretry : o.action.isRetry = false) (hsane : s.board.Sane)
    (hs : s.board.Carried cfg InDefinition) : (exec cfg s o).board.Carried cfg InDefinition := by
  have hwrites := exec_writes cfg o fun _ => hsane
  have hkept : (∀ j, o.namesJob j → s.board.LeadsAt cfg InDefinition j) →
      (exec cfg s o).board.Carried cfg InDefinition := fun hjob =>
    (hwrites.carried (I := fun _ => True) inDefinition_ofPlain (fun a ha => ho.inserts hs ha) hjob
      hs trivial fun _ _ _ _ _ => trivial).1
  obtain ⟨now, action⟩ := o
  cases action with
  | handleStageTimeout rid stage jitter =>
      cases htimeout : handleStageTimeout cfg s now rid stage jitter with
      | error e =>
          have hsame : exec cfg s ⟨now, .handleStageTimeout rid stage jitter⟩ = s := by
            show (Call.ofExcept s (handleStageTimeout cfg s now rid stage jitter)).commit s = s
            rw [htimeout]
            rfl
          rw [hsame]
          exact hs
      | ok s' =>
          rcases handleStageTimeout_at htimeout with rfl | hat
          · have hsame : (exec cfg s' ⟨now, .handleStageTimeout rid stage jitter⟩).board
                = s'.board := by
              show ((Call.ofExcept s' (handleStageTimeout cfg s' now rid stage jitter)).commit
                s').board = s'.board
              rw [htimeout]
              rfl
            rw [hsame]
            exact hs
          · refine hkept fun j hj rid' stage' href hst => ?_
            obtain ⟨href', htable⟩ := hj
            rw [href'] at href
            cases href
            rw [htable, ContentStage.ofText?_value] at hst
            cases hst
            exact hat
  | retryFailedJobs ws rows => cases hretry
  | _ => exact hkept fun j hj => absurd hj id

/-- The orchestration, from a database without dead letters. -/
def letterSystem (cfg : Config) : System Db Op :=
  { orchestration cfg fun s o => o.Queued s with
    init := fun s => Fresh s ∧ s.deadLetters = [] }

theorem reachable_accounted (h : (letterSystem cfg).Reachable s) :
    s.Accounted cfg InDefinition := by
  refine h.invariant (I := Db.Accounted cfg InDefinition) ?_ ?_
  · rintro s ⟨hfresh, hletters⟩
    exact hfresh.accounted hletters
  · intro s o hs ho
    exact exec_accounted inDefinition_ofPlain
      (fun hretry => exec_carried_inDefinition ho hretry hs.sane hs.carried) hs

/-! ## What fits -/

/-- The run and the stage whose failure the entry records. -/
def DeadLetterJob.About (s : Db) (e : DeadLetterJob) (rid : RunId) (stage : ContentStage) : Prop :=
  match e.relatedId with
  | .pipelineRun r =>
      r = rid ∧ (e.jobType = "stage:" ++ stage.value ∨ e.jobType = "stage:" ++ stage.formatted)
  | .stageAssignment aid =>
      ∃ a, s.assignments[aid]? = some a ∧ a.pipelineRunId = rid ∧ a.stage = stage
  | .jobSchedule _ | .outboxEvent _ => False

/-- No assignment of the workspace is under the key yet. -/
def Db.keyFree (s : Db) (ws : WorkspaceId) (key : IdempotencyKey) : Bool :=
  (assignmentByKey s ws key).isNone

/-- A dispatch of the job inserts an assignment of its own: the key of its attempt is free. -/
def JobSchedule.Dispatchable (s : Db) (job : JobSchedule) (rid : RunId) : Prop :=
  s.keyFree job.workspaceId (job.dispatchArgs rid).key = true

theorem runRefusal_ne_dispatched (run : Option PipelineRun) :
    runRefusal run ≠ some .dispatched := by
  unfold runRefusal
  split
  · exact nofun
  · split
    · exact nofun
    · split
      · split <;> exact nofun
      · exact nofun

/-- Only such a job is ever given to a worker. -/
theorem dispatchable_of_dispatched {s' : Db} {job : JobSchedule} {rid : RunId}
    {rows : List WorkerId}
    (h : dispatchStage cfg s now (job.dispatchArgs rid) rows = .ok (s', .dispatched)) :
    job.Dispatchable s rid := by
  unfold dispatchStage at h
  split at h
  · cases h
  · split at h
    · rename_i outcome hrefusal
      cases h
      exact absurd hrefusal (runRefusal_ne_dispatched _)
    · split at h
      · cases h
      · rename_i hkey
        unfold JobSchedule.Dispatchable Db.keyFree
        rw [show (job.dispatchArgs rid).workspaceId = job.workspaceId from rfl] at hkey
        rw [hkey]
        rfl

/-- It is given to a worker by the first dispatch that finds its run running, a worker and room for
one more assignment. -/
theorem JobSchedule.Dispatchable.dispatched {job : JobSchedule} {rid : RunId} {run : PipelineRun}
    {stage : ContentStage} {rows : List WorkerId} {wid : WorkerId} (h : job.Dispatchable s rid)
    (hstage : job.refTable = stage.value) (hrun : s.runs[rid]? = some run)
    (hrunning : run.status = .running)
    (hroom : inFlightCount s job.workspaceId < maxConcurrentAssignments cfg job.workspaceId)
    (hcapacity : hasProviderCapacity cfg s job.workspaceId none = true)
    (hworker : (selectWorker s job.refTable rows).map Prod.fst = some wid)
    (hspend : spendFits cfg s now (job.dispatchArgs rid) = true) :
    ∃ s', dispatchStage cfg s now (job.dispatchArgs rid) rows = .ok (s', .dispatched) := by
  have hkey : assignmentByKey s job.workspaceId (job.dispatchArgs rid).key = none := by
    rw [← Option.isNone_iff_eq_none]
    exact h
  have hrefusal : runRefusal (some run) = none := by
    simp [runRefusal, hrunning, PipelineRunStatus.isTerminal]
  have htext : ContentStage.ofText? job.refTable = some stage := by
    rw [hstage, ContentStage.ofText?_value]
  unfold spendFits at hspend
  simp only [JobSchedule.dispatchArgs, htext, hrun] at hspend
  obtain ⟨resId, hres⟩ := Option.isSome_iff_exists.mp hspend
  unfold dispatchStage assignStage
  simp only [JobSchedule.dispatchArgs] at hkey ⊢
  simp only [hroom.not_ge, if_false, hrefusal, hkey, hcapacity, if_true, hworker, htext, hrun, hres]
  exact ⟨_, rfl⟩

/-- A retry job of the run and the stage is added that can be dispatched, the stage is one of the
run's definition, and the run is running. -/
structure Requeues (cfg : Config) (s s' : Db) (rid : RunId) (stage : ContentStage) : Prop where
  job : ∃ job, s'.jobs = s.jobs ++ [job] ∧ job.jobType = .retry ∧ job.refId = .run rid ∧
    job.refTable = stage.value ∧ job.Dispatchable s' rid
  run : ∃ run d, s'.runs[rid]? = some run ∧ run.status = .running ∧
    run.definitionId.bind cfg.definition = some d ∧ (d.stageRow stage).isSome = true

/-- The entry is pending, and the runs and the jobs are as they were. -/
structure LeavesPending (s s' : Db) (i : Nat) : Prop where
  entry : ∃ e, s'.deadLetters[i]? = some e ∧ e.status = .pending
  runs : s'.runs = s.runs
  jobs : s'.jobs = s.jobs

/-- What is done about an entry fits it: the failed stage of the failed run is requeued, or all
is left as it was. -/
def RetryFits (cfg : Config) (s s' : Db) (i : Nat) : Prop :=
  (∃ e rid stage, s.deadLetters[i]? = some e ∧ e.About s rid stage ∧ Requeues cfg s s' rid stage) ∨
    LeavesPending s s' i

/-- The retry leaves the run running. -/
def PipelineRun.resumes (run : PipelineRun) : Bool :=
  run.status == .failed || run.status == .running

theorem resumes_not_closed {run : PipelineRun} (h : run.resumes = true) :
    run.status.isClosed = false := by
  unfold PipelineRun.resumes at h
  rw [Bool.or_eq_true, beq_iff_eq, beq_iff_eq] at h
  rcases h with h | h <;> rw [h] <;> rfl

/-- The run is of another workspace; or the retry leaves it running, and the key of the next attempt
of the stage is free. -/
def Db.retryable (s : Db) (ws : WorkspaceId) (e : DeadLetterJob) (a : StageAssignment)
    (run : PipelineRun) : Bool :=
  run.workspaceId != ws ||
    (run.resumes && s.keyFree ws ⟨a.pipelineRunId, a.stage.value, e.attemptCount + 1⟩)

/-- The entry is not about a run; and if it is about an assignment whose run is there, it can be
retried. -/
def Db.decodable (s : Db) (ws : WorkspaceId) (i : Nat) : Bool :=
  (s.deadLetters[i]?).all fun e =>
    match e.relatedId with
    | .pipelineRun _ => false
    | .stageAssignment aid => (s.assignments[aid]?).all fun a =>
        (s.runs[a.pipelineRunId]?).all (s.retryable ws e a)
    | .jobSchedule _ | .outboxEvent _ => true

/-- A resolved entry was not left pending. -/
theorem not_leavesPending {s' : Db} {i : Nat} : ¬ LeavesPending s (s'.resolveDeadLetter i) i := by
  rintro ⟨⟨e, he, hpending⟩, _, _⟩
  obtain ⟨_, _, ⟨_, rfl⟩ | ⟨hne, _⟩⟩ := Table.get_modify he
  · cases hpending
  · exact hne rfl

/-- Without a new job nothing is requeued. -/
theorem not_requeues_of_jobs {s' : Db} {rid : RunId} {stage : ContentStage}
    (h : s'.jobs = s.jobs) : ¬ Requeues cfg s s' rid stage := by
  rintro ⟨⟨job, hjobs, _⟩, _⟩
  rw [h] at hjobs
  have := congrArg List.length hjobs
  simp at this

/-- The job of a requeued run is for the text that the entry led to, and the key of its attempt is
free. -/
theorem Requeues.text {rid rid' : RunId} {stage : ContentStage} {text : String} {attempt i : Nat}
    (h : Requeues cfg s ((requeueRun s now ws rid' text attempt).resolveDeadLetter i) rid stage) :
    rid' = rid ∧ text = stage.value ∧ s.keyFree ws ⟨rid', text, attempt + 1⟩ = true := by
  obtain ⟨⟨job, hjobs, _, href, htable, hfree⟩, _⟩ := h
  have hjob : retryJob now ws rid' text attempt = job := by
    have happend : s.jobs ++ [retryJob now ws rid' text attempt] = s.jobs ++ [job] := hjobs
    simpa using happend
  subst hjob
  cases href
  exact ⟨rfl, htable, hfree⟩

/-! ## One entry -/

/-- An entry about a run never fits. -/
theorem runLetter_unfit {i : Nat} {e : DeadLetterJob} {rid : RunId}
    (hs : s.Accounted cfg InDefinition)
    (he : s.deadLetters[i]? = some e) (hws : e.workspaceId = ws)
    (hrel : e.relatedId = .pipelineRun rid) :
    ¬ RetryFits cfg s (retryDeadLetter s now ws i) i := by
  obtain ⟨⟨run, hrun, hrunws⟩, hletter⟩ := hs.filed e (Table.mem_of_get he) rid hrel
  have htarget : deadLetterTarget s e = some (rid, e.jobType) := by
    unfold deadLetterTarget
    rw [hrel]
  unfold retryDeadLetter
  simp only [he, htarget, hrun, hrunws.trans hws, ne_eq, not_true_eq_false, if_false]
  split
  · rintro (⟨_, _, _, _, _, hreq⟩ | hleft)
    · exact absurd hreq (not_requeues_of_jobs rfl)
    · exact not_leavesPending hleft
  · rintro (⟨_, _, stage, _, _, hreq⟩ | hleft)
    · -- the text of the entry would be that of a stage
      have htext := hletter.not_stage
      rw [hreq.text.2.1, ContentStage.ofText?_value] at htext
      cases htext
    · exact not_leavesPending hleft

/-- A requeued assignment fits when its run is left running and the key of the next attempt is
free. -/
theorem requeued_fits_iff {i : Nat} {e : DeadLetterJob} {aid : AssignmentId} {a : StageAssignment}
    {run : PipelineRun} (hs : s.Accounted cfg InDefinition) (he : s.deadLetters[i]? = some e)
    (ha : s.assignments[aid]? = some a) (hrun : s.runs[a.pipelineRunId]? = some run)
    (hrel : e.relatedId = .stageAssignment aid) :
    RetryFits cfg s ((requeueRun s now ws a.pipelineRunId a.stage.value
        e.attemptCount).resolveDeadLetter i) i ↔
      run.resumes = true ∧
        s.keyFree ws ⟨a.pipelineRunId, a.stage.value, e.attemptCount + 1⟩ = true := by
  have hreopened : ((requeueRun s now ws a.pipelineRunId a.stage.value
      e.attemptCount).resolveDeadLetter i).runs[a.pipelineRunId]? = some run.reopen :=
    Table.get_modify_self hrun
  constructor
  · rintro (⟨_, rid, stage, _, _, hreq⟩ | hleft)
    · obtain ⟨rfl, _, hfree⟩ := hreq.text
      obtain ⟨run', d, hrun', hstatus, _, _⟩ := hreq.run
      rw [hreopened] at hrun'
      cases hrun'
      refine ⟨?_, hfree⟩
      unfold PipelineRun.reopen at hstatus
      split at hstatus
      · rename_i hfailed
        simp [PipelineRun.resumes, hfailed]
      · simp [PipelineRun.resumes, hstatus]
    · exact absurd hleft not_leavesPending
  · rintro ⟨hresumes, hfree⟩
    left
    -- the stage is one of the definition, as work is for no other
    obtain ⟨run', hrun', hat⟩ := hs.carried.assignments a (Table.mem_of_get ha)
    rw [show s.board.runs[a.pipelineRunId]? = some run from hrun] at hrun'
    cases hrun'
    obtain ⟨d, hd⟩ := Option.isSome_iff_exists.mp (hs.defined run (Table.mem_of_get hrun))
    refine ⟨e, a.pipelineRunId, a.stage, he, ?_, ⟨⟨_, rfl, rfl, rfl, rfl, hfree⟩, ?_⟩⟩
    · unfold DeadLetterJob.About
      rw [hrel]
      exact ⟨a, ha, rfl, rfl⟩
    · refine ⟨run.reopen, d, hreopened, ?_, ?_, hat d hd⟩
      · unfold PipelineRun.resumes at hresumes
        rw [Bool.or_eq_true, beq_iff_eq, beq_iff_eq] at hresumes
        rcases hresumes with h | h <;> simp [PipelineRun.reopen, h]
      · unfold PipelineRun.reopen
        split <;> exact hd

/-- An entry about an assignment fits when its run is left running and the next attempt has its
key. -/
theorem assignmentLetter_fits_iff {i : Nat} {e : DeadLetterJob} {aid : AssignmentId}
    (hs : s.Accounted cfg InDefinition) (he : s.deadLetters[i]? = some e)
    (hpending : e.status = .pending) (hrel : e.relatedId = .stageAssignment aid) :
    RetryFits cfg s (retryDeadLetter s now ws i) i ↔
      ((s.assignments[aid]?).all fun a =>
        (s.runs[a.pipelineRunId]?).all (s.retryable ws e a)) = true := by
  have hleft : RetryFits cfg s s i := .inr ⟨⟨e, he, hpending⟩, rfl, rfl⟩
  have htarget : deadLetterTarget s e
      = (s.assignments[aid]?).map fun a => (a.pipelineRunId, a.stage.value) := by
    unfold deadLetterTarget
    rw [hrel]
  unfold retryDeadLetter
  simp only [he, htarget]
  cases ha : s.assignments[aid]? with
  | none => simpa using hleft
  | some a =>
      simp only [Option.map_some, Option.all_some]
      cases hrun : s.runs[a.pipelineRunId]? with
      | none => simpa using hleft
      | some run =>
          simp only [Option.all_some]
          by_cases hws : run.workspaceId = ws
          · simp only [hws, ne_eq, not_true_eq_false, if_false]
            have hretryable : s.retryable ws e a run = true ↔ run.resumes = true ∧
                s.keyFree ws ⟨a.pipelineRunId, a.stage.value, e.attemptCount + 1⟩ = true := by
              simp [Db.retryable, hws]
            rw [hretryable]
            split
            · rename_i hclosed
              constructor
              · rintro (⟨_, _, _, _, _, hreq⟩ | hleft)
                · exact absurd hreq (not_requeues_of_jobs rfl)
                · exact absurd hleft not_leavesPending
              · rintro ⟨hresumes, -⟩
                rw [resumes_not_closed hresumes] at hclosed
                cases hclosed
            · exact requeued_fits_iff hs he ha hrun hrel
          · -- the entry of a run of another workspace is passed over
            have hretryable : s.retryable ws e a run = true := by simp [Db.retryable, hws]
            simp only [ne_eq, hws, not_false_eq_true, if_true, hretryable, iff_true]
            exact hleft

/-- **The retry of one entry** fits it exactly when the entry can be decoded. -/
theorem retryDeadLetter_fits_iff {i : Nat} {e : DeadLetterJob} (hs : s.Accounted cfg InDefinition)
    (he : s.deadLetters[i]? = some e) (hws : e.workspaceId = ws) (hpending : e.status = .pending) :
    RetryFits cfg s (retryDeadLetter s now ws i) i ↔ s.decodable ws i = true := by
  -- an entry that leads nowhere is left as it is
  have hleft : deadLetterTarget s e = none → RetryFits cfg s (retryDeadLetter s now ws i) i := by
    intro htarget
    unfold retryDeadLetter
    simp only [he, htarget]
    exact .inr ⟨⟨e, he, hpending⟩, rfl, rfl⟩
  unfold Db.decodable
  rw [he, Option.all_some]
  cases hrel : e.relatedId with
  | pipelineRun rid =>
      simp only [Bool.false_eq_true, iff_false]
      exact runLetter_unfit hs he hws hrel
  | stageAssignment aid =>
      simp only
      exact assignmentLetter_fits_iff hs he hpending hrel
  | jobSchedule jid =>
      simp only [iff_true]
      exact hleft (by unfold deadLetterTarget; rw [hrel])
  | outboxEvent eid =>
      simp only [iff_true]
      exact hleft (by unfold deadLetterTarget; rw [hrel])

/-! ## The loop over the entries -/

/-- What a retry does not change of a run. -/
def PipelineRun.standing (run : PipelineRun) : WorkspaceId × Bool := (run.workspaceId, run.resumes)

theorem reopen_standing (run : PipelineRun) : run.reopen.standing = run.standing := by
  unfold PipelineRun.reopen
  split
  · rename_i h
    simp [PipelineRun.standing, PipelineRun.resumes, h]
  · rfl

/-- What the loop has left of the database when it comes to the entry `i`. -/
structure Looped (i : Nat) (s s' : Db) : Prop where
  assignments : s'.assignments = s.assignments
  entry : s'.deadLetters[i]? = s.deadLetters[i]?
  runs : ∀ rid : RunId, (s'.runs[rid]?).map PipelineRun.standing
    = (s.runs[rid]?).map PipelineRun.standing

theorem Looped.trans {i : Nat} {s s1 s2 : Db} (h : Looped i s s1) (h' : Looped i s1 s2) :
    Looped i s s2 :=
  ⟨h'.assignments.trans h.assignments, h'.entry.trans h.entry,
    fun rid => (h'.runs rid).trans (h.runs rid)⟩

theorem retryDeadLetter_looped {i j : Nat} (hij : j ≠ i) (s : Db) :
    Looped i s (retryDeadLetter s now ws j) := by
  have h := retryDeadLetter_retried s now ws j
  generalize retryDeadLetter s now ws j = s' at h
  cases h with
  | left => exact ⟨rfl, rfl, fun _ => rfl⟩
  | closed => exact ⟨rfl, Table.get_modify_ne hij, fun _ => rfl⟩
  | @requeued entry rid text hentry htarget =>
      refine ⟨rfl, Table.get_modify_ne hij, fun rid' => ?_⟩
      show ((s.runs.modify rid PipelineRun.reopen)[rid']?).map _ = _
      by_cases hrid : rid = rid'
      · subst hrid
        cases hrun : s.runs[rid]? with
        | none =>
            rw [List.getElem?_modify, hrun]
            rfl
        | some run =>
            rw [Table.get_modify_self hrun]
            exact congrArg some (reopen_standing run)
      · rw [Table.get_modify_ne hrid]

theorem retryDeadLetters_looped {i : Nat} (ids : List Nat) : ∀ s : Db, i ∉ ids →
    Looped i s (retryDeadLetters s now ws ids) := by
  induction ids with
  | nil => intro s _; exact ⟨rfl, rfl, fun _ => rfl⟩
  | cons j rest ih =>
      intro s hi
      rw [List.mem_cons, not_or] at hi
      exact (retryDeadLetter_looped (Ne.symm hi.1) s).trans (ih _ hi.2)

theorem Looped.decodable {i : Nat} {s s' : Db} (h : Looped i s s') (ws : WorkspaceId) :
    s'.decodable ws i = s.decodable ws i := by
  have hkey : s'.keyFree = s.keyFree := by
    funext ws key
    unfold Db.keyFree assignmentByKey
    rw [h.assignments]
  unfold Db.decodable
  rw [h.entry, h.assignments]
  cases s.deadLetters[i]? with
  | none => rfl
  | some e =>
      rw [Option.all_some, Option.all_some]
      cases e.relatedId with
      | stageAssignment aid =>
          dsimp only
          cases s.assignments[aid]? with
          | none => rfl
          | some a =>
              have hrun := h.runs a.pipelineRunId
              rw [Option.all_some, Option.all_some]
              -- what the condition reads of the run is its standing
              have hall : ∀ x : Option PipelineRun, x.all (s.retryable ws e a)
                  = (x.map PipelineRun.standing).all fun p => p.1 != ws ||
                    (p.2 && s.keyFree ws ⟨a.pipelineRunId, a.stage.value, e.attemptCount + 1⟩) :=
                fun x => by cases x <;> rfl
              have hretryable : s'.retryable ws e a = s.retryable ws e a := by
                funext run
                unfold Db.retryable
                rw [hkey]
              rw [hretryable, hall, hall, hrun]
      | pipelineRun rid => rfl
      | jobSchedule jid => rfl
      | outboxEvent eid => rfl

/-- **When a manual retry fits the dead letters.** In every reachable state and for every pending
entry of the workspace, what `retry_failed_jobs` does when it comes to the entry fits what was
written, if and only if the entry is not about a run, and the assignment it is about, if its run is
one of the workspace, has a run that is failed or running and the key of its next attempt is
free. -/
theorem retry_fits_iff (h : (letterSystem cfg).Reachable s) (now : Instant) (ws : WorkspaceId)
    {before rest : List Nat} {i : Nat} (hi : pendingDeadLetters s ws = before ++ i :: rest) :
    RetryFits cfg (retryDeadLetters s now ws before)
        (retryDeadLetter (retryDeadLetters s now ws before) now ws i) i ↔
      s.decodable ws i = true := by
  have hmem : i ∈ pendingDeadLetters s ws := by
    rw [hi]
    simp
  obtain ⟨e, he, hp⟩ := Table.mem_select.mp hmem
  simp only [Bool.and_eq_true, beq_iff_eq] at hp
  have hnodup : (before ++ i :: rest).Nodup := hi ▸ Table.select_nodup _ _
  rw [List.nodup_middle, List.nodup_cons, List.mem_append, not_or] at hnodup
  -- the entries before this one leave alone what the condition reads
  have hlooped : Looped i s (retryDeadLetters s now ws before) :=
    retryDeadLetters_looped before s hnodup.1.1
  rw [← hlooped.decodable ws]
  exact retryDeadLetter_fits_iff
    ((reachable_accounted h).retryDeadLetters inDefinition_ofPlain now ws before)
    (hlooped.entry.trans he) hp.1 hp.2

instance (cfg : Config) (s : Db) (o : Op) : Decidable ((letterSystem cfg).allowed s o) :=
  inferInstanceAs (Decidable (o.Queued s))

/-- The desk's run, dispatched, and then given up by recovery: an entry about its assignment. -/
def exhaustedOps : List Op :=
  [⟨0, .startRun 0 0 0⟩, ⟨1, .pollAndLease 10 [0]⟩, ⟨2, .processLeasedJob 0 [0] 0⟩,
   ⟨3, .recoverAssignment 0 .leaseExpired none⟩]

theorem exhausted_run_retried :
    RetryFits deskConfig (runOps deskConfig deskDb exhaustedOps)
      (retryDeadLetter (runOps deskConfig deskDb exhaustedOps) 4 0 0) 0 := by
  have hreach : (letterSystem deskConfig).Reachable (runOps deskConfig deskDb exhaustedOps) :=
    System.Reachable.of_legal exhaustedOps (.init ⟨deskDb_fresh, rfl⟩) (by decide +kernel)
  have hpending : pendingDeadLetters (runOps deskConfig deskDb exhaustedOps) 0 = [] ++ 0 :: [] := by
    decide +kernel
  exact (retry_fits_iff hreach 4 0 hpending).mpr (by decide +kernel)

/-- **A failed run that cannot be retried.** The desk's run fails for good and the operator
retries it: the entry is resolved, and the job it was turned into raises when it is carried
out. -/
theorem failed_run_not_retried :
    (letterSystem deskConfig).Reachable (runOps deskConfig deskDb failedOps) ∧
    pendingDeadLetters (runOps deskConfig deskDb failedOps) 0 = [0] ∧
    ¬ RetryFits deskConfig (runOps deskConfig deskDb failedOps)
      (retryDeadLetter (runOps deskConfig deskDb failedOps) 4 0 0) 0 ∧
    ((exec deskConfig (runOps deskConfig deskDb failedOps)
      ⟨4, .retryFailedJobs 0 [0]⟩).deadLetters[0]?).map DeadLetterJob.status = some .resolved ∧
    (Op.call deskConfig (exec deskConfig (runOps deskConfig deskDb failedOps)
      ⟨4, .retryFailedJobs 0 [0]⟩) ⟨5, .processLeasedJob 1 [0] 0⟩).raised
        = some (.invalidStage "stage:ContentStage.SCRIPTING") := by
  have hreach : (letterSystem deskConfig).Reachable (runOps deskConfig deskDb failedOps) :=
    System.Reachable.of_legal failedOps (.init ⟨deskDb_fresh, rfl⟩) (by decide +kernel)
  refine ⟨hreach, by decide +kernel, ?_, by decide +kernel, by decide +kernel⟩
  have hentry : ((runOps deskConfig deskDb failedOps).deadLetters[0]?).map
      (fun e => (e.workspaceId, e.relatedId)) = some (0, .pipelineRun 0) := by decide +kernel
  obtain ⟨e, he, heq⟩ := Option.map_eq_some_iff.mp hentry
  rw [Prod.mk.injEq] at heq
  exact runLetter_unfit (reachable_accounted hreach) he heq.1 heq.2

end HumanGate
