import HumanGate.Jobs.Letters

set_option autoImplicit false

/-! # What a manual retry requeues

`retry_failed_jobs` adds jobs for runs that have failed: for the stages of assignments, and for the
text that an entry about a run carries, which is that of no stage. So whatever holds of the stages
that work is for holds of the jobs that it adds (`exec_accounted`), as long as the entries about
runs are as `handle_stage_failure` has written them.
-/

namespace HumanGate

open Lib Lib.Calendar

variable {cfg : Config} {P : StageProp} {s : Db} {now : Instant} {ws : WorkspaceId}

/-! ## The account -/

/-- Every run is pinned to a definition that exists. -/
def Board.Defined (cfg : Config) (b : Board) : Prop :=
  ∀ run ∈ b.runs, (run.definitionId.bind cfg.definition).isSome = true

/-- What a retry relies on: the property holds of the stages that work is for, and the entries about
runs are filed. -/
structure Db.Accounted (cfg : Config) (P : StageProp) (s : Db) : Prop where
  sane : s.board.Sane
  carried : s.board.Carried cfg P
  defined : s.board.Defined cfg
  filed : s.LettersFiled

theorem Write.defined {sc : Scope} {b b' : Board} (h : Write cfg sc b b')
    (hstart : ∀ definition, sc.start definition → (cfg.definition definition).isSome = true)
    (hb : b.Defined cfg) : b'.Defined cfg := by
  cases h with
  | startRun hs hd _ =>
      refine Table.forall_push hb ?_
      rw [hd]
      exact hstart _ hs
  | run hf =>
      refine Table.forall_modify hb fun run hrun => ?_
      rw [hf.definitionId run]
      exact hb run (Table.mem_of_get hrun)
  | newJob | job | newAssignment | assignment | worker | newGate | gate | decision => exact hb

/-- A run is not started without a definition. -/
theorem exec_startRun_undefined {item : ItemId} {definition : DefinitionId}
    (h : cfg.definition definition = none) :
    exec cfg s ⟨now, .startRun ws item definition⟩ = s := by
  have hcall : startRun cfg s now ws item definition
      = { db := s, raised := some .integrityError } := by
    unfold startRun
    split
    · rename_i hd _
      rw [h] at hd
      cases hd
    · rfl
  show (startRun cfg s now ws item definition).commit s = s
  rw [hcall]
  rfl

theorem exec_defined {o : Op} (hsane : s.board.Sane) (hs : s.board.Defined cfg) :
    (exec cfg s o).board.Defined cfg := by
  by_cases hstart : ∀ definition ∈ o.starts, (cfg.definition definition).isSome = true
  · exact (exec_writes cfg o fun _ => hsane).invariant (I := Board.Defined cfg)
      (fun _ _ hw => hw.defined hstart) hs
  · obtain ⟨now, action⟩ := o
    cases action with
    | startRun ws item definition =>
        have hnone : cfg.definition definition = none := by
          by_contra hne
          refine hstart fun d hd => ?_
          cases hd
          exact Option.isSome_iff_ne_none.mpr hne
        rw [exec_startRun_undefined hnone]
        exact hs
    | _ => exact absurd (fun _ h => absurd h (by simp [Op.starts])) hstart

/-! ## The retry -/

/-- A text behind `stage:` is not the text of a stage. -/
theorem IsStageLetter.not_stage {text : String} (h : IsStageLetter text) :
    ContentStage.ofText? text = none := by
  obtain ⟨stage, rfl | rfl⟩ := h <;> cases stage <;> decide

/-- What the retry does with one entry. -/
inductive Retried (s : Db) (now : Instant) (ws : WorkspaceId) (i : Nat) : Db → Prop
  | left : Retried s now ws i s
  | closed : Retried s now ws i (s.resolveDeadLetter i)
  | requeued {entry : DeadLetterJob} {rid : RunId} {text : String} :
      s.deadLetters[i]? = some entry → deadLetterTarget s entry = some (rid, text) →
      Retried s now ws i ((requeueRun s now ws rid text entry.attemptCount).resolveDeadLetter i)

theorem retryDeadLetter_retried (s : Db) (now : Instant) (ws : WorkspaceId) (i : Nat) :
    Retried s now ws i (retryDeadLetter s now ws i) := by
  unfold retryDeadLetter
  split
  · exact .left
  · rename_i entry hentry
    split
    · exact .left
    · rename_i rid text htarget
      split
      · exact .left
      · split
        · exact .left
        · split
          · exact .closed
          · exact .requeued hentry htarget

/-- The writes of the retry: it reopens runs and adds one job. -/
def retryScope (job : JobSchedule) : Scope where
  moves := fun _ => True
  job := fun j => j = job
  reopens := True

/-- **One requeued run** keeps the account, when the job's text is no stage, or one that the
run's work is for. -/
theorem Db.Accounted.requeue (hP : P.OfPlain) {rid : RunId} {text : String} {attempt : Nat}
    (hs : s.Accounted cfg P) (htext : ∀ stage, ContentStage.ofText? text = some stage →
      s.board.At cfg P rid stage) :
    (requeueRun s now ws rid text attempt).Accounted cfg P := by
  have hwrites : Writes cfg (retryScope (retryJob now ws rid text attempt)) s.board
      (requeueRun s now ws rid text attempt).board :=
    requeueRun_writes s now ws rid text attempt trivial trivial rfl
  refine ⟨hwrites.invariant (I := Board.Sane) (fun _ _ => Write.sane) hs.sane, ?_, ?_, ?_⟩
  · refine (hwrites.carried (I := fun _ => True) hP (fun _ h => absurd h id) ?_
      hs.carried trivial fun _ _ _ _ _ => trivial).1
    rintro j rfl rid' stage href hst
    cases href
    exact htext stage hst
  · exact hwrites.invariant (I := Board.Defined cfg)
      (fun _ _ hw => hw.defined fun _ h => absurd h id) hs.defined
  · exact fun e he => (hs.filed e he).writes hwrites

/-- Resolving an entry changes nothing but its status. -/
theorem Db.Accounted.resolve (hs : s.Accounted cfg P) (i : Nat) :
    (s.resolveDeadLetter i).Accounted cfg P := by
  refine ⟨hs.sane, hs.carried, hs.defined, ?_⟩
  exact Table.forall_modify hs.filed fun e he => hs.filed e (Table.mem_of_get he)

/-- The text that an entry leads to is no stage, or one that the run's work is for. -/
theorem Db.Accounted.target (hs : s.Accounted cfg P) {i : Nat} {entry : DeadLetterJob} {rid : RunId}
    {text : String} (hentry : s.deadLetters[i]? = some entry)
    (htarget : deadLetterTarget s entry = some (rid, text)) :
    ∀ stage, ContentStage.ofText? text = some stage → s.board.At cfg P rid stage := by
  intro stage hstage
  unfold deadLetterTarget at htarget
  split at htarget
  · rename_i rid' hrel
    cases htarget
    rw [((hs.filed entry (Table.mem_of_get hentry)) rid hrel).2.not_stage] at hstage
    cases hstage
  · obtain ⟨a, ha, heq⟩ := Option.map_eq_some_iff.mp htarget
    cases heq
    rw [ContentStage.ofText?_value] at hstage
    cases hstage
    exact hs.carried.assignments a (Table.mem_of_get ha)
  · cases htarget
  · cases htarget

theorem Db.Accounted.retryDeadLetter (hP : P.OfPlain) (hs : s.Accounted cfg P) (now : Instant)
    (ws : WorkspaceId) (i : Nat) : (retryDeadLetter s now ws i).Accounted cfg P := by
  have h := retryDeadLetter_retried s now ws i
  generalize HumanGate.retryDeadLetter s now ws i = s' at h
  cases h with
  | left => exact hs
  | closed => exact hs.resolve i
  | requeued hentry htarget => exact (hs.requeue hP (hs.target hentry htarget)).resolve i

theorem Db.Accounted.retryDeadLetters (hP : P.OfPlain) (now : Instant) (ws : WorkspaceId)
    (ids : List Nat) : ∀ {s : Db}, s.Accounted cfg P →
    (retryDeadLetters s now ws ids).Accounted cfg P := by
  induction ids with
  | nil => intro s hs; exact hs
  | cons i rest ih => intro s hs; exact ih (hs.retryDeadLetter hP now ws i)

theorem Db.Accounted.retryAssignments (hP : P.OfPlain) (flushed : List JobSchedule) (now : Instant)
    (ws : WorkspaceId) (ids : List AssignmentId) :
    ∀ {s : Db}, s.Accounted cfg P → (retryAssignments flushed s now ws ids).Accounted cfg P := by
  induction ids with
  | nil => intro s hs; exact hs
  | cons aid rest ih =>
      intro s hs
      refine ih ?_
      unfold retryAssignment
      split
      · exact hs
      · rename_i a ha
        split
        · exact hs
        · split
          · exact hs
          · split
            · exact hs
            · refine hs.requeue hP fun stage hstage => ?_
              rw [ContentStage.ofText?_value] at hstage
              cases hstage
              exact hs.carried.assignments a (Table.mem_of_get ha)

/-- **The account is kept** by a manual retry, and by every other operation that keeps the stages
that work is for. -/
theorem exec_accounted {o : Op} (hP : P.OfPlain)
    (hcarried : o.action.isRetry = false → (exec cfg s o).board.Carried cfg P)
    (hs : s.Accounted cfg P) : (exec cfg s o).Accounted cfg P := by
  by_cases hretry : o.action.isRetry = true
  · obtain ⟨now, action⟩ := o
    cases action with
    | retryFailedJobs ws rows =>
        have hletters := hs.retryDeadLetters hP now ws (pendingDeadLetters s ws)
        have h := hletters.retryAssignments hP s.jobs now ws (recentlyFailed s now ws rows)
        exact ⟨h.sane, h.carried, h.defined, h.filed⟩
    | _ => cases hretry
  · have hretry' : o.action.isRetry = false := by simpa using hretry
    refine ⟨exec_sane cfg o hs.sane, hcarried hretry', exec_defined hs.sane hs.defined, ?_⟩
    -- the old entries stay filed, and the new ones are
    have hwrites := exec_writes cfg o fun _ => hs.sane
    have hfiles : s.Files s.Filed (exec cfg s o) := by
      unfold exec Call.commit
      split
      · exact .of_eq rfl
      · exact (call_files cfg s o.now hretry').trans (.of_eq rfl)
    obtain ⟨new, hnew, hfiled⟩ := hfiles
    intro e he
    rw [hnew] at he
    rcases List.mem_append.mp he with he | he
    · exact (hs.filed e he).writes hwrites
    · exact (hfiled e he).writes hwrites

/-- Nothing is to be accounted for yet. -/
theorem Fresh.accounted (h : Fresh s) (hletters : s.deadLetters = []) : s.Accounted cfg P := by
  refine ⟨h.sane, h.carried, ?_, ?_⟩
  · intro run hrun
    rw [show s.board.runs = [] from h.runs] at hrun
    cases hrun
  · intro e he
    rw [hletters] at he
    cases he

end HumanGate
