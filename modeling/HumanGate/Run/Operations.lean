import HumanGate.Lib.Outcome
import HumanGate.Run.Writes

set_option autoImplicit false

/-! # The writes of an operation

The dispatcher, claiming, recovery, the scheduler and the review desk as sequences of writes,
and `exec_writes`, which says it of every operation. `Op.scope` is what an operation may do
beyond the common guards; in particular `Op.overwrites` is the status it writes to a run
without looking at the one the run has.
-/

namespace HumanGate

open Lib Lib.Calendar Relation

variable {cfg : Config} {sc : Scope}

/-- A call that raises leaves the board. -/
theorem ofExcept_writes {s : Db} {e : Except Err Db}
    (h : ∀ s', e = .ok s' → Writes cfg sc s.board s'.board) :
    Writes cfg sc s.board (Call.ofExcept s e).db.board := by
  cases e with
  | error _ => exact .refl
  | ok s' => exact h s' rfl

/-- An update that keeps an open assignment open. -/
theorem updateAssignment_write (s : Db) (now : Instant) (aid : AssignmentId)
    {f : StageAssignment → StageAssignment}
    (hf : ∀ a, (f a).SameTarget a ∧ (f a).workerId = a.workerId)
    (hopen : ∀ a, a.status.isOpen = true → (f a).status.isOpen = true) :
    Write cfg sc s.board (s.updateAssignment now aid f).board :=
  .assignment (.keep hf) (.inl hopen)

/-! ## Delivering decisions -/

@[simp] theorem board_failDelivery (s : Db) (now : Instant) (eid : EventId) (event : OutboxEvent)
    (e : Err) : (failDelivery s now eid event e).board = s.board := by
  unfold failDelivery
  simp only
  split <;> rfl

/-- The gate and the verdict that delivering an event hands to `resume_from_review`. -/
def deliveredVerdict (s : Db) (eid : EventId) : Option (GateId × Bool) :=
  match s.outbox[eid]? with
  | none => none
  | some event =>
      match reviewHandler event.eventType, event.reviewGateId with
      | some approved, some gid =>
          if event.sequence ≤ s.lastSequence event.aggregateId then none else some (gid, approved)
      | _, _ => none

theorem dispatchOne_writes (s : Db) (now : Instant) (eid : EventId)
    (h : ∀ gid approved, deliveredVerdict s eid = some (gid, approved) →
      (∀ rid st, resumeOverwrites cfg s gid approved = some (rid, st) → sc.loose rid st) ∧
      (∀ g, s.gates[gid]? = some g → sc.moves g.pipelineRunId) ∧
      (s.board.Backed gid approved ∨ sc.verdict)) :
    Writes cfg sc s.board (dispatchOne cfg s now eid).db.board := by
  unfold deliveredVerdict at h
  unfold dispatchOne
  split
  · exact .refl
  · rename_i event hevent
    simp only [hevent] at h
    split
    · exact .refl
    · rename_i approved happ
      split
      · exact .refl
      · rename_i hseq
        -- whether the handler raises or not, what it wrote stays
        have hcall : Writes cfg sc s.board (onReview cfg s now event approved).db.board := by
          unfold onReview
          split
          · exact .refl
          · rename_i gid hgid
            simp only [happ, hgid, hseq, if_false] at h
            obtain ⟨hloose, hmoves, hverdict⟩ := h gid approved rfl
            exact resumeFromReview_writes s now gid approved hloose hmoves hverdict
        simp only
        split
        · exact hcall
        · rw [board_failDelivery]
          exact hcall

/-- A recorded decision backs the verdict it carries. -/
theorem submitReviewDecision_backed (cfg : Config) {s s' : Db} {now : Instant} {gid : GateId}
    {reviewer : UserId} {approved : Bool} {notes : Option String} {eid : EventId}
    (h : submitReviewDecision s now gid reviewer approved notes = .ok (s', eid)) :
    s'.board.Backed gid approved ∧ (∀ gid' approved', deliveredVerdict s' eid
      = some (gid', approved') → gid' = gid ∧ approved' = approved) ∧
    ∀ approved', resumeOverwrites cfg s' gid approved' = resumeOverwrites cfg s gid approved' := by
  unfold submitReviewDecision at h
  split at h
  · cases h
  · rename_i gate hgate
    split at h
    · cases h
    · rename_i hstatus
      split at h
      · cases h
      · rename_i run hrun
        cases h
        have hgate' : (s.gates.modify gid (ReviewGate.decideBy reviewer))[gid]?
            = some (gate.decideBy reviewer) := Table.get_modify_self hgate
        refine ⟨⟨gate.decideBy reviewer, run, _, hgate', hrun,
          List.mem_append_right _ (List.mem_singleton_self _), rfl, rfl, rfl⟩, ?_, ?_⟩
        · intro gid' approved' hd
          unfold deliveredVerdict at hd
          simp only [Db.emit, Db.flush, Db.updateGate, List.getElem?_concat_length] at hd
          cases approved <;> simp only [reviewHandler, if_true] at hd <;> split at hd <;>
            simp_all
        · intro approved'
          unfold resumeOverwrites
          simp only [Db.emit, Db.flush, Db.updateGate, hgate, hgate', ReviewGate.decideBy]

theorem submitReviewDecision_gate {s s' : Db} {now : Instant} {gid : GateId} {reviewer : UserId}
    {approved : Bool} {notes : Option String} {eid : EventId}
    (h : submitReviewDecision s now gid reviewer approved notes = .ok (s', eid)) :
    s'.runs = s.runs ∧ ∃ g, s.gates[gid]? = some g ∧
      s'.gates[gid]? = some (g.decideBy reviewer) := by
  unfold submitReviewDecision at h
  split at h
  · cases h
  · rename_i g hg
    split at h
    · cases h
    · split at h
      · cases h
      · cases h
        exact ⟨rfl, g, hg, Table.get_modify_self hg⟩

theorem submitAndDeliver_writes (s : Db) (now : Instant) (gid : GateId) (reviewer : UserId)
    (approved : Bool) (notes : Option String)
    (hmoves : ∀ g, s.gates[gid]? = some g → sc.moves g.pipelineRunId)
    (hloose : ∀ rid st, resumeOverwrites cfg s gid approved = some (rid, st) → sc.loose rid st) :
    Writes cfg sc s.board (submitAndDeliver cfg s now gid reviewer approved notes).db.board := by
  unfold submitAndDeliver
  split
  · exact .refl
  · rename_i s1 eid hsubmit
    obtain ⟨hbacked, hverdict, hover⟩ := submitReviewDecision_backed cfg hsubmit
    refine (submitReviewDecision_writes hsubmit).trans (dispatchOne_writes s1 now eid ?_)
    intro gid' approved' hd
    obtain ⟨rfl, rfl⟩ := hverdict gid' approved' hd
    refine ⟨?_, ?_, .inl hbacked⟩
    · rw [hover]
      exact hloose
    · intro g' hg'
      obtain ⟨_, g, hg, hg1⟩ := submitReviewDecision_gate hsubmit
      rw [hg1] at hg'
      cases hg'
      exact hmoves g hg

theorem decideReviewGate_writes (s : Db) (now : Instant) (ws : WorkspaceId) (gid : GateId)
    (reviewer : UserId) (approved : Bool) (expected : Option VersionId) (notes : Option String)
    (hmoves : ∀ g, s.gates[gid]? = some g → sc.moves g.pipelineRunId)
    (hloose : ∀ rid st, resumeOverwrites cfg s gid approved = some (rid, st) → sc.loose rid st) :
    Writes cfg sc s.board
      (decideReviewGate cfg s now ws gid reviewer approved expected notes).db.board := by
  unfold decideReviewGate
  split
  · exact .refl
  · split
    · exact .refl
    · split
      · exact .refl
      · split
        · exact .refl
        · split
          · exact .refl
          · simp only
            split
            · exact .refl
            · exact submitAndDeliver_writes s now gid reviewer approved notes hmoves hloose

theorem editReviewGateContent_writes {s s' : Db} {ws : WorkspaceId} {gid : GateId}
    {expected : VersionId} {hook body cta : Option String}
    (h : editReviewGateContent s ws gid expected hook body cta = .ok s') :
    Writes cfg sc s.board s'.board := by
  unfold editReviewGateContent at h
  split at h
  · cases h
  · rename_i gate hgate
    split at h
    · cases h
    · split at h
      · cases h
      · rename_i hstatus
        split at h
        · cases h
        · split at h
          · cases h
          · split at h
            · cases h
            · cases h
              exact .single (.gate (.showVersion _ ⟨gate, hgate, by simpa using hstatus⟩))

/-! ## Dispatching -/

theorem selectWorker_mem {s : Db} {stage : String} {rows : List WorkerId} {wid : WorkerId}
    {w : WorkerRegistration} (h : selectWorker s stage rows = some (wid, w)) :
    (wid, w) ∈ eligibleWorkers s stage rows := by
  have hm := List.mem_of_mem_head? h
  rwa [List.mem_insertionSort] at hm

/-- The cap leaves room for the default estimate. -/
def spendFits (cfg : Config) (s : Db) (now : Instant) (args : DispatchArgs) : Bool :=
  match ContentStage.ofText? args.stage, s.runs[args.pipelineRunId]? with
  | some stage, some run =>
      (reserveSpend s now args.pipelineRunId run.workspaceId stage
        (effectiveProvider args.provider) cfg.settings.defaultStageEstimateUsd).2.isSome
  | _, _ => false

/-- Nothing keeps `dispatch_stage` from giving the stage to the worker it selects: the
workspace is below its limit, the run is running, the key is new, the provider has capacity
and the cap has room. -/
def handsOut (cfg : Config) (s : Db) (now : Instant) (args : DispatchArgs) : Bool :=
  decide (inFlightCount s args.workspaceId < maxConcurrentAssignments cfg args.workspaceId)
    && (runRefusal s.runs[args.pipelineRunId]?).isNone
    && (assignmentByKey s args.workspaceId args.key).isNone
    && hasProviderCapacity cfg s args.workspaceId args.provider
    && spendFits cfg s now args

/-- A row that `dispatch_stage` inserts: of the stage it was called for, and either pending or
given to the worker it selected. -/
def IsDispatchRow (cfg : Config) (s : Db) (now : Instant) (args : DispatchArgs)
    (rows : List WorkerId) (a : StageAssignment) : Prop :=
  ∃ stage worker, ContentStage.ofText? args.stage = some stage ∧
    (∀ wid, worker = some wid → handsOut cfg s now args = true ∧
      (selectWorker s args.stage rows).map Prod.fst = some wid) ∧
    a = newAssignment cfg now args stage worker

theorem insertAssignment_writes (s : Db) (now : Instant) {new : StageAssignment}
    (h : sc.assign new) : Writes cfg sc s.board (insertAssignment s now new).board := by
  have hnew : Write cfg sc s.board { s.board with assignments := s.board.assignments ++ [new] } :=
    .newAssignment h
  unfold insertAssignment
  simp only
  split
  · exact (ReflTransGen.single hnew).tail (.worker fun _ => rfl)
  · exact .single hnew

theorem runRefusal_none {s : Db} {rid : RunId} {run : PipelineRun}
    (h : runRefusal s.runs[rid]? = none) (hrun : s.runs[rid]? = some run) :
    run.status.isTerminal = false ∧ run.status ≠ .paused := by
  rw [hrun] at h
  unfold runRefusal at h
  simp only at h
  split at h
  · cases h
  · rename_i hterm
    split at h
    · split at h <;> cases h
    · rename_i hpaused
      exact ⟨by simpa using hterm, hpaused⟩

theorem dispatchStage_writes {s s' : Db} {now : Instant} {args : DispatchArgs}
    {rows : List WorkerId} {outcome : DispatchOutcome}
    (hassign : ∀ a, IsDispatchRow cfg s now args rows a → sc.assign a)
    (h : dispatchStage cfg s now args rows = .ok (s', outcome)) :
    Writes cfg sc s.board s'.board := by
  unfold dispatchStage at h
  split at h
  · cases h; exact .refl
  · rename_i hlimit
    split at h
    · cases h; exact .refl
    · rename_i hrefusal
      split at h
      · cases h; exact .refl
      · rename_i hkey
        simp only at h
        unfold assignStage at h
        split at h
        · cases h
        · cases h
        · rename_i stage run hstage hrun
          split at h
          · cases h
            exact insertAssignment_writes s now (hassign _ ⟨stage, none, hstage, by simp, rfl⟩)
          · rename_i wid hwid
            simp only at h
            -- the run was found running, so a hold is written to a live run
            have hlive : s.board.Live args.pipelineRunId :=
              ⟨run, hrun, (runRefusal_none hrefusal hrun).1⟩
            have hreserve : Writes cfg sc s.board (reserveSpend s now args.pipelineRunId
                run.workspaceId stage (effectiveProvider args.provider)
                cfg.settings.defaultStageEstimateUsd).1.board :=
              reserveSpend_writes s now _ _ _ _ fun _ => .inl hlive
            split at h
            · cases h
              exact hreserve
            · rename_i resId hres
              cases h
              refine hreserve.trans (insertAssignment_writes _ now
                (hassign _ ⟨stage, some wid, hstage, ?_, rfl⟩))
              intro wid' hw
              cases hw
              split at hwid
              · rename_i hcap
                refine ⟨?_, hwid⟩
                have hfits : spendFits cfg s now args = true := by
                  simp only [spendFits, hstage, hrun, hres, Option.isSome_some]
                simp only [handsOut, hrefusal, hkey, hcap, hfits, Option.isNone_none,
                  Bool.and_true, decide_eq_true_eq]
                omega
              · cases hwid

/-! ## Leases and results -/

theorem acknowledge_writes {s s' : Db} {now : Instant} {aid : AssignmentId}
    {secs : Option Nat} {worker : Option WorkerId}
    (h : acknowledge cfg s now aid secs worker = .ok s') : Writes cfg sc s.board s'.board := by
  unfold acknowledge at h
  split at h
  · cases h
  · simp only at h
    split at h
    · cases h
    · cases h
      exact .single (updateAssignment_write s now aid (f := StageAssignment.acknowledge now _)
        (fun _ => ⟨⟨rfl, rfl, rfl, id⟩, rfl⟩) fun _ _ => rfl)

theorem renewLease_writes {s s' : Db} {now : Instant} {aid : AssignmentId}
    {secs : Option Nat} {worker : Option WorkerId}
    (h : renewLease cfg s now aid secs worker = .ok s') : Writes cfg sc s.board s'.board := by
  unfold renewLease at h
  split at h
  · cases h
  · simp only at h
    split at h
    · cases h
    · cases h
      exact .single (updateAssignment_write s now aid (f := StageAssignment.extendLease now _)
        (fun _ => ⟨⟨rfl, rfl, rfl, id⟩, rfl⟩) fun _ h => h)

theorem freeSlot_writes (s : Db) (worker : Option WorkerId)
    {f : WorkerRegistration → WorkerRegistration} (hf : ∀ w, (f w).workspaceId = w.workspaceId) :
    Writes cfg sc s.board (freeSlot s worker f).board := by
  unfold freeSlot
  split
  · exact .single (.worker hf)
  · exact .refl

theorem returnSlot_workspaceId (w : WorkerRegistration) :
    w.returnSlot.workspaceId = w.workspaceId := by
  unfold WorkerRegistration.returnSlot
  split <;> rfl

/-- The board once the assignment is closed and its slot returned. -/
theorem closeAssignment_writes (s : Db) (now : Instant) (aid : AssignmentId) (success : Bool)
    (result : Option JsonObject) (worker : Option WorkerId)
    (hspends : ∀ a, s.assignments[aid]? = some a → sc.spends a.pipelineRunId a.stage) :
    Writes cfg sc s.board (freeSlot (s.updateAssignment now aid
      (StageAssignment.close now success result)) worker WorkerRegistration.returnSlot).board := by
  have hclose : Write cfg sc s.board
      (s.updateAssignment now aid (StageAssignment.close now success result)).board :=
    .assignment (.keep fun a => ⟨⟨rfl, rfl, rfl, id⟩, rfl⟩) (.inr hspends)
  exact .head hclose (freeSlot_writes _ worker returnSlot_workspaceId)

@[simp] theorem freeSlot_runs (s : Db) (worker : Option WorkerId)
    (f : WorkerRegistration → WorkerRegistration) : (freeSlot s worker f).runs = s.runs := by
  unfold freeSlot
  split <;> rfl

@[simp] theorem freeSlot_assignments (s : Db) (worker : Option WorkerId)
    (f : WorkerRegistration → WorkerRegistration) :
    (freeSlot s worker f).assignments = s.assignments := by
  unfold freeSlot
  split <;> rfl

theorem recordResult_ok {s s' : Db} {now : Instant} {aid : AssignmentId} {a : StageAssignment}
    {run : PipelineRun} {success : Bool} {result : Option JsonObject} {errorMessage : String}
    (h : recordResult s now aid a run success result errorMessage = .ok s') :
    s'.board = (freeSlot (s.updateAssignment now aid (StageAssignment.close now success result))
      a.workerId WorkerRegistration.returnSlot).board := by
  unfold recordResult at h
  simp only at h
  split at h
  · cases h
  · cases h
    rfl

/-- The run that a failed result ends: its attempt is not retried. -/
def submitOverwrites (cfg : Config) (s : Db) (now : Instant) (aid : AssignmentId)
    (success : Bool) (errorMessage : String) (worker : Option WorkerId) :
    Option (RunId × PipelineRunStatus) :=
  match s.assignments[aid]? with
  | none => none
  | some a =>
      if success ∨ submitRefusal a worker now ≠ none then none
      else
        match (s.board.definition cfg a.pipelineRunId).bind fun d => d.stageRow a.stage with
        | none => none
        | some row =>
            if mayRetry row a.attemptNumber errorMessage then none
            else some (a.pipelineRunId, .failed)

theorem submitSuccess_writes (s : Db) (now : Instant) (a : StageAssignment) (run : PipelineRun)
    (result : Option JsonObject) (hmoves : sc.moves a.pipelineRunId)
    (hassigned : s.board.Assigned a.pipelineRunId a.stage) :
    Writes cfg sc s.board (submitSuccess cfg s now a run result).db.board := by
  unfold submitSuccess
  simp only
  split
  · exact .refl
  · rename_i s1 hcommit
    have hboard : s1.board = s.board := by
      split at hcommit
      · cases hcommit; rfl
      · exact board_of_core ((core_commitSpend hcommit).trans rfl)
    rw [← hboard] at hassigned ⊢
    exact handleStageSuccess_writes s1 now _ hmoves hassigned

theorem submitFailure_writes (s : Db) (now : Instant) (a : StageAssignment) (run : PipelineRun)
    (errorMessage : String) (jitter : Nat) (hassigned : s.board.Assigned a.pipelineRunId a.stage)
    (hloose : ∀ d row, s.board.definition cfg a.pipelineRunId = some d →
      d.stageRow a.stage = some row → mayRetry row a.attemptNumber errorMessage = false →
      sc.loose a.pipelineRunId .failed) :
    Writes cfg sc s.board (submitFailure cfg s now a run errorMessage jitter).db.board := by
  -- with the reservation released or without one, the board is the same
  have hcall : ∀ t : Db, t.board = s.board → Writes cfg sc s.board (Call.ofExcept s
      (handleStageFailure cfg t now a.pipelineRunId a.stage a.stage.formatted a.attemptNumber
        errorMessage jitter)).db.board := by
    intro t ht
    refine ofExcept_writes fun s1 hok => ?_
    rw [← ht] at hassigned hloose ⊢
    exact handleStageFailure_writes (.inl hassigned)
      (fun d row hd hrow hretry => .inr (hloose d row hd hrow hretry)) hok
  unfold submitFailure
  simp only
  split
  · exact hcall s rfl
  · exact hcall _ (board_releaseSpend ..)

theorem submitResult_writes (s : Db) (now : Instant) (aid : AssignmentId) (success : Bool)
    (result : Option JsonObject) (errorMessage : String) (worker : Option WorkerId) (jitter : Nat)
    (hmoves : success = true → ∀ a, s.assignments[aid]? = some a → sc.moves a.pipelineRunId)
    (hspends : ∀ a, s.assignments[aid]? = some a → sc.spends a.pipelineRunId a.stage)
    (hloose : ∀ rid st, submitOverwrites cfg s now aid success errorMessage worker
      = some (rid, st) → sc.loose rid st) :
    Writes cfg sc s.board
      (submitResult cfg s now aid success result errorMessage worker jitter).db.board := by
  unfold submitOverwrites at hloose
  unfold submitResult
  split
  · exact .refl
  · rename_i a ha
    simp only [ha] at hloose
    split
    · exact .refl
    · rename_i hrefusal
      simp only [hrefusal] at hloose
      split
      · exact closeAssignment_writes s now aid success result a.workerId hspends
      · rename_i run hrun
        split
        · exact .refl
        · rename_i s1 hrecord
          have hboard := recordResult_ok hrecord
          have hclosed : Writes cfg sc s.board s1.board := by
            rw [hboard]
            exact closeAssignment_writes s now aid success result a.workerId hspends
          -- the closed assignment still carries its stage, and the run its definition
          have hassigned : s1.board.Assigned a.pipelineRunId a.stage := by
            rw [hboard]
            refine ⟨{ a.close now success result with updatedAt := now }, ?_, rfl, rfl⟩
            show _ ∈ (freeSlot _ _ _).assignments
            rw [freeSlot_assignments]
            exact Table.mem_of_get (i := aid) (Table.get_modify_self ha)
          have hdef : s1.board.definition cfg a.pipelineRunId
              = s.board.definition cfg a.pipelineRunId := by
            rw [hboard]
            show ((freeSlot _ _ _).runs[_]?).bind _ = _
            rw [freeSlot_runs]
            rfl
          split
          · rename_i hsuccess
            exact hclosed.trans (submitSuccess_writes s1 now a run result
              (hmoves hsuccess a ha) hassigned)
          · rename_i hfailed
            refine hclosed.trans
              (submitFailure_writes s1 now a run errorMessage jitter hassigned ?_)
            intro d row hd hrow hretry
            rw [hdef] at hd
            refine hloose _ _ ?_
            simp [hfailed, hd, hrow, hretry]

/-! ## Claiming -/

/-- The run that a claim holds for spend: that of its candidate, when the cap is exceeded. -/
def claimOverwrites (cfg : Config) (s : Db) (now : Instant) (wid : WorkerId)
    (token : Option ClaimToken) (rows : List AssignmentId) :
    Option (RunId × PipelineRunStatus) :=
  match s.workers[wid]? with
  | none => none
  | some w =>
      if token.elim [] (heldUnder s wid w) ≠ [] ∨ claimRefusal cfg w now ≠ none then none
      else
        match claimCandidate cfg s now w rows with
        | none => none
        | some (_, a) =>
            match s.runs[a.pipelineRunId]? with
            | none => none
            | some run =>
                if openReservationsFor s a.pipelineRunId a.stage = []
                    ∧ (reserveSpend s now a.pipelineRunId run.workspaceId a.stage
                      (effectiveProvider a.provider) cfg.settings.defaultStageEstimateUsd).2 = none
                then some (a.pipelineRunId, .paused)
                else none

theorem grantClaim_writes (s : Db) (now : Instant) (wid : WorkerId) (w : WorkerRegistration)
    (aid : AssignmentId) (a : StageAssignment) (token : Option ClaimToken)
    (ws : Option WorkspaceId) (hw : s.workers[wid]? = some w) (ha : s.assignments[aid]? = some a)
    (hserves : w.serves a.workspaceId = true) :
    Writes cfg sc s.board (grantClaim cfg s now wid w aid a token ws).db.board := by
  unfold grantClaim
  simp only [board_emit, board_recordClaim]
  have htake : Write cfg sc s.board
      (s.updateAssignment now aid (StageAssignment.claim cfg now wid token)).board :=
    .assignment (.take ha hw hserves fun a => ⟨⟨rfl, rfl, rfl, id⟩, rfl⟩) (.inl fun _ _ => rfl)
  exact (ReflTransGen.single htake).tail (.worker fun _ => rfl)

theorem claimWithSpend_writes {s : Db} {now : Instant} {wid : WorkerId} {w : WorkerRegistration}
    {aid : AssignmentId} {a : StageAssignment} {token : Option ClaimToken}
    {ws : Option WorkspaceId} {r : ClaimResult} (hw : s.workers[wid]? = some w)
    (ha : s.assignments[aid]? = some a) (hserves : w.serves a.workspaceId = true)
    (hloose : ∀ run, s.runs[a.pipelineRunId]? = some run →
      openReservationsFor s a.pipelineRunId a.stage = [] →
      (reserveSpend s now a.pipelineRunId run.workspaceId a.stage (effectiveProvider a.provider)
        cfg.settings.defaultStageEstimateUsd).2 = none → sc.loose a.pipelineRunId .paused)
    (h : claimWithSpend cfg s now wid w aid a token ws = .ok r) :
    Writes cfg sc s.board r.db.board := by
  unfold claimWithSpend at h
  split at h
  · cases h
    exact grantClaim_writes s now wid w aid a token ws hw ha hserves
  · rename_i run hrun
    split at h
    · cases h
    · cases h
      exact grantClaim_writes s now wid w aid a token ws hw ha hserves
    · rename_i hopen
      have hreserve : Writes cfg sc s.board (reserveSpend s now a.pipelineRunId run.workspaceId
          a.stage (effectiveProvider a.provider) cfg.settings.defaultStageEstimateUsd).1.board :=
        reserveSpend_writes s now _ _ _ _ fun hnone => .inr (hloose run hrun hopen hnone)
      simp only at h
      split at h
      · rename_i res hres
        cases h
        -- a granted reservation leaves the board
        have hboard : (reserveSpend s now a.pipelineRunId run.workspaceId a.stage
            (effectiveProvider a.provider) cfg.settings.defaultStageEstimateUsd).1.board
            = s.board := by
          rcases core_reserveSpend s now a.pipelineRunId run.workspaceId a.stage
            (effectiveProvider a.provider) cfg.settings.defaultStageEstimateUsd
            with ⟨hnone, _⟩ | ⟨_, hcore⟩
          · rw [hres] at hnone
            cases hnone
          · exact board_of_core hcore
        refine hreserve.trans (grantClaim_writes _ now wid w aid a token ws ?_ ?_ hserves)
        · exact (congrArg (fun b : Board => b.workers[wid]?) hboard).trans hw
        · exact (congrArg (fun b : Board => b.assignments[aid]?) hboard).trans ha
      · cases h
        rw [board_recordClaim]
        exact hreserve

theorem claimAssignment_writes {s : Db} {now : Instant} {wid : WorkerId}
    {token : Option ClaimToken} {ws : Option WorkspaceId} {rows : List AssignmentId}
    {r : ClaimResult}
    (hloose : ∀ rid st, claimOverwrites cfg s now wid token rows = some (rid, st) →
      sc.loose rid st)
    (h : claimAssignment cfg s now wid token ws rows = .ok r) :
    Writes cfg sc s.board r.db.board := by
  unfold claimOverwrites at hloose
  unfold claimAssignment at h
  split at h
  · cases h; exact .refl
  · rename_i w hw
    simp only [hw] at hloose
    split at h
    · cases h
    · cases h
      rw [board_recordClaim]
    · rename_i hheld
      simp only [hheld] at hloose
      unfold claimFresh at h
      split at h
      · cases h
        unfold claimNothing
        rw [board_recordClaim]
      · rename_i hrefusal
        simp only [hrefusal] at hloose
        split at h
        · cases h
        · split at h
          · rename_i aid a hcand
            simp only [hcand] at hloose
            obtain ⟨ha, hclaimable, _⟩ := claimCandidate_spec hcand
            unfold claimable at hclaimable
            simp only [Bool.and_eq_true] at hclaimable
            refine claimWithSpend_writes hw ha hclaimable.2 ?_ h
            intro run hrun hopen hnone
            refine hloose _ _ ?_
            simp [hrun, hopen, hnone]
          · split at h
            · cases h
              unfold claimNothing
              rw [board_recordClaim]
            · cases h
              unfold claimNothing
              rw [board_recordClaim]

/-! ## Recovery -/

theorem failRunUnlessTerminal_writes (s : Db) (now : Instant) (rid : RunId) :
    Writes cfg sc s.board (failRunUnlessTerminal s now rid).board := by
  unfold failRunUnlessTerminal
  split
  · exact .refl
  · rename_i run hrun
    split
    · exact .refl
    · rename_i hterm
      have hlive : s.board.Live rid := ⟨run, hrun, by simpa using hterm⟩
      exact failRun_writes s now run.workspaceId (.inl hlive.notClosed)

theorem exhaustAssignment_writes (s : Db) (now : Instant) (aid : AssignmentId)
    (a : StageAssignment) (reason : RecoveryReason) (maxAttempts : Nat)
    (detail : Option String)
    (hspends : ∀ a, s.assignments[aid]? = some a → sc.spends a.pipelineRunId a.stage) :
    Writes cfg sc s.board (exhaustAssignment s now aid a reason maxAttempts detail).board := by
  have hdrop : Write cfg sc s.board
      (s.updateAssignment now aid (StageAssignment.exhaust now)).board :=
    .assignment (.drop fun a => ⟨⟨rfl, rfl, rfl, id⟩, rfl⟩) (.inr hspends)
  -- the dead-letter entry in between is not on the board
  have hfail : ∀ t : Db, t.board
      = (s.updateAssignment now aid (StageAssignment.exhaust now)).board →
      Writes cfg sc (s.updateAssignment now aid (StageAssignment.exhaust now)).board
        (failRunUnlessTerminal t now a.pipelineRunId).board := by
    intro t ht
    rw [← ht]
    exact failRunUnlessTerminal_writes t now a.pipelineRunId
  unfold exhaustAssignment
  simp only [board_auditRecovery]
  exact .head hdrop (hfail _ rfl)

theorem requeueAssignment_writes {s s' : Db} {now : Instant} {aid : AssignmentId}
    {a : StageAssignment} {reason : RecoveryReason} {detail : Option String}
    (h : requeueAssignment s now aid a reason detail = .ok s') :
    Writes cfg sc s.board s'.board := by
  have hdrop : Write cfg sc s.board (s.board.updateAssignment aid
      fun a => { StageAssignment.requeue a with updatedAt := now }) :=
    .assignment (.drop fun a => ⟨⟨rfl, rfl, rfl, fun _ => ⟨rfl, rfl⟩⟩, rfl⟩) (.inl fun _ _ => rfl)
  unfold requeueAssignment at h
  simp only at h
  split at h
  · split at h
    · cases h
    · cases h
      exact .single hdrop
  · split at h
    · cases h
    · cases h
      simp only [board_auditRecovery, board_emit, board_updateAssignment, board_releaseEach]
      exact .single hdrop

theorem recoverAssignment_writes {s s' : Db} {now : Instant} {aid : AssignmentId}
    {reason : RecoveryReason} {detail : Option String}
    (hspends : ∀ a, s.assignments[aid]? = some a → sc.spends a.pipelineRunId a.stage)
    (h : recoverAssignment cfg s now aid reason detail = .ok s') :
    Writes cfg sc s.board s'.board := by
  unfold recoverAssignment at h
  split at h
  · cases h
  · rename_i a ha
    split at h
    · cases h
      exact .refl
    · simp only at h
      have hfree : Writes cfg sc s.board
          (freeSlot s a.workerId WorkerRegistration.releaseSlot).board :=
        freeSlot_writes s a.workerId fun _ => rfl
      split at h
      · cases h
        refine hfree.trans (exhaustAssignment_writes _ now aid a reason _ detail fun a' ha' => ?_)
        rw [freeSlot_assignments] at ha'
        exact hspends a' ha'
      · exact hfree.trans (requeueAssignment_writes h)

theorem recoverEach_writes {now : Instant} {reason : RecoveryReason} {detail : Option String}
    (hspends : ∀ rid stage, sc.spends rid stage) (ids : List AssignmentId) : ∀ {s s' : Db},
    recoverEach cfg s now reason detail ids = .ok s' → Writes cfg sc s.board s'.board := by
  induction ids with
  | nil =>
      intro s s' h
      cases h
      exact .refl
  | cons aid rest ih =>
      intro s s' h
      unfold recoverEach at h
      split at h
      · cases h
      · rename_i s1 hfirst
        exact (recoverAssignment_writes (fun _ _ => hspends _ _) hfirst).trans (ih h)

theorem reapWorkerBatches_writes {now : Instant} {wid : WorkerId} {reason : RecoveryReason}
    {detail : Option String} {limit : Nat} {rows : List AssignmentId}
    (hspends : ∀ rid stage, sc.spends rid stage) (fuel : Nat) :
    ∀ {s s' : Db}, reapWorkerBatches cfg now wid reason detail limit rows fuel s = .ok s' →
      Writes cfg sc s.board s'.board := by
  induction fuel with
  | zero =>
      intro s s' h
      cases h
      exact .refl
  | succ fuel ih =>
      intro s s' h
      unfold reapWorkerBatches at h
      split at h
      · cases h
        exact .refl
      · split at h
        · cases h
        · rename_i s1 hbatch
          have hfirst : Writes cfg sc s.board s1.board := recoverEach_writes hspends _ hbatch
          split at h
          · cases h
            exact hfirst
          · exact hfirst.trans (ih h)

/-! ## The scheduler -/

theorem updateJobs_writes {f : JobSchedule → JobSchedule} (hf : ∀ j, (f j).SameTarget j)
    (hlive : ∀ j, j.isLive = true → (f j).isLive = true) (ids : List JobId) :
    ∀ s : Db, Writes cfg sc s.board (updateJobs s f ids).board := by
  induction ids with
  | nil => intro s; exact .refl
  | cons jid rest ih =>
      intro s
      have hfirst : Write cfg sc s.board (s.updateJob jid f).board := .job hf (.inl hlive)
      exact .head hfirst (ih _)

/-- A job that is used up. -/
theorem spendJob_write (s : Db) {jid : JobId} {f : JobSchedule → JobSchedule}
    (hf : ∀ j, (f j).SameTarget j) (hspent : ∀ j, s.jobs[jid]? = some j → j.Spent sc) :
    Write cfg sc s.board (s.updateJob jid f).board :=
  .job hf (.inr hspent)

theorem exhaustJob_writes {s s' : Db} {now : Instant} {jid : JobId} {job : JobSchedule}
    {rid : RunId} (hspent : ∀ j, s.jobs[jid]? = some j → j.Spent sc)
    (hspends : ∀ stage, ContentStage.ofText? job.refTable = some stage → sc.spends rid stage)
    (h : exhaustJob s now jid job rid = .ok s') : Writes cfg sc s.board s'.board := by
  have hjob : Write cfg sc s.board (s.updateJob jid fun j =>
      { j with status := .cancelled, attempt := job.attempt + 1 }).board :=
    spendJob_write s (fun _ => ⟨rfl, rfl, rfl, rfl⟩) hspent
  unfold exhaustJob at h
  simp only at h
  split at h
  · cases h
    exact .single hjob
  · rename_i run hrun
    split at h
    · cases h
    · rename_i stage hstage
      cases h
      rw [board_routeToDeadLetter]
      refine .head hjob ?_
      -- releasing the reservations is not on the board
      rw [← board_releaseAllReservations (s.updateJob jid fun j =>
        { j with status := .cancelled, attempt := job.attempt + 1 }) now rid run.workspaceId]
      refine cancelAssignments_writes now _ _ fun aid haid a ha => ?_
      obtain ⟨a', ha', hopen⟩ := Table.mem_select.mp haid
      rw [ha] at ha'
      cases ha'
      simp only [Bool.and_eq_true, beq_iff_eq] at hopen
      rw [hopen.1.1, hopen.1.2]
      exact hspends stage hstage

theorem settleJob_writes {s s' : Db} {now : Instant} {jid : JobId} {job : JobSchedule}
    {rid : RunId} {jitter : Nat} {outcome : DispatchOutcome}
    (hspent : ∀ j, s.jobs[jid]? = some j → j.Spent sc)
    (hspends : ∀ stage, ContentStage.ofText? job.refTable = some stage → sc.spends rid stage)
    (h : settleJob s now jid job rid jitter outcome = .ok s') :
    Writes cfg sc s.board s'.board := by
  cases outcome with
  | spendHold =>
      cases h
      exact .single (spendJob_write s (f := JobSchedule.park _)
        (fun _ => ⟨rfl, rfl, rfl, rfl⟩) hspent)
  | skipped =>
      cases h
      exact .single (spendJob_write s (f := JobSchedule.cancel)
        (fun _ => ⟨rfl, rfl, rfl, rfl⟩) hspent)
  | dispatched | idempotent | noWorker =>
      cases h
      exact .single (spendJob_write s (f := JobSchedule.finish)
        (fun _ => ⟨rfl, rfl, rfl, rfl⟩) hspent)
  | backpressure =>
      change rescheduleJob s now jid job rid jitter = .ok s' at h
      unfold rescheduleJob at h
      split at h
      · exact exhaustJob_writes hspent hspends h
      · cases h
        exact .single (spendJob_write s (f := fun j => { JobSchedule.park _ j with attempt := _ })
          (fun _ => ⟨rfl, rfl, rfl, rfl⟩) hspent)

/-- The run that a work job is for. -/
def JobSchedule.worksFor (j : JobSchedule) : Option RunId :=
  match j.refId with
  | .run rid => if j.isWork then some rid else none
  | .gate _ => none

/-- `dispatch_stage` adds no job. -/
theorem dispatchStage_jobs {s s' : Db} {now : Instant} {args : DispatchArgs}
    {rows : List WorkerId} {outcome : DispatchOutcome}
    (h : dispatchStage cfg s now args rows = .ok (s', outcome)) : s'.jobs = s.jobs := by
  have hinsert : ∀ (t : Db) (new : StageAssignment),
      (insertAssignment t now new).jobs = t.jobs := by
    intro t new
    unfold insertAssignment
    simp only
    split <;> rfl
  unfold dispatchStage assignStage at h
  split at h
  · cases h; rfl
  · split at h
    · cases h; rfl
    · split at h
      · cases h; rfl
      · simp only at h
        split at h
        · cases h
        · cases h
        · rename_i stage run _ _
          split at h
          · cases h
            exact hinsert ..
          · have hreserve : (reserveSpend s now args.pipelineRunId run.workspaceId stage
                (effectiveProvider args.provider) cfg.settings.defaultStageEstimateUsd).1.jobs
                = s.jobs := by
              rcases core_reserveSpend s now args.pipelineRunId run.workspaceId stage
                (effectiveProvider args.provider) cfg.settings.defaultStageEstimateUsd
                with ⟨_, hcore⟩ | ⟨_, hcore⟩
              · exact (congrArg Board.jobs (board_of_core hcore)).trans rfl
              · exact congrArg Board.jobs (board_of_core hcore)
            split at h
            · cases h
              exact hreserve
            · cases h
              exact (hinsert ..).trans hreserve

theorem processWorkJob_writes {s s' : Db} {now : Instant} {jid : JobId} {job : JobSchedule}
    {rid : RunId} {rows : List WorkerId} {jitter : Nat} {outcome : DispatchOutcome}
    (hassign : ∀ a, IsDispatchRow cfg s now (job.dispatchArgs rid) rows a → sc.assign a)
    (hspent : ∀ j, s.jobs[jid]? = some j → j.Spent sc)
    (hspends : ∀ stage, ContentStage.ofText? job.refTable = some stage → sc.spends rid stage)
    (h : processWorkJob cfg s now jid job rid rows jitter = .ok (s', outcome)) :
    Writes cfg sc s.board s'.board := by
  unfold processWorkJob at h
  split at h
  · cases h
  · rename_i s1 out hdispatch
    split at h
    · cases h
    · rename_i s2 hsettle
      cases h
      rw [← dispatchStage_jobs hdispatch] at hspent
      exact (dispatchStage_writes hassign hdispatch).trans
        (settleJob_writes hspent hspends hsettle)

/-- A work job is dispatched; a review timeout may escalate its gate; there are no stage
timeouts. -/
theorem processLeasedJob_writes {s s' : Db} {now : Instant} {jid : JobId} {rows : List WorkerId}
    {jitter : Nat} (hs : s.board.Sane)
    (hassign : ∀ job rid a, s.jobs[jid]? = some job → job.isWork = true →
      job.refId = .run rid → IsDispatchRow cfg s now (job.dispatchArgs rid) rows a → sc.assign a)
    (hspent : ∀ j, s.jobs[jid]? = some j → j.Spent sc)
    (h : processLeasedJob cfg s now jid rows jitter = .ok s') :
    Writes cfg sc s.board s'.board := by
  unfold processLeasedJob at h
  split at h
  · cases h
  · rename_i job hjob
    have hwork : ∀ rid, job.isWork = true → job.refId = .run rid →
        (processWorkJob cfg s now jid job rid rows jitter).map Prod.fst = .ok s' →
        Writes cfg sc s.board s'.board := by
      intro rid hw href hmap
      obtain ⟨r, hp, rfl⟩ := map_ok hmap
      refine processWorkJob_writes (fun a => hassign job rid a hjob hw href)
        hspent (fun stage hstage => ?_) hp
      exact hspent job hjob rid stage hw href (ContentStage.value_of_ofText? hstage).symm
    -- the job is done; it is not work
    have hfinish : ∀ t : Db, t.jobs[jid]? = some job → job.isWork = false →
        Write cfg sc t.board (t.updateJob jid JobSchedule.finish).board := by
      intro t ht hw
      refine spendJob_write t (fun _ => ⟨rfl, rfl, rfl, rfl⟩) fun j hj rid stage hwork => ?_
      rw [ht] at hj
      cases hj
      rw [hw] at hwork
      cases hwork
    split at h
    · rename_i htype href
      exact hwork _ (by simp [JobSchedule.isWork, htype]) href h
    · rename_i htype href
      exact hwork _ (by simp [JobSchedule.isWork, htype]) href h
    · rename_i htype _
      exact absurd htype (hs.jobs job (Table.mem_of_get hjob))
    · rename_i gid htype _
      cases h
      refine (handleReviewTimeout_writes s now _ hs).tail (hfinish _ ?_ ?_)
      · exact handleReviewTimeout_jobs s now gid hjob
      · simp [JobSchedule.isWork, htype]
    · rename_i htype
      cases h
      exact .single (hfinish s hjob (by simp [JobSchedule.isWork, htype]))
    · cases h

/-! ## Manual retry -/

theorem requeueRun_writes (s : Db) (now : Instant) (ws : WorkspaceId) (rid : RunId)
    (stage : String) (attempt : Nat) (hreopen : sc.reopens) (hmoves : sc.moves rid)
    (hjob : sc.job (retryJob now ws rid stage attempt)) :
    Writes cfg sc s.board (requeueRun s now ws rid stage attempt).board := by
  have hrun : Write cfg sc s.board (s.board.updateRun rid PipelineRun.reopen) :=
    .run (.reopen hreopen hmoves)
  exact (ReflTransGen.single hrun).tail (.newJob (.extra rfl hjob))

theorem retryDeadLetters_writes {now : Instant} {ws : WorkspaceId} (hreopen : sc.reopens)
    (hmoves : ∀ rid, sc.moves rid)
    (hjob : ∀ rid stage attempt, sc.job (retryJob now ws rid stage attempt)) (ids : List Nat) :
    ∀ s : Db, Writes cfg sc s.board (retryDeadLetters s now ws ids).board := by
  induction ids with
  | nil => intro s; exact .refl
  | cons i rest ih =>
      intro s
      have hfirst : Writes cfg sc s.board (retryDeadLetter s now ws i).board := by
        unfold retryDeadLetter
        split
        · exact .refl
        · split
          · exact .refl
          · split
            · exact .refl
            · split
              · exact .refl
              · split
                · exact .refl
                · exact requeueRun_writes s now ws _ _ _ hreopen (hmoves _) (hjob _ _ _)
      exact hfirst.trans (ih _)

theorem retryAssignments_writes {flushed : List JobSchedule} {now : Instant} {ws : WorkspaceId}
    (hreopen : sc.reopens) (hmoves : ∀ rid, sc.moves rid)
    (hjob : ∀ rid stage attempt, sc.job (retryJob now ws rid stage attempt))
    (ids : List AssignmentId) :
    ∀ s : Db, Writes cfg sc s.board (retryAssignments flushed s now ws ids).board := by
  induction ids with
  | nil => intro s; exact .refl
  | cons aid rest ih =>
      intro s
      have hfirst : Writes cfg sc s.board (retryAssignment flushed s now ws aid).board := by
        unfold retryAssignment
        split
        · exact .refl
        · split
          · exact .refl
          · split
            · exact .refl
            · split
              · exact .refl
              · exact requeueRun_writes s now ws _ _ _ hreopen (hmoves _) (hjob _ _ _)
      exact hfirst.trans (ih _)

/-! ## Every operation -/

/-- The status that `reserve_spend` writes when a cap is exceeded. -/
def reserveOverwrites (s : Db) (now : Instant) (rid : RunId) (stage : ContentStage)
    (provider : String) (estimate : ℚ≥0) : Option (RunId × PipelineRunStatus) :=
  match s.runs[rid]? with
  | none => none
  | some run =>
      if (reserveSpend s now rid run.workspaceId stage provider estimate).2 = none
      then some (rid, .paused) else none

/-- The status that an operation writes to a run without looking at the run's status: the
worker's failure report, the delivery of a review decision, and the spend hold outside
`dispatch_stage`. -/
def Op.overwrites (cfg : Config) (s : Db) (o : Op) : Option (RunId × PipelineRunStatus) :=
  match o.action with
  | .dispatchOne eid =>
      (deliveredVerdict s eid).bind fun v => resumeOverwrites cfg s v.1 v.2
  | .submitAndDeliver gid _ approved _ => resumeOverwrites cfg s gid approved
  | .decideReviewGate _ gid _ approved _ _ => resumeOverwrites cfg s gid approved
  | .submitResult aid success _ errorMessage worker _ =>
      submitOverwrites cfg s o.now aid success errorMessage worker
  | .claimAssignment wid token _ rows => claimOverwrites cfg s o.now wid token rows
  | .reserveSpend rid stage provider estimate =>
      reserveOverwrites s o.now rid stage provider estimate
  | _ => none

/-- The definition that an operation starts a run of. -/
def Op.starts (o : Op) : Option DefinitionId :=
  match o.action with
  | .startRun _ _ definition => some definition
  | _ => none

/-- The call of `dispatch_stage` that an operation is. -/
def Op.push (o : Op) : Option (DispatchArgs × List WorkerId) :=
  match o.action with
  | .dispatchStage args rows => some (args, rows)
  | _ => none

/-- The assignments an operation may insert. -/
def Op.inserts (cfg : Config) (s : Db) (o : Op) (a : StageAssignment) : Prop :=
  match o.action with
  | .dispatchStage args rows => IsDispatchRow cfg s o.now args rows a
  | .processLeasedJob jid rows _ =>
      ∃ job rid, s.jobs[jid]? = some job ∧ job.isWork = true ∧ job.refId = .run rid ∧
        IsDispatchRow cfg s o.now (job.dispatchArgs rid) rows a
  | _ => False

/-- The operations whose caller names the stage of a new job. -/
def Op.namesJob (o : Op) (j : JobSchedule) : Prop :=
  match o.action with
  | .handleStageTimeout rid stage _ => j.refId = .run rid ∧ j.refTable = stage.value
  | .retryFailedJobs .. => True
  | _ => False

/-- The operations whose caller names the stage of a new gate. -/
def Op.namesGate (o : Op) (g : ReviewGate) : Prop :=
  match o.action with
  | .pauseForReview rid stage _ => g.pipelineRunId = rid ∧ g.stage = stage
  | _ => False

/-- The runs that an operation may move to another stage or set running. -/
def Op.moves (s : Db) (o : Op) (rid : RunId) : Prop :=
  match o.action with
  | .submitResult aid success .. =>
      success = true ∧ ∃ a, s.assignments[aid]? = some a ∧ a.pipelineRunId = rid
  | .dispatchOne eid => ∃ gid approved, deliveredVerdict s eid = some (gid, approved) ∧
      ∃ g, s.gates[gid]? = some g ∧ g.pipelineRunId = rid
  | .submitAndDeliver gid .. => ∃ g, s.gates[gid]? = some g ∧ g.pipelineRunId = rid
  | .decideReviewGate _ gid .. => ∃ g, s.gates[gid]? = some g ∧ g.pipelineRunId = rid
  | .retryFailedJobs .. => True
  | _ => False

/-- The stages of a run whose pending work an operation may use up. -/
def Op.spends (s : Db) (o : Op) (rid : RunId) (stage : ContentStage) : Prop :=
  match o.action with
  | .submitResult aid .. | .recoverAssignment aid .. =>
      ∃ a, s.assignments[aid]? = some a ∧ a.pipelineRunId = rid ∧ a.stage = stage
  | .processLeasedJob jid .. => ∃ j, s.jobs[jid]? = some j ∧ j.isWork = true ∧
      j.refId = .run rid ∧ j.refTable = stage.value
  | .reapExpiredLeases .. | .reapWorkerAssignments .. => True
  | .cancelRun rid' => rid' = rid
  | _ => False

def Op.scope (cfg : Config) (s : Db) (o : Op) : Scope where
  moves := o.moves s
  spends := o.spends s
  start := fun definition => definition ∈ o.starts
  assign := o.inserts cfg s
  job := o.namesJob
  gate := o.namesGate
  loose := fun rid st => o.overwrites cfg s = some (rid, st)
  verdict := ∃ eid, o.action = .dispatchOne eid
  reopens := ∃ ws rows, o.action = .retryFailedJobs ws rows

/-- The operations that look at a gate's escalation level or at a job's type. -/
def Action.firesTimer : Action → Bool
  | .processLeasedJob .. | .handleReviewTimeout .. => true
  | _ => false

theorem call_writes (cfg : Config) (s : Db) (now : Instant) (action : Action)
    (hs : action.firesTimer = true → s.board.Sane) :
    Writes cfg (Op.scope cfg s ⟨now, action⟩) s.board (Op.call cfg s ⟨now, action⟩).db.board := by
  cases action with
  | startRun ws item definition => exact startRun_writes s now ws item definition rfl
  | pollAndLease batchSize rows =>
      exact updateJobs_writes (f := JobSchedule.lease now) (fun _ => ⟨rfl, rfl, rfl, rfl⟩)
        (fun _ _ => rfl) _ s
  | reapExpiredJobLeases batchSize rows =>
      exact updateJobs_writes (f := JobSchedule.unlease) (fun _ => ⟨rfl, rfl, rfl, rfl⟩)
        (fun _ _ => rfl) _ s
  | processLeasedJob jid rows jitter =>
      exact ofExcept_writes fun _ h => processLeasedJob_writes (hs rfl)
        (fun job rid a hjob hw href ha => ⟨job, rid, hjob, hw, href, ha⟩)
        (fun j hj rid stage hw href htable => ⟨j, hj, hw, href, htable⟩) h
  | dispatchStage args rows =>
      refine ofExcept_writes fun s' h => ?_
      obtain ⟨r, hd, rfl⟩ := map_ok h
      exact dispatchStage_writes (fun a ha => ha) hd
  | claimAssignment wid token ws rows =>
      refine ofExcept_writes fun s' h => ?_
      obtain ⟨r, hc, rfl⟩ := map_ok h
      exact claimAssignment_writes (fun rid st h => h) hc
  | acknowledge aid secs worker => exact ofExcept_writes fun _ h => acknowledge_writes h
  | renewLease aid secs worker => exact ofExcept_writes fun _ h => renewLease_writes h
  | submitResult aid success result errorMessage worker jitter =>
      exact submitResult_writes s now aid success result errorMessage worker jitter
        (fun hs a ha => ⟨hs, a, ha, rfl⟩) (fun a ha => ⟨a, ha, rfl, rfl⟩) fun rid st h => h
  | recoverAssignment aid reason detail =>
      exact ofExcept_writes fun _ h => recoverAssignment_writes (fun a ha => ⟨a, ha, rfl, rfl⟩) h
  | reapExpiredLeases batchSize rows =>
      exact ofExcept_writes fun _ h => recoverEach_writes (fun _ _ => trivial) _ h
  | reapWorkerAssignments wid reason batchSize detail rows =>
      exact ofExcept_writes fun _ h => reapWorkerBatches_writes (fun _ _ => trivial) _ h
  | pauseForReview rid stage timeoutSeconds =>
      exact pauseForReview_writes s now timeoutSeconds fun g hr hst => .inr ⟨hr, hst⟩
  | submitReviewDecision gid reviewer approved notes =>
      refine ofExcept_writes fun s' h => ?_
      obtain ⟨r, hd, rfl⟩ := map_ok h
      exact submitReviewDecision_writes hd
  | dispatchOne eid =>
      refine dispatchOne_writes s now eid fun gid approved hv => ⟨fun rid st h => ?_,
        fun g hg => ⟨gid, approved, hv, g, hg, rfl⟩, ?_⟩
      · show (deliveredVerdict s eid).bind _ = _
        rw [hv]
        exact h
      · exact .inr ⟨eid, rfl⟩
  | submitAndDeliver gid reviewer approved notes =>
      exact submitAndDeliver_writes s now gid reviewer approved notes
        (fun g hg => ⟨g, hg, rfl⟩) fun rid st h => h
  | decideReviewGate ws gid reviewer approved expected notes =>
      exact decideReviewGate_writes s now ws gid reviewer approved expected notes
        (fun g hg => ⟨g, hg, rfl⟩) fun rid st h => h
  | editReviewGateContent ws gid expected hook body cta =>
      exact ofExcept_writes fun _ h => editReviewGateContent_writes h
  | handleReviewTimeout gid => exact handleReviewTimeout_writes s now gid (hs rfl)
  | handleStageTimeout rid stage jitter =>
      exact ofExcept_writes fun _ h => handleStageTimeout_writes
        (fun ws attempt runAfter => ⟨rfl, rfl⟩) h
  | reserveSpend rid stage provider estimate =>
      show Writes cfg _ s.board (reserveSpendFor s now rid stage provider estimate).board
      unfold reserveSpendFor
      split
      · exact .refl
      · rename_i run hrun
        refine reserveSpend_writes s now run.workspaceId stage provider estimate fun hnone => ?_
        right
        show reserveOverwrites s now rid stage provider estimate = _
        simp [reserveOverwrites, hrun, hnone]
  | cancelRun rid => exact cancelRun_writes s now rid fun _ => rfl
  | retryFailedJobs ws rows =>
      have hreopen : (Op.scope cfg s ⟨now, .retryFailedJobs ws rows⟩).reopens := ⟨ws, rows, rfl⟩
      exact (retryDeadLetters_writes hreopen (fun _ => trivial) (fun _ _ _ => trivial) _ s).trans
        (retryAssignments_writes hreopen (fun _ => trivial) (fun _ _ _ => trivial) _ _)

/-- **Every operation is a sequence of writes** within its scope. -/
theorem exec_writes (cfg : Config) {s : Db} (o : Op)
    (hs : o.action.firesTimer = true → s.board.Sane) :
    Writes cfg (o.scope cfg s) s.board (exec cfg s o).board := by
  unfold exec Call.commit
  split
  · exact .refl
  · rw [board_flush]
    exact call_writes cfg s o.now o.action hs

/-! ## Sanity -/

theorem NewJob.not_stageTimeout {b : Board} {job : JobSchedule} (h : NewJob cfg sc b job) :
    job.jobType ≠ .stageTimeout := by
  intro ht
  cases h with
  | work _ _ hw _ => simp [JobSchedule.isWork, ht] at hw
  | other h => rcases h with h | h <;> rw [ht] at h <;> cases h
  | extra hw _ => simp [JobSchedule.isWork, ht] at hw

theorem GateWrite.level {b : Board} {gid : GateId} {f : ReviewGate → ReviewGate}
    (h : GateWrite sc b gid f) (g : ReviewGate) (hg : (f g).status = .awaiting) :
    g.status = .awaiting ∧ (f g).escalationLevel = g.escalationLevel := by
  cases h with
  | decideBy reviewer _ => exact ⟨hg, rfl⟩
  | decide approved now _ _ => cases approved <;> cases hg
  | escalate timeoutAt _ _ _ => cases hg
  | showVersion v _ => exact ⟨hg, rfl⟩

theorem Write.sane {b b' : Board} (h : Write cfg sc b b') (hb : b.Sane) : b'.Sane := by
  cases h with
  | newJob hjob => exact ⟨hb.level, Table.forall_push hb.jobs hjob.not_stageTimeout⟩
  | job hf =>
      refine ⟨hb.level, Table.forall_modify hb.jobs fun j hj => ?_⟩
      rw [(hf j).1]
      exact hb.jobs j (Table.mem_of_get hj)
  | newGate hg =>
      obtain ⟨_, hlevel, _⟩ := hg
      exact ⟨Table.forall_push hb.level fun _ => hlevel, hb.jobs⟩
  | gate hg =>
      refine ⟨Table.forall_modify hb.level fun g hold hawait => ?_, hb.jobs⟩
      obtain ⟨hawait', heq⟩ := hg.level g hawait
      rw [heq]
      exact hb.level g (Table.mem_of_get hold) hawait'
  | startRun | run | newAssignment | assignment | worker | decision => exact ⟨hb.level, hb.jobs⟩

theorem exec_sane (cfg : Config) {s : Db} (o : Op) (hs : s.board.Sane) :
    (exec cfg s o).board.Sane :=
  (exec_writes cfg o fun _ => hs).invariant (I := Board.Sane) (fun _ _ => Write.sane) hs

theorem Fresh.sane {s : Db} (h : Fresh s) : s.board.Sane := by
  constructor
  · intro g hg
    rw [show s.board.gates = [] from h.gates] at hg
    cases hg
  · intro j hj
    rw [show s.board.jobs = [] from h.jobs] at hj
    cases hj

end HumanGate
