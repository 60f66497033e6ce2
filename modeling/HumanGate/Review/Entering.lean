import HumanGate.Jobs.Requeued
import HumanGate.Model.Desk
import HumanGate.Run.Routing

set_option autoImplicit false

/-! # Entering a review gate

Routing that enters a stage flagged `is_review_gate` is to pause the run, open a gate for
exactly that stage and enqueue no work for it. It does so on the way from a worker's result to
a stage that is a gate and nothing else. On three ways it does not:

* `start_run` enqueues the first stage of a definition without looking at the flag
  (`first_stage_gate_enqueued`);
* a stage that is also terminal ends the run;
* where a decision leads from one gate to the next, the gate that was just decided is not
  flushed yet, so `pause_for_review` takes it for an awaiting one and opens no other.

`SafeEntry` excludes these ways, as a condition on the operation and the state before it. A manual
retry requeues no gate, because no work was for one before.
-/

namespace HumanGate

open Lib Lib.Calendar Relation

variable {cfg : Config} {sc : Scope}

/-! ## The property -/

/-- The stage is a review gate in the run's definition. -/
def Db.IsGateOf (cfg : Config) (s : Db) (rid : RunId) (stage : ContentStage) : Prop :=
  ∃ d row, s.board.definition cfg rid = some d ∧ d.stageRow stage = some row ∧
    row.isReviewGate = true

/-- The run waits for a human at the stage, and there is no work for it. -/
structure PausedAt (s : Db) (rid : RunId) (stage : ContentStage) : Prop where
  run : s.WaitsForReview rid
  gate : ∃ g ∈ s.gates, g.pipelineRunId = rid ∧ g.stage = stage ∧ g.status = .awaiting
  noWork : ¬ s.Enqueued rid stage.value

/-- If the operation makes a review gate the current stage of a run, the run is paused there
afterwards. -/
def EntryPauses (cfg : Config) (s : Db) (o : Op) : Prop :=
  ∀ rid stage, (o.call cfg s).raised = none → (o.call cfg s).entered = some (rid, stage) →
    (exec cfg s o).IsGateOf cfg rid stage → PausedAt (exec cfg s o) rid stage

/-! ## The condition -/

/-- The one gate of the run that is awaiting, if there is exactly one, is for this stage, and
the run is paused for it. -/
def AloneAt (s : Db) (rid : RunId) (stage : ContentStage) : Prop :=
  (awaitingGates s rid).length = 1 →
    s.WaitsForReview rid ∧ ∀ gid ∈ awaitingGates s rid, ∀ g ∈ s.gates[gid]?, g.stage = stage

/-- The operation starts no run in a gate, a result leads to no gate that is also terminal and
to none while another gate of the run is awaiting, and no decision leads to a gate. -/
def SafeEntry (cfg : Config) (s : Db) (o : Op) : Prop :=
  (∀ definition ∈ o.starts, ∀ d ∈ cfg.definition definition, ∀ row ∈ d.firstStage,
    row.isReviewGate = false) ∧
  (∀ report ∈ o.reports, ∀ a ∈ s.assignments[report.1]?,
    ∀ row ∈ routeTarget cfg s.board a.pipelineRunId a.stage .onSuccess report.2,
    row.isReviewGate = true → row.isTerminal = false ∧ AloneAt s a.pipelineRunId row.stageKey) ∧
  (∀ verdict ∈ o.delivers s, ∀ g ∈ s.gates[verdict.1]?,
    ∀ row ∈ routeTarget cfg s.board g.pipelineRunId g.stage (reviewTrigger verdict.2) [],
    row.isReviewGate = false)

/-! ## What routing enters -/

/-- **The gate branch**: a stage that is a gate and not terminal is paused at, unless another
gate of the run is in the way. -/
theorem enterStage_pauses {s : Db} {now : Instant} {rid : RunId} {ws : WorkspaceId}
    {row : WorkflowStage} (hs : s.Synced) (hterm : row.isTerminal = false)
    (hgate : row.isReviewGate = true) (halone : AloneAt s rid row.stageKey)
    (hraised : (enterStage cfg s now rid ws row).raised = none) :
    (enterStage cfg s now rid ws row).db.WaitsForReview rid ∧
      ∃ g ∈ (enterStage cfg s now rid ws row).db.gates, g.pipelineRunId = rid ∧
        g.stage = row.stageKey ∧ g.status = .awaiting := by
  have hawaiting : awaitingGates (s.updateRun rid (PipelineRun.enter row.stageKey)) rid
      = awaitingGates s rid := rfl
  unfold enterStage pauseForReview at hraised ⊢
  simp only [hterm, hgate, if_true, Bool.false_eq_true, if_false, hawaiting] at hraised ⊢
  split at hraised
  · cases hraised
  · rename_i run hrun
    split at hraised
    · cases hraised
    · rename_i hlive
      rw [if_neg hlive]
      split at hraised
      · cases hraised
      · -- the one awaiting gate is the gate of this stage
        rename_i gid hone
        obtain ⟨hwaits, hstage⟩ := halone (by rw [hone]; rfl)
        have hmem : gid ∈ awaitingGates s rid := by rw [hone]; exact List.mem_singleton_self _
        obtain ⟨g, hg, hr, hst⟩ := mem_awaitingGates hs hmem
        refine ⟨?_, g, Table.mem_of_get hg, hr, hstage gid hmem g hg, hst⟩
        obtain ⟨old, hold, hpaused⟩ := Option.map_eq_some_iff.mp hwaits
        exact Option.map_eq_some_iff.mpr ⟨_, Table.get_modify_self hold, hpaused⟩
      · rename_i hnone
        split at hraised
        · cases hraised
        · rename_i item hitem
          refine ⟨?_, _, List.mem_append_right _ (List.mem_singleton_self _), rfl, rfl, rfl⟩
          exact Option.map_eq_some_iff.mpr ⟨_, Table.get_modify_self hrun, rfl⟩

/-! ## What a decision enters -/

/-- What a decision on the gate enters: the target of the decision's edge, or the gate's own
stage, if that is terminal. -/
def DecisionEnters (cfg : Config) (s : Db) (gid : GateId) (approved : Bool) (rid : RunId)
    (stage : ContentStage) : Prop :=
  ∃ g d, s.gates[gid]? = some g ∧ g.pipelineRunId = rid ∧ s.board.definition cfg rid = some d ∧
    ((stage = g.stage ∧ ∃ row, d.stageRow g.stage = some row ∧ row.isTerminal = true) ∨
    ∃ row, routeTarget cfg s.board rid g.stage (reviewTrigger approved) [] = some row ∧
      d.stageRow stage = some row)

theorem resumeFromReview_entered {s : Db} {now : Instant} {gid : GateId} {approved : Bool}
    {rid : RunId} {stage : ContentStage}
    (h : (resumeFromReview cfg s now gid approved).entered = some (rid, stage)) :
    DecisionEnters cfg s gid approved rid stage := by
  have hresumed := resumeFromReview_resumed cfg s now gid approved
  generalize resumeFromReview cfg s now gid approved = c at h hresumed
  cases hresumed with
  | still hnone _ _ _ =>
      rw [hnone] at h
      cases h
  | failed _ hnone _ =>
      rw [hnone] at h
      cases h
  | @routed g s2 hg _ hs2 =>
      -- routing starts from the gate's stage, in the definition the run is pinned to
      have hdef : s2.board.definition cfg g.pipelineRunId
          = s.board.definition cfg g.pipelineRunId := by
        rw [hs2, board_updateRun, Board.definition_updateRun (f := PipelineRun.resume) fun _ => rfl]
        rfl
      have hrouted := advanceOrFinish_routed cfg s2 now g.pipelineRunId g.stage
        (reviewTrigger approved) []
      generalize advanceOrFinish cfg s2 now g.pipelineRunId g.stage (reviewTrigger approved) [] = c
        at h hrouted
      cases hrouted with
      | raised => cases h
      | ended hd hrow hterm _ =>
          cases h
          exact ⟨g, _, hg, rfl, hdef ▸ hd, .inl ⟨rfl, _, hrow, hterm⟩⟩
      | entered hd htarget hrow =>
          rw [enterStage_entered] at h
          cases h
          exact ⟨g, _, hg, rfl, hdef ▸ hd,
            .inr ⟨_, by rw [← htarget, routeTarget_congr hdef], hrow⟩⟩

/-- What an operation that delivers a decision enters. -/
theorem Delivered.enters {s s1 : Db} {now : Instant} {gid : GateId} {approved : Bool} {c : Call}
    (h : Delivered cfg s now gid approved c s1) {rid : RunId} {stage : ContentStage}
    (hentered : c.entered = some (rid, stage)) : DecisionEnters cfg s gid approved rid stage := by
  rcases h.applied with ⟨_, hnone⟩ | ⟨_, heq⟩
  · rw [hnone] at hentered
    cases hentered
  · rw [heq] at hentered
    obtain ⟨g1, d, hg1, hr, hd, hcase⟩ := resumeFromReview_entered hentered
    obtain ⟨g, hg, hrun, hstage⟩ := h.gate g1 hg1
    have hdef := Db.definition_congr cfg h.runs rid
    refine ⟨g, d, hg, hrun ▸ hr, hdef ▸ hd, ?_⟩
    rw [← hstage, ← routeTarget_congr hdef]
    exact hcase

/-! ## The invariant -/

/-- The first stage of the definition is not a gate. -/
def FirstPlain (d : WorkflowDefinition) : Prop := ∀ row ∈ d.firstStage, row.isReviewGate = false

/-- Where the first stage is not a gate, the stage is not one. -/
def NotGate : StageProp := fun d stage =>
  FirstPlain d → ∀ row, d.stageRow stage = some row → row.isReviewGate = false

theorem notGate_ofPlain : NotGate.OfPlain where
  first := by
    intro d first hfirst hd row hrow
    rw [stageRow_of_mem (firstStage_mem hfirst)] at hrow
    cases hrow
    exact hd first hfirst
  plain := by
    intro d plain hplain _ hgate _ row hrow
    rw [hplain] at hrow
    cases hrow
    exact hgate

/-- No run was started in a gate. -/
def Board.StartsPlain (cfg : Config) (b : Board) : Prop :=
  ∀ run ∈ b.runs, ∀ d, run.definitionId.bind cfg.definition = some d → FirstPlain d

theorem Write.startsPlain {b b' : Board} (h : Write cfg sc b b')
    (hstart : ∀ definition, sc.start definition → ∀ d ∈ cfg.definition definition, FirstPlain d)
    (hb : b.StartsPlain cfg) : b'.StartsPlain cfg := by
  cases h with
  | startRun hs hdef _ =>
      refine Table.forall_push hb fun d hd => ?_
      rw [hdef] at hd
      exact hstart _ hs d hd
  | run hf =>
      refine Table.forall_modify hb fun run hrun d hd => ?_
      rw [hf.definitionId] at hd
      exact hb run (Table.mem_of_get hrun) d hd
  | newJob | job | newAssignment | assignment | worker | newGate | gate | decision => exact hb

/-- What holds in every state: no work is for a gate, no run was started in one, and no gate stands
at a terminal stage. -/
structure Db.Plain (cfg : Config) (s : Db) : Prop extends s.Accounted cfg NotGate where
  starts : s.board.StartsPlain cfg
  inside : s.board.GatesInside cfg

theorem Fresh.plain {s : Db} (h : Fresh s) (hletters : s.deadLetters = []) : s.Plain cfg := by
  refine ⟨h.accounted hletters, ?_, ?_⟩
  · intro run hrun
    rw [show s.board.runs = [] from h.runs] at hrun
    cases hrun
  · intro g hg
    rw [show s.board.gates = [] from h.gates] at hg
    cases hg

/-! ## The operations -/

/-- A stage timeout and a pause are only called from within another operation. -/
def Action.isNested : Action → Bool
  | .handleStageTimeout .. | .pauseForReview .. => true
  | _ => false

/-- The operations as the system issues them, manual retries included, and `dispatch_stage` only for
an enqueued job. -/
def Op.Issued (s : Db) (o : Op) : Prop := o.action.isNested = false ∧ o.Queued s

instance (s : Db) (o : Op) : Decidable (o.Issued s) :=
  inferInstanceAs (Decidable (o.action.isNested = false ∧
    ∀ call ∈ o.push, s.Enqueued call.1.pipelineRunId call.1.stage))

theorem Op.Issued.namesJob {s : Db} {o : Op} (ho : o.Issued s) (hretry : o.action.isRetry = false)
    (j : JobSchedule) : ¬ o.namesJob j := by
  obtain ⟨now, action⟩ := o
  cases action with
  | handleStageTimeout => exact absurd ho.1.symm Bool.false_ne_true
  | retryFailedJobs => exact absurd hretry.symm Bool.false_ne_true
  | _ => exact fun h => h

theorem Op.Issued.namesGate {s : Db} {o : Op} (ho : o.Issued s) (g : ReviewGate) :
    ¬ o.namesGate g := by
  obtain ⟨now, action⟩ := o
  cases action with
  | pauseForReview => exact absurd ho.1.symm Bool.false_ne_true
  | _ => exact fun h => h

theorem exec_plain {s : Db} {o : Op} (ho : o.Issued s) (hsafe : SafeEntry cfg s o)
    (hs : s.Plain cfg) : (exec cfg s o).Plain cfg := by
  have hwrites := exec_writes cfg o fun _ => hs.sane
  have hcarried : o.action.isRetry = false → (exec cfg s o).board.Carried cfg NotGate :=
    fun hretry => (exec_carried (I := fun _ => True) notGate_ofPlain ho.2 (ho.namesJob hretry)
      hs.sane hs.carried trivial fun _ _ _ _ _ => trivial).1
  refine ⟨exec_accounted notGate_ofPlain hcarried hs.toAccounted, ?_, ?_⟩
  · exact hwrites.invariant (I := Board.StartsPlain cfg) (fun _ _ hw => hw.startsPlain hsafe.1)
      hs.starts
  · exact hwrites.invariant (I := Board.GatesInside cfg)
      (fun _ _ hw => hw.gatesInside ho.namesGate) hs.inside

/-- Nothing that is carried is a gate. -/
theorem Db.Plain.not_gate {s : Db} (hs : s.Plain cfg) {rid : RunId}
    {stage : ContentStage} (hat : s.board.At cfg NotGate rid stage) :
    ¬ s.IsGateOf cfg rid stage := by
  rintro ⟨d, row, hd, hrow, hgate⟩
  obtain ⟨run, hrun, hP⟩ := hat
  obtain ⟨run', hrun', hdef⟩ := Option.bind_eq_some_iff.mp hd
  rw [hrun] at hrun'
  cases hrun'
  have hnot := hP d hdef (hs.starts run (Table.mem_of_get hrun) d hdef) row hrow
  rw [hgate] at hnot
  cases hnot

theorem Db.Plain.noWork {s : Db} (hs : s.Plain cfg) {rid : RunId} {stage : ContentStage}
    (hgate : s.IsGateOf cfg rid stage) : ¬ s.Enqueued rid stage.value := by
  rintro ⟨j, hj, hw, href, htable⟩
  refine hs.not_gate (hs.carried.jobs j hj hw rid stage href ?_) hgate
  rw [htable, ContentStage.ofText?_value]

/-! ## Every operation -/

/-- A decision enters no gate. -/
theorem DecisionEnters.not_gate {s : Db} {gid : GateId} {approved : Bool} {rid : RunId}
    {stage : ContentStage} (h : DecisionEnters cfg s gid approved rid stage)
    (hs : s.Plain cfg)
    (hsafe : ∀ g ∈ s.gates[gid]?, ∀ row ∈ routeTarget cfg s.board g.pipelineRunId g.stage
      (reviewTrigger approved) [], row.isReviewGate = false) : ¬ s.IsGateOf cfg rid stage := by
  rintro ⟨d', row', hd', hrow', hgate⟩
  obtain ⟨g, d, hg, rfl, hd, hcase⟩ := h
  obtain rfl : d = d' := Option.some.inj (hd.symm.trans hd')
  rcases hcase with ⟨rfl, row, hrow, hterm⟩ | ⟨row, htarget, hrow⟩
  · -- a gate does not stand at a terminal stage
    obtain ⟨run, hrun, hP⟩ := hs.inside g (Table.mem_of_get hg)
    obtain ⟨run', hrun', hdef⟩ := Option.bind_eq_some_iff.mp hd
    rw [hrun] at hrun'
    cases hrun'
    have hnot := hP d hdef row hrow
    rw [hterm] at hnot
    cases hnot
  · obtain rfl : row = row' := Option.some.inj (hrow.symm.trans hrow')
    have hnot := hsafe g hg row htarget
    rw [hgate] at hnot
    cases hnot

/-- A successful result that enters a gate pauses the run there. -/
theorem submitResult_pauses {s : Db} {now : Instant} {aid : AssignmentId}
    {result : Option JsonObject} {errorMessage : String} {worker : Option WorkerId} {jitter : Nat}
    {rid : RunId} {stage : ContentStage} (hs : s.Plain cfg) (hsync : s.Synced)
    (hsafe : ∀ a ∈ s.assignments[aid]?,
      ∀ row ∈ routeTarget cfg s.board a.pipelineRunId a.stage .onSuccess (result.getD []),
      row.isReviewGate = true → row.isTerminal = false ∧ AloneAt s a.pipelineRunId row.stageKey)
    (hraised : (submitResult cfg s now aid true result errorMessage worker jitter).raised = none)
    (hentered : (submitResult cfg s now aid true result errorMessage worker jitter).entered
      = some (rid, stage)) :
    (∃ d, s.board.definition cfg rid = some d) ∧ (s.IsGateOf cfg rid stage →
      (submitResult cfg s now aid true result errorMessage worker jitter).db.WaitsForReview rid ∧
      ∃ g ∈ (submitResult cfg s now aid true result errorMessage worker jitter).db.gates,
        g.pipelineRunId = rid ∧ g.stage = stage ∧ g.status = .awaiting) := by
  obtain ⟨a, ha, ⟨hnone, _⟩ | ⟨s2, hruns, hgates, hsync2, hcall⟩⟩ := submitResult_success hraised
  · rw [hnone] at hentered
    cases hentered
  · rw [hcall] at hraised hentered ⊢
    have hdef := Db.definition_congr cfg hruns a.pipelineRunId
    have hrouted := advanceOrFinish_routed cfg s2 now a.pipelineRunId a.stage .onSuccess
      (result.getD [])
    generalize advanceOrFinish cfg s2 now a.pipelineRunId a.stage .onSuccess (result.getD []) = c
      at hraised hentered hrouted ⊢
    cases hrouted with
    | raised => cases hraised
    | ended hd _ _ _ =>
        -- the stage of an assignment is not a gate
        cases hentered
        refine ⟨⟨_, hdef ▸ hd⟩, fun hgate => absurd hgate (hs.not_gate ?_)⟩
        exact hs.carried.assignments a (Table.mem_of_get ha)
    | @entered d row ws hd htarget hrow =>
        rw [enterStage_entered] at hentered
        cases hentered
        refine ⟨⟨d, hdef ▸ hd⟩, ?_⟩
        rintro ⟨d', row', hd', hrow', hflag⟩
        rw [hdef] at hd
        obtain rfl : d = d' := Option.some.inj (hd.symm.trans hd')
        obtain rfl : row = row' := Option.some.inj (hrow.symm.trans hrow')
        rw [routeTarget_congr hdef] at htarget
        obtain ⟨hterm, halone⟩ := hsafe a ha row htarget hflag
        refine enterStage_pauses hsync2 hterm hflag ?_ hraised
        -- the runs and the gates are those of the state before
        unfold AloneAt Db.WaitsForReview at halone ⊢
        rw [awaitingGates_congr hsync hsync2 hgates, hruns, hgates]
        exact halone

theorem startRun_not_gate {s : Db} {now : Instant} {ws : WorkspaceId} {item : ItemId}
    {definition : DefinitionId} {rid : RunId} {stage : ContentStage}
    (hsafe : ∀ d ∈ cfg.definition definition, FirstPlain d)
    (hentered : (startRun cfg s now ws item definition).entered = some (rid, stage)) :
    ¬ (startRun cfg s now ws item definition).db.IsGateOf cfg rid stage := by
  unfold startRun at hentered ⊢
  split at hentered
  · rename_i d _ hd _
    split at hentered
    · cases hentered
    · rename_i first hfirst
      cases hentered
      rintro ⟨d', row, hd', hrow, hgate⟩
      change ((s.runs ++ [_])[s.runs.length]?).bind _ = some d' at hd'
      rw [Table.get_push_new] at hd'
      obtain rfl : d' = d := Option.some.inj (hd'.symm.trans hd)
      rw [stageRow_of_mem (firstStage_mem hfirst)] at hrow
      cases hrow
      have hnot := hsafe d' hd first hfirst
      rw [hgate] at hnot
      cases hnot
  · cases hentered

/-- A stage that was a gate of the run before the operation. -/
theorem exec_isGateOf {s : Db} {o : Op} (hs : s.Plain cfg) {rid : RunId}
    {stage : ContentStage} {d : WorkflowDefinition} (hd : s.board.definition cfg rid = some d)
    (h : (exec cfg s o).IsGateOf cfg rid stage) : s.IsGateOf cfg rid stage := by
  obtain ⟨d', row, hd', hrow, hgate⟩ := h
  have hkept := (exec_writes cfg o fun _ => hs.sane).invariant
    (I := fun b => b.definition cfg rid = some d) (fun _ _ hw => hw.definition) hd
  rw [hkept] at hd'
  cases hd'
  exact ⟨d, row, hd, hrow, hgate⟩

theorem exec_entryPauses {s : Db} {o : Op} (hs : s.Plain cfg) (hsync : s.Synced)
    (ho : o.Issued s) (hsafe : SafeEntry cfg s o) : EntryPauses cfg s o := by
  intro rid stage hraised hentered hgate
  have hnoWork := (exec_plain ho hsafe hs).noWork hgate
  have hexec : exec cfg s o = (o.call cfg s).db.flush := by
    unfold exec Call.commit
    rw [hraised]
  obtain ⟨now, action⟩ := o
  -- a decision does not enter a gate
  have hdecision : ∀ v, Op.delivers s ⟨now, action⟩ = some v → False := by
    intro v hv
    obtain ⟨s1, hdelivered⟩ := call_delivered cfg hv
    have henters := hdelivered.enters hentered
    obtain ⟨_, d, _, _, hd, _⟩ := id henters
    exact henters.not_gate hs (hsafe.2.2 v hv) (exec_isGateOf hs hd hgate)
  cases action with
  | startRun ws item definition =>
      rw [hexec] at hgate
      exact absurd hgate (startRun_not_gate (hsafe.1 definition rfl) hentered)
  | submitResult aid success result errorMessage worker jitter =>
      cases success with
      | false =>
          have hnone := (submitResult_failure hraised).1
          exact absurd (hentered.symm.trans hnone) (by simp)
      | true =>
          obtain ⟨⟨d, hd⟩, hpauses⟩ := submitResult_pauses hs hsync
            (hsafe.2.1 (aid, result.getD []) rfl) hraised hentered
          obtain ⟨hwaits, hopen⟩ := hpauses (exec_isGateOf hs hd hgate)
          rw [hexec] at hnoWork ⊢
          exact ⟨hwaits, hopen, hnoWork⟩
  | dispatchOne eid =>
      cases hv : deliveredVerdict s eid with
      | none => exact absurd (hentered.symm.trans (dispatchOne_stale hv).2) (by simp)
      | some v => exact (hdecision v hv).elim
  | submitAndDeliver gid reviewer approved notes => exact (hdecision (gid, approved) rfl).elim
  | decideReviewGate ws gid reviewer approved expected notes =>
      exact (hdecision (gid, approved) rfl).elim
  | pauseForReview rid stage timeoutSeconds => exact absurd ho.1.symm Bool.false_ne_true
  | processLeasedJob | dispatchStage | claimAssignment | acknowledge | renewLease
  | recoverAssignment | reapExpiredLeases | reapWorkerAssignments | submitReviewDecision
  | editReviewGateContent | handleStageTimeout =>
      exact absurd (hentered.symm.trans (ofExcept_entered ..)) (by simp)
  | pollAndLease | reapExpiredJobLeases | handleReviewTimeout | reserveSpend | cancelRun
  | retryFailedJobs => cases hentered

/-- The orchestration with every operation that the system issues, from a database without dead
letters. -/
def issuing (cfg : Config) : System Db Op :=
  { orchestration cfg fun s o => o.Issued s with
    init := fun s => Fresh s ∧ s.deadLetters = [] }

/-- The same with safe entries only. -/
def safeEntries (cfg : Config) : System Db Op := (issuing cfg).restrict (SafeEntry cfg)

/-- **Entering a review gate pauses the run for a human**, in every run of the system whose
operations make safe entries. -/
theorem gate_entry_pauses (cfg : Config) {s : Db} (h : (safeEntries cfg).Reachable s) {o : Op}
    (ho : (safeEntries cfg).allowed s o) : EntryPauses cfg s o := by
  -- no work is for a gate, and no write is left unflushed, in any state of the run
  have hinv : s.Plain cfg ∧ s.Synced := by
    refine h.invariant (I := fun s => s.Plain cfg ∧ s.Synced) ?_ ?_
    · intro s hinit
      exact ⟨hinit.1.plain hinit.2, Fresh.synced hinit.1⟩
    · intro s o hs hallowed
      exact ⟨exec_plain hallowed.1 hallowed.2 hs.1, exec_synced hs.2⟩
  exact exec_entryPauses hinv.1 hinv.2 ho.1 ho.2

/-! ## The desk's workflow, and one that starts with a gate -/

instance (s : Db) (rid : RunId) (stage : ContentStage) : Decidable (AloneAt s rid stage) :=
  inferInstanceAs (Decidable ((awaitingGates s rid).length = 1 → s.WaitsForReview rid ∧
    ∀ gid ∈ awaitingGates s rid, ∀ g ∈ s.gates[gid]?, g.stage = stage))

instance (cfg : Config) (s : Db) (o : Op) : Decidable ((safeEntries cfg).allowed s o) :=
  inferInstanceAs (Decidable (o.Issued s ∧
    (∀ definition ∈ o.starts, ∀ d ∈ cfg.definition definition, ∀ row ∈ d.firstStage,
      row.isReviewGate = false) ∧
    (∀ report ∈ o.reports, ∀ a ∈ s.assignments[report.1]?,
      ∀ row ∈ routeTarget cfg s.board a.pipelineRunId a.stage .onSuccess report.2,
      row.isReviewGate = true → row.isTerminal = false ∧ AloneAt s a.pipelineRunId row.stageKey) ∧
    (∀ verdict ∈ o.delivers s, ∀ g ∈ s.gates[verdict.1]?,
      ∀ row ∈ routeTarget cfg s.board g.pipelineRunId g.stage (reviewTrigger verdict.2) [],
      row.isReviewGate = false)))

/-- The draft of the desk's workflow is reported: its run enters the review. -/
theorem draft_entry_pauses :
    (runOps deskConfig deskDb draftedOps).WaitsForReview 0 ∧
      EntryPauses deskConfig (runOps deskConfig deskDb (draftedOps.take 3))
        ⟨3, .submitResult 0 true none "" none 0⟩ :=
  ⟨by decide +kernel, gate_entry_pauses deskConfig (System.Reachable.of_legal
    (draftedOps.take 3) (.init ⟨deskDb_fresh, rfl⟩) (by decide +kernel)) (by decide +kernel)⟩

/-- A workflow whose first stage is a review gate. -/
def gateFirstWorkflow : WorkflowDefinition where
  stages := [{ stageKey := .review, ordinal := 1, isReviewGate := true },
    { stageKey := .published, ordinal := 2, isTerminal := true }]
  transitions :=
    [{ fromStage := .review, toStage := .published, trigger := .onReviewApproved }]
  stages_unique := by decide

/-- `start_run` enqueues the gate like any other stage, and the run is running. -/
theorem first_stage_gate_enqueued : ∃ s o,
    (issuing (configOf gateFirstWorkflow)).Reachable s ∧
      Op.Issued s o ∧ ¬ EntryPauses (configOf gateFirstWorkflow) s o := by
  refine ⟨deskDb, ⟨0, .startRun 0 0 0⟩, .init ⟨deskDb_fresh, rfl⟩, by decide, ?_⟩
  intro h
  have hpaused := h 0 .review rfl rfl ⟨gateFirstWorkflow, _, rfl, rfl, rfl⟩
  exact absurd hpaused.run (by decide +kernel)

end HumanGate
