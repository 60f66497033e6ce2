import HumanGate.Docket.Operations

set_option autoImplicit false

/-! # The attempts that are started

An attempt is started when an assignment turns `DISPATCHED`: it is inserted with a worker, or a
worker claims it. The starts are read off the assignment table before and after an operation
(`startedRows`). An operation that lets an assignment leave `DISPATCHED` starts none, so on a
docket a start is seen as the arrival of a dispatched assignment (`exec_starts`).
-/

namespace HumanGate

open Lib Lib.Calendar Relation

variable {cfg : Config} {s t : Db} {now : Instant}

/-! ## Starts -/

/-- The assignment is there and `DISPATCHED`. -/
def Db.dispatchedAt (s : Db) (aid : AssignmentId) : Bool :=
  (s.assignments[aid]?).any fun a => a.status == .dispatched

/-- The assignments that turn `DISPATCHED` between two states. -/
def startedRows (s t : Db) : List StageAssignment :=
  (t.assignments.zipIdx.filter fun p =>
    p.1.status == .dispatched && !s.dispatchedAt p.2).map Prod.fst

/-- The attempts that an operation starts. -/
def Op.startedRows (cfg : Config) (s : Db) (o : Op) : List StageAssignment :=
  HumanGate.startedRows s (exec cfg s o)

/-- The orchestration with routine operations, and the log of the attempts that were started. A
manual retry and a stage timeout are not routine: either can start an attempt beyond the budget. -/
def tracked (cfg : Config) : System (Db × List StageAssignment) Op :=
  (routine cfg).logged (Op.startedRows cfg)

theorem dispatchedAt_iff {aid : AssignmentId} :
    s.dispatchedAt aid = true ↔ ∃ a, s.assignments[aid]? = some a ∧ a.status = .dispatched := by
  unfold Db.dispatchedAt
  rw [Option.any_eq_true]
  simp only [beq_iff_eq]

theorem mem_startedRows {a : StageAssignment} :
    a ∈ startedRows s t ↔ ∃ aid, t.assignments[aid]? = some a ∧ a.status = .dispatched ∧
      s.dispatchedAt aid = false := by
  unfold startedRows
  simp only [List.mem_map, List.mem_filter, Bool.and_eq_true, beq_iff_eq, Bool.not_eq_true']
  constructor
  · rintro ⟨⟨a', aid⟩, ⟨hmem, hst, hnew⟩, rfl⟩
    exact ⟨aid, List.mem_zipIdx_iff_getElem?.mp hmem, hst, hnew⟩
  · rintro ⟨aid, haid, hst, hnew⟩
    exact ⟨(a, aid), ⟨List.mem_zipIdx_iff_getElem?.mpr haid, hst, hnew⟩, rfl⟩

/-! ## Moves that start an attempt, and moves that end one -/

/-- Kinds that let no assignment leave `DISPATCHED`. -/
def MoveKind.isFirm : MoveKind → Bool
  | .queue | .assign | .claim | .extend | .staff => true
  | _ => false

/-- Kinds that start no attempt. -/
def MoveKind.isCalm : MoveKind → Bool
  | .assign | .claim => false
  | _ => true

/-- A dispatched assignment stays so through firm moves. -/
theorem Moves.dispatched_stays {kinds : List MoveKind} {c c' : Crew}
    (h : Moves cfg now kinds c c') (hfirm : ∀ k ∈ kinds, k.isFirm = true) {aid : AssignmentId}
    {a : StageAssignment} (ha : c.assignments[aid]? = some a) (hst : a.status = .dispatched) :
    ∃ a', c'.assignments[aid]? = some a' ∧ a'.status = .dispatched := by
  refine h.row (P := fun a => a.status = .dispatched) ?_ ha hst
  intro k hk a a' hmove hst
  have hk' := hfirm k hk
  cases hmove with
  | claim => rfl
  | extend => exact hst
  | acknowledge | confirm | close | requeue | exhaust | cancel => cases hk'

/-- An assignment that is dispatched after calm moves was so before. -/
theorem Moves.dispatched_before {kinds : List MoveKind} {c c' : Crew}
    (h : Moves cfg now kinds c c') (hcalm : ∀ k ∈ kinds, k.isCalm = true) {aid : AssignmentId}
    {a' : StageAssignment} (ha' : c'.assignments[aid]? = some a') (hst : a'.status = .dispatched) :
    ∃ a, c.assignments[aid]? = some a ∧ a.status = .dispatched := by
  refine h.invariant (I := fun c' => ∀ a', c'.assignments[aid]? = some a' →
    a'.status = .dispatched → ∃ a, c.assignments[aid]? = some a ∧ a.status = .dispatched) ?_
    (fun a ha hst => ⟨a, ha, hst⟩) a' ha' hst
  intro k hk c₁ c₂ hmove ih a₂ ha₂ hst₂
  have hk' := hcalm k hk
  rcases hmove.row ha₂ with hsame | ⟨a₁, ha₁, hrow⟩ | ⟨_, hnew⟩
  · exact ih a₂ hsame hst₂
  · cases hrow with
    | extend => exact ih a₁ ha₁ hst₂
    | claim => cases hk'
    | acknowledge | confirm | requeue | exhaust | cancel => cases hst₂
    | close success result =>
        cases success <;> cases hst₂
  · cases hnew with
    | queue args stage heq =>
        rw [heq] at hst₂
        cases hst₂
    | assign => cases hk'

/-- A row stays with its run. -/
theorem Moves.keepsRun {kinds : List MoveKind} {c c' : Crew} (h : Moves cfg now kinds c c')
    {aid : AssignmentId} {a : StageAssignment} (ha : c.assignments[aid]? = some a) :
    ∃ a', c'.assignments[aid]? = some a' ∧ a'.pipelineRunId = a.pipelineRunId := by
  refine h.row (P := fun a' => a'.pipelineRunId = a.pipelineRunId) ?_ ha rfl
  intro k _ a a' hmove hrun
  cases hmove <;> exact hrun

/-! ## Operations -/

theorem assignStage_outcome {args : DispatchArgs} {worker : Option WorkerId}
    {outcome : DispatchOutcome} (h : assignStage cfg s now args worker = .ok (t, outcome)) :
    outcome ≠ .backpressure := by
  unfold assignStage at h
  split at h
  · cases h
  · cases h
  · split at h
    · cases h
      decide
    · simp only at h
      split at h
      · cases h
        decide
      · cases h
        decide

/-- Back-pressure changes nothing. -/
theorem dispatchStage_waits {args : DispatchArgs} {rows : List WorkerId}
    (h : dispatchStage cfg s now args rows = .ok (t, .backpressure)) : t = s := by
  unfold dispatchStage at h
  split at h
  · cases h
    rfl
  · split at h
    · cases h
      rfl
    · split at h
      · cases h
      · exact absurd rfl (assignStage_outcome h)

/-- A job that is dispatched cancels nothing, and one that is given up starts nothing. -/
theorem processLeasedJob_firm_or_calm {jid : JobId} {rows : List WorkerId} {jitter : Nat}
    (h : processLeasedJob cfg s now jid rows jitter = .ok t) :
    Moves cfg now [.queue, .assign] s.crew t.crew ∨ Moves cfg now [.cancel] s.crew t.crew := by
  rcases processLeasedJob_work h with ⟨job, rid, outcome, _, _, hwork⟩ | hcrew
  · unfold processWorkJob at hwork
    split at hwork
    · cases hwork
    · rename_i s1 out hdispatch
      split at hwork
      · cases hwork
      · rename_i s2 hsettle
        cases hwork
        by_cases hout : outcome = .backpressure
        · subst hout
          rw [dispatchStage_waits hdispatch] at hsettle
          exact .inr (settleJob_moves hsettle)
        · have hcrew : t.crew = s1.crew := by
            cases outcome with
            | backpressure => exact absurd rfl hout
            | spendHold | skipped | dispatched | idempotent | noWorker =>
                cases hsettle
                rfl
          rw [hcrew]
          exact .inl (dispatchStage_moves hdispatch)
  · rw [hcrew]
    exact .inl .refl

/-- No operation both starts an attempt and lets one leave `DISPATCHED`. -/
theorem exec_firm_or_calm (cfg : Config) (s : Db) (o : Op) :
    ∃ kinds, Moves cfg o.now kinds s.crew (exec cfg s o).crew ∧
      ((∀ k ∈ kinds, k.isFirm = true) ∨ ∀ k ∈ kinds, k.isCalm = true) := by
  obtain ⟨now, action⟩ := o
  have hmoves := exec_moves cfg s ⟨now, action⟩
  cases action with
  | processLeasedJob jid rows jitter =>
      rcases commit_ofExcept (e := processLeasedJob cfg s now jid rows jitter) rfl with
        hsame | ⟨t, h, ht⟩
      · refine ⟨[], ?_, .inl fun k hk => nomatch hk⟩
        rw [show exec cfg s ⟨now, .processLeasedJob jid rows jitter⟩ = s from hsame]
      · rw [show exec cfg s ⟨now, .processLeasedJob jid rows jitter⟩ = t.flush from ht, crew_flush]
        rcases processLeasedJob_firm_or_calm h with hfirm | hcalm
        · exact ⟨_, hfirm, .inl (by decide)⟩
        · exact ⟨_, hcalm, .inr (by decide)⟩
  | acknowledge aid secs worker =>
      refine ⟨_, hmoves, .inr ?_⟩
      cases worker <;> simp [Action.kinds, MoveKind.isCalm]
  | dispatchStage | claimAssignment | renewLease =>
      refine ⟨_, hmoves, .inl ?_⟩
      simp [Action.kinds, MoveKind.isFirm]
  | submitResult | recoverAssignment | reapExpiredLeases | reapWorkerAssignments | cancelRun
  | startRun | pollAndLease | reapExpiredJobLeases | pauseForReview | submitReviewDecision
  | dispatchOne | submitAndDeliver | decideReviewGate | editReviewGateContent
  | handleReviewTimeout | handleStageTimeout | reserveSpend | retryFailedJobs =>
      refine ⟨_, hmoves, .inr ?_⟩
      simp [Action.kinds, MoveKind.isCalm]

/-! ## Starts on a docket -/

/-- The attempt that starts when one docket follows another. -/
def Docket.fresh (d d' : Docket) : List StageAssignment :=
  if d.started then [] else d'.rows.filter fun a => a.status == .dispatched

theorem started_iff {rid : RunId} : (s.docket rid).started = true ↔
    ∃ (aid : AssignmentId) (a : StageAssignment), s.assignments[aid]? = some a ∧
      a.pipelineRunId = rid ∧ a.status = .dispatched := by
  unfold Docket.started Db.docket
  rw [List.any_eq_true]
  constructor
  · rintro ⟨a, ha, hst⟩
    obtain ⟨hmem, hopen⟩ := List.mem_filter.mp ha
    obtain ⟨aid, haid⟩ := List.getElem?_of_mem hmem
    exact ⟨aid, a, haid, (openFor_iff.mp hopen).1, beq_iff_eq.mp hst⟩
  · rintro ⟨aid, a, haid, hrun, hst⟩
    refine ⟨a, List.mem_filter.mpr ⟨Table.mem_of_get haid, ?_⟩, beq_iff_eq.mpr hst⟩
    exact openFor_iff.mpr ⟨hrun, by rw [hst]; rfl⟩

/-- Two open assignments of a run are the same. -/
theorem Docket.Sound.unique {rid : RunId} (h : (s.docket rid).Sound) {i j : AssignmentId}
    {a b : StageAssignment} (ha : s.assignments[i]? = some a) (hb : s.assignments[j]? = some b)
    (haopen : a.openFor rid = true) (hbopen : b.openFor rid = true) : i = j := by
  have hlen : (s.docket rid).rows.length ≤ 1 := by
    have hsingle := h.single
    unfold Docket.Single Docket.items at hsingle
    omega
  exact Table.get_unique hlen ha hb haopen hbopen

/-- **The starts of an operation**, on the docket of a run. -/
theorem exec_starts {o : Op} (hs : ∀ r, (s.docket r).Sound) (ho : o.Routine s) (rid : RunId) :
    ((o.startedRows cfg s).filter fun a => a.pipelineRunId == rid)
      = Docket.fresh (s.docket rid) ((exec cfg s o).docket rid) := by
  have ht := (exec_turns cfg hs ho).sound hs
  obtain ⟨kinds, hmoves, hkinds⟩ := exec_firm_or_calm cfg s o
  unfold Docket.fresh
  split
  · rename_i hstarted
    obtain ⟨j, b, hb, hbrun, hbst⟩ := started_iff.mp hstarted
    rw [List.filter_eq_nil_iff]
    intro a ha harun
    obtain ⟨i, hi, hst, hnew⟩ := mem_startedRows.mp ha
    rcases hkinds with hfirm | hcalm
    · -- the old attempt is still dispatched, and open beside the new one
      obtain ⟨b', hb', hbst'⟩ := hmoves.dispatched_stays hfirm hb hbst
      obtain ⟨b'', hb'', hbrun''⟩ := hmoves.keepsRun hb
      rw [hb'] at hb''
      cases hb''
      have hij : i = j := by
        refine (ht rid).unique hi hb' (openFor_iff.mpr ⟨beq_iff_eq.mp harun, ?_⟩)
          (openFor_iff.mpr ⟨hbrun''.trans hbrun, ?_⟩)
        · rw [hst]
          rfl
        · rw [hbst']
          rfl
      subst hij
      rw [dispatchedAt_iff.mpr ⟨b, hb, hbst⟩] at hnew
      cases hnew
    · obtain ⟨a₀, ha₀, hst₀⟩ := hmoves.dispatched_before hcalm hi hst
      rw [dispatchedAt_iff.mpr ⟨a₀, ha₀, hst₀⟩] at hnew
      cases hnew
  · rename_i hidle
    -- what is dispatched now was not before, or the run would have been started
    have hsame : ∀ p ∈ (exec cfg s o).assignments.zipIdx,
        ((p.1.pipelineRunId == rid) && (p.1.status == .dispatched && !s.dispatchedAt p.2))
          = (p.1.status == .dispatched && p.1.openFor rid) := by
      rintro ⟨a, i⟩ hp
      have hi := List.mem_zipIdx_iff_getElem?.mp hp
      simp only
      by_cases hst : a.status = .dispatched
      · by_cases hrun : a.pipelineRunId = rid
        · have hnew : s.dispatchedAt i = false := by
            rw [← Bool.not_eq_true, dispatchedAt_iff]
            rintro ⟨a₀, ha₀, hst₀⟩
            obtain ⟨a', ha', hrun'⟩ := hmoves.keepsRun ha₀
            have haa : a' = a := Option.some.inj (ha'.symm.trans hi)
            subst haa
            exact hidle (started_iff.mpr ⟨i, a₀, ha₀, hrun'.symm.trans hrun, hst₀⟩)
          simp [hst, hrun, hnew, StageAssignment.openFor, StageAssignmentStatus.isOpen]
        · have hopen : a.openFor rid = false := by
            rw [← Bool.not_eq_true, openFor_iff]
            exact fun h => hrun h.1
          rw [hopen, Bool.and_false, beq_eq_false_iff_ne.mpr hrun, Bool.false_and]
      · rw [beq_eq_false_iff_ne.mpr hst, Bool.false_and, Bool.false_and, Bool.and_false]
    unfold Op.startedRows startedRows Db.docket
    rw [List.filter_map, List.filter_filter, List.filter_filter]
    simp only [Function.comp_def]
    rw [List.filter_congr hsame]
    have hrows := congrArg (List.filter fun a : StageAssignment =>
      a.status == .dispatched && a.openFor rid) (List.zipIdx_map_fst 0 (exec cfg s o).assignments)
    rw [List.filter_map] at hrows
    exact hrows

end HumanGate
