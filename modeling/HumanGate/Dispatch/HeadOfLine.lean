import HumanGate.Dispatch.Candidates
import HumanGate.Fleet.Moves

set_option autoImplicit false

/-! # The head of the line

A claim picks the first of the assignments it may have, over all workspaces, and asks the spend
gate about this one only. If the gate refuses, the claim is over: the row stays first in line, and
the next claim meets it again. So a global worker is served exactly if the assignments that rank
first pass the gate (`claims_past_the_gate`), and as long as they do, every claim shortens the
queue. An assignment whose workspace has no cap row blocks all workspaces behind it
(`missing_cap_blocks_all`).
-/

namespace HumanGate

open Lib Lib.Calendar

variable {cfg : Config} {s : Db} {now : Instant} {a : StageAssignment} {aid : AssignmentId}
  {wid : WorkerId} {w : WorkerRegistration} {token : Option ClaimToken}
  {requestWorkspaceId : Option WorkspaceId} {rows : List AssignmentId}

/-! ## The gate -/

/-- The spend gate lets the assignment pass: its run has one open reservation for the stage, or
none and the cap leaves room for the estimate. -/
def Funded (cfg : Config) (s : Db) (now : Instant) (a : StageAssignment) : Prop :=
  ∀ run ∈ s.runs[a.pipelineRunId]?,
    (openReservationsFor s a.pipelineRunId a.stage).length = 1 ∨
    openReservationsFor s a.pipelineRunId a.stage = [] ∧
      exceededCap s now run.workspaceId (effectiveProvider a.provider)
        cfg.settings.defaultStageEstimateUsd = none

/-- Without an open reservation, nothing is released first. -/
theorem reserveSpend_fresh {rid : RunId} {stage : ContentStage} (ws : WorkspaceId)
    (provider : String) (estimate : ℚ≥0) (hopen : openReservationsFor s rid stage = []) :
    reserveSpend s now rid ws stage provider estimate
      = recordReservation s now rid ws stage provider estimate
          (exceededCap s now ws provider estimate) := by
  unfold reserveSpend
  rw [hopen]
  rfl

theorem recordReservation_isSome (s : Db) (now : Instant) (rid : RunId) (ws : WorkspaceId)
    (stage : ContentStage) (provider : String) (estimate : ℚ≥0) (exceeded : Option CapKind) :
    (recordReservation s now rid ws stage provider estimate exceeded).2.isSome = true
      ↔ exceeded = none := by
  cases exceeded with
  | none => exact iff_of_true rfl rfl
  | some kind => exact iff_of_false (by simp [recordReservation]) (by simp)

theorem spendAdmits_iff_funded : spendAdmits cfg s now a = true ↔ Funded cfg s now a := by
  unfold spendAdmits Funded
  cases hrun : s.runs[a.pipelineRunId]? with
  | none => exact iff_of_true rfl (by simp)
  | some run =>
      have hall : ∀ P : PipelineRun → Prop, (∀ run' ∈ some run, P run') ↔ P run := by simp
      rw [hall]
      rcases hopen : openReservationsFor s a.pipelineRunId a.stage with _ | ⟨res, _ | ⟨res', more⟩⟩
      · simp only
        rw [reserveSpend_fresh _ _ _ hopen, recordReservation_isSome]
        simp
      · exact iff_of_true rfl (.inl rfl)
      · exact iff_of_false (by simp) (by simp)

variable (aid wid w token requestWorkspaceId) in
/-- A claim with a candidate is granted exactly if the gate lets it pass. -/
theorem claimWithSpend_granted :
    (∃ r, claimWithSpend cfg s now wid w aid a token requestWorkspaceId = .ok r ∧
      r.outcome = .granted) ↔ Funded cfg s now a := by
  rw [← spendAdmits_iff_funded]
  unfold claimWithSpend spendAdmits
  cases hrun : s.runs[a.pipelineRunId]? with
  | none => exact iff_of_true ⟨_, rfl, rfl⟩ rfl
  | some run =>
      simp only
      rcases hopen : openReservationsFor s a.pipelineRunId a.stage with _ | ⟨res, _ | ⟨res', more⟩⟩
      · simp only
        cases (reserveSpend s now a.pipelineRunId run.workspaceId a.stage
            (effectiveProvider a.provider) cfg.settings.defaultStageEstimateUsd).2 with
        | some res => exact iff_of_true ⟨_, rfl, rfl⟩ rfl
        | none =>
            refine iff_of_false ?_ (by simp)
            rintro ⟨r, hr, hgranted⟩
            cases hr
            cases hgranted
      · exact iff_of_true ⟨_, rfl, rfl⟩ rfl
      · exact iff_of_false (by rintro ⟨r, hr, _⟩; cases hr) (by simp)

/-! ## One claim -/

/-- A global worker that passes the checks of a claim. -/
structure FreeGlobal (cfg : Config) (w : WorkerRegistration) (now : Instant) : Prop where
  workspaceId : w.workspaceId = none
  admitted : claimRefusal cfg w now = none
  stages : ∀ t ∈ w.supportedStages, (ContentStage.ofText? t).isSome = true

theorem FreeGlobal.eligible (h : FreeGlobal cfg w now) : Eligible cfg w now := by
  refine ⟨fun r hr => ?_, h.stages⟩
  rw [h.admitted] at hr
  cases hr

/-- Of the assignments that may be handed out, those that rank first pass the gate. -/
def FirstFunded (cfg : Config) (s : Db) (now : Instant) (w : WorkerRegistration) : Prop :=
  ∀ aid a, MayHandOut cfg s w aid a →
    (∀ aid' a', MayHandOut cfg s w aid' a' → claimLe cfg now a a' = true) → Funded cfg s now a

/-- The claim is granted, however the database scans the table. -/
def Served (cfg : Config) (s : Db) (now : Instant) (wid : WorkerId) (token : Option ClaimToken)
    (requestWorkspaceId : Option WorkspaceId) : Prop :=
  ∀ rows, Scans s rows →
    ∃ r, claimAssignment cfg s now wid token requestWorkspaceId rows = .ok r ∧ r.outcome = .granted

/-- A scan that meets a row first. -/
theorem exists_scan (ha : s.assignments[aid]? = some a) : ∃ rest, Scans s (aid :: rest) := by
  have hlt : aid < s.assignments.length := (List.getElem?_eq_some_iff.mp ha).1
  exact ⟨_, (List.perm_cons_erase (List.mem_range.mpr hlt)).symm⟩

/-- Any of the assignments that rank first may be the candidate. -/
theorem exists_candidate (hmay : MayHandOut cfg s w aid a)
    (hfirst : ∀ aid' a', MayHandOut cfg s w aid' a' → claimLe cfg now a a' = true) :
    ∃ rows, Scans s rows ∧ claimCandidate cfg s now w rows = some (aid, a) := by
  obtain ⟨rest, hrows⟩ := exists_scan hmay.1
  refine ⟨_, hrows, ?_⟩
  have hkeep : (claimable w a && !saturatedProviderPair cfg s a) = true := by
    rw [← hasProviderCapacity_eq_not_saturated, hmay.2.1, hmay.2.2]
    rfl
  have hcons : (assignmentRows s (aid :: rest)).filter
        (fun p => claimable w p.2 && !saturatedProviderPair cfg s p.2)
      = (aid, a) :: (assignmentRows s rest).filter
        (fun p => claimable w p.2 && !saturatedProviderPair cfg s p.2) := by
    unfold assignmentRows
    rw [List.filterMap_cons_some (by rw [hmay.1, Option.map_some])]
    exact List.filter_cons_of_pos hkeep
  unfold claimCandidate
  rw [hcons]
  refine Ranking.head_of_first _ fun p hp => hfirst p.1 p.2 ((mem_candidates hrows).mp ?_)
  rw [hcons]
  exact List.mem_cons_of_mem _ hp

theorem claimCandidate_of_mayHandOut (now : Instant) (hrows : Scans s rows)
    (hmay : MayHandOut cfg s w aid a) :
    ∃ p, claimCandidate cfg s now w rows = some p := by
  refine Option.ne_none_iff_exists'.mp fun hnone => ?_
  exact (claimCandidate_none hrows).mp hnone aid a hmay

/-- A new claim is served exactly if the first assignments pass the gate. -/
theorem served_of_fresh (hw : s.workers[wid]? = some w) (hfree : FreeGlobal cfg w now)
    (hmay : MayHandOut cfg s w aid a) (hfresh : token.elim [] (heldUnder s wid w) = []) :
    Served cfg s now wid token requestWorkspaceId ↔ FirstFunded cfg s now w := by
  constructor
  · intro hserved aid' a' hmay' hfirst
    obtain ⟨rows, hrows, hcand⟩ := exists_candidate hmay' hfirst
    obtain ⟨r, hr, hgranted⟩ := hserved rows hrows
    rw [(claimAssignment_eq requestWorkspaceId hw hfree.eligible hfresh hrows).1 aid' a'
      hcand] at hr
    exact (claimWithSpend_granted aid' wid w token requestWorkspaceId).mp ⟨r, hr, hgranted⟩
  · intro hfunded rows hrows
    obtain ⟨⟨aid', a'⟩, hcand⟩ := claimCandidate_of_mayHandOut now hrows hmay
    obtain ⟨hmay', hfirst⟩ := claimCandidate_first hrows hcand
    rw [(claimAssignment_eq requestWorkspaceId hw hfree.eligible hfresh hrows).1 aid' a' hcand]
    exact (claimWithSpend_granted aid' wid w token requestWorkspaceId).mpr
      (hfunded aid' a' hmay' hfirst)

/-- A replay is granted, unless two assignments are held under the token. -/
theorem served_of_held (hw : s.workers[wid]? = some w) {held : AssignmentId}
    {more : List AssignmentId} (hheld : token.elim [] (heldUnder s wid w) = held :: more) :
    Served cfg s now wid token requestWorkspaceId ↔ more = [] := by
  have heq : ∀ rows, claimAssignment cfg s now wid token requestWorkspaceId rows
      = claimAssignment cfg s now wid token requestWorkspaceId [] := by
    intro rows
    unfold claimAssignment
    simp only [hw, hheld]
    cases more <;> rfl
  cases more with
  | nil =>
      refine iff_of_true (fun rows _ => ?_) rfl
      unfold claimAssignment
      simp only [hw, hheld]
      exact ⟨_, rfl, rfl⟩
  | cons held' more =>
      refine iff_of_false (fun hserved => ?_) (by simp)
      obtain ⟨r, hr, _⟩ := hserved (List.range s.assignments.length) (.refl _)
      unfold claimAssignment at hr
      simp only [hw, hheld] at hr
      cases hr

/-! ## Repeated claims -/

/-- A claim of a free global worker that serves the stage; the first assignments pass the gate. -/
inductive FundedClaim (cfg : Config) (stage : ContentStage) (s : Db) : Op → Prop
  | claim {now : Instant} {wid : WorkerId} {w : WorkerRegistration} {token : Option ClaimToken}
      {requestWorkspaceId : Option WorkspaceId} {rows : List AssignmentId} :
      s.workers[wid]? = some w → FreeGlobal cfg w now →
      w.supportedStages.contains stage.value = true → token.elim [] (heldUnder s wid w) = [] →
      Scans s rows → FirstFunded cfg s now w →
      FundedClaim cfg stage s ⟨now, .claimAssignment wid token requestWorkspaceId rows⟩

def pendingCount (s : Db) : Nat := s.assignments.countP fun a => a.status == .pending

/-- Such a claim hands out a pending assignment. -/
theorem hands_out (requestWorkspaceId : Option WorkspaceId) (hw : s.workers[wid]? = some w)
    (hfree : FreeGlobal cfg w now) (hserves : w.supportedStages.contains a.stage.value = true)
    (hfresh : token.elim [] (heldUnder s wid w) = []) (hrows : Scans s rows)
    (hfunded : FirstFunded cfg s now w) (ha : s.assignments[aid]? = some a)
    (hpending : a.status = .pending)
    (hcap : hasProviderCapacity cfg s a.workspaceId a.provider = true) :
    ∃ aid' a', s.assignments[aid']? = some a' ∧ a'.status = .pending ∧
      (exec cfg s ⟨now, .claimAssignment wid token requestWorkspaceId rows⟩).crew
        = s.crew.give cfg now aid' wid token := by
  have hclaimable : claimable w a = true := by
    unfold claimable WorkerRegistration.serves
    rw [hfree.workspaceId, hpending, hserves]
    rfl
  obtain ⟨⟨aid', a'⟩, hcand⟩ :=
    claimCandidate_of_mayHandOut now hrows ⟨ha, hclaimable, hcap⟩
  obtain ⟨hmay', hfirst⟩ := claimCandidate_first hrows hcand
  have hgate := hfunded aid' a' hmay' hfirst
  obtain ⟨r, hr, _⟩ := (claimWithSpend_granted aid' wid w token requestWorkspaceId).mpr hgate
  have hclaim :=
    (claimAssignment_eq requestWorkspaceId hw hfree.eligible hfresh hrows).1 aid' a' hcand
  have hpending' : a'.status = .pending := by
    have hscope := hmay'.2.1
    unfold claimable at hscope
    simp only [Bool.and_eq_true, beq_iff_eq] at hscope
    exact hscope.1.1
  have hexec : exec cfg s ⟨now, .claimAssignment wid token requestWorkspaceId rows⟩
      = r.db.flush := by
    unfold exec Op.call
    simp only [hclaim, hr]
    rfl
  refine ⟨aid', a', hmay'.1, hpending', ?_⟩
  rw [hexec, crew_flush]
  rcases claimWithSpend_claimed hr with ⟨_, hcrew, _⟩ | ⟨hrefused, _⟩
  · exact hcrew
  · rw [spendAdmits_iff_funded.mpr hgate] at hrefused
    cases hrefused

/-- The assignment has been handed out, or its provider has no capacity left. -/
def LeftLine (cfg : Config) (aid : AssignmentId) (s : Db) : Prop :=
  ∃ a, s.assignments[aid]? = some a ∧
    (a.status = .dispatched ∨ hasProviderCapacity cfg s a.workspaceId a.provider = false)

/-- **Repeated claims** reach every assignment, after at most as many as there are pending. -/
theorem claims_leave_line (ops : List Op) : ∀ {s : Db} {a : StageAssignment},
    s.assignments[aid]? = some a → a.status = .pending →
    (orchestration cfg (FundedClaim cfg a.stage)).Legal s ops → pendingCount s ≤ ops.length →
    ∃ k ≤ pendingCount s, LeftLine cfg aid (runOps cfg s (ops.take k)) := by
  induction ops with
  | nil =>
      intro s a ha hpending _ hlen
      -- the assignment itself is pending
      have hpos : 0 < pendingCount s :=
        List.countP_pos_iff.mpr ⟨a, List.mem_of_getElem? ha, by rw [hpending]; rfl⟩
      rw [List.length_nil] at hlen
      omega
  | cons o ops ih =>
      intro s a ha hpending hlegal hlen
      by_cases hcap : hasProviderCapacity cfg s a.workspaceId a.provider = true
      · obtain ⟨hclaim, hrest⟩ := hlegal
        cases hclaim with
        | @claim now wid w token requestWorkspaceId rows hw hfree hserves hfresh hrows hfunded =>
            obtain ⟨aid', a', ha', hpending', hcrew⟩ :=
              hands_out requestWorkspaceId hw hfree hserves hfresh hrows hfunded ha hpending hcap
            generalize hnext : exec cfg s ⟨now, .claimAssignment wid token requestWorkspaceId rows⟩
              = s' at hcrew
            let f := fun b => { StageAssignment.claim cfg now wid token b with updatedAt := now }
            have hassignments : s'.assignments = s.assignments.modify aid' f :=
              congrArg Crew.assignments hcrew
            have hcount : pendingCount s' + 1 = pendingCount s := by
              have hmodify := Table.countP_modify (p := fun b => b.status == .pending) (f := f) ha'
              rw [hpending'] at hmodify
              unfold pendingCount
              rw [hassignments]
              exact hmodify
            by_cases heq : aid' = aid
            · -- the claim has taken the assignment
              refine ⟨1, by omega, f a, ?_, .inl rfl⟩
              show (exec cfg s _).assignments[aid]? = _
              rw [hnext, hassignments, heq]
              exact Table.get_modify_self ha
            · have hrow : s'.assignments[aid]? = some a := by
                rw [hassignments, Table.get_modify_ne heq]
                exact ha
              rw [List.length_cons] at hlen
              obtain ⟨k, hk, hleft⟩ := ih hrow hpending (hnext ▸ hrest) (by omega)
              refine ⟨k + 1, by omega, ?_⟩
              rw [← hnext] at hleft
              exact hleft
      · exact ⟨0, Nat.zero_le _, a, ha, .inr (Bool.not_eq_true _ ▸ hcap)⟩

/-- **Who is starved.** A claim of a free global worker, in whose reach there is an assignment, is
served exactly if it is the replay of one grant, or new while the assignments that rank first pass
the spend gate. If every claim of a run is new and meets such a queue, then it takes at most as many
claims as there are pending assignments until a given one is handed out, or its provider has no
capacity left. -/
theorem claims_past_the_gate (cfg : Config) (s : Db) :
    (∀ now wid w token requestWorkspaceId aid a, s.workers[wid]? = some w → FreeGlobal cfg w now →
      MayHandOut cfg s w aid a →
      (Served cfg s now wid token requestWorkspaceId ↔
        (token.elim [] (heldUnder s wid w)).length = 1 ∨
        token.elim [] (heldUnder s wid w) = [] ∧ FirstFunded cfg s now w)) ∧
    ∀ aid a ops, s.assignments[aid]? = some a → a.status = .pending →
      (orchestration cfg (FundedClaim cfg a.stage)).Legal s ops → pendingCount s ≤ ops.length →
      ∃ k ≤ pendingCount s, LeftLine cfg aid (runOps cfg s (ops.take k)) := by
  refine ⟨fun now wid w token requestWorkspaceId aid a hw hfree hmay => ?_,
    fun aid a ops ha hpending hlegal hlen => claims_leave_line ops ha hpending hlegal hlen⟩
  -- a claim is repeated if the worker holds something under its token
  cases hheld : token.elim [] (heldUnder s wid w) with
  | nil =>
      rw [served_of_fresh hw hfree hmay hheld]
      simp
  | cons held more =>
      rw [served_of_held hw hheld]
      simp

/-- Two workspaces with a run and a waiting assignment each. The assignment of workspace 0 is the
older one. -/
def queuedDb (caps : List SpendCap) (status : PipelineRunStatus) (pauseReason : Option PauseReason)
    (audit : List StageClaimAudit) (outbox : List OutboxEvent) : Db where
  runs :=
    [{ workspaceId := 0
       contentItemId := 0
       currentStage := .scripting
       status := status
       pauseReason := pauseReason },
     { workspaceId := 1
       contentItemId := 1
       currentStage := .scripting
       status := .running }]
  workers := [deskWorker [.scripting]]
  assignments := [waitingAssignment 0 0 0, waitingAssignment 1 1 1]
  caps := caps
  claimAudit := audit
  outbox := outbox

/-- Workspace 0 has no cap row. -/
def blockedDb : Db := queuedDb [{ wideCap 10 100 with workspaceId := 1 }] .running none [] []

/-- Both workspaces have a cap with room. -/
def openDb : Db :=
  queuedDb [wideCap 10 100, { wideCap 10 100 with workspaceId := 1 }] .running none [] []

def globalClaim : Op := ⟨3, .claimAssignment 0 none none [0, 1]⟩

theorem deskWorker_free : FreeGlobal deskConfig (deskWorker [.scripting]) 3 :=
  ⟨rfl, by decide, by decide⟩

/-- The refused row stays first: the queue is as before. -/
theorem refused_again (n : Nat) (status : PipelineRunStatus) (pauseReason : Option PauseReason)
    (audit : List StageClaimAudit) (outbox : List OutboxEvent) :
    (runOps deskConfig (queuedDb [{ wideCap 10 100 with workspaceId := 1 }] status pauseReason audit
      outbox) (List.replicate n globalClaim)).assignments = blockedDb.assignments := by
  induction n generalizing status pauseReason audit outbox with
  | zero => rfl
  | succ n ih => exact ih .paused (some .spendHold) _ _

/-- Workspace 1 has an assignment that may be handed out and a cap with room, but a claim is not
granted, however often the worker asks. -/
theorem missing_cap_blocks_all :
    MayHandOut deskConfig blockedDb (deskWorker [.scripting]) 1 (waitingAssignment 1 1 1) ∧
    exceededCap blockedDb 3 1 (effectiveProvider none) deskConfig.settings.defaultStageEstimateUsd
      = none ∧
    ¬ Served deskConfig blockedDb 3 0 none none ∧
    ∀ n, (runOps deskConfig blockedDb (List.replicate n globalClaim)).assignments
      = blockedDb.assignments := by
  refine ⟨⟨rfl, by decide, by decide⟩, by decide +kernel, fun hserved => ?_,
    fun n => refused_again n .running none [] []⟩
  obtain ⟨r, hr, hgranted⟩ := hserved [0, 1] (.refl _)
  have hrefused : (claimAssignment deskConfig blockedDb 3 0 none none [0, 1]).map
      ClaimResult.outcome
      = .ok .capacity := by decide +kernel
  rw [hr, Except.map, Except.ok.injEq, hgranted] at hrefused
  cases hrefused

theorem firstFunded_of_all (h : ∀ a ∈ s.assignments, spendAdmits cfg s now a = true) :
    FirstFunded cfg s now w :=
  fun _ a hmay _ => spendAdmits_iff_funded.mp (h a (List.mem_of_getElem? hmay.1))

/-- With room for both, the claim is served, and two claims reach the assignment of workspace 1. -/
theorem caps_with_room_serve :
    Served deskConfig openDb 3 0 none none ∧
    ∃ k ≤ pendingCount openDb,
      LeftLine deskConfig 1 (runOps deskConfig openDb ([globalClaim, globalClaim].take k)) := by
  obtain ⟨hserved, hruns⟩ := claims_past_the_gate deskConfig openDb
  have hfunded : FirstFunded deskConfig openDb 3 (deskWorker [.scripting]) :=
    firstFunded_of_all (by decide +kernel)
  constructor
  · exact (hserved 3 0 (deskWorker [.scripting]) none none 1 (waitingAssignment 1 1 1) rfl
      deskWorker_free ⟨rfl, by decide, by decide⟩).mpr (.inr ⟨rfl, hfunded⟩)
  · have hfirst : FundedClaim deskConfig .scripting openDb globalClaim :=
      .claim rfl deskWorker_free rfl rfl (.refl _) hfunded
    have hworker : openDb.workers[0]? = some (deskWorker [.scripting]) := rfl
    have hwaits : openDb.assignments[1]? = some (waitingAssignment 1 1 1) := rfl
    have hrows : Scans openDb [0, 1] := .refl _
    have hfresh : (none : Option ClaimToken).elim [] (heldUnder openDb 0 (deskWorker [.scripting]))
        = [] :=
      rfl
    obtain ⟨aid, a, _, _, hcrew⟩ :=
      hands_out none hworker deskWorker_free rfl hfresh hrows hfunded hwaits rfl rfl
    have hscan : (exec deskConfig openDb globalClaim).assignments.length = 2 := by decide +kernel
    have hworkers := congrArg Crew.workers hcrew
    have hsecond : FundedClaim deskConfig .scripting
        (exec deskConfig openDb globalClaim) globalClaim :=
      .claim (congrArg (·[0]?) hworkers) ⟨rfl, by decide, by decide⟩ rfl rfl
        (by unfold Scans; rw [hscan]; exact .refl _) (firstFunded_of_all (by decide +kernel))
    exact hruns 1 (waitingAssignment 1 1 1) [globalClaim, globalClaim] rfl rfl
      ⟨hfirst, hsecond, trivial⟩ le_rfl

end HumanGate
