import HumanGate.Model.Desk
import HumanGate.Run.Stages

set_option autoImplicit false

/-! # Human review is never skipped

A workflow in which only an approval leads to a terminal stage: then a run that has succeeded
has an approved gate, and who decided it has recorded the approval. A run succeeds on two
branches. On an edge into a terminal stage the approval is the edge's trigger. On the other,
where no edge leads out of a terminal stage, the stage would have to be carried by an
assignment or a gate, and none of these is ever at a terminal stage.
-/

namespace HumanGate

open Lib Lib.Calendar Relation

/-- The first stage is neither a review gate nor terminal, and every transition into a terminal
stage has the trigger `ON_REVIEW_APPROVED`. -/
structure Reviewed (d : WorkflowDefinition) : Prop where
  first : ∀ row ∈ d.firstStage, row.isReviewGate = false ∧ row.isTerminal = false
  edges : ∀ t ∈ d.transitions, ∀ row ∈ d.stageRow t.toStage, row.isTerminal = true →
    t.trigger = .onReviewApproved

/-- In a reviewed workflow, the stage does not end the run. -/
def NotFinal : StageProp := fun d stage =>
  Reviewed d → ∀ row, d.stageRow stage = some row → row.isTerminal = false

theorem notFinal_ofPlain : NotFinal.OfPlain where
  first := by
    intro d first hfirst hd row hrow
    rw [stageRow_of_mem (firstStage_mem hfirst)] at hrow
    cases hrow
    exact (hd.first first hfirst).2
  plain := by
    intro d plain hplain hterm _ _ row hrow
    rw [hplain] at hrow
    cases hrow
    exact hterm

/-! ## The invariant -/

/-- Who decided the gate has recorded an approval. -/
def Board.Signed (b : Board) (g : ReviewGate) : Prop :=
  ∃ dec ∈ b.decisions, dec.decision = .approved ∧ g.decidedBy = some dec.reviewerId

structure Board.ReviewKept (cfg : Config) (b : Board) : Prop where
  inside : b.GatesInside cfg
  signed : ∀ g ∈ b.gates, g.status = .approved → b.Signed g
  approved : ∀ (rid : RunId) (run : PipelineRun), b.runs[rid]? = some run →
    run.status = .succeeded → ∀ d, run.definitionId.bind cfg.definition = some d → Reviewed d →
    b.Approved rid

variable {cfg : Config} {sc : Scope}

/-! ## What stays -/

theorem GateWrite.awaiting {b : Board} {gid : GateId} {f : ReviewGate → ReviewGate}
    (h : GateWrite sc b gid f) : b.Awaiting gid := by
  cases h with
  | decideBy _ h => exact h
  | decide _ _ h _ => exact h
  | escalate _ hg hs _ => exact ⟨_, hg, hs⟩
  | showVersion _ h => exact h

/-- An approved gate is never touched again. -/
theorem Board.Approved.write {b b' : Board} {rid : RunId} (h : Write cfg sc b b')
    (ha : b.Approved rid) : b'.Approved rid := by
  obtain ⟨g, hg, hr, hs⟩ := ha
  cases h with
  | newGate _ => exact ⟨g, List.mem_append_left _ hg, hr, hs⟩
  | gate hf =>
      obtain ⟨old, hold, hawait⟩ := hf.awaiting
      refine ⟨g, Table.mem_modify_of_ne hold hg ?_, hr, hs⟩
      rintro rfl
      rw [hs] at hawait
      cases hawait
  | startRun | run | newJob | job | newAssignment | assignment | worker | decision =>
      exact ⟨g, hg, hr, hs⟩

theorem GateWrite.not_approved {b : Board} {gid : GateId} {f : ReviewGate → ReviewGate}
    (h : GateWrite sc b gid f) {g : ReviewGate} (hg : b.gates[gid]? = some g) :
    g.status ≠ .approved := by
  obtain ⟨g', hg', hawait⟩ := h.awaiting
  rw [hg] at hg'
  cases hg'
  rw [hawait]
  intro h
  cases h

/-- A gate that is approved by a write was backed by the decision of its reviewer. -/
theorem GateWrite.signed {b : Board} {gid : GateId} {f : ReviewGate → ReviewGate}
    (h : GateWrite sc b gid f) (hv : ¬ sc.verdict) {g : ReviewGate} (hg : b.gates[gid]? = some g)
    (hs : (f g).status = .approved) : b.Signed (f g) := by
  have hnot : g.status ≠ .approved := h.not_approved hg
  cases h with
  | decideBy reviewer _ => exact absurd hs hnot
  | decide approved now _ hback =>
      cases approved with
      | false => cases hs
      | true =>
          obtain ⟨g', run, dec, hg', _, hdec, hby, _, hval⟩ := hback.resolve_right hv
          rw [hg] at hg'
          cases hg'
          exact ⟨dec, hdec, hval, hby⟩
  | escalate timeoutAt _ _ _ => cases hs
  | showVersion v _ => exact absurd hs hnot

/-- A run that succeeds by a write was approved, or had succeeded before. -/
theorem RunWrite.approved {b : Board} {rid : RunId} {f : PipelineRun → PipelineRun}
    (h : RunWrite cfg sc b rid f) (hcarried : b.Carried cfg NotFinal)
    (hinside : b.GatesInside cfg) {run : PipelineRun}
    (hrun : b.runs[rid]? = some run) (hs : (f run).status = .succeeded) {d : WorkflowDefinition}
    (hd : run.definitionId.bind cfg.definition = some d) (hrev : Reviewed d) :
    run.status = .succeeded ∨ b.Approved rid := by
  have hdef : b.definition cfg rid = some d := by
    unfold Board.definition
    rw [hrun]
    exact hd
  -- what holds of a stage that an assignment or a gate of the run carries
  have hat : ∀ {P : StageProp} {stage : ContentStage}, b.At cfg P rid stage → P d stage := by
    intro P stage ⟨run', hrun', hP⟩
    rw [hrun] at hrun'
    cases hrun'
    exact hP d hd
  cases h with
  | succeed now _ hfin =>
      right
      cases hfin with
      | edge hd' ht hrow hterm happ =>
          rw [hdef] at hd'
          cases hd'
          exact happ (hrev.edges _ ht _ hrow hterm)
      | @here _ row hd' hrow hterm hfrom =>
          rw [hdef] at hd'
          cases hd'
          have hfalse : row.isTerminal = false := by
            rcases hfrom with ⟨a, ha, hr, hst⟩ | ⟨g, hg, hr, hst⟩
            · have h := hcarried.assignments a ha
              rw [hr, hst] at h
              exact hat h hrev row hrow
            · have h := hinside g hg
              rw [hr, hst] at h
              exact hat h row hrow
          rw [hterm] at hfalse
          cases hfalse
  | enter stage => exact .inl hs
  | clearReason => exact .inl hs
  | reopen _ =>
      unfold PipelineRun.reopen at hs
      split at hs
      · cases hs
      · exact .inl hs
  | hold | pause | fail | markFailed | cancel | resume => cases hs

theorem Write.reviewKept {b b' : Board} (h : Write cfg sc b b') (hv : ¬ sc.verdict)
    (hgate : ∀ g, ¬ sc.gate g) (hcarried : b.Carried cfg NotFinal) (hb : b.ReviewKept cfg) :
    b'.ReviewKept cfg := by
  have hinside : b'.GatesInside cfg := h.gatesInside hgate hb.inside
  have happroved : ∀ rid, b.Approved rid → b'.Approved rid := fun rid ha => ha.write h
  cases h with
  | startRun _ _ hst =>
      refine ⟨hinside, hb.signed, fun rid run' hrun' hs d hd hrev => ?_⟩
      rcases Table.get_push hrun' with hold | ⟨_, rfl⟩
      · exact hb.approved rid run' hold hs d hd hrev
      · rw [hst] at hs
        cases hs
  | @run rid' f hf =>
      refine ⟨hinside, hb.signed, fun rid run' hrun' hs d hd hrev => ?_⟩
      obtain ⟨run, hrun, ⟨rfl, rfl⟩ | ⟨_, rfl⟩⟩ := Table.get_modify hrun'
      · rw [hf.definitionId] at hd
        rcases hf.approved hcarried hb.inside hrun hs hd hrev with hs | ha
        · exact hb.approved rid' run hrun hs d hd hrev
        · exact ha
      · exact hb.approved rid run' hrun hs d hd hrev
  | newGate hnew =>
      refine ⟨hinside, Table.forall_push hb.signed fun hs => ?_, fun rid run hrun hs d hd hrev =>
        happroved rid (hb.approved rid run hrun hs d hd hrev)⟩
      obtain ⟨hawait, _, _⟩ := hnew
      rw [hawait] at hs
      cases hs
  | gate hf =>
      exact ⟨hinside, Table.forall_modify hb.signed fun g hg hs => hf.signed hv hg hs,
        fun rid run hrun hs d hd hrev => happroved rid (hb.approved rid run hrun hs d hd hrev)⟩
  | decision =>
      refine ⟨hinside, fun g hg hs => ?_, fun rid run hrun hs d hd hrev =>
        happroved rid (hb.approved rid run hrun hs d hd hrev)⟩
      obtain ⟨dec, hdec, hval⟩ := hb.signed g hg hs
      exact ⟨dec, List.mem_append_left _ hdec, hval⟩
  | newJob | job | newAssignment | assignment | worker =>
      exact ⟨hinside, hb.signed, fun rid run hrun hs d hd hrev =>
        happroved rid (hb.approved rid run hrun hs d hd hrev)⟩

/-! ## Runs of the system -/

def Action.isDelivery : Action → Bool
  | .dispatchOne .. => true
  | _ => false

/-- The operations as the review desk issues them: the event of a decision is delivered with
the decision. -/
def Op.FromDesk (s : Db) (o : Op) : Prop := o.FromQueue s ∧ o.action.isDelivery = false

def reviewDesk (cfg : Config) : System Db Op := orchestration cfg fun s o => o.FromDesk s

instance (cfg : Config) (s : Db) (o : Op) : Decidable ((reviewDesk cfg).allowed s o) :=
  inferInstanceAs (Decidable (o.FromQueue s ∧ o.action.isDelivery = false))

/-- What holds of the board in every state. -/
structure Board.Desk (cfg : Config) (b : Board) : Prop where
  sane : b.Sane
  carried : b.Carried cfg NotFinal
  kept : b.ReviewKept cfg

theorem Fresh.desk {s : Db} (h : Fresh s) : s.board.Desk cfg := by
  refine ⟨h.sane, h.carried, ?_, ?_, ?_⟩
  · intro g hg
    rw [show s.board.gates = [] from h.gates] at hg
    cases hg
  · intro g hg
    rw [show s.board.gates = [] from h.gates] at hg
    cases hg
  · intro rid run hrun
    rw [show s.board.runs = [] from h.runs] at hrun
    cases hrun

theorem exec_desk {s : Db} {o : Op} (ho : o.FromDesk s) (hs : s.board.Desk cfg) :
    (exec cfg s o).board.Desk cfg := by
  have hverdict : ¬ (o.scope cfg s).verdict := by
    rintro ⟨eid, h⟩
    have hd := ho.2
    rw [h] at hd
    cases hd
  have h := exec_carried (I := fun b => b.ReviewKept cfg) notFinal_ofPlain ho.1.2
      ho.1.namesJob hs.sane
    hs.carried hs.kept fun b b' hw hcarried hb => hw.reviewKept hverdict ho.1.namesGate hcarried hb
  exact ⟨exec_sane cfg o hs.sane, h.1, h.2⟩

/-- **Human review is never skipped**: a run that has succeeded has an approved gate, and who
decided it has recorded an approval. -/
theorem succeeded_run_reviewed (cfg : Config) {s : Db} (h : (reviewDesk cfg).Reachable s)
    {rid : RunId} {run : PipelineRun} {d : WorkflowDefinition} (hrun : s.runs[rid]? = some run)
    (hd : run.definitionId.bind cfg.definition = some d) (hrev : Reviewed d)
    (hst : run.status = .succeeded) :
    ∃ g ∈ s.gates, g.pipelineRunId = rid ∧ g.status = .approved ∧
      ∃ dec ∈ s.decisions, dec.decision = .approved ∧ g.decidedBy = some dec.reviewerId := by
  have hdesk : s.board.Desk cfg := h.invariant (I := fun s => s.board.Desk cfg)
    (fun _ hinit => Fresh.desk hinit) fun _ _ hs ho => exec_desk ho hs
  -- a run succeeds only past an approved gate, and that gate was signed by a decision
  obtain ⟨g, hg, hr, hs⟩ := hdesk.kept.approved rid run hrun hst d hd hrev
  exact ⟨g, hg, hr, hs, hdesk.kept.signed g hg hs⟩

/-! ## The desk's workflow -/

theorem deskWorkflow_reviewed : Reviewed deskWorkflow := ⟨by decide, by decide⟩

/-- The draft is approved by reviewer 7. -/
def approvedOps : List Op := draftedOps ++ [⟨4, .decideReviewGate 0 0 7 true (some 0) none⟩]

theorem approved_run_reviewed :
    ∃ g ∈ (runOps deskConfig deskDb approvedOps).gates, g.pipelineRunId = 0 ∧
      g.status = .approved ∧ ∃ dec ∈ (runOps deskConfig deskDb approvedOps).decisions,
        dec.decision = .approved ∧ g.decidedBy = some dec.reviewerId := by
  have hrun : (runOps deskConfig deskDb approvedOps).runs[0]? = some
      { workspaceId := 0, contentItemId := 0, currentStage := .published, status := .succeeded,
        definitionId := some 0, startedAt := some 0, completedAt := some 4 } := by
    decide +kernel
  exact succeeded_run_reviewed deskConfig (System.Reachable.of_legal approvedOps
    (.init deskDb_fresh) (by decide +kernel)) hrun rfl deskWorkflow_reviewed rfl

end HumanGate
