import HumanGate.Run.Operations

set_option autoImplicit false

/-! # The stages that jobs and assignments carry

A work job is enqueued for the first stage of a run, for a plain stage that routing enters, or
for a stage that was assigned before; an assignment is made for the stage of a work job. So
whatever holds of the first stage and of every plain stage of a definition holds of every stage
that a job or an assignment of its runs carries (`exec_carried`). That needs `dispatch_stage`
to be called as the scheduler calls it, for an enqueued job (`Op.FromQueue`).
-/

namespace HumanGate

open Lib Lib.Calendar Relation

/-- A property of a stage in a workflow definition. -/
abbrev StageProp := WorkflowDefinition → ContentStage → Prop

/-- It holds of the first stage, and of every stage that neither ends the run nor waits for a
human. -/
structure StageProp.OfPlain (P : StageProp) : Prop where
  first : ∀ {d : WorkflowDefinition} {row : WorkflowStage}, d.firstStage = some row →
    P d row.stageKey
  plain : ∀ {d : WorkflowDefinition} {row : WorkflowStage}, d.stageRow row.stageKey = some row →
    row.isTerminal = false → row.isReviewGate = false → P d row.stageKey

variable {cfg : Config} {sc : Scope} {P : StageProp}

/-- The run exists, and the property holds of the stage in its definition. -/
def Board.At (cfg : Config) (P : StageProp) (b : Board) (rid : RunId) (stage : ContentStage) :
    Prop :=
  ∃ run, b.runs[rid]? = some run ∧ ∀ d, run.definitionId.bind cfg.definition = some d → P d stage

/-- The property holds of every stage that a work job or an assignment carries. -/
structure Board.Carried (cfg : Config) (P : StageProp) (b : Board) : Prop where
  jobs : ∀ j ∈ b.jobs, j.isWork = true → ∀ rid stage, j.refId = .run rid →
    ContentStage.ofText? j.refTable = some stage → b.At cfg P rid stage
  assignments : ∀ a ∈ b.assignments, b.At cfg P a.pipelineRunId a.stage

/-! ## Writes -/

/-- A run keeps its definition. -/
theorem RunWrite.definitionId {b : Board} {rid : RunId} {f : PipelineRun → PipelineRun}
    (h : RunWrite cfg sc b rid f) (run : PipelineRun) :
    (f run).definitionId = run.definitionId := by
  cases h with
  | reopen _ =>
      unfold PipelineRun.reopen
      split <;> rfl
  | _ => rfl

/-- A run keeps its workspace. -/
theorem RunWrite.workspaceId {b : Board} {rid : RunId} {f : PipelineRun → PipelineRun}
    (h : RunWrite cfg sc b rid f) (run : PipelineRun) : (f run).workspaceId = run.workspaceId := by
  cases h with
  | reopen _ =>
      unfold PipelineRun.reopen
      split <;> rfl
  | _ => rfl

theorem AssignmentWrite.sameTarget {b : Board} {aid : AssignmentId}
    {f : StageAssignment → StageAssignment} (h : AssignmentWrite b aid f) (a : StageAssignment) :
    (f a).SameTarget a := by
  cases h with
  | keep h => exact (h a).1
  | drop h => exact (h a).1
  | take _ _ _ h => exact (h a).1

theorem Write.keepsRun {b b' : Board} {rid : RunId} {run : PipelineRun} (h : Write cfg sc b b')
    (hrun : b.runs[rid]? = some run) :
    ∃ run', b'.runs[rid]? = some run' ∧ run'.definitionId = run.definitionId ∧
      run'.workspaceId = run.workspaceId := by
  cases h with
  | startRun _ _ _ => exact ⟨run, Table.get_push_of_some hrun, rfl, rfl⟩
  | @run rid' f hf =>
      by_cases hr : rid' = rid
      · subst hr
        exact ⟨f run, Table.get_modify_self hrun, hf.definitionId run, hf.workspaceId run⟩
      · exact ⟨run, (Table.get_modify_ne hr).trans hrun, rfl, rfl⟩
  | newJob | job | newAssignment | assignment | worker | newGate | gate | decision =>
      exact ⟨run, hrun, rfl, rfl⟩

theorem Write.definition {b b' : Board} {rid : RunId} {d : WorkflowDefinition}
    (h : Write cfg sc b b') (hd : b.definition cfg rid = some d) :
    b'.definition cfg rid = some d := by
  obtain ⟨run, hrun, hdef⟩ := Option.bind_eq_some_iff.mp hd
  obtain ⟨run', hrun', heq, _⟩ := h.keepsRun hrun
  exact Option.bind_eq_some_iff.mpr ⟨run', hrun', by rw [heq]; exact hdef⟩

theorem Board.At.write {b b' : Board} {rid : RunId} {stage : ContentStage}
    (hat : b.At cfg P rid stage) (h : Write cfg sc b b') : b'.At cfg P rid stage := by
  obtain ⟨run, hrun, hP⟩ := hat
  obtain ⟨run', hrun', heq, _⟩ := h.keepsRun hrun
  exact ⟨run', hrun', by rw [heq]; exact hP⟩

theorem Board.At.of_definition {b : Board} {rid : RunId} {stage : ContentStage}
    {d : WorkflowDefinition} (hd : b.definition cfg rid = some d) (hP : P d stage) :
    b.At cfg P rid stage := by
  unfold Board.definition at hd
  obtain ⟨run, hrun, hdef⟩ := Option.bind_eq_some_iff.mp hd
  refine ⟨run, hrun, fun d' hd' => ?_⟩
  rw [hdef] at hd'
  cases hd'
  exact hP

/-- A stage that a work job may carry. -/
theorem Board.MayRun.at {b : Board} {rid : RunId} {stage : ContentStage} (hP : P.OfPlain)
    (hb : b.Carried cfg P) (h : b.MayRun cfg rid stage) : b.At cfg P rid stage := by
  cases h with
  | first hd hfirst => exact .of_definition hd (hP.first hfirst)
  | plain hd hrow hterm hgate => exact .of_definition hd (hP.plain hrow hterm hgate)
  | again hassigned =>
      obtain ⟨a, ha, rfl, rfl⟩ := hassigned
      exact hb.assignments a ha

/-- Where a work job leads: the run exists, and the property holds of the stage it names. -/
def Board.LeadsAt (cfg : Config) (P : StageProp) (b : Board) (j : JobSchedule) : Prop :=
  ∀ rid stage, j.refId = .run rid → ContentStage.ofText? j.refTable = some stage →
    b.At cfg P rid stage

theorem Write.carried {b b' : Board} (h : Write cfg sc b b') (hP : P.OfPlain)
    (hassign : ∀ a, sc.assign a → b.At cfg P a.pipelineRunId a.stage)
    (hjob : ∀ j, sc.job j → b.LeadsAt cfg P j) (hb : b.Carried cfg P) : b'.Carried cfg P := by
  -- what the rows of `b` carry, seen in `b'`
  have hjobs : ∀ j ∈ b.jobs, j.isWork = true → ∀ rid stage, j.refId = .run rid →
      ContentStage.ofText? j.refTable = some stage → b'.At cfg P rid stage :=
    fun j hj hw rid stage hr hst => (hb.jobs j hj hw rid stage hr hst).write h
  have hassigned : ∀ a ∈ b.assignments, b'.At cfg P a.pipelineRunId a.stage :=
    fun a ha => (hb.assignments a ha).write h
  cases h with
  | @newJob job hnew =>
      refine ⟨Table.forall_push hjobs fun hw rid stage href hst => ?_, hassigned⟩
      cases hnew with
      | work hr ht _ hmay =>
          rw [href] at hr
          cases hr
          rw [ht, ContentStage.ofText?_value] at hst
          cases hst
          have hat := hmay.at hP hb
          exact hat
      | other hother => rcases hother with h | h <;> simp [JobSchedule.isWork, h] at hw
      | extra _ hex =>
          have hat := hjob job hex rid stage href hst
          exact hat
  | job hf =>
      refine ⟨Table.forall_modify hjobs fun j hj hw rid stage href hst => ?_, hassigned⟩
      obtain ⟨htype, htable, hrefId, _⟩ := hf j
      unfold JobSchedule.isWork at hw
      rw [htype] at hw
      rw [hrefId] at href
      rw [htable] at hst
      exact hjobs j (Table.mem_of_get hj) hw rid stage href hst
  | newAssignment ha => exact ⟨hjobs, Table.forall_push hassigned (hassign _ ha)⟩
  | @assignment aid f hf =>
      refine ⟨hjobs, Table.forall_modify hassigned fun a ha => ?_⟩
      have hsame := hf.sameTarget a
      rw [hsame.2.1, hsame.2.2.1]
      exact hassigned a (Table.mem_of_get ha)
  | startRun | run | worker | newGate | gate | decision => exact ⟨hjobs, hassigned⟩

/-! ## Gates -/

/-- The stage does not end the run. -/
def Nonterminal : StageProp := fun d stage =>
  ∀ row, d.stageRow stage = some row → row.isTerminal = false

/-- No gate stands at a terminal stage. -/
def Board.GatesInside (cfg : Config) (b : Board) : Prop :=
  ∀ g ∈ b.gates, b.At cfg Nonterminal g.pipelineRunId g.stage

theorem GateWrite.target {b : Board} {gid : GateId} {f : ReviewGate → ReviewGate}
    (h : GateWrite sc b gid f) (g : ReviewGate) :
    (f g).pipelineRunId = g.pipelineRunId ∧ (f g).stage = g.stage := by
  cases h <;> exact ⟨rfl, rfl⟩

theorem Write.gatesInside {b b' : Board} (h : Write cfg sc b b') (hgate : ∀ g, ¬ sc.gate g)
    (hb : b.GatesInside cfg) : b'.GatesInside cfg := by
  have hold : ∀ g ∈ b.gates, b'.At cfg Nonterminal g.pipelineRunId g.stage :=
    fun g hg => (hb g hg).write h
  cases h with
  | newGate hnew =>
      obtain ⟨_, _, hrow⟩ := hnew
      obtain ⟨d, row, hd, hrow, hterm⟩ := hrow.resolve_right (hgate _)
      refine Table.forall_push hold (.of_definition hd fun row' hrow' => ?_)
      rw [hrow] at hrow'
      cases hrow'
      exact hterm
  | gate hf =>
      refine Table.forall_modify hold fun g hg => ?_
      rw [(hf.target g).1, (hf.target g).2]
      exact hold g (Table.mem_of_get hg)
  | startRun | run | newJob | job | newAssignment | assignment | worker | decision => exact hold

/-! ## Operations -/

/-- An enqueued work job of the run and the stage. -/
def Db.Enqueued (s : Db) (rid : RunId) (stage : String) : Prop :=
  ∃ j ∈ s.jobs, j.isWork = true ∧ j.refId = .run rid ∧ j.refTable = stage

instance (s : Db) (rid : RunId) (stage : String) : Decidable (s.Enqueued rid stage) :=
  inferInstanceAs (Decidable (∃ j ∈ s.jobs, j.isWork = true ∧ j.refId = .run rid ∧
    j.refTable = stage))

/-- A stage timeout and a pause, which only the scheduler and the controller call, and the manual
retry of an operator. -/
def Action.isInternal : Action → Bool
  | .handleStageTimeout .. | .pauseForReview .. | .retryFailedJobs .. => true
  | _ => false

/-- No stage timeout or pause but from within another operation, no manual retry, and
`dispatch_stage` only for an enqueued job. -/
def Op.FromQueue (s : Db) (o : Op) : Prop :=
  o.action.isInternal = false ∧
    ∀ call ∈ o.push, s.Enqueued call.1.pipelineRunId call.1.stage

instance (s : Db) (o : Op) : Decidable (o.FromQueue s) :=
  inferInstanceAs (Decidable (o.action.isInternal = false ∧
    ∀ call ∈ o.push, s.Enqueued call.1.pipelineRunId call.1.stage))

/-- Every call of `dispatch_stage` is for an enqueued job. -/
def Op.Queued (s : Db) (o : Op) : Prop :=
  ∀ call ∈ o.push, s.Enqueued call.1.pipelineRunId call.1.stage

instance (s : Db) (o : Op) : Decidable (o.Queued s) :=
  inferInstanceAs (Decidable (∀ call ∈ o.push, s.Enqueued call.1.pipelineRunId call.1.stage))

theorem Op.Queued.inserts {s : Db} {o : Op} (ho : o.Queued s) (hs : s.board.Carried cfg P)
    {a : StageAssignment} (ha : o.inserts cfg s a) : s.board.At cfg P a.pipelineRunId a.stage := by
  obtain ⟨now, action⟩ := o
  cases action with
  | dispatchStage args rows =>
      obtain ⟨stage, worker, hstage, _, rfl⟩ := ha
      obtain ⟨j, hj, hw, href, htable⟩ := ho (args, rows) rfl
      rw [← htable] at hstage
      exact hs.jobs j hj hw _ stage href hstage
  | processLeasedJob jid rows jitter =>
      obtain ⟨job, rid, hjob, hw, href, stage, worker, hstage, _, rfl⟩ := ha
      exact hs.jobs job (Table.mem_of_get hjob) hw rid stage href hstage
  | _ => exact False.elim ha

theorem Op.FromQueue.namesJob {s : Db} {o : Op} (ho : o.FromQueue s) (j : JobSchedule) :
    ¬ o.namesJob j := by
  obtain ⟨now, action⟩ := o
  cases action with
  | handleStageTimeout | retryFailedJobs => exact absurd ho.1.symm Bool.false_ne_true
  | _ => exact fun h => h

theorem Op.FromQueue.namesGate {s : Db} {o : Op} (ho : o.FromQueue s) (g : ReviewGate) :
    ¬ o.namesGate g := by
  obtain ⟨now, action⟩ := o
  cases action with
  | pauseForReview => exact absurd ho.1.symm Bool.false_ne_true
  | _ => exact fun h => h

/-- The carried stages are kept by a sequence of writes that insert such rows, and with them
whatever a write keeps on a board whose rows carry such stages. -/
theorem Writes.carried {b₀ b₁ : Board} (h : Writes cfg sc b₀ b₁) (hP : P.OfPlain)
    (hassign : ∀ a, sc.assign a → b₀.At cfg P a.pipelineRunId a.stage)
    (hjob : ∀ j, sc.job j → b₀.LeadsAt cfg P j) (hb : b₀.Carried cfg P) {I : Board → Prop}
    (hI₀ : I b₀) (hI : ∀ b b', Write cfg sc b b' → b.Carried cfg P → I b → I b') :
    b₁.Carried cfg P ∧ I b₁ := by
  -- what holds of a stage at the start holds of it all along
  have hall := h.invariant (I := fun b => b.Carried cfg P ∧
    (∀ rid stage, b₀.At cfg P rid stage → b.At cfg P rid stage) ∧ I b) ?_
    ⟨hb, fun _ _ h => h, hI₀⟩
  · exact ⟨hall.1, hall.2.2⟩
  · intro b b' hw ⟨hcarried, hat, hi⟩
    refine ⟨hw.carried hP (fun a ha => hat _ _ (hassign a ha)) ?_ hcarried, ?_, ?_⟩
    · exact fun j hj rid stage href hst => hat rid stage (hjob j hj rid stage href hst)
    · exact fun rid stage h => (hat rid stage h).write hw
    · exact hI b b' hw hcarried hi

/-- **The carried stages are kept** by every operation, and with them whatever a write keeps
on a board whose rows carry such stages. -/
theorem exec_carried {s : Db} {o : Op} (hP : P.OfPlain) (hqueued : o.Queued s)
    (hjob : ∀ j, ¬ o.namesJob j) (hsane : s.board.Sane) (hs : s.board.Carried cfg P)
    {I : Board → Prop} (hI₀ : I s.board)
    (hI : ∀ b b', Write cfg (o.scope cfg s) b b' → b.Carried cfg P → I b → I b') :
    (exec cfg s o).board.Carried cfg P ∧ I (exec cfg s o).board := by
  exact (exec_writes cfg o fun _ => hsane).carried hP (fun a ha => hqueued.inserts hs ha)
    (fun j hj => absurd hj (hjob j)) hs hI₀ hI

theorem Fresh.carried {s : Db} (h : Fresh s) : s.board.Carried cfg P := by
  constructor
  · intro j hj
    rw [show s.board.jobs = [] from h.jobs] at hj
    cases hj
  · intro a ha
    rw [show s.board.assignments = [] from h.assignments] at ha
    cases ha

end HumanGate
