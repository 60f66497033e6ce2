import HumanGate.Model.Operations

set_option autoImplicit false

/-! # What an operation can write

The *board* is the part of the database that decides what happens to a run: the runs, the
jobs, the assignments, the workers, the review gates and the recorded decisions. However an
operation is put together, what it does to the board is a sequence of single writes, and each
write comes with what the code has checked before it (`Write`). `Run/Writes.lean` shows this
for every operation; invariants of the system are then proved write by write
(`Writes.invariant`).

Some guards differ between operations. A `Scope` says which: the rows an operation may insert
beyond those the routing asks for, and the runs whose status it writes without looking.
-/

namespace HumanGate

open Lib Lib.Calendar Relation

/-! ## The board -/

structure Board where
  runs : List PipelineRun
  jobs : List JobSchedule
  assignments : List StageAssignment
  workers : List WorkerRegistration
  gates : List ReviewGate
  decisions : List ReviewDecision

def Db.board (s : Db) : Board :=
  ⟨s.runs, s.jobs, s.assignments, s.workers, s.gates, s.decisions⟩

namespace Board

def updateRun (b : Board) (rid : RunId) (f : PipelineRun → PipelineRun) : Board :=
  { b with runs := b.runs.modify rid f }

def updateJob (b : Board) (jid : JobId) (f : JobSchedule → JobSchedule) : Board :=
  { b with jobs := b.jobs.modify jid f }

def updateAssignment (b : Board) (aid : AssignmentId) (f : StageAssignment → StageAssignment) :
    Board :=
  { b with assignments := b.assignments.modify aid f }

def updateWorker (b : Board) (wid : WorkerId) (f : WorkerRegistration → WorkerRegistration) :
    Board :=
  { b with workers := b.workers.modify wid f }

def updateGate (b : Board) (gid : GateId) (f : ReviewGate → ReviewGate) : Board :=
  { b with gates := b.gates.modify gid f }

end Board

/-- The ledger functions do not touch the board. -/
theorem board_of_core {s s' : Db} (h : s'.core = s.core) : s'.board = s.board := by
  have hb : s'.core.board = s.core.board := by rw [h]
  exact hb

@[simp] theorem board_flush (s : Db) : s.flush.board = s.board := rfl

@[simp] theorem board_emit (s : Db) (now : Instant) (e : EventType) (ws : WorkspaceId)
    (rid : RunId) (g : Option GateId) : (s.emit now e ws rid g).board = s.board := rfl

@[simp] theorem board_updateRun (s : Db) (rid : RunId) (f : PipelineRun → PipelineRun) :
    (s.updateRun rid f).board = s.board.updateRun rid f := rfl

@[simp] theorem board_updateJob (s : Db) (jid : JobId) (f : JobSchedule → JobSchedule) :
    (s.updateJob jid f).board = s.board.updateJob jid f := rfl

@[simp] theorem board_updateWorker (s : Db) (wid : WorkerId)
    (f : WorkerRegistration → WorkerRegistration) :
    (s.updateWorker wid f).board = s.board.updateWorker wid f := rfl

@[simp] theorem board_updateGate (s : Db) (gid : GateId) (f : ReviewGate → ReviewGate) :
    (s.updateGate gid f).board = s.board.updateGate gid f := rfl

@[simp] theorem board_updateAssignment (s : Db) (now : Instant) (aid : AssignmentId)
    (f : StageAssignment → StageAssignment) :
    (s.updateAssignment now aid f).board
      = s.board.updateAssignment aid fun a => { f a with updatedAt := now } := rfl

@[simp] theorem board_updateEvent (s : Db) (eid : EventId) (f : OutboxEvent → OutboxEvent) :
    (s.updateEvent eid f).board = s.board := rfl

@[simp] theorem board_routeToDeadLetter (s : Db) (now : Instant) (ws : WorkspaceId)
    (related : RelatedId) (jobType reason : String) (attempts : Nat) (first : Instant) :
    (routeToDeadLetter s now ws related jobType reason attempts first).board = s.board := rfl

@[simp] theorem board_auditRecovery (s : Db) (aid : AssignmentId) (a : StageAssignment)
    (reason : RecoveryReason) (newAttempt : Option Nat) (outcome : RecoveryOutcome)
    (detail : Option String) :
    (auditRecovery s aid a reason newAttempt outcome detail).board = s.board := rfl

@[simp] theorem board_recordClaim (s : Db) (wid : WorkerId) (w : WorkerRegistration)
    (outcome : ClaimOutcome) (reason : String) (a : Option (AssignmentId × StageAssignment))
    (ws : Option WorkspaceId) : (recordClaim s wid w outcome reason a ws).board = s.board := by
  unfold recordClaim
  split <;> rfl

@[simp] theorem board_releaseSpend (s : Db) (now : Instant) (rid : RunId) (ws : WorkspaceId)
    (resId : ReservationId) : (releaseSpend s now rid ws resId).board = s.board :=
  board_of_core (core_releaseSpend ..)

@[simp] theorem board_releaseEach (s : Db) (now : Instant) (rid : RunId) (ws : WorkspaceId)
    (ids : List ReservationId) : (releaseEach s now rid ws ids).board = s.board :=
  board_of_core (core_releaseEach ..)

@[simp] theorem board_releaseAllReservations (s : Db) (now : Instant) (rid : RunId)
    (ws : WorkspaceId) : (releaseAllReservations s now rid ws).board = s.board :=
  board_of_core (core_releaseAllReservations ..)

/-- The status of a run. -/
def Db.statusOf (s : Db) (rid : RunId) : Option PipelineRunStatus :=
  (s.runs[rid]?).map PipelineRun.status

/-- The run is paused for a review. -/
def Db.WaitsForReview (s : Db) (rid : RunId) : Prop :=
  (s.runs[rid]?).map (fun run => (run.status, run.pauseReason))
    = some (.paused, some .reviewGate)

instance (s : Db) (rid : RunId) : Decidable (s.WaitsForReview rid) :=
  inferInstanceAs (Decidable (_ = _))

/-! ## Facts a write may rest on -/

/-- The definition a run is pinned to. -/
def Board.definition (cfg : Config) (b : Board) (rid : RunId) : Option WorkflowDefinition :=
  (b.runs[rid]?).bind fun run => run.definitionId.bind cfg.definition

/-- The run is not over. -/
def Board.Live (b : Board) (rid : RunId) : Prop :=
  ∃ run, b.runs[rid]? = some run ∧ run.status.isTerminal = false

/-- The run has neither succeeded nor been cancelled. -/
def Board.NotClosed (b : Board) (rid : RunId) : Prop :=
  ∃ run, b.runs[rid]? = some run ∧ run.status.isClosed = false

theorem Board.Live.notClosed {b : Board} {rid : RunId} (h : b.Live rid) : b.NotClosed rid := by
  obtain ⟨run, hrun, ht⟩ := h
  refine ⟨run, hrun, ?_⟩
  cases hs : run.status <;> simp_all [PipelineRunStatus.isTerminal, PipelineRunStatus.isClosed]

/-- An assignment of the run carries the stage. -/
def Board.Assigned (b : Board) (rid : RunId) (stage : ContentStage) : Prop :=
  ∃ a ∈ b.assignments, a.pipelineRunId = rid ∧ a.stage = stage

/-- A gate of the run stands at the stage. -/
def Board.Gated (b : Board) (rid : RunId) (stage : ContentStage) : Prop :=
  ∃ g ∈ b.gates, g.pipelineRunId = rid ∧ g.stage = stage

/-- A gate of the run was approved. -/
def Board.Approved (b : Board) (rid : RunId) : Prop :=
  ∃ g ∈ b.gates, g.pipelineRunId = rid ∧ g.status = .approved

/-- The gate waits for a decision. -/
def Board.Awaiting (b : Board) (gid : GateId) : Prop :=
  ∃ g, b.gates[gid]? = some g ∧ g.status = .awaiting

/-- Who the gate names as its reviewer has recorded that decision on the run's content. -/
def Board.Backed (b : Board) (gid : GateId) (approved : Bool) : Prop :=
  ∃ g run d, b.gates[gid]? = some g ∧ b.runs[g.pipelineRunId]? = some run ∧ d ∈ b.decisions ∧
    g.decidedBy = some d.reviewerId ∧ d.contentItemId = run.contentItemId ∧
    d.decision = (if approved then .approved else .rejected)

/-- The stages a work job of the run may carry: the first one, one that routing has entered and
that neither ends the run nor waits for a human, and one that was assigned before. -/
inductive Board.MayRun (cfg : Config) (b : Board) (rid : RunId) : ContentStage → Prop
  | first {d : WorkflowDefinition} {row : WorkflowStage} : b.definition cfg rid = some d →
      d.firstStage = some row → MayRun cfg b rid row.stageKey
  | plain {d : WorkflowDefinition} {row : WorkflowStage} : b.definition cfg rid = some d →
      d.stageRow row.stageKey = some row → row.isTerminal = false → row.isReviewGate = false →
      MayRun cfg b rid row.stageKey
  | again {stage : ContentStage} : b.Assigned rid stage → MayRun cfg b rid stage

/-- Why a run may succeed: a transition into a terminal stage (after an approval, if that is
its trigger), or no way on from a terminal one. -/
inductive Board.Finishes (cfg : Config) (b : Board) (rid : RunId) : Prop
  | edge {d : WorkflowDefinition} {t : WorkflowTransition} {row : WorkflowStage} :
      b.definition cfg rid = some d → t ∈ d.transitions → d.stageRow t.toStage = some row →
      row.isTerminal = true → (t.trigger = .onReviewApproved → b.Approved rid) →
      Finishes cfg b rid
  | here {d : WorkflowDefinition} {row : WorkflowStage} : b.definition cfg rid = some d →
      d.stageRow row.stageKey = some row → row.isTerminal = true →
      (b.Assigned rid row.stageKey ∨ b.Gated rid row.stageKey) → Finishes cfg b rid

/-- What the code relies on without checking: a gate that is awaiting has not been escalated,
and no stage timeout is ever scheduled. `exec_sane` shows that it stays so. -/
structure Board.Sane (b : Board) : Prop where
  level : ∀ g ∈ b.gates, g.status = .awaiting → g.escalationLevel = 0
  jobs : ∀ j ∈ b.jobs, j.jobType ≠ .stageTimeout

/-! ## Writes -/

/-- What an operation may do beyond what every operation does. -/
structure Scope where
  /-- Definitions it may start a run of. -/
  start : DefinitionId → Prop := fun _ => False
  /-- Assignments it may insert. -/
  assign : StageAssignment → Prop := fun _ => False
  /-- Jobs it may insert whatever stage they carry. -/
  job : JobSchedule → Prop := fun _ => False
  /-- Gates it may open at whatever stage. -/
  gate : ReviewGate → Prop := fun _ => False
  /-- Runs whose stage it may change, or that it may set running. -/
  moves : RunId → Prop := fun _ => False
  /-- Stages of a run whose pending work it may use up. -/
  spends : RunId → ContentStage → Prop := fun _ _ => False
  /-- The status it may write to a run without looking at the one the run has. -/
  loose : RunId → PipelineRunStatus → Prop := fun _ _ => False
  /-- It delivers decisions that were recorded earlier. -/
  verdict : Prop := False
  /-- It reopens failed runs. -/
  reopens : Prop := False

section Writes

variable (cfg : Config) (sc : Scope)

/-- The updates of a run. -/
inductive RunWrite (b : Board) (rid : RunId) : (PipelineRun → PipelineRun) → Prop
  | hold : b.Live rid ∨ sc.loose rid .paused → RunWrite b rid PipelineRun.holdForSpend
  | pause : b.Live rid → RunWrite b rid PipelineRun.pauseForReview
  | enter (stage : ContentStage) : sc.moves rid → RunWrite b rid (PipelineRun.enter stage)
  | succeed (now : Instant) : b.Live rid → b.Finishes cfg rid →
      RunWrite b rid (PipelineRun.succeed now)
  | fail (now : Instant) : b.NotClosed rid ∨ sc.loose rid .failed →
      RunWrite b rid (PipelineRun.fail now)
  | markFailed : b.NotClosed rid ∨ sc.loose rid .failed → RunWrite b rid PipelineRun.markFailed
  | cancel (now : Instant) : b.Live rid → RunWrite b rid (PipelineRun.cancel now)
  | resume : sc.loose rid .running → sc.moves rid → RunWrite b rid PipelineRun.resume
  | clearReason : RunWrite b rid PipelineRun.clearReason
  | reopen : sc.reopens → sc.moves rid → RunWrite b rid PipelineRun.reopen

/-- The jobs that are inserted. -/
inductive NewJob (b : Board) (job : JobSchedule) : Prop
  | work {rid : RunId} {stage : ContentStage} : job.refId = .run rid →
      job.refTable = stage.value → job.isWork = true → b.MayRun cfg rid stage → NewJob b job
  | other : job.jobType = .reviewTimeout ∨ job.jobType = .compensation → NewJob b job
  | extra : job.isWork = true → sc.job job → NewJob b job

/-- What a job is for; no update changes that. -/
def JobSchedule.SameTarget (j' j : JobSchedule) : Prop :=
  j'.jobType = j.jobType ∧ j'.refTable = j.refTable ∧ j'.refId = j.refId ∧
    j'.workspaceId = j.workspaceId

/-- The job may be used up. -/
def JobSchedule.Spent (j : JobSchedule) : Prop :=
  ∀ rid stage, j.isWork = true → j.refId = .run rid → j.refTable = ContentStage.value stage →
    sc.spends rid stage

/-- The idempotency key is one of the assignment's run and stage. -/
def StageAssignment.Keyed (a : StageAssignment) : Prop :=
  a.idempotencyKey.pipelineRunId = a.pipelineRunId ∧ a.idempotencyKey.stage = a.stage.value

/-- What an assignment is for; no update changes that. -/
def StageAssignment.SameTarget (a' a : StageAssignment) : Prop :=
  a'.workspaceId = a.workspaceId ∧ a'.pipelineRunId = a.pipelineRunId ∧ a'.stage = a.stage ∧
    (a.Keyed → a'.Keyed)

/-- The updates of an assignment: they leave its worker, take it away, or give the assignment
to a worker that serves its workspace. -/
inductive AssignmentWrite (b : Board) (aid : AssignmentId)
    (f : StageAssignment → StageAssignment) : Prop
  | keep : (∀ a, (f a).SameTarget a ∧ (f a).workerId = a.workerId) → AssignmentWrite b aid f
  | drop : (∀ a, (f a).SameTarget a ∧ (f a).workerId = none) → AssignmentWrite b aid f
  | take {a : StageAssignment} {wid : WorkerId} {w : WorkerRegistration} :
      b.assignments[aid]? = some a → b.workers[wid]? = some w → w.serves a.workspaceId = true →
      (∀ a, (f a).SameTarget a ∧ (f a).workerId = some wid) → AssignmentWrite b aid f

/-- The gates that are opened. -/
inductive NewGate (b : Board) (g : ReviewGate) : Prop
  | mk : g.status = .awaiting → g.escalationLevel = 0 →
      ((∃ d row, b.definition cfg g.pipelineRunId = some d ∧ d.stageRow g.stage = some row ∧
        row.isTerminal = false) ∨ sc.gate g) → NewGate b g

/-- The updates of a gate. Only a gate that is awaiting is ever touched. -/
inductive GateWrite (b : Board) (gid : GateId) : (ReviewGate → ReviewGate) → Prop
  | decideBy (reviewer : UserId) : b.Awaiting gid → GateWrite b gid (ReviewGate.decideBy reviewer)
  | decide (approved : Bool) (now : Instant) : b.Awaiting gid →
      b.Backed gid approved ∨ sc.verdict → GateWrite b gid (ReviewGate.decide approved now)
  | escalate (timeoutAt : Instant) {g : ReviewGate} : b.gates[gid]? = some g →
      g.status = .awaiting → g.escalationLevel = 0 →
      GateWrite b gid (ReviewGate.escalate timeoutAt)
  | showVersion (v : VersionId) : b.Awaiting gid → GateWrite b gid (ReviewGate.showVersion v)

/-- One write. -/
inductive Write : Board → Board → Prop
  | startRun {b : Board} {run : PipelineRun} {definition : DefinitionId} : sc.start definition →
      run.definitionId = some definition → run.status = .running →
      Write b { b with runs := b.runs ++ [run] }
  | run {b : Board} {rid : RunId} {f : PipelineRun → PipelineRun} : RunWrite cfg sc b rid f →
      Write b (b.updateRun rid f)
  | newJob {b : Board} {job : JobSchedule} : NewJob cfg sc b job →
      Write b { b with jobs := b.jobs ++ [job] }
  | job {b : Board} {jid : JobId} {f : JobSchedule → JobSchedule} :
      (∀ j, (f j).SameTarget j) →
      (∀ j, j.isLive = true → (f j).isLive = true) ∨
        (∀ j, b.jobs[jid]? = some j → j.Spent sc) →
      Write b (b.updateJob jid f)
  | newAssignment {b : Board} {a : StageAssignment} : sc.assign a →
      Write b { b with assignments := b.assignments ++ [a] }
  | assignment {b : Board} {aid : AssignmentId} {f : StageAssignment → StageAssignment} :
      AssignmentWrite b aid f →
      (∀ a, a.status.isOpen = true → (f a).status.isOpen = true) ∨
        (∀ a, b.assignments[aid]? = some a → sc.spends a.pipelineRunId a.stage) →
      Write b (b.updateAssignment aid f)
  | worker {b : Board} {wid : WorkerId} {f : WorkerRegistration → WorkerRegistration} :
      (∀ w, (f w).workspaceId = w.workspaceId) → Write b (b.updateWorker wid f)
  | newGate {b : Board} {g : ReviewGate} : NewGate cfg sc b g →
      Write b { b with gates := b.gates ++ [g] }
  | gate {b : Board} {gid : GateId} {f : ReviewGate → ReviewGate} : GateWrite sc b gid f →
      Write b (b.updateGate gid f)
  | decision {b : Board} {d : ReviewDecision} :
      Write b { b with decisions := b.decisions ++ [d] }

/-- A sequence of writes. -/
abbrev Writes : Board → Board → Prop := ReflTransGen (Write cfg sc)

end Writes

variable {cfg : Config} {sc : Scope}

/-- **The invariant rule**: what every single write keeps, every operation keeps. -/
theorem Writes.invariant {I : Board → Prop} {b b' : Board} (h : Writes cfg sc b b')
    (hstep : ∀ b b', Write cfg sc b b' → I b → I b') (hb : I b) : I b' := by
  induction h with
  | refl => exact hb
  | tail _ hw ih => exact hstep _ _ hw ih

end HumanGate
