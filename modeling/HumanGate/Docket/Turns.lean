import HumanGate.Docket.Ledger
import HumanGate.Lib.Family

set_option autoImplicit false

/-! # How a run goes on

The life of one run as a machine on its docket. A run has one work item at a time: a job, an
assignment or a gate. Every operation of the orchestration that is about the run takes this item
and puts another in its place, changes it, or uses it up (`Turn`). What a turn does to the run and
to its reservations is part of the turn, and so is the edge of the workflow definition that a
change of the stage follows.

This file is about the machine. That the operations are turns of it is shown in
`Docket/Operations.lean`.
-/

namespace HumanGate

open Lib Lib.Calendar Relation

/-! ## Routes -/

/-- The definition that the run is pinned to. -/
def PipelineRun.pinned (cfg : Config) (run : PipelineRun) : Option WorkflowDefinition :=
  run.definitionId.bind cfg.definition

/-- The definition of the run has a transition from the stage to the one of `row`. -/
def Edge (cfg : Config) (run : PipelineRun) (fromStage : ContentStage) (row : WorkflowStage) :
    Prop :=
  ∃ d t, run.pinned cfg = some d ∧ t ∈ d.transitions ∧ t.fromStage = fromStage ∧
    t.toStage = row.stageKey ∧ d.stageRow row.stageKey = some row

/-- The attempts that the definition of the run allows for a stage. -/
def PipelineRun.maxAttempts (cfg : Config) (run : PipelineRun) (stage : ContentStage) : Nat :=
  match run.pinned cfg with
  | none => cfg.settings.assignmentDefaultMaxAttempts
  | some d =>
      match d.stageRow stage with
      | none => cfg.settings.assignmentDefaultMaxAttempts
      | some row => row.maxAttempts

section Turn

variable (cfg : Config) (now : Instant) (rid : RunId)

/-- Where routing leads a run whose work item is used up. -/
inductive Docket.Route (run : PipelineRun) (fromStage : ContentStage)
    (reserved : ContentStage → Nat) :
    Docket → Prop
  /-- The stage has no way out and ends the run. -/
  | ended : Docket.Route run fromStage reserved
      (.idle (some ((run.succeed now).enter fromStage)) reserved)
  | finished {row : WorkflowStage} : Edge cfg run fromStage row → row.isTerminal = true →
      Docket.Route run fromStage reserved
        (.idle (some ((run.enter row.stageKey).succeed now)) reserved)
  | paused {row : WorkflowStage} {g : ReviewGate} : Edge cfg run fromStage row →
      row.isTerminal = false → row.isReviewGate = true → g.stage = row.stageKey →
      g.pipelineRunId = rid → g.status = .awaiting →
      Docket.Route run fromStage reserved
        (.gated (some (run.enter row.stageKey).pauseForReview) g reserved)
  /-- The gate cannot be opened, and nobody takes the stage back. -/
  | stuck {row : WorkflowStage} : Edge cfg run fromStage row → row.isReviewGate = true →
      Docket.Route run fromStage reserved (.idle (some (run.enter row.stageKey)) reserved)
  | enqueued {row : WorkflowStage} {ws : WorkspaceId} : Edge cfg run fromStage row →
      row.isTerminal = false → row.isReviewGate = false →
      Docket.Route run fromStage reserved
        (.queued (some (run.enter row.stageKey))
          (stageJob cfg now rid ws row.stageKey.value 0 now) reserved)

/-- Where a decision, an escalation or a timeout leads a run that waits at a gate. -/
inductive Docket.Decided (run : PipelineRun) (stage : ContentStage)
    (reserved : ContentStage → Nat) : Docket → Prop
  | routed {d : Docket} : Docket.Route cfg now rid run.resume stage reserved d →
      Docket.Decided run stage reserved d
  /-- The run is left without work. -/
  | settled {run' : PipelineRun} : run' = run ∨ run' = run.resume →
      Docket.Decided run stage reserved (.idle (some run') reserved)
  | rejected {run' : PipelineRun} : run' = run.fail now ∨ run' = run.clearReason.fail now →
      Docket.Decided run stage reserved (.idle (some run') fun _ => 0)

/-- The job after a wait or a lease: the same work. -/
structure JobSchedule.Same (j' j : JobSchedule) : Prop where
  refTable : j'.refTable = j.refTable
  refId : j'.refId = j.refId
  workspaceId : j'.workspaceId = j.workspaceId

/-- The assignment after a write: the same work. -/
structure StageAssignment.Same (a' a : StageAssignment) : Prop where
  pipelineRunId : a'.pipelineRunId = a.pipelineRunId
  stage : a'.stage = a.stage

/-- What an operation may do to the docket of a run. -/
inductive Docket.Turn : Docket → Docket → Prop
  | start {definition : DefinitionId} {d : WorkflowDefinition} {first : WorkflowStage}
      {run : PipelineRun} {reserved : ContentStage → Nat} :
      cfg.definition definition = some d → d.firstStage = some first →
      run.definitionId = some definition → run.currentStage = first.stageKey →
      run.status = .running →
      Docket.Turn (.idle none reserved)
        (.queued (some run) (stageJob cfg now rid run.workspaceId first.stageKey.value 0 now)
          reserved)
  /-- The job is leased, or parked. -/
  | wait {run : Option PipelineRun} {j j' : JobSchedule} {reserved : ContentStage → Nat} :
      j'.Same j → j'.attempt = j.attempt →
      Docket.Turn (.queued run j reserved) (.queued run j' reserved)
  /-- The job meets back-pressure, or its lease runs out. -/
  | defer {run : Option PipelineRun} {j j' : JobSchedule} {reserved : ContentStage → Nat} :
      j'.Same j → j'.attempt = j.attempt + 1 →
      Docket.Turn (.queued run j reserved) (.queued run j' reserved)
  | hold {run : PipelineRun} {j j' : JobSchedule} {stage : ContentStage}
      {reserved : ContentStage → Nat} :
      run.status.isTerminal = false → stage.value = j.refTable → j'.Same j →
      j'.attempt = j.attempt →
      Docket.Turn (.queued (some run) j reserved)
        (.queued (some run.holdForSpend) j' (Function.update reserved stage 0))
  /-- The run is not to be dispatched, or the key of the attempt is taken. -/
  | drop {run : Option PipelineRun} {j : JobSchedule} {reserved : ContentStage → Nat} :
      Docket.Turn (.queued run j reserved) (.idle run reserved)
  /-- The job has met back-pressure too often. -/
  | giveUp {run : Option PipelineRun} {j : JobSchedule} {reserved : ContentStage → Nat} :
      noWorkerMaxRetries ≤ j.attempt + 1 →
      Docket.Turn (.queued run j reserved) (.idle run fun _ => 0)
  | queue {run : PipelineRun} {j : JobSchedule} {stage : ContentStage}
      {reserved : ContentStage → Nat} :
      run.status.isTerminal = false → stage.value = j.refTable →
      Docket.Turn (.queued (some run) j reserved)
        (.assigned (some run) (newAssignment cfg now (j.dispatchArgs rid) stage none) reserved)
  | assign {run : PipelineRun} {j : JobSchedule} {stage : ContentStage} {wid : WorkerId}
      {reserved : ContentStage → Nat} :
      run.status.isTerminal = false → stage.value = j.refTable →
      Docket.Turn (.queued (some run) j reserved)
        (.assigned (some run) (newAssignment cfg now (j.dispatchArgs rid) stage (some wid))
          (Function.update reserved stage 1))
  | claim {run : Option PipelineRun} {a a' : StageAssignment} {reserved : ContentStage → Nat} :
      a.status = .pending → a'.Same a → a'.status = .dispatched →
      a'.attemptNumber = a.attemptNumber → (run ≠ none → reserved a.stage ≤ 1) →
      Docket.Turn (.assigned run a reserved) (.assigned run a' (Function.update reserved a.stage 1))
  | claimHold {run : PipelineRun} {a : StageAssignment} {reserved : ContentStage → Nat} :
      a.status = .pending →
      Docket.Turn (.assigned (some run) a reserved)
        (.assigned (some run.holdForSpend) a (Function.update reserved a.stage 0))
  /-- The assignment is acknowledged, or its lease extended. -/
  | touch {run : Option PipelineRun} {a a' : StageAssignment} {reserved : ContentStage → Nat} :
      a'.Same a → a'.attemptNumber = a.attemptNumber →
      a'.status.inFlight = a.status.inFlight → a'.status.isOpen = true →
      (a'.status = .dispatched → a.status = .dispatched) →
      Docket.Turn (.assigned run a reserved) (.assigned run a' reserved)
  | requeue {run : PipelineRun} {a a' : StageAssignment} {reserved : ContentStage → Nat} :
      a.status.inFlight = true → a'.Same a → a'.status = .pending →
      a'.attemptNumber = a.attemptNumber + 1 →
      a.attemptNumber + 1 ≤ run.maxAttempts cfg a.stage →
      Docket.Turn (.assigned (some run) a reserved)
        (.assigned (some run) a' (Function.update reserved a.stage 0))
  | exhaust {run : PipelineRun} {a : StageAssignment} {reserved : ContentStage → Nat} :
      a.status.inFlight = true → run.status.isTerminal = false →
      run.maxAttempts cfg a.stage < a.attemptNumber + 1 →
      Docket.Turn (.assigned (some run) a reserved) (.idle (some (run.fail now)) fun _ => 0)
  /-- The attempts of an assignment of a run that is over are used up, or its result arrives. -/
  | close {run : PipelineRun} {a : StageAssignment} {reserved reserved' : ContentStage → Nat} :
      a.status.inFlight = true → run.status.isTerminal = true →
      Docket.Turn (.assigned (some run) a reserved) (.idle (some run) reserved')
  | advance {run : PipelineRun} {a : StageAssignment} {reserved : ContentStage → Nat}
      {d : Docket} : a.status.inFlight = true → run.status.isTerminal = false →
      Docket.Route cfg now rid run a.stage
        (Function.update reserved a.stage (reserved a.stage - 1)) d →
      Docket.Turn (.assigned (some run) a reserved) d
  | retry {run : PipelineRun} {a : StageAssignment} {wd : WorkflowDefinition}
      {row : WorkflowStage} {ws : WorkspaceId} {runAfter : Instant}
      {reserved : ContentStage → Nat} : a.status.inFlight = true →
      run.pinned cfg = some wd → wd.stageRow a.stage = some row →
      a.attemptNumber < row.maxAttempts →
      Docket.Turn (.assigned (some run) a reserved)
        (.queued (some run) (stageJob cfg now rid ws a.stage.value a.attemptNumber runAfter)
          (Function.update reserved a.stage (reserved a.stage - 1)))
  | fail {run run' : PipelineRun} {a : StageAssignment} {reserved : ContentStage → Nat} :
      a.status.inFlight = true → run' = run.fail now ∨ run' = (run.fail now).markFailed →
      Docket.Turn (.assigned (some run) a reserved) (.idle (some run') fun _ => 0)
  | decide {run : PipelineRun} {g : ReviewGate} {reserved : ContentStage → Nat} {d : Docket} :
      Docket.Decided cfg now rid run g.stage reserved d →
      Docket.Turn (.gated (some run) g reserved) d
  | revise {run : Option PipelineRun} {g g' : ReviewGate} {reserved : ContentStage → Nat} :
      g'.stage = g.stage → g'.pipelineRunId = g.pipelineRunId → g'.status = g.status →
      Docket.Turn (.gated run g reserved) (.gated run g' reserved)
  | cancel {run : PipelineRun} {jobs : List JobSchedule} {rows : List StageAssignment}
      {gates : List ReviewGate} {reserved : ContentStage → Nat} : run.status.isTerminal = false →
      Docket.Turn ⟨some run, jobs, rows, gates, reserved⟩
        ⟨some (run.cancel now), jobs, [], gates, fun _ => 0⟩

end Turn

/-! ## Quiet turns -/

/-- A worker has an assignment of the run and has not acknowledged it. -/
def Docket.started (d : Docket) : Bool := d.rows.any fun a => a.status == .dispatched

/-- A turn that neither leads the run to another stage nor starts an attempt. -/
structure Docket.Quiet (cfg : Config) (now : Instant) (rid : RunId) (d d' : Docket) : Prop where
  turn : Docket.Turn cfg now rid d d'
  stage : d'.run.map PipelineRun.currentStage = d.run.map PipelineRun.currentStage
  started : d'.started = true → d.started = true

/-! ## Sound dockets -/

/-- At most one work item, and none without a run. -/
structure Docket.Sound (d : Docket) : Prop where
  single : d.Single
  real : d.run = none → d.items = 0

variable {cfg : Config} {now : Instant} {rid : RunId} {d d' : Docket}

theorem Docket.Sound.idle (run : Option PipelineRun) (reserved : ContentStage → Nat) :
    (Docket.idle run reserved).Sound :=
  ⟨Nat.zero_le _, fun _ => rfl⟩

theorem Docket.Sound.queued (run : PipelineRun) (j : JobSchedule) (reserved : ContentStage → Nat) :
    (Docket.queued (some run) j reserved).Sound :=
  ⟨Nat.le_refl _, fun h => nomatch h⟩

theorem Docket.Sound.gated (run : PipelineRun) (g : ReviewGate) (reserved : ContentStage → Nat) :
    (Docket.gated (some run) g reserved).Sound :=
  ⟨Nat.le_refl _, fun h => nomatch h⟩

theorem Docket.Sound.assigned (run : PipelineRun) (a : StageAssignment)
    (reserved : ContentStage → Nat) : (Docket.assigned (some run) a reserved).Sound :=
  ⟨Nat.le_refl _, fun h => nomatch h⟩

theorem Docket.Route.sound {run : PipelineRun} {fromStage : ContentStage}
    {reserved : ContentStage → Nat} (h : Docket.Route cfg now rid run fromStage reserved d) :
    d.Sound := by
  cases h with
  | ended | finished | stuck => exact .idle ..
  | paused => exact .gated ..
  | enqueued => exact .queued ..

theorem Docket.Decided.sound {run : PipelineRun} {stage : ContentStage}
    {reserved : ContentStage → Nat} (h : Docket.Decided cfg now rid run stage reserved d) :
    d.Sound := by
  cases h with
  | routed hroute => exact hroute.sound
  | settled | rejected => exact .idle ..

/-- Nobody works for a run that does not exist. -/
theorem Docket.Sound.run_queued {run : Option PipelineRun} {j : JobSchedule}
    {reserved : ContentStage → Nat} (h : (Docket.queued run j reserved).Sound) :
    ∃ r, run = some r := by
  cases run with
  | none => exact absurd (h.real rfl) Nat.one_ne_zero
  | some r => exact ⟨r, rfl⟩

theorem Docket.Sound.run_assigned {run : Option PipelineRun} {a : StageAssignment}
    {reserved : ContentStage → Nat} (h : (Docket.assigned run a reserved).Sound) :
    ∃ r, run = some r := by
  cases run with
  | none => exact absurd (h.real rfl) Nat.one_ne_zero
  | some r => exact ⟨r, rfl⟩

theorem Docket.Sound.run_gated {run : Option PipelineRun} {g : ReviewGate}
    {reserved : ContentStage → Nat} (h : (Docket.gated run g reserved).Sound) :
    ∃ r, run = some r := by
  cases run with
  | none => exact absurd (h.real rfl) Nat.one_ne_zero
  | some r => exact ⟨r, rfl⟩

theorem Docket.Turn.sound (h : Docket.Turn cfg now rid d d') (hd : d.Sound) : d'.Sound := by
  cases h with
  | start => exact .queued ..
  | wait | defer =>
      obtain ⟨_, rfl⟩ := hd.run_queued
      exact .queued ..
  | hold | retry => exact .queued ..
  | drop | giveUp | exhaust | close | fail => exact .idle ..
  | queue | assign | claimHold | requeue => exact .assigned ..
  | claim | touch =>
      obtain ⟨_, rfl⟩ := hd.run_assigned
      exact .assigned ..
  | advance _ _ hroute => exact hroute.sound
  | decide hdecided => exact hdecided.sound
  | revise =>
      obtain ⟨_, rfl⟩ := hd.run_gated
      exact .gated ..
  | cancel =>
      refine ⟨?_, fun h => nomatch h⟩
      have hsingle := hd.single
      simp only [Docket.Single, Docket.items, List.length_nil] at hsingle ⊢
      omega

end HumanGate
