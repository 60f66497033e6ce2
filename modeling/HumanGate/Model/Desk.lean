import HumanGate.Model.Operations

set_option autoImplicit false

/-! # The review desk's workflow

The workflow that `ensure_desk_workflow` provisions for every workspace
(`app/services/content_desk.py`): a script is drafted, a human reviews it, and an approval
publishes it. `deskDb` is a workspace that has it, with one content item and one worker; the
concrete runs in this development start there.
-/

namespace HumanGate

open Lib Lib.Calendar

def deskStages : List WorkflowStage :=
  [{ stageKey := .scripting, ordinal := 1, maxAttempts := 1, timeoutSeconds := 600 },
   { stageKey := .review, ordinal := 2, isReviewGate := true,
     timeoutSeconds := defaultReviewTimeoutHours * 3600 },
   { stageKey := .published, ordinal := 3, isTerminal := true, timeoutSeconds := 60 }]

def deskTransitions : List WorkflowTransition :=
  [{ fromStage := .scripting, toStage := .review, trigger := .onSuccess, priority := 100 },
   { fromStage := .review, toStage := .published, trigger := .onReviewApproved, priority := 100 }]

/-- `ensure_desk_workflow`. -/
def deskWorkflow : WorkflowDefinition := ⟨deskStages, deskTransitions, by decide⟩

/-- The desk's workflow with transitions added to it. -/
def deskWorkflowWith (more : List WorkflowTransition) : WorkflowDefinition :=
  ⟨deskStages, deskTransitions ++ more, by decide⟩

/-- One definition, and default settings. -/
def configOf (d : WorkflowDefinition) : Config where
  definition := fun i => if i = 0 then some d else none

def deskConfig : Config := configOf deskWorkflow

/-- The desk's workflow with three attempts at a script. -/
def patientWorkflow : WorkflowDefinition :=
  ⟨deskStages.map fun row => { row with maxAttempts := 3 }, deskTransitions, by decide⟩

def patientConfig : Config := configOf patientWorkflow

/-- A global worker for the given stages. -/
def deskWorker (stages : List ContentStage) : WorkerRegistration where
  workspaceId := none
  supportedStages := stages.map ContentStage.value
  status := .online
  maxConcurrency := 4
  currentLoad := 0
  healthScore := 100
  lastHeartbeatAt := some 0
  drain := false
  deregisteredAt := none

/-- An assignment that waits for a worker. -/
def waitingAssignment (ws : WorkspaceId) (rid : RunId) (createdAt : Instant) : StageAssignment where
  workspaceId := ws
  pipelineRunId := rid
  stage := .scripting
  attemptNumber := 1
  workerId := none
  status := .pending
  idempotencyKey := ⟨rid, "scripting", 1⟩
  leaseExpiresAt := none
  leaseStartedAt := none
  leaseExtensionCount := 0
  dispatchedAt := none
  priority := 0
  provider := none
  createdAt := createdAt
  updatedAt := createdAt

/-- Workspace 0 before its first run. -/
def deskDb : Db where
  items := [⟨0, some 0⟩]
  versions := [⟨0, none, some "draft", none⟩]
  workers := [deskWorker [.scripting]]
  caps := [wideCap 10 100]

theorem deskDb_fresh : Fresh deskDb := ⟨rfl, rfl, rfl, rfl, rfl, rfl, rfl, rfl, rfl⟩

/-- A run of the desk's workflow up to its review: started, dispatched and drafted. -/
def draftedOps : List Op :=
  [⟨0, .startRun 0 0 0⟩, ⟨1, .pollAndLease 10 [0]⟩, ⟨2, .processLeasedJob 0 [0] 0⟩,
   ⟨3, .submitResult 0 true none "" none 0⟩]

/-- A run of the desk's workflow whose worker reports an error that is not transient. -/
def failedOps : List Op :=
  [⟨0, .startRun 0 0 0⟩, ⟨1, .pollAndLease 10 [0]⟩, ⟨2, .processLeasedJob 0 [0] 0⟩,
   ⟨3, .submitResult 0 false none "no such model" none 0⟩]

/-- The state after some operations. -/
def runOps (cfg : Config) (s : Db) (ops : List Op) : Db := ops.foldl (exec cfg) s

/-- A run of the unrestricted orchestration. -/
theorem runOps_reachable (cfg : Config) {s : Db} (h : Fresh s) (ops : List Op) :
    (orchestration cfg fun _ _ => True).Reachable (runOps cfg s ops) := by
  refine System.Reachable.of_legal ops (.init h) ?_
  generalize s = t
  induction ops generalizing t with
  | nil => trivial
  | cons o ops ih => exact ⟨trivial, ih _⟩

end HumanGate
