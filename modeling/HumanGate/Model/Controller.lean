import HumanGate.Model.Spend
import HumanGate.Model.Workflow

set_option autoImplicit false

/-! # The execution controller

`app/orchestration/controller.py`: the life of a run. Each function is the source's function
of the same name on the tables of `Db`; the instant `now` of an operation stands for all its
`datetime.now(UTC)`, and `jitter` for the draw of a backoff.

A function that a handler of the relay can be inside of when an exception is raised returns a
`Call`: the relay catches the exception and keeps what was written, so the state at the raise
matters. Everywhere else an exception rolls the transaction back.
-/

namespace HumanGate

open Lib Lib.Calendar

/-- A call that may raise: the database as the call leaves it, and the exception. `entered`
is the stage the call wrote to `current_stage` of a run, if it wrote one. -/
structure Call where
  db : Db
  raised : Option Err := none
  entered : Option (RunId × ContentStage) := none

/-- A call of a function that leaves nothing behind when it raises. -/
def Call.ofExcept (s : Db) : Except Err Db → Call
  | .ok s' => { db := s' }
  | .error e => { db := s, raised := some e }

/-! ## Enqueueing -/

def stageJob (cfg : Config) (now : Instant) (rid : RunId) (ws : WorkspaceId) (stage : String)
    (attempt : Nat) (runAfter : Instant) : JobSchedule :=
  { workspaceId := ws
    jobType := if attempt = 0 then .stage else .retry
    refTable := stage
    refId := .run rid
    runAfter := runAfter
    attempt := attempt
    priority := workspacePriority cfg ws
    createdAt := now }

def enqueueStage (cfg : Config) (s : Db) (now : Instant) (rid : RunId) (ws : WorkspaceId)
    (stage : ContentStage) (attempt : Nat) (runAfter : Instant) : Db :=
  Db.flush { s with jobs := s.jobs ++ [stageJob cfg now rid ws stage.value attempt runAfter] }

/-- The job that fires when a gate's time is up. -/
def reviewTimeoutJob (now : Instant) (ws : WorkspaceId) (gid : GateId) (runAfter : Instant) :
    JobSchedule :=
  { workspaceId := ws
    jobType := .reviewTimeout
    refTable := "review_gates"
    refId := .gate gid
    runAfter := runAfter
    createdAt := now }

/-- `retry.route_to_dead_letter`. -/
def routeToDeadLetter (s : Db) (now : Instant) (ws : WorkspaceId) (relatedId : RelatedId)
    (jobType failureReason : String) (attemptCount : Nat) (firstFailedAt : Instant) : Db :=
  Db.flush { s with deadLetters := s.deadLetters ++ [{
    workspaceId := ws
    relatedId := relatedId
    jobType := jobType
    failureReason := failureReason
    attemptCount := attemptCount
    firstFailedAt := firstFailedAt
    lastFailedAt := now }] }

/-! ## The human review gate -/

/-- The gates of a run that a query sees as awaiting. -/
def awaitingGates (s : Db) (rid : RunId) : List GateId :=
  (Table.select (fun g => g.pipelineRunId == rid) s.gates).filter
    fun gid => s.gateColumn[gid]? == some .awaiting

def PipelineRun.pauseForReview (run : PipelineRun) : PipelineRun :=
  { run with status := .paused, pauseReason := some .reviewGate }

/-- Pause a run and open a gate, unless one is awaiting already. -/
def pauseForReview (s : Db) (now : Instant) (rid : RunId) (stage : ContentStage)
    (timeoutSeconds : Nat) : Call :=
  match s.runs[rid]? with
  | none => { db := s, raised := some (.noContentItem rid) }
  | some run =>
      if run.status.isTerminal then { db := s, raised := some (.terminalRun run.status) }
      else
        match awaitingGates s rid with
        -- `scalar_one_or_none` raises on a second awaiting gate
        | _ :: _ :: _ => { db := s, raised := some .multipleResultsFound }
        -- a redelivered pause finds its own gate and changes nothing
        | [_] => { db := s }
        | [] =>
            match s.items[run.contentItemId]? with
            | none => { db := s, raised := some (.noContentItem rid) }
            | some item =>
                let timeoutAt := now + seconds timeoutSeconds
                let gate : ReviewGate :=
                  { workspaceId := run.workspaceId
                    pipelineRunId := rid
                    contentVersionId := item.currentVersionId
                    stage := stage
                    requestedAt := now
                    timeoutAt := some timeoutAt }
                let s1 := { s.updateRun rid PipelineRun.pauseForReview with
                  gates := s.gates ++ [gate]
                  jobs := s.jobs ++
                    [reviewTimeoutJob now run.workspaceId s.gates.length timeoutAt] }
                { db := s1.emit now .reviewRequested run.workspaceId rid (some s.gates.length) }

/-! ## Advancing a run -/

def PipelineRun.succeed (now : Instant) (run : PipelineRun) : PipelineRun :=
  { run with status := .succeeded, completedAt := some now }

def PipelineRun.enter (stage : ContentStage) (run : PipelineRun) : PipelineRun :=
  { run with currentStage := stage }

/-- The run has entered the stage of `row`: finish, pause, or enqueue it. -/
def enterStage (cfg : Config) (s : Db) (now : Instant) (rid : RunId) (ws : WorkspaceId)
    (row : WorkflowStage) : Call :=
  let s := s.updateRun rid (PipelineRun.enter row.stageKey)
  if row.isTerminal then
    { db := (s.updateRun rid (PipelineRun.succeed now)).emit now .pipelineSucceeded ws rid
      entered := some (rid, row.stageKey) }
  else if row.isReviewGate then
    { pauseForReview s now rid row.stageKey row.timeoutSeconds with
      entered := some (rid, row.stageKey) }
  else
    { db := enqueueStage cfg s now rid ws row.stageKey 0 now
      entered := some (rid, row.stageKey) }

/-- `_advance_or_finish`. -/
def advanceOrFinish (cfg : Config) (s : Db) (now : Instant) (rid : RunId)
    (fromStage : ContentStage) (trigger : WorkflowTransitionTrigger) (context : JsonObject) :
    Call :=
  match s.runs[rid]? with
  | none => { db := s, raised := some (.noDefinition rid) }
  | some run =>
      match definitionOf cfg rid run with
      | .error e => { db := s, raised := some e }
      | .ok d =>
          match findTransition d fromStage trigger context with
          | .error e => { db := s, raised := some e }
          | .ok none =>
              -- no way out: fine when the stage is itself terminal
              match getStageDef d fromStage with
              | .error e => { db := s, raised := some e }
              | .ok row =>
                  if row.isTerminal then
                    let s1 := (s.updateRun rid (PipelineRun.succeed now)).updateRun rid
                      (PipelineRun.enter fromStage)
                    { db := s1.emit now .pipelineSucceeded run.workspaceId rid
                      entered := some (rid, fromStage) }
                  else { db := s, raised := some (.noMatchingTransition fromStage trigger) }
          | .ok (some t) =>
              match getStageDef d t.toStage with
              | .error e => { db := s, raised := some e }
              | .ok row => enterStage cfg s now rid run.workspaceId row

/-- Start a run of the content item `item`: insert it, pin the definition, enqueue the first
stage. -/
def startRun (cfg : Config) (s : Db) (now : Instant) (ws : WorkspaceId) (item : ItemId)
    (definition : DefinitionId) : Call :=
  match cfg.definition definition, s.items[item]? with
  | some d, some _ =>
      match d.firstStage with
      | none => { db := s, raised := some .noStages }
      | some first =>
          let run : PipelineRun :=
            { workspaceId := ws
              contentItemId := item
              currentStage := first.stageKey
              status := .running
              definitionId := some definition
              startedAt := some now }
          { db := enqueueStage cfg { s with runs := s.runs ++ [run] } now s.runs.length ws
              first.stageKey 0 now
            entered := some (s.runs.length, first.stageKey) }
  | _, _ => { db := s, raised := some .integrityError }

/-- `handle_stage_success`: ignored on a run that is over. -/
def handleStageSuccess (cfg : Config) (s : Db) (now : Instant) (rid : RunId)
    (stage : ContentStage) (context : JsonObject) : Call :=
  match s.runs[rid]? with
  | none => { db := s, raised := some (.noDefinition rid) }
  | some run =>
      if run.status.isTerminal then { db := s }
      else advanceOrFinish cfg s now rid stage .onSuccess context

/-! ## Failing, cancelling, compensating -/

def PipelineRun.fail (now : Instant) (run : PipelineRun) : PipelineRun :=
  { run with status := .failed, completedAt := some now }

/-- `_fail_run`. -/
def failRun (s : Db) (now : Instant) (rid : RunId) (ws : WorkspaceId) : Db :=
  releaseAllReservations
    ((s.updateRun rid (PipelineRun.fail now)).emit now .pipelineFailed ws rid) now rid ws

/-- The assignments of a run that are still open. -/
def openAssignments (s : Db) (rid : RunId) : List AssignmentId :=
  Table.select (fun a => a.pipelineRunId == rid && a.status.isOpen) s.assignments

def StageAssignment.cancel (a : StageAssignment) : StageAssignment :=
  { a with status := .cancelled }

def cancelAssignments (s : Db) (now : Instant) : List AssignmentId → Db
  | [] => s
  | aid :: rest =>
      cancelAssignments (s.updateAssignment now aid StageAssignment.cancel) now rest

def PipelineRun.cancel (now : Instant) (run : PipelineRun) : PipelineRun :=
  { run with status := .cancelled, completedAt := some now }

def cancelRun (s : Db) (now : Instant) (rid : RunId) : Db :=
  match s.runs[rid]? with
  | none => s
  | some run =>
      if run.status.isTerminal then s
      else
        let s := cancelAssignments s now (openAssignments s rid)
        let s := s.updateRun rid (PipelineRun.cancel now)
        (releaseAllReservations s now rid run.workspaceId).emit now .pipelineCancelled
          run.workspaceId rid

/-- `completed_at DESC`, where a missing value comes first. -/
def PipelineStageRun.laterOrEqual (a b : PipelineStageRun) : Bool :=
  match a.completedAt, b.completedAt with
  | none, _ => true
  | some _, none => false
  | some x, some y => decide (y ≤ x)

/-- The succeeded stage runs of a run, latest first. -/
def completedStageRuns (s : Db) (rid : RunId) : List PipelineStageRun :=
  (s.stageRuns.filter fun r => r.pipelineRunId == rid && r.status == .succeeded).insertionSort
    fun a b => a.laterOrEqual b = true

/-- The jobs `_trigger_compensation` adds, one for each completed stage that declares a
compensation. -/
def compensationJobs (d : WorkflowDefinition) (now : Instant) (rid : RunId) (ws : WorkspaceId) :
    List PipelineStageRun → Except Err (List JobSchedule)
  | [] => .ok []
  | r :: rest =>
      match getStageDef d r.stage with
      | .error e => .error e
      | .ok row =>
          match compensationJobs d now rid ws rest with
          | .error e => .error e
          | .ok jobs =>
              match row.compensationStageKey with
              | none => .ok jobs
              | some key =>
                  .ok ({ workspaceId := ws
                         jobType := .compensation
                         refTable := key.value
                         refId := .run rid
                         runAfter := now
                         createdAt := now } :: jobs)

def PipelineRun.markFailed (run : PipelineRun) : PipelineRun := { run with status := .failed }

/-- `_trigger_compensation`: the run ends as failed. -/
def triggerCompensation (d : WorkflowDefinition) (s : Db) (now : Instant) (rid : RunId)
    (ws : WorkspaceId) : Except Err Db :=
  match compensationJobs d now rid ws (completedStageRuns s rid) with
  | .error e => .error e
  | .ok jobs =>
      .ok (Db.flush { s.updateRun rid PipelineRun.markFailed with jobs := s.jobs ++ jobs })

/-- The attempt failed for good: dead-letter it and fail the run. -/
def giveUpStage (s : Db) (now : Instant) (rid : RunId) (run : PipelineRun)
    (stageText : String) (attempt : Nat) (errorMessage : String) : Db :=
  failRun
    (routeToDeadLetter s now run.workspaceId (.pipelineRun rid) ("stage:" ++ stageText)
      errorMessage attempt (run.startedAt.getD now))
    now rid run.workspaceId

/-- `handle_stage_failure` may be retried: a known transient error and attempts left. -/
def mayRetry (row : WorkflowStage) (attempt : Nat) (errorMessage : String) : Bool :=
  isRetryable errorMessage && decide (attempt < row.maxAttempts)

/-- `handle_stage_failure`. `stageText` is what the argument `stage` formats to: the value for
a text, something else for a member of the enumeration. -/
def handleStageFailure (cfg : Config) (s : Db) (now : Instant) (rid : RunId)
    (stage : ContentStage) (stageText : String) (attempt : Nat) (errorMessage : String)
    (jitter : Nat) :
    Except Err Db :=
  match s.runs[rid]? with
  | none => .error (.noDefinition rid)
  | some run =>
      let s := s.emit now .stageFailed run.workspaceId rid
      match definitionOf cfg rid run with
      | .error e => .error e
      | .ok d =>
          match getStageDef d stage with
          | .error e => .error e
          | .ok row =>
              if mayRetry row attempt errorMessage then
                .ok (enqueueStage cfg s now rid run.workspaceId stage attempt
                  (now + computeBackoff (attempt + 1) row.backoffBaseSeconds
                    row.backoffMultiplier row.backoffMaxSeconds jitter))
              else
                let s := giveUpStage s now rid run stageText attempt errorMessage
                match row.compensationStageKey with
                | none => .ok s
                | some _ => triggerCompensation d s now rid run.workspaceId

def handleStageTimeout (cfg : Config) (s : Db) (now : Instant) (rid : RunId)
    (stage : ContentStage) (jitter : Nat) : Except Err Db :=
  match s.runs[rid]? with
  | none => .ok s
  | some run =>
      -- a timeout of a stage that the run has left is stale
      if run.currentStage = stage ∧ run.status = .running then
        let attempts :=
          (s.stageRuns.filter fun r => r.pipelineRunId == rid && r.stage == stage).length
        handleStageFailure cfg s now rid stage stage.value (attempts + 1) "timeout" jitter
      else .ok s

/-! ## Review decisions -/

def PipelineRun.resume (run : PipelineRun) : PipelineRun :=
  { run with status := .running, pauseReason := none }

def PipelineRun.clearReason (run : PipelineRun) : PipelineRun := { run with pauseReason := none }

def ReviewGate.decide (approved : Bool) (now : Instant) (gate : ReviewGate) : ReviewGate :=
  { gate with status := if approved then .approved else .rejected, decidedAt := some now }

/-- `resume_from_review`. A rejection without an edge of its own fails the run. -/
def resumeFromReview (cfg : Config) (s : Db) (now : Instant) (gid : GateId) (approved : Bool) :
    Call :=
  match s.gates[gid]? with
  | none => { db := s }
  | some gate =>
      -- already decided, or escalated
      if gate.status ≠ .awaiting then { db := s }
      else
        match s.runs[gate.pipelineRunId]? with
        | none => { db := s, raised := some (.gateWithoutRun gid) }
        | some run =>
            let rid := gate.pipelineRunId
            let s := s.updateGate gid (ReviewGate.decide approved now)
            if approved then
              advanceOrFinish cfg (s.updateRun rid PipelineRun.resume) now rid gate.stage
                .onReviewApproved []
            else
              match definitionOf cfg rid run with
              | .error e => { db := s, raised := some e }
              | .ok d =>
                  match findTransition d gate.stage .onReviewRejected [] with
                  | .error e => { db := s, raised := some e }
                  | .ok none =>
                      -- a rejection with no edge of its own fails the run
                      { db := failRun (s.updateRun rid PipelineRun.clearReason) now rid
                          run.workspaceId }
                  | .ok (some _) =>
                      advanceOrFinish cfg (s.updateRun rid PipelineRun.resume) now rid gate.stage
                        .onReviewRejected []

def defaultReviewTimeoutHours : Nat := 48

def ReviewGate.escalate (timeoutAt : Instant) (gate : ReviewGate) : ReviewGate :=
  { gate with
    status := .escalated
    escalationLevel := gate.escalationLevel + 1
    timeoutAt := some timeoutAt }

def ReviewGate.timeOut (gate : ReviewGate) : ReviewGate := { gate with status := .timedOut }

/-- `handle_review_timeout`: escalate first, time out the second time. -/
def handleReviewTimeout (s : Db) (now : Instant) (gid : GateId) : Db :=
  match s.gates[gid]? with
  | none => s
  | some gate =>
      -- an escalated gate is not awaiting either, so the re-armed timeout ends here
      if gate.status ≠ .awaiting then s
      else if gate.escalationLevel = 0 then
        let newTimeout := now + seconds (defaultReviewTimeoutHours * 3600)
        let s1 := { s.updateGate gid (ReviewGate.escalate newTimeout) with
          jobs := s.jobs ++ [reviewTimeoutJob now gate.workspaceId gid newTimeout] }
        s1.emit now .reviewEscalated gate.workspaceId gate.pipelineRunId (some gid)
      else
        let s := (s.updateGate gid ReviewGate.timeOut).emit now
          .reviewTimedOut gate.workspaceId gate.pipelineRunId (some gid)
        match s.runs[gate.pipelineRunId]? with
        | none => s
        | some run => failRun s now gate.pipelineRunId run.workspaceId

def ReviewGate.decideBy (reviewer : UserId) (gate : ReviewGate) : ReviewGate :=
  { gate with decidedBy := some reviewer }

/-- `submit_review_decision`: record the decision and emit its event. Returns the event. -/
def submitReviewDecision (s : Db) (now : Instant) (gid : GateId) (reviewer : UserId)
    (approved : Bool) (notes : Option String) : Except Err (Db × EventId) :=
  match s.gates[gid]? with
  | none => .error .gateNotFound
  | some gate =>
      if gate.status ≠ .awaiting then .error (.gateNotAwaiting gid)
      else
        match s.runs[gate.pipelineRunId]? with
        | none => .error (.gateWithoutRun gid)
        | some run =>
            let decision : ReviewDecision :=
              { workspaceId := gate.workspaceId
                contentItemId := run.contentItemId
                reviewerId := reviewer
                decision := if approved then .approved else .rejected
                notes := notes }
            -- the gate stays awaiting: the delivered event decides it
            let s1 := { s.updateGate gid (ReviewGate.decideBy reviewer) with
              decisions := s.decisions ++ [decision] }
            .ok (s1.emit now (if approved then .reviewApproved else .reviewRejected)
                gate.workspaceId gate.pipelineRunId (some gid),
              s.outbox.length)

end HumanGate
