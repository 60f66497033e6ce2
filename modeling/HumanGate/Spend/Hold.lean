import HumanGate.Model.Desk

set_option autoImplicit false

/-! # The spend hold

A reservation that would exceed a cap pauses the run for `spend_hold`, and the scheduler parks
the job to try again a minute later. The retry cannot succeed: `dispatch_stage` refuses a held
run before it comes to the reservation, and nothing else takes the hold back. So the hold
outlives its reason.
-/

namespace HumanGate

open Lib Lib.Calendar

/-- The run `rid` is held, its parked job `jid` is due, and nothing stands in the way any more:
the cap has room for the default estimate, the workspace is below its concurrency limit, the
provider has capacity and a worker is free. -/
structure HoldCanEnd (cfg : Config) (s : Db) (now : Instant) (jid : JobId) (job : JobSchedule)
    (rid : RunId) (run : PipelineRun) (rows : List WorkerId) : Prop where
  hasJob : s.jobs[jid]? = some job
  work : job.isWork = true
  live : job.isLive = true
  due : job.runAfter ≤ now
  ref : job.refId = .run rid
  hasRun : s.runs[rid]? = some run
  paused : run.status = .paused
  held : run.pauseReason = some .spendHold
  room : exceededCap s now run.workspaceId (effectiveProvider none)
    cfg.settings.defaultStageEstimateUsd = none
  belowLimit : inFlightCount s job.workspaceId < maxConcurrentAssignments cfg job.workspaceId
  capacity : hasProviderCapacity cfg s job.workspaceId none = true
  worker : (selectWorker s job.refTable rows).isSome

/-- Processing the job dispatches it: outcome `DISPATCHED`, the run running without a pause
reason, one open reservation for the stage. -/
def HoldEnds (cfg : Config) (s : Db) (now : Instant) (jid : JobId) (job : JobSchedule)
    (rid : RunId) (rows : List WorkerId) (jitter : Nat) : Prop :=
  ∃ s' run' stage, processWorkJob cfg s now jid job rid rows jitter = .ok (s', .dispatched) ∧
    processLeasedJob cfg s now jid rows jitter = .ok s' ∧
    s'.runs[rid]? = some run' ∧ run'.status = .running ∧ run'.pauseReason = none ∧
    ContentStage.ofText? job.refTable = some stage ∧ (openReservationsFor s' rid stage).length = 1

/-- A held run is refused before anything is reserved. -/
theorem dispatchStage_of_held {cfg : Config} {s : Db} {now : Instant} {a : DispatchArgs}
    {rows : List WorkerId} {run : PipelineRun} (hrun : s.runs[a.pipelineRunId]? = some run)
    (hp : run.status = .paused) (hh : run.pauseReason = some .spendHold)
    (hlim : inFlightCount s a.workspaceId < maxConcurrentAssignments cfg a.workspaceId) :
    dispatchStage cfg s now a rows = .ok (s, .spendHold) := by
  have hrefuse : runRefusal s.runs[a.pipelineRunId]? = some .spendHold := by
    rw [hrun]
    simp [runRefusal, hp, hh, PipelineRunStatus.isTerminal]
  unfold dispatchStage
  rw [if_neg (Nat.not_le.mpr hlim), hrefuse]

/-- **The hold never ends.** Whenever it could, the job is parked again and the run, the
assignments and the ledger stay as they are. -/
theorem spend_hold_stays (cfg : Config) (s : Db) (now : Instant) (jid : JobId)
    (job : JobSchedule) (rid : RunId) (run : PipelineRun) (rows : List WorkerId) (jitter : Nat)
    (h : HoldCanEnd cfg s now jid job rid run rows) :
    processWorkJob cfg s now jid job rid rows jitter
      = .ok (s.updateJob jid (JobSchedule.park (now + seconds spendHoldRetrySeconds)), .spendHold) ∧
    ¬ HoldEnds cfg s now jid job rid rows jitter := by
  have hdispatch : dispatchStage cfg s now (job.dispatchArgs rid) rows = .ok (s, .spendHold) :=
    dispatchStage_of_held h.hasRun h.paused h.held h.belowLimit
  have hwork : processWorkJob cfg s now jid job rid rows jitter
      = .ok (s.updateJob jid (JobSchedule.park (now + seconds spendHoldRetrySeconds)),
          .spendHold) := by
    unfold processWorkJob
    rw [hdispatch]
    rfl
  refine ⟨hwork, ?_⟩
  rintro ⟨s', run', stage, hd, _⟩
  rw [hwork] at hd
  cases hd

/-- The workspace may spend one cent a day and has spent it. -/
def heldDb : Db :=
  { deskDb with
    caps := [⟨0, none, usd 1 / usd 100, usd 1⟩]
    logs := [⟨0, "draft_desk", some .scripting, usd 1 / usd 100, 0⟩] }

/-- A run is started and its first job processed: over the cap, so the run is held. -/
def heldState : Db :=
  runOps deskConfig heldDb [⟨0, .startRun 0 0 0⟩, ⟨0, .processLeasedJob 0 [0] 0⟩]

def heldJob : JobSchedule :=
  (stageJob deskConfig 0 0 0 "scripting" 0 0).park (seconds spendHoldRetrySeconds)

def heldRun : PipelineRun where
  workspaceId := 0
  contentItemId := 0
  currentStage := .scripting
  status := .paused
  pauseReason := some .spendHold
  definitionId := some 0
  startedAt := some 0

/-- The next day the cap has room again, and the job is due. -/
theorem heldState_canEnd :
    HoldCanEnd deskConfig heldState microsPerDay 0 heldJob 0 heldRun [0] where
  hasJob := by decide +kernel
  work := rfl
  live := rfl
  due := by decide
  ref := rfl
  hasRun := by decide +kernel
  paused := rfl
  held := rfl
  room := by decide +kernel
  belowLimit := by decide +kernel
  capacity := rfl
  worker := by decide +kernel

theorem heldState_stays :
    HoldCanEnd deskConfig heldState microsPerDay 0 heldJob 0 heldRun [0] ∧
      ¬ HoldEnds deskConfig heldState microsPerDay 0 heldJob 0 [0] 0 :=
  ⟨heldState_canEnd,
    (spend_hold_stays deskConfig heldState microsPerDay 0 heldJob 0 heldRun [0] 0
      heldState_canEnd).2⟩

/-- A reachable state in which the hold could end, and does not: the job is parked again. -/
theorem hold_outlives_reason :
    (orchestration deskConfig fun _ _ => True).Reachable heldState ∧
      HoldCanEnd deskConfig heldState microsPerDay 0 heldJob 0 heldRun [0] ∧
      (processWorkJob deskConfig heldState microsPerDay 0 heldJob 0 [0] 0).map Prod.snd
        = .ok .spendHold ∧
      ¬ HoldEnds deskConfig heldState microsPerDay 0 heldJob 0 [0] 0 := by
  have hout : (processWorkJob deskConfig heldState microsPerDay 0 heldJob 0 [0] 0).map Prod.snd
      = .ok .spendHold := by decide +kernel
  refine ⟨runOps_reachable deskConfig ⟨rfl, rfl, rfl, rfl, rfl, rfl, rfl, rfl, rfl⟩ _,
    heldState_canEnd, hout, ?_⟩
  rintro ⟨s', run', stage, hd, _⟩
  rw [hd] at hout
  cases hout

end HumanGate
