import HumanGate.Model.DraftDesk
import HumanGate.Model.Operations
import HumanGate.Model.Publication

set_option autoImplicit false

/-! # Content jobs

`create_content_job` of `app/services/content_desk.py`: a draft with a run of its own, which is
taken to the review at once. `definition` is what `ensure_desk_workflow` returns; `str` of an
identifier and of an amount are parameters. `DeskDb` adds to the orchestration database the columns
that only the desk reads, and the table of `app/models/publication_policy.py`.
-/

namespace HumanGate

open Lib Lib.Calendar

def PipelineRunStatus.value : PipelineRunStatus → String
  | .created => "created"
  | .running => "running"
  | .paused => "paused"
  | .compensating => "compensating"
  | .succeeded => "succeeded"
  | .failed => "failed"
  | .cancelled => "cancelled"

def ReviewGateStatus.value : ReviewGateStatus → String
  | .awaiting => "awaiting"
  | .approved => "approved"
  | .rejected => "rejected"
  | .timedOut => "timed_out"
  | .escalated => "escalated"

/-! ## The tables -/

structure PublicationEligibility where
  id : Nat
  workspaceId : WorkspaceId
  contentItemId : ItemId
  platform : PyStr
  syntheticMediaDisclosed : Bool
  rightsConfirmedBy : Option UserId
  rightsConfirmedAt : Option Instant
  originalityFingerprint : Option PyStr
  reviewGateId : Option GateId

/-- `topic` is a column of `content_items`, `idempotencyKey` one of `pipeline_runs`. -/
structure DeskDb where
  db : Db
  topic : ItemId → String := fun _ => ""
  idempotencyKey : RunId → Option String := fun _ => none
  eligibility : List PublicationEligibility := []

/-! ## Arguments, results, errors -/

structure ContentJobArgs where
  topic : PyStr
  scriptBody : PyStr
  scriptHook : Option PyStr := none
  scriptCta : Option PyStr := none
  targetLengthSeconds : Option ℤ := none
  idempotencyKey : Option PyStr := none

structure ContentJobResult where
  contentItemId : ItemId
  pipelineRunId : RunId
  reviewGateId : GateId
  topic : String
  currentStage : String
  runStatus : String
  gateStatus : String

inductive ContentJobError where
  | unstorable
  | multipleResultsFound
  | incompleteJob
  | draft (e : PyException)
  | controller (e : Err)
  | spendBudgetExceeded
  | notInReview

/-- `str(exc)`, for the exceptions that `create_content_job` raises itself. -/
def ContentJobError.message : ContentJobError → Option String
  | .incompleteJob => some "idempotent content job is missing review gate or content item"
  | .spendBudgetExceeded => some "workspace spend cap exceeded; pipeline run paused on spend_hold"
  | .notInReview => some "content job failed to enter Human Review Gate"
  | _ => none

/-- A text on its way to the database, which takes neither half of a surrogate pair nor NUL. -/
def storeText (text : PyStr) : Except ContentJobError String :=
  if text.any fun c => isSurrogate c || c.val == 0 then .error .unstorable
  else .ok (String.ofList (text.map fun c => Char.ofNat c.val))

def storeOption : Option PyStr → Except ContentJobError (Option String)
  | none => .ok none
  | some text => (storeText text).map some

/-! ## The job that is there -/

/-- The runs of the workspace with the key. -/
def runsWithKey (s : DeskDb) (ws : WorkspaceId) (key : Option String) : List RunId :=
  match key with
  | none => []
  | some _ =>
      (Table.select (fun run => run.workspaceId == ws) s.db.runs).filter fun rid =>
        s.idempotencyKey rid == key

def gatesOfRun (s : Db) (rid : RunId) : List GateId :=
  Table.select (fun gate => gate.pipelineRunId == rid) s.gates

/-- The result of a job that is asked for again. -/
def replayJob (s : DeskDb) (rid : RunId) : Except ContentJobError ContentJobResult :=
  match s.db.runs[rid]?, gatesOfRun s.db rid with
  | _, _ :: _ :: _ => .error .multipleResultsFound
  | some run, [gid] =>
      match s.db.gates[gid]?, s.db.items[run.contentItemId]? with
      | some gate, some _ =>
          .ok { contentItemId := run.contentItemId
                pipelineRunId := rid
                reviewGateId := gid
                topic := s.topic run.contentItemId
                currentStage := run.currentStage.value
                runStatus := run.status.value
                gateStatus := gate.status.value }
      | _, _ => .error .incompleteJob
  | _, _ => .error .incompleteJob

/-! ## A new job -/

/-- `a or b`. -/
def orElse (a : Option PyStr) (b : PyStr) : PyStr :=
  match a with
  | none | some [] => b
  | some text => text

/-- Hook, body and call to action: the caller's, or generated ones. -/
def jobScript (args : ContentJobArgs) :
    Except ContentJobError (Option PyStr × PyStr × Option PyStr) :=
  let body := args.scriptBody.strip
  if body ≠ [] then .ok (args.scriptHook, body, args.scriptCta)
  else
    match DraftDesk.generateScriptDraft args.topic args.targetLengthSeconds with
    | .error e => .error (.draft e)
    | .ok generated =>
        .ok (some (orElse args.scriptHook generated.scriptHook), generated.scriptBody,
          some (orElse args.scriptCta generated.scriptCta))

/-- The row that the script is stored in. -/
def storedVersion (args : ContentJobArgs) (item : ItemId) :
    Except ContentJobError ContentVersion := do
  let (hook, body, cta) ← jobScript args
  return { contentItemId := item
           scriptHook := ← storeOption hook
           scriptBody := some (← storeText body)
           scriptCta := ← storeOption cta }

/-- The item and its version. -/
def Db.addDraft (s : Db) (ws : WorkspaceId) (version : ContentVersion) : Db :=
  { s with
    items := s.items ++ [⟨ws, some s.versions.length⟩]
    versions := s.versions ++ [version] }

def draftDeskProvider : String := "draft_desk"

/-- The jobs for the stage that the desk has completed itself. -/
def orphanJobs (s : Db) (rid : RunId) : List JobId :=
  Table.select (fun j => j.refId == .run rid && j.isWork
    && j.refTable == ContentStage.scripting.value && j.isLive) s.jobs

def JobSchedule.cancelOrphan (j : JobSchedule) : JobSchedule :=
  { j with status := .cancelled, leaseExpiresAt := none }

/-- From the started run to the review: reserve, succeed, commit, and cancel what is left over. -/
def completeDraft (cfg : Config) (s : Db) (now : Instant) (ws : WorkspaceId) (rid : RunId)
    (context : JsonObject) : Except ContentJobError Db :=
  let estimate := cfg.settings.defaultStageEstimateUsd
  match reserveSpend s now rid ws .scripting draftDeskProvider estimate with
  | (_, none) => .error .spendBudgetExceeded
  | (reserved, some resId) =>
      let call := handleStageSuccess cfg reserved now rid .scripting context
      match call.raised with
      | some e => .error (.controller e)
      | none =>
          match commitSpend call.db now rid ws resId (.finite (estimate : ℚ)) with
          | .error e => .error (.controller e)
          | .ok committed =>
              .ok (updateJobs committed JobSchedule.cancelOrphan (orphanJobs committed rid))

/-- The one gate of the run, which is awaiting. -/
def enteredGate (s : Db) (rid : RunId) : Except ContentJobError GateId :=
  match gatesOfRun s rid with
  | [] => .error .notInReview
  | [gid] =>
      if (s.gates[gid]?).map ReviewGate.status = some .awaiting then .ok gid
      else .error .notInReview
  | _ :: _ :: _ => .error .multipleResultsFound

variable (idText : VersionId → String) (amountText : ℚ≥0 → String)

def resultContext (cfg : Config) (vid : VersionId) : JsonObject :=
  [("draft_version_id", .str (idText vid)),
   ("estimated_cost_usd", .str (amountText cfg.settings.defaultStageEstimateUsd)),
   ("provider", .str draftDeskProvider)]

/-- The draft, its run, and the way to the review. -/
def newContentJob (cfg : Config) (s : DeskDb) (now : Instant) (ws : WorkspaceId)
    (definition : DefinitionId) (key : Option String) (args : ContentJobArgs) :
    Except ContentJobError (DeskDb × ContentJobResult) :=
  let item := s.db.items.length
  let rid := s.db.runs.length
  match storedVersion args item, storeText args.topic with
  | .error e, _ | _, .error e => .error e
  | .ok version, .ok topic =>
      let started := startRun cfg (s.db.addDraft ws version) now ws item definition
      match started.raised with
      | some e => .error (.controller e)
      | none =>
          match completeDraft cfg started.db now ws rid
              (resultContext idText amountText cfg s.db.versions.length) with
          | .error e => .error e
          | .ok db =>
              match enteredGate db rid with
              | .error e => .error e
              | .ok gid =>
                  .ok ({ s with
                      db := db.flush
                      topic := Function.update s.topic item topic
                      idempotencyKey := Function.update s.idempotencyKey rid key },
                    { contentItemId := item
                      pipelineRunId := rid
                      reviewGateId := gid
                      topic := topic
                      currentStage := ContentStage.review.value
                      runStatus := (db.runs[rid]?).elim "" fun run => run.status.value
                      gateStatus := ReviewGateStatus.awaiting.value })

/-- `create_content_job`. A key that was used before returns the job that is there. -/
def createContentJob (cfg : Config) (s : DeskDb) (now : Instant) (ws : WorkspaceId)
    (definition : DefinitionId) (args : ContentJobArgs) :
    Except ContentJobError (DeskDb × ContentJobResult) :=
  match storeOption args.idempotencyKey with
  | .error e => .error e
  | .ok key =>
      match runsWithKey s ws key with
      | _ :: _ :: _ => .error .multipleResultsFound
      | [rid] => (replayJob s rid).map fun result => (s, result)
      | [] => newContentJob idText amountText cfg s now ws definition key args

end HumanGate
