import HumanGate.Model.ContentJob

set_option autoImplicit false

/-! # Publishing

`assert_publishable` of `app/services/publication_policy.py`, and the transactions of the desk: the
orchestration, content jobs, and writes of the eligibility table, which may be any. `str.lower` and
`repr` of a string are parameters.
-/

namespace HumanGate

open Lib Lib.Calendar

inductive PublicationError where
  | publicationBlocked (code : String) (message : PyStr)
  | multipleResultsFound
  deriving DecidableEq

structure PublicationDecision where
  contentItemId : ItemId
  platform : PyStr
  eligibilityId : Nat
  reviewGateId : GateId
  deriving DecidableEq

/-- `SUPPORTED_PLATFORMS`. -/
def supportedPlatforms : List PyStr :=
  [PyStr.lit "youtube", PyStr.lit "tiktok", PyStr.lit "instagram"]

/-- A control that is not satisfied. -/
def block {α : Type} (code message : String) : Except PublicationError α :=
  .error (.publicationBlocked code (PyStr.lit message))

/-! ## The controls -/

/-- The row of the item and the platform. -/
def eligibilityRow (s : DeskDb) (ws : WorkspaceId) (item : ItemId) (platform : PyStr) :
    Except PublicationError PublicationEligibility :=
  match s.eligibility.filter fun row =>
      row.workspaceId == ws && row.contentItemId == item && row.platform == platform with
  | [] => block "eligibility_missing"
      "no publication eligibility record exists for this item and platform"
  | [row] => .ok row
  | _ :: _ :: _ => .error .multipleResultsFound

/-- The gate that the row names. -/
def approvedGate (s : Db) (ws : WorkspaceId) (row : PublicationEligibility) :
    Except PublicationError (GateId × ReviewGate) :=
  match row.reviewGateId with
  | none => block "review_gate_missing" "publication requires an approved human review gate"
  | some gid =>
      match (s.gates[gid]?).filter fun gate => gate.workspaceId == ws with
      | none => block "review_gate_missing"
          "the referenced review gate does not exist in this workspace"
      | some gate =>
          if gate.status ≠ .approved then
            block "review_gate_not_approved"
              s!"review gate status is '{gate.status.value}'; publication requires 'approved'"
          else .ok (gid, gate)

/-- The run of the gate is one of the item. -/
def checkRun (s : Db) (ws : WorkspaceId) (item : ItemId) (gate : ReviewGate) :
    Except PublicationError Unit :=
  match (s.runs[gate.pipelineRunId]?).filter fun run => run.workspaceId == ws with
  | none => block "review_gate_missing"
      "the referenced review gate has no pipeline run in this workspace"
  | some run =>
      if run.contentItemId ≠ item then
        block "review_gate_content_item_mismatch"
          "the approved review gate belongs to a different content item"
      else .ok ()

/-- The gate shows the current version of the item. -/
def checkVersion (s : Db) (ws : WorkspaceId) (item : ItemId) (gate : ReviewGate) :
    Except PublicationError Unit :=
  match (s.items[item]?).filter fun row => row.workspaceId == ws with
  | none => block "content_item_missing"
      "the requested content item does not exist in this workspace"
  | some row =>
      if gate.contentVersionId = none ∨ row.currentVersionId = none
          ∨ gate.contentVersionId ≠ row.currentVersionId then
        block "review_gate_content_version_mismatch"
          "the approved review gate does not bind to the current content version"
      else .ok ()

/-- Disclosure and rights, and the fingerprint. -/
def attestedFingerprint (row : PublicationEligibility) : Except PublicationError PyStr :=
  if row.syntheticMediaDisclosed = false then
    block "synthetic_media_not_disclosed"
      "platform policy requires AI/synthetic-media disclosure before publishing"
  else if row.rightsConfirmedBy = none ∨ row.rightsConfirmedAt = none then
    block "rights_not_confirmed" "a named reviewer must confirm content rights before publishing"
  else
    match row.originalityFingerprint with
    | none | some [] => block "originality_fingerprint_missing"
        "an originality fingerprint is required before publishing"
    | some fingerprint => .ok fingerprint

/-- No other item has the fingerprint. -/
def checkOriginal (s : DeskDb) (ws : WorkspaceId) (item : ItemId) (platform fingerprint : PyStr) :
    Except PublicationError Unit :=
  if s.eligibility.any fun row => row.workspaceId == ws && row.platform == platform
      && row.originalityFingerprint == some fingerprint && row.contentItemId != item then
    block "duplicate_content_for_platform"
      ("identical content was already prepared for this platform in this " ++
        "workspace; repetitive mass output is not publishable")
  else .ok ()

variable (lower repr : PyStr → PyStr)

/-- `(platform or "").strip().lower()`. -/
def normalizedPlatform (platform : Option PyStr) : PyStr := lower (platform.getD []).strip

def unsupportedPlatform (platform : Option PyStr) : PublicationError :=
  .publicationBlocked "unsupported_platform"
    (PyStr.lit "platform " ++ platform.elim (PyStr.lit "None") repr ++
      PyStr.lit " is not an approved publication target")

/-- `assert_publishable`. -/
def assertPublishable (s : DeskDb) (ws : WorkspaceId) (item : ItemId) (platform : Option PyStr) :
    Except PublicationError PublicationDecision :=
  let normalized := normalizedPlatform lower platform
  if normalized ∉ supportedPlatforms then .error (unsupportedPlatform repr platform)
  else do
    let row ← eligibilityRow s ws item normalized
    let (gid, gate) ← approvedGate s.db ws row
    checkRun s.db ws item gate
    checkVersion s.db ws item gate
    let fingerprint ← attestedFingerprint row
    checkOriginal s ws item normalized fingerprint
    return { contentItemId := item
             platform := normalized
             eligibilityId := row.id
             reviewGateId := gid }

/-! ## Transactions -/

inductive DeskAction where
  | orchestrate (action : Action)
  | createContentJob (ws : WorkspaceId) (definition : DefinitionId) (args : ContentJobArgs)
  | writeEligibility (rows : List PublicationEligibility)

structure DeskOp where
  now : Instant
  action : DeskAction

variable (idText : VersionId → String) (amountText : ℚ≥0 → String)

/-- An exception rolls the transaction back. -/
def deskExec (cfg : Config) (s : DeskDb) (o : DeskOp) : DeskDb :=
  match o.action with
  | .orchestrate action => { s with db := exec cfg s.db ⟨o.now, action⟩ }
  | .createContentJob ws definition args =>
      match createContentJob idText amountText cfg s o.now ws definition args with
      | .error _ => s
      | .ok (s', _) => s'
  | .writeEligibility rows => { s with eligibility := rows }

/-- What the schema of the decision requires: an approval names the version that was reviewed. A
decision is delivered by the call that records it. -/
def Action.namesVersion : Action → Bool
  | .decideReviewGate _ _ _ approved expected _ => !approved || expected.isSome
  | .dispatchOne .. | .submitAndDeliver .. => false
  | _ => true

def DeskAction.namesVersion : DeskAction → Bool
  | .orchestrate action => action.namesVersion
  | .createContentJob .. | .writeEligibility .. => true

/-- The desk, and everything that goes on around it. -/
def publicationDesk (cfg : Config) : System DeskDb DeskOp where
  init s := Fresh s.db
  allowed _ o := o.action.namesVersion = true
  exec := deskExec idText amountText cfg

/-- An approval: the gate, the reviewer, and the version that the reviewer has named. -/
structure Approval where
  gate : GateId
  reviewer : UserId
  version : VersionId
  deriving DecidableEq

/-- The approval that a transaction is, if it is one and goes through. -/
def approvals (cfg : Config) (s : DeskDb) (o : DeskOp) : List Approval :=
  match o.action with
  | .orchestrate (.decideReviewGate ws gid reviewer true (some version) notes) =>
      if (decideReviewGate cfg s.db o.now ws gid reviewer true (some version) notes).raised = none
      then [⟨gid, reviewer, version⟩]
      else []
  | _ => []

end HumanGate
