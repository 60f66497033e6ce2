import HumanGate.Lib.Table
import HumanGate.Model.ContentDepartment

set_option autoImplicit false

/-! # Production and compliance

`app/services/production.py` and `app/services/compliance.py`: artifacts of production jobs, Media
QA bound to the hash of an artifact, compliance and the Chief Auditor, and what is recorded of an
artifact's readiness and of its eligibility for publication. Only jobs that are marked as test data
have artifacts. Where the query has no order, `scan` says which row comes first.
-/

namespace HumanGate

open Lib Lib.Calendar

/-! ## Rows -/

structure ProductionRow where
  job : ProductionJob
  testData : Bool := false

/-- Unique on the workspace and the hash. -/
structure FinalArtifact where
  workspaceId : WorkspaceId
  productionJobId : Nat
  contentVersionId : Nat
  artifactHash : String
  renderProvider : String := "test_fixture"
  status : String := "ready"
  testData : Bool := true

/-- Unique on the artifact and the hash. -/
structure MediaQaResult where
  workspaceId : WorkspaceId
  finalArtifactId : Nat
  artifactHash : String
  auditorWorkerId : String
  status : String

/-- Unique on the workspace and the artifact. -/
structure ProductionReadiness where
  workspaceId : WorkspaceId
  finalArtifactId : Nat
  contentVersionId : Nat
  mediaQaState : String
  complianceState : String := "not_run"
  chiefAuditState : String := "not_run"
  humanReviewState : String := "blocked"
  status : String := "blocked"
  blockingReasons : List String

/-- Unique on the artifact and the reason. -/
structure ArtifactInvalidation where
  workspaceId : WorkspaceId
  finalArtifactId : Nat
  mediaQaResultId : Option Nat
  reason : String

structure ArtifactRightsEvidence where
  workspaceId : WorkspaceId
  finalArtifactId : Nat
  rightsStatus : String

/-- Unique on the workspace, the type of content and the version. -/
structure AuditGateManifest where
  workspaceId : WorkspaceId
  contentType : String
  manifestVersion : Nat
  requiredGates : List String

structure ComplianceSnapshot where
  mediaQa : String
  rights : String

structure ComplianceAudit where
  workspaceId : WorkspaceId
  finalArtifactId : Nat
  artifactHash : String
  contentVersionId : Nat
  targetPlatform : String
  complianceWorkerId : String
  inputSnapshot : Option ComplianceSnapshot
  status : String
  riskLevel : String
  rightsStatus : String
  findings : List (String × String)
  providerState : String

/-- Unique on the audit and the reason. -/
structure ComplianceInvalidation where
  workspaceId : WorkspaceId
  complianceAuditId : Nat
  finalArtifactId : Nat
  reason : String

structure GateSnapshot where
  required : List String
  mediaQa : String
  compliance : String

/-- The four `_status` columns of a Chief Audit are always written alike: `reconciliationStatus`. -/
structure ChiefAudit where
  workspaceId : WorkspaceId
  finalArtifactId : Nat
  artifactHash : String
  contentVersionId : Nat
  gateManifestId : Nat
  chiefAuditorWorkerId : String
  gateSnapshot : GateSnapshot
  reconciliationStatus : String
  blockers : List String
  status : String

/-- Unique on the workspace, the artifact and the platform. -/
structure ArtifactPublicationEligibility where
  workspaceId : WorkspaceId
  finalArtifactId : Nat
  artifactHash : String
  contentVersionId : Nat
  targetPlatform : String
  chiefAuditId : Option Nat
  status : String := "blocked"
  blockingReasons : List String
  publicationEligible : Bool := false

structure ProductionDb where
  jobs : List ProductionRow := []
  artifacts : List FinalArtifact := []
  mediaQa : List MediaQaResult := []
  readiness : List ProductionReadiness := []
  artifactInvalidations : List ArtifactInvalidation := []
  rights : List ArtifactRightsEvidence := []
  manifests : List AuditGateManifest := []
  complianceAudits : List ComplianceAudit := []
  complianceInvalidations : List ComplianceInvalidation := []
  chiefAudits : List ChiefAudit := []
  eligibility : List ArtifactPublicationEligibility := []

inductive ArtifactError where
  | notFound (text : String)
  | gate (text : String)
  | multipleResults
  | integrity (key : String)
  deriving DecidableEq

/-! ## Queries -/

/-- `.scalars().first()` of a query without an order: the position of one of the rows. -/
def firstId {ρ : Type} (scan : Nat → Nat) (p : ρ → Bool) (rows : List ρ) : Option Nat :=
  ((Table.select p rows).insertionSort fun i j => scan i ≤ scan j).head?

def firstRow {ρ : Type} (scan : Nat → Nat) (p : ρ → Bool) (rows : List ρ) : Option ρ :=
  (firstId scan p rows).bind fun i => rows[i]?

/-- `scalar_one_or_none`. -/
def oneId {ρ : Type} (p : ρ → Bool) (rows : List ρ) : Except ArtifactError (Option Nat) :=
  match Table.select p rows with
  | [] => .ok none
  | [i] => .ok (some i)
  | _ => .error .multipleResults

def findArtifact (db : ProductionDb) (ws : WorkspaceId) (id : Nat) :
    Except ArtifactError FinalArtifact :=
  match db.artifacts[id]?.filter fun a => a.workspaceId == ws with
  | none => .error (.notFound "final artifact not found")
  | some a => .ok a

/-- The Media QA of the artifact as it is. -/
def MediaQaResult.covers (ws : WorkspaceId) (id : Nat) (a : FinalArtifact) (q : MediaQaResult) :
    Bool :=
  q.workspaceId == ws && q.finalArtifactId == id && q.artifactHash == a.artifactHash

def ComplianceAudit.covers (ws : WorkspaceId) (id : Nat) (a : FinalArtifact) (c : ComplianceAudit) :
    Bool :=
  c.workspaceId == ws && c.finalArtifactId == id && c.artifactHash == a.artifactHash

def ChiefAudit.covers (ws : WorkspaceId) (id : Nat) (a : FinalArtifact) (c : ChiefAudit) : Bool :=
  c.workspaceId == ws && c.finalArtifactId == id && c.artifactHash == a.artifactHash

/-! ## Production -/

/-- `create_production_run`, with the row that it inserts. -/
def insertProductionRun (content : ContentDb) (db : ProductionDb) (r : ProductionRequest) :
    Except ProductionError ProductionDb :=
  (createProductionRun content r).map fun job => { db with jobs := db.jobs ++ [⟨job, false⟩] }

def createTestFixtureArtifact (db : ProductionDb) (ws : WorkspaceId) (jobId : Nat)
    (artifactHash : String) : Except ArtifactError ProductionDb :=
  match db.jobs[jobId]?.filter fun row => row.job.request.workspaceId == ws with
  | none => .error (.notFound "production job not found")
  | some row =>
      if row.testData = false then
        .error (.gate "test fixtures are allowed only for test-marked production jobs")
      else if db.artifacts.any fun a => a.workspaceId == ws && a.artifactHash == artifactHash then
        .error (.gate "identical final artifact hash already exists in this workspace")
      else
        .ok { db with artifacts := db.artifacts ++ [{
          workspaceId := ws
          productionJobId := jobId
          contentVersionId := row.job.contentVersionId
          artifactHash := artifactHash }] }

/-- The arguments of `create_test_media_qa`. -/
structure MediaQaRequest where
  workspaceId : WorkspaceId
  finalArtifactId : Nat
  auditorWorkerId : String
  producerWorkerId : String
  status : String

def newMediaQa (r : MediaQaRequest) (a : FinalArtifact) : MediaQaResult where
  workspaceId := r.workspaceId
  finalArtifactId := r.finalArtifactId
  artifactHash := a.artifactHash
  auditorWorkerId := r.auditorWorkerId
  status := r.status

def newReadiness (r : MediaQaRequest) (a : FinalArtifact) : ProductionReadiness where
  workspaceId := r.workspaceId
  finalArtifactId := r.finalArtifactId
  contentVersionId := a.contentVersionId
  mediaQaState := r.status
  blockingReasons := ["Compliance, Chief Auditor, and Human Review remain mandatory " ++
    "and are not fixture-approved"]

def createTestMediaQa (db : ProductionDb) (r : MediaQaRequest) :
    Except ArtifactError ProductionDb := do
  let a ← findArtifact db r.workspaceId r.finalArtifactId
  if a.testData = false then throw (.gate "test QA fixtures require a test-marked artifact")
  else if r.auditorWorkerId = r.producerWorkerId then
    throw (.gate "Producer cannot create or approve its own Media QA result")
  else if db.mediaQa.any fun q => q.finalArtifactId == r.finalArtifactId
      && q.artifactHash == a.artifactHash then
    throw (.integrity "uq_media_qa_artifact_hash")
  else if db.readiness.any fun p => p.workspaceId == r.workspaceId
      && p.finalArtifactId == r.finalArtifactId then
    throw (.integrity "uq_production_readiness_artifact")
  else
    return { db with
      mediaQa := db.mediaQa ++ [newMediaQa r a]
      readiness := db.readiness ++ [newReadiness r a] }

/-- The arguments of the calls that name an artifact. -/
structure ArtifactRequest where
  workspaceId : WorkspaceId
  finalArtifactId : Nat
  scan : Nat → Nat := fun id => id

def ProductionReadiness.invalidate (p : ProductionReadiness) : ProductionReadiness :=
  { p with
    mediaQaState := "invalidated"
    complianceState := "invalidated"
    chiefAuditState := "invalidated"
    humanReviewState := "blocked"
    status := "blocked"
    blockingReasons := ["artifact changed or was invalidated; rerun required audits"] }

/-- `invalidate_artifact`; `scan` decides between Media QA results of the same instant. -/
def invalidateArtifact (db : ProductionDb) (r : ArtifactRequest) (reason : String) :
    Except ArtifactError ProductionDb := do
  let _ ← findArtifact db r.workspaceId r.finalArtifactId
  let readiness ← oneId (fun p : ProductionReadiness => p.workspaceId == r.workspaceId
    && p.finalArtifactId == r.finalArtifactId) db.readiness
  if db.artifactInvalidations.any fun i => i.finalArtifactId == r.finalArtifactId
      && i.reason == reason then
    throw (.integrity "uq_artifact_invalidation_reason")
  else
    return { db with
      artifactInvalidations := db.artifactInvalidations ++ [{
        workspaceId := r.workspaceId
        finalArtifactId := r.finalArtifactId
        mediaQaResultId := firstId r.scan (fun q : MediaQaResult => q.workspaceId == r.workspaceId
          && q.finalArtifactId == r.finalArtifactId) db.mediaQa
        reason := reason }]
      readiness := readiness.elim db.readiness fun i =>
        db.readiness.modify i .invalidate }

/-! ## Compliance -/

/-- `DEFAULT_GATES`. -/
def defaultGates : List String :=
  ["research_audit", "strategy_audit", "language_audit", "fact_audit", "brand_audit",
   "originality_audit", "media_qa", "compliance", "chief_audit", "human_review"]

/-- The Media QA that the query for the artifact finds. -/
def mediaQaOf (db : ProductionDb) (r : ArtifactRequest) (a : FinalArtifact) :
    Option MediaQaResult :=
  firstRow r.scan (MediaQaResult.covers r.workspaceId r.finalArtifactId a) db.mediaQa

def rightsOf (db : ProductionDb) (r : ArtifactRequest) : Option ArtifactRightsEvidence :=
  firstRow r.scan (fun e => e.workspaceId == r.workspaceId
    && e.finalArtifactId == r.finalArtifactId) db.rights

def complianceOf (db : ProductionDb) (r : ArtifactRequest) (a : FinalArtifact) :
    Option ComplianceAudit :=
  firstRow r.scan (ComplianceAudit.covers r.workspaceId r.finalArtifactId a) db.complianceAudits

/-- `create_compliance_run`. No provider is configured. -/
def createComplianceRun (db : ProductionDb) (r : ArtifactRequest) (targetPlatform : String) :
    Except ArtifactError ProductionDb := do
  let a ← findArtifact db r.workspaceId r.finalArtifactId
  return { db with complianceAudits := db.complianceAudits ++ [{
    workspaceId := r.workspaceId
    finalArtifactId := r.finalArtifactId
    artifactHash := a.artifactHash
    contentVersionId := a.contentVersionId
    targetPlatform := targetPlatform
    complianceWorkerId := "compliance"
    inputSnapshot := some {
      mediaQa := (mediaQaOf db r a).elim "missing" MediaQaResult.status
      rights := (rightsOf db r).elim "missing" ArtifactRightsEvidence.rightsStatus }
    status := "blocked_provider_not_configured"
    riskLevel := "unknown"
    rightsStatus := (rightsOf db r).elim "unverified" ArtifactRightsEvidence.rightsStatus
    findings := [("compliance_provider_not_configured", "blocker")]
    providerState := "not_configured" }] }

/-- `create_test_manifest`, with the position of the manifest. -/
def createTestManifest (db : ProductionDb) (ws : WorkspaceId) :
    Except ArtifactError (ProductionDb × Nat) := do
  match ← oneId (fun m : AuditGateManifest => m.workspaceId == ws
      && m.contentType == "short_form_media" && m.manifestVersion == 1) db.manifests with
  | some i => return (db, i)
  | none =>
      return ({ db with manifests := db.manifests ++ [{
        workspaceId := ws
        contentType := "short_form_media"
        manifestVersion := 1
        requiredGates := defaultGates }] }, db.manifests.length)

def passedCompliance (r : ArtifactRequest) (a : FinalArtifact) (workerId : String) :
    ComplianceAudit where
  workspaceId := r.workspaceId
  finalArtifactId := r.finalArtifactId
  artifactHash := a.artifactHash
  contentVersionId := a.contentVersionId
  targetPlatform := "test"
  complianceWorkerId := workerId
  inputSnapshot := none
  status := "pass"
  riskLevel := "low"
  rightsStatus := "verified"
  findings := []
  providerState := "test_fixture"

def createTestCompliancePass (db : ProductionDb) (r : ArtifactRequest) (workerId : String) :
    Except ArtifactError ProductionDb := do
  let a ← findArtifact db r.workspaceId r.finalArtifactId
  if (mediaQaOf db r a).map MediaQaResult.status = some "pass" then
    return { db with
      rights := db.rights ++ [{
        workspaceId := r.workspaceId
        finalArtifactId := r.finalArtifactId
        rightsStatus := "verified" }]
      complianceAudits := db.complianceAudits ++ [passedCompliance r a workerId] }
  else throw (.gate "Media QA pass bound to exact artifact hash is required")

/-- What stands against an artifact, for the Chief Auditor. -/
def chiefBlockers (media compliance : Option String) : List String :=
  (if media = some "pass" then [] else ["media_qa_missing_or_not_pass"])
    ++ if compliance = some "pass" then [] else ["compliance_missing_or_not_pass"]

def newChiefAudit (r : ArtifactRequest) (a : FinalArtifact) (manifest : Nat) (workerId : String)
    (media compliance : Option String) : ChiefAudit :=
  let blockers := chiefBlockers media compliance
  { workspaceId := r.workspaceId
    finalArtifactId := r.finalArtifactId
    artifactHash := a.artifactHash
    contentVersionId := a.contentVersionId
    gateManifestId := manifest
    chiefAuditorWorkerId := workerId
    gateSnapshot := {
      required := defaultGates
      mediaQa := media.getD "missing"
      compliance := compliance.getD "missing" }
    reconciliationStatus := if blockers = [] then "complete" else "incomplete"
    blockers := blockers
    status := if blockers = [] then "pass_to_human_review" else "blocked" }

def runTestChiefAudit (db : ProductionDb) (r : ArtifactRequest) (workerId : String) :
    Except ArtifactError ProductionDb := do
  let a ← findArtifact db r.workspaceId r.finalArtifactId
  let (db, manifest) ← createTestManifest db r.workspaceId
  let media := (mediaQaOf db r a).map MediaQaResult.status
  let compliance := (complianceOf db r a).map ComplianceAudit.status
  return { db with
    chiefAudits := db.chiefAudits ++ [newChiefAudit r a manifest workerId media compliance] }

/-- `invalidate_compliance`. It leaves the audit and what was built on it as they are. -/
def invalidateCompliance (db : ProductionDb) (ws : WorkspaceId) (auditId : Nat) (reason : String) :
    Except ArtifactError ProductionDb :=
  match db.complianceAudits[auditId]?.filter fun c => c.workspaceId == ws with
  | none => .error (.notFound "compliance audit not found")
  | some audit =>
      if db.complianceInvalidations.any fun i => i.complianceAuditId == auditId
          && i.reason == reason then
        .error (.integrity "uq_compliance_invalidation_reason")
      else
        .ok { db with complianceInvalidations := db.complianceInvalidations ++ [{
          workspaceId := ws
          complianceAuditId := auditId
          finalArtifactId := audit.finalArtifactId
          reason := reason }] }

/-- What stands against the publication of an artifact. -/
def eligibilityBlockers (chief readiness : Option String) : List String :=
  (if readiness = some "pass" then [] else ["media_qa_not_passed"])
    ++ (if chief = some "pass_to_human_review" then [] else ["chief_audit_not_passed"])
    ++ ["external_publishing_disabled"]

/-- `publication_eligibility`. -/
def publicationEligibility (db : ProductionDb) (r : ArtifactRequest) (targetPlatform : String) :
    Except ArtifactError ProductionDb := do
  let a ← findArtifact db r.workspaceId r.finalArtifactId
  let chief := firstId r.scan (ChiefAudit.covers r.workspaceId r.finalArtifactId a) db.chiefAudits
  let readiness ← oneId (fun p : ProductionReadiness => p.workspaceId == r.workspaceId
    && p.finalArtifactId == r.finalArtifactId) db.readiness
  if db.eligibility.any fun e => e.workspaceId == r.workspaceId
      && e.finalArtifactId == r.finalArtifactId && e.targetPlatform == targetPlatform then
    throw (.integrity "uq_artifact_publication_eligibility")
  else
    return { db with eligibility := db.eligibility ++ [{
      workspaceId := r.workspaceId
      finalArtifactId := r.finalArtifactId
      artifactHash := a.artifactHash
      contentVersionId := a.contentVersionId
      targetPlatform := targetPlatform
      chiefAuditId := chief
      blockingReasons := eligibilityBlockers
        ((chief.bind fun i => db.chiefAudits[i]?).map ChiefAudit.status)
        ((readiness.bind fun i => db.readiness[i]?).map ProductionReadiness.mediaQaState) }] }

end HumanGate
