import HumanGate.Lib.Calendar
import HumanGate.Lib.Ranking
import HumanGate.Lib.System
import HumanGate.Model.Data

set_option autoImplicit false

/-! # The content department

`app/services/content_department.py`: packages and their independent audits, with the gate of a
package that is recalculated whenever an audit is recorded, and `create_production_run` of
`app/services/production.py`, which reads it. A call that raises rolls its transaction back.
-/

namespace HumanGate

open Lib Lib.Calendar

/-! ## Audits -/

/-- `_ALLOWED_AUDITORS`. -/
inductive Auditor where
  | language | fact | brand | originality
  deriving DecidableEq

def Auditor.ofText : String → Option Auditor
  | "language" => some .language
  | "fact" => some .fact
  | "brand" => some .brand
  | "originality" => some .originality
  | _ => none

/-- `_MANDATORY_AUDITORS`. -/
def mandatoryAuditors : List Auditor := [.language, .fact, .brand, .originality]

inductive AuditState where
  | pass | passWithWarning | blocked | error
  deriving DecidableEq

def AuditState.ofText : String → Option AuditState
  | "pass" => some .pass
  | "pass_with_warning" => some .passWithWarning
  | "blocked" => some .blocked
  | "error" => some .error
  | _ => none

/-! ## Rows -/

inductive AuditGateStatus where
  | notRun | notReady | pass | blocked | invalidated
  deriving DecidableEq

inductive ProducerHandoffState where
  | blocked | providerNotConfigured
  deriving DecidableEq

inductive ContentPackageStatus where
  | awaitingAudits | auditedReady | auditedBlocked | superseded
  deriving DecidableEq

structure PackageFields where
  primaryHook : String
  script : String
  cta : String
  title : String
  description : String
  deriving DecidableEq

/-- Identifiers of runs, directions, versions, packages and audits are positions in their tables. -/
structure ContentDepartmentRun where
  workspaceId : WorkspaceId
  creativeDirectionsCreated : Nat := 0
  packagesReady : Nat := 0
  packagesBlocked : Nat := 0

structure CreativeDirection where
  workspaceId : WorkspaceId
  contentDepartmentRunId : Nat
  objective : String
  creativeConcept : String
  workerId : String

structure ContentPackage where
  workspaceId : WorkspaceId
  contentDepartmentRunId : Nat
  creativeDirectionId : Nat
  contentVersionId : Nat
  priorContentVersionId : Option Nat
  writerWorkerId : String
  packageFields : PackageFields
  status : ContentPackageStatus
  auditGateStatus : AuditGateStatus
  producerHandoffState : ProducerHandoffState
  invalidatedAt : Option Instant := none
  deletedAt : Option Instant := none

structure ContentClaim where
  workspaceId : WorkspaceId
  contentPackageId : Nat
  claimText : String
  verificationStatus : String

structure ContentAudit where
  id : Nat
  workspaceId : WorkspaceId
  contentPackageId : Nat
  contentVersionId : Nat
  auditorType : Auditor
  auditorWorkerId : String
  state : AuditState
  artifactSnapshot : PackageFields
  checkedAt : Instant

/-- Unique on the audit and the version. -/
structure ContentAuditInvalidation where
  contentAuditId : Nat
  contentVersionId : Nat
  contentPackageId : Nat
  deriving DecidableEq

inductive FingerprintState where
  | notRun | requireDifferentiation
  deriving DecidableEq

structure OriginalityFingerprint where
  workspaceId : WorkspaceId
  contentPackageId : Nat
  contentVersionId : Nat
  textFingerprint : String
  comparisonSet : List Nat
  state : FingerprintState

structure ContentDb where
  runs : List ContentDepartmentRun := []
  directions : List CreativeDirection := []
  /-- The hook, the body and the call to action of each version. -/
  versions : List (String × String × String) := []
  packages : List ContentPackage := []
  claims : List ContentClaim := []
  audits : List ContentAudit := []
  invalidations : List ContentAuditInvalidation := []
  fingerprints : List OriginalityFingerprint := []

/-- What a call raises. -/
inductive ContentError where
  | runtime (text : String)
  | value (text : String)
  | notFound (text : String)
  | gate (text : String)
  | multipleResults
  | integrity (key : String)
  deriving DecidableEq

/-! ## Texts -/

/-- `ENVIRONMENT == "test"`, the searches for the three patterns, `strip`, the normal form
`" ".join(value.lower().split())`, the digest, and `_extract_claims`. -/
structure ContentEnv where
  test : Bool
  untrustedInstruction : String → Bool
  secretPattern : String → Bool
  unsupportedClaim : String → Bool
  strip : String → String
  normalize : String → String
  sha256 : String → String
  extractClaims : String → List String

def safeText (env : ContentEnv) (value field : String) : Except ContentError String :=
  let normalized := env.strip value
  if normalized.isEmpty ∨ 12000 < normalized.length then
    .error (.value (field ++ " must be non-empty and at most 12000 characters"))
  else if env.untrustedInstruction normalized then
    .error (.value (field ++ " contains an untrusted instruction pattern"))
  else if env.secretPattern normalized then
    .error (.value (field ++ " contains a secret-like value"))
  else .ok normalized

def fingerprint (env : ContentEnv) (value : String) : String := env.sha256 (env.normalize value)

/-! ## The gate -/

def getPackage (db : ContentDb) (ws : WorkspaceId) (id : Nat) : Option ContentPackage :=
  db.packages[id]?.filter fun p => p.workspaceId == ws && p.deletedAt.isNone

/-- `ORDER BY checked_at DESC`; `scan` decides between audits of the same instant. -/
def checkedLater (scan : Nat → Nat) (a b : ContentAudit) : Prop :=
  b.checkedAt < a.checkedAt ∨ a.checkedAt = b.checkedAt ∧ scan a.id ≤ scan b.id

instance decCheckedLater (scan : Nat → Nat) : DecidableRel (checkedLater scan) := fun a b =>
  inferInstanceAs (Decidable (b.checkedAt < a.checkedAt ∨
    a.checkedAt = b.checkedAt ∧ scan a.id ≤ scan b.id))

def latestAudit (scan : Nat → Nat) (audits : List ContentAudit) (ws : WorkspaceId) (id : Nat)
    (kind : Auditor) : Option ContentAudit :=
  ((audits.filter fun a => a.workspaceId == ws && a.contentPackageId == id
    && a.auditorType == kind).insertionSort (checkedLater scan)).head?

/-- The states of the latest audits, one for each mandatory auditor, absent where it has not run. -/
def latestStates (scan : Nat → Nat) (audits : List ContentAudit) (ws : WorkspaceId) (id : Nat) :
    List (Option AuditState) :=
  mandatoryAuditors.map fun kind => (latestAudit scan audits ws id kind).map ContentAudit.state

/-- `_recalculate_package_gate`. It looks at the audits and nothing else. -/
def recalculatePackageGate (states : List (Option AuditState)) (p : ContentPackage) :
    ContentPackage :=
  if states.any fun st => st == some .blocked || st == some .error then
    { p with
      auditGateStatus := .blocked
      producerHandoffState := .blocked
      status := .auditedBlocked }
  else if states.all fun st => st == some .pass then
    { p with
      auditGateStatus := .pass
      producerHandoffState := .providerNotConfigured
      status := .auditedReady }
  else
    { p with
      auditGateStatus := .notReady
      producerHandoffState := .blocked
      status := .awaitingAudits }

/-! ## Recording a package -/

/-- The entries of `fixture` that are read, absent where it has none. -/
structure Fixture where
  objective : Option String := none
  creativeConcept : Option String := none
  hook : Option String := none
  script : Option String := none
  cta : Option String := none
  title : Option String := none
  description : Option String := none
  claims : Option (List String) := none

/-- The arguments; the objective of the brief or what the strategy gate says against it; the
time. -/
structure PackageRequest where
  workspaceId : WorkspaceId
  brief : Except String String
  fixture : Fixture
  priorPackageId : Option Nat := none
  now : Instant

/-- The texts of a package once they are checked. -/
structure PackageDraft where
  objective : String
  concept : String
  scriptHook : String
  scriptBody : String
  scriptCta : String
  previous : Option (Nat × ContentPackage)

def joinLines (d : PackageDraft) : String :=
  d.scriptHook ++ "\n" ++ d.scriptBody ++ "\n" ++ d.scriptCta

/-- `previous`, with its identifier. -/
def findPrevious (db : ContentDb) (ws : WorkspaceId) :
    Option Nat → Except ContentError (Option (Nat × ContentPackage))
  | none => .ok none
  | some id =>
      match getPackage db ws id with
      | none => .error (.notFound "prior content package not found")
      | some p => .ok (some (id, p))

/-- What is checked before the first row is inserted. -/
def draftPackage (env : ContentEnv) (db : ContentDb) (r : PackageRequest) :
    Except ContentError PackageDraft := do
  if !env.test then throw (.runtime "fixture content execution is test-only")
  let briefObjective ← r.brief.mapError .gate
  let objective ← safeText env (r.fixture.objective.getD briefObjective) "objective"
  let concept ← safeText env (r.fixture.creativeConcept.getD objective) "creative concept"
  let hook ← safeText env (r.fixture.hook.getD "A practical evidence-first opening.") "hook"
  let body ← safeText env
    (r.fixture.script.getD "Use approved evidence and avoid unsupported claims.") "script"
  let cta ← safeText env (r.fixture.cta.getD "Review the evidence before acting.") "cta"
  if env.unsupportedClaim (hook ++ "\n" ++ body ++ "\n" ++ cta) then
    throw (.value "script contains unsupported performance or guarantee claim")
  let previous ← findPrevious db r.workspaceId r.priorPackageId
  return {
    objective := objective
    concept := concept
    scriptHook := hook
    scriptBody := body
    scriptCta := cta
    previous := previous }

/-- The claims of a fixture, or those found in the script. -/
def claimTexts (env : ContentEnv) (r : PackageRequest) (d : PackageDraft) :
    Except ContentError (List String) :=
  (r.fixture.claims.getD (env.extractClaims (joinLines d))).mapM fun text =>
    safeText env text "claim text"

/-- The fingerprints of the workspace with this text. -/
def ContentDb.matching (db : ContentDb) (ws : WorkspaceId) (textFingerprint : String) :
    List OriginalityFingerprint :=
  db.fingerprints.filter fun f => f.workspaceId == ws && f.textFingerprint == textFingerprint

/-- `scalar_one_or_none`. -/
def scalarOneOrNone {α : Type} : List α → Except ContentError (Option α)
  | [] => .ok none
  | [a] => .ok (some a)
  | _ => .error .multipleResults

/-- The rows that say that the audits of a superseded package no longer count. -/
def invalidationRows (db : ContentDb) (ws : WorkspaceId)
    (previous : Option (Nat × ContentPackage)) :
    List ContentAuditInvalidation :=
  match previous with
  | none => []
  | some (id, p) =>
      (db.audits.filter fun a => a.workspaceId == ws && a.contentPackageId == id).map fun a =>
        { contentAuditId := a.id
          contentVersionId := p.contentVersionId
          contentPackageId := id }

/-- `uq_content_audit_invalidation`. -/
def ContentAuditInvalidation.clashes (old new : ContentAuditInvalidation) : Bool :=
  old.contentAuditId == new.contentAuditId && old.contentVersionId == new.contentVersionId

def insertInvalidations (old new : List ContentAuditInvalidation) :
    Except ContentError (List ContentAuditInvalidation) :=
  if new.any fun n => old.any fun o => o.clashes n then
    .error (.integrity "uq_content_audit_invalidation")
  else .ok (old ++ new)

def supersede (now : Instant) (p : ContentPackage) : ContentPackage :=
  { p with
    invalidatedAt := some now
    auditGateStatus := .invalidated
    producerHandoffState := .blocked
    status := .superseded }

def supersedePrevious (now : Instant) (previous : Option (Nat × ContentPackage))
    (packages : List ContentPackage) : List ContentPackage :=
  match previous with
  | none => packages
  | some (id, _) => packages.modify id (supersede now)

/-- The row of the new package. -/
def newPackage (db : ContentDb) (r : PackageRequest) (d : PackageDraft)
    (duplicate : Option OriginalityFingerprint) : ContentPackage where
  workspaceId := r.workspaceId
  contentDepartmentRunId := db.runs.length
  creativeDirectionId := db.directions.length
  contentVersionId := db.versions.length
  priorContentVersionId := d.previous.map fun q => q.2.contentVersionId
  writerWorkerId := "writer_fixture"
  packageFields := {
    primaryHook := d.scriptHook
    script := d.scriptBody
    cta := d.scriptCta
    title := r.fixture.title.getD d.objective
    description := r.fixture.description.getD "TEST DATA" }
  status := if duplicate.isSome then .auditedBlocked else .awaitingAudits
  auditGateStatus := if duplicate.isSome then .blocked else .notReady
  producerHandoffState := .blocked

def newFingerprint (env : ContentEnv) (db : ContentDb) (r : PackageRequest) (d : PackageDraft)
    (duplicate : Option OriginalityFingerprint) : OriginalityFingerprint where
  workspaceId := r.workspaceId
  contentPackageId := db.packages.length
  contentVersionId := db.versions.length
  textFingerprint := fingerprint env d.scriptBody
  comparisonSet := (duplicate.map fun f => f.contentVersionId).toList
  state := if duplicate.isSome then .requireDifferentiation else .notRun

/-- The rows inserted once nothing is left to be refused. -/
def insertPackage (env : ContentEnv) (db : ContentDb) (r : PackageRequest) (d : PackageDraft)
    (claims : List String) (duplicate : Option OriginalityFingerprint)
    (invalidations : List ContentAuditInvalidation) : ContentDb where
  runs := db.runs ++ [{ workspaceId := r.workspaceId, creativeDirectionsCreated := 1 }]
  directions := db.directions ++ [{
    workspaceId := r.workspaceId
    contentDepartmentRunId := db.runs.length
    objective := d.objective
    creativeConcept := d.concept
    workerId := "creative_director_fixture" }]
  versions := db.versions ++ [(d.scriptHook, d.scriptBody, d.scriptCta)]
  packages := supersedePrevious r.now d.previous db.packages ++ [newPackage db r d duplicate]
  claims := db.claims ++ claims.map fun text => {
    workspaceId := r.workspaceId
    contentPackageId := db.packages.length
    claimText := text
    verificationStatus := "not_run" }
  audits := db.audits
  invalidations := invalidations
  fingerprints := db.fingerprints ++ [newFingerprint env db r d duplicate]

/-- The package is new: its own fingerprint is not among those it is compared with. -/
def recordFixturePackage (env : ContentEnv) (db : ContentDb) (r : PackageRequest) :
    Except ContentError (ContentDb × ContentPackage) := do
  let d ← draftPackage env db r
  let claims ← claimTexts env r d
  let duplicate ← scalarOneOrNone (db.matching r.workspaceId (fingerprint env d.scriptBody))
  let invalidations ← insertInvalidations db.invalidations
    (invalidationRows db r.workspaceId d.previous)
  return (insertPackage env db r d claims duplicate invalidations, newPackage db r d duplicate)

/-! ## Recording an audit -/

structure AuditRequest where
  workspaceId : WorkspaceId
  packageId : Nat
  auditorType : String
  state : String
  now : Instant
  scan : Nat → Nat := fun id => id

/-- An audit, with the identifier it gets. -/
def newAudit (db : ContentDb) (r : AuditRequest) (kind : Auditor) (state : AuditState)
    (p : ContentPackage) : ContentAudit where
  id := db.audits.length
  workspaceId := r.workspaceId
  contentPackageId := r.packageId
  contentVersionId := p.contentVersionId
  auditorType := kind
  auditorWorkerId := r.auditorType ++ "_auditor_fixture"
  state := state
  artifactSnapshot := p.packageFields
  checkedAt := r.now

/-- What is checked before the audit is inserted. -/
def draftAudit (env : ContentEnv) (db : ContentDb) (r : AuditRequest) :
    Except ContentError (ContentPackage × ContentAudit) :=
  if !env.test then .error (.runtime "fixture content audits are test-only")
  else
    match Auditor.ofText r.auditorType, AuditState.ofText r.state with
    | none, _ => .error (.value "unsupported content auditor")
    | some _, none => .error (.value "unsupported content audit state")
    | some kind, some state =>
        match getPackage db r.workspaceId r.packageId with
        | none => .error (.notFound "content package not found")
        | some p =>
            match db.directions[p.creativeDirectionId]?.filter fun d =>
                d.workspaceId == r.workspaceId with
            | none => .error (.gate "creative direction not found")
            | some direction =>
                let audit := newAudit db r kind state p
                if audit.auditorWorkerId = p.writerWorkerId ∨
                    audit.auditorWorkerId = direction.workerId then
                  .error (.gate "creator and auditor responsibilities must remain separate")
                else .ok (p, audit)

/-- The audit of the facts settles the claims of the package. -/
def verifyClaims (audit : ContentAudit) (claims : List ContentClaim) : List ContentClaim :=
  if audit.auditorType = .fact then
    claims.map fun c =>
      if c.workspaceId = audit.workspaceId ∧ c.contentPackageId = audit.contentPackageId then
        { c with verificationStatus :=
            if audit.state = .pass ∨ audit.state = .passWithWarning then "verified"
            else "unverified" }
      else c
  else claims

def countAudited (ws : WorkspaceId) (gate : AuditGateStatus) (run : ContentDepartmentRun) :
    ContentDepartmentRun :=
  if run.workspaceId = ws then
    { run with
      packagesReady := if gate = .pass then run.packagesReady + 1 else run.packagesReady
      packagesBlocked := if gate = .blocked then run.packagesBlocked + 1 else run.packagesBlocked }
  else run

def recordFixtureAudit (env : ContentEnv) (db : ContentDb) (r : AuditRequest) :
    Except ContentError (ContentDb × ContentAudit) := do
  let (p, audit) ← draftAudit env db r
  let audits := db.audits ++ [audit]
  let gated := recalculatePackageGate (latestStates r.scan audits r.workspaceId r.packageId) p
  return ({ db with
    runs := db.runs.modify p.contentDepartmentRunId
      (countAudited r.workspaceId gated.auditGateStatus)
    packages := db.packages.modify r.packageId fun _ => gated
    claims := verifyClaims audit db.claims
    audits := audits }, audit)

/-! ## What reads the gate -/

/-- What `producer_gate` returns. -/
structure ProducerGate where
  contentPackageId : Nat
  eligible : Bool := false
  state : String := "provider_not_configured"
  deriving DecidableEq

def producerGate (db : ContentDb) (ws : WorkspaceId) (id : Nat) :
    Except ContentError ProducerGate :=
  match getPackage db ws id with
  | none => .error (.notFound "content package not found")
  | some p =>
      if p.auditGateStatus ≠ .pass then
        .error (.gate
          "all mandatory independent content audits must pass before Producer eligibility")
      else .ok { contentPackageId := id }

structure ProductionRequest where
  workspaceId : WorkspaceId
  contentPackageId : Nat
  targetPlatform : Option String := none
  targetFormat : Option String := none
  targetDurationSeconds : Option Nat := none
  maxProviderCalls : Nat := 0
  maxRenderCalls : Nat := 0
  maxAttempts : Nat := 1
  maxRepairCycles : Nat := 0
  timeoutSeconds : Nat := 60
  deriving DecidableEq

structure ProductionJob where
  request : ProductionRequest
  contentVersionId : Nat
  producerWorkerId : String := "producer"
  status : String := "blocked_provider_not_configured"
  providerState : String := "not_configured"
  deriving DecidableEq

inductive ProductionError where
  | notFound (text : String)
  | eligibility (text : String)
  deriving DecidableEq

/-- `_package` of the production service finds deleted packages too. -/
def createProductionRun (db : ContentDb) (r : ProductionRequest) :
    Except ProductionError ProductionJob :=
  match db.packages[r.contentPackageId]?.filter fun p => p.workspaceId == r.workspaceId with
  | none => .error (.notFound "content package not found")
  | some p =>
      if p.auditGateStatus ≠ .pass then
        .error (.eligibility ("content package is not eligible for Producer; " ++
          "all independent content audits must pass"))
      else .ok { request := r, contentVersionId := p.contentVersionId }

/-! ## Sequences of calls -/

inductive ContentOp where
  | package (r : PackageRequest)
  | audit (r : AuditRequest)

/-- The rows after a call: those before it if it raised. -/
def ContentOp.exec (env : ContentEnv) (db : ContentDb) : ContentOp → ContentDb
  | .package r => ((recordFixturePackage env db r).toOption.map Prod.fst).getD db
  | .audit r => ((recordFixtureAudit env db r).toOption.map Prod.fst).getD db

/-- The department, from its empty tables on. -/
def contentDepartment (env : ContentEnv) : System ContentDb ContentOp where
  init db := db = {}
  allowed _ _ := True
  exec := ContentOp.exec env

instance decDepartment (env : ContentEnv) (db : ContentDb) (o : ContentOp) :
    Decidable ((contentDepartment env).allowed db o) := inferInstanceAs (Decidable True)

end HumanGate
