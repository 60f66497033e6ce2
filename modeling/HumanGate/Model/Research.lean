import HumanGate.Lib.Calendar
import HumanGate.Lib.Ranking
import HumanGate.Lib.System
import HumanGate.Lib.Table
import HumanGate.Model.Data

set_option autoImplicit false

/-! # Research

`app/services/research.py`: what the Scout records, the Research Auditor, and the gate that the
Strategist has to pass. Identifiers are positions in their tables. A call that raises rolls its
transaction back; the events that the calls emit are left out.
-/

namespace HumanGate

open Lib Lib.Calendar

/-! ## Verdicts -/

inductive Verdict where
  | pass | passWithWarning | blocked
  deriving DecidableEq

/-- A reason to block decides; a warning only takes the plain pass away. -/
def verdictOf (blocked warnings : List String) : Verdict :=
  if blocked ≠ [] then .blocked else if warnings ≠ [] then .passWithWarning else .pass

/-! ## Rows -/

inductive ResearchRunStatus where
  | providerNotConfigured | failed | succeeded
  deriving DecidableEq

structure ResearchRun where
  workspaceId : WorkspaceId
  trigger : String
  researchObjective : String
  maxSearches : Nat
  status : ResearchRunStatus
  searchesUsed : Nat := 0
  opportunityCount : Nat := 0
  auditedOpportunityCount : Nat := 0
  blockedOpportunityCount : Nat := 0
  lastError : Option String := none

inductive HandlingState where
  | accepted | rejected
  deriving DecidableEq

/-- Unique on the workspace, the run and the URL. -/
structure ResearchSource where
  id : Nat
  workspaceId : WorkspaceId
  researchRunId : Nat
  canonicalUrl : String
  retrievedAt : Instant
  claimSupported : Option String
  freshness : String
  contentDigest : String
  safeExcerpt : Option String
  handlingState : HandlingState
  rejectionReason : Option String

inductive OpportunityStatus where
  | active | blocked
  deriving DecidableEq

inductive StrategistState where
  | notSent | eligible
  deriving DecidableEq

/-- Unique on the workspace and the key; `auditGateStatus` is absent before an audit. -/
structure Opportunity where
  workspaceId : WorkspaceId
  researchRunId : Nat
  title : String
  topic : String
  summary : String
  proposedAngle : String
  targetPlatform : Option String
  suggestedFormat : Option String
  sourceCount : Nat
  status : OpportunityStatus := .active
  dedupeKey : String
  auditGateStatus : Option Verdict := none
  strategistState : StrategistState := .notSent
  deletedAt : Option Instant := none

/-- Unique on the workspace, the opportunity and the source. -/
structure OpportunityEvidence where
  workspaceId : WorkspaceId
  opportunityId : Nat
  sourceId : Nat
  claimSupported : String
  deriving DecidableEq

structure ScoutSnapshot where
  title : String
  topic : String
  summary : String
  proposedAngle : String
  sourceCount : Nat

structure SourceFinding where
  sourceId : Nat
  legitimacy : String := "accepted_provenance"
  freshness : String
  claimSupport : String

structure ResearchAudit where
  id : Nat
  workspaceId : WorkspaceId
  opportunityId : Nat
  researchRunId : Nat
  state : Verdict
  scoutSnapshot : ScoutSnapshot
  findings : List SourceFinding
  warnings : List String
  blockedReasons : List String
  checkedAt : Instant

structure ResearchDb where
  runs : List ResearchRun := []
  sources : List ResearchSource := []
  opportunities : List Opportunity := []
  evidence : List OpportunityEvidence := []
  audits : List ResearchAudit := []

inductive ResearchError where
  | runtime (text : String)
  | key (name : String)
  | lookup (text : String)
  | gate (text : String)
  | multipleResults
  | integrity (key : String)
  deriving DecidableEq

/-! ## Texts -/

/-- `ENVIRONMENT == "test"`, `strip`, `lower`, `_canonical_url`, the search for the pattern of
untrusted instructions, the substitution of the pattern of secrets, and the digest. -/
structure ResearchEnv where
  test : Bool
  strip : String → String
  lower : String → String
  canonicalUrl : String → Except String String
  untrustedInstruction : String → Bool
  redactSecrets : String → String
  sha256 : String → String

def maxFixtureExcerpt : Nat := 6000

/-- The excerpt that may be kept, and why it may not. -/
def safeExcerpt (env : ResearchEnv) : Option String → Option String × Option String
  | none => (none, none)
  | some value =>
      let bounded := String.ofList ((env.strip value).toList.take maxFixtureExcerpt)
      if env.untrustedInstruction bounded then (none, some "untrusted instruction pattern detected")
      else (some (env.redactSecrets bounded), none)

def dedupeKey (env : ResearchEnv) (topic angle : String) (platform formatName : Option String)
    (sourceUrls : List String) : String :=
  let plain (text : String) : String := env.lower (env.strip text)
  env.sha256 (String.intercalate "\n" ([plain topic, plain angle, plain (platform.getD ""),
    plain (formatName.getD "")] ++ sourceUrls.mergeSort fun a b => decide (a ≤ b)))

/-! ## Lookups -/

def getOpportunity (db : ResearchDb) (ws : WorkspaceId) (id : Nat) : Option Opportunity :=
  db.opportunities[id]?.filter fun o => o.workspaceId == ws && o.deletedAt.isNone

/-- `ORDER BY retrieved_at DESC`; `scan` decides between sources of the same instant. -/
def retrievedLater (scan : Nat → Nat) (a b : ResearchSource) : Prop :=
  b.retrievedAt < a.retrievedAt ∨ a.retrievedAt = b.retrievedAt ∧ scan a.id ≤ scan b.id

instance decRetrievedLater (scan : Nat → Nat) : DecidableRel (retrievedLater scan) := fun a b =>
  inferInstanceAs (Decidable (b.retrievedAt < a.retrievedAt ∨
    a.retrievedAt = b.retrievedAt ∧ scan a.id ≤ scan b.id))

/-- The sources of `opportunity_evidence`. -/
def opportunitySources (scan : Nat → Nat) (db : ResearchDb) (ws : WorkspaceId) (id : Nat) :
    List ResearchSource :=
  ((db.evidence.filter fun e => e.workspaceId == ws && e.opportunityId == id).filterMap fun e =>
    db.sources[e.sourceId]?.filter fun s => s.workspaceId == ws).insertionSort (retrievedLater scan)

/-- `ORDER BY checked_at DESC`. -/
def researchedLater (scan : Nat → Nat) (a b : ResearchAudit) : Prop :=
  b.checkedAt < a.checkedAt ∨ a.checkedAt = b.checkedAt ∧ scan a.id ≤ scan b.id

instance decResearchedLater (scan : Nat → Nat) : DecidableRel (researchedLater scan) := fun a b =>
  inferInstanceAs (Decidable (b.checkedAt < a.checkedAt ∨
    a.checkedAt = b.checkedAt ∧ scan a.id ≤ scan b.id))

/-- `latest_audit` of an opportunity. -/
def latestResearchAudit (scan : Nat → Nat) (db : ResearchDb) (ws : WorkspaceId) (id : Nat) :
    Option ResearchAudit :=
  ((db.audits.filter fun a => a.workspaceId == ws && a.opportunityId == id).insertionSort
    (researchedLater scan)).head?

/-! ## Runs -/

structure ManualResearch where
  workspaceId : WorkspaceId
  researchObjective : String
  maxSearches : Nat

/-- `create_manual_run`. No provider is configured. -/
def createManualResearch (env : ResearchEnv) (db : ResearchDb) (r : ManualResearch) : ResearchDb :=
  { db with runs := db.runs ++ [{
      workspaceId := r.workspaceId
      trigger := "manual"
      researchObjective := env.strip r.researchObjective
      maxSearches := r.maxSearches
      status := .providerNotConfigured
      lastError := some "RESEARCH PROVIDER NOT CONFIGURED" }] }

/-- The entries of a source that are read, absent where the fixture has none. -/
structure FixtureSource where
  url : Option String := none
  excerpt : Option String := none
  claimSupported : Option String := none
  freshness : Option String := none

structure FixtureOpportunity where
  title : Option String := none
  topic : Option String := none
  summary : Option String := none
  proposedAngle : Option String := none
  targetPlatform : Option String := none
  suggestedFormat : Option String := none

structure ResearchRequest where
  workspaceId : WorkspaceId
  objective : String
  sources : List FixtureSource
  opportunity : FixtureOpportunity
  now : Instant

/-- `a or b`. -/
def textOr (a : Option String) (b : String) : String :=
  match a with
  | some text => if text.isEmpty then b else text
  | none => b

def newSource (env : ResearchEnv) (r : ResearchRequest) (rid id : Nat) (item : FixtureSource)
    (url : String) : ResearchSource :=
  let (excerpt, reason) := safeExcerpt env item.excerpt
  { id := id
    workspaceId := r.workspaceId
    researchRunId := rid
    canonicalUrl := url
    retrievedAt := r.now
    claimSupported := item.claimSupported
    freshness := item.freshness.getD "test"
    contentDigest := env.sha256 (textOr excerpt (textOr reason url))
    safeExcerpt := excerpt
    handlingState := if reason.isSome then .rejected else .accepted
    rejectionReason := reason }

/-- `uq_research_source_run_url`. -/
def ResearchSource.clashes (a b : ResearchSource) : Bool :=
  a.workspaceId == b.workspaceId && a.researchRunId == b.researchRunId
    && a.canonicalUrl == b.canonicalUrl

/-- One source of the fixture; an address that is not public leaves no row. -/
def recordSource (env : ResearchEnv) (r : ResearchRequest) (rid : Nat)
    (sources : List ResearchSource) (item : FixtureSource) :
    Except ResearchError (List ResearchSource) :=
  match env.canonicalUrl (item.url.getD "") with
  | .error _ => .ok sources
  | .ok url =>
      let source := newSource env r rid sources.length item url
      if sources.any fun s => s.clashes source then .error (.integrity "uq_research_source_run_url")
      else .ok (sources ++ [source])

/-- The sources of the run that were accepted. -/
def acceptedSources (sources : List ResearchSource) (rid : Nat) : List ResearchSource :=
  sources.filter fun s => s.researchRunId == rid && s.handlingState == .accepted

def requireEntry (name : String) : Option String → Except ResearchError String
  | some value => .ok value
  | none => .error (.key name)

def fixtureResearchRun (r : ResearchRequest) : ResearchRun where
  workspaceId := r.workspaceId
  trigger := "manual_test_fixture"
  researchObjective := r.objective
  maxSearches := max 1 r.sources.length
  searchesUsed := r.sources.length
  status := .succeeded

/-- The run when none of its sources is accepted. -/
def failedResearchRun (r : ResearchRequest) : ResearchRun :=
  { fixtureResearchRun r with
    status := .failed
    lastError := some "No safe evidence sources were accepted" }

def Opportunity.addSources (n : Nat) (o : Opportunity) : Opportunity :=
  { o with sourceCount := o.sourceCount + n }

/-- The opportunity that the fixture describes: a new one, or one that is found again. -/
def findOrCreate (env : ResearchEnv) (db : ResearchDb) (r : ResearchRequest)
    (accepted : List ResearchSource) : Except ResearchError (List Opportunity × Nat × String) := do
  let topic ← (requireEntry "topic" r.opportunity.topic).map env.strip
  let angle ← (requireEntry "proposed_angle" r.opportunity.proposedAngle).map env.strip
  let key := dedupeKey env topic angle r.opportunity.targetPlatform r.opportunity.suggestedFormat
    (accepted.map ResearchSource.canonicalUrl)
  match Table.select (fun o => o.workspaceId == r.workspaceId && o.dedupeKey == key
      && o.deletedAt.isNone) db.opportunities with
  | _ :: _ :: _ => throw .multipleResults
  | [id] =>
      let summary := (db.opportunities[id]?).elim "" Opportunity.summary
      return (db.opportunities.modify id (.addSources accepted.length), id, summary)
  | [] =>
      let title ← (requireEntry "title" r.opportunity.title).map env.strip
      let summary ← (requireEntry "summary" r.opportunity.summary).map env.strip
      if db.opportunities.any fun o => o.workspaceId == r.workspaceId && o.dedupeKey == key then
        throw (.integrity "uq_opportunities_workspace_dedupe")
      return (db.opportunities ++ [{
        workspaceId := r.workspaceId
        researchRunId := db.runs.length
        title := title
        topic := topic
        summary := summary
        proposedAngle := angle
        targetPlatform := r.opportunity.targetPlatform
        suggestedFormat := r.opportunity.suggestedFormat
        sourceCount := accepted.length
        dedupeKey := key }], db.opportunities.length, summary)

def newLink (ws : WorkspaceId) (id : Nat) (summary : String) (source : ResearchSource) :
    OpportunityEvidence where
  workspaceId := ws
  opportunityId := id
  sourceId := source.id
  claimSupported := textOr source.claimSupported summary

/-- `record_fixture_run`, with the opportunity that it returns. -/
def recordFixtureRun (env : ResearchEnv) (db : ResearchDb) (r : ResearchRequest) :
    Except ResearchError (ResearchDb × Option Nat) := do
  if !env.test then throw (.runtime "fixture research execution is test-only")
  let rid := db.runs.length
  let sources ← r.sources.foldlM (recordSource env r rid) db.sources
  let accepted := acceptedSources sources rid
  if accepted.isEmpty then
    return ({ db with runs := db.runs ++ [failedResearchRun r], sources := sources }, none)
  let (opportunities, id, summary) ← findOrCreate env db r accepted
  let created := if id = db.opportunities.length then 1 else 0
  return ({ db with
    runs := db.runs ++ [{ fixtureResearchRun r with opportunityCount := created }]
    sources := sources
    opportunities := opportunities
    evidence := db.evidence ++ accepted.map (newLink r.workspaceId id summary) }, some id)

/-! ## The Research Auditor -/

def reasonIf (c : Bool) (text : String) : List String := if c then [text] else []

/-- Why an opportunity is blocked. -/
def researchBlocked (sources : List ResearchSource) : List String :=
  let accepted := sources.filter fun s => s.handlingState == .accepted
  let rejected := sources.filter fun s => s.handlingState == .rejected
  reasonIf accepted.isEmpty "No accepted source provenance supports this opportunity."
    ++ reasonIf (!rejected.isEmpty) "At least one source was rejected as unsafe or unverified."
    ++ reasonIf (decide ((accepted.map ResearchSource.contentDigest).dedup.length
      < accepted.length)) "Duplicate source content detected."

/-- What an opportunity that is not blocked is warned of. -/
def researchWarnings (sources : List ResearchSource) : List String :=
  let accepted := sources.filter fun s => s.handlingState == .accepted
  let blocked := researchBlocked sources
  reasonIf (accepted.length == 1 && blocked.isEmpty)
      "Only one independent accepted source is available."
    ++ reasonIf ((accepted.any fun s => s.freshness == "stale" || s.freshness == "unknown")
      && blocked.isEmpty) "At least one accepted source has stale or unknown freshness."

def sourceFinding (s : ResearchSource) : SourceFinding where
  sourceId := s.id
  freshness := s.freshness
  claimSupport := match s.claimSupported with
    | some text => if text.isEmpty then "missing" else "present"
    | none => "missing"

structure OpportunityRequest where
  workspaceId : WorkspaceId
  opportunityId : Nat
  now : Instant
  scan : Nat → Nat := fun id => id

def newResearchAudit (db : ResearchDb) (r : OpportunityRequest) (o : Opportunity) :
    ResearchAudit :=
  let sources := opportunitySources r.scan db r.workspaceId r.opportunityId
  { id := db.audits.length
    workspaceId := r.workspaceId
    opportunityId := r.opportunityId
    researchRunId := o.researchRunId
    state := verdictOf (researchBlocked sources) (researchWarnings sources)
    scoutSnapshot := {
      title := o.title
      topic := o.topic
      summary := o.summary
      proposedAngle := o.proposedAngle
      sourceCount := o.sourceCount }
    findings := (sources.filter fun s => s.handlingState == .accepted).map sourceFinding
    warnings := researchWarnings sources
    blockedReasons := researchBlocked sources
    checkedAt := r.now }

def Opportunity.audited (state : Verdict) (o : Opportunity) : Opportunity :=
  { o with
    auditGateStatus := some state
    status := if state = .blocked then .blocked else o.status }

def ResearchRun.countAudit (ws : WorkspaceId) (state : Verdict) (run : ResearchRun) : ResearchRun :=
  if run.workspaceId = ws then
    { run with
      auditedOpportunityCount := run.auditedOpportunityCount + 1
      blockedOpportunityCount :=
        if state = .blocked then run.blockedOpportunityCount + 1 else run.blockedOpportunityCount }
  else run

/-- `audit_opportunity`. -/
def auditOpportunity (db : ResearchDb) (r : OpportunityRequest) :
    Except ResearchError (ResearchDb × ResearchAudit) :=
  match getOpportunity db r.workspaceId r.opportunityId with
  | none => .error (.lookup "opportunity not found")
  | some o =>
      let audit := newResearchAudit db r o
      .ok ({ db with
        runs := db.runs.modify o.researchRunId (.countAudit r.workspaceId audit.state)
        opportunities := db.opportunities.modify r.opportunityId (.audited audit.state)
        audits := db.audits ++ [audit] }, audit)

/-! ## The gate of the Strategist -/

def Opportunity.sendToStrategist (o : Opportunity) : Opportunity :=
  { o with strategistState := .eligible }

/-- `strategist_gate`. -/
def strategistGate (scan : Nat → Nat) (db : ResearchDb) (ws : WorkspaceId) (id : Nat) :
    Except ResearchError ResearchDb :=
  match getOpportunity db ws id with
  | none => .error (.lookup "opportunity not found")
  | some _ =>
      if (latestResearchAudit scan db ws id).map ResearchAudit.state = some .pass then
        .ok { db with opportunities := db.opportunities.modify id .sendToStrategist }
      else
        .error (.gate
          "Independent Research Auditor PASS is required before Strategist eligibility.")

end HumanGate
