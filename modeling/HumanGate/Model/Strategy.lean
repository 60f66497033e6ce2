import HumanGate.Model.Research

set_option autoImplicit false

/-! # Strategy

`app/services/strategy.py`: briefs on opportunities that have passed the Research Auditor, the
Strategy Auditor, and the gate that the Writer has to pass. The calls read and write the tables of
research too.
-/

namespace HumanGate

open Lib Lib.Calendar

/-! ## Rows -/

inductive StrategyRunStatus where
  | providerNotConfigured | duplicate | succeeded
  deriving DecidableEq

structure StrategyRun where
  workspaceId : WorkspaceId
  trigger : String
  strategyObjective : String
  sourceOpportunityIds : List Nat
  status : StrategyRunStatus
  businessContextState : String
  briefsCreated : Nat := 0
  briefsPassed : Nat := 0
  briefsBlocked : Nat := 0
  lastError : Option String := none

inductive WriterHandoffState where
  | blocked | eligible
  deriving DecidableEq

inductive StrategyBriefStatus where
  | draft | auditedPassed | auditedBlocked
  deriving DecidableEq

/-- The texts that a brief may have. -/
structure BriefTexts where
  targetAudience : Option String := none
  targetPlatform : Option String := none
  contentFormat : Option String := none
  creativeAngle : Option String := none
  coreMessage : Option String := none
  hookDirection : Option String := none
  ctaDirection : Option String := none
  businessGoal : Option String := none
  successMetric : Option String := none
  commercialGoal : Option String := none
  recommendedLength : Option String := none
  recommendedPostingWindow : Option String := none

/-- Unique on the workspace and the fingerprint; `auditGateStatus` is absent before an audit. -/
structure StrategyBrief where
  workspaceId : WorkspaceId
  strategyRunId : Nat
  objective : String
  texts : BriefTexts
  evidenceSummary : String
  reasoning : String
  costState : String
  capabilityState : String
  businessContextState : String
  performanceDataState : String
  structuralFingerprint : String
  repetitionState : String
  repetitionReasons : List String
  auditGateStatus : Option Verdict := none
  writerHandoffState : WriterHandoffState := .blocked
  status : StrategyBriefStatus := .draft
  deletedAt : Option Instant := none

/-- Unique on the workspace, the brief and the opportunity. -/
structure StrategyBriefOpportunity where
  workspaceId : WorkspaceId
  strategyBriefId : Nat
  opportunityId : Nat
  deriving DecidableEq

structure BriefSnapshot where
  objective : String
  businessGoal : Option String
  targetPlatform : Option String
  contentFormat : Option String
  structuralFingerprint : String
  costState : String
  capabilityState : String
  businessContextState : String
  repetitionState : String

structure OpportunityFinding where
  opportunityId : Nat
  researchAuditState : Verdict
  evidenceTraceability : String := "pass"

structure StrategyAudit where
  id : Nat
  workspaceId : WorkspaceId
  strategyBriefId : Nat
  strategyRunId : Nat
  state : Verdict
  briefSnapshot : BriefSnapshot
  findings : List OpportunityFinding
  warnings : List String
  blockedReasons : List String
  checkedAt : Instant

structure StrategyDb where
  runs : List StrategyRun := []
  briefs : List StrategyBrief := []
  links : List StrategyBriefOpportunity := []
  audits : List StrategyAudit := []

inductive StrategyError where
  | runtime (text : String)
  | value (text : String)
  | lookup (text : String)
  | gate (text : String)
  | index
  | multipleResults
  | integrity (key : String)
  deriving DecidableEq

/-! ## Texts -/

/-- The patterns of the service besides those of research, and the text of an identifier. -/
structure StrategyEnv extends ResearchEnv where
  secretPattern : String → Bool
  overstated : String → Bool
  idText : Nat → String

def strategyText (env : StrategyEnv) (value field : String) (maximum : Nat := 10000) :
    Except StrategyError String :=
  let normalized := env.strip value
  if normalized.isEmpty ∨ maximum < normalized.length then
    .error (.value (field ++ " must be non-empty and at most " ++ toString maximum
      ++ " characters"))
  else if env.untrustedInstruction normalized then
    .error (.value (field ++ " contains an untrusted instruction pattern"))
  else if env.secretPattern normalized then
    .error (.value (field ++ " contains a secret-like value"))
  else .ok normalized

def optionalText (env : StrategyEnv) (field : String) :
    Option String → Except StrategyError (Option String)
  | none => .ok none
  | some value => (strategyText env value field).map some

def BriefTexts.checked (env : StrategyEnv) (t : BriefTexts) : Except StrategyError BriefTexts := do
  return {
    targetAudience := ← optionalText env "target_audience" t.targetAudience
    targetPlatform := ← optionalText env "target_platform" t.targetPlatform
    contentFormat := ← optionalText env "content_format" t.contentFormat
    creativeAngle := ← optionalText env "creative_angle" t.creativeAngle
    coreMessage := ← optionalText env "core_message" t.coreMessage
    hookDirection := ← optionalText env "hook_direction" t.hookDirection
    ctaDirection := ← optionalText env "cta_direction" t.ctaDirection
    businessGoal := ← optionalText env "business_goal" t.businessGoal
    successMetric := ← optionalText env "success_metric" t.successMetric
    commercialGoal := ← optionalText env "commercial_goal" t.commercialGoal
    recommendedLength := ← optionalText env "recommended_length" t.recommendedLength
    recommendedPostingWindow :=
      ← optionalText env "recommended_posting_window" t.recommendedPostingWindow }

/-- The fingerprint is of the texts as they came, not as they are stored. -/
def structuralFingerprint (env : StrategyEnv) (ids : List Nat) (objective : String)
    (t : BriefTexts) : String :=
  let plain (text : String) : String := env.lower (env.strip text)
  env.sha256 (String.intercalate "\n" ((ids.map env.idText).mergeSort (fun a b => decide (a ≤ b))
    ++ [plain objective, plain (t.targetPlatform.getD ""), plain (t.contentFormat.getD ""),
      plain (t.creativeAngle.getD ""), plain (t.hookDirection.getD ""),
      plain (t.ctaDirection.getD ""), plain (t.businessGoal.getD "")]))

/-! ## Lookups -/

def getBrief (db : StrategyDb) (ws : WorkspaceId) (id : Nat) : Option StrategyBrief :=
  db.briefs[id]?.filter fun b => b.workspaceId == ws && b.deletedAt.isNone

/-- In no particular order: `scan` decides. -/
def briefOpportunityIds (scan : Nat → Nat) (db : StrategyDb) (ws : WorkspaceId) (id : Nat) :
    List Nat :=
  ((db.links.filter fun l => l.workspaceId == ws && l.strategyBriefId == id).map
    StrategyBriefOpportunity.opportunityId).insertionSort fun i j => scan i ≤ scan j

/-- `ORDER BY checked_at DESC`. -/
def plannedLater (scan : Nat → Nat) (a b : StrategyAudit) : Prop :=
  b.checkedAt < a.checkedAt ∨ a.checkedAt = b.checkedAt ∧ scan a.id ≤ scan b.id

instance decPlannedLater (scan : Nat → Nat) : DecidableRel (plannedLater scan) := fun a b =>
  inferInstanceAs (Decidable (b.checkedAt < a.checkedAt ∨
    a.checkedAt = b.checkedAt ∧ scan a.id ≤ scan b.id))

/-- `latest_audit` of a brief. -/
def latestStrategyAudit (scan : Nat → Nat) (db : StrategyDb) (ws : WorkspaceId) (id : Nat) :
    Option StrategyAudit :=
  ((db.audits.filter fun a => a.workspaceId == ws && a.strategyBriefId == id).insertionSort
    (plannedLater scan)).head?

/-! ## Runs -/

/-- `_require_research_pass`: every opportunity goes through the gate, which is written down. -/
def requireResearchPass (scan : Nat → Nat) (research : ResearchDb) (ws : WorkspaceId) :
    List Nat → Except StrategyError (ResearchDb × List Opportunity)
  | [] => .ok (research, [])
  | id :: ids =>
      match strategistGate scan research ws id with
      | .error (.gate text) => .error (.gate text)
      | .error _ => .error (.lookup "opportunity not found")
      | .ok research =>
          match getOpportunity research ws id with
          | none => .error (.gate "source opportunity not found")
          | some o => (requireResearchPass scan research ws ids).map fun p => (p.1, o :: p.2)

structure StrategyRequest where
  workspaceId : WorkspaceId
  objective : String
  sourceOpportunityIds : List Nat
  businessContextState : String
  scan : Nat → Nat := fun id => id

/-- `create_manual_run`, with what `get_business_context_state` says. -/
def createManualStrategy (env : StrategyEnv) (research : ResearchDb) (db : StrategyDb)
    (r : StrategyRequest) : Except StrategyError (ResearchDb × StrategyDb) := do
  let objective ← strategyText env r.objective "strategy objective" 1000
  let (research, _) ← requireResearchPass r.scan research r.workspaceId r.sourceOpportunityIds
  let lastError := if r.businessContextState ≠ "complete" then
      "STRATEGY PROVIDER NOT CONFIGURED; BUSINESS CONTEXT INCOMPLETE"
    else "STRATEGY PROVIDER NOT CONFIGURED"
  return (research, { db with runs := db.runs ++ [{
    workspaceId := r.workspaceId
    trigger := "manual"
    strategyObjective := objective
    sourceOpportunityIds := r.sourceOpportunityIds
    status := .providerNotConfigured
    businessContextState := r.businessContextState
    lastError := some lastError }] })

/-- The entries of `fixture_brief` that are read, absent where it has none. -/
structure FixtureBrief where
  objective : Option String := none
  evidenceSummary : Option String := none
  reasoning : Option String := none
  texts : BriefTexts := {}
  businessContextState : Option String := none
  costState : Option String := none
  capabilityState : Option String := none
  performanceDataState : Option String := none
  repetitionState : Option String := none
  repetitionReasons : List String := []

structure BriefRequest where
  workspaceId : WorkspaceId
  objective : String
  sourceOpportunityIds : List Nat
  fixture : FixtureBrief
  scan : Nat → Nat := fun id => id

def fixtureStrategyRun (r : BriefRequest) (objective : String) : StrategyRun where
  workspaceId := r.workspaceId
  trigger := "manual_test_fixture"
  strategyObjective := objective
  sourceOpportunityIds := r.sourceOpportunityIds
  status := .succeeded
  businessContextState := r.fixture.businessContextState.getD "complete"
  briefsCreated := 1

/-- The run when there is such a brief already. -/
def duplicateStrategyRun (r : BriefRequest) (objective : String) : StrategyRun :=
  { fixtureStrategyRun r objective with
    status := .duplicate
    briefsCreated := 0
    lastError := some "DUPLICATE — REUSE OR REVISE" }

def newBrief (r : BriefRequest) (rid : Nat) (objective summary reasoning fingerprint : String)
    (texts : BriefTexts) : StrategyBrief where
  workspaceId := r.workspaceId
  strategyRunId := rid
  objective := objective
  texts := texts
  evidenceSummary := summary
  reasoning := reasoning
  costState := r.fixture.costState.getD "known"
  capabilityState := r.fixture.capabilityState.getD "configured"
  businessContextState := r.fixture.businessContextState.getD "complete"
  performanceDataState := r.fixture.performanceDataState.getD "no_data"
  structuralFingerprint := fingerprint
  repetitionState := r.fixture.repetitionState.getD "clear"
  repetitionReasons := r.fixture.repetitionReasons

/-- What a brief says, checked; the first opportunity lends what the fixture does not say. -/
def draftBrief (env : StrategyEnv) (r : BriefRequest) (objective : String)
    (opportunities : List Opportunity) : Except StrategyError (String × String × String) := do
  let briefObjective ← strategyText env (r.fixture.objective.getD objective) "brief objective"
  match opportunities.head? with
  | none => throw .index
  | some first =>
      let summary ← strategyText env (r.fixture.evidenceSummary.getD first.summary)
        "evidence summary"
      let reasoning ← strategyText env (r.fixture.reasoning.getD first.proposedAngle) "reasoning"
      return (briefObjective, summary, reasoning)

/-- The rows of a new brief. -/
def insertBrief (db : StrategyDb) (r : BriefRequest) (objective : String) (brief : StrategyBrief) :
    StrategyDb :=
  { db with
    runs := db.runs ++ [fixtureStrategyRun r objective]
    briefs := db.briefs ++ [brief]
    links := db.links ++ r.sourceOpportunityIds.map fun id =>
      { workspaceId := r.workspaceId
        strategyBriefId := db.briefs.length
        opportunityId := id } }

/-- `record_fixture_brief`, with the brief that it returns. -/
def recordFixtureBrief (env : StrategyEnv) (research : ResearchDb) (db : StrategyDb)
    (r : BriefRequest) : Except StrategyError (ResearchDb × StrategyDb × Nat) := do
  if !env.test then throw (.runtime "fixture strategy execution is test-only")
  let objective ← strategyText env r.objective "strategy objective" 1000
  let (research, opportunities) ←
    requireResearchPass r.scan research r.workspaceId r.sourceOpportunityIds
  let (briefObjective, summary, reasoning) ← draftBrief env r objective opportunities
  let fingerprint :=
    structuralFingerprint env r.sourceOpportunityIds briefObjective r.fixture.texts
  match Table.select (fun b => b.workspaceId == r.workspaceId
      && b.structuralFingerprint == fingerprint && b.deletedAt.isNone) db.briefs with
  | _ :: _ :: _ => throw .multipleResults
  | [id] =>
      return (research, { db with runs := db.runs ++ [duplicateStrategyRun r objective] }, id)
  | [] =>
      let texts ← r.fixture.texts.checked env
      if db.briefs.any fun b => b.workspaceId == r.workspaceId
          && b.structuralFingerprint == fingerprint then
        throw (.integrity "uq_strategy_briefs_workspace_fp")
      if ¬ r.sourceOpportunityIds.Nodup then throw (.integrity "uq_strategy_brief_opportunity")
      return (research, insertBrief db r objective
        (newBrief r db.runs.length briefObjective summary reasoning fingerprint texts),
        db.briefs.length)

/-! ## The Strategy Auditor -/

/-- The findings up to the first opportunity whose latest audit is no pass, and what it blocks. -/
def sourceFindings (scan : Nat → Nat) (research : ResearchDb) (ws : WorkspaceId) :
    List Nat → List OpportunityFinding × List String
  | [] => ([], [])
  | id :: ids =>
      if (latestResearchAudit scan research ws id).map ResearchAudit.state = some .pass then
        let rest := sourceFindings scan research ws ids
        ({ opportunityId := id, researchAuditState := .pass } :: rest.1, rest.2)
      else ([], ["Research Auditor PASS is required for every source opportunity."])

/-- `not text`. -/
def blank (text : Option String) : Bool := (text.getD "").isEmpty

/-- Why a brief is blocked. -/
def strategyBlocked (env : StrategyEnv) (ids : List Nat) (sources : List String)
    (b : StrategyBrief) : List String :=
  reasonIf ids.isEmpty "No source opportunities are linked to this Strategy Brief."
    ++ sources
    ++ reasonIf (b.businessContextState != "complete" || blank b.texts.businessGoal)
      "BUSINESS CONTEXT INCOMPLETE"
    ++ reasonIf (blank b.texts.targetPlatform || blank b.texts.contentFormat)
      "Target platform and content format are required."
    ++ reasonIf (b.costState == "unknown" || b.costState == "not_configured") "COST UNKNOWN"
    ++ reasonIf (b.capabilityState != "configured") "BLOCKED — REQUIRED CAPABILITY NOT CONFIGURED"
    ++ (if b.repetitionState = "duplicate" ∨ b.repetitionState = "require_differentiation"
          ∨ b.repetitionState = "blocked" then
        if b.repetitionReasons = [] then ["Materially repetitive strategy."]
        else b.repetitionReasons
      else [])
    ++ reasonIf (env.overstated b.reasoning || env.overstated b.evidenceSummary)
      "Unsupported performance or commercial guarantee detected."

def strategyWarnings (b : StrategyBrief) : List String :=
  reasonIf (b.performanceDataState != "no_data")
    "Performance-data state requires a source-backed future check."

structure BriefAuditRequest where
  workspaceId : WorkspaceId
  briefId : Nat
  now : Instant
  scan : Nat → Nat := fun id => id

def newStrategyAudit (env : StrategyEnv) (research : ResearchDb) (db : StrategyDb)
    (r : BriefAuditRequest) (b : StrategyBrief) : StrategyAudit :=
  let ids := briefOpportunityIds r.scan db r.workspaceId r.briefId
  let (findings, sources) := sourceFindings r.scan research r.workspaceId ids
  let blocked := strategyBlocked env ids sources b
  { id := db.audits.length
    workspaceId := r.workspaceId
    strategyBriefId := r.briefId
    strategyRunId := b.strategyRunId
    state := verdictOf blocked (strategyWarnings b)
    briefSnapshot := {
      objective := b.objective
      businessGoal := b.texts.businessGoal
      targetPlatform := b.texts.targetPlatform
      contentFormat := b.texts.contentFormat
      structuralFingerprint := b.structuralFingerprint
      costState := b.costState
      capabilityState := b.capabilityState
      businessContextState := b.businessContextState
      repetitionState := b.repetitionState }
    findings := findings
    warnings := strategyWarnings b
    blockedReasons := blocked
    checkedAt := r.now }

def StrategyBrief.audited (state : Verdict) (b : StrategyBrief) : StrategyBrief :=
  { b with
    auditGateStatus := some state
    writerHandoffState := if state = .pass then .eligible else .blocked
    status := if state = .pass then .auditedPassed else .auditedBlocked }

def StrategyRun.countAudit (ws : WorkspaceId) (state : Verdict) (run : StrategyRun) : StrategyRun :=
  if run.workspaceId = ws then
    { run with
      briefsPassed := if state = .pass then run.briefsPassed + 1 else run.briefsPassed
      briefsBlocked := if state = .pass then run.briefsBlocked else run.briefsBlocked + 1 }
  else run

/-- `audit_brief`. -/
def auditBrief (env : StrategyEnv) (research : ResearchDb) (db : StrategyDb)
    (r : BriefAuditRequest) : Except StrategyError (StrategyDb × StrategyAudit) :=
  match getBrief db r.workspaceId r.briefId with
  | none => .error (.lookup "strategy brief not found")
  | some b =>
      let audit := newStrategyAudit env research db r b
      .ok ({ db with
        runs := db.runs.modify b.strategyRunId (.countAudit r.workspaceId audit.state)
        briefs := db.briefs.modify r.briefId (.audited audit.state)
        audits := db.audits ++ [audit] }, audit)

/-! ## The gate of the Writer -/

def StrategyBrief.sendToWriter (b : StrategyBrief) : StrategyBrief :=
  { b with writerHandoffState := .eligible }

/-- `writer_gate`. -/
def writerGate (scan : Nat → Nat) (db : StrategyDb) (ws : WorkspaceId) (id : Nat) :
    Except StrategyError StrategyDb :=
  match getBrief db ws id with
  | none => .error (.lookup "strategy brief not found")
  | some _ =>
      if (latestStrategyAudit scan db ws id).map StrategyAudit.state = some .pass then
        .ok { db with briefs := db.briefs.modify id .sendToWriter }
      else
        .error (.gate "Independent Strategy Auditor PASS is required before Writer eligibility.")

end HumanGate
