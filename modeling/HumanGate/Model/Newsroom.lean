import HumanGate.Model.Production
import HumanGate.Model.Strategy

set_option autoImplicit false

/-! # The newsroom

Research, strategy, the content department, production and compliance on one database, where they
call each other: the content department asks the gate of the Writer for its brief, and production
reads the gate of the content department. Every call is one transaction.
-/

namespace HumanGate

open Lib Lib.Calendar

structure NewsroomEnv where
  strategy : StrategyEnv
  content : ContentEnv

/-- `packageBriefs` is the column `strategy_brief_id` of the packages. -/
structure NewsroomDb where
  research : ResearchDb := {}
  strategy : StrategyDb := {}
  content : ContentDb := {}
  packageBriefs : List Nat := []
  production : ProductionDb := {}

/-! ## The content department asks for its brief -/

/-- `str(exc)` of what the gate of the Writer raises. -/
def StrategyError.text : StrategyError → String
  | .runtime text | .value text | .lookup text | .gate text => text
  | .index => "list index out of range"
  | .multipleResults => "Multiple rows were found when one or none was required"
  | .integrity key => key

/-- `_require_strategy_pass`. -/
def requireStrategyPass (scan : Nat → Nat) (db : StrategyDb) (ws : WorkspaceId) (id : Nat) :
    Except String (StrategyDb × StrategyBrief) :=
  match writerGate scan db ws id with
  | .error e => .error e.text
  | .ok db =>
      match getBrief db ws id with
      | none => .error "approved strategy brief not found"
      | some b => .ok (db, b)

/-- `create_manual_run` of the content department. -/
def createManualContent (db : NewsroomDb) (ws : WorkspaceId) (briefId : Nat) (scan : Nat → Nat) :
    Except ContentError NewsroomDb :=
  match requireStrategyPass scan db.strategy ws briefId with
  | .error text => .error (.gate text)
  | .ok (strategy, _) =>
      .ok { db with
        strategy := strategy
        content := { db.content with runs := db.content.runs ++ [{ workspaceId := ws }] } }

/-- `record_fixture_package` with the brief that it asks for. -/
def recordPackage (env : NewsroomEnv) (db : NewsroomDb) (briefId : Nat) (scan : Nat → Nat)
    (r : PackageRequest) : Except ContentError NewsroomDb :=
  match requireStrategyPass scan db.strategy r.workspaceId briefId with
  | .error text =>
      (recordFixturePackage env.content db.content { r with brief := .error text }).map fun _ => db
  | .ok (strategy, b) =>
      (recordFixturePackage env.content db.content { r with brief := .ok b.objective }).map
        fun p => { db with
          strategy := strategy
          content := p.1
          packageBriefs := db.packageBriefs ++ [briefId] }

/-! ## Sequences of calls -/

/-- `markTestData` is a write of the column that only the tests of the services make. -/
inductive NewsroomOp where
  | manualResearch (r : ManualResearch)
  | fixtureRun (r : ResearchRequest)
  | auditOpportunity (r : OpportunityRequest)
  | strategistGate (r : OpportunityRequest)
  | manualStrategy (r : StrategyRequest)
  | fixtureBrief (r : BriefRequest)
  | auditBrief (r : BriefAuditRequest)
  | writerGate (r : BriefAuditRequest)
  | manualContent (ws : WorkspaceId) (briefId : Nat) (scan : Nat → Nat)
  | package (briefId : Nat) (scan : Nat → Nat) (r : PackageRequest)
  | contentAudit (r : AuditRequest)
  | productionRun (r : ProductionRequest)
  | markTestData (jobId : Nat)
  | fixtureArtifact (ws : WorkspaceId) (jobId : Nat) (artifactHash : String)
  | mediaQa (r : MediaQaRequest)
  | invalidateArtifact (r : ArtifactRequest) (reason : String)
  | complianceRun (r : ArtifactRequest) (targetPlatform : String)
  | compliancePass (r : ArtifactRequest) (workerId : String)
  | chiefAudit (r : ArtifactRequest) (workerId : String)
  | invalidateCompliance (ws : WorkspaceId) (auditId : Nat) (reason : String)
  | eligibility (r : ArtifactRequest) (targetPlatform : String)

/-- What a call leaves: what it returns, or what was there if it raised. -/
def commitOr {ε α : Type} (old : α) : Except ε α → α
  | .ok new => new
  | .error _ => old

def ProductionRow.mark (row : ProductionRow) : ProductionRow := { row with testData := true }

/-- The tables of production after a call of production or compliance. -/
def productionExec (db : ProductionDb) : NewsroomOp → ProductionDb
  | .markTestData jobId => { db with jobs := db.jobs.modify jobId .mark }
  | .fixtureArtifact ws jobId hash => commitOr db (createTestFixtureArtifact db ws jobId hash)
  | .mediaQa r => commitOr db (createTestMediaQa db r)
  | .invalidateArtifact r reason => commitOr db (invalidateArtifact db r reason)
  | .complianceRun r platform => commitOr db (createComplianceRun db r platform)
  | .compliancePass r workerId => commitOr db (createTestCompliancePass db r workerId)
  | .chiefAudit r workerId => commitOr db (runTestChiefAudit db r workerId)
  | .invalidateCompliance ws auditId reason =>
      commitOr db (invalidateCompliance db ws auditId reason)
  | .eligibility r platform => commitOr db (publicationEligibility db r platform)
  | _ => db

def newsroomExec (env : NewsroomEnv) (db : NewsroomDb) : NewsroomOp → NewsroomDb
  | .manualResearch r =>
      { db with research := createManualResearch env.strategy.toResearchEnv db.research r }
  | .fixtureRun r => { db with
      research := commitOr db.research
        ((recordFixtureRun env.strategy.toResearchEnv db.research r).map Prod.fst) }
  | .auditOpportunity r => { db with
      research := commitOr db.research ((auditOpportunity db.research r).map Prod.fst) }
  | .strategistGate r => { db with
      research := commitOr db.research
        (strategistGate r.scan db.research r.workspaceId r.opportunityId) }
  | .manualStrategy r =>
      commitOr db ((createManualStrategy env.strategy db.research db.strategy r).map fun p =>
        { db with research := p.1, strategy := p.2 })
  | .fixtureBrief r =>
      commitOr db ((recordFixtureBrief env.strategy db.research db.strategy r).map fun p =>
        { db with research := p.1, strategy := p.2.1 })
  | .auditBrief r => { db with
      strategy := commitOr db.strategy
        ((auditBrief env.strategy db.research db.strategy r).map Prod.fst) }
  | .writerGate r => { db with
      strategy := commitOr db.strategy
        (writerGate r.scan db.strategy r.workspaceId r.briefId) }
  | .manualContent ws briefId scan => commitOr db (createManualContent db ws briefId scan)
  | .package briefId scan r => commitOr db (recordPackage env db briefId scan r)
  | .contentAudit r => { db with
      content := commitOr db.content
        ((recordFixtureAudit env.content db.content r).map Prod.fst) }
  | .productionRun r => { db with
      production := commitOr db.production (insertProductionRun db.content db.production r) }
  | o => { db with production := productionExec db.production o }

/-- The newsroom, from its empty tables on. Its calls run one after the other; the services read a
counter, add to it and write it back without a lock. -/
def newsroom (env : NewsroomEnv) : System NewsroomDb NewsroomOp where
  init db := db = {}
  allowed _ _ := True
  exec := newsroomExec env

end HumanGate
