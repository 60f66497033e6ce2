import HumanGate.Custody.Production
import HumanGate.Custody.Strategy

set_option autoImplicit false

/-! # The chain of custody

In every run of the newsroom the books of the five services are right, and each record names what it
rests on: the artifact that goes to the human review, its Media QA and its compliance audit, its
job, the package that four auditors cleared, the brief of the package, the opportunities of the
brief and the sources of the opportunities.
-/

namespace HumanGate

open Lib Lib.Calendar

variable {env : NewsroomEnv} {db db' db'' : NewsroomDb}

/-! ## What stays -/

structure NewsroomDb.Grows (db db' : NewsroomDb) : Prop where
  research : db.research.Grows db'.research
  strategy : db.strategy.Grows db'.strategy
  content : db.content.Grows db'.content
  packageBriefs : Archived id db.packageBriefs db'.packageBriefs
  production : db.production.Grows db'.production

theorem NewsroomDb.Grows.refl (db : NewsroomDb) : db.Grows db :=
  ⟨.refl _, .refl _, .refl _, .refl _ _, .refl _⟩

theorem NewsroomDb.Grows.trans (h : db.Grows db') (h' : db'.Grows db'') : db.Grows db'' := by
  constructor
  · exact h.research.trans h'.research
  · exact h.strategy.trans h'.strategy
  · exact h.content.trans h'.content
  · exact h.packageBriefs.trans h'.packageBriefs
  · exact h.production.trans h'.production

/-- The brief has passed the Strategy Auditor of its workspace. -/
def StrategyDb.Passed (db : StrategyDb) (ws : WorkspaceId) (id : Nat) : Prop :=
  ∃ b, db.briefs[id]? = some b ∧ b.workspaceId = ws ∧
    ∃ a ∈ db.audits, a.workspaceId = ws ∧ a.strategyBriefId = id ∧ a.state = .pass

theorem StrategyDb.Grows.passed {db db' : StrategyDb} (h : db.Grows db') {ws : WorkspaceId}
    {id : Nat} (hb : db.Passed ws id) : db'.Passed ws id := by
  obtain ⟨b, hget, hws, a, ha, hrest⟩ := hb
  obtain ⟨b', hget', hsame⟩ := h.briefs.get hget
  exact ⟨b', hget', (StrategyBrief.columns hsame).1.trans hws, a, h.audits.mem ha, hrest⟩

/-! ## The books -/

structure NewsroomDb.Sound (env : NewsroomEnv) (db : NewsroomDb) : Prop where
  research : db.research.Sound
  strategy : db.strategy.Sound env.strategy db.research
  content : db.content.Sound
  production : db.production.Sound db.content
  /-- Every package has a brief of its workspace, which has passed. -/
  briefs : db.packageBriefs.length = db.content.packages.length
  passed : ∀ (id bid : Nat) (p : ContentPackage), db.packageBriefs[id]? = some bid →
    db.content.packages[id]? = some p → db.strategy.Passed p.workspaceId bid

theorem NewsroomDb.Sound.empty (env : NewsroomEnv) : ({} : NewsroomDb).Sound env :=
  ⟨.empty, .empty _ _, .empty, .empty _, rfl, by simp⟩

theorem ProductionDb.Sound.of_grows {content content' : ContentDb} {db : ProductionDb}
    (h : db.Sound content) (hgrows : content.Grows content') : db.Sound content' :=
  ⟨fun row hrow => hgrows.produces (h.jobs row hrow), h.artifacts, h.hashes, h.mediaQa,
    h.compliance, h.chief, h.readiness, h.eligibility⟩

/-- Research and strategy go on; the packages stay what they are. -/
theorem NewsroomDb.Sound.upstream (hs : db.Sound env) {research : ResearchDb}
    {strategy : StrategyDb} (hresearch : research.Sound)
    (hstrategy : strategy.Sound env.strategy research)
    (hgrows : db.research.Grows research) (hgrows' : db.strategy.Grows strategy) :
    ({ db with research := research, strategy := strategy } : NewsroomDb).Sound env ∧
      db.Grows { db with research := research, strategy := strategy } := by
  refine ⟨⟨hresearch, hstrategy, hs.content, hs.production, hs.briefs, fun id bid p hb hp => ?_⟩,
    hgrows, hgrows', .refl _, .refl _ _, .refl _⟩
  exact hgrows'.passed (hs.passed id bid p hb hp)

theorem NewsroomDb.Sound.toResearch (hs : db.Sound env) {research : ResearchDb}
    (hresearch : research.Sound) (hgrows : db.research.Grows research) :
    ({ db with research := research } : NewsroomDb).Sound env ∧
      db.Grows { db with research := research } :=
  hs.upstream hresearch (hs.strategy.of_grows hgrows) hgrows (.refl _)

theorem NewsroomDb.Sound.toStrategy (hs : db.Sound env) {strategy : StrategyDb}
    (hstrategy : strategy.Sound env.strategy db.research) (hgrows : db.strategy.Grows strategy) :
    ({ db with strategy := strategy } : NewsroomDb).Sound env ∧
      db.Grows { db with strategy := strategy } :=
  hs.upstream hs.research hstrategy (.refl _) hgrows

theorem NewsroomDb.Sound.toProduction (hs : db.Sound env) {production : ProductionDb}
    (h : production.Sound db.content ∧ db.production.Grows production) :
    ({ db with production := production } : NewsroomDb).Sound env ∧
      db.Grows { db with production := production } :=
  ⟨⟨hs.research, hs.strategy, hs.content, h.1, hs.briefs, hs.passed⟩,
    .refl _, .refl _, .refl _, .refl _ _, h.2⟩

/-! ## The content department -/

theorem requireStrategyPass_ok {scan : Nat → Nat} {strategy strategy' : StrategyDb}
    {research : ResearchDb} {ws : WorkspaceId} {id : Nat} {b : StrategyBrief}
    (hs : strategy.Sound env.strategy research)
    (h : requireStrategyPass scan strategy ws id = .ok (strategy', b)) :
    strategy'.Sound env.strategy research ∧ strategy.Grows strategy' ∧ strategy'.Passed ws id := by
  unfold requireStrategyPass at h
  split at h
  · cases h
  · rename_i middle hgate
    split at h
    · cases h
    · rename_i hb
      cases h
      have hgrows := writerGate_grows hgate
      obtain ⟨_, audit, _, hlatest, hpass, _⟩ := writerGate_ok hgate
      obtain ⟨haudit, hauditWs, hid⟩ := mem_latestStrategyAudit hlatest
      obtain ⟨hget, hws⟩ := getBrief_some hb
      exact ⟨writerGate_sound hs hgate, hgrows, b, hget, hws, audit, hgrows.audits.mem haudit,
        hauditWs, hid, hpass⟩

theorem createManualContent_sound {ws : WorkspaceId} {bid : Nat} {scan : Nat → Nat}
    (hs : db.Sound env) (h : createManualContent db ws bid scan = .ok db') :
    db'.Sound env ∧ db.Grows db' := by
  unfold createManualContent at h
  split at h
  · cases h
  · rename_i strategy b hpass
    cases h
    obtain ⟨hstrategy, hgrows, _⟩ := requireStrategyPass_ok hs.strategy hpass
    have hcontent : db.content.Grows
        { db.content with runs := db.content.runs ++ [{ workspaceId := ws }] } :=
      ⟨.refl _ _, .refl _ _⟩
    refine ⟨⟨hs.research, hstrategy, ⟨hs.content.audits, hs.content.gates⟩,
      hs.production.of_grows hcontent, hs.briefs, fun id bid p hb hp => ?_⟩,
      .refl _, hgrows, hcontent, .refl _ _, .refl _⟩
    exact hgrows.passed (hs.passed id bid p hb hp)

theorem audit_sound {r : AuditRequest} {content : ContentDb} {audit : ContentAudit}
    (hs : db.Sound env) (h : recordFixtureAudit env.content db.content r = .ok (content, audit)) :
    ({ db with content := content } : NewsroomDb).Sound env ∧
      db.Grows { db with content := content } := by
  have hgrows := recordFixtureAudit_grows h
  obtain ⟨p, _, _, hpackages⟩ := recordFixtureAudit_ok h
  refine ⟨⟨hs.research, hs.strategy, recordFixtureAudit_sound hs.content h,
    hs.production.of_grows hgrows, ?_, fun id bid p' hb hp => ?_⟩,
    .refl _, .refl _, hgrows, .refl _ _, .refl _⟩
  · rw [hpackages, List.length_modify]
    exact hs.briefs
  · have hlt : id < db.content.packages.length := by
      rw [← hs.briefs]
      exact (List.getElem?_eq_some_iff.mp hb).1
    have hget := List.getElem?_eq_getElem hlt
    obtain ⟨p'', hp'', hsame⟩ := hgrows.packages.get hget
    rw [hp] at hp''
    cases hp''
    simp only [ContentPackage.origin, Prod.mk.injEq] at hsame
    rw [hsame.1]
    exact hs.passed id bid _ hb hget

theorem recordPackage_sound {bid : Nat} {scan : Nat → Nat} {r : PackageRequest}
    (hs : db.Sound env) (h : recordPackage env db bid scan r = .ok db') :
    db'.Sound env ∧ db.Grows db' := by
  unfold recordPackage at h
  split at h
  · obtain ⟨_, _, rfl⟩ := map_ok h
    exact ⟨hs, .refl db⟩
  · rename_i strategy b hpass
    obtain ⟨⟨content, package⟩, hrecorded, rfl⟩ := map_ok h
    obtain ⟨hstrategy, hgrows, hbrief⟩ := requireStrategyPass_ok hs.strategy hpass
    obtain ⟨hsound, hcontent, hlength, hlast, hws⟩ :=
      recordFixturePackage_sound hs.content hrecorded
    refine ⟨⟨hs.research, hstrategy, hsound, hs.production.of_grows hcontent, ?_, ?_⟩,
      .refl _, hgrows, hcontent, .append _ _ _, .refl _⟩
    · rw [List.length_append, List.length_singleton, hs.briefs, hlength]
    · intro id bid' p hb hp
      rcases Table.get_push hb with hold | ⟨hid, hnew⟩
      · -- a package that was there has the brief it had
        have hlt : id < db.content.packages.length := by
          rw [← hs.briefs]
          exact (List.getElem?_eq_some_iff.mp hold).1
        have hget := List.getElem?_eq_getElem hlt
        obtain ⟨p', hp', hsame⟩ := hcontent.packages.get hget
        rw [hp] at hp'
        cases hp'
        simp only [ContentPackage.origin, Prod.mk.injEq] at hsame
        rw [hsame.1]
        exact hgrows.passed (hs.passed id bid' _ hold hget)
      · subst hnew
        rw [hid, hs.briefs, hlast] at hp
        cases hp
        rw [hws]
        exact hbrief

/-! ## Every call -/

theorem newsroomExec_sound (hs : db.Sound env) (o : NewsroomOp) :
    (newsroomExec env db o).Sound env ∧ db.Grows (newsroomExec env db o) := by
  have hsame : db.Sound env ∧ db.Grows db := ⟨hs, .refl db⟩
  -- a call that raises is rolled back
  have hcall : ∀ {ε : Type} (x : Except ε NewsroomDb),
      (∀ new, x = .ok new → new.Sound env ∧ db.Grows new) →
      (commitOr db x).Sound env ∧ db.Grows (commitOr db x) := fun x hx =>
    commitOr_cases (P := fun new => new.Sound env ∧ db.Grows new) hsame hx
  cases o with
  | manualResearch r =>
      exact hs.toResearch (createManualResearch_sound hs.research r)
        (createManualResearch_grows _ _ r)
  | fixtureRun r =>
      refine commitOr_cases (P := fun research : ResearchDb =>
        ({ db with research := research } : NewsroomDb).Sound env ∧
          db.Grows { db with research := research }) hsame fun new h => ?_
      obtain ⟨⟨research, found⟩, hrun, rfl⟩ := map_ok h
      exact hs.toResearch (recordFixtureRun_sound hs.research hrun) (recordFixtureRun_grows hrun)
  | auditOpportunity r =>
      refine commitOr_cases (P := fun research : ResearchDb =>
        ({ db with research := research } : NewsroomDb).Sound env ∧
          db.Grows { db with research := research }) hsame fun new h => ?_
      obtain ⟨⟨research, audit⟩, haudit, rfl⟩ := map_ok h
      exact hs.toResearch (auditOpportunity_sound hs.research haudit)
        (auditOpportunity_grows haudit)
  | strategistGate r =>
      refine commitOr_cases (P := fun research : ResearchDb =>
        ({ db with research := research } : NewsroomDb).Sound env ∧
          db.Grows { db with research := research }) hsame fun new h => ?_
      exact hs.toResearch (strategistGate_sound hs.research h) (strategistGate_grows h)
  | manualStrategy r =>
      refine hcall _ fun new h => ?_
      obtain ⟨⟨research, strategy⟩, hrun, rfl⟩ := map_ok h
      obtain ⟨hresearch, hstrategy⟩ := createManualStrategy_sound hs.research hs.strategy hrun
      obtain ⟨⟨_, hpass⟩, run, rfl, _⟩ := createManualStrategy_ok hrun
      exact hs.upstream hresearch hstrategy (requireResearchPass_grows hpass)
        ⟨.append _ _ _, .refl _ _, .refl _ _, .refl _ _⟩
  | fixtureBrief r =>
      refine hcall _ fun new h => ?_
      obtain ⟨⟨research, strategy, bid⟩, hbrief, rfl⟩ := map_ok h
      obtain ⟨hresearch, hstrategy⟩ := recordFixtureBrief_sound hs.research hs.strategy hbrief
      obtain ⟨hgrows, hgrows'⟩ := recordFixtureBrief_grows hbrief
      exact hs.upstream hresearch hstrategy hgrows hgrows'
  | auditBrief r =>
      refine commitOr_cases (P := fun strategy : StrategyDb =>
        ({ db with strategy := strategy } : NewsroomDb).Sound env ∧
          db.Grows { db with strategy := strategy }) hsame fun new h => ?_
      obtain ⟨⟨strategy, audit⟩, haudit, rfl⟩ := map_ok h
      exact hs.toStrategy (auditBrief_sound hs.strategy haudit) (auditBrief_grows haudit)
  | writerGate r =>
      refine commitOr_cases (P := fun strategy : StrategyDb =>
        ({ db with strategy := strategy } : NewsroomDb).Sound env ∧
          db.Grows { db with strategy := strategy }) hsame fun new h => ?_
      exact hs.toStrategy (writerGate_sound hs.strategy h) (writerGate_grows h)
  | manualContent ws bid scan => exact hcall _ fun new h => createManualContent_sound hs h
  | package bid scan r => exact hcall _ fun new h => recordPackage_sound hs h
  | contentAudit r =>
      refine commitOr_cases (P := fun content : ContentDb =>
        ({ db with content := content } : NewsroomDb).Sound env ∧
          db.Grows { db with content := content }) hsame fun new h => ?_
      obtain ⟨⟨content, audit⟩, haudit, rfl⟩ := map_ok h
      exact audit_sound hs haudit
  | productionRun r =>
      refine commitOr_cases (P := fun production : ProductionDb =>
        ({ db with production := production } : NewsroomDb).Sound env ∧
          db.Grows { db with production := production }) hsame fun new h => ?_
      exact hs.toProduction (insertProductionRun_sound hs.content hs.production h)
  | markTestData | fixtureArtifact | mediaQa | invalidateArtifact | complianceRun | compliancePass
  | chiefAudit | invalidateCompliance | eligibility =>
      exact hs.toProduction (productionExec_sound hs.production _)

theorem newsroom_sound (h : (newsroom env).Reachable db) : db.Sound env := by
  refine h.invariant (I := NewsroomDb.Sound env) ?_ fun s o hs _ => (newsroomExec_sound hs o).1
  rintro s rfl
  exact .empty env

theorem newsroom_grows (hs : db.Sound env) (h : (newsroom env).Steps db db') :
    db'.Sound env ∧ db.Grows db' := by
  induction h with
  | refl => exact ⟨hs, .refl db⟩
  | step _ _ ih =>
      obtain ⟨hsound, hgrows⟩ := newsroomExec_sound ih.1 _
      exact ⟨hsound, ih.2.trans hgrows⟩

/-! ## A short on rain -/

/-- Texts without a pattern, in lower case, and the digests of the two excerpts. -/
def rainEnv : StrategyEnv where
  test := true
  strip text := text
  lower text := text
  canonicalUrl url := .ok url
  untrustedInstruction _ := false
  redactSecrets text := text
  sha256 text :=
    if text = "It rains." then
      "6f58a7623963538dbefa38678f970b43c50f6b65b49eff214bc0ba31c8cbc536"
    else if text = "It pours." then
      "8483291a2b395f5de14709e197b0d25673264a67f28c307eb72b7bbbfd84abc9"
    else text
  secretPattern _ := false
  overstated _ := false
  idText id := toString id

def rainNewsroom : NewsroomEnv := ⟨rainEnv, plainEnv⟩

/-- Two sources on one opportunity, which is audited and sent to the Strategist. -/
def rainSources : List NewsroomOp :=
  [.fixtureRun {
      workspaceId := 0
      objective := "rain"
      sources := [{ url := some "https://example.org/research-a", excerpt := some "It rains." },
        { url := some "https://example.net/research-b", excerpt := some "It pours." }]
      opportunity := {
        title := some "rain"
        topic := some "rain"
        summary := some "it rains"
        proposedAngle := some "why it rains" }
      now := 1 },
   .auditOpportunity { workspaceId := 0, opportunityId := 0, now := 2 },
   .strategistGate { workspaceId := 0, opportunityId := 0, now := 2 }]

/-- A brief on it, which is audited. -/
def rainBrief : List NewsroomOp :=
  [.fixtureBrief {
      workspaceId := 0
      objective := "explain rain"
      sourceOpportunityIds := [0]
      fixture := { texts := {
        targetPlatform := some "youtube"
        contentFormat := some "short"
        businessGoal := some "reach" } } },
   .auditBrief { workspaceId := 0, briefId := 0, now := 3 }]

def rainAudit (auditor : String) : NewsroomOp :=
  .contentAudit {
    workspaceId := 0
    packageId := 0
    auditorType := auditor
    state := "pass"
    now := 5 }

/-- A package that all auditors pass, and an artifact of it that goes to the human review. -/
def rainArtifact : List NewsroomOp :=
  [.package 0 (fun id => id) { workspaceId := 0, brief := .ok "", fixture := {}, now := 4 },
   rainAudit "language", rainAudit "fact", rainAudit "brand", rainAudit "originality",
   .productionRun { workspaceId := 0, contentPackageId := 0 },
   .markTestData 0,
   .fixtureArtifact 0 0 "h1",
   .mediaQa {
      workspaceId := 0
      finalArtifactId := 0
      auditorWorkerId := "qa"
      producerWorkerId := "producer"
      status := "pass" },
   .compliancePass { workspaceId := 0, finalArtifactId := 0 } "compliance-fixture",
   .chiefAudit { workspaceId := 0, finalArtifactId := 0 } "chief-auditor-fixture"]

def rainRun (ops : List NewsroomOp) : NewsroomDb := ops.foldl (newsroomExec rainNewsroom) {}

theorem rain_reachable (ops : List NewsroomOp) :
    (newsroom rainNewsroom).Reachable (rainRun ops) := by
  suffices hsteps : ∀ db, (newsroom rainNewsroom).Reachable db →
      (newsroom rainNewsroom).Reachable (ops.foldl (newsroomExec rainNewsroom) db) from
    hsteps {} (.init rfl)
  induction ops with
  | nil => exact fun db h => h
  | cons o ops ih => exact fun db h => ih _ (h.step trivial)

theorem rain_steps (ops more : List NewsroomOp) :
    (newsroom rainNewsroom).Steps (rainRun ops) (rainRun (ops ++ more)) := by
  have hsteps : ∀ (more : List NewsroomOp) (db : NewsroomDb),
      (newsroom rainNewsroom).Steps db (more.foldl (newsroomExec rainNewsroom) db) := by
    intro more
    induction more with
    | nil => exact fun db => .refl
    | cons o more ih =>
        intro db
        exact (Lib.System.Steps.step .refl (o := o) trivial).trans (ih (newsroomExec _ db o))
  unfold rainRun
  rw [List.foldl_append]
  exact hsteps more _

/-! ## What a run of the newsroom shows -/

/-- The counters are the numbers of what they count, and no source is counted twice. -/
structure NewsroomDb.Balanced (db : NewsroomDb) : Prop where
  researchRuns : ∀ (i : Nat) (run : ResearchRun), db.research.runs[i]? = some run →
    run.opportunityCount = db.research.opportunities.countP (fun o => o.researchRunId == i) ∧
    run.auditedOpportunityCount = db.research.audits.countP (fun a => a.researchRunId == i) ∧
    run.blockedOpportunityCount =
      db.research.audits.countP fun a => a.researchRunId == i && a.state == .blocked
  sourceCount : ∀ (i : Nat) (o : Opportunity), db.research.opportunities[i]? = some o →
    o.sourceCount = db.research.evidence.countP fun e => e.opportunityId == i
  linkedOnce : (db.research.evidence.map OpportunityEvidence.sourceId).Nodup
  accepted : ∀ e ∈ db.research.evidence, ∃ s, db.research.sources[e.sourceId]? = some s ∧
    s.workspaceId = e.workspaceId ∧ s.handlingState = .accepted
  opportunityKeys : ∀ (i j : Nat) (o o' : Opportunity), db.research.opportunities[i]? = some o →
    db.research.opportunities[j]? = some o' → o.workspaceId = o'.workspaceId →
    o.dedupeKey = o'.dedupeKey → i = j
  strategyRuns : ∀ (i : Nat) (run : StrategyRun), db.strategy.runs[i]? = some run →
    run.briefsCreated = db.strategy.briefs.countP (fun b => b.strategyRunId == i) ∧
    run.briefsPassed =
      db.strategy.audits.countP (fun a => a.strategyRunId == i && a.state == .pass) ∧
    run.briefsBlocked = db.strategy.audits.countP fun a => a.strategyRunId == i && a.state != .pass
  briefKeys : ∀ (i j : Nat) (b b' : StrategyBrief), db.strategy.briefs[i]? = some b →
    db.strategy.briefs[j]? = some b' → b.workspaceId = b'.workspaceId →
    b.structuralFingerprint = b'.structuralFingerprint → i = j

/-- **The books balance** in every run of calls that are made one after the other. -/
theorem newsroom_balanced (env : NewsroomEnv) {db : NewsroomDb} (h : (newsroom env).Reachable db) :
    db.Balanced := by
  have hs := newsroom_sound h
  constructor
  case researchRuns => exact hs.research.runCounts
  case sourceCount => exact hs.research.sourceCount
  case linkedOnce => exact hs.research.linkedOnce
  case accepted => exact fun e he => (hs.research.links e he).2
  case opportunityKeys => exact hs.research.keys
  case strategyRuns => exact hs.strategy.runCounts
  case briefKeys => exact hs.strategy.keys

theorem rain_balanced : (rainRun (rainSources ++ rainBrief)).Balanced :=
  newsroom_balanced rainNewsroom (rain_reachable _)

/-- **Sent on evidence.** An opportunity that was sent to the Strategist rests on two accepted
sources of different content, now and at every later time, whatever an audit says of it by then. -/
theorem strategist_evidence (env : NewsroomEnv) {db : NewsroomDb}
    (h : (newsroom env).Reachable db) {i : Nat} {o : Opportunity}
    (ho : db.research.opportunities[i]? = some o) (hsent : o.strategistState = .eligible) :
    ∀ t, (newsroom env).Steps db t → t.research.Evidenced o.workspaceId i := by
  intro t ht
  have hs := newsroom_sound h
  exact (newsroom_grows hs ht).2.research.evidenced (hs.research.evidenced ho hsent)

theorem rain_sent : (rainRun (rainSources ++ rainBrief)).research.Evidenced 0 0 := by
  have hsent : ((rainRun rainSources).research.opportunities[0]?).map (fun o =>
      (o.workspaceId, o.strategistState)) = some (0, .eligible) := by decide +kernel
  obtain ⟨o, ho, heq⟩ := Option.map_eq_some_iff.mp hsent
  rw [Prod.mk.injEq] at heq
  have hevidence := strategist_evidence rainNewsroom (rain_reachable _) ho heq.2 _
    (rain_steps rainSources rainBrief)
  rwa [heq.1] at hevidence

/-- What the Writer has in hand. -/
structure NewsroomDb.Briefed (env : NewsroomEnv) (db : NewsroomDb) (ws : WorkspaceId) (id : Nat)
    (b : StrategyBrief) : Prop where
  brief : db.strategy.briefs[id]? = some b ∧ b.workspaceId = ws
  audit : ∃ a ∈ db.strategy.audits, a.workspaceId = ws ∧ a.strategyBriefId = id ∧ a.state = .pass
  complete : b.Complete env.strategy
  linked : ∃ l ∈ db.strategy.links, l.workspaceId = ws ∧ l.strategyBriefId = id
  evidence : ∀ l ∈ db.strategy.links, l.strategyBriefId = id →
    l.workspaceId = ws ∧ db.research.Evidenced ws l.opportunityId

theorem NewsroomDb.Sound.briefed (hs : db.Sound env) {ws : WorkspaceId} {id : Nat}
    (h : db.strategy.Passed ws id) : ∃ b, db.Briefed env ws id b := by
  obtain ⟨b, hget, hws, a, ha, hauditWs, hid, hpass⟩ := h
  obtain ⟨b', hget', _, _, hcomplete⟩ := hs.strategy.audited a ha
  rw [hid] at hget'
  have hsame : b' = b := Option.some.inj (hget'.symm.trans hget)
  subst hsame
  obtain ⟨l, hl, hlws, hlid⟩ := hs.strategy.linked id b' hget
  refine ⟨b', ⟨hget, hws⟩, ⟨a, ha, hauditWs, hid, hpass⟩, hcomplete hpass,
    ⟨l, hl, hlws.trans hws, hlid⟩, fun l hl hlid => ?_⟩
  obtain ⟨⟨b, hb, hbws⟩, hevidence⟩ := hs.strategy.links l hl
  rw [hlid, hget] at hb
  cases hb
  have hlws : l.workspaceId = ws := hbws.symm.trans hws
  rw [hlws] at hevidence
  exact ⟨hlws, hevidence⟩

/-- **Handed over on evidence.** A brief that was handed to the Writer is complete, passed its audit
and is on opportunities with evidence, now and at every later time. -/
theorem writer_evidence (env : NewsroomEnv) {db : NewsroomDb} (h : (newsroom env).Reachable db)
    {i : Nat} {b : StrategyBrief} (hb : db.strategy.briefs[i]? = some b)
    (hsent : b.writerHandoffState = .eligible) :
    ∀ t, (newsroom env).Steps db t → ∃ b', t.Briefed env b.workspaceId i b' := by
  intro t ht
  have hs := newsroom_sound h
  obtain ⟨hlater, hgrows⟩ := newsroom_grows hs ht
  exact hlater.briefed (hgrows.strategy.passed ⟨b, hb, rfl, hs.strategy.sent i b hb hsent⟩)

theorem rain_handed_over :
    ∃ b, (rainRun (rainSources ++ rainBrief ++ rainArtifact)).Briefed rainNewsroom 0 0 b := by
  have hsent : ((rainRun (rainSources ++ rainBrief)).strategy.briefs[0]?).map (fun b =>
      (b.workspaceId, b.writerHandoffState)) = some (0, .eligible) := by decide +kernel
  obtain ⟨b, hb, heq⟩ := Option.map_eq_some_iff.mp hsent
  rw [Prod.mk.injEq] at heq
  have hbriefed := writer_evidence rainNewsroom (rain_reachable _) hb heq.2 _
    (rain_steps (rainSources ++ rainBrief) rainArtifact)
  rwa [heq.1] at hbriefed

/-- What an artifact rests on that the Chief Auditor passed to the human review. -/
structure NewsroomDb.Custody (env : NewsroomEnv) (db : NewsroomDb) (c : ChiefAudit)
    (a : FinalArtifact) (row : ProductionRow) (p : ContentPackage) (bid : Nat) (b : StrategyBrief) :
    Prop where
  artifact : db.production.artifacts[c.finalArtifactId]? = some a ∧
    a.workspaceId = c.workspaceId ∧ a.artifactHash = c.artifactHash ∧
    a.contentVersionId = c.contentVersionId
  mediaQa : db.production.MediaPassed c.workspaceId c.finalArtifactId c.artifactHash
  compliance : db.production.CompliancePassed c.workspaceId c.finalArtifactId c.artifactHash
    c.contentVersionId
  job : db.production.jobs[a.productionJobId]? = some row ∧
    row.job.request.workspaceId = c.workspaceId ∧ row.job.contentVersionId = c.contentVersionId
  package : db.content.packages[row.job.request.contentPackageId]? = some p ∧
    p.workspaceId = c.workspaceId ∧ p.contentVersionId = c.contentVersionId
  cleared : db.content.Cleared row.job.request.contentPackageId p
  briefId : db.packageBriefs[row.job.request.contentPackageId]? = some bid
  brief : db.Briefed env c.workspaceId bid b

/-- **The chain of custody.** Whatever the newsroom does and in whatever order, an artifact that the
Chief Auditor passed to the human review has every link behind it, of one workspace and one version,
down to the sources. -/
theorem chain_of_custody (env : NewsroomEnv) {db : NewsroomDb} (h : (newsroom env).Reachable db)
    {c : ChiefAudit} (hc : c ∈ db.production.chiefAudits)
    (hpass : c.status = "pass_to_human_review") :
    ∃ a row p bid b, db.Custody env c a row p bid b := by
  have hs := newsroom_sound h
  -- from the audit back to the artifact, its job and its package
  obtain ⟨⟨a, ha, haws, hhash, hversion⟩, hpassed⟩ := hs.production.chief c hc
  obtain ⟨hmedia, hcompliance⟩ := hpassed hpass
  obtain ⟨row, hrow, hrowWs, hrowVersion⟩ := hs.production.artifacts a (Table.mem_of_get ha)
  obtain ⟨p, hp, hpws, hpversion, hcleared⟩ := hs.production.jobs row (Table.mem_of_get hrow)
  -- the package has a brief
  have hlt : row.job.request.contentPackageId < db.packageBriefs.length := by
    rw [hs.briefs]
    exact (List.getElem?_eq_some_iff.mp hp).1
  obtain ⟨bid, hbid⟩ : ∃ bid, db.packageBriefs[row.job.request.contentPackageId]? = some bid :=
    ⟨_, List.getElem?_eq_getElem hlt⟩
  obtain ⟨b, hbrief⟩ := hs.briefed (hs.passed _ _ p hbid hp)
  have hws : p.workspaceId = c.workspaceId := hpws.trans (hrowWs.trans haws)
  rw [hws] at hbrief
  refine ⟨a, row, p, bid, b, ?_⟩
  constructor
  case artifact => exact ⟨ha, haws, hhash, hversion⟩
  case mediaQa => exact hmedia
  case compliance => exact hcompliance
  case job => exact ⟨hrow, hrowWs.trans haws, hrowVersion.trans hversion⟩
  case package => exact ⟨hp, hws, hpversion.trans (hrowVersion.trans hversion)⟩
  case cleared => exact hcleared
  case briefId => exact hbid
  case brief => exact hbrief

theorem rain_custody :
    ∃ c a row p bid b, c.status = "pass_to_human_review" ∧
      (rainRun (rainSources ++ rainBrief ++ rainArtifact)).Custody rainNewsroom c a row p
        bid b := by
  have hpass : ((rainRun (rainSources ++ rainBrief ++ rainArtifact)).production.chiefAudits[0]?).map
      ChiefAudit.status = some "pass_to_human_review" := by decide +kernel
  obtain ⟨c, hc, hstatus⟩ := Option.map_eq_some_iff.mp hpass
  obtain ⟨a, row, p, bid, b, hcustody⟩ :=
    chain_of_custody rainNewsroom (rain_reachable _) (Table.mem_of_get hc) hstatus
  exact ⟨c, a, row, p, bid, b, hstatus, hcustody⟩

end HumanGate
