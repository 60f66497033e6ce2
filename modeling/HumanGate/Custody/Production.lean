import HumanGate.Custody.Content
import HumanGate.Model.Newsroom

set_option autoImplicit false

/-! # What an artifact rests on

Production jobs are of cleared packages, artifacts are of jobs, and each audit is of the hash of its
artifact and of what was audited before it. None of these rows is ever changed or removed. Readiness
stays blocked and eligibility is never granted.
-/

namespace HumanGate

open Lib Lib.Calendar

variable {content content' : ContentDb} {db db' db'' : ProductionDb}

/-! ## Queries -/

theorem firstId_get {ρ : Type} {scan : Nat → Nat} {p : ρ → Bool} {rows : List ρ} {i : Nat}
    (h : firstId scan p rows = some i) : ∃ row, rows[i]? = some row ∧ p row = true :=
  Table.mem_select.mp (Ranking.head_mem _ h)

theorem firstRow_mem {ρ : Type} {scan : Nat → Nat} {p : ρ → Bool} {rows : List ρ} {row : ρ}
    (h : firstRow scan p rows = some row) : row ∈ rows ∧ p row = true := by
  obtain ⟨i, hi, hrow⟩ := Option.bind_eq_some_iff.mp h
  obtain ⟨row', hrow', hp⟩ := firstId_get hi
  rw [hrow] at hrow'
  cases hrow'
  exact ⟨Table.mem_of_get hrow, hp⟩

theorem findArtifact_ok {ws : WorkspaceId} {id : Nat} {a : FinalArtifact}
    (h : findArtifact db ws id = .ok a) : db.artifacts[id]? = some a ∧ a.workspaceId = ws := by
  unfold findArtifact at h
  split at h
  · cases h
  · rename_i a' ha
    cases h
    obtain ⟨hget, hws⟩ := Option.filter_eq_some_iff.mp ha
    exact ⟨hget, beq_iff_eq.mp hws⟩

/-! ## What stays -/

/-- The columns of a job that are written once. -/
def ProductionRow.origin (row : ProductionRow) : ProductionJob := row.job

structure ProductionDb.Grows (db db' : ProductionDb) : Prop where
  jobs : Archived ProductionRow.origin db.jobs db'.jobs
  artifacts : Archived id db.artifacts db'.artifacts
  mediaQa : Archived id db.mediaQa db'.mediaQa
  complianceAudits : Archived id db.complianceAudits db'.complianceAudits
  chiefAudits : Archived id db.chiefAudits db'.chiefAudits

theorem ProductionDb.Grows.refl (db : ProductionDb) : db.Grows db :=
  ⟨.refl _ _, .refl _ _, .refl _ _, .refl _ _, .refl _ _⟩

theorem ProductionDb.Grows.trans (h : db.Grows db') (h' : db'.Grows db'') : db.Grows db'' := by
  constructor
  · exact h.jobs.trans h'.jobs
  · exact h.artifacts.trans h'.artifacts
  · exact h.mediaQa.trans h'.mediaQa
  · exact h.complianceAudits.trans h'.complianceAudits
  · exact h.chiefAudits.trans h'.chiefAudits

/-- A Media QA result of the workspace that passes the artifact as it is. -/
def ProductionDb.MediaPassed (db : ProductionDb) (ws : WorkspaceId) (id : Nat) (hash : String) :
    Prop :=
  ∃ q ∈ db.mediaQa, q.workspaceId = ws ∧ q.finalArtifactId = id ∧ q.artifactHash = hash ∧
    q.status = "pass"

/-- A compliance audit of the workspace and the version that passes the artifact as it is. -/
def ProductionDb.CompliancePassed (db : ProductionDb) (ws : WorkspaceId) (id : Nat) (hash : String)
    (version : Nat) : Prop :=
  ∃ c ∈ db.complianceAudits, c.workspaceId = ws ∧ c.finalArtifactId = id ∧ c.artifactHash = hash ∧
    c.contentVersionId = version ∧ c.status = "pass"

theorem ProductionDb.Grows.mediaPassed (h : db.Grows db') {ws : WorkspaceId} {id : Nat}
    {hash : String} (hq : db.MediaPassed ws id hash) : db'.MediaPassed ws id hash := by
  obtain ⟨q, hmem, hrest⟩ := hq
  exact ⟨q, h.mediaQa.mem hmem, hrest⟩

theorem ProductionDb.Grows.compliancePassed (h : db.Grows db') {ws : WorkspaceId} {id : Nat}
    {hash : String} {version : Nat} (hc : db.CompliancePassed ws id hash version) :
    db'.CompliancePassed ws id hash version := by
  obtain ⟨c, hmem, hrest⟩ := hc
  exact ⟨c, h.complianceAudits.mem hmem, hrest⟩

/-! ## The books -/

/-- The job is of a package that was cleared, and of its version. -/
def ContentDb.Produces (content : ContentDb) (job : ProductionJob) : Prop :=
  ∃ p, content.packages[job.request.contentPackageId]? = some p ∧
    p.workspaceId = job.request.workspaceId ∧ p.contentVersionId = job.contentVersionId ∧
    content.Cleared job.request.contentPackageId p

theorem ContentDb.Grows.produces (h : content.Grows content') {job : ProductionJob}
    (hjob : content.Produces job) : content'.Produces job := by
  obtain ⟨p, hp, hws, hversion, hcleared⟩ := hjob
  obtain ⟨p', hp', hsame⟩ := h.packages.get hp
  have hcleared' := h.cleared hcleared hsame
  simp only [ContentPackage.origin, Prod.mk.injEq] at hsame
  exact ⟨p', hp', hsame.1.trans hws, hsame.2.1.trans hversion, hcleared'⟩

/-- The artifact that an audit names, as the audit describes it. -/
def ProductionDb.Describes (db : ProductionDb) (id : Nat) (ws : WorkspaceId) (hash : String)
    (version : Nat) : Prop :=
  ∃ a, db.artifacts[id]? = some a ∧ a.workspaceId = ws ∧ a.artifactHash = hash ∧
    a.contentVersionId = version

theorem ProductionDb.Grows.describes (h : db.Grows db') {id : Nat} {ws : WorkspaceId}
    {hash : String} {version : Nat} (ha : db.Describes id ws hash version) :
    db'.Describes id ws hash version := by
  obtain ⟨a, hget, hrest⟩ := ha
  exact ⟨a, h.artifacts.get_self hget, hrest⟩

/-- A compliance audit describes its artifact, and passes it only after Media QA. -/
def ProductionDb.Complies (db : ProductionDb) (c : ComplianceAudit) : Prop :=
  db.Describes c.finalArtifactId c.workspaceId c.artifactHash c.contentVersionId ∧
    (c.status = "pass" → db.MediaPassed c.workspaceId c.finalArtifactId c.artifactHash)

theorem ProductionDb.Grows.complies (h : db.Grows db') {c : ComplianceAudit} (hc : db.Complies c) :
    db'.Complies c :=
  ⟨h.describes hc.1, fun hpass => h.mediaPassed (hc.2 hpass)⟩

/-- The Chief Auditor describes the artifact, and passes it only after Media QA and compliance. -/
def ProductionDb.Reconciles (db : ProductionDb) (c : ChiefAudit) : Prop :=
  db.Describes c.finalArtifactId c.workspaceId c.artifactHash c.contentVersionId ∧
    (c.status = "pass_to_human_review" →
      db.MediaPassed c.workspaceId c.finalArtifactId c.artifactHash ∧
      db.CompliancePassed c.workspaceId c.finalArtifactId c.artifactHash c.contentVersionId)

theorem ProductionDb.Grows.reconciles (h : db.Grows db') {c : ChiefAudit} (hc : db.Reconciles c) :
    db'.Reconciles c :=
  ⟨h.describes hc.1, fun hpass => ⟨h.mediaPassed (hc.2 hpass).1, h.compliancePassed (hc.2 hpass).2⟩⟩

structure ProductionDb.Sound (content : ContentDb) (db : ProductionDb) : Prop where
  jobs : ∀ row ∈ db.jobs, content.Produces row.job
  artifacts : ∀ a ∈ db.artifacts, ∃ row, db.jobs[a.productionJobId]? = some row ∧
    row.job.request.workspaceId = a.workspaceId ∧ row.job.contentVersionId = a.contentVersionId
  /-- An artifact of the workspace is known by its hash. -/
  hashes : ∀ (i j : Nat) (a a' : FinalArtifact), db.artifacts[i]? = some a →
    db.artifacts[j]? = some a' → a.workspaceId = a'.workspaceId → a.artifactHash = a'.artifactHash →
    i = j
  mediaQa : ∀ q ∈ db.mediaQa, ∃ version,
    db.Describes q.finalArtifactId q.workspaceId q.artifactHash version
  compliance : ∀ c ∈ db.complianceAudits, db.Complies c
  chief : ∀ c ∈ db.chiefAudits, db.Reconciles c
  readiness : ∀ p ∈ db.readiness, p.status = "blocked" ∧ p.humanReviewState = "blocked" ∧
    p.blockingReasons ≠ []
  eligibility : ∀ e ∈ db.eligibility, e.publicationEligible = false ∧ e.status = "blocked" ∧
    "external_publishing_disabled" ∈ e.blockingReasons

theorem ProductionDb.Sound.empty (content : ContentDb) : ({} : ProductionDb).Sound content := by
  constructor <;> simp

/-- Jobs and artifacts stay; every other row is an old one, or holds of what was there. -/
theorem ProductionDb.Sound.extend (hs : db.Sound content) (hgrows : db.Grows db')
    (hjobs : db'.jobs = db.jobs) (hartifacts : db'.artifacts = db.artifacts)
    (hmedia : ∀ q ∈ db'.mediaQa, q ∈ db.mediaQa ∨
      ∃ version, db.Describes q.finalArtifactId q.workspaceId q.artifactHash version)
    (hcompliance : ∀ c ∈ db'.complianceAudits, c ∈ db.complianceAudits ∨ db.Complies c)
    (hchief : ∀ c ∈ db'.chiefAudits, c ∈ db.chiefAudits ∨ db.Reconciles c)
    (hreadiness : ∀ p ∈ db'.readiness, p.status = "blocked" ∧ p.humanReviewState = "blocked" ∧
      p.blockingReasons ≠ [])
    (heligibility : ∀ e ∈ db'.eligibility, e.publicationEligible = false ∧ e.status = "blocked" ∧
      "external_publishing_disabled" ∈ e.blockingReasons) : db'.Sound content := by
  constructor
  case jobs =>
    rw [hjobs]
    exact hs.jobs
  case artifacts =>
    rw [hartifacts, hjobs]
    exact hs.artifacts
  case hashes =>
    rw [hartifacts]
    exact hs.hashes
  case mediaQa =>
    intro q hq
    rcases hmedia q hq with hold | ⟨version, hnew⟩
    · obtain ⟨version, hdescribes⟩ := hs.mediaQa q hold
      exact ⟨version, hgrows.describes hdescribes⟩
    · exact ⟨version, hgrows.describes hnew⟩
  case compliance =>
    intro c hc
    rcases hcompliance c hc with hold | hnew
    · exact hgrows.complies (hs.compliance c hold)
    · exact hgrows.complies hnew
  case chief =>
    intro c hc
    rcases hchief c hc with hold | hnew
    · exact hgrows.reconciles (hs.chief c hold)
    · exact hgrows.reconciles hnew
  case readiness => exact hreadiness
  case eligibility => exact heligibility

/-! ## Jobs and artifacts -/

/-- `create_production_run` finds a package whose gate is passed. -/
theorem insertProductionRun_sound {r : ProductionRequest} (hc : content.Sound)
    (hs : db.Sound content) (h : insertProductionRun content db r = .ok db') :
    db'.Sound content ∧ db.Grows db' := by
  obtain ⟨job, hjob, rfl⟩ := map_ok h
  have hproduces : content.Produces job := by
    unfold createProductionRun at hjob
    split at hjob
    · cases hjob
    · rename_i p hp
      split at hjob
      · cases hjob
      · rename_i hgate
        cases hjob
        obtain ⟨hget, hws⟩ := Option.filter_eq_some_iff.mp hp
        exact ⟨p, hget, beq_iff_eq.mp hws, rfl, hc.gates _ p hget (not_not.mp hgate)⟩
  refine ⟨?_, .append _ _ _, .refl _ _, .refl _ _, .refl _ _, .refl _ _⟩
  constructor
  case jobs => exact Table.forall_push hs.jobs hproduces
  case artifacts =>
    intro a ha
    obtain ⟨row, hrow, hrest⟩ := hs.artifacts a ha
    exact ⟨row, Table.get_push_of_some hrow, hrest⟩
  case hashes => exact hs.hashes
  case mediaQa => exact hs.mediaQa
  case compliance => exact hs.compliance
  case chief => exact hs.chief
  case readiness => exact hs.readiness
  case eligibility => exact hs.eligibility

theorem markTestData_sound (hs : db.Sound content) (jobId : Nat) :
    ({ db with jobs := db.jobs.modify jobId .mark } : ProductionDb).Sound content ∧
      db.Grows { db with jobs := db.jobs.modify jobId .mark } := by
  have hgrows : db.Grows { db with jobs := db.jobs.modify jobId .mark } :=
    ⟨.modify (f := ProductionRow.mark) (fun _ => rfl) _ _, .refl _ _, .refl _ _, .refl _ _,
      .refl _ _⟩
  refine ⟨?_, hgrows⟩
  constructor
  case jobs =>
    exact Table.forall_modify hs.jobs fun old hold => hs.jobs old (Table.mem_of_get hold)
  case artifacts =>
    intro a ha
    obtain ⟨row, hrow, hws, hversion⟩ := hs.artifacts a ha
    obtain ⟨row', hrow', hsame⟩ := hgrows.jobs.get hrow
    have hjob : row'.job = row.job := hsame
    exact ⟨row', hrow', hjob ▸ hws, hjob ▸ hversion⟩
  case hashes => exact hs.hashes
  case mediaQa => exact hs.mediaQa
  case compliance => exact hs.compliance
  case chief => exact hs.chief
  case readiness => exact hs.readiness
  case eligibility => exact hs.eligibility

theorem createTestFixtureArtifact_sound {ws : WorkspaceId} {jobId : Nat} {hash : String}
    (hs : db.Sound content) (h : createTestFixtureArtifact db ws jobId hash = .ok db') :
    db'.Sound content ∧ db.Grows db' := by
  unfold createTestFixtureArtifact at h
  split at h
  · cases h
  rename_i row hrow
  split at h
  · cases h
  split at h
  · cases h
  rename_i hfresh
  cases h
  obtain ⟨hget, hws⟩ := Option.filter_eq_some_iff.mp hrow
  -- no artifact of the workspace has the hash
  have hother : ∀ a ∈ db.artifacts, a.workspaceId = ws → a.artifactHash ≠ hash := by
    intro a ha hsame hhash
    refine hfresh (List.any_eq_true.mpr ⟨a, ha, ?_⟩)
    simp [hsame, hhash]
  have hgrows : db.Grows { db with artifacts := db.artifacts ++ [{
      workspaceId := ws
      productionJobId := jobId
      contentVersionId := row.job.contentVersionId
      artifactHash := hash }] } :=
    ⟨.refl _ _, .append _ _ _, .refl _ _, .refl _ _, .refl _ _⟩
  refine ⟨?_, hgrows⟩
  constructor
  case jobs => exact hs.jobs
  case artifacts =>
    exact Table.forall_push hs.artifacts ⟨row, hget, beq_iff_eq.mp hws, rfl⟩
  case hashes =>
    intro i j a a' hi hj hsame hhash
    rcases Table.get_push hi with hold | ⟨hlast, hnew⟩
    · rcases Table.get_push hj with hold' | ⟨_, hnew'⟩
      · exact hs.hashes i j a a' hold hold' hsame hhash
      · rw [hnew'] at hsame hhash
        exact absurd hhash (hother a (Table.mem_of_get hold) hsame)
    · rcases Table.get_push hj with hold' | ⟨hlast', _⟩
      · rw [hnew] at hsame hhash
        exact absurd hhash.symm (hother a' (Table.mem_of_get hold') hsame.symm)
      · rw [hlast, hlast']
  case mediaQa =>
    intro q hq
    obtain ⟨version, hdescribes⟩ := hs.mediaQa q hq
    exact ⟨version, hgrows.describes hdescribes⟩
  case compliance => exact fun c hc => hgrows.complies (hs.compliance c hc)
  case chief => exact fun c hc => hgrows.reconciles (hs.chief c hc)
  case readiness => exact hs.readiness
  case eligibility => exact hs.eligibility

/-! ## Media QA -/

theorem newReadiness_blocked (r : MediaQaRequest) (a : FinalArtifact) :
    (newReadiness r a).status = "blocked" ∧ (newReadiness r a).humanReviewState = "blocked" ∧
      (newReadiness r a).blockingReasons ≠ [] := by
  refine ⟨rfl, rfl, ?_⟩
  simp [newReadiness]

theorem createTestMediaQa_sound {r : MediaQaRequest} (hs : db.Sound content)
    (h : createTestMediaQa db r = .ok db') : db'.Sound content ∧ db.Grows db' := by
  unfold createTestMediaQa at h
  obtain ⟨a, ha, h⟩ := bind_ok h
  obtain ⟨hget, hws⟩ := findArtifact_ok ha
  split at h
  · cases h
  split at h
  · cases h
  split at h
  · cases h
  split at h
  · cases h
  cases h
  have hgrows : db.Grows { db with
      mediaQa := db.mediaQa ++ [newMediaQa r a]
      readiness := db.readiness ++ [newReadiness r a] } :=
    ⟨.refl _ _, .refl _ _, .append _ _ _, .refl _ _, .refl _ _⟩
  refine ⟨hs.extend hgrows rfl rfl ?_ (fun c hc => .inl hc) (fun c hc => .inl hc) ?_ hs.eligibility,
    hgrows⟩
  · intro q hq
    rcases List.mem_append.mp hq with hold | hnew
    · exact .inl hold
    · rw [List.mem_singleton.mp hnew]
      exact .inr ⟨_, a, hget, hws, rfl, rfl⟩
  · exact Table.forall_push hs.readiness (newReadiness_blocked r a)

theorem invalidateArtifact_sound {r : ArtifactRequest} {reason : String} (hs : db.Sound content)
    (h : invalidateArtifact db r reason = .ok db') : db'.Sound content ∧ db.Grows db' := by
  unfold invalidateArtifact at h
  obtain ⟨_, _, h⟩ := bind_ok h
  obtain ⟨readiness, _, h⟩ := bind_ok h
  split at h
  · cases h
  cases h
  have hgrows : db.Grows { db with
      artifactInvalidations := db.artifactInvalidations ++ [{
        workspaceId := r.workspaceId
        finalArtifactId := r.finalArtifactId
        mediaQaResultId := firstId r.scan (fun q : MediaQaResult => q.workspaceId == r.workspaceId
          && q.finalArtifactId == r.finalArtifactId) db.mediaQa
        reason := reason }]
      readiness := readiness.elim db.readiness fun i => db.readiness.modify i .invalidate } :=
    ⟨.refl _ _, .refl _ _, .refl _ _, .refl _ _, .refl _ _⟩
  refine ⟨hs.extend hgrows rfl rfl (fun q hq => .inl hq) (fun c hc => .inl hc)
    (fun c hc => .inl hc) ?_ hs.eligibility, hgrows⟩
  cases readiness with
  | none => exact hs.readiness
  | some i =>
      refine Table.forall_modify hs.readiness fun old _ => ⟨rfl, rfl, ?_⟩
      simp [ProductionReadiness.invalidate]

/-! ## Compliance -/

theorem createComplianceRun_sound {r : ArtifactRequest} {platform : String} (hs : db.Sound content)
    (h : createComplianceRun db r platform = .ok db') : db'.Sound content ∧ db.Grows db' := by
  unfold createComplianceRun at h
  obtain ⟨a, ha, h⟩ := bind_ok h
  obtain ⟨hget, hws⟩ := findArtifact_ok ha
  cases h
  refine ⟨hs.extend ⟨.refl _ _, .refl _ _, .refl _ _, .append _ _ _, .refl _ _⟩ rfl rfl
    (fun q hq => .inl hq) ?_ (fun c hc => .inl hc) hs.readiness hs.eligibility,
    ⟨.refl _ _, .refl _ _, .refl _ _, .append _ _ _, .refl _ _⟩⟩
  intro c hc
  rcases List.mem_append.mp hc with hold | hnew
  · exact .inl hold
  · rw [List.mem_singleton.mp hnew]
    exact .inr ⟨⟨a, hget, hws, rfl, rfl⟩, fun hpass => absurd hpass (by simp)⟩

/-- The Media QA that the query finds is of the artifact. -/
theorem mediaPassed_of_query {r : ArtifactRequest} {a : FinalArtifact}
    (h : (mediaQaOf db r a).map MediaQaResult.status = some "pass") :
    db.MediaPassed r.workspaceId r.finalArtifactId a.artifactHash := by
  obtain ⟨q, hq, hstatus⟩ := Option.map_eq_some_iff.mp h
  obtain ⟨hmem, hcovers⟩ := firstRow_mem hq
  simp only [MediaQaResult.covers, Bool.and_eq_true, beq_iff_eq] at hcovers
  exact ⟨q, hmem, hcovers.1.1, hcovers.1.2, hcovers.2, hstatus⟩

/-- The compliance audit that the query finds is of the version of the artifact. -/
theorem compliancePassed_of_query {r : ArtifactRequest} {a : FinalArtifact} (hs : db.Sound content)
    (ha : db.artifacts[r.finalArtifactId]? = some a)
    (h : (complianceOf db r a).map ComplianceAudit.status = some "pass") :
    db.CompliancePassed r.workspaceId r.finalArtifactId a.artifactHash a.contentVersionId := by
  obtain ⟨c, hc, hstatus⟩ := Option.map_eq_some_iff.mp h
  obtain ⟨hmem, hcovers⟩ := firstRow_mem hc
  simp only [ComplianceAudit.covers, Bool.and_eq_true, beq_iff_eq] at hcovers
  obtain ⟨⟨hws, hid⟩, hhash⟩ := hcovers
  obtain ⟨⟨a', ha', _, _, hversion⟩, _⟩ := hs.compliance c hmem
  rw [hid, ha] at ha'
  cases ha'
  exact ⟨c, hmem, hws, hid, hhash, hversion.symm, hstatus⟩

theorem createTestCompliancePass_sound {r : ArtifactRequest} {workerId : String}
    (hs : db.Sound content) (h : createTestCompliancePass db r workerId = .ok db') :
    db'.Sound content ∧ db.Grows db' := by
  unfold createTestCompliancePass at h
  obtain ⟨a, ha, h⟩ := bind_ok h
  obtain ⟨hget, hws⟩ := findArtifact_ok ha
  split at h
  · rename_i hmedia
    cases h
    refine ⟨hs.extend ⟨.refl _ _, .refl _ _, .refl _ _, .append _ _ _, .refl _ _⟩ rfl rfl
      (fun q hq => .inl hq) ?_ (fun c hc => .inl hc) hs.readiness hs.eligibility,
      ⟨.refl _ _, .refl _ _, .refl _ _, .append _ _ _, .refl _ _⟩⟩
    intro c hc
    rcases List.mem_append.mp hc with hold | hnew
    · exact .inl hold
    · rw [List.mem_singleton.mp hnew]
      exact .inr ⟨⟨a, hget, hws, rfl, rfl⟩, fun _ => mediaPassed_of_query hmedia⟩
  · cases h

/-! ## The Chief Auditor -/

theorem createTestManifest_ok {ws : WorkspaceId} {manifest : Nat}
    (h : createTestManifest db ws = .ok (db', manifest)) :
    ∃ manifests, db' = { db with manifests := manifests } := by
  unfold createTestManifest at h
  obtain ⟨found, _, h⟩ := bind_ok h
  cases found with
  | some i =>
      cases h
      exact ⟨db.manifests, rfl⟩
  | none =>
      cases h
      exact ⟨_, rfl⟩

/-- **To the human review** only with both passes. -/
theorem chiefBlockers_nil {media compliance : Option String} :
    chiefBlockers media compliance = [] ↔ media = some "pass" ∧ compliance = some "pass" := by
  unfold chiefBlockers
  by_cases hmedia : media = some "pass"
  · by_cases hcompliance : compliance = some "pass" <;> simp [hmedia, hcompliance]
  · simp [hmedia]

theorem newChiefAudit_pass {r : ArtifactRequest} {a : FinalArtifact} {manifest : Nat}
    {workerId : String} {media compliance : Option String}
    (h : (newChiefAudit r a manifest workerId media compliance).status = "pass_to_human_review") :
    media = some "pass" ∧ compliance = some "pass" := by
  by_contra hnot
  have hblockers : chiefBlockers media compliance ≠ [] := fun hnil =>
    hnot (chiefBlockers_nil.mp hnil)
  simp [newChiefAudit, hblockers] at h

theorem runTestChiefAudit_sound {r : ArtifactRequest} {workerId : String}
    (hs : db.Sound content) (h : runTestChiefAudit db r workerId = .ok db') :
    db'.Sound content ∧ db.Grows db' := by
  unfold runTestChiefAudit at h
  obtain ⟨a, ha, h⟩ := bind_ok h
  obtain ⟨hget, hws⟩ := findArtifact_ok ha
  obtain ⟨⟨db₁, manifest⟩, hmanifest, h⟩ := bind_ok h
  obtain ⟨manifests, rfl⟩ := createTestManifest_ok hmanifest
  cases h
  refine ⟨hs.extend ⟨.refl _ _, .refl _ _, .refl _ _, .refl _ _, .append _ _ _⟩ rfl rfl
    (fun q hq => .inl hq) (fun c hc => .inl hc) ?_ hs.readiness hs.eligibility,
    ⟨.refl _ _, .refl _ _, .refl _ _, .refl _ _, .append _ _ _⟩⟩
  intro c hc
  rcases List.mem_append.mp hc with hold | hnew
  · exact .inl hold
  · rw [List.mem_singleton.mp hnew]
    refine .inr ⟨⟨a, hget, hws, rfl, rfl⟩, fun hpass => ?_⟩
    obtain ⟨hmedia, hcompliance⟩ := newChiefAudit_pass hpass
    exact ⟨mediaPassed_of_query hmedia, compliancePassed_of_query hs hget hcompliance⟩

theorem invalidateCompliance_sound {ws : WorkspaceId} {auditId : Nat} {reason : String}
    (hs : db.Sound content) (h : invalidateCompliance db ws auditId reason = .ok db') :
    db'.Sound content ∧ db.Grows db' := by
  unfold invalidateCompliance at h
  split at h
  · cases h
  split at h
  · cases h
  cases h
  have hsame := ProductionDb.Grows.refl db
  exact ⟨hs.extend ⟨hsame.jobs, hsame.artifacts, hsame.mediaQa, hsame.complianceAudits,
    hsame.chiefAudits⟩ rfl rfl (fun q hq => .inl hq) (fun c hc => .inl hc) (fun c hc => .inl hc)
    hs.readiness hs.eligibility, ⟨hsame.jobs, hsame.artifacts, hsame.mediaQa,
    hsame.complianceAudits, hsame.chiefAudits⟩⟩

/-! ## Eligibility -/

theorem publicationEligibility_sound {r : ArtifactRequest} {platform : String}
    (hs : db.Sound content) (h : publicationEligibility db r platform = .ok db') :
    db'.Sound content ∧ db.Grows db' := by
  unfold publicationEligibility at h
  obtain ⟨a, _, h⟩ := bind_ok h
  obtain ⟨readiness, _, h⟩ := bind_ok h
  split at h
  · cases h
  cases h
  have hsame := ProductionDb.Grows.refl db
  refine ⟨hs.extend ⟨hsame.jobs, hsame.artifacts, hsame.mediaQa, hsame.complianceAudits,
    hsame.chiefAudits⟩ rfl rfl (fun q hq => .inl hq) (fun c hc => .inl hc) (fun c hc => .inl hc)
    hs.readiness ?_, ⟨hsame.jobs, hsame.artifacts, hsame.mediaQa, hsame.complianceAudits,
    hsame.chiefAudits⟩⟩
  refine Table.forall_push hs.eligibility ⟨rfl, rfl, ?_⟩
  simp [eligibilityBlockers]

/-! ## Every call -/

theorem commitOr_cases {ε α : Type} {P : α → Prop} {old : α} {x : Except ε α} (hold : P old)
    (hnew : ∀ new, x = .ok new → P new) : P (commitOr old x) := by
  cases x with
  | error e => exact hold
  | ok new => exact hnew new rfl

/-- **Every call of production and compliance** keeps the books. -/
theorem productionExec_sound (hs : db.Sound content) (o : NewsroomOp) :
    (productionExec db o).Sound content ∧ db.Grows (productionExec db o) := by
  have hsame : db.Sound content ∧ db.Grows db := ⟨hs, .refl db⟩
  have hcall : ∀ x : Except ArtifactError ProductionDb,
      (∀ new, x = .ok new → new.Sound content ∧ db.Grows new) →
      (commitOr db x).Sound content ∧ db.Grows (commitOr db x) := fun x hx =>
    commitOr_cases (P := fun new => new.Sound content ∧ db.Grows new) hsame hx
  cases o with
  | markTestData jobId => exact markTestData_sound hs jobId
  | fixtureArtifact ws jobId hash =>
      exact hcall _ fun _ h => createTestFixtureArtifact_sound hs h
  | mediaQa r => exact hcall _ fun _ h => createTestMediaQa_sound hs h
  | invalidateArtifact r reason =>
      exact hcall _ fun _ h => invalidateArtifact_sound hs h
  | complianceRun r platform =>
      exact hcall _ fun _ h => createComplianceRun_sound hs h
  | compliancePass r workerId =>
      exact hcall _ fun _ h => createTestCompliancePass_sound hs h
  | chiefAudit r workerId =>
      exact hcall _ fun _ h => runTestChiefAudit_sound hs h
  | invalidateCompliance ws auditId reason =>
      exact hcall _ fun _ h => invalidateCompliance_sound hs h
  | eligibility r platform =>
      exact hcall _ fun _ h => publicationEligibility_sound hs h
  | manualResearch | fixtureRun | auditOpportunity | strategistGate | manualStrategy | fixtureBrief
  | auditBrief | writerGate | manualContent | package | contentAudit | productionRun => exact hsame

end HumanGate
