import HumanGate.Lib.Archive
import HumanGate.Lib.Outcome
import HumanGate.Model.Research

set_option autoImplicit false

/-! # What research rests on

Sources, evidence and audits are only ever added. The counters of a run and of an opportunity are
the numbers of the rows that they count, and an opportunity that was sent to the Strategist rests on
two accepted sources of different content, whatever is found and audited later.
-/

namespace HumanGate

open Lib Lib.Calendar

variable {env : ResearchEnv} {db db' db'' : ResearchDb} {ws : WorkspaceId}

/-! ## What stays -/

/-- The columns of an opportunity that no call writes. -/
def Opportunity.origin (o : Opportunity) : WorkspaceId × Nat × String × Option Instant :=
  (o.workspaceId, o.researchRunId, o.dedupeKey, o.deletedAt)

structure ResearchDb.Grows (db db' : ResearchDb) : Prop where
  runs : Archived ResearchRun.workspaceId db.runs db'.runs
  sources : Archived id db.sources db'.sources
  opportunities : Archived Opportunity.origin db.opportunities db'.opportunities
  evidence : Archived id db.evidence db'.evidence
  audits : Archived id db.audits db'.audits

theorem ResearchDb.Grows.refl (db : ResearchDb) : db.Grows db :=
  ⟨.refl _ _, .refl _ _, .refl _ _, .refl _ _, .refl _ _⟩

theorem ResearchDb.Grows.trans (h : db.Grows db') (h' : db'.Grows db'') : db.Grows db'' := by
  constructor
  · exact h.runs.trans h'.runs
  · exact h.sources.trans h'.sources
  · exact h.opportunities.trans h'.opportunities
  · exact h.evidence.trans h'.evidence
  · exact h.audits.trans h'.audits

/-- An accepted source that is linked to the opportunity and is not out of date. -/
def ResearchDb.Supports (db : ResearchDb) (ws : WorkspaceId) (id : Nat) (s : ResearchSource) :
    Prop :=
  ∃ e ∈ db.evidence, e.workspaceId = ws ∧ e.opportunityId = id ∧
    db.sources[e.sourceId]? = some s ∧ s.workspaceId = ws ∧ s.handlingState = .accepted ∧
    s.freshness ≠ "stale" ∧ s.freshness ≠ "unknown"

/-- Two sources of different content support the opportunity. -/
def ResearchDb.Evidenced (db : ResearchDb) (ws : WorkspaceId) (id : Nat) : Prop :=
  ∃ s s', db.Supports ws id s ∧ db.Supports ws id s' ∧ s.contentDigest ≠ s'.contentDigest

theorem ResearchDb.Grows.supports (h : db.Grows db') {id : Nat} {s : ResearchSource}
    (hs : db.Supports ws id s) : db'.Supports ws id s := by
  obtain ⟨e, he, hws, hid, hrow, hrest⟩ := hs
  exact ⟨e, h.evidence.mem he, hws, hid, h.sources.get_self hrow, hrest⟩

theorem ResearchDb.Grows.evidenced (h : db.Grows db') {id : Nat} (hs : db.Evidenced ws id) :
    db'.Evidenced ws id := by
  obtain ⟨s, s', hsupports, hsupports', hne⟩ := hs
  exact ⟨s, s', h.supports hsupports, h.supports hsupports', hne⟩

/-! ## The books -/

/-- What the rows of the tables say about each other. -/
structure ResearchDb.Sound (db : ResearchDb) : Prop where
  /-- A source is known by its position, and belongs to a run. -/
  sourceIds : db.sources.map ResearchSource.id = List.range db.sources.length
  sourceRuns : ∀ s ∈ db.sources, s.researchRunId < db.runs.length
  /-- Evidence is an accepted source of the workspace, linked once. -/
  links : ∀ e ∈ db.evidence, e.opportunityId < db.opportunities.length ∧
    ∃ s, db.sources[e.sourceId]? = some s ∧ s.workspaceId = e.workspaceId ∧
      s.handlingState = .accepted
  linkedOnce : (db.evidence.map OpportunityEvidence.sourceId).Nodup
  owners : ∀ o ∈ db.opportunities, ∃ run, db.runs[o.researchRunId]? = some run ∧
    run.workspaceId = o.workspaceId
  keys : ∀ (i j : Nat) (o o' : Opportunity), db.opportunities[i]? = some o →
    db.opportunities[j]? = some o' → o.workspaceId = o'.workspaceId → o.dedupeKey = o'.dedupeKey →
    i = j
  sourceCount : ∀ (i : Nat) (o : Opportunity), db.opportunities[i]? = some o →
    o.sourceCount = db.evidence.countP fun e => e.opportunityId == i
  runCounts : ∀ (i : Nat) (run : ResearchRun), db.runs[i]? = some run →
    run.opportunityCount = db.opportunities.countP (fun o => o.researchRunId == i) ∧
    run.auditedOpportunityCount = db.audits.countP (fun a => a.researchRunId == i) ∧
    run.blockedOpportunityCount =
      db.audits.countP fun a => a.researchRunId == i && a.state == .blocked
  audited : ∀ a ∈ db.audits, ∃ o, db.opportunities[a.opportunityId]? = some o ∧
    o.workspaceId = a.workspaceId ∧ o.researchRunId = a.researchRunId ∧
    (a.state = .pass → db.Evidenced a.workspaceId a.opportunityId)
  sent : ∀ (i : Nat) (o : Opportunity), db.opportunities[i]? = some o →
    o.strategistState = .eligible → ∃ a ∈ db.audits, a.workspaceId = o.workspaceId ∧
      a.opportunityId = i ∧ a.state = .pass

namespace ResearchDb.Sound

theorem empty : ({} : ResearchDb).Sound := by
  constructor <;> simp

/-- Nothing belongs to a run that is not there. -/
theorem unused (h : db.Sound) :
    db.opportunities.countP (fun o => o.researchRunId == db.runs.length) = 0 ∧
    db.audits.countP (fun a => a.researchRunId == db.runs.length) = 0 ∧
    db.audits.countP (fun a => a.researchRunId == db.runs.length && a.state == .blocked) = 0 := by
  have hruns : ∀ o ∈ db.opportunities, o.researchRunId ≠ db.runs.length := by
    intro o ho heq
    obtain ⟨run, hrun, _⟩ := h.owners o ho
    have hlt := (List.getElem?_eq_some_iff.mp hrun).1
    omega
  have haudits : ∀ a ∈ db.audits, a.researchRunId ≠ db.runs.length := by
    intro a ha
    obtain ⟨o, ho, _, hrun, _⟩ := h.audited a ha
    rw [← hrun]
    exact hruns o (Table.mem_of_get ho)
  refine ⟨?_, ?_, ?_⟩
  · exact List.countP_eq_zero.mpr fun o ho => by simp [hruns o ho]
  · exact List.countP_eq_zero.mpr fun a ha => by simp [haudits a ha]
  · exact List.countP_eq_zero.mpr fun a ha => by simp [haudits a ha]

/-- **Sent on evidence.** -/
theorem evidenced (h : db.Sound) {i : Nat} {o : Opportunity} (ho : db.opportunities[i]? = some o)
    (hsent : o.strategistState = .eligible) : db.Evidenced o.workspaceId i := by
  obtain ⟨a, ha, hws, hid, hpass⟩ := h.sent i o ho hsent
  obtain ⟨_, _, _, _, hevidence⟩ := h.audited a ha
  have := hevidence hpass
  rwa [hws, hid] at this

end ResearchDb.Sound

/-! ## What a fixture run records -/

section FixtureRun

variable {r : ResearchRequest} {rid : Nat} {sources sources' : List ResearchSource}

@[simp] theorem newSource_id (env : ResearchEnv) (r : ResearchRequest) (rid id : Nat)
    (item : FixtureSource) (url : String) : (newSource env r rid id item url).id = id := rfl

@[simp] theorem newSource_workspaceId (env : ResearchEnv) (r : ResearchRequest) (rid id : Nat)
    (item : FixtureSource) (url : String) :
    (newSource env r rid id item url).workspaceId = r.workspaceId := rfl

@[simp] theorem newSource_run (env : ResearchEnv) (r : ResearchRequest) (rid id : Nat)
    (item : FixtureSource) (url : String) :
    (newSource env r rid id item url).researchRunId = rid := rfl

/-- The rows of one call: they continue the table, and belong to the run. -/
structure SourcesOf (r : ResearchRequest) (rid : Nat) (sources new : List ResearchSource) :
    Prop where
  ids : new.map ResearchSource.id = List.range' sources.length new.length
  owner : ∀ s ∈ new, s.workspaceId = r.workspaceId ∧ s.researchRunId = rid

theorem recordSource_ok {item : FixtureSource}
    (h : recordSource env r rid sources item = .ok sources') :
    ∃ new, sources' = sources ++ new ∧ SourcesOf r rid sources new := by
  unfold recordSource at h
  split at h
  · cases h
    exact ⟨[], by simp, by simp, by simp⟩
  · simp only at h
    split at h
    · cases h
    · cases h
      refine ⟨_, rfl, ?_, ?_⟩
      · simp
      · intro s hs
        rw [List.mem_singleton.mp hs]
        exact ⟨rfl, rfl⟩

theorem recordSources_ok {items : List FixtureSource}
    (h : items.foldlM (recordSource env r rid) sources = .ok sources') :
    ∃ new, sources' = sources ++ new ∧ SourcesOf r rid sources new := by
  induction items generalizing sources with
  | nil =>
      cases h
      exact ⟨[], by simp, by simp, by simp⟩
  | cons item items ih =>
      rw [List.foldlM_cons] at h
      obtain ⟨middle, hfirst, hrest⟩ := bind_ok h
      obtain ⟨one, rfl, hone⟩ := recordSource_ok hfirst
      obtain ⟨more, rfl, hmore⟩ := ih hrest
      refine ⟨one ++ more, by simp, ?_, ?_⟩
      · rw [List.map_append, hone.ids, hmore.ids, List.length_append, List.length_append,
          List.range'_append_1]
      · intro s hs
        rcases List.mem_append.mp hs with hs | hs
        · exact hone.owner s hs
        · exact hmore.owner s hs

/-- A new opportunity, or one of the workspace that is found again. -/
theorem findOrCreate_ok {accepted : List ResearchSource} {opportunities : List Opportunity}
    {id : Nat} {summary : String}
    (h : findOrCreate env db r accepted = .ok (opportunities, id, summary)) :
    (∃ o, db.opportunities[id]? = some o ∧ o.workspaceId = r.workspaceId ∧
      opportunities = db.opportunities.modify id (.addSources accepted.length)) ∨
    id = db.opportunities.length ∧ ∃ o : Opportunity, opportunities = db.opportunities ++ [o] ∧
      o.workspaceId = r.workspaceId ∧ o.researchRunId = db.runs.length ∧
      o.sourceCount = accepted.length ∧ o.strategistState = .notSent ∧
      ∀ old ∈ db.opportunities, old.workspaceId = r.workspaceId → old.dedupeKey ≠ o.dedupeKey := by
  unfold findOrCreate at h
  obtain ⟨topic, _, h⟩ := bind_ok h
  obtain ⟨angle, _, h⟩ := bind_ok h
  simp only at h
  split at h
  · cases h
  · rename_i found hone
    cases h
    have hmem : id ∈ Table.select (fun o => o.workspaceId == r.workspaceId &&
        o.dedupeKey == dedupeKey env topic angle r.opportunity.targetPlatform
          r.opportunity.suggestedFormat (accepted.map ResearchSource.canonicalUrl)
        && o.deletedAt.isNone) db.opportunities := by
      rw [hone]
      exact List.mem_singleton_self id
    obtain ⟨o, ho, hsel⟩ := Table.mem_select.mp hmem
    simp only [Bool.and_eq_true, beq_iff_eq] at hsel
    exact .inl ⟨o, ho, hsel.1.1, rfl⟩
  · obtain ⟨title, _, h⟩ := bind_ok h
    obtain ⟨summary', _, h⟩ := bind_ok h
    split at h
    · cases h
    · rename_i hclash
      cases h
      refine .inr ⟨rfl, _, rfl, rfl, rfl, rfl, rfl, fun old hold hws hkey => hclash ?_⟩
      refine List.any_eq_true.mpr ⟨old, hold, ?_⟩
      simp [hws, hkey]

/-- The tables after a fixture run. -/
structure ResearchDb.Recorded (db db' : ResearchDb) (r : ResearchRequest)
    (new accepted : List ResearchSource) (run : ResearchRun) : Prop where
  runs : db'.runs = db.runs ++ [run]
  runWorkspace : run.workspaceId = r.workspaceId
  unaudited : run.auditedOpportunityCount = 0 ∧ run.blockedOpportunityCount = 0
  sources : db'.sources = db.sources ++ new
  sourcesOf : SourcesOf r db.runs.length db.sources new
  audits : db'.audits = db.audits

theorem recordFixtureRun_ok {found : Option Nat}
    (h : recordFixtureRun env db r = .ok (db', found)) :
    ∃ new run, db.Recorded db' r new (acceptedSources (db.sources ++ new) db.runs.length) run ∧
      ((run.opportunityCount = 0 ∧ db'.opportunities = db.opportunities ∧
          db'.evidence = db.evidence) ∨
        ∃ id summary,
          findOrCreate env db r (acceptedSources (db.sources ++ new) db.runs.length)
            = .ok (db'.opportunities, id, summary) ∧
          run.opportunityCount = (if id = db.opportunities.length then 1 else 0) ∧
          db'.evidence = db.evidence ++ (acceptedSources (db.sources ++ new)
            db.runs.length).map (newLink r.workspaceId id summary)) := by
  unfold recordFixtureRun at h
  split at h
  · cases h
  obtain ⟨sources, hsources, h⟩ := bind_ok h
  obtain ⟨new, rfl, hnew⟩ := recordSources_ok hsources
  simp only at h
  split at h
  · cases h
    exact ⟨new, failedResearchRun r, ⟨rfl, rfl, ⟨rfl, rfl⟩, rfl, hnew, rfl⟩, .inl ⟨rfl, rfl, rfl⟩⟩
  · obtain ⟨⟨opportunities, id, summary⟩, hfound, h⟩ := bind_ok h
    cases h
    exact ⟨new, _, ⟨rfl, rfl, ⟨rfl, rfl⟩, rfl, hnew, rfl⟩, .inr ⟨id, summary, hfound, rfl, rfl⟩⟩

namespace ResearchDb.Recorded

variable {new accepted : List ResearchSource} {run : ResearchRun} {s : ResearchSource}

theorem sourceIds (hs : db.Sound) (h : db.Recorded db' r new accepted run) :
    db'.sources.map ResearchSource.id = List.range db'.sources.length := by
  rw [h.sources, List.map_append, hs.sourceIds, h.sourcesOf.ids, List.length_append,
    List.range_eq_range', List.range_eq_range']
  have happend := List.range'_append_1 (s := 0) (m := db.sources.length) (n := new.length)
  rwa [Nat.zero_add] at happend

theorem sourceRuns (hs : db.Sound) (h : db.Recorded db' r new accepted run) :
    ∀ s ∈ db'.sources, s.researchRunId < db'.runs.length := by
  intro s hsource
  rw [h.sources] at hsource
  rw [h.runs, List.length_append, List.length_singleton]
  rcases List.mem_append.mp hsource with hold | hnew
  · have hlt := hs.sourceRuns s hold
    omega
  · have hrun := (h.sourcesOf.owner s hnew).2
    omega

/-- Only sources of this run are accepted for it. -/
theorem mem_accepted (hs : db.Sound)
    (hsource : s ∈ acceptedSources (db.sources ++ new) db.runs.length) :
    s ∈ new ∧ s.handlingState = .accepted := by
  obtain ⟨hmem, hsel⟩ := List.mem_filter.mp hsource
  obtain ⟨hrun, hstate⟩ := Bool.and_eq_true_iff.mp hsel
  rw [beq_iff_eq] at hrun hstate
  rcases List.mem_append.mp hmem with hold | hnew
  · have hlt := hs.sourceRuns s hold
    omega
  · exact ⟨hnew, hstate⟩

end ResearchDb.Recorded

/-- A source is at the position that it is known by. -/
theorem get_of_ids {sources : List ResearchSource} {s : ResearchSource}
    (hids : sources.map ResearchSource.id = List.range sources.length) (hs : s ∈ sources) :
    sources[s.id]? = some s := by
  obtain ⟨i, hi⟩ := List.mem_iff_getElem?.mp hs
  have hmap : (sources.map ResearchSource.id)[i]? = some s.id := by
    rw [List.getElem?_map, hi]
    rfl
  rw [hids, List.getElem?_range (List.getElem?_eq_some_iff.mp hi).1] at hmap
  rw [← Option.some.inj hmap]
  exact hi

/-- The links of the accepted sources. -/
theorem count_newLinks (ws : WorkspaceId) (id : Nat) (summary : String)
    (accepted : List ResearchSource) (i : Nat) :
    (accepted.map (newLink ws id summary)).countP (fun e => e.opportunityId == i)
      = if id = i then accepted.length else 0 := by
  induction accepted with
  | nil => simp
  | cons s accepted ih =>
      rw [List.map_cons, List.countP_cons, ih]
      by_cases hid : id = i <;> simp [newLink, hid]

/-- What became of the opportunities: nothing, one was found again, or one is new. -/
inductive Found (db db' : ResearchDb) (r : ResearchRequest) (accepted : List ResearchSource) :
    Nat → Prop
  | nothing : db'.opportunities = db.opportunities → db'.evidence = db.evidence →
      Found db db' r accepted 0
  | again (id : Nat) (o : Opportunity) (summary : String) : db.opportunities[id]? = some o →
      o.workspaceId = r.workspaceId →
      db'.opportunities = db.opportunities.modify id (.addSources accepted.length) →
      db'.evidence = db.evidence ++ accepted.map (newLink r.workspaceId id summary) →
      Found db db' r accepted 0
  | new (o : Opportunity) (summary : String) : db'.opportunities = db.opportunities ++ [o] →
      o.workspaceId = r.workspaceId → o.researchRunId = db.runs.length →
      o.sourceCount = accepted.length → o.strategistState = .notSent →
      (∀ old ∈ db.opportunities, old.workspaceId = r.workspaceId → old.dedupeKey ≠ o.dedupeKey) →
      db'.evidence = db.evidence
        ++ accepted.map (newLink r.workspaceId db.opportunities.length summary) →
      Found db db' r accepted 1

theorem recordFixtureRun_found {found : Option Nat}
    (h : recordFixtureRun env db r = .ok (db', found)) :
    ∃ new run, db.Recorded db' r new (acceptedSources (db.sources ++ new) db.runs.length) run ∧
      Found db db' r (acceptedSources (db.sources ++ new) db.runs.length) run.opportunityCount := by
  obtain ⟨new, run, hrec, ⟨hcount, hopp, hev⟩ | ⟨id, summary, hfound, hcount, hev⟩⟩ :=
    recordFixtureRun_ok h
  · refine ⟨new, run, hrec, ?_⟩
    rw [hcount]
    exact .nothing hopp hev
  · refine ⟨new, run, hrec, ?_⟩
    obtain ⟨o, ho, hws, hopp⟩ | ⟨rfl, o, hopp, hws, hrun, hsources, hsent, hkeys⟩ :=
      findOrCreate_ok hfound
    · have hlt : id < db.opportunities.length := (List.getElem?_eq_some_iff.mp ho).1
      rw [hcount, if_neg (Nat.ne_of_lt hlt)]
      exact .again id o summary ho hws hopp hev
    · rw [hcount, if_pos rfl]
      exact .new o summary hopp hws hrun hsources hsent hkeys hev

theorem Found.opportunities {accepted : List ResearchSource} {n : Nat}
    (h : Found db db' r accepted n) :
    Archived Opportunity.origin db.opportunities db'.opportunities := by
  cases h with
  | nothing hopp _ =>
      rw [hopp]
      exact .refl _ _
  | again id o summary ho hws hopp _ =>
      rw [hopp]
      exact .modify (f := Opportunity.addSources accepted.length) (fun _ => rfl) _ _
  | new o summary hopp _ _ _ _ _ _ =>
      rw [hopp]
      exact .append _ _ _

theorem Found.evidence {accepted : List ResearchSource} {n : Nat}
    (h : Found db db' r accepted n) :
    db'.evidence = db.evidence ∨ ∃ id summary, id < db'.opportunities.length ∧
      db'.evidence = db.evidence ++ accepted.map (newLink r.workspaceId id summary) := by
  cases h with
  | nothing _ hev => exact .inl hev
  | again id o summary ho _ hopp hev =>
      refine .inr ⟨id, summary, ?_, hev⟩
      rw [hopp, List.length_modify]
      exact (List.getElem?_eq_some_iff.mp ho).1
  | new o summary hopp _ _ _ _ _ hev =>
      refine .inr ⟨db.opportunities.length, summary, ?_, hev⟩
      rw [hopp, List.length_append]
      exact Nat.lt_succ_self _

theorem recordFixtureRun_grows {found : Option Nat}
    (h : recordFixtureRun env db r = .ok (db', found)) : db.Grows db' := by
  obtain ⟨new, run, hrec, hfound⟩ := recordFixtureRun_found h
  constructor
  · rw [hrec.runs]
    exact .append _ _ _
  · rw [hrec.sources]
    exact .append _ _ _
  · exact hfound.opportunities
  · obtain hev | ⟨id, summary, _, hev⟩ := hfound.evidence
    · rw [hev]
      exact .refl _ _
    · rw [hev]
      exact .append _ _ _
  · rw [hrec.audits]
    exact .refl _ _

theorem recordFixtureRun_sound {found : Option Nat} (hs : db.Sound)
    (h : recordFixtureRun env db r = .ok (db', found)) : db'.Sound := by
  have hgrows := recordFixtureRun_grows h
  obtain ⟨new, run, hrec, hfound⟩ := recordFixtureRun_found h
  generalize hcount : run.opportunityCount = created at hfound
  have hids := hrec.sourceIds hs
  constructor
  case sourceIds => exact hids
  case sourceRuns => exact hrec.sourceRuns hs
  case links =>
    have hold : ∀ e ∈ db.evidence, e.opportunityId < db'.opportunities.length ∧
        ∃ s, db'.sources[e.sourceId]? = some s ∧ s.workspaceId = e.workspaceId ∧
          s.handlingState = .accepted := by
      intro e he
      obtain ⟨hlt, s, hsource, hrest⟩ := hs.links e he
      exact ⟨hlt.trans_le hgrows.opportunities.length_le, s, hgrows.sources.get_self hsource, hrest⟩
    obtain hev | ⟨id, summary, hlt, hev⟩ := hfound.evidence
    · rwa [hev]
    · intro e he
      rw [hev] at he
      rcases List.mem_append.mp he with he | he
      · exact hold e he
      · obtain ⟨s, hsource, rfl⟩ := List.mem_map.mp he
        obtain ⟨hnew, hstate⟩ := ResearchDb.Recorded.mem_accepted hs hsource
        refine ⟨hlt, s, get_of_ids hids ?_, (hrec.sourcesOf.owner s hnew).1, hstate⟩
        rw [hrec.sources]
        exact List.mem_append_right _ hnew
  case linkedOnce =>
    obtain hev | ⟨id, summary, _, hev⟩ := hfound.evidence
    · rw [hev]
      exact hs.linkedOnce
    · have hlinks : ((acceptedSources (db.sources ++ new) db.runs.length).map
          (newLink r.workspaceId id summary)).map OpportunityEvidence.sourceId
          = (acceptedSources (db.sources ++ new) db.runs.length).map ResearchSource.id := by
        rw [List.map_map]
        rfl
      have hnodup : ((acceptedSources (db.sources ++ new) db.runs.length).map
          ResearchSource.id).Nodup := by
        have hrange : ((db.sources ++ new).map ResearchSource.id).Nodup := by
          rw [← hrec.sources, hids]
          exact List.nodup_range
        exact hrange.sublist (List.filter_sublist.map _)
      rw [hev, List.map_append, hlinks]
      refine List.nodup_append.mpr ⟨hs.linkedOnce, hnodup, ?_⟩
      -- a linked source was there, an accepted one is new
      intro i hi j hj hij
      obtain ⟨e, he, rfl⟩ := List.mem_map.mp hi
      obtain ⟨s, hsource, rfl⟩ := List.mem_map.mp hj
      obtain ⟨_, old, hold, _⟩ := hs.links e he
      have hlt := (List.getElem?_eq_some_iff.mp hold).1
      have hmem : s.id ∈ new.map ResearchSource.id :=
        List.mem_map_of_mem (ResearchDb.Recorded.mem_accepted hs hsource).1
      rw [hrec.sourcesOf.ids, List.mem_range'_1] at hmem
      omega
  case owners =>
    have hold : ∀ o ∈ db.opportunities, ∃ run, db'.runs[o.researchRunId]? = some run ∧
        run.workspaceId = o.workspaceId := by
      intro o ho
      obtain ⟨run', hrun', hws⟩ := hs.owners o ho
      obtain ⟨run'', hrun'', hsame⟩ := hgrows.runs.get hrun'
      exact ⟨run'', hrun'', hsame.trans hws⟩
    cases hfound with
    | nothing hopp _ => rwa [hopp]
    | again id o summary ho _ hopp _ =>
        rw [hopp]
        exact Table.forall_modify hold fun old hget => hold old (Table.mem_of_get hget)
    | new o summary hopp hws hrun _ _ _ _ =>
        rw [hopp]
        refine Table.forall_push hold ⟨run, ?_, hrec.runWorkspace.trans hws.symm⟩
        rw [hrec.runs, hrun]
        exact Table.get_push_new _ _
  case keys =>
    intro i j o o' hi hj hws hkey
    cases hfound with
    | nothing hopp _ =>
        rw [hopp] at hi hj
        exact hs.keys i j o o' hi hj hws hkey
    | again id old summary _ _ hopp _ =>
        have hback : ∀ (k : Nat) (p : Opportunity), db'.opportunities[k]? = some p →
            ∃ q, db.opportunities[k]? = some q ∧ q.origin = p.origin := by
          intro k p hp
          rw [hopp] at hp
          obtain ⟨q, hq, ⟨_, rfl⟩ | ⟨_, rfl⟩⟩ := Table.get_modify hp
          · exact ⟨q, hq, rfl⟩
          · exact ⟨p, hq, rfl⟩
        obtain ⟨p, hp, hsame⟩ := hback i o hi
        obtain ⟨q, hq, hsame'⟩ := hback j o' hj
        simp only [Opportunity.origin, Prod.mk.injEq] at hsame hsame'
        refine hs.keys i j p q hp hq ?_ ?_
        · rw [hsame.1, hsame'.1, hws]
        · rw [hsame.2.2.1, hsame'.2.2.1, hkey]
    | new p summary hopp hpws _ _ _ hfresh _ =>
        rw [hopp] at hi hj
        rcases Table.get_push hi with hold | ⟨hlast, hnew⟩
        · rcases Table.get_push hj with hold' | ⟨_, hnew'⟩
          · exact hs.keys i j o o' hold hold' hws hkey
          · rw [hnew'] at hws hkey
            exact absurd hkey (hfresh o (Table.mem_of_get hold) (hws.trans hpws))
        · rcases Table.get_push hj with hold' | ⟨hlast', _⟩
          · rw [hnew] at hws hkey
            exact absurd hkey.symm (hfresh o' (Table.mem_of_get hold') (hws.symm.trans hpws))
          · rw [hlast, hlast']
  case sourceCount =>
    intro i o hi
    cases hfound with
    | nothing hopp hev =>
        rw [hopp] at hi
        rw [hev]
        exact hs.sourceCount i o hi
    | again id old summary _ _ hopp hev =>
        rw [hopp] at hi
        rw [hev, List.countP_append, count_newLinks]
        obtain ⟨p, hp, ⟨rfl, rfl⟩ | ⟨hne, rfl⟩⟩ := Table.get_modify hi
        · rw [if_pos rfl, ← hs.sourceCount id p hp]
          rfl
        · rw [if_neg hne, Nat.add_zero]
          exact hs.sourceCount i o hp
    | new p summary hopp _ _ hsources _ _ hev =>
        rw [hopp] at hi
        rw [hev, List.countP_append, count_newLinks]
        rcases Table.get_push hi with hi | ⟨rfl, rfl⟩
        · have hlt : i < db.opportunities.length := (List.getElem?_eq_some_iff.mp hi).1
          rw [if_neg (Nat.ne_of_gt hlt), Nat.add_zero]
          exact hs.sourceCount i o hi
        · -- nothing was linked to it before
          have hnone : db.evidence.countP (fun e => e.opportunityId == db.opportunities.length)
              = 0 := by
            rw [List.countP_eq_zero]
            intro e he
            have hlt := (hs.links e he).1
            simp only [beq_iff_eq]
            omega
          rw [if_pos rfl, hnone, Nat.zero_add]
          exact hsources
  case runCounts =>
    intro i run' hi
    have hopportunities : db'.opportunities.countP (fun o => o.researchRunId == i)
        = db.opportunities.countP (fun o => o.researchRunId == i)
          + if i = db.runs.length then created else 0 := by
      cases hfound with
      | nothing hopp _ => simp [hopp]
      | again id old summary _ _ hopp _ =>
          have hsame : (db.opportunities.modify id (.addSources
              (acceptedSources (db.sources ++ new) db.runs.length).length)).countP
              (fun o => o.researchRunId == i)
              = db.opportunities.countP fun o => o.researchRunId == i :=
            Table.countP_modify_same fun _ _ => rfl
          rw [hopp, hsame]
          simp
      | new p summary hopp _ hrun _ _ _ _ =>
          rw [hopp, List.countP_append]
          by_cases hlast : i = db.runs.length
          · simp [hlast, hrun]
          · simp [hlast, hrun, Ne.symm hlast]
    rw [hrec.audits, hopportunities]
    rw [hrec.runs] at hi
    rcases Table.get_push hi with hi | ⟨rfl, rfl⟩
    · have hlt : i < db.runs.length := (List.getElem?_eq_some_iff.mp hi).1
      rw [if_neg (Nat.ne_of_lt hlt), Nat.add_zero]
      exact hs.runCounts i run' hi
    · obtain ⟨hnone, hnoAudit, hnoBlock⟩ := hs.unused
      rw [if_pos rfl, hnone, hnoAudit, hnoBlock, Nat.zero_add]
      exact ⟨hcount, hrec.unaudited⟩
  case audited =>
    rw [hrec.audits]
    intro a ha
    obtain ⟨o, ho, hws, hrun, hpass⟩ := hs.audited a ha
    obtain ⟨o', ho', hsame⟩ := hgrows.opportunities.get ho
    refine ⟨o', ho', (congrArg Prod.fst hsame).trans hws,
      (congrArg (fun p => p.2.1) hsame).trans hrun, fun h => hgrows.evidenced (hpass h)⟩
  case sent =>
    rw [hrec.audits]
    intro i o hi hsent
    cases hfound with
    | nothing hopp _ =>
        rw [hopp] at hi
        exact hs.sent i o hi hsent
    | again id old summary _ _ hopp _ =>
        rw [hopp] at hi
        obtain ⟨p, hp, ⟨_, rfl⟩ | ⟨_, rfl⟩⟩ := Table.get_modify hi
        · exact hs.sent i p hp hsent
        · exact hs.sent i o hp hsent
    | new p summary hopp _ _ _ hnotSent _ _ =>
        rw [hopp] at hi
        rcases Table.get_push hi with hi | ⟨rfl, rfl⟩
        · exact hs.sent i o hi hsent
        · rw [hnotSent] at hsent
          cases hsent

end FixtureRun

/-! ## What a pass says -/

theorem verdictOf_pass {blocked warnings : List String} :
    verdictOf blocked warnings = .pass ↔ blocked = [] ∧ warnings = [] := by
  unfold verdictOf
  by_cases hblocked : blocked = []
  · by_cases hwarnings : warnings = [] <;> simp [hblocked, hwarnings]
  · simp [hblocked]

@[simp] theorem reasonIf_nil {c : Bool} {text : String} : reasonIf c text = [] ↔ c = false := by
  cases c <;> simp [reasonIf]

theorem mem_opportunitySources {scan : Nat → Nat} {id : Nat} {s : ResearchSource} :
    s ∈ opportunitySources scan db ws id ↔ ∃ e ∈ db.evidence, e.workspaceId = ws ∧
      e.opportunityId = id ∧ db.sources[e.sourceId]? = some s ∧ s.workspaceId = ws := by
  unfold opportunitySources
  rw [List.mem_insertionSort, List.mem_filterMap]
  constructor
  · rintro ⟨e, he, hs⟩
    obtain ⟨hmem, hsel⟩ := List.mem_filter.mp he
    obtain ⟨hws, hid⟩ := Bool.and_eq_true_iff.mp hsel
    obtain ⟨hget, hsws⟩ := Option.filter_eq_some_iff.mp hs
    exact ⟨e, hmem, beq_iff_eq.mp hws, beq_iff_eq.mp hid, hget, beq_iff_eq.mp hsws⟩
  · rintro ⟨e, hmem, rfl, rfl, hget, hsws⟩
    refine ⟨e, List.mem_filter.mpr ⟨hmem, by simp⟩, ?_⟩
    rw [hget, Option.filter_some]
    simp [hsws]

/-- **A pass needs two sources** of different content. -/
theorem evidenced_of_pass {scan : Nat → Nat} {id : Nat}
    (h : verdictOf (researchBlocked (opportunitySources scan db ws id))
      (researchWarnings (opportunitySources scan db ws id)) = .pass) : db.Evidenced ws id := by
  obtain ⟨hblocked, hwarnings⟩ := verdictOf_pass.mp h
  have hreasons := hblocked
  unfold researchBlocked at hreasons
  unfold researchWarnings at hwarnings
  rw [hblocked] at hwarnings
  simp only [List.append_eq_nil_iff, reasonIf_nil, List.isEmpty_nil, Bool.and_true,
    decide_eq_false_iff_not, not_lt] at hreasons hwarnings
  obtain ⟨⟨hsome, _⟩, hdigests⟩ := hreasons
  obtain ⟨hone, hfresh⟩ := hwarnings
  -- every accepted source supports the opportunity
  have hsupports : ∀ s ∈ (opportunitySources scan db ws id).filter
      (fun s => s.handlingState == .accepted), db.Supports ws id s := by
    intro s hs
    obtain ⟨hmem, hstate⟩ := List.mem_filter.mp hs
    obtain ⟨e, he, hws, hid, hget, hsws⟩ := mem_opportunitySources.mp hmem
    have hnot := List.any_eq_false.mp hfresh s hs
    simp only [Bool.or_eq_true, beq_iff_eq, not_or] at hnot
    exact ⟨e, he, hws, hid, hget, hsws, beq_iff_eq.mp hstate, hnot⟩
  cases haccepted : (opportunitySources scan db ws id).filter
      (fun s => s.handlingState == .accepted) with
  | nil => simp [haccepted] at hsome
  | cons s rest =>
      rw [haccepted] at hsupports hdigests hone
      cases rest with
      | nil => simp at hone
      | cons s' rest =>
          refine ⟨s, s', hsupports s (by simp), hsupports s' (by simp), fun heq => ?_⟩
          -- no digest is there twice
          have hnodup : ((s :: s' :: rest).map ResearchSource.contentDigest).Nodup := by
            refine List.dedup_eq_self.mp ((List.dedup_sublist _).eq_of_length_le ?_)
            rwa [List.length_map]
          rw [List.map_cons, List.map_cons, List.nodup_cons] at hnodup
          exact hnodup.1 (by simp [heq])

/-! ## The other calls -/

theorem createManualResearch_grows (env : ResearchEnv) (db : ResearchDb) (r : ManualResearch) :
    db.Grows (createManualResearch env db r) :=
  ⟨.append _ _ _, .refl _ _, .refl _ _, .refl _ _, .refl _ _⟩

theorem auditOpportunity_ok {r : OpportunityRequest} {audit : ResearchAudit}
    (h : auditOpportunity db r = .ok (db', audit)) :
    ∃ o, getOpportunity db r.workspaceId r.opportunityId = some o ∧
      audit = newResearchAudit db r o ∧
      db' = { db with
        runs := db.runs.modify o.researchRunId (.countAudit r.workspaceId audit.state)
        opportunities := db.opportunities.modify r.opportunityId (.audited audit.state)
        audits := db.audits ++ [audit] } := by
  unfold auditOpportunity at h
  split at h
  · cases h
  · rename_i o ho
    cases h
    exact ⟨o, ho, rfl, rfl⟩

theorem getOpportunity_some {id : Nat} {o : Opportunity} (h : getOpportunity db ws id = some o) :
    db.opportunities[id]? = some o ∧ o.workspaceId = ws := by
  obtain ⟨hget, hsel⟩ := Option.filter_eq_some_iff.mp h
  exact ⟨hget, beq_iff_eq.mp (Bool.and_eq_true_iff.mp hsel).1⟩

@[simp] theorem countAudit_workspaceId (ws : WorkspaceId) (state : Verdict) (run : ResearchRun) :
    (run.countAudit ws state).workspaceId = run.workspaceId := by
  unfold ResearchRun.countAudit
  split <;> rfl

@[simp] theorem countAudit_opportunityCount (ws : WorkspaceId) (state : Verdict)
    (run : ResearchRun) : (run.countAudit ws state).opportunityCount = run.opportunityCount := by
  unfold ResearchRun.countAudit
  split <;> rfl

theorem auditOpportunity_grows {r : OpportunityRequest} {audit : ResearchAudit}
    (h : auditOpportunity db r = .ok (db', audit)) : db.Grows db' := by
  obtain ⟨o, _, _, rfl⟩ := auditOpportunity_ok h
  constructor
  · exact .modify (countAudit_workspaceId _ _) _ _
  · exact .refl _ _
  · exact .modify (f := Opportunity.audited audit.state) (fun _ => rfl) _ _
  · exact .refl _ _
  · exact .append _ _ _

theorem strategistGate_ok {scan : Nat → Nat} {id : Nat}
    (h : strategistGate scan db ws id = .ok db') :
    ∃ o audit, getOpportunity db ws id = some o ∧ latestResearchAudit scan db ws id = some audit ∧
      audit.state = .pass ∧
      db' = { db with opportunities := db.opportunities.modify id .sendToStrategist } := by
  unfold strategistGate at h
  split at h
  · cases h
  · rename_i o ho
    split at h
    · rename_i hlatest
      cases h
      obtain ⟨audit, haudit, hpass⟩ := Option.map_eq_some_iff.mp hlatest
      exact ⟨o, audit, ho, haudit, hpass, rfl⟩
    · cases h

theorem mem_latestResearchAudit {scan : Nat → Nat} {id : Nat} {a : ResearchAudit}
    (h : latestResearchAudit scan db ws id = some a) :
    a ∈ db.audits ∧ a.workspaceId = ws ∧ a.opportunityId = id := by
  obtain ⟨hmem, hsel⟩ := List.mem_filter.mp (Ranking.head_mem _ h)
  obtain ⟨hws, hid⟩ := Bool.and_eq_true_iff.mp hsel
  exact ⟨hmem, beq_iff_eq.mp hws, beq_iff_eq.mp hid⟩

theorem strategistGate_grows {scan : Nat → Nat} {id : Nat}
    (h : strategistGate scan db ws id = .ok db') : db.Grows db' := by
  obtain ⟨_, _, _, _, _, rfl⟩ := strategistGate_ok h
  exact ⟨.refl _ _, .refl _ _, .modify (f := Opportunity.sendToStrategist) (fun _ => rfl) _ _,
    .refl _ _, .refl _ _⟩

/-! ## The books stay sound -/

/-- A call that writes neither sources nor evidence, and of one opportunity what no book counts. -/
structure ResearchDb.Touched (db db' : ResearchDb) (id : Nat) (f : Opportunity → Opportunity) :
    Prop where
  sources : db'.sources = db.sources
  evidence : db'.evidence = db.evidence
  opportunities : db'.opportunities = db.opportunities.modify id f
  origin : ∀ o, (f o).origin = o.origin
  sourceCount : ∀ o, (f o).sourceCount = o.sourceCount
  runs : db'.runs.length = db.runs.length
  grows : db.Grows db'

namespace ResearchDb.Touched

variable {id : Nat} {f : Opportunity → Opportunity}

/-- An opportunity afterwards is one from before, but for what `f` writes. -/
theorem back (h : db.Touched db' id f) {i : Nat} {o : Opportunity}
    (ho : db'.opportunities[i]? = some o) : ∃ old, db.opportunities[i]? = some old ∧
      o.origin = old.origin ∧ o.sourceCount = old.sourceCount := by
  rw [h.opportunities] at ho
  obtain ⟨old, hold, ⟨_, rfl⟩ | ⟨_, rfl⟩⟩ := Table.get_modify ho
  · exact ⟨old, hold, h.origin old, h.sourceCount old⟩
  · exact ⟨o, hold, rfl, rfl⟩

theorem countP_run (h : db.Touched db' id f) (i : Nat) :
    db'.opportunities.countP (fun o => o.researchRunId == i)
      = db.opportunities.countP fun o => o.researchRunId == i := by
  rw [h.opportunities]
  refine Table.countP_modify_same fun o _ => ?_
  have hrun : (f o).researchRunId = o.researchRunId := congrArg (fun p => p.2.1) (h.origin o)
  rw [hrun]

/-- What is left to show are the books on audits. -/
theorem sound (h : db.Touched db' id f) (hs : db.Sound)
    (hcounts : ∀ (i : Nat) (run : ResearchRun), db'.runs[i]? = some run →
      run.opportunityCount = db.opportunities.countP (fun o => o.researchRunId == i) ∧
      run.auditedOpportunityCount = db'.audits.countP (fun a => a.researchRunId == i) ∧
      run.blockedOpportunityCount =
        db'.audits.countP fun a => a.researchRunId == i && a.state == .blocked)
    (haudited : ∀ a ∈ db'.audits, ∃ o, db.opportunities[a.opportunityId]? = some o ∧
      o.workspaceId = a.workspaceId ∧ o.researchRunId = a.researchRunId ∧
      (a.state = .pass → db.Evidenced a.workspaceId a.opportunityId))
    (hsent : ∀ (i : Nat) (o : Opportunity), db'.opportunities[i]? = some o →
      o.strategistState = .eligible → ∃ a ∈ db'.audits, a.workspaceId = o.workspaceId ∧
        a.opportunityId = i ∧ a.state = .pass) : db'.Sound := by
  constructor
  case sourceIds =>
    rw [h.sources]
    exact hs.sourceIds
  case sourceRuns =>
    rw [h.sources, h.runs]
    exact hs.sourceRuns
  case links =>
    rw [h.evidence, h.sources, h.opportunities, List.length_modify]
    exact hs.links
  case linkedOnce =>
    rw [h.evidence]
    exact hs.linkedOnce
  case owners =>
    intro o ho
    obtain ⟨i, hi⟩ := List.mem_iff_getElem?.mp ho
    obtain ⟨old, hold, horigin, _⟩ := h.back hi
    obtain ⟨run, hrun, hws⟩ := hs.owners old (Table.mem_of_get hold)
    obtain ⟨run', hrun', hsame⟩ := h.grows.runs.get hrun
    simp only [Opportunity.origin, Prod.mk.injEq] at horigin
    exact ⟨run', horigin.2.1 ▸ hrun', hsame.trans (hws.trans horigin.1.symm)⟩
  case keys =>
    intro i j o o' hi hj hws hkey
    obtain ⟨p, hp, horigin, _⟩ := h.back hi
    obtain ⟨q, hq, horigin', _⟩ := h.back hj
    simp only [Opportunity.origin, Prod.mk.injEq] at horigin horigin'
    refine hs.keys i j p q hp hq ?_ ?_
    · rw [← horigin.1, ← horigin'.1, hws]
    · rw [← horigin.2.2.1, ← horigin'.2.2.1, hkey]
  case sourceCount =>
    intro i o hi
    obtain ⟨old, hold, _, hcount⟩ := h.back hi
    rw [h.evidence, hcount]
    exact hs.sourceCount i old hold
  case runCounts =>
    intro i run hi
    rw [h.countP_run]
    exact hcounts i run hi
  case audited =>
    intro a ha
    obtain ⟨o, ho, hws, hrun, hpass⟩ := haudited a ha
    obtain ⟨o', ho', hsame⟩ := h.grows.opportunities.get ho
    exact ⟨o', ho', (congrArg Prod.fst hsame).trans hws,
      (congrArg (fun p => p.2.1) hsame).trans hrun, fun hstate => h.grows.evidenced (hpass hstate)⟩
  case sent => exact hsent

end ResearchDb.Touched

theorem auditOpportunity_sound {r : OpportunityRequest} {audit : ResearchAudit} (hs : db.Sound)
    (h : auditOpportunity db r = .ok (db', audit)) : db'.Sound := by
  have hgrows := auditOpportunity_grows h
  obtain ⟨o, hget, haudit, rfl⟩ := auditOpportunity_ok h
  obtain ⟨ho, hws⟩ := getOpportunity_some hget
  have hrunId : audit.researchRunId = o.researchRunId := by rw [haudit]; rfl
  have htouched : db.Touched { db with
      runs := db.runs.modify o.researchRunId (.countAudit r.workspaceId audit.state)
      opportunities := db.opportunities.modify r.opportunityId (.audited audit.state)
      audits := db.audits ++ [audit] } r.opportunityId (.audited audit.state) :=
    ⟨rfl, rfl, rfl, fun _ => rfl, fun _ => rfl, List.length_modify _ _ _, hgrows⟩
  refine htouched.sound hs ?_ ?_ ?_
  · intro i run hi
    obtain ⟨old, hold, ⟨heq, rfl⟩ | ⟨hne, rfl⟩⟩ := Table.get_modify hi
    · subst heq
      obtain ⟨hopp, haud, hblock⟩ := hs.runCounts _ old hold
      -- the run is of the workspace of its opportunities
      obtain ⟨run', hrun', hrunWs⟩ := hs.owners o (Table.mem_of_get ho)
      have hsame : run' = old := Option.some.inj (hrun'.symm.trans hold)
      subst hsame
      refine ⟨by rw [countAudit_opportunityCount]; exact hopp, ?_, ?_⟩
      · rw [Table.countP_push, ← haud]
        simp [ResearchRun.countAudit, hrunWs, hws, hrunId]
      · rw [Table.countP_push, ← hblock]
        by_cases hstate : audit.state = .blocked <;>
          simp [ResearchRun.countAudit, hrunWs, hws, hrunId, hstate]
    · obtain ⟨hopp, haud, hblock⟩ := hs.runCounts i run hold
      refine ⟨hopp, ?_, ?_⟩
      · rw [Table.countP_push, ← haud]
        simp [hrunId, hne]
      · rw [Table.countP_push, ← hblock]
        simp [hrunId, hne]
  · refine Table.forall_push hs.audited ?_
    refine ⟨o, ?_, ?_, hrunId.symm, fun hpass => ?_⟩
    · rw [haudit]
      exact ho
    · rw [haudit]
      exact hws
    · rw [haudit] at hpass ⊢
      exact evidenced_of_pass hpass
  · intro i p hi hsent
    obtain ⟨old, hold, ⟨_, rfl⟩ | ⟨_, rfl⟩⟩ := Table.get_modify hi
    · obtain ⟨a, ha, hrest⟩ := hs.sent i old hold hsent
      exact ⟨a, List.mem_append_left _ ha, hrest⟩
    · obtain ⟨a, ha, hrest⟩ := hs.sent i p hold hsent
      exact ⟨a, List.mem_append_left _ ha, hrest⟩

theorem strategistGate_sound {scan : Nat → Nat} {id : Nat} (hs : db.Sound)
    (h : strategistGate scan db ws id = .ok db') : db'.Sound := by
  have hgrows := strategistGate_grows h
  obtain ⟨o, audit, hget, hlatest, hpass, rfl⟩ := strategistGate_ok h
  obtain ⟨ho, hws⟩ := getOpportunity_some hget
  obtain ⟨haudit, hauditWs, hauditId⟩ := mem_latestResearchAudit hlatest
  have htouched : db.Touched
      { db with opportunities := db.opportunities.modify id .sendToStrategist } id
      .sendToStrategist :=
    ⟨rfl, rfl, rfl, fun _ => rfl, fun _ => rfl, rfl, hgrows⟩
  refine htouched.sound hs hs.runCounts hs.audited fun i p hi hsent => ?_
  obtain ⟨old, hold, ⟨heq, rfl⟩ | ⟨_, rfl⟩⟩ := Table.get_modify hi
  · subst heq
    have hsame : old = o := Option.some.inj (hold.symm.trans ho)
    subst hsame
    exact ⟨audit, haudit, hauditWs.trans hws.symm, hauditId, hpass⟩
  · exact hs.sent i p hold hsent

theorem createManualResearch_sound (hs : db.Sound) (r : ManualResearch) :
    (createManualResearch env db r).Sound := by
  constructor
  case sourceIds => exact hs.sourceIds
  case sourceRuns =>
    intro s hsource
    have hlt := hs.sourceRuns s hsource
    simp only [createManualResearch, List.length_append, List.length_singleton]
    omega
  case links => exact hs.links
  case linkedOnce => exact hs.linkedOnce
  case owners =>
    intro o ho
    obtain ⟨run, hrun, hws⟩ := hs.owners o ho
    exact ⟨run, Table.get_push_of_some hrun, hws⟩
  case keys => exact hs.keys
  case sourceCount => exact hs.sourceCount
  case runCounts =>
    intro i run hi
    rcases Table.get_push hi with hold | ⟨hlast, hnew⟩
    · exact hs.runCounts i run hold
    · subst hnew hlast
      obtain ⟨hnone, hnoAudit, hnoBlock⟩ := hs.unused
      exact ⟨hnone.symm, hnoAudit.symm, hnoBlock.symm⟩
  case audited => exact hs.audited
  case sent => exact hs.sent

end HumanGate
