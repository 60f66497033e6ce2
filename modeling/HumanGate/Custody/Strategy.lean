import HumanGate.Custody.Research
import HumanGate.Model.Strategy

set_option autoImplicit false

/-! # What strategy rests on

A brief is only recorded on opportunities that pass the gate of research, so each of them rests on
sources; and a brief that was handed to the Writer passed the Strategy Auditor, who reads columns
that nothing writes afterwards.
-/

namespace HumanGate

open Lib Lib.Calendar

variable {env : StrategyEnv} {research research' : ResearchDb} {db db' db'' : StrategyDb}
  {ws : WorkspaceId}

/-! ## The research pass -/

theorem requireResearchPass_grows {scan : Nat → Nat} {ids : List Nat}
    {opportunities : List Opportunity}
    (h : requireResearchPass scan research ws ids = .ok (research', opportunities)) :
    research.Grows research' := by
  induction ids generalizing research opportunities with
  | nil =>
      cases h
      exact .refl _
  | cons id ids ih =>
      unfold requireResearchPass at h
      split at h
      · cases h
      · cases h
      · rename_i middle hgate
        split at h
        · cases h
        · obtain ⟨rest, hrest, hpair⟩ := map_ok h
          cases hpair
          exact (strategistGate_grows hgate).trans (ih hrest)

theorem requireResearchPass_sound {scan : Nat → Nat} {ids : List Nat}
    {opportunities : List Opportunity} (hs : research.Sound)
    (h : requireResearchPass scan research ws ids = .ok (research', opportunities)) :
    research'.Sound := by
  induction ids generalizing research opportunities with
  | nil =>
      cases h
      exact hs
  | cons id ids ih =>
      unfold requireResearchPass at h
      split at h
      · cases h
      · cases h
      · rename_i middle hgate
        split at h
        · cases h
        · obtain ⟨rest, hrest, hpair⟩ := map_ok h
          cases hpair
          exact ih (strategistGate_sound hs hgate) hrest

/-- **Every opportunity that passes is evidenced**, and there are as many as were asked for. -/
theorem requireResearchPass_evidenced {scan : Nat → Nat} {ids : List Nat}
    {opportunities : List Opportunity} (hs : research.Sound)
    (h : requireResearchPass scan research ws ids = .ok (research', opportunities)) :
    opportunities.length = ids.length ∧ ∀ id ∈ ids, research'.Evidenced ws id := by
  induction ids generalizing research opportunities with
  | nil =>
      cases h
      exact ⟨rfl, fun _ hid => absurd hid List.not_mem_nil⟩
  | cons id ids ih =>
      unfold requireResearchPass at h
      split at h
      · cases h
      · cases h
      · rename_i middle hgate
        split at h
        · cases h
        · rename_i o ho
          obtain ⟨rest, hrest, hpair⟩ := map_ok h
          cases hpair
          have hmiddle := strategistGate_sound hs hgate
          obtain ⟨hlength, hevidenced⟩ := ih hmiddle hrest
          obtain ⟨o', audit, hget, hlatest, hpass, rfl⟩ := strategistGate_ok hgate
          refine ⟨by simp [hlength], fun id' hid => ?_⟩
          rcases List.mem_cons.mp hid with rfl | hid
          · -- the gate has just sent it
            obtain ⟨hrow, hws⟩ := getOpportunity_some hget
            have hsent := hmiddle.evidenced (Table.get_modify_self hrow) rfl
            rw [← hws]
            exact (requireResearchPass_grows hrest).evidenced hsent
          · exact hevidenced id' hid

/-! ## What stays -/

/-- The columns of a brief that are written once. -/
def StrategyBrief.content (b : StrategyBrief) : StrategyBrief :=
  { b with
    auditGateStatus := none
    writerHandoffState := .blocked
    status := .draft }

/-- The columns that the books read. -/
theorem StrategyBrief.columns {b b' : StrategyBrief} (h : b.content = b'.content) :
    b.workspaceId = b'.workspaceId ∧ b.strategyRunId = b'.strategyRunId ∧
      b.structuralFingerprint = b'.structuralFingerprint := by
  refine ⟨?_, ?_, ?_⟩
  · show b.content.workspaceId = b'.content.workspaceId
    rw [h]
  · show b.content.strategyRunId = b'.content.strategyRunId
    rw [h]
  · show b.content.structuralFingerprint = b'.content.structuralFingerprint
    rw [h]

structure StrategyDb.Grows (db db' : StrategyDb) : Prop where
  runs : Archived StrategyRun.workspaceId db.runs db'.runs
  briefs : Archived StrategyBrief.content db.briefs db'.briefs
  links : Archived id db.links db'.links
  audits : Archived id db.audits db'.audits

theorem StrategyDb.Grows.refl (db : StrategyDb) : db.Grows db :=
  ⟨.refl _ _, .refl _ _, .refl _ _, .refl _ _⟩

theorem StrategyDb.Grows.trans (h : db.Grows db') (h' : db'.Grows db'') : db.Grows db'' := by
  constructor
  · exact h.runs.trans h'.runs
  · exact h.briefs.trans h'.briefs
  · exact h.links.trans h'.links
  · exact h.audits.trans h'.audits

/-- What the Strategy Auditor asks of the brief itself. -/
structure StrategyBrief.Complete (env : StrategyEnv) (b : StrategyBrief) : Prop where
  context : b.businessContextState = "complete" ∧ blank b.texts.businessGoal = false
  target : blank b.texts.targetPlatform = false ∧ blank b.texts.contentFormat = false
  cost : b.costState ≠ "unknown" ∧ b.costState ≠ "not_configured"
  capability : b.capabilityState = "configured"
  modest : env.overstated b.reasoning = false ∧ env.overstated b.evidenceSummary = false
  performance : b.performanceDataState = "no_data"

/-- It reads only what is written once. -/
theorem StrategyBrief.Complete.of_content {b b' : StrategyBrief} (h : b.Complete env)
    (hsame : b'.content = b.content) : b'.Complete env := by
  have hcontent : b.content.Complete env := ⟨h.context, h.target, h.cost, h.capability, h.modest,
    h.performance⟩
  rw [← hsame] at hcontent
  exact ⟨hcontent.context, hcontent.target, hcontent.cost, hcontent.capability, hcontent.modest,
    hcontent.performance⟩

/-! ## The books -/

structure StrategyDb.Sound (env : StrategyEnv) (research : ResearchDb) (db : StrategyDb) :
    Prop where
  owners : ∀ b ∈ db.briefs, ∃ run, db.runs[b.strategyRunId]? = some run ∧
    run.workspaceId = b.workspaceId
  keys : ∀ (i j : Nat) (b b' : StrategyBrief), db.briefs[i]? = some b → db.briefs[j]? = some b' →
    b.workspaceId = b'.workspaceId → b.structuralFingerprint = b'.structuralFingerprint → i = j
  /-- Every brief is on opportunities of its workspace, and every one of these is evidenced. -/
  linked : ∀ (i : Nat) (b : StrategyBrief), db.briefs[i]? = some b →
    ∃ l ∈ db.links, l.workspaceId = b.workspaceId ∧ l.strategyBriefId = i
  links : ∀ l ∈ db.links, (∃ b, db.briefs[l.strategyBriefId]? = some b ∧
    b.workspaceId = l.workspaceId) ∧ research.Evidenced l.workspaceId l.opportunityId
  runCounts : ∀ (i : Nat) (run : StrategyRun), db.runs[i]? = some run →
    run.briefsCreated = db.briefs.countP (fun b => b.strategyRunId == i) ∧
    run.briefsPassed = db.audits.countP (fun a => a.strategyRunId == i && a.state == .pass) ∧
    run.briefsBlocked = db.audits.countP fun a => a.strategyRunId == i && a.state != .pass
  audited : ∀ a ∈ db.audits, ∃ b, db.briefs[a.strategyBriefId]? = some b ∧
    b.workspaceId = a.workspaceId ∧ b.strategyRunId = a.strategyRunId ∧
    (a.state = .pass → b.Complete env)
  sent : ∀ (i : Nat) (b : StrategyBrief), db.briefs[i]? = some b →
    b.writerHandoffState = .eligible → ∃ a ∈ db.audits, a.workspaceId = b.workspaceId ∧
      a.strategyBriefId = i ∧ a.state = .pass

namespace StrategyDb.Sound

theorem empty (env : StrategyEnv) (research : ResearchDb) :
    ({} : StrategyDb).Sound env research := by
  constructor <;> simp

/-- Research that grows takes nothing away. -/
theorem of_grows (h : db.Sound env research) (hgrows : research.Grows research') :
    db.Sound env research' :=
  ⟨h.owners, h.keys, h.linked, fun l hl => ⟨(h.links l hl).1, hgrows.evidenced (h.links l hl).2⟩,
    h.runCounts, h.audited, h.sent⟩

/-- Nothing belongs to a run that is not there. -/
theorem unused (h : db.Sound env research) :
    db.briefs.countP (fun b => b.strategyRunId == db.runs.length) = 0 ∧
    db.audits.countP (fun a => a.strategyRunId == db.runs.length && a.state == .pass) = 0 ∧
    db.audits.countP (fun a => a.strategyRunId == db.runs.length && a.state != .pass) = 0 := by
  have hbriefs : ∀ b ∈ db.briefs, b.strategyRunId ≠ db.runs.length := by
    intro b hb heq
    obtain ⟨run, hrun, _⟩ := h.owners b hb
    have hlt := (List.getElem?_eq_some_iff.mp hrun).1
    omega
  have haudits : ∀ a ∈ db.audits, a.strategyRunId ≠ db.runs.length := by
    intro a ha
    obtain ⟨b, hb, _, hrun, _⟩ := h.audited a ha
    rw [← hrun]
    exact hbriefs b (Table.mem_of_get hb)
  refine ⟨?_, ?_, ?_⟩
  · exact List.countP_eq_zero.mpr fun b hb => by simp [hbriefs b hb]
  · exact List.countP_eq_zero.mpr fun a ha => by simp [haudits a ha]
  · exact List.countP_eq_zero.mpr fun a ha => by simp [haudits a ha]

/-- A new run without a brief. -/
theorem pushRun (h : db.Sound env research) {run : StrategyRun} (hcreated : run.briefsCreated = 0)
    (hpassed : run.briefsPassed = 0) (hblocked : run.briefsBlocked = 0) :
    ({ db with runs := db.runs ++ [run] } : StrategyDb).Sound env research := by
  constructor
  case owners =>
    intro b hb
    obtain ⟨run', hrun', hws⟩ := h.owners b hb
    exact ⟨run', Table.get_push_of_some hrun', hws⟩
  case keys => exact h.keys
  case linked => exact h.linked
  case links => exact h.links
  case runCounts =>
    intro i run' hi
    rcases Table.get_push hi with hold | ⟨hlast, hnew⟩
    · exact h.runCounts i run' hold
    · subst hnew hlast
      obtain ⟨hnone, hnoPass, hnoBlock⟩ := h.unused
      exact ⟨hcreated.trans hnone.symm, hpassed.trans hnoPass.symm, hblocked.trans hnoBlock.symm⟩
  case audited => exact h.audited
  case sent => exact h.sent

end StrategyDb.Sound

/-! ## Recording a brief -/

theorem createManualStrategy_ok {r : StrategyRequest}
    (h : createManualStrategy env research db r = .ok (research', db')) :
    (∃ opportunities, requireResearchPass r.scan research r.workspaceId r.sourceOpportunityIds
      = .ok (research', opportunities)) ∧
    ∃ run : StrategyRun, db' = { db with runs := db.runs ++ [run] } ∧ run.briefsCreated = 0 ∧
      run.briefsPassed = 0 ∧ run.briefsBlocked = 0 := by
  unfold createManualStrategy at h
  obtain ⟨objective, _, h⟩ := bind_ok h
  obtain ⟨⟨research'', opportunities⟩, hpass, h⟩ := bind_ok h
  cases h
  exact ⟨⟨opportunities, hpass⟩, _, rfl, rfl, rfl, rfl⟩

/-- A brief that is there already, or a new one. -/
theorem recordFixtureBrief_ok {r : BriefRequest} {bid : Nat}
    (h : recordFixtureBrief env research db r = .ok (research', db', bid)) :
    (∃ opportunities, opportunities ≠ [] ∧
      requireResearchPass r.scan research r.workspaceId r.sourceOpportunityIds
        = .ok (research', opportunities)) ∧
    ∃ objective, db' = { db with runs := db.runs ++ [duplicateStrategyRun r objective] } ∨
      ∃ text summary reasoning fingerprint texts,
        db' = insertBrief db r objective
          (newBrief r db.runs.length text summary reasoning fingerprint texts) ∧
        ∀ old ∈ db.briefs, old.workspaceId = r.workspaceId →
          old.structuralFingerprint ≠ fingerprint := by
  unfold recordFixtureBrief at h
  dsimp only at h
  split at h
  · cases h
  obtain ⟨objective, _, h⟩ := bind_ok h
  obtain ⟨⟨research'', opportunities⟩, hpass, h⟩ := bind_ok h
  obtain ⟨⟨text, summary, reasoning⟩, hdraft, h⟩ := bind_ok h
  have hsome : opportunities ≠ [] := by
    rintro rfl
    unfold draftBrief at hdraft
    obtain ⟨_, _, hdraft⟩ := bind_ok hdraft
    cases hdraft
  simp only at h
  split at h
  · cases h
  · cases h
    exact ⟨⟨opportunities, hsome, hpass⟩, objective, .inl rfl⟩
  · obtain ⟨texts, _, h⟩ := bind_ok h
    split at h
    · cases h
    · rename_i hclash
      split at h
      · cases h
      · cases h
        refine ⟨⟨opportunities, hsome, hpass⟩, objective, .inr ⟨text, summary, reasoning, _, texts,
          rfl, fun old hold hws hkey => hclash ?_⟩⟩
        refine List.any_eq_true.mpr ⟨old, hold, ?_⟩
        simp [hws, hkey]

theorem recordFixtureBrief_grows {r : BriefRequest} {bid : Nat}
    (h : recordFixtureBrief env research db r = .ok (research', db', bid)) :
    research.Grows research' ∧ db.Grows db' := by
  obtain ⟨⟨_, _, hpass⟩, objective, rfl | ⟨_, _, _, _, _, rfl, _⟩⟩ := recordFixtureBrief_ok h
  · exact ⟨requireResearchPass_grows hpass, .append _ _ _, .refl _ _, .refl _ _, .refl _ _⟩
  · exact ⟨requireResearchPass_grows hpass, .append _ _ _, .append _ _ _, .append _ _ _, .refl _ _⟩

theorem insertBrief_sound {r : BriefRequest} {text summary reasoning fingerprint : String}
    {texts : BriefTexts} (objective : String) (hs : db.Sound env research)
    (hsome : r.sourceOpportunityIds ≠ [])
    (hevidenced : ∀ id ∈ r.sourceOpportunityIds, research.Evidenced r.workspaceId id)
    (hkeys : ∀ old ∈ db.briefs, old.workspaceId = r.workspaceId →
      old.structuralFingerprint ≠ fingerprint) :
    (insertBrief db r objective
      (newBrief r db.runs.length text summary reasoning fingerprint texts)).Sound env research := by
  constructor
  case owners =>
    refine Table.forall_push (fun b hb => ?_) ⟨_, Table.get_push_new _ _, rfl⟩
    obtain ⟨run, hrun, hws⟩ := hs.owners b hb
    exact ⟨run, Table.get_push_of_some hrun, hws⟩
  case keys =>
    intro i j b b' hi hj hws hkey
    rcases Table.get_push hi with hold | ⟨hlast, hnew⟩
    · rcases Table.get_push hj with hold' | ⟨_, hnew'⟩
      · exact hs.keys i j b b' hold hold' hws hkey
      · rw [hnew'] at hws hkey
        exact absurd hkey (hkeys b (Table.mem_of_get hold) hws)
    · rcases Table.get_push hj with hold' | ⟨hlast', _⟩
      · rw [hnew] at hws hkey
        exact absurd hkey.symm (hkeys b' (Table.mem_of_get hold') hws.symm)
      · rw [hlast, hlast']
  case linked =>
    intro i b hi
    rcases Table.get_push hi with hold | ⟨hlast, hnew⟩
    · obtain ⟨l, hl, hrest⟩ := hs.linked i b hold
      exact ⟨l, List.mem_append_left _ hl, hrest⟩
    · obtain ⟨id, hid⟩ := List.exists_mem_of_ne_nil _ hsome
      rw [hnew, hlast]
      exact ⟨_, List.mem_append_right _ (List.mem_map_of_mem hid), rfl, rfl⟩
  case links =>
    intro l hl
    rcases List.mem_append.mp hl with hl | hl
    · obtain ⟨⟨b, hb, hws⟩, hevidence⟩ := hs.links l hl
      exact ⟨⟨b, Table.get_push_of_some hb, hws⟩, hevidence⟩
    · obtain ⟨id, hid, rfl⟩ := List.mem_map.mp hl
      exact ⟨⟨_, Table.get_push_new _ _, rfl⟩, hevidenced id hid⟩
  case runCounts =>
    intro i run hi
    -- the new brief is counted for the new run alone
    have hbriefs : (insertBrief db r objective (newBrief r db.runs.length text summary reasoning
        fingerprint texts)).briefs.countP (fun b => b.strategyRunId == i)
        = db.briefs.countP (fun b => b.strategyRunId == i)
          + if db.runs.length = i then 1 else 0 := by
      rw [insertBrief, Table.countP_push]
      simp [newBrief]
    rw [hbriefs]
    rcases Table.get_push hi with hold | ⟨hlast, hnew⟩
    · have hlt : i < db.runs.length := (List.getElem?_eq_some_iff.mp hold).1
      rw [if_neg (Nat.ne_of_gt hlt), Nat.add_zero]
      exact hs.runCounts i run hold
    · subst hnew hlast
      obtain ⟨hnone, hnoPass, hnoBlock⟩ := hs.unused
      rw [if_pos rfl, hnone]
      exact ⟨rfl, hnoPass.symm, hnoBlock.symm⟩
  case audited =>
    intro a ha
    obtain ⟨b, hb, hrest⟩ := hs.audited a ha
    exact ⟨b, Table.get_push_of_some hb, hrest⟩
  case sent =>
    intro i b hi hsent
    rcases Table.get_push hi with hold | ⟨_, hnew⟩
    · exact hs.sent i b hold hsent
    · rw [hnew] at hsent
      cases hsent

theorem recordFixtureBrief_sound {r : BriefRequest} {bid : Nat} (hr : research.Sound)
    (hs : db.Sound env research)
    (h : recordFixtureBrief env research db r = .ok (research', db', bid)) :
    research'.Sound ∧ db'.Sound env research' := by
  obtain ⟨⟨opportunities, hsome, hpass⟩, objective, hcases⟩ := recordFixtureBrief_ok h
  have hlater := hs.of_grows (requireResearchPass_grows hpass)
  obtain ⟨hlength, hevidenced⟩ := requireResearchPass_evidenced hr hpass
  refine ⟨requireResearchPass_sound hr hpass, ?_⟩
  obtain rfl | ⟨text, summary, reasoning, fingerprint, texts, rfl, hkeys⟩ := hcases
  · exact hlater.pushRun rfl rfl rfl
  · refine insertBrief_sound objective hlater ?_ hevidenced hkeys
    rintro hnil
    rw [hnil] at hlength
    exact hsome (List.length_eq_zero_iff.mp hlength)

theorem createManualStrategy_sound {r : StrategyRequest} (hr : research.Sound)
    (hs : db.Sound env research)
    (h : createManualStrategy env research db r = .ok (research', db')) :
    research'.Sound ∧ db'.Sound env research' := by
  obtain ⟨⟨_, hpass⟩, run, rfl, hcreated, hpassed, hblocked⟩ := createManualStrategy_ok h
  have hlater := hs.of_grows (requireResearchPass_grows hpass)
  exact ⟨requireResearchPass_sound hr hpass, hlater.pushRun hcreated hpassed hblocked⟩

/-! ## Auditing a brief -/

/-- **A pass needs a complete brief.** -/
theorem complete_of_pass {ids : List Nat} {sources : List String} {b : StrategyBrief}
    (h : verdictOf (strategyBlocked env ids sources b) (strategyWarnings b) = .pass) :
    b.Complete env := by
  obtain ⟨hblocked, hwarnings⟩ := verdictOf_pass.mp h
  unfold strategyBlocked at hblocked
  unfold strategyWarnings at hwarnings
  simp only [List.append_eq_nil_iff, reasonIf_nil, Bool.or_eq_false_iff, bne_eq_false_iff_eq,
    beq_eq_false_iff_ne] at hblocked hwarnings
  obtain ⟨⟨⟨⟨⟨⟨_, hcontext⟩, htarget⟩, hcost⟩, hcapability⟩, _⟩, hmodest⟩ := hblocked
  exact ⟨hcontext, htarget, hcost, hcapability, hmodest, hwarnings⟩

theorem auditBrief_ok {r : BriefAuditRequest} {audit : StrategyAudit}
    (h : auditBrief env research db r = .ok (db', audit)) :
    ∃ b, getBrief db r.workspaceId r.briefId = some b ∧
      audit = newStrategyAudit env research db r b ∧
      db' = { db with
        runs := db.runs.modify b.strategyRunId (.countAudit r.workspaceId audit.state)
        briefs := db.briefs.modify r.briefId (.audited audit.state)
        audits := db.audits ++ [audit] } := by
  unfold auditBrief at h
  split at h
  · cases h
  · rename_i b hb
    cases h
    exact ⟨b, hb, rfl, rfl⟩

theorem getBrief_some {id : Nat} {b : StrategyBrief} (h : getBrief db ws id = some b) :
    db.briefs[id]? = some b ∧ b.workspaceId = ws := by
  obtain ⟨hget, hsel⟩ := Option.filter_eq_some_iff.mp h
  exact ⟨hget, beq_iff_eq.mp (Bool.and_eq_true_iff.mp hsel).1⟩

theorem writerGate_ok {scan : Nat → Nat} {id : Nat} (h : writerGate scan db ws id = .ok db') :
    ∃ b audit, getBrief db ws id = some b ∧ latestStrategyAudit scan db ws id = some audit ∧
      audit.state = .pass ∧ db' = { db with briefs := db.briefs.modify id .sendToWriter } := by
  unfold writerGate at h
  split at h
  · cases h
  · rename_i b hb
    split at h
    · rename_i hlatest
      cases h
      obtain ⟨audit, haudit, hpass⟩ := Option.map_eq_some_iff.mp hlatest
      exact ⟨b, audit, hb, haudit, hpass, rfl⟩
    · cases h

theorem mem_latestStrategyAudit {scan : Nat → Nat} {id : Nat} {a : StrategyAudit}
    (h : latestStrategyAudit scan db ws id = some a) :
    a ∈ db.audits ∧ a.workspaceId = ws ∧ a.strategyBriefId = id := by
  obtain ⟨hmem, hsel⟩ := List.mem_filter.mp (Ranking.head_mem _ h)
  obtain ⟨hws, hid⟩ := Bool.and_eq_true_iff.mp hsel
  exact ⟨hmem, beq_iff_eq.mp hws, beq_iff_eq.mp hid⟩

@[simp] theorem StrategyRun.countAudit_workspaceId (ws : WorkspaceId) (state : Verdict)
    (run : StrategyRun) : (run.countAudit ws state).workspaceId = run.workspaceId := by
  unfold StrategyRun.countAudit
  split <;> rfl

@[simp] theorem StrategyRun.countAudit_briefsCreated (ws : WorkspaceId) (state : Verdict)
    (run : StrategyRun) : (run.countAudit ws state).briefsCreated = run.briefsCreated := by
  unfold StrategyRun.countAudit
  split <;> rfl

theorem auditBrief_grows {r : BriefAuditRequest} {audit : StrategyAudit}
    (h : auditBrief env research db r = .ok (db', audit)) : db.Grows db' := by
  obtain ⟨b, _, _, rfl⟩ := auditBrief_ok h
  constructor
  · exact .modify (StrategyRun.countAudit_workspaceId _ _) _ _
  · exact .modify (f := StrategyBrief.audited audit.state) (fun _ => rfl) _ _
  · exact .refl _ _
  · exact .append _ _ _

theorem writerGate_grows {scan : Nat → Nat} {id : Nat} (h : writerGate scan db ws id = .ok db') :
    db.Grows db' := by
  obtain ⟨_, _, _, _, _, rfl⟩ := writerGate_ok h
  exact ⟨.refl _ _, .modify (f := StrategyBrief.sendToWriter) (fun _ => rfl) _ _, .refl _ _,
    .refl _ _⟩

/-- A call that writes of one brief only what an audit writes. -/
structure StrategyDb.Touched (db db' : StrategyDb) (id : Nat) (f : StrategyBrief → StrategyBrief) :
    Prop where
  briefs : db'.briefs = db.briefs.modify id f
  content : ∀ b, (f b).content = b.content
  links : db'.links = db.links
  grows : db.Grows db'

namespace StrategyDb.Touched

variable {id : Nat} {f : StrategyBrief → StrategyBrief}

theorem back (h : db.Touched db' id f) {i : Nat} {b : StrategyBrief}
    (hb : db'.briefs[i]? = some b) :
    ∃ old, db.briefs[i]? = some old ∧ b.content = old.content := by
  rw [h.briefs] at hb
  obtain ⟨old, hold, ⟨_, rfl⟩ | ⟨_, rfl⟩⟩ := Table.get_modify hb
  · exact ⟨old, hold, h.content old⟩
  · exact ⟨b, hold, rfl⟩

theorem countP_run (h : db.Touched db' id f) (i : Nat) :
    db'.briefs.countP (fun b => b.strategyRunId == i)
      = db.briefs.countP fun b => b.strategyRunId == i := by
  rw [h.briefs]
  refine Table.countP_modify_same fun b _ => ?_
  rw [(StrategyBrief.columns (h.content b)).2.1]

/-- What is left to show are the books on audits. -/
theorem sound (h : db.Touched db' id f) (hs : db.Sound env research)
    (hcounts : ∀ (i : Nat) (run : StrategyRun), db'.runs[i]? = some run →
      run.briefsCreated = db.briefs.countP (fun b => b.strategyRunId == i) ∧
      run.briefsPassed = db'.audits.countP (fun a => a.strategyRunId == i && a.state == .pass) ∧
      run.briefsBlocked = db'.audits.countP fun a => a.strategyRunId == i && a.state != .pass)
    (haudited : ∀ a ∈ db'.audits, ∃ b, db.briefs[a.strategyBriefId]? = some b ∧
      b.workspaceId = a.workspaceId ∧ b.strategyRunId = a.strategyRunId ∧
      (a.state = .pass → b.Complete env))
    (hsent : ∀ (i : Nat) (b : StrategyBrief), db'.briefs[i]? = some b →
      b.writerHandoffState = .eligible → ∃ a ∈ db'.audits, a.workspaceId = b.workspaceId ∧
        a.strategyBriefId = i ∧ a.state = .pass) : db'.Sound env research := by
  constructor
  case owners =>
    intro b hb
    obtain ⟨i, hi⟩ := List.mem_iff_getElem?.mp hb
    obtain ⟨old, hold, hsame⟩ := h.back hi
    obtain ⟨run, hrun, hws⟩ := hs.owners old (Table.mem_of_get hold)
    obtain ⟨run', hrun', hrunWs⟩ := h.grows.runs.get hrun
    obtain ⟨hbws, hid, _⟩ := StrategyBrief.columns hsame
    exact ⟨run', hid ▸ hrun', hrunWs.trans (hws.trans hbws.symm)⟩
  case keys =>
    intro i j b b' hi hj hws hkey
    obtain ⟨p, hp, hsame⟩ := h.back hi
    obtain ⟨q, hq, hsame'⟩ := h.back hj
    obtain ⟨hpws, _, hpkey⟩ := StrategyBrief.columns hsame
    obtain ⟨hqws, _, hqkey⟩ := StrategyBrief.columns hsame'
    refine hs.keys i j p q hp hq ?_ ?_
    · rw [← hpws, ← hqws, hws]
    · rw [← hpkey, ← hqkey, hkey]
  case linked =>
    intro i b hi
    obtain ⟨old, hold, hsame⟩ := h.back hi
    rw [h.links, (StrategyBrief.columns hsame).1]
    exact hs.linked i old hold
  case links =>
    intro l hl
    rw [h.links] at hl
    obtain ⟨⟨b, hb, hws⟩, hevidence⟩ := hs.links l hl
    obtain ⟨b', hb', hsame⟩ := h.grows.briefs.get hb
    exact ⟨⟨b', hb', (StrategyBrief.columns hsame).1.trans hws⟩, hevidence⟩
  case runCounts =>
    intro i run hi
    rw [h.countP_run]
    exact hcounts i run hi
  case audited =>
    intro a ha
    obtain ⟨b, hb, hws, hrun, hpass⟩ := haudited a ha
    obtain ⟨b', hb', hsame⟩ := h.grows.briefs.get hb
    obtain ⟨hbws, hid, _⟩ := StrategyBrief.columns hsame
    exact ⟨b', hb', hbws.trans hws, hid.trans hrun, fun hstate => (hpass hstate).of_content hsame⟩
  case sent => exact hsent

end StrategyDb.Touched

theorem auditBrief_sound {r : BriefAuditRequest} {audit : StrategyAudit}
    (hs : db.Sound env research) (h : auditBrief env research db r = .ok (db', audit)) :
    db'.Sound env research := by
  have hgrows := auditBrief_grows h
  obtain ⟨b, hget, haudit, rfl⟩ := auditBrief_ok h
  obtain ⟨hb, hws⟩ := getBrief_some hget
  have hrunId : audit.strategyRunId = b.strategyRunId := by rw [haudit]; rfl
  have htouched : db.Touched { db with
      runs := db.runs.modify b.strategyRunId (.countAudit r.workspaceId audit.state)
      briefs := db.briefs.modify r.briefId (.audited audit.state)
      audits := db.audits ++ [audit] } r.briefId (.audited audit.state) :=
    ⟨rfl, fun _ => rfl, rfl, hgrows⟩
  refine htouched.sound hs ?_ ?_ ?_
  · intro i run hi
    obtain ⟨old, hold, ⟨heq, rfl⟩ | ⟨hne, rfl⟩⟩ := Table.get_modify hi
    · subst heq
      obtain ⟨hcreated, hpassed, hblocked⟩ := hs.runCounts _ old hold
      -- the run is of the workspace of its briefs
      obtain ⟨run', hrun', hrunWs⟩ := hs.owners b (Table.mem_of_get hb)
      have hsame : run' = old := Option.some.inj (hrun'.symm.trans hold)
      subst hsame
      refine ⟨by rw [StrategyRun.countAudit_briefsCreated]; exact hcreated, ?_, ?_⟩
      · rw [Table.countP_push, ← hpassed]
        by_cases hstate : audit.state = .pass <;>
          simp [StrategyRun.countAudit, hrunWs, hws, hrunId, hstate]
      · rw [Table.countP_push, ← hblocked]
        by_cases hstate : audit.state = .pass <;>
          simp [StrategyRun.countAudit, hrunWs, hws, hrunId, hstate]
    · obtain ⟨hcreated, hpassed, hblocked⟩ := hs.runCounts i run hold
      refine ⟨hcreated, ?_, ?_⟩
      · rw [Table.countP_push, ← hpassed]
        simp [hrunId, hne]
      · rw [Table.countP_push, ← hblocked]
        simp [hrunId, hne]
  · refine Table.forall_push hs.audited ⟨b, ?_, ?_, hrunId.symm, fun hpass => ?_⟩
    · rw [haudit]
      exact hb
    · rw [haudit]
      exact hws
    · rw [haudit] at hpass
      exact complete_of_pass hpass
  · intro i p hi hsent
    obtain ⟨old, hold, ⟨heq, rfl⟩ | ⟨_, rfl⟩⟩ := Table.get_modify hi
    · -- the brief that was audited: its state is the verdict
      subst heq
      have hsame : old = b := Option.some.inj (hold.symm.trans hb)
      subst hsame
      have hpass : audit.state = .pass := by
        by_contra hne
        simp [StrategyBrief.audited, hne] at hsent
      refine ⟨audit, List.mem_append_right _ (List.mem_singleton_self _), ?_, ?_, hpass⟩
      · rw [haudit]
        exact hws.symm
      · rw [haudit]
        rfl
    · obtain ⟨a, ha, hrest⟩ := hs.sent i p hold hsent
      exact ⟨a, List.mem_append_left _ ha, hrest⟩

theorem writerGate_sound {scan : Nat → Nat} {id : Nat} (hs : db.Sound env research)
    (h : writerGate scan db ws id = .ok db') : db'.Sound env research := by
  have hgrows := writerGate_grows h
  obtain ⟨b, audit, hget, hlatest, hpass, rfl⟩ := writerGate_ok h
  obtain ⟨hb, hws⟩ := getBrief_some hget
  obtain ⟨haudit, hauditWs, hauditId⟩ := mem_latestStrategyAudit hlatest
  have htouched : db.Touched { db with briefs := db.briefs.modify id .sendToWriter } id
      .sendToWriter :=
    ⟨rfl, fun _ => rfl, rfl, hgrows⟩
  refine htouched.sound hs hs.runCounts hs.audited fun i p hi hsent => ?_
  obtain ⟨old, hold, ⟨heq, rfl⟩ | ⟨_, rfl⟩⟩ := Table.get_modify hi
  · subst heq
    have hsame : old = b := Option.some.inj (hold.symm.trans hb)
    subst hsame
    exact ⟨audit, haudit, hauditWs.trans hws.symm, hauditId, hpass⟩
  · exact hs.sent i p hold hsent

end HumanGate
