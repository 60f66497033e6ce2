import HumanGate.Content.Withdrawn
import HumanGate.Lib.Archive

set_option autoImplicit false

/-! # What a cleared package rests on

Audits are only ever added, and an audit is of the version that its package has for ever. A package
whose gate is passed was passed by all four auditors, none of whom wrote it.
-/

namespace HumanGate

open Lib Lib.Calendar

variable {env : ContentEnv} {db db' db'' : ContentDb}

/-- The columns of a package that are written once. -/
def ContentPackage.origin (p : ContentPackage) : WorkspaceId × Nat × String :=
  (p.workspaceId, p.contentVersionId, p.writerWorkerId)

structure ContentDb.Grows (db db' : ContentDb) : Prop where
  packages : Archived ContentPackage.origin db.packages db'.packages
  audits : Archived id db.audits db'.audits

theorem ContentDb.Grows.refl (db : ContentDb) : db.Grows db := ⟨.refl _ _, .refl _ _⟩

theorem ContentDb.Grows.trans (h : db.Grows db') (h' : db'.Grows db'') : db.Grows db'' :=
  ⟨h.packages.trans h'.packages, h.audits.trans h'.audits⟩

/-- The audit is of the workspace and the version of its package, and not by the writer. -/
structure ContentAudit.Covers (a : ContentAudit) (p : ContentPackage) : Prop where
  workspace : a.workspaceId = p.workspaceId
  version : a.contentVersionId = p.contentVersionId
  separate : a.auditorWorkerId ≠ p.writerWorkerId

/-- It reads only what is written once. -/
theorem ContentAudit.Covers.of_origin {a : ContentAudit} {p p' : ContentPackage} (h : a.Covers p)
    (hsame : p'.origin = p.origin) : a.Covers p' := by
  simp only [ContentPackage.origin, Prod.mk.injEq] at hsame
  obtain ⟨hws, hversion, hwriter⟩ := hsame
  refine ⟨h.workspace.trans hws.symm, h.version.trans hversion.symm, ?_⟩
  rw [hwriter]
  exact h.separate

/-- A pass of each mandatory auditor on the version of the package, in its workspace and not by its
writer. -/
def ContentDb.Cleared (db : ContentDb) (id : Nat) (p : ContentPackage) : Prop :=
  ∀ kind ∈ mandatoryAuditors, ∃ a ∈ db.audits, a.contentPackageId = id ∧ a.auditorType = kind ∧
    a.state = .pass ∧ a.Covers p

theorem ContentDb.Grows.cleared (h : db.Grows db') {id : Nat} {p p' : ContentPackage}
    (hp : db.Cleared id p) (hsame : p'.origin = p.origin) : db'.Cleared id p' := by
  intro kind hkind
  obtain ⟨a, ha, hid, htype, hpass, hcovers⟩ := hp kind hkind
  exact ⟨a, h.audits.mem ha, hid, htype, hpass, hcovers.of_origin hsame⟩

structure ContentDb.Sound (db : ContentDb) : Prop where
  audits : ∀ a ∈ db.audits, ∃ p, db.packages[a.contentPackageId]? = some p ∧ a.Covers p
  gates : ∀ (id : Nat) (p : ContentPackage), db.packages[id]? = some p →
    p.auditGateStatus = .pass → db.Cleared id p

theorem ContentDb.Sound.empty : ({} : ContentDb).Sound := by
  constructor <;> simp

/-! ## Packages -/

theorem supersedePrevious_archived (now : Instant) (previous : Option (Nat × ContentPackage))
    (packages : List ContentPackage) :
    Archived ContentPackage.origin packages (supersedePrevious now previous packages) := by
  cases previous with
  | none => exact .refl _ _
  | some q => exact .modify (f := supersede now) (fun _ => rfl) _ _

theorem insertPackage_grows {r : PackageRequest} {d : PackageDraft} {claims : List String}
    {duplicate : Option OriginalityFingerprint}
    {invalidations : List ContentAuditInvalidation} :
    db.Grows (insertPackage env db r d claims duplicate invalidations) :=
  ⟨(supersedePrevious_archived _ _ _).trans (.append _ _ _), .refl _ _⟩

theorem insertPackage_sound {r : PackageRequest} {d : PackageDraft} {claims : List String}
    {duplicate : Option OriginalityFingerprint}
    {invalidations : List ContentAuditInvalidation} (hs : db.Sound) :
    (insertPackage env db r d claims duplicate invalidations).Sound := by
  have hgrows : db.Grows (insertPackage env db r d claims duplicate invalidations) :=
    insertPackage_grows
  constructor
  · intro a ha
    obtain ⟨p, hp, hcovers⟩ := hs.audits a ha
    obtain ⟨p', hp', hsame⟩ := hgrows.packages.get hp
    exact ⟨p', hp', hcovers.of_origin hsame⟩
  · intro id p hp hpass
    rcases Table.get_push hp with hold | ⟨_, hnew⟩
    · rcases get_supersedePrevious hold with hsame | ⟨old, _, rfl⟩
      · exact hs.gates id p hsame hpass
      · cases hpass
    · -- a new package has not been audited
      rw [hnew] at hpass
      exact absurd hpass newPackage_gate

/-- The new package comes last. -/
theorem recordFixturePackage_sound {r : PackageRequest} {p : ContentPackage} (hs : db.Sound)
    (h : recordFixturePackage env db r = .ok (db', p)) :
    db'.Sound ∧ db.Grows db' ∧ db'.packages.length = db.packages.length + 1 ∧
      db'.packages[db.packages.length]? = some p ∧ p.workspaceId = r.workspaceId := by
  obtain ⟨d, claims, duplicate, invalidations, _, _, rfl, rfl⟩ := recordFixturePackage_ok h
  have hlength := length_supersedePrevious r.now d.previous db.packages
  refine ⟨insertPackage_sound hs, insertPackage_grows, ?_, ?_, rfl⟩
  · rw [insertPackage, List.length_append, hlength, List.length_singleton]
  · rw [insertPackage, ← hlength]
    exact Table.get_push_new _ _

/-! ## Audits -/

/-- The audit is of the package as it is, by someone else than its writer. -/
theorem draftAudit_audit {r : AuditRequest} {p : ContentPackage} {audit : ContentAudit}
    (h : draftAudit env db r = .ok (p, audit)) :
    audit.contentPackageId = r.packageId ∧ audit.Covers p := by
  unfold draftAudit at h
  split at h
  · cases h
  · split at h
    · cases h
    · cases h
    · split at h
      · cases h
      · rename_i hget
        obtain ⟨_, hrow⟩ := Option.filter_eq_some_iff.mp hget
        have hws := beq_iff_eq.mp (Bool.and_eq_true_iff.mp hrow).1
        split at h
        · cases h
        · dsimp only at h
          split at h
          · cases h
          · rename_i hseparate
            cases h
            exact ⟨rfl, hws.symm, rfl, fun heq => hseparate (.inl heq)⟩

theorem recordFixtureAudit_ok {r : AuditRequest} {audit : ContentAudit}
    (h : recordFixtureAudit env db r = .ok (db', audit)) :
    ∃ p, draftAudit env db r = .ok (p, audit) ∧ db'.audits = db.audits ++ [audit] ∧
      db'.packages = db.packages.modify r.packageId (fun _ => recalculatePackageGate
        (latestStates r.scan (db.audits ++ [audit]) r.workspaceId r.packageId) p) := by
  unfold recordFixtureAudit at h
  obtain ⟨⟨p, audit'⟩, hdraft, h⟩ := bind_ok h
  cases h
  exact ⟨p, hdraft, rfl, rfl⟩

@[simp] theorem recalculate_origin (states : List (Option AuditState)) (p : ContentPackage) :
    (recalculatePackageGate states p).origin = p.origin := by
  unfold recalculatePackageGate
  split
  · rfl
  · split <;> rfl

theorem mem_latestAudit {scan : Nat → Nat} {audits : List ContentAudit} {ws : WorkspaceId}
    {id : Nat} {kind : Auditor} {a : ContentAudit}
    (h : latestAudit scan audits ws id kind = some a) :
    a ∈ audits ∧ a.contentPackageId = id ∧ a.auditorType = kind := by
  obtain ⟨hmem, hsel⟩ := List.mem_filter.mp (Ranking.head_mem _ h)
  simp only [Bool.and_eq_true, beq_iff_eq] at hsel
  exact ⟨hmem, hsel.1.2, hsel.2⟩

theorem recordFixtureAudit_grows {r : AuditRequest} {audit : ContentAudit}
    (h : recordFixtureAudit env db r = .ok (db', audit)) : db.Grows db' := by
  obtain ⟨p, hdraft, haudits, hpackages⟩ := recordFixtureAudit_ok h
  constructor
  · rw [hpackages, ← Table.modify_eq_replace (draftAudit_ok hdraft) (recalculatePackageGate _)]
    exact .modify (recalculate_origin _) _ _
  · rw [haudits]
    exact .append _ _ _

theorem recordFixtureAudit_sound {r : AuditRequest} {audit : ContentAudit} (hs : db.Sound)
    (h : recordFixtureAudit env db r = .ok (db', audit)) : db'.Sound := by
  have hgrows := recordFixtureAudit_grows h
  obtain ⟨p, hdraft, haudits, hpackages⟩ := recordFixtureAudit_ok h
  have hrow := draftAudit_ok hdraft
  obtain ⟨hid, hcovers⟩ := draftAudit_audit hdraft
  -- what every audit says of its package, before the packages change
  have hof : ∀ a ∈ db'.audits, ∃ p, db.packages[a.contentPackageId]? = some p ∧ a.Covers p := by
    rw [haudits]
    exact Table.forall_push hs.audits ⟨p, hid ▸ hrow, hcovers⟩
  constructor
  · intro a ha
    obtain ⟨q, hq, hof⟩ := hof a ha
    obtain ⟨q', hq', hsame⟩ := hgrows.packages.get hq
    exact ⟨q', hq', hof.of_origin hsame⟩
  · intro id q hq hpass
    rw [hpackages] at hq
    obtain ⟨old, hold, ⟨heq, rfl⟩ | ⟨_, rfl⟩⟩ := Table.get_modify hq
    · subst heq
      have hstates := List.all_eq_true.mp (recalculate_pass_iff.mp hpass)
      intro kind hkind
      have hlatest := hstates _ (List.mem_map_of_mem (f := fun kind =>
        (latestAudit r.scan (db.audits ++ [audit]) r.workspaceId r.packageId kind).map
          ContentAudit.state) hkind)
      obtain ⟨a, hlast, hstate⟩ := Option.map_eq_some_iff.mp (beq_iff_eq.mp hlatest)
      obtain ⟨hmem, hpid, htype⟩ := mem_latestAudit hlast
      rw [← haudits] at hmem
      obtain ⟨p', hp', hof⟩ := hof a hmem
      have hsame : p' = p := Option.some.inj (hp'.symm.trans (hpid ▸ hrow))
      subst hsame
      exact ⟨a, hmem, hpid, htype, hstate, hof.of_origin (recalculate_origin _ _)⟩
    · exact hgrows.cleared (hs.gates id q hold hpass) rfl

end HumanGate
