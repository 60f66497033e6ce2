import HumanGate.Lib.Outcome
import HumanGate.Lib.Table
import HumanGate.Model.ContentDepartment

set_option autoImplicit false

/-! # Withdrawn packages

A package is withdrawn when a later version supersedes it, or when its script is a duplicate. Its
gate is then written once; but the gate is recalculated from the audits alone, so audits that come
late let a withdrawn package pass. No other call does (`sealed_step_iff`). A script that two
packages have already is not found to be a duplicate: the query for it wants at most one row.
-/

namespace HumanGate

open Lib Lib.Calendar

variable {env : ContentEnv} {db db' : ContentDb}

/-- The package is superseded, or its script was found to be a duplicate. -/
def ContentDb.withdrawn (db : ContentDb) (id : Nat) : Bool :=
  db.packages[id]?.any (fun p => p.invalidatedAt.isSome) ||
    db.fingerprints.any fun f => f.contentPackageId == id && f.state == .requireDifferentiation

/-- The gate of the package is not passed, and whoever asks it is refused. -/
structure Refused (db : ContentDb) (id : Nat) : Prop where
  gate : ∀ p, db.packages[id]? = some p → p.auditGateStatus ≠ .pass
  producer : ∀ ws answer, producerGate db ws id ≠ .ok answer
  production : ∀ r job, r.contentPackageId = id → createProductionRun db r ≠ .ok job

/-- Every withdrawn package is refused. -/
def Sealed (db : ContentDb) : Prop := ∀ id, db.withdrawn id = true → Refused db id

/-- With the audit that is asked for, the latest audit of every mandatory auditor is a pass. -/
def clears (env : ContentEnv) (db : ContentDb) (r : AuditRequest) : Bool :=
  match draftAudit env db r with
  | .error _ => false
  | .ok (_, audit) =>
      (latestStates r.scan (db.audits ++ [audit]) r.workspaceId r.packageId).all fun st =>
        st == some .pass

/-- The call records an audit that clears a withdrawn package. -/
def ContentOp.late (env : ContentEnv) (db : ContentDb) : ContentOp → Bool
  | .package _ => false
  | .audit r => db.withdrawn r.packageId && clears env db r

/-- No audit of the package that is superseded has been invalidated before. -/
def Supersedable (db : ContentDb) (ws : WorkspaceId) (previous : Option (Nat × ContentPackage)) :
    Prop :=
  ∀ new ∈ invalidationRows db ws previous, ∀ old ∈ db.invalidations, old.clashes new = false

/-! ## The gate -/

theorem getPackage_some {ws : WorkspaceId} {id : Nat} {p : ContentPackage}
    (h : getPackage db ws id = some p) : db.packages[id]? = some p :=
  (Option.filter_eq_some_iff.mp h).1

/-- What asks the gate reads the row of the package. -/
theorem Refused.of_gate {id : Nat}
    (h : ∀ p, db.packages[id]? = some p → p.auditGateStatus ≠ .pass) : Refused db id := by
  refine ⟨h, fun ws answer hok => ?_, fun r job hid hok => ?_⟩
  · unfold producerGate at hok
    cases hp : getPackage db ws id with
    | none =>
        rw [hp] at hok
        cases hok
    | some p =>
        have hgate := h p (getPackage_some hp)
        simp only [hp, if_pos hgate] at hok
        cases hok
  · subst hid
    unfold createProductionRun at hok
    cases hp : db.packages[r.contentPackageId]?.filter fun p => p.workspaceId == r.workspaceId with
    | none =>
        rw [hp] at hok
        cases hok
    | some p =>
        have hgate := h p (Option.filter_eq_some_iff.mp hp).1
        simp only [hp, if_pos hgate] at hok
        cases hok

/-- **The gate is passed** exactly if all the latest audits are passes. -/
theorem recalculate_pass_iff {states : List (Option AuditState)} {p : ContentPackage} :
    (recalculatePackageGate states p).auditGateStatus = .pass ↔
      (states.all fun st => st == some .pass) = true := by
  unfold recalculatePackageGate
  by_cases hblocked : (states.any fun st => st == some .blocked || st == some .error) = true
  · rw [if_pos hblocked]
    -- a state that blocks is not a pass
    have hnot : (states.all fun st => st == some .pass) = false := by
      obtain ⟨st, hst, hbad⟩ := List.any_eq_true.mp hblocked
      refine List.all_eq_false.mpr ⟨st, hst, fun hpass => ?_⟩
      rw [beq_iff_eq.mp hpass] at hbad
      exact absurd hbad (by decide)
    simp [hnot]
  · rw [if_neg hblocked]
    by_cases hpass : (states.all fun st => st == some .pass) = true
    · simp [hpass]
    · rw [if_neg hpass]
      simp [hpass]

@[simp] theorem recalculate_invalidatedAt (states : List (Option AuditState)) (p : ContentPackage) :
    (recalculatePackageGate states p).invalidatedAt = p.invalidatedAt := by
  unfold recalculatePackageGate
  split
  · rfl
  · split <;> rfl

/-! ## Recording a package -/

/-- What is recorded, and that nothing stood against it. -/
theorem recordFixturePackage_ok {r : PackageRequest} {p : ContentPackage}
    (h : recordFixturePackage env db r = .ok (db', p)) :
    ∃ d claims duplicate invalidations, draftPackage env db r = .ok d ∧
      scalarOneOrNone (db.matching r.workspaceId (fingerprint env d.scriptBody)) = .ok duplicate ∧
      db' = insertPackage env db r d claims duplicate invalidations ∧
      p = newPackage db r d duplicate := by
  unfold recordFixturePackage at h
  obtain ⟨d, hd, h⟩ := bind_ok h
  obtain ⟨claims, _, h⟩ := bind_ok h
  obtain ⟨duplicate, hdup, h⟩ := bind_ok h
  obtain ⟨invalidations, _, h⟩ := bind_ok h
  cases h
  exact ⟨d, claims, duplicate, invalidations, hd, hdup, rfl, rfl⟩

theorem length_supersedePrevious (now : Instant) (previous : Option (Nat × ContentPackage))
    (packages : List ContentPackage) :
    (supersedePrevious now previous packages).length = packages.length := by
  unfold supersedePrevious
  split
  · rfl
  · exact List.length_modify ..

/-- A package that was there is as before, or superseded. -/
theorem get_supersedePrevious {now : Instant} {previous : Option (Nat × ContentPackage)}
    {packages : List ContentPackage} {id : Nat} {p : ContentPackage}
    (h : (supersedePrevious now previous packages)[id]? = some p) :
    packages[id]? = some p ∨ ∃ old, packages[id]? = some old ∧ p = supersede now old := by
  unfold supersedePrevious at h
  split at h
  · exact .inl h
  · obtain ⟨old, hold, ⟨_, rfl⟩ | ⟨_, rfl⟩⟩ := Table.get_modify h
    · exact .inr ⟨old, hold, rfl⟩
    · exact .inl hold

theorem newPackage_gate {r : PackageRequest} {d : PackageDraft}
    {duplicate : Option OriginalityFingerprint} :
    (newPackage db r d duplicate).auditGateStatus ≠ .pass := by
  unfold newPackage
  cases duplicate <;> simp

/-- **A new package** lets no withdrawn one pass. -/
theorem insertPackage_sealed {r : PackageRequest} {d : PackageDraft} {claims : List String}
    {duplicate : Option OriginalityFingerprint} {invalidations : List ContentAuditInvalidation}
    (h : Sealed db) : Sealed (insertPackage env db r d claims duplicate invalidations) := by
  refine fun id hwithdrawn => .of_gate fun p hp => ?_
  have hp : (supersedePrevious r.now d.previous db.packages ++ [newPackage db r d duplicate])[id]?
      = some p := hp
  rcases Table.get_push hp with hold | ⟨_, rfl⟩
  · rcases get_supersedePrevious hold with hsame | ⟨old, _, rfl⟩
    · -- the new fingerprint is that of another package
      have hlt : id < db.packages.length := (List.getElem?_eq_some_iff.mp hsame).1
      have hother : (db.packages.length == id) = false := beq_eq_false_iff_ne.mpr (by omega)
      refine (h id ?_).gate p hsame
      unfold ContentDb.withdrawn at hwithdrawn ⊢
      simpa [insertPackage, hold, hp, hsame, newFingerprint, hother] using hwithdrawn
    · exact fun hpass => nomatch hpass
  · exact newPackage_gate

/-! ## Recording an audit -/

/-- A checked audit is of a package that is there. -/
theorem draftAudit_ok {r : AuditRequest} {p : ContentPackage} {audit : ContentAudit}
    (h : draftAudit env db r = .ok (p, audit)) : db.packages[r.packageId]? = some p := by
  unfold draftAudit at h
  split at h
  · cases h
  · split at h
    · cases h
    · cases h
    · split at h
      · cases h
      · rename_i p' hp'
        split at h
        · cases h
        · dsimp only at h
          split at h
          · cases h
          · cases h
            exact getPackage_some hp'

/-- The rows after an audit. -/
theorem exec_audit {r : AuditRequest} {p : ContentPackage} {audit : ContentAudit}
    (h : draftAudit env db r = .ok (p, audit)) :
    ((ContentOp.audit r).exec env db).packages = db.packages.modify r.packageId (fun _ =>
        recalculatePackageGate
          (latestStates r.scan (db.audits ++ [audit]) r.workspaceId r.packageId) p) ∧
      ((ContentOp.audit r).exec env db).fingerprints = db.fingerprints := by
  simp [ContentOp.exec, recordFixtureAudit, h, bind, Except.bind, pure, Except.pure,
    Except.toOption]

theorem exec_audit_refused {r : AuditRequest} {e : ContentError}
    (h : draftAudit env db r = .error e) : (ContentOp.audit r).exec env db = db := by
  simp [ContentOp.exec, recordFixtureAudit, h, bind, Except.bind, Except.toOption]

/-- An audit withdraws nothing and brings nothing back. -/
theorem withdrawn_audit (r : AuditRequest) (id : Nat) :
    ((ContentOp.audit r).exec env db).withdrawn id = db.withdrawn id := by
  cases hdraft : draftAudit env db r with
  | error e => rw [exec_audit_refused hdraft]
  | ok res =>
      obtain ⟨p, audit⟩ := res
      obtain ⟨hpackages, hfingerprints⟩ := exec_audit hdraft
      unfold ContentDb.withdrawn
      rw [hpackages, hfingerprints, List.getElem?_modify]
      by_cases hid : r.packageId = id
      · rw [← hid, draftAudit_ok hdraft]
        simp
      · simp [hid]

/-- **An audit** keeps withdrawn packages refused exactly if it does not clear one. -/
theorem audit_sealed_iff (h : Sealed db) (r : AuditRequest) :
    Sealed ((ContentOp.audit r).exec env db) ↔ (ContentOp.audit r).late env db = false := by
  cases hdraft : draftAudit env db r with
  | error e =>
      rw [exec_audit_refused hdraft]
      simp [ContentOp.late, clears, hdraft, h]
  | ok res =>
      obtain ⟨p, audit⟩ := res
      obtain ⟨hpackages, _⟩ := exec_audit hdraft
      have hrow := draftAudit_ok hdraft
      have hclears : clears env db r = true ↔ (recalculatePackageGate
          (latestStates r.scan (db.audits ++ [audit]) r.workspaceId r.packageId)
          p).auditGateStatus = .pass := by
        rw [recalculate_pass_iff]
        simp only [clears, hdraft]
      constructor
      · intro hsealed
        rw [← Bool.not_eq_true]
        intro hlate
        obtain ⟨hwithdrawn, hclear⟩ := Bool.and_eq_true_iff.mp hlate
        refine (hsealed r.packageId ?_).gate _ ?_ (hclears.mp hclear)
        · rw [withdrawn_audit, hwithdrawn]
        · rw [hpackages]
          exact Table.get_modify_self hrow
      · intro hlate id hwithdrawn
        rw [withdrawn_audit] at hwithdrawn
        refine .of_gate fun q hq => ?_
        rw [hpackages] at hq
        obtain ⟨old, hold, ⟨hid, rfl⟩ | ⟨_, rfl⟩⟩ := Table.get_modify hq
        · intro hpass
          have hclear := hclears.mpr hpass
          rw [ContentOp.late, hid, hwithdrawn, hclear] at hlate
          exact nomatch hlate
        · exact (h id hwithdrawn).gate q hold

/-! ## Calls -/

theorem exec_package_cases (env : ContentEnv) (db : ContentDb) (r : PackageRequest) :
    (ContentOp.package r).exec env db = db ∨ ∃ d claims duplicate invalidations,
      (ContentOp.package r).exec env db
        = insertPackage env db r d claims duplicate invalidations := by
  cases h : recordFixturePackage env db r with
  | error e => exact .inl (by simp [ContentOp.exec, h, Except.toOption])
  | ok res =>
      obtain ⟨d, claims, duplicate, invalidations, _, _, hdb, _⟩ :=
        recordFixturePackage_ok (show recordFixturePackage env db r = .ok (res.1, res.2) from h)
      refine .inr ⟨d, claims, duplicate, invalidations, ?_⟩
      simp [ContentOp.exec, h, Except.toOption, hdb]

/-- **A call keeps withdrawn packages refused** exactly if it is not an audit that clears one. -/
theorem sealed_step_iff (h : Sealed db) (o : ContentOp) :
    Sealed (o.exec env db) ↔ o.late env db = false := by
  cases o with
  | package r =>
      refine iff_of_true ?_ rfl
      rcases exec_package_cases env db r with hsame | ⟨d, claims, dup, inv, hnew⟩
      · rw [hsame]
        exact h
      · rw [hnew]
        exact insertPackage_sealed h
  | audit r => exact audit_sealed_iff h r

/-- A superseded package stays superseded. -/
theorem superseded_insert {r : PackageRequest} {d : PackageDraft} {new : ContentPackage} {id : Nat}
    (h : db.packages[id]?.any (fun p => p.invalidatedAt.isSome) = true) :
    (supersedePrevious r.now d.previous db.packages ++ [new])[id]?.any
      (fun p => p.invalidatedAt.isSome) = true := by
  obtain ⟨p, hp, _⟩ := (Option.any_eq_true ..).mp h
  have hlt : id < db.packages.length := (List.getElem?_eq_some_iff.mp hp).1
  rw [List.getElem?_append_left (by rw [length_supersedePrevious]; exact hlt)]
  unfold supersedePrevious
  split
  · exact h
  · rename_i previous _ _
    by_cases hid : previous = id
    · subst hid
      rw [Table.get_modify_self hp]
      rfl
    · rw [Table.get_modify_ne hid]
      exact h

/-- Once withdrawn, always withdrawn. -/
theorem withdrawn_exec (o : ContentOp) {id : Nat} (h : db.withdrawn id = true) :
    (o.exec env db).withdrawn id = true := by
  cases o with
  | audit r => rw [withdrawn_audit, h]
  | package r =>
      rcases exec_package_cases env db r with hsame | ⟨d, claims, dup, inv, hnew⟩
      · rw [hsame, h]
      · rw [hnew]
        rcases Bool.or_eq_true_iff.mp h with hrow | hfound
        · exact Bool.or_eq_true_iff.mpr (.inl (superseded_insert hrow))
        · refine Bool.or_eq_true_iff.mpr (.inr ?_)
          simp only [insertPackage, List.any_append, hfound, Bool.true_or]

/-- The calls that clear no withdrawn package. -/
def inTime (env : ContentEnv) (db : ContentDb) (o : ContentOp) : Prop := o.late env db = false

instance decInTime (env : ContentEnv) (db : ContentDb) (o : ContentOp) :
    Decidable (inTime env db o) := inferInstanceAs (Decidable (o.late env db = false))

theorem reachable_sealed (h : ((contentDepartment env).restrict (inTime env)).Reachable db) :
    Sealed db := by
  refine h.invariant (I := Sealed) (fun s hs id hwithdrawn => ?_) ?_
  · have hempty : s = {} := hs
    subst hempty
    exact nomatch hwithdrawn
  · exact fun s o hs ho => (sealed_step_iff hs o).mpr ho.2

/-- **A withdrawn package stays refused** in a run whose calls clear no withdrawn package. -/
theorem steps_refused {id : Nat}
    (hdb : ((contentDepartment env).restrict (inTime env)).Reachable db)
    (hid : db.withdrawn id = true)
    (h : ((contentDepartment env).restrict (inTime env)).Steps db db') :
    db'.withdrawn id = true ∧ Refused db' id := by
  have hwithdrawn : db'.withdrawn id = true := by
    refine h.preserves (I := fun s => s.withdrawn id = true) ?_ hid
    exact fun s o hs _ => withdrawn_exec o hs
  exact ⟨hwithdrawn, reachable_sealed (hdb.of_steps h) id hwithdrawn⟩

/-! ## A script that is known -/

theorem scalarOneOrNone_known {α : Type} {rows : List α} (h : rows ≠ []) :
    (∃ a, scalarOneOrNone rows = .ok (some a) ∧ rows.length = 1) ∨
      scalarOneOrNone rows = .error .multipleResults ∧ rows.length ≠ 1 := by
  match rows, h with
  | [a], _ => exact .inl ⟨a, rfl, rfl⟩
  | a :: b :: rest, _ => exact .inr ⟨rfl, by simp⟩

theorem insertInvalidations_iff {old new : List ContentAuditInvalidation} :
    (∃ rows, insertInvalidations old new = .ok rows) ↔
      ∀ n ∈ new, ∀ o ∈ old, o.clashes n = false := by
  unfold insertInvalidations
  by_cases hclash : (new.any fun n => old.any fun o => o.clashes n) = true
  · rw [if_pos hclash]
    refine iff_of_false (by simp) fun hnone => ?_
    obtain ⟨n, hn, hany⟩ := List.any_eq_true.mp hclash
    obtain ⟨o, ho, hc⟩ := List.any_eq_true.mp hany
    rw [hnone n hn o ho] at hc
    exact nomatch hc
  · rw [if_neg hclash]
    refine iff_of_true ⟨_, rfl⟩ fun n hn o ho => ?_
    rw [← Bool.not_eq_true]
    intro hc
    exact hclash (List.any_eq_true.mpr ⟨n, hn, List.any_eq_true.mpr ⟨o, ho, hc⟩⟩)

/-- The package is recorded, in the next row, and blocked. -/
def RecordedBlocked (env : ContentEnv) (db : ContentDb) (r : PackageRequest) : Prop :=
  ∃ db' p, recordFixturePackage env db r = .ok (db', p) ∧
    db'.packages[db.packages.length]? = some p ∧ p.auditGateStatus = .blocked

/-- **A package whose script is known** is recorded as blocked exactly if one earlier package has
its script and the package it supersedes was not superseded with its audits before. -/
theorem recordedBlocked_iff {r : PackageRequest} {d : PackageDraft} {claims : List String}
    (hdraft : draftPackage env db r = .ok d) (hclaims : claimTexts env r d = .ok claims)
    (hknown : db.matching r.workspaceId (fingerprint env d.scriptBody) ≠ []) :
    RecordedBlocked env db r ↔
      (db.matching r.workspaceId (fingerprint env d.scriptBody)).length = 1 ∧
        Supersedable db r.workspaceId d.previous := by
  unfold RecordedBlocked recordFixturePackage
  simp only [hdraft, hclaims, bind, Except.bind]
  rcases scalarOneOrNone_known hknown with ⟨f, hone, hlength⟩ | ⟨hmany, hlength⟩
  · simp only [hone, hlength, true_and]
    unfold Supersedable
    rw [← insertInvalidations_iff]
    cases hi : insertInvalidations db.invalidations
        (invalidationRows db r.workspaceId d.previous) with
    | error e => simp
    | ok rows =>
        refine iff_of_true ⟨_, _, rfl, ?_, rfl⟩ ⟨rows, rfl⟩
        have hrow : (supersedePrevious r.now d.previous db.packages ++
            [newPackage db r d (some f)])[db.packages.length]?
              = some (newPackage db r d (some f)) := by
          rw [List.getElem?_append_right (by rw [length_supersedePrevious]),
            length_supersedePrevious, Nat.sub_self]
          rfl
        exact hrow
  · simp [hmany, hlength]

/-! ## Every sequence of calls -/

/-- **Withdrawn packages.** In every run whose audits clear no withdrawn package, a package that is
withdrawn stays so and is refused, whatever comes after; the first audit that clears one ends this.
And a package whose script is known is recorded as blocked exactly if one earlier package has its
script and the package it supersedes was not superseded with its audits before. -/
theorem withdrawn_packages (env : ContentEnv) :
    (∀ db, ((contentDepartment env).restrict (inTime env)).Reachable db →
      ∀ id, db.withdrawn id = true →
        ∀ db', ((contentDepartment env).restrict (inTime env)).Steps db db' →
          db'.withdrawn id = true ∧ Refused db' id) ∧
      (∀ db, Sealed db → ∀ o : ContentOp, Sealed (o.exec env db) ↔ inTime env db o) ∧
      ∀ db r d claims, draftPackage env db r = .ok d → claimTexts env r d = .ok claims →
        db.matching r.workspaceId (fingerprint env d.scriptBody) ≠ [] →
          (RecordedBlocked env db r ↔
            (db.matching r.workspaceId (fingerprint env d.scriptBody)).length = 1 ∧
              Supersedable db r.workspaceId d.previous) := by
  refine ⟨fun db hdb id hid db' h => steps_refused hdb hid h, fun db h o => sealed_step_iff h o, ?_⟩
  intro db r d claims hdraft hclaims hknown
  exact recordedBlocked_iff hdraft hclaims hknown

/-! The texts of the fixture defaults, which no pattern matches and which are in normal form but for
the first letter. -/

def plainEnv : ContentEnv where
  test := true
  untrustedInstruction _ := false
  secretPattern _ := false
  unsupportedClaim _ := false
  strip text := text
  normalize text :=
    if text = "Use approved evidence and avoid unsupported claims." then
      "use approved evidence and avoid unsupported claims."
    else if text = "Name the source of every number." then "name the source of every number."
    else text
  sha256 text :=
    if text = "use approved evidence and avoid unsupported claims." then
      "cfaeb90bb4b771ce6d5c028588caa7b17f949f924f8c20fcf6a8be5981947320"
    else "e5e5d78dfa91b4afd88e0721bc91fad83434ea8d7909cb5141a2804e888d24c3"
  extractClaims _ := []

def plainPackage (now : Instant) : PackageRequest where
  workspaceId := 0
  brief := .ok "Create approved strategy"
  fixture := {}
  now := now

/-- A revision of the first package. -/
def revisedPackage (now : Instant) : PackageRequest where
  workspaceId := 0
  brief := .ok "Create approved strategy"
  fixture := { script := some "Name the source of every number." }
  priorPackageId := some 0
  now := now

def plainAudit (id : Nat) (kind state : String) (now : Instant) : ContentOp :=
  .audit {
    workspaceId := 0
    packageId := id
    auditorType := kind
    state := state
    now := now }

/-- A package, a second one with its script, and a revision of the first. -/
def withdrawingOps : List ContentOp :=
  [.package (plainPackage 1), .package (plainPackage 2), .package (revisedPackage 3)]

/-- Late audits of a withdrawn package: all are passes, but for that of the facts. -/
def lateAudits (id : Nat) (fact : String) : List ContentOp :=
  [plainAudit id "language" "pass" 4, plainAudit id "fact" fact 5,
    plainAudit id "brand" "pass" 6, plainAudit id "originality" "pass" 7]

/-- Four late passes let the superseded package and the duplicate one pass, and the third package
with one script is not recorded at all. -/
theorem late_passes_clear_withdrawn :
    (∃ db, (contentDepartment plainEnv).Reachable db ∧
      db.withdrawn 0 = true ∧ producerGate db 0 0 = .ok { contentPackageId := 0 } ∧
        (createProductionRun db { workspaceId := 0, contentPackageId := 0 }).isOk = true ∧
      db.withdrawn 1 = true ∧ producerGate db 0 1 = .ok { contentPackageId := 1 } ∧
        (createProductionRun db { workspaceId := 0, contentPackageId := 1 }).isOk = true) ∧
      ∃ db, (contentDepartment plainEnv).Reachable db ∧
        recordFixturePackage plainEnv db (plainPackage 8) = .error .multipleResults := by
  constructor
  · refine ⟨(withdrawingOps ++ (lateAudits 0 "pass" ++ lateAudits 1 "pass")).foldl
      (contentDepartment plainEnv).exec {}, .of_legal _ (.init rfl) (by decide), ?_⟩
    decide +kernel
  · exact ⟨withdrawingOps.foldl (contentDepartment plainEnv).exec {},
      .of_legal _ (.init rfl) (by decide), rfl⟩

/-- One of the late audits blocks: the superseded package stays refused. And the second package with
one script is recorded as blocked. -/
theorem late_block_leaves_withdrawn :
    Refused ((lateAudits 0 "blocked").foldl (contentDepartment plainEnv).exec
        (withdrawingOps.foldl (contentDepartment plainEnv).exec {})) 0 ∧
      RecordedBlocked plainEnv ((contentDepartment plainEnv).exec {} (.package (plainPackage 1)))
        (plainPackage 2) := by
  obtain ⟨hstays, _, hknown⟩ := withdrawn_packages plainEnv
  constructor
  · refine (hstays (withdrawingOps.foldl (contentDepartment plainEnv).exec {}) ?_ 0
      (by decide +kernel) _ ?_).2
    · exact .of_legal withdrawingOps (.init rfl) (by decide +kernel)
    · exact .of_legal (lateAudits 0 "blocked") (by decide +kernel)
  · refine (hknown _ _ {
      objective := "Create approved strategy"
      concept := "Create approved strategy"
      scriptHook := "A practical evidence-first opening."
      scriptBody := "Use approved evidence and avoid unsupported claims."
      scriptCta := "Review the evidence before acting."
      previous := none } [] rfl rfl ?_).mpr ⟨by decide +kernel, fun new hnew => nomatch hnew⟩
    exact List.ne_nil_of_length_pos (by decide +kernel)

end HumanGate
