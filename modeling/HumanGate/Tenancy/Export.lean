import HumanGate.Lib.Outcome
import HumanGate.Model.Governance
import HumanGate.Tenancy.Boundary

set_option autoImplicit false

/-! # What an export contains

The policies hide nothing of a workspace from its admins in the tables that are exported, so an
export is computed from the rows of the workspace alone: all of them, or the first 50,000 with the
table named. Nothing that others do outside the workspace shows in it.
-/

namespace HumanGate

open Lib.RowSecurity (Policy Command)

variable {env : GovernanceEnv} {db : Tables} {me : Cell} {ws : WorkspaceId}

/-! ## What an admin sees -/

/-- The tables whose policies are more than roles. -/
def ownPolicyTables : List String :=
  ["workspaces", "workspace_memberships", "worker_registry", "stage_recovery_audit", "profiles"]

theorem policyOf_table {table : String} (h : table ∉ ownPolicyTables) :
    policyOf db me table = (tablePolicy table).policy db me := by
  unfold policyOf
  split
  case h_6 => rfl
  all_goals exact absurd (by decide) h

/-- The roles of every other exported table name the admin, also for withdrawn rows. -/
theorem exportable_roles : ∀ table ∈ exportableTables, table ∈ ownPolicyTables ∨
    (tablePolicy table).select.contains "admin" = true ∧
      (tablePolicy table).tombstones.all (fun roles => roles.contains "admin") = true := by
  decide +kernel

theorem TablePolicy.select_admin {t : TablePolicy} (hselect : t.select.contains "admin" = true)
    (htombstones : t.tombstones.all (fun roles => roles.contains "admin") = true) {row : TenantRow}
    (h : isWorkspaceAdmin db (row "workspace_id") me = true) :
    (t.policy db me).select row = true := by
  have hrole : ∀ roles : List String, roles.contains "admin" = true →
      appUserHasWorkspaceRole db me (row "workspace_id") roles = true := fun roles hroles =>
    appUserHasWorkspaceRole_admin h (List.contains_iff_mem.mp hroles)
  unfold TablePolicy.policy
  cases ht : t.tombstones with
  | none => exact hrole _ hselect
  | some writers =>
      rw [ht] at htombstones
      show (if row "deleted_at" = .null then _ else _) = true
      split
      case isTrue => exact hrole _ hselect
      case isFalse => exact hrole _ htombstones

/-- An admin sees every row of the workspace in the tables that are exported. -/
theorem select_exportable (h : isWorkspaceAdmin db (.uuid ws) me = true) {table : String}
    (htable : table ∈ exportableTables) {row : TenantRow} (hrow : tenantOf table row = .uuid ws) :
    (policyOf db me table).select row = true := by
  have hmember := isWorkspaceAdmin.member h
  rcases exportable_roles table htable with hown | ⟨hselect, htombstones⟩
  · simp only [ownPolicyTables, List.mem_cons, List.not_mem_nil, or_false] at hown
    rcases hown with rfl | rfl | rfl | rfl | rfl
    · change row "id" = _ at hrow
      simp only [policyOf, workspacesPolicy, hrow, hmember]
    · change row "workspace_id" = _ at hrow
      simp only [policyOf, membershipsPolicy, hrow, hmember]
    · change row "workspace_id" = _ at hrow
      simp only [policyOf, workerRegistryPolicy, hrow, hmember, Bool.or_true]
    · change row "workspace_id" = _ at hrow
      simp only [policyOf, stageRecoveryAuditPolicy, hrow]
      exact appUserHasWorkspaceRole_admin h (by decide)
    · exact absurd htable (by decide +kernel)
  · have hother : table ∉ ownPolicyTables := by
      intro hin
      simp only [ownPolicyTables, List.mem_cons, List.not_mem_nil, or_false] at hin
      rcases hin with rfl | rfl | rfl | rfl | rfl
      all_goals exact absurd hselect (by decide +kernel)
    have hws : row "workspace_id" = .uuid ws := by
      unfold tenantOf at hrow
      split at hrow
      case h_1 => exact absurd (by decide) hother
      case h_2 => cases hrow
      case h_3 => exact hrow
    rw [policyOf_table hother]
    exact TablePolicy.select_admin hselect htombstones (by rwa [hws])

/-! ## The loop -/

/-- The table is part of the export. -/
def exports (env : GovernanceEnv) (table : String) : Bool :=
  !exportDenylist.contains table && (existingTables env).contains table
    && (table == "workspaces" || (tablesWithWorkspaceColumn env).contains table)

/-- The rows of a table that are exported, of all rows of the workspace. -/
def exportPart (env : GovernanceEnv) (db : Tables) (ws : WorkspaceId) (table : String) :
    List (List (String × Cell)) :=
  ((env.scan (db.only ws table)).take exportMaxRowsPerTable).map (serialised env table)

/-- The table has more rows than are exported. -/
def exceeds (db : Tables) (ws : WorkspaceId) (table : String) : Bool :=
  decide (exportMaxRowsPerTable < (db.only ws table).length)

/-- An export of these tables that knows no policies. -/
def ownExport (env : GovernanceEnv) (db : Tables) (ws : WorkspaceId) (tables : List String) :
    Exported where
  tables := (tables.filter (exports env)).map fun table => (table, exportPart env db ws table)
  counts := (tables.filter (exports env)).map fun table =>
    (table, (exportPart env db ws table).length)
  truncated := (tables.filter (exports env)).filter (exceeds db ws)

theorem query_admin (h : isWorkspaceAdmin db (.uuid ws) me = true) {table : String}
    (htable : table ∈ exportableTables) {cond : TenantRow → Bool}
    (hcond : ∀ row, cond row = (tenantOf table row == .uuid ws)) :
    query db me table cond = db.only ws table := by
  refine List.filter_congr fun row _ => ?_
  rw [hcond]
  cases hrow : tenantOf table row == .uuid ws with
  | false => rw [Bool.and_false]
  | true => rw [select_exportable h htable (beq_iff_eq.mp hrow), Bool.and_true]

theorem Cell.eq_beq (a : Cell) (id : Nat) : a.eq (.uuid id) = (a == .uuid id) := by
  rw [Bool.eq_iff_iff, Cell.eq_uuid, beq_iff_eq]

/-- What is read of a table, and that it tells whether there is more. -/
theorem exportedRows_admin (env : GovernanceEnv) (h : isWorkspaceAdmin db (.uuid ws) me = true)
    {table : String} (htable : table ∈ exportableTables) :
    (table == "workspaces" || (tablesWithWorkspaceColumn env).contains table) = false ∧
        exportedRows env db me ws table = none ∨
      (table == "workspaces" || (tablesWithWorkspaceColumn env).contains table) = true ∧
        ∃ found, exportedRows env db me ws table = some found ∧
          found.take exportMaxRowsPerTable
            = (env.scan (db.only ws table)).take exportMaxRowsPerTable ∧
          (found.length > exportMaxRowsPerTable ↔
            exportMaxRowsPerTable < (db.only ws table).length) := by
  have hlength : (env.scan (db.only ws table)).length = (db.only ws table).length :=
    (env.scan_perm _).length_eq
  unfold exportedRows
  by_cases hws : table = "workspaces"
  · subst hws
    rw [query_admin h htable fun row => Cell.eq_beq (row "id") ws, if_pos rfl]
    exact Or.inr ⟨rfl, _, rfl, rfl, by rw [hlength]⟩
  · rw [if_neg hws]
    have hprofiles : table ≠ "profiles" := by
      rintro rfl
      exact absurd htable (by decide +kernel)
    have htenant : ∀ row : TenantRow, (row "workspace_id").eq (.uuid ws)
        = (tenantOf table row == .uuid ws) := by
      intro row
      rw [Cell.eq_beq]
      unfold tenantOf
      split
      case h_1 => exact absurd rfl hws
      case h_2 => exact absurd rfl hprofiles
      case h_3 => rfl
    rw [query_admin h htable htenant]
    cases hscoped : (tablesWithWorkspaceColumn env).contains table with
    | false =>
        refine Or.inl ⟨by simpa using hws, ?_⟩
        rw [if_neg (by simp)]
    | true =>
        refine Or.inr ⟨by simp, _, if_pos rfl, ?_, ?_⟩
        · rw [List.take_take]
          rfl
        -- one row more than is kept is read, so the length tells whether there is more
        · rw [List.length_take, hlength]
          omega

theorem ownExport_skip {table : String} (h : exports env table = false) :
    ownExport env db ws [table] = {} := by
  have hnone : [table].filter (exports env) = [] := by rw [List.filter_singleton, h]; rfl
  simp only [ownExport, hnone, List.map_nil, List.filter_nil]

theorem ownExport_one {table : String} (h : exports env table = true) :
    ownExport env db ws [table] =
      { tables := [(table, exportPart env db ws table)]
        counts := [(table, (exportPart env db ws table).length)]
        truncated := if exceeds db ws table = true then [table] else [] } := by
  have hone : [table].filter (exports env) = [table] := by rw [List.filter_singleton, h]; rfl
  simp only [ownExport, hone, List.map_cons, List.map_nil, List.filter_singleton, cond_eq_ite]

/-- One table of an admin's export. -/
theorem exportTable_admin (h : isWorkspaceAdmin db (.uuid ws) me = true) {table : String}
    (htable : table ∈ exportableTables) (acc : Exported) :
    exportTable env db me ws acc table =
      { tables := acc.tables ++ (ownExport env db ws [table]).tables
        counts := acc.counts ++ (ownExport env db ws [table]).counts
        truncated := acc.truncated ++ (ownExport env db ws [table]).truncated } := by
  have hskip : exports env table = false → acc =
      { tables := acc.tables ++ (ownExport env db ws [table]).tables
        counts := acc.counts ++ (ownExport env db ws [table]).counts
        truncated := acc.truncated ++ (ownExport env db ws [table]).truncated } := by
    intro hno
    simp only [ownExport_skip hno, List.append_nil]
  unfold exportTable
  cases hdenied : exportDenylist.contains table with
  | true => exact hskip (by rw [exports, hdenied]; rfl)
  | false =>
      cases hexists : (existingTables env).contains table with
      | false => exact hskip (by rw [exports, hdenied, hexists]; rfl)
      | true =>
          -- no policy hides a row of the workspace from its admin
          rcases exportedRows_admin env h htable with
            ⟨hscoped, hnone⟩ | ⟨hscoped, found, hfound, htake, hmore⟩
          · rw [hnone]
            exact hskip (by rw [exports, hscoped, Bool.and_false])
          · have hyes : exports env table = true := by
              rw [exports, hdenied, hexists, hscoped]
              rfl
            have hcut : decide (found.length > exportMaxRowsPerTable) = exceeds db ws table :=
              decide_eq_decide.mpr hmore
            have hrows : (if exceeds db ws table = true
                then found.take exportMaxRowsPerTable else found)
                = (env.scan (db.only ws table)).take exportMaxRowsPerTable := by
              rw [← htake, ← hcut]
              split
              case isTrue => rfl
              case isFalse hfew =>
                rw [decide_eq_true_eq] at hfew
                rw [List.take_of_length_le (by omega)]
            rw [ownExport_one hyes]
            simp only [hfound, hcut, hrows, Bool.not_true, Bool.false_eq_true, ↓reduceIte,
              exportPart, List.length_map]
            split
            case isTrue => rfl
            case isFalse => rw [List.append_nil]

/-- The whole loop. -/
theorem foldl_exportTable (h : isWorkspaceAdmin db (.uuid ws) me = true) (tables : List String)
    (htables : ∀ table ∈ tables, table ∈ exportableTables) (acc : Exported) :
    tables.foldl (exportTable env db me ws) acc =
      { tables := acc.tables ++ (ownExport env db ws tables).tables
        counts := acc.counts ++ (ownExport env db ws tables).counts
        truncated := acc.truncated ++ (ownExport env db ws tables).truncated } := by
  induction tables generalizing acc with
  | nil => simp [ownExport]
  | cons table tables ih =>
      rw [List.foldl_cons, exportTable_admin h (htables table List.mem_cons_self),
        ih fun t ht => htables t (List.mem_cons_of_mem table ht)]
      have hsplit : (table :: tables).filter (exports env)
          = [table].filter (exports env) ++ tables.filter (exports env) := by
        rw [← List.filter_append, List.singleton_append]
      simp only [ownExport, hsplit, List.map_append, List.filter_append, List.append_assoc]

/-! ## The guard -/

theorem mem_only {table : String} {row : TenantRow} :
    row ∈ db.only ws table ↔ row ∈ db table ∧ tenantOf table row = .uuid ws := by
  simp [Tables.only]

/-- Who is a member of the workspace is written in its own rows. -/
theorem isWorkspaceMember_only {new : Tables} (h : new.only ws = db.only ws) (uid : Cell) :
    isWorkspaceMember new (.uuid ws) uid = isWorkspaceMember db (.uuid ws) uid := by
  have hsame : ∀ m, m ∈ new "workspace_memberships" ∧ m "workspace_id" = .uuid ws ↔
      m ∈ db "workspace_memberships" ∧ m "workspace_id" = .uuid ws := by
    intro m
    have hrows := congrFun h "workspace_memberships"
    exact ⟨fun hm => mem_only.mp (hrows ▸ mem_only.mpr hm),
      fun hm => mem_only.mp (hrows ▸ mem_only.mpr hm)⟩
  rw [Bool.eq_iff_iff, isWorkspaceMember_iff, isWorkspaceMember_iff]
  constructor
  · rintro ⟨m, hm, hws, huid⟩
    exact ⟨m, ((hsame m).mp ⟨hm, Cell.eq_uuid.mp hws⟩).1, hws, huid⟩
  · rintro ⟨m, hm, hws, huid⟩
    exact ⟨m, ((hsame m).mpr ⟨hm, Cell.eq_uuid.mp hws⟩).1, hws, huid⟩

/-- The memberships that the guard reads. -/
theorem query_own_membership : (query db me "workspace_memberships" fun m =>
      (m "workspace_id").eq (.uuid ws) && (m "user_id").eq me) =
    (db.only ws "workspace_memberships").filter fun m =>
      isWorkspaceMember db (.uuid ws) me && (m "user_id").eq me := by
  unfold Tables.only query
  rw [List.filter_filter]
  refine List.filter_congr fun m _ => ?_
  show (isWorkspaceMember db (m "workspace_id") me &&
    ((m "workspace_id").eq (.uuid ws) && (m "user_id").eq me)) = (_ && m "workspace_id" == .uuid ws)
  rw [Cell.eq_beq]
  by_cases hws : m "workspace_id" = .uuid ws
  -- the policy of the memberships asks for a member of the workspace of the row
  · rw [hws]
    simp
  · have hno : (m "workspace_id" == .uuid ws) = false := by simpa using hws
    simp [hno]

theorem requireWorkspaceAdmin_only {new : Tables} (h : new.only ws = db.only ws) :
    requireWorkspaceAdmin new me ws = requireWorkspaceAdmin db me ws := by
  unfold requireWorkspaceAdmin
  rw [query_own_membership, query_own_membership, h, isWorkspaceMember_only h]

theorem requireWorkspaceAdmin_ok (h : requireWorkspaceAdmin db me ws = .ok ()) :
    isWorkspaceAdmin db (.uuid ws) me = true := by
  unfold requireWorkspaceAdmin at h
  split at h
  case h_1 => cases h
  case h_2 m hquery =>
    have hm : m ∈ [m] := List.mem_singleton.mpr rfl
    rw [← hquery, query, List.mem_filter] at hm
    obtain ⟨hmem, hcond⟩ := hm
    simp only [Bool.and_eq_true] at hcond
    split at h
    case isTrue hrole =>
      exact isWorkspaceAdmin_iff.mpr ⟨m, hmem, hcond.2.1, hcond.2.2, by rw [hrole]; rfl⟩
    case isFalse => cases h
  case h_3 => cases h

theorem exportWorkspaceData_ok {user : UserId} {b : ExportBundle}
    (h : exportWorkspaceData env db user ws = .ok b) :
    requireWorkspaceAdmin db (.uuid user) ws = .ok () ∧
      exportWorkspace env db (.uuid user) ws = b := by
  unfold exportWorkspaceData at h
  obtain ⟨⟨⟩, hguard, hb⟩ := Lib.bind_ok h
  exact ⟨hguard, Except.ok.inj hb⟩

/-! ## The export -/

/-- An admin's export is computed from the rows of the workspace. -/
theorem exportWorkspace_loop (env : GovernanceEnv)
    (h : isWorkspaceAdmin db (.uuid ws) me = true) :
    exportableTables.foldl (exportTable env db me ws) {} =
      ownExport env db ws exportableTables := by
  rw [foldl_exportTable h exportableTables (fun _ ht => ht)]
  rfl

theorem ownExport_only {new : Tables} (h : new.only ws = db.only ws) (tables : List String) :
    ownExport env new ws tables = ownExport env db ws tables := by
  have hexceeds : exceeds new ws = exceeds db ws := by
    funext table
    simp only [exceeds, h]
  simp only [ownExport, exportPart, h, hexceeds]

theorem exportWorkspace_only {new : Tables} (h : new.only ws = db.only ws)
    (hold : isWorkspaceAdmin db (.uuid ws) me = true)
    (hnew : isWorkspaceAdmin new (.uuid ws) me = true) :
    exportWorkspace env new me ws = exportWorkspace env db me ws := by
  unfold exportWorkspace
  rw [exportWorkspace_loop env hold, exportWorkspace_loop env hnew, ownExport_only h]

/-- What the bundle holds of one table: rows of the workspace, each as often as it is there, and all
of them unless the table is named as truncated. -/
structure PartOfExport (env : GovernanceEnv) (db : Tables) (ws : WorkspaceId) (b : ExportBundle)
    (table : String) (rows : List (List (String × Cell))) : Prop where
  allowed : table ∉ exportDenylist
  counted : (table, rows.length) ∈ b.rowCounts
  own : ∃ found : List TenantRow, rows = found.map (serialised env table) ∧
    (∀ row ∈ found, row ∈ db table ∧ tenantOf table row = .uuid ws) ∧
    found.Subperm (db.only ws table) ∧
    (table ∉ b.truncatedTables → found.Perm (db.only ws table)) ∧
    (table ∈ b.truncatedTables → found.length = exportMaxRowsPerTable ∧
      exportMaxRowsPerTable < (db.only ws table).length)

theorem exportPart_own {table : String} (hexports : exports env table = true) {b : ExportBundle}
    (hcounts : b.rowCounts = (ownExport env db ws exportableTables).counts)
    (htruncated : b.truncatedTables = (ownExport env db ws exportableTables).truncated)
    (htable : table ∈ exportableTables) :
    PartOfExport env db ws b table (exportPart env db ws table) := by
  have hmem : table ∈ exportableTables.filter (exports env) :=
    List.mem_filter.mpr ⟨htable, hexports⟩
  have hcut : table ∈ b.truncatedTables ↔ exportMaxRowsPerTable < (db.only ws table).length := by
    rw [htruncated, ownExport, List.mem_filter, exceeds, decide_eq_true_eq]
    exact and_iff_right hmem
  have hlength : (env.scan (db.only ws table)).length = (db.only ws table).length :=
    (env.scan_perm _).length_eq
  constructor
  case allowed =>
    intro hdenied
    rw [exports, List.contains_iff_mem.mpr hdenied] at hexports
    cases hexports
  case counted =>
    rw [hcounts]
    exact List.mem_map.mpr ⟨table, hmem, rfl⟩
  case own =>
    refine ⟨(env.scan (db.only ws table)).take exportMaxRowsPerTable, rfl, ?_, ?_, ?_, ?_⟩
    · intro row hrow
      exact mem_only.mp ((env.scan_perm _).mem_iff.mp (List.mem_of_mem_take hrow))
    · -- no row is repeated
      exact (List.take_sublist _ _).subperm.trans (env.scan_perm _).subperm
    · intro hall
      rw [hcut] at hall
      rw [List.take_of_length_le (by omega)]
      exact env.scan_perm _
    · intro hsome
      rw [hcut] at hsome
      rw [List.length_take]
      exact ⟨by omega, hsome⟩

/-- **The export of a workspace** holds every table that is there to be exported with all rows of
the workspace, or with 50,000 of them and the table named as truncated: no row of another workspace
and no denied table. Whatever users outside the workspace do, it stays what it is. -/
theorem workspace_export (env : GovernanceEnv) {db : Tables} {user : UserId} {ws : WorkspaceId}
    {b : ExportBundle} (hdb : Standing db ws)
    (h : exportWorkspaceData env db user ws = .ok b) :
    b.tables.map Prod.fst = exportableTables.filter (exports env) ∧
    (∀ table rows, (table, rows) ∈ b.tables → PartOfExport env db ws b table rows) ∧
    (b.truncationReason = none ↔ b.truncatedTables = []) ∧
    ∀ valid ops, (∀ pre op post, ops = pre ++ op :: post →
        Outside (afterStatements valid db pre) ws (appCurrentUserId op.user)) →
      exportWorkspaceData env (afterStatements valid db ops) user ws = .ok b := by
  obtain ⟨hguard, rfl⟩ := exportWorkspaceData_ok h
  have hadmin := requireWorkspaceAdmin_ok hguard
  have hloop := exportWorkspace_loop env hadmin
  have htables : (exportWorkspace env db (.uuid user) ws).tables
      = (ownExport env db ws exportableTables).tables := congrArg Exported.tables hloop
  refine ⟨?_, ?_, ?_, ?_⟩
  · rw [htables, ownExport, List.map_map]
    exact List.map_id _
  · -- each table is exported by the loop as it stands there
    intro table rows hmem
    rw [htables, ownExport, List.mem_map] at hmem
    obtain ⟨t, ht, heq⟩ := hmem
    obtain ⟨rfl, rfl⟩ := Prod.mk.inj heq
    obtain ⟨htable, hexports⟩ := List.mem_filter.mp ht
    exact exportPart_own hexports (congrArg Exported.counts hloop)
      (congrArg Exported.truncated hloop) htable
  · show (if (exportableTables.foldl (exportTable env db _ ws) {}).truncated.isEmpty = true
        then none else _) = none ↔
      (exportableTables.foldl (exportTable env db _ ws) {}).truncated = []
    rw [← List.isEmpty_iff]
    split
    case isTrue hempty => exact iff_of_true rfl hempty
    case isFalse hsome => exact iff_of_false (by simp) hsome
  · intro valid ops hout
    have hsame := afterStatements_only hdb ops hout
    -- the guard and the loop read nothing but rows of the workspace
    have hguard' := (requireWorkspaceAdmin_only hsame).trans hguard
    unfold exportWorkspaceData
    rw [hguard', exportWorkspace_only hsame hadmin (requireWorkspaceAdmin_ok hguard')]
    rfl

def uuidText (n : Nat) : String :=
  let digits := Nat.toDigits 16 n
  "00000000-0000-0000-0000-" ++ String.ofList (List.replicate (12 - digits.length) '0' ++ digits)

/-- Some of the tables, and a database that returns rows as they were inserted. -/
def smallCatalogue : GovernanceEnv where
  valid := allValid
  schema :=
    [("workspaces", ["id", "created_by"]),
      ("workspace_memberships", ["workspace_id", "user_id", "role"]),
      ("content_items", ["workspace_id", "topic", "version", "deleted_at", "updated_at"]),
      ("leads", ["workspace_id", "name"]),
      ("worker_credentials", ["workspace_id", "secret_hash"]),
      ("worker_heartbeats", ["worker_id"])]
  scan rows := rows
  scan_perm _ := List.Perm.refl _
  str cell :=
    match cell with
    | .uuid n => uuidText n
    | _ => ""
  now := 0
  clock := 0

theorem first_tenant_export :
    ∃ b, exportWorkspaceData smallCatalogue twoTenants 10 1 = .ok b ∧
      b.tables.map Prod.fst
        = ["workspaces", "workspace_memberships", "content_items", "leads"] ∧
      exportWorkspaceData smallCatalogue (afterStatements allValid twoTenants [grabContent]) 10 1
        = .ok b := by
  have hguard : requireWorkspaceAdmin twoTenants (.uuid 10) 1 = .ok () := by decide +kernel
  have hexport : exportWorkspaceData smallCatalogue twoTenants 10 1
      = .ok (exportWorkspace smallCatalogue twoTenants (.uuid 10) 1) := by
    unfold exportWorkspaceData
    rw [hguard]
    rfl
  obtain ⟨htables, -, -, hlater⟩ :=
    workspace_export smallCatalogue twoTenants_standing hexport
  refine ⟨_, hexport, htables.trans (by decide +kernel), hlater allValid [grabContent] ?_⟩
  intro pre op post hops
  obtain ⟨rfl, rfl, -⟩ : pre = [] ∧ op = grabContent ∧ post = [] := by
    cases pre with
    | nil =>
        obtain ⟨rfl, rfl⟩ := List.cons.inj hops
        exact ⟨rfl, rfl, rfl⟩
    | cons first rest =>
        obtain ⟨-, hrest⟩ := List.cons.inj hops
        simp at hrest
  exact stranger_outside

end HumanGate
