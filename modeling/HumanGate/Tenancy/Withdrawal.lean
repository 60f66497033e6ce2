import HumanGate.Tenancy.Export

set_option autoImplicit false

/-! # What a deletion request leaves

A request of an admin withdraws what the workspace has in the tables of its content, and nothing
else: the policies let every statement find all the rows that it is about. What was withdrawn stays
withdrawn until a member of the workspace writes to one of these tables again.
-/

namespace HumanGate

open Lib.RowSecurity (Policy Command Effect)

variable {env : GovernanceEnv} {valid : Tables → Bool} {db new : Tables} {me : Cell}
variable {ws : WorkspaceId}

/-! ## One statement of an admin -/

theorem softDeletable_roles : ∀ table ∈ softDeletableTables, table ∉ ownPolicyTables ∧
    (tablePolicy table).select.contains "admin" = true ∧
    (tablePolicy table).tombstones.all (fun roles => roles.contains "admin") = true ∧
    (tablePolicy table).update.contains "admin" = true := by
  decide +kernel

theorem hardDeletable_roles : ∀ table ∈ hardDeletableTables, table ∉ ownPolicyTables ∧
    (tablePolicy table).select.contains "admin" = true ∧
    (tablePolicy table).tombstones.all (fun roles => roles.contains "admin") = true ∧
    (tablePolicy table).delete.contains "admin" = true := by
  decide +kernel

def inWorkspace (ws : WorkspaceId) (row : TenantRow) : Bool :=
  (row "workspace_id").eq (.uuid ws)

/-- A row of the workspace without `deleted_at`. -/
def live (ws : WorkspaceId) (row : TenantRow) : Bool :=
  inWorkspace ws row && row "deleted_at" == .null

def withdrawRows (env : GovernanceEnv) (ws : WorkspaceId) (rows : List TenantRow) :
    List TenantRow :=
  rows.map fun row => if live ws row = true then tombstone env.now row else row

def eraseRows (ws : WorkspaceId) (rows : List TenantRow) : List TenantRow :=
  rows.filter fun row => !inWorkspace ws row

theorem live.inWorkspace {row : TenantRow} (h : live ws row = true) :
    HumanGate.inWorkspace ws row = true := by
  rw [live, Bool.and_eq_true] at h
  exact h.1

theorem live_tombstone (row : TenantRow) : live ws (tombstone env.now row) = false := by
  rw [live, Bool.and_eq_false_iff]
  exact Or.inr rfl

theorem run_softDelete (h : isWorkspaceAdmin db (.uuid ws) me = true) {table : String}
    (htable : table ∈ softDeletableTables) :
    (policyOf db me table).run (db table) (softDelete env ws) = some
      { rows := withdrawRows env ws (db table)
        touched := ((db table).filter (live ws)).map (tombstone env.now) } := by
  obtain ⟨hother, hselect, htombstones, hupdate⟩ := softDeletable_roles table htable
  rw [policyOf_table hother]
  refine Policy.run_update fun row _ hlive => ?_
  have hws : row "workspace_id" = .uuid ws := Cell.eq_uuid.mp (live.inWorkspace hlive)
  have hadmin : isWorkspaceAdmin db (row "workspace_id") me = true := by rwa [hws]
  have hrole := appUserHasWorkspaceRole_admin hadmin (List.contains_iff_mem.mp hupdate)
  -- the tombstone is a row of the same workspace
  exact ⟨hrole, TablePolicy.select_admin hselect htombstones hadmin, hrole,
    TablePolicy.select_admin hselect htombstones hadmin⟩

theorem run_hardDelete (h : isWorkspaceAdmin db (.uuid ws) me = true) {table : String}
    (htable : table ∈ hardDeletableTables) :
    (policyOf db me table).run (db table) (hardDelete ws) = some
      { rows := eraseRows ws (db table), touched := (db table).filter (inWorkspace ws) } := by
  obtain ⟨hother, hselect, htombstones, hdelete⟩ := hardDeletable_roles table htable
  rw [policyOf_table hother]
  refine Policy.run_delete fun row _ hrow => ?_
  have hws : row "workspace_id" = .uuid ws := Cell.eq_uuid.mp hrow
  have hadmin : isWorkspaceAdmin db (row "workspace_id") me = true := by rwa [hws]
  exact ⟨appUserHasWorkspaceRole_admin hadmin (List.contains_iff_mem.mp hdelete),
    TablePolicy.select_admin hselect htombstones hadmin⟩

/-! ## The loops -/

/-- The table is there and has a workspace column. -/
def isScoped (env : GovernanceEnv) (table : String) : Bool :=
  (existingTables env).contains table && (tablesWithWorkspaceColumn env).contains table

/-- What the statement does to the rows of a table, and how many it writes. -/
def Does (ws : WorkspaceId) (me : Cell) (command : Command TenantRow) (tables : List String)
    (change : List TenantRow → List TenantRow) (count : List TenantRow → Nat) : Prop :=
  ∀ db : Tables, isWorkspaceAdmin db (.uuid ws) me = true → ∀ table ∈ tables,
    ∃ e, (policyOf db me table).run (db table) command = some e ∧
      e.rows = change (db table) ∧ e.touched.length = count (db table)

theorem deleteFrom_ok {command : Command TenantRow} {acc r : Deleting} {table : String}
    (h : deleteFrom env me command acc table = .ok r) :
    isScoped env table = false ∧ r = acc ∨
      isScoped env table = true ∧ ∃ e,
        (policyOf acc.1 me table).run (acc.1 table) command = some e ∧
        r = (Function.update acc.1 table e.rows, acc.2 ++ [(table, e.touched.length)]) := by
  unfold deleteFrom at h
  unfold isScoped
  split at h
  case isTrue hmissing =>
    rw [Bool.not_eq_true'] at hmissing
    exact Or.inl ⟨by rw [hmissing]; rfl, (Except.ok.inj h).symm⟩
  case isFalse hthere =>
    rw [Bool.not_eq_true', Bool.not_eq_false] at hthere
    split at h
    case isTrue hplain =>
      rw [Bool.not_eq_true'] at hplain
      exact Or.inl ⟨by rw [hplain, Bool.and_false], (Except.ok.inj h).symm⟩
    case isFalse hcolumn =>
      rw [Bool.not_eq_true', Bool.not_eq_false] at hcolumn
      obtain ⟨⟨next, rows⟩, hexecute, h⟩ := Lib.bind_ok h
      obtain ⟨e, he, rfl, rfl, -⟩ := execute_ok hexecute
      exact Or.inr ⟨by rw [hthere, hcolumn]; rfl, e, he, (Except.ok.inj h).symm⟩

/-- A statement that no policy refuses fails by a constraint. -/
theorem deleteFrom_error {command : Command TenantRow} {acc : Deleting} {table : String}
    {effect : Effect TenantRow}
    (heffect : (policyOf acc.1 me table).run (acc.1 table) command = some effect) {e : SqlError}
    (h : deleteFrom env me command acc table = .error e) : e = .integrity := by
  unfold deleteFrom at h
  split at h
  case isTrue => cases h
  case isFalse =>
    split at h
    case isTrue => cases h
    case isFalse =>
      cases hexecute : execute env.valid acc.1 me table command with
      | ok r =>
          rw [hexecute] at h
          cases h
      | error e' =>
          rw [hexecute] at h
          obtain rfl := Except.error.inj h
          unfold execute at hexecute
          rw [heffect] at hexecute
          dsimp only at hexecute
          split at hexecute
          case isTrue => cases hexecute
          case isFalse => exact (Except.error.inj hexecute).symm

theorem isWorkspaceAdmin_congr (h : new "workspace_memberships" = db "workspace_memberships")
    (wsid uid : Cell) : isWorkspaceAdmin new wsid uid = isWorkspaceAdmin db wsid uid := by
  unfold isWorkspaceAdmin
  rw [h]

theorem deleteFrom_admin {command : Command TenantRow} {acc r : Deleting} {table : String}
    (h : deleteFrom env me command acc table = .ok r) (hne : "workspace_memberships" ≠ table) :
    isWorkspaceAdmin r.1 (.uuid ws) me = isWorkspaceAdmin acc.1 (.uuid ws) me := by
  rcases deleteFrom_ok h with ⟨-, rfl⟩ | ⟨-, e, -, rfl⟩
  · rfl
  · exact isWorkspaceAdmin_congr (Function.update_of_ne hne _ _) _ _

/-- A whole loop: every table of it that is there is changed once. -/
theorem foldlM_deleteFrom {command : Command TenantRow} {tables : List String}
    {change : List TenantRow → List TenantRow} {count : List TenantRow → Nat}
    (hdoes : Does ws me command tables change count) (hnodup : tables.Nodup)
    (hmemberships : "workspace_memberships" ∉ tables) {db : Tables}
    (hadmin : isWorkspaceAdmin db (.uuid ws) me = true) {counts : List (String × Nat)}
    {r : Deleting} (h : tables.foldlM (deleteFrom env me command) (db, counts) = .ok r) :
    (∀ table, r.1 table =
      if table ∈ tables ∧ isScoped env table = true then change (db table) else db table) ∧
    r.2 = counts ++ (tables.filter (isScoped env)).map fun table => (table, count (db table)) := by
  induction tables generalizing db counts with
  | nil =>
      rw [List.foldlM_nil] at h
      obtain rfl := Except.ok.inj h
      simp
  | cons table tables ih =>
      rw [List.foldlM_cons] at h
      obtain ⟨mid, hmid, h⟩ := Lib.bind_ok h
      rw [List.nodup_cons] at hnodup
      have hother : "workspace_memberships" ∉ tables := fun hin =>
        hmemberships (List.mem_cons_of_mem table hin)
      have hdoes' : Does ws me command tables change count := fun db hdb t ht =>
        hdoes db hdb t (List.mem_cons_of_mem table ht)
      rcases deleteFrom_ok hmid with ⟨hskip, rfl⟩ | ⟨hscoped, e, he, rfl⟩
      -- the table is not there, or has no workspace column
      · obtain ⟨hrows, hcounts⟩ := ih hdoes' hnodup.2 hother hadmin h
        constructor
        · intro t
          rw [hrows t]
          by_cases ht : t = table
          · subst ht
            simp [hskip]
          · simp [ht]
        · rw [hcounts, List.filter_cons, hskip]
          rfl
      · have hne : "workspace_memberships" ≠ table := fun heq =>
          hmemberships (heq ▸ List.mem_cons_self)
        obtain ⟨e', he', hchange, hcount⟩ := hdoes db hadmin table List.mem_cons_self
        obtain rfl : e = e' := Option.some.inj (he.symm.trans he')
        -- the loop does not touch the memberships, so the user is still an admin
        have hadmin' := (deleteFrom_admin hmid hne).trans hadmin
        obtain ⟨hrows, hcounts⟩ := ih hdoes' hnodup.2 hother hadmin' h
        constructor
        · intro t
          rw [hrows t]
          by_cases ht : t = table
          · subst ht
            simp [hnodup.1, hscoped, hchange]
          · simp [ht]
        · have hrest : (tables.filter (isScoped env)).map
                (fun t => (t, count (Function.update db table e.rows t)))
              = (tables.filter (isScoped env)).map fun t => (t, count (db t)) := by
            refine List.map_congr_left fun t ht => ?_
            have hne : t ≠ table := fun heq => hnodup.1 (heq ▸ List.mem_of_mem_filter ht)
            rw [Function.update_of_ne hne]
          rw [hcounts, hrest, hcount, List.filter_cons, hscoped]
          simp

theorem does_softDelete (env : GovernanceEnv) (ws : WorkspaceId) (me : Cell) :
    Does ws me (softDelete env ws) softDeletableTables (withdrawRows env ws)
      (List.countP (live ws)) := by
  intro db hdb table htable
  refine ⟨_, run_softDelete hdb htable, rfl, ?_⟩
  rw [List.length_map, List.countP_eq_length_filter]

theorem does_hardDelete (ws : WorkspaceId) (me : Cell) :
    Does ws me (hardDelete ws) hardDeletableTables (eraseRows ws)
      (List.countP (inWorkspace ws)) := by
  intro db hdb table htable
  refine ⟨_, run_hardDelete hdb htable, rfl, ?_⟩
  rw [List.countP_eq_length_filter]

/-- Who is an admin stays one while the content is withdrawn. -/
theorem foldlM_softDelete_admin (hadmin : isWorkspaceAdmin db (.uuid ws) me = true)
    {counts : List (String × Nat)} {r : Deleting}
    (h : softDeletableTables.foldlM (deleteFrom env me (softDelete env ws)) (db, counts) = .ok r) :
    isWorkspaceAdmin r.1 (.uuid ws) me = true := by
  obtain ⟨hrows, -⟩ := foldlM_deleteFrom (does_softDelete env ws me) (by decide +kernel)
    (by decide +kernel) hadmin h
  have hno : "workspace_memberships" ∉ softDeletableTables := by decide +kernel
  rw [isWorkspaceAdmin_congr ((hrows _).trans (if_neg fun hin => hno hin.1))]
  exact hadmin

/-! ## A request -/

/-- The tables after a deletion that knows no policies. -/
def withdrawn (env : GovernanceEnv) (db : Tables) (ws : WorkspaceId) : Tables := fun table =>
  if table ∈ softDeletableTables ∧ isScoped env table = true then withdrawRows env ws (db table)
  else if table ∈ hardDeletableTables ∧ isScoped env table = true then eraseRows ws (db table)
  else db table

def softCounts (env : GovernanceEnv) (db : Tables) (ws : WorkspaceId) : List (String × Nat) :=
  (softDeletableTables.filter (isScoped env)).map fun table => (table, (db table).countP (live ws))

def hardCounts (env : GovernanceEnv) (db : Tables) (ws : WorkspaceId) : List (String × Nat) :=
  (hardDeletableTables.filter (isScoped env)).map fun table =>
    (table, (db table).countP (inWorkspace ws))

theorem hardDeletable_not_soft {table : String} (h : table ∈ hardDeletableTables) :
    table ∉ softDeletableTables := by
  revert table
  decide +kernel

theorem deleteWorkspaceContent_ok (hadmin : isWorkspaceAdmin db (.uuid ws) me = true)
    {confirm : WorkspaceId} {out : DeletionOutcome}
    (h : deleteWorkspaceContent env db me ws confirm = .ok (new, out)) :
    confirm = ws ∧ new = withdrawn env db ws ∧ out.softDeletedCounts = softCounts env db ws ∧
      out.hardDeletedCounts = hardCounts env db ws ∧ out.retainedTables = retainedOnDelete ∧
      out.retainedContentHistory = retainedContentHistoryTables := by
  unfold deleteWorkspaceContent at h
  split at h
  case isTrue => cases h
  case isFalse hconfirm =>
    obtain ⟨-, -, h⟩ := Lib.bind_ok h
    obtain ⟨⟨db1, soft⟩, hsoft, h⟩ := Lib.bind_ok h
    obtain ⟨⟨db2, hard⟩, hhard, h⟩ := Lib.bind_ok h
    obtain ⟨rfl, rfl⟩ := Prod.mk.inj (Except.ok.inj h)
    obtain ⟨hrows, hcounts⟩ := foldlM_deleteFrom (does_softDelete env ws me) (by decide +kernel)
      (by decide +kernel) hadmin (Lib.mapError_ok hsoft)
    dsimp only at hrows hcounts
    have hsame : ∀ table, table ∉ softDeletableTables → db1 table = db table := by
      intro table htable
      rw [hrows table, if_neg fun hin => htable hin.1]
    obtain ⟨hrows', hcounts'⟩ := foldlM_deleteFrom (does_hardDelete ws me) (by decide +kernel)
      (by decide +kernel) (foldlM_softDelete_admin hadmin (Lib.mapError_ok hsoft))
      (Lib.mapError_ok hhard)
    dsimp only at hrows' hcounts'
    refine ⟨not_not.mp hconfirm, ?_, hcounts, ?_, rfl, rfl⟩
    · funext table
      rw [hrows' table]
      unfold withdrawn
      by_cases hhardTable : table ∈ hardDeletableTables
      · have hno := hardDeletable_not_soft hhardTable
        simp [hhardTable, hno, hsame table hno]
      · simp [hhardTable, hrows table]
    · show hard = hardCounts env db ws
      rw [hcounts']
      refine List.map_congr_left fun table htable => ?_
      rw [hsame table (hardDeletable_not_soft (List.mem_of_mem_filter htable))]

theorem requestWorkspaceDeletion_ok {user : UserId} {confirm : WorkspaceId} {out : DeletionOutcome}
    (h : requestWorkspaceDeletion env db user ws confirm = .ok (new, out)) :
    isWorkspaceAdmin db (.uuid ws) (.uuid user) = true ∧
      deleteWorkspaceContent env db (.uuid user) ws confirm = .ok (new, out) := by
  unfold requestWorkspaceDeletion at h
  obtain ⟨⟨⟩, hguard, h⟩ := Lib.bind_ok h
  refine ⟨requireWorkspaceAdmin_ok hguard, ?_⟩
  split at h
  case h_1 => cases h
  case h_2 => exact h

/-! ## What refuses a request -/

/-- No policy stops a loop: each of its statements is one that an admin may execute. -/
theorem foldlM_deleteFrom_error {command : Command TenantRow} {tables : List String}
    {change : List TenantRow → List TenantRow} {count : List TenantRow → Nat}
    (hdoes : Does ws me command tables change count)
    (hmemberships : "workspace_memberships" ∉ tables) {db : Tables}
    (hadmin : isWorkspaceAdmin db (.uuid ws) me = true) {counts : List (String × Nat)}
    {e : SqlError} (h : tables.foldlM (deleteFrom env me command) (db, counts) = .error e) :
    e = .integrity := by
  induction tables generalizing db counts with
  | nil =>
      rw [List.foldlM_nil] at h
      cases h
  | cons table tables ih =>
      rw [List.foldlM_cons] at h
      rcases Lib.bind_error h with herror | ⟨⟨next, counts'⟩, hmid, h⟩
      · obtain ⟨effect, heffect, -, -⟩ := hdoes db hadmin table List.mem_cons_self
        exact deleteFrom_error heffect herror
      · have hne : "workspace_memberships" ≠ table := fun heq =>
          hmemberships (heq ▸ List.mem_cons_self)
        exact ih (fun db hdb t ht => hdoes db hdb t (List.mem_cons_of_mem table ht))
          (fun hin => hmemberships (List.mem_cons_of_mem table hin))
          ((deleteFrom_admin hmid hne).trans hadmin) h

theorem deleteWorkspaceContent_error (hadmin : isWorkspaceAdmin db (.uuid ws) me = true)
    {confirm : WorkspaceId} {e : GovernanceError}
    (h : deleteWorkspaceContent env db me ws confirm = .error e) :
    confirm ≠ ws ∧ e = .dataGovernance "confirmation_mismatch"
        "deletion confirmation does not match the target workspace" ∨
      confirm = ws ∧ e = .sql .integrity := by
  unfold deleteWorkspaceContent at h
  split at h
  case isTrue hconfirm => exact Or.inl ⟨hconfirm, (Except.error.inj h).symm⟩
  case isFalse hconfirm =>
    refine Or.inr ⟨not_not.mp hconfirm, ?_⟩
    dsimp only at h
    rcases Lib.bind_error h with hsoft | ⟨⟨db1, soft⟩, hsoft, h⟩
    · obtain ⟨e', hloop, rfl⟩ := Lib.mapError_error hsoft
      rw [foldlM_deleteFrom_error (does_softDelete env ws me) (by decide +kernel) hadmin hloop]
    rcases Lib.bind_error h with hhard | ⟨⟨db2, hard⟩, -, h⟩
    · obtain ⟨e', hloop, rfl⟩ := Lib.mapError_error hhard
      have hadmin' := foldlM_softDelete_admin hadmin (Lib.mapError_ok hsoft)
      rw [foldlM_deleteFrom_error (does_hardDelete ws me) (by decide +kernel) hadmin' hloop]
    · cases h

/-- A request is refused by the guard, for a wrong confirmation, or by a constraint of a table:
the policies hinder no admin. -/
theorem requestWorkspaceDeletion_error {user : UserId} {confirm : WorkspaceId}
    {e : GovernanceError} (h : requestWorkspaceDeletion env db user ws confirm = .error e) :
    requireWorkspaceAdmin db (.uuid user) ws = .error e ∨
      confirm ≠ ws ∧
        e = .http 400 "deletion confirmation does not match the target workspace" ∨
      confirm = ws ∧ e = .sql .integrity := by
  unfold requestWorkspaceDeletion at h
  rcases Lib.bind_error h with hguard | ⟨⟨⟩, hguard, h⟩
  · exact Or.inl hguard
  refine Or.inr ?_
  have hadmin := requireWorkspaceAdmin_ok hguard
  split at h
  case h_1 code message hdelete =>
    obtain rfl := Except.error.inj h
    rcases deleteWorkspaceContent_error hadmin hdelete with ⟨hconfirm, heq⟩ | ⟨-, heq⟩
    · obtain ⟨-, rfl⟩ := GovernanceError.dataGovernance.inj heq
      exact Or.inl ⟨hconfirm, rfl⟩
    · cases heq
  case h_2 hother =>
    rcases deleteWorkspaceContent_error hadmin h with ⟨-, rfl⟩ | hconstraint
    · exact absurd h (hother _ _)
    · exact Or.inr hconstraint

/-! ## What stays -/

/-- Nothing of the workspace is live, and nothing is left where rows are erased. -/
structure Withdrawn (env : GovernanceEnv) (db : Tables) (ws : WorkspaceId) : Prop where
  soft : ∀ table ∈ softDeletableTables, isScoped env table = true →
    ∀ row ∈ db table, live ws row = false
  hard : ∀ table ∈ hardDeletableTables, isScoped env table = true →
    ∀ row ∈ db table, inWorkspace ws row = false

theorem withdrawn_withdrawn : Withdrawn env (withdrawn env db ws) ws := by
  constructor
  case soft =>
    intro table htable hscoped row hrow
    rw [withdrawn, if_pos ⟨htable, hscoped⟩] at hrow
    obtain ⟨old, -, rfl⟩ := List.mem_map.mp hrow
    split
    case isTrue => exact live_tombstone old
    case isFalse hdead => simpa using hdead
  case hard =>
    intro table htable hscoped row hrow
    rw [withdrawn, if_neg fun h => hardDeletable_not_soft htable h.1, if_pos ⟨htable, hscoped⟩]
      at hrow
    have hgone := (List.mem_filter.mp hrow).2
    simpa using hgone

theorem deletable_other {table : String} (h : table ∈ deletableTables) :
    table ∉ ownPolicyTables := by
  revert table
  decide +kernel

/-- A statement that may bring content back: it inserts or updates rows of a content table. -/
def TenantOp.restores (op : TenantOp) : Bool :=
  deletableTables.contains op.table && match op.command with
    | .insert _ | .update _ _ => true
    | _ => false

/-- What a statement finds or leaves of the workspace in a content table was there before, unless a
member of the workspace writes. -/
theorem execute_deletable {op : TenantOp} (hop : op.restores = true →
      isWorkspaceMember db (.uuid ws) (appCurrentUserId op.user) = false)
    {rows : List TenantRow} (hok : execute valid db (appCurrentUserId op.user) op.table op.command
      = .ok (new, rows)) {table : String} (htable : table ∈ deletableTables) {row : TenantRow}
    (hrow : row ∈ new table) (hws : inWorkspace ws row = true) : row ∈ db table := by
  by_cases hsame : table = op.table
  · subst hsame
    obtain ⟨e, he, rfl, -, -⟩ := execute_ok hok
    rw [Function.update_self] at hrow
    have hother := deletable_other htable
    have hown : ownedBy ws op.table row = true := by
      unfold ownedBy tenantOf
      split
      case h_1 heq => exact absurd (heq ▸ by decide) hother
      case h_2 heq => exact absurd (heq ▸ by decide) hother
      case h_3 => exact beq_iff_eq.mpr (Cell.eq_uuid.mp hws)
    cases hrestores : op.restores with
    -- a user outside may try to write, but the policy lets no row of the workspace be written
    | true =>
        have hmember := hop hrestores
        have hnone := appUserHasWorkspaceRole_outside hmember
        have hworkspaces : op.table ≠ "workspaces" := fun heq => hother (heq ▸ by decide)
        have hupd := (policyOf_keepsOff hmember op.table).update
        rcases Policy.mem_run_own hupd he hrow hown with hold | ⟨-, hins⟩
        · exact hold
        · rw [policyOf_table hother] at hins
          simp only [TablePolicy.policy, ownedBy_other hworkspaces hown, hnone] at hins
          cases hins
    -- a read or a deletion leaves only rows that were there
    | false =>
        unfold TenantOp.restores at hrestores
        rw [List.contains_iff_mem.mpr htable, Bool.true_and] at hrestores
        cases hc : op.command with
        | select cond =>
            rw [hc] at he
            obtain rfl := Option.some.inj he
            exact hrow
        | delete cond =>
            rw [hc] at he
            obtain rfl := Option.some.inj he
            exact List.mem_of_mem_filter hrow
        | insert new => rw [hc] at hrestores; cases hrestores
        | update cond set => rw [hc] at hrestores; cases hrestores
  · rwa [execute_other hsame hok] at hrow

theorem Withdrawn.exec (h : Withdrawn env db ws) {op : TenantOp} (hop : op.restores = true →
      isWorkspaceMember db (.uuid ws) (appCurrentUserId op.user) = false) :
    Withdrawn env (op.exec valid db) ws := by
  refine op.exec_cases (P := fun db => Withdrawn env db ws) h fun new rows hok => ?_
  constructor
  case soft =>
    intro table htable hscoped row hrow
    by_contra hlive
    rw [Bool.not_eq_false] at hlive
    have hold := execute_deletable hop hok (List.mem_append_left _ htable) hrow
      (live.inWorkspace hlive)
    rw [h.soft table htable hscoped row hold] at hlive
    cases hlive
  case hard =>
    intro table htable hscoped row hrow
    by_contra hws
    rw [Bool.not_eq_false] at hws
    have hold := execute_deletable hop hok (List.mem_append_right _ htable) hrow hws
    rw [h.hard table htable hscoped row hold] at hws
    cases hws

theorem withdrawn_other (table : String) (h : table ∉ deletableTables) :
    withdrawn env db ws table = db table := by
  have hsoft : table ∉ softDeletableTables := fun hin => h (List.mem_append_left _ hin)
  have hhard : table ∉ hardDeletableTables := fun hin => h (List.mem_append_right _ hin)
  rw [withdrawn, if_neg fun hin => hsoft hin.1, if_neg fun hin => hhard hin.1]

/-- Rows of other workspaces are left as they are. -/
theorem withdrawn_only {other : WorkspaceId} (hne : other ≠ ws) :
    (withdrawn env db ws).only other = db.only other := by
  funext table
  by_cases htable : table ∈ deletableTables
  · have hown := deletable_other htable
    have htenant : ∀ row, tenantOf table row = row "workspace_id" := by
      intro row
      unfold tenantOf
      split
      case h_1 => exact absurd (by decide) hown
      case h_2 => exact absurd (by decide) hown
      case h_3 => rfl
    -- a row of another workspace is none of this one
    have hkeep : ∀ row : TenantRow, (tenantOf table row == .uuid other) = true →
        inWorkspace ws row = false := by
      intro row hrow
      rw [htenant, beq_iff_eq] at hrow
      rw [inWorkspace, hrow, Cell.eq_beq]
      simpa using hne
    show (withdrawn env db ws table).filter _ = (db table).filter _
    unfold withdrawn
    split
    case isTrue =>
      refine Lib.RowSecurity.Policy.filter_map_own (fun row _ hrow => ?_) fun row _ hrow => ?_
      · rw [live, hkeep row hrow]
        rfl
      · split
        case isTrue => rwa [htenant] at hrow ⊢
        case isFalse => exact hrow
    case isFalse =>
      split
      case isTrue =>
        unfold eraseRows
        rw [List.filter_filter]
        refine List.filter_congr fun row _ => ?_
        cases hrow : tenantOf table row == .uuid other with
        | true => rw [hkeep row hrow]; rfl
        | false => rfl
      case isFalse => rfl
  · show (withdrawn env db ws table).filter _ = (db table).filter _
    rw [withdrawn_other table htable]

theorem retained_not_deletable {table : String}
    (h : table ∈ retainedOnDelete ++ retainedContentHistoryTables) : table ∉ deletableTables := by
  revert table
  decide +kernel

/-- **A deletion request** that succeeds was confirmed and is an admin's. Row by row, it turns every
live row of the workspace in the content tables into a tombstone and erases its rows where there is
no history; it tells how many, and leaves the retained tables, every other table and every other
workspace as they are. Content is live again only after a member of the workspace has written it. -/
theorem workspace_withdrawal (env : GovernanceEnv) {db new : Tables} {user : UserId}
    {ws confirm : WorkspaceId} {out : DeletionOutcome}
    (h : requestWorkspaceDeletion env db user ws confirm = .ok (new, out)) :
    (confirm = ws ∧ isWorkspaceAdmin db (.uuid ws) (.uuid user) = true) ∧
    (out.softDeletedCounts = softCounts env db ws ∧ out.hardDeletedCounts = hardCounts env db ws) ∧
    (new = withdrawn env db ws ∧
      (∀ table ∈ out.retainedTables ++ out.retainedContentHistory, new table = db table) ∧
      (∀ table, table ∉ deletableTables → new table = db table) ∧
      ∀ other, other ≠ ws → new.only other = db.only other) ∧
    Withdrawn env new ws ∧
    ∀ valid ops, ¬ Withdrawn env (afterStatements valid new ops) ws →
      ∃ pre op post, ops = pre ++ op :: post ∧ op.restores = true ∧
        isWorkspaceMember (afterStatements valid new pre) (.uuid ws) (appCurrentUserId op.user)
          = true := by
  obtain ⟨hadmin, hdelete⟩ := requestWorkspaceDeletion_ok h
  obtain ⟨hconfirm, rfl, hsoft, hhard, hretained, hhistory⟩ :=
    deleteWorkspaceContent_ok hadmin hdelete
  refine ⟨⟨hconfirm, hadmin⟩, ⟨hsoft, hhard⟩, ⟨rfl, ?_, withdrawn_other, fun _ => withdrawn_only⟩,
    withdrawn_withdrawn, ?_⟩
  · intro table htable
    rw [hretained, hhistory] at htable
    exact withdrawn_other table (retained_not_deletable htable)
  · intro valid ops hlive
    -- the first statement after which something is live is the one that is named
    induction ops using List.reverseRecOn with
    | nil => exact absurd withdrawn_withdrawn hlive
    | append_singleton ops op ih =>
        by_cases hbefore : Withdrawn env (afterStatements valid (withdrawn env db ws) ops) ws
        · refine ⟨ops, op, [], rfl, ?_⟩
          by_contra hnot
          rw [afterStatements_snoc] at hlive
          refine hlive (hbefore.exec fun hrestores => ?_)
          by_contra hmember
          exact hnot ⟨hrestores, by simpa using hmember⟩
        · obtain ⟨pre, op', post, hops, hstep⟩ := ih hbefore
          exact ⟨pre, op', post ++ [op], by rw [hops]; simp, hstep⟩

theorem first_tenant_withdrawn :
    ∃ new out, requestWorkspaceDeletion smallCatalogue twoTenants 10 1 1 = .ok (new, out) ∧
      out.softDeletedCounts = [("content_items", 1)] ∧ out.hardDeletedCounts = [("leads", 1)] ∧
      new = withdrawn smallCatalogue twoTenants 1 ∧ Withdrawn smallCatalogue new 1 ∧
      new.only 2 = twoTenants.only 2 := by
  have hok : (requestWorkspaceDeletion smallCatalogue twoTenants 10 1 1).isOk = true := by
    decide +kernel
  cases hrequest : requestWorkspaceDeletion smallCatalogue twoTenants 10 1 1 with
  | error e =>
      rw [hrequest] at hok
      cases hok
  | ok answer =>
      obtain ⟨new, out⟩ := answer
      obtain ⟨-, ⟨hsoft, hhard⟩, ⟨hnew, -, -, hothers⟩, hwithdrawn, -⟩ :=
        workspace_withdrawal smallCatalogue hrequest
      refine ⟨new, out, rfl, hsoft.trans ?_, hhard.trans ?_, hnew, hwithdrawn,
        hothers 2 (by decide)⟩
      · decide +kernel
      · decide +kernel

end HumanGate
