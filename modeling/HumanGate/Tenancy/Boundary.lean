import HumanGate.Model.Tenants

set_option autoImplicit false

/-! # The tenant boundary holds

What a session does whose user is neither a member nor the creator of a workspace: whatever its
statements are, it reads no row of the workspace and changes none, in any table. And such a user
gets in only through an admin of the workspace.
-/

namespace HumanGate

open Lib.RowSecurity (Policy Command Effect)

variable {valid : Tables → Bool} {db new : Tables} {me : Cell} {ws : WorkspaceId}

/-! ## SQL equality -/

@[simp] theorem Cell.eq_true {a b : Cell} : a.eq b = true ↔ a ≠ .null ∧ a = b := by
  simp [Cell.eq]

theorem Cell.eq_uuid {a : Cell} {id : Nat} : a.eq (.uuid id) = true ↔ a = .uuid id := by
  rw [Cell.eq_true]
  constructor
  · rintro ⟨-, rfl⟩
    rfl
  · rintro rfl
    exact ⟨by simp, rfl⟩

/-! ## The functions of the policies -/

theorem isWorkspaceMember_iff {wsid uid : Cell} : isWorkspaceMember db wsid uid = true ↔
    ∃ m ∈ db "workspace_memberships", (m "workspace_id").eq wsid = true ∧
      (m "user_id").eq uid = true := by
  simp [isWorkspaceMember]

theorem isWorkspaceAdmin_iff {wsid uid : Cell} : isWorkspaceAdmin db wsid uid = true ↔
    ∃ m ∈ db "workspace_memberships", (m "workspace_id").eq wsid = true ∧
      (m "user_id").eq uid = true ∧ (m "role").eq (.text "admin") = true := by
  simp [isWorkspaceAdmin, and_assoc]

theorem isWorkspaceCreator_iff {wsid uid : Cell} : isWorkspaceCreator db wsid uid = true ↔
    ∃ w ∈ db "workspaces", (w "id").eq wsid = true ∧ (w "created_by").eq uid = true := by
  simp [isWorkspaceCreator]

theorem isWorkspaceAdmin.member {wsid uid : Cell} (h : isWorkspaceAdmin db wsid uid = true) :
    isWorkspaceMember db wsid uid = true := by
  obtain ⟨m, hm, hws, huid, -⟩ := isWorkspaceAdmin_iff.mp h
  exact isWorkspaceMember_iff.mpr ⟨m, hm, hws, huid⟩

/-- The query of `app_user_has_workspace_role` sees the rows that it is about: who has a role is a
member, and a member sees the memberships of the workspace. -/
theorem appUserHasWorkspaceRole_iff {wsid : Cell} {roles : List String} :
    appUserHasWorkspaceRole db me wsid roles = true ↔
      ∃ m ∈ db "workspace_memberships", (m "workspace_id").eq wsid = true ∧
        (m "user_id").eq me = true ∧ ∃ role ∈ roles, (m "role").eq (.text role) = true := by
  simp only [appUserHasWorkspaceRole, visibleMemberships, List.any_filter, List.any_eq_true,
    Bool.and_eq_true]
  constructor
  · rintro ⟨m, hm, -, ⟨hws, hme⟩, hrole⟩
    exact ⟨m, hm, hws, hme, hrole⟩
  · rintro ⟨m, hm, hws, hme, hrole⟩
    refine ⟨m, hm, ?_, ⟨hws, hme⟩, hrole⟩
    have hnull := (Cell.eq_true.mp hws).1
    exact isWorkspaceMember_iff.mpr ⟨m, hm, Cell.eq_true.mpr ⟨hnull, rfl⟩, hme⟩

theorem appUserHasWorkspaceRole.member {wsid : Cell} {roles : List String}
    (h : appUserHasWorkspaceRole db me wsid roles = true) :
    isWorkspaceMember db wsid me = true := by
  obtain ⟨m, hm, hws, hme, -⟩ := appUserHasWorkspaceRole_iff.mp h
  exact isWorkspaceMember_iff.mpr ⟨m, hm, hws, hme⟩

theorem appUserHasWorkspaceRole_admin {wsid : Cell} {roles : List String}
    (h : isWorkspaceAdmin db wsid me = true) (hroles : "admin" ∈ roles) :
    appUserHasWorkspaceRole db me wsid roles = true := by
  obtain ⟨m, hm, hws, hme, hrole⟩ := isWorkspaceAdmin_iff.mp h
  exact appUserHasWorkspaceRole_iff.mpr ⟨m, hm, hws, hme, "admin", hroles, hrole⟩

/-- For who is not a member of the workspace, the query of the insert policy finds no membership of
it: the creator may take the place of an admin also where others are members. -/
theorem visibleMemberships_other {wsid : Cell} (h : isWorkspaceMember db wsid me = false) :
    ((visibleMemberships db me).any fun m => (m "workspace_id").eq wsid) = false := by
  rw [List.any_eq_false]
  intro m hm hws
  obtain ⟨-, hmember⟩ := List.mem_filter.mp hm
  obtain ⟨-, rfl⟩ := Cell.eq_true.mp hws
  rw [h] at hmember
  cases hmember

/-! ## Users outside a workspace -/

/-- The user is neither a member nor the creator of the workspace. -/
structure Outside (db : Tables) (ws : WorkspaceId) (me : Cell) : Prop where
  member : isWorkspaceMember db (.uuid ws) me = false
  creator : isWorkspaceCreator db (.uuid ws) me = false

/-- The rows of the workspace. -/
def ownedBy (ws : WorkspaceId) (table : String) (row : TenantRow) : Bool :=
  tenantOf table row == .uuid ws

theorem ownedBy_workspaces {row : TenantRow} :
    ownedBy ws "workspaces" row = true ↔ row "id" = .uuid ws := by
  simp [ownedBy, tenantOf]

theorem ownedBy_profiles (row : TenantRow) : ownedBy ws "profiles" row = false := by
  simp [ownedBy, tenantOf]

theorem ownedBy_other {table : String} (h : table ≠ "workspaces") {row : TenantRow}
    (hown : ownedBy ws table row = true) : row "workspace_id" = .uuid ws := by
  unfold ownedBy tenantOf at hown
  split at hown
  case h_1 => exact absurd rfl h
  case h_2 => cases hown
  case h_3 => exact beq_iff_eq.mp hown

section Policies

variable (hmember : isWorkspaceMember db (.uuid ws) me = false)
include hmember

theorem isWorkspaceAdmin_outside : isWorkspaceAdmin db (.uuid ws) me = false := by
  by_contra hadmin
  rw [isWorkspaceAdmin.member (by simpa using hadmin)] at hmember
  cases hmember

/-- A role is a role of members only. -/
theorem appUserHasWorkspaceRole_outside (roles : List String) :
    appUserHasWorkspaceRole db me (.uuid ws) roles = false := by
  by_contra hhas
  rw [appUserHasWorkspaceRole.member (by simpa using hhas)] at hmember
  cases hmember

theorem TablePolicy.keepsOff (t : TablePolicy) {table : String} (htable : table ≠ "workspaces") :
    (t.policy db me).KeepsOff (ownedBy ws table) (db table) := by
  have hnone := appUserHasWorkspaceRole_outside hmember
  constructor
  case select =>
    intro row _ hown
    simp only [TablePolicy.policy, ownedBy_other htable hown, hnone, ite_self]
    cases t.tombstones <;> rfl
  case delete =>
    intro row _ hown
    simp only [TablePolicy.policy, ownedBy_other htable hown, hnone]
  case update =>
    intro row hown
    simp only [TablePolicy.policy, ownedBy_other htable hown, hnone]

theorem workspacesPolicy_keepsOff :
    (workspacesPolicy db me).KeepsOff (ownedBy ws "workspaces") (db "workspaces") := by
  constructor
  case select =>
    intro row _ hown
    simp only [workspacesPolicy, ownedBy_workspaces.mp hown, hmember]
  case delete => exact fun _ _ _ => rfl
  case update =>
    intro row hown
    simp only [workspacesPolicy, ownedBy_workspaces.mp hown, isWorkspaceAdmin_outside hmember]

theorem membershipsPolicy_keepsOff :
    (membershipsPolicy db me).KeepsOff (ownedBy ws "workspace_memberships")
      (db "workspace_memberships") := by
  have hadmin := isWorkspaceAdmin_outside hmember
  constructor
  case select =>
    intro row _ hown
    simp only [membershipsPolicy, ownedBy_other (by decide) hown, hmember]
  case delete =>
    intro row hrow hown
    have hws := ownedBy_other (by decide) hown
    -- a membership of its own would make the user a member
    have hself : (row "user_id").eq me = false := by
      by_contra hself
      have hyes : isWorkspaceMember db (.uuid ws) me = true :=
        isWorkspaceMember_iff.mpr ⟨row, hrow, Cell.eq_uuid.mpr hws, by simpa using hself⟩
      rw [hmember] at hyes
      cases hyes
    simp only [membershipsPolicy, hws, hadmin, hself, Bool.or_false]
  case update =>
    intro row hown
    simp only [membershipsPolicy, ownedBy_other (by decide) hown, hadmin]

theorem workerRegistryPolicy_keepsOff :
    (workerRegistryPolicy db me).KeepsOff (ownedBy ws "worker_registry")
      (db "worker_registry") := by
  constructor
  case select =>
    intro row _ hown
    simp [workerRegistryPolicy, ownedBy_other (by decide) hown, hmember]
  case delete => exact fun _ _ _ => rfl
  case update =>
    intro row hown
    simp only [workerRegistryPolicy, ownedBy_other (by decide) hown,
      appUserHasWorkspaceRole_outside hmember]

theorem stageRecoveryAuditPolicy_keepsOff :
    (stageRecoveryAuditPolicy db me).KeepsOff (ownedBy ws "stage_recovery_audit")
      (db "stage_recovery_audit") := by
  constructor
  case select =>
    intro row _ hown
    simp only [stageRecoveryAuditPolicy, ownedBy_other (by decide) hown,
      appUserHasWorkspaceRole_outside hmember]
  case delete => exact fun _ _ _ => rfl
  case update => exact fun _ _ => rfl

/-- The policies of every table keep a user off the rows of a workspace whose member it is not. -/
theorem policyOf_keepsOff (table : String) :
    (policyOf db me table).KeepsOff (ownedBy ws table) (db table) := by
  unfold policyOf
  split
  case h_1 => exact workspacesPolicy_keepsOff hmember
  case h_2 => exact membershipsPolicy_keepsOff hmember
  case h_3 => exact workerRegistryPolicy_keepsOff hmember
  case h_4 => exact stageRecoveryAuditPolicy_keepsOff hmember
  case h_5 =>
    have hnone : ∀ row, ownedBy ws "profiles" row = true → False := by
      intro row hown
      rw [ownedBy_profiles] at hown
      cases hown
    exact ⟨fun row _ h => (hnone row h).elim, fun row _ h => (hnone row h).elim,
      fun row h => (hnone row h).elim⟩
  case h_6 => exact TablePolicy.keepsOff hmember _ (by assumption)

end Policies

/-- Who is outside a workspace may not insert rows of it, but for the row of the workspace. -/
theorem policyOf_insert_outside (h : Outside db ws me) {table : String}
    (htable : table ≠ "workspaces") {row : TenantRow} (hown : ownedBy ws table row = true) :
    (policyOf db me table).insert row = false := by
  have hws := ownedBy_other htable hown
  have hadmin := isWorkspaceAdmin_outside h.member
  have hnone := appUserHasWorkspaceRole_outside h.member
  unfold policyOf
  split
  case h_1 => exact absurd rfl htable
  case h_2 => simp only [membershipsPolicy, hws, hadmin, h.creator, Bool.and_false, Bool.false_and,
      Bool.or_false]
  case h_3 => rfl
  case h_4 => simp only [stageRecoveryAuditPolicy, hws, hnone, Bool.false_and]
  case h_5 =>
    rw [ownedBy_profiles] at hown
    cases hown
  case h_6 => simp only [TablePolicy.policy, hws, hnone]

/-! ## One statement -/

theorem execute_ok {table : String} {c : Command TenantRow} {rows : List TenantRow}
    (h : execute valid db me table c = .ok (new, rows)) :
    ∃ e, (policyOf db me table).run (db table) c = some e ∧
      new = Function.update db table e.rows ∧ rows = e.touched ∧
      (c.isSelect = true ∨ keysHold new = true) := by
  unfold execute at h
  split at h
  case h_1 => cases h
  case h_2 e he =>
    dsimp only at h
    split at h
    case isTrue hkeys =>
      cases h
      rw [Bool.or_eq_true, Bool.and_eq_true] at hkeys
      exact ⟨e, he, rfl, rfl, hkeys.imp_right And.left⟩
    case isFalse => cases h

/-- A statement keeps the keys. -/
theorem execute_keys (hkeys : keysHold db = true) {table : String} {c : Command TenantRow}
    {rows : List TenantRow} (h : execute valid db me table c = .ok (new, rows)) :
    keysHold new = true := by
  obtain ⟨e, he, rfl, -, hselect | hnew⟩ := execute_ok h
  · cases c with
    | select cond =>
        obtain rfl := Option.some.inj he
        rwa [Function.update_eq_self]
    | insert => cases hselect
    | update => cases hselect
    | delete => cases hselect
  · exact hnew

/-- The workspace is there. -/
def Tables.hasWorkspace (db : Tables) (ws : WorkspaceId) : Prop :=
  ∃ w ∈ db "workspaces", w "id" = .uuid ws

/-- No second workspace gets the id of one that is there. -/
theorem insert_workspace {row : TenantRow} (hws : db.hasWorkspace ws) {e : Effect TenantRow}
    {p : Policy TenantRow} (he : p.run (db "workspaces") (.insert row) = some e)
    (hkeys : keysHold (Function.update db "workspaces" e.rows) = true) : row "id" ≠ .uuid ws := by
  intro hid
  obtain ⟨w, hw, hwid⟩ := hws
  simp only [Policy.run, Option.ite_none_right_eq_some, Option.some.injEq] at he
  obtain ⟨-, rfl⟩ := he
  simp only [keysHold, Function.update_self, Bool.and_eq_true, decide_eq_true_eq, List.map_append,
    List.map_cons, List.map_nil] at hkeys
  have hfresh := List.nodup_append.mp hkeys.1.1
  exact hfresh.2.2 _ (List.mem_map.mpr ⟨w, hw, rfl⟩) _ (List.mem_singleton.mpr rfl)
    (hwid.trans hid.symm)

/-- **A statement of a user outside the workspace** neither reads nor changes a row of it. -/
theorem execute_outside (hkeys : keysHold db = true) (hws : db.hasWorkspace ws)
    (h : Outside db ws me) {table : String} {c : Command TenantRow} {rows : List TenantRow}
    (hok : execute valid db me table c = .ok (new, rows)) :
    new.only ws = db.only ws ∧ ∀ row ∈ rows, tenantOf table row ≠ .uuid ws := by
  have hnew := execute_keys hkeys hok
  obtain ⟨e, he, rfl, rfl, -⟩ := execute_ok hok
  have hins : ∀ row, c = .insert row → ownedBy ws table row = true →
      (policyOf db me table).insert row = false := by
    rintro row rfl hown
    by_cases htable : table = "workspaces"
    · subst htable
      exact absurd (ownedBy_workspaces.mp hown) (insert_workspace hws he hnew)
    · exact policyOf_insert_outside h htable hown
  obtain ⟨hsame, htouched⟩ := (policyOf_keepsOff h.member table).run hins he
  constructor
  · funext t
    by_cases ht : t = table
    · subst ht
      show (Function.update db t e.rows t).filter _ = _
      rw [Function.update_self]
      exact hsame
    · show (Function.update db table e.rows t).filter _ = _
      rw [Function.update_of_ne ht]
      rfl
  · intro row hrow hown
    have hno := htouched row hrow
    rw [ownedBy, hown] at hno
    simp at hno

/-! ## The workspace stays -/

theorem keysHold_iff : keysHold db = true ↔
    ((db "workspaces").map fun w => w "id").Nodup ∧
      ((db "workspace_memberships").map fun m => (m "workspace_id", m "user_id")).Nodup ∧
      ∀ m ∈ db "workspace_memberships", ∃ w ∈ db "workspaces", w "id" ≠ .null ∧
        w "id" = m "workspace_id" := by
  simp only [keysHold, Bool.and_eq_true, decide_eq_true_eq, List.all_eq_true, List.any_eq_true,
    Cell.eq_true, and_assoc]

theorem execute_other {table t : String} (ht : t ≠ table) {c : Command TenantRow}
    {rows : List TenantRow} (hok : execute valid db me table c = .ok (new, rows)) :
    new t = db t := by
  obtain ⟨e, -, rfl, -⟩ := execute_ok hok
  exact Function.update_of_ne ht _ _

/-- An update leaves no new id: an admin of the new id has a membership in a workspace with it. -/
theorem update_workspaces_ids (hkeys : keysHold db = true) {cond : Option (TenantRow → Bool)}
    {set : TenantRow → TenantRow} {e : Effect TenantRow}
    (he : (workspacesPolicy db me).run (db "workspaces") (.update cond set) = some e) :
    e.rows.map (fun w => w "id") ⊆ (db "workspaces").map fun w => w "id" := by
  simp only [Policy.run, Option.ite_none_right_eq_some, Option.some.injEq, List.all_eq_true] at he
  obtain ⟨hcheck, rfl⟩ := he
  intro id hid
  obtain ⟨row', hrow', rfl⟩ := List.mem_map.mp hid
  obtain ⟨row, hrow, rfl⟩ := List.mem_map.mp hrow'
  split
  case isTrue hhit =>
    have hpass := hcheck row hrow
    rw [hhit, Policy.accepts, Bool.not_true, Bool.false_or, Bool.and_eq_true] at hpass
    obtain ⟨m, hm, hmid, -, -⟩ := isWorkspaceAdmin_iff.mp hpass.1
    obtain ⟨w, hw, -, hwid⟩ := (keysHold_iff.mp hkeys).2.2 m hm
    exact List.mem_map.mpr ⟨w, hw, hwid.trans (Cell.eq_true.mp hmid).2⟩
  case isFalse => exact List.mem_map.mpr ⟨row, hrow, rfl⟩

/-- Workspaces are never deleted, and their ids do not change. -/
theorem hasWorkspace_step (hkeys : keysHold db = true) (hws : db.hasWorkspace ws) {table : String}
    {c : Command TenantRow} {rows : List TenantRow}
    (hok : execute valid db me table c = .ok (new, rows)) : new.hasWorkspace ws := by
  by_cases htable : "workspaces" = table
  · subst htable
    have hkeys' := execute_keys hkeys hok
    obtain ⟨e, he, rfl, -⟩ := execute_ok hok
    obtain ⟨w, hw, hwid⟩ := hws
    unfold Tables.hasWorkspace
    rw [Function.update_self]
    change (workspacesPolicy db me).run (db "workspaces") c = some e at he
    cases c with
    | select cond =>
        obtain rfl := Option.some.inj he
        exact ⟨w, hw, hwid⟩
    | insert row =>
        simp only [Policy.run, Option.ite_none_right_eq_some, Option.some.injEq] at he
        obtain ⟨-, rfl⟩ := he
        exact ⟨w, List.mem_append_left _ hw, hwid⟩
    | update cond set =>
        have hids := update_workspaces_ids hkeys he
        have hnodup := (keysHold_iff.mp hkeys').1
        rw [Function.update_self] at hnodup
        have hlength : e.rows.length = (db "workspaces").length := by
          simp only [Policy.run, Option.ite_none_right_eq_some, Option.some.injEq] at he
          obtain ⟨-, rfl⟩ := he
          exact List.length_map _
        -- as many ids as before, all different and all among the old ones
        have hperm := (hnodup.subperm hids).perm_of_length_le (by simp [hlength])
        have hmem : Cell.uuid ws ∈ e.rows.map fun w => w "id" :=
          hperm.mem_iff.mpr (List.mem_map.mpr ⟨w, hw, hwid⟩)
        obtain ⟨row, hrow, hid⟩ := List.mem_map.mp hmem
        exact ⟨row, hrow, hid⟩
    | delete cond =>
        obtain rfl := Option.some.inj he
        exact ⟨w, List.mem_filter.mpr ⟨hw, rfl⟩, hwid⟩
  · obtain ⟨w, hw, hwid⟩ := hws
    exact ⟨w, by rwa [execute_other htable hok], hwid⟩

/-! ## How a user gets in -/

/-- A statement of somebody who is no admin of the workspace lets nobody in: the creator takes his
own place, and he is not outside. -/
theorem Outside.step {u : Cell} (hu : Outside db ws u) (hkeys : keysHold db = true)
    (hws : db.hasWorkspace ws) (hadmin : isWorkspaceAdmin db (.uuid ws) me = false)
    {table : String} {c : Command TenantRow} {rows : List TenantRow}
    (hok : execute valid db me table c = .ok (new, rows)) : Outside new ws u := by
  have hkeys := execute_keys hkeys hok
  obtain ⟨e, he, hnew, -⟩ := execute_ok hok
  constructor
  case member =>
    by_contra hmember
    rw [Bool.not_eq_false, isWorkspaceMember_iff] at hmember
    obtain ⟨m, hm, hmws, hmu⟩ := hmember
    have hgone : m ∉ db "workspace_memberships" := fun hold => by
      have hyes := isWorkspaceMember_iff.mpr ⟨m, hold, hmws, hmu⟩
      rw [hu.member] at hyes
      cases hyes
    by_cases htable : "workspace_memberships" = table
    · subst htable hnew
      rw [Function.update_self] at hm
      change (membershipsPolicy db me).run (db "workspace_memberships") c = some e at he
      have hmid := Cell.eq_uuid.mp hmws
      have hupd : ∀ row, ownedBy ws "workspace_memberships" row = true →
          (membershipsPolicy db me).update row = false := by
        intro row hown
        simp only [membershipsPolicy, ownedBy_other (by decide) hown, hadmin]
      rcases Policy.mem_run_own hupd he hm (by simp [ownedBy, tenantOf, hmid]) with hold | hins
      · exact hgone hold
      · -- without an admin only the creator takes a seat, and that is not the user
        have hseat := hins.2
        simp only [membershipsPolicy, hmid, hadmin, Bool.false_or, Bool.and_eq_true] at hseat
        obtain ⟨⟨⟨hself, -⟩, hcreator⟩, -⟩ := hseat
        have hsame : me = u := ((Cell.eq_true.mp hself).2).symm.trans (Cell.eq_true.mp hmu).2
        rw [hsame, hu.creator] at hcreator
        cases hcreator
    · rw [execute_other htable hok] at hm
      exact hgone hm
  case creator =>
    by_contra hcreator
    rw [Bool.not_eq_false, isWorkspaceCreator_iff] at hcreator
    obtain ⟨w, hw, hwid, hwu⟩ := hcreator
    have hgone : w ∉ db "workspaces" := fun hold => by
      have hyes := isWorkspaceCreator_iff.mpr ⟨w, hold, hwid, hwu⟩
      rw [hu.creator] at hyes
      cases hyes
    by_cases htable : "workspaces" = table
    · subst htable hnew
      rw [Function.update_self] at hw
      change (workspacesPolicy db me).run (db "workspaces") c = some e at he
      have hid := Cell.eq_uuid.mp hwid
      have hupd : ∀ row, ownedBy ws "workspaces" row = true →
          (workspacesPolicy db me).update row = false := by
        intro row hown
        simp only [workspacesPolicy, ownedBy_workspaces.mp hown, hadmin]
      rcases Policy.mem_run_own hupd he hw (ownedBy_workspaces.mpr hid) with hold | ⟨rfl, -⟩
      · exact hgone hold
      · -- the workspace is there, and its id is not used twice
        exact insert_workspace hws he hkeys hid
    · rw [execute_other htable hok] at hw
      exact hgone hw

/-! ## Runs -/

/-- The keys hold and the workspace is there. -/
structure Standing (db : Tables) (ws : WorkspaceId) : Prop where
  keys : keysHold db = true
  workspace : db.hasWorkspace ws

theorem TenantOp.exec_cases {P : Tables → Prop} (op : TenantOp) (hsame : P db)
    (hok : ∀ new rows, execute valid db (appCurrentUserId op.user) op.table op.command
      = .ok (new, rows) → P new) : P (op.exec valid db) := by
  unfold TenantOp.exec
  cases h : execute valid db (appCurrentUserId op.user) op.table op.command with
  | error err => exact hsame
  | ok p => exact hok p.1 p.2 h

theorem Standing.exec (h : Standing db ws) (op : TenantOp) : Standing (op.exec valid db) ws := by
  refine op.exec_cases (P := fun db => Standing db ws) h fun new rows hok => ?_
  exact ⟨execute_keys h.keys hok, hasWorkspace_step h.keys h.workspace hok⟩

theorem afterStatements_snoc (ops : List TenantOp) (op : TenantOp) :
    afterStatements valid db (ops ++ [op]) = op.exec valid (afterStatements valid db ops) := by
  simp [afterStatements, List.foldl_append]

theorem Standing.after (h : Standing db ws) (ops : List TenantOp) :
    Standing (afterStatements valid db ops) ws := by
  induction ops using List.reverseRecOn with
  | nil => exact h
  | append_singleton ops op ih =>
      rw [afterStatements_snoc]
      exact ih.exec op

/-- What a statement of a user outside the workspace leaves, and what it has touched. -/
theorem TenantOp.exec_outside (h : Standing db ws) (op : TenantOp)
    (hout : Outside db ws (appCurrentUserId op.user)) :
    (op.exec valid db).only ws = db.only ws ∧
      ∀ row ∈ op.touched valid db, tenantOf op.table row ≠ .uuid ws := by
  unfold TenantOp.exec TenantOp.touched
  cases hok : execute valid db (appCurrentUserId op.user) op.table op.command with
  | error err => exact ⟨rfl, fun row hrow => nomatch hrow⟩
  | ok p => exact execute_outside h.keys h.workspace hout hok

/-- Statements of users outside the workspace leave it as it is. -/
theorem afterStatements_only (h : Standing db ws) (ops : List TenantOp)
    (hout : ∀ pre op post, ops = pre ++ op :: post →
      Outside (afterStatements valid db pre) ws (appCurrentUserId op.user)) :
    (afterStatements valid db ops).only ws = db.only ws := by
  induction ops using List.reverseRecOn with
  | nil => rfl
  | append_singleton ops op ih =>
      rw [afterStatements_snoc, (op.exec_outside (h.after ops) (hout ops op [] rfl)).1]
      exact ih fun pre op' post hops => hout pre op' (post ++ [op]) (by rw [hops]; simp)

/-- **The tenant boundary.** In every run of statements of any users, a statement of a user outside
a workspace reads no row of it and changes none; and if a user from outside is inside in the end,
then there was a statement of an admin of the workspace that let the user in. -/
theorem tenant_boundary (valid : Tables → Bool) {db : Tables} {ws : WorkspaceId}
    (h : Standing db ws) (ops : List TenantOp) :
    (∀ pre op post, ops = pre ++ op :: post →
      Outside (afterStatements valid db pre) ws (appCurrentUserId op.user) →
      (afterStatements valid db (pre ++ [op])).only ws = (afterStatements valid db pre).only ws ∧
        ∀ row ∈ op.touched valid (afterStatements valid db pre),
          tenantOf op.table row ≠ .uuid ws) ∧
    ∀ u, Outside db ws u → ¬ Outside (afterStatements valid db ops) ws u →
      ∃ pre op post, ops = pre ++ op :: post ∧
        isWorkspaceAdmin (afterStatements valid db pre) (.uuid ws) (appCurrentUserId op.user) = true
          ∧ Outside (afterStatements valid db pre) ws u
          ∧ ¬ Outside (afterStatements valid db (pre ++ [op])) ws u := by
  constructor
  · intro pre op post _ hout
    rw [afterStatements_snoc]
    exact op.exec_outside (h.after pre) hout
  · intro u hu hin
    induction ops using List.reverseRecOn with
    | nil => exact absurd hu hin
    | append_singleton ops op ih =>
        -- the last statement lets the user in, or an earlier one has
        by_cases hlast : Outside (afterStatements valid db ops) ws u
        · refine ⟨ops, op, [], rfl, ?_, hlast, hin⟩
          by_contra hadmin
          rw [Bool.not_eq_true] at hadmin
          rw [afterStatements_snoc] at hin
          exact hin (op.exec_cases (P := fun db => Outside db ws u) hlast fun new rows hok =>
            hlast.step (h.after ops).keys (h.after ops).workspace hadmin hok)
        · obtain ⟨pre, op', post, hops, hstep⟩ := ih hlast
          exact ⟨pre, op', post ++ [op], by rw [hops]; simp, hstep⟩

/-! ### Two tenants -/

def rowOf (cells : List (String × Cell)) : TenantRow := fun column =>
  (cells.lookup column).getD .null

def membershipOf (ws : WorkspaceId) (user : UserId) (role : String) : TenantRow :=
  rowOf [("workspace_id", .uuid ws), ("user_id", .uuid user), ("role", .text role)]

/-- Workspace 1 of user 10, with content and a lead, and workspace 2 of user 20. -/
def twoTenants : Tables := fun table =>
  match table with
  | "workspaces" =>
      [rowOf [("id", .uuid 1), ("created_by", .uuid 10)],
        rowOf [("id", .uuid 2), ("created_by", .uuid 20)]]
  | "workspace_memberships" =>
      [membershipOf 1 10 "admin", membershipOf 1 11 "reviewer", membershipOf 2 20 "admin"]
  | "content_items" =>
      [rowOf [("workspace_id", .uuid 1), ("topic", .text "rain"), ("version", .int 1)]]
  | "leads" => [rowOf [("workspace_id", .uuid 1), ("name", .text "Ada")]]
  | _ => []

theorem twoTenants_standing : Standing twoTenants 1 := by
  refine ⟨by decide +kernel, ?_⟩
  have hany : ((twoTenants "workspaces").any fun w => w "id" == .uuid 1) = true := by
    decide +kernel
  obtain ⟨w, hw, hid⟩ := List.any_eq_true.mp hany
  exact ⟨w, hw, beq_iff_eq.mp hid⟩

/-- The stranger tries to take all content. -/
def grabContent : TenantOp where
  user := some 20
  table := "content_items"
  command := .update none fun row => Function.update row "workspace_id" (.uuid 2)

/-- The admin invites the stranger. -/
def inviteStranger : TenantOp where
  user := some 10
  table := "workspace_memberships"
  command := .insert (membershipOf 1 20 "reviewer")

def allValid : Tables → Bool := fun _ => true

theorem stranger_outside : Outside twoTenants 1 (.uuid 20) :=
  ⟨by decide +kernel, by decide +kernel⟩

theorem stranger_invited :
    (afterStatements allValid twoTenants [grabContent]).only 1 = twoTenants.only 1 ∧
    ∃ pre op post, [grabContent, inviteStranger] = pre ++ op :: post ∧
      isWorkspaceAdmin (afterStatements allValid twoTenants pre) (.uuid 1)
        (appCurrentUserId op.user) = true ∧
      Outside (afterStatements allValid twoTenants pre) 1 (.uuid 20) ∧
      ¬ Outside (afterStatements allValid twoTenants (pre ++ [op])) 1 (.uuid 20) := by
  obtain ⟨hsteps, hentry⟩ :=
    tenant_boundary allValid twoTenants_standing [grabContent, inviteStranger]
  refine ⟨(hsteps [] grabContent [inviteStranger] rfl stranger_outside).1, ?_⟩
  refine hentry (.uuid 20) stranger_outside fun hout => ?_
  have hin : isWorkspaceMember (afterStatements allValid twoTenants
      [grabContent, inviteStranger]) (.uuid 1) (.uuid 20) = true := by decide +kernel
  rw [hout.member] at hin
  cases hin

end HumanGate
