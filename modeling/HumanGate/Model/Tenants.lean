import HumanGate.Lib.RowSecurity
import HumanGate.Lib.Calendar
import HumanGate.Model.Data

set_option autoImplicit false

/-! # The tenant boundary of the database

Row level security as the migrations leave it (0001 to 0059): the policies of `workspaces`,
`workspace_memberships`, `profiles` and of the tables with a workspace, and the statements of a
session of the role `app_runtime` for the user that `request.jwt.claim.sub` names. A query inside a
policy is a query of the user too, and only sees what the user may select; the functions with
SECURITY DEFINER see every row.
-/

namespace HumanGate

open Lib.RowSecurity (Policy Command)
open Lib.Calendar (Instant)

/-- The value of a column. -/
inductive Cell where
  | null
  | uuid (id : Nat)
  | time (t : Instant)
  | text (s : String)
  | int (n : Int)
  deriving DecidableEq

/-- `=` of SQL, which is not true of a null. -/
def Cell.eq (a b : Cell) : Bool := a != .null && a == b

abbrev TenantRow := String → Cell

/-- The rows of the tables, by the name of the table. -/
abbrev Tables := String → List TenantRow

/-- `app_current_user_id()`: null where the setting is missing. -/
def appCurrentUserId (sub : Option UserId) : Cell := sub.elim .null .uuid

section Functions

variable (db : Tables)

/-- `is_workspace_member(wsid, uid)`. -/
def isWorkspaceMember (wsid uid : Cell) : Bool :=
  (db "workspace_memberships").any fun m => (m "workspace_id").eq wsid && (m "user_id").eq uid

/-- `is_workspace_admin(wsid, uid)`. -/
def isWorkspaceAdmin (wsid uid : Cell) : Bool :=
  (db "workspace_memberships").any fun m =>
    (m "workspace_id").eq wsid && (m "user_id").eq uid && (m "role").eq (.text "admin")

/-- `is_workspace_creator(wsid, uid)`. -/
def isWorkspaceCreator (wsid uid : Cell) : Bool :=
  (db "workspaces").any fun w => (w "id").eq wsid && (w "created_by").eq uid

/-- The memberships that a query of the user `me` sees (`memberships_select_same_workspace`). -/
def visibleMemberships (me : Cell) : List TenantRow :=
  (db "workspace_memberships").filter fun m => isWorkspaceMember db (m "workspace_id") me

/-- `app_user_has_workspace_role(workspace_id, roles)`. -/
def appUserHasWorkspaceRole (me workspaceId : Cell) (roles : List String) : Bool :=
  (visibleMemberships db me).any fun m =>
    (m "workspace_id").eq workspaceId && (m "user_id").eq me
      && roles.any fun role => (m "role").eq (.text role)

end Functions

/-! ## Policies -/

/-- The roles that the policies of a table name for each command; without a policy there are none.
`tombstones` are the roles that see rows with `deleted_at`, where the table tells them apart. -/
structure TablePolicy where
  select : List String := []
  tombstones : Option (List String) := none
  insert : List String := []
  update : List String := []
  delete : List String := []

def allRoles : List String := ["admin", "editor", "reviewer"]
def editRoles : List String := ["admin", "editor"]
def attestRoles : List String := ["admin", "reviewer"]
def adminRole : List String := ["admin"]

/-- The tables whose policies only name roles, with their policies. -/
def tablePolicies : List (List String × TablePolicy) :=
  [ (["content_pillars", "content_items", "assets", "publish_jobs"],
      { select := allRoles, tombstones := some editRoles, insert := editRoles,
        update := editRoles }),
    (["leads"],
      { select := allRoles, insert := editRoles, update := editRoles, delete := adminRole }),
    (["publication_eligibility"],
      { select := allRoles, insert := attestRoles, update := attestRoles, delete := adminRole }),
    (["job_schedule"],
      { select := editRoles, insert := allRoles, update := editRoles, delete := adminRole }),
    (["provider_credentials"],
      { select := adminRole, insert := adminRole, update := adminRole, delete := adminRole }),
    (["content_versions", "content_lineage", "spend_logs", "workflow_stages",
      "workflow_transitions", "research_sources", "opportunity_evidence", "research_audits",
      "strategy_brief_opportunities", "strategy_audits", "creative_directions", "content_audits",
      "content_audit_invalidations", "originality_fingerprints", "production_assets",
      "final_artifacts", "media_qa_results", "production_repairs", "artifact_invalidations",
      "platform_policy_sources", "artifact_rights_evidence", "audit_gate_manifests",
      "compliance_audits", "compliance_invalidations", "chief_audits",
      "chief_audit_invalidations", "human_review_packages"],
      { select := allRoles, insert := editRoles }),
    (["workflow_definitions", "research_runs", "opportunities", "research_schedules",
      "strategy_runs", "strategy_briefs", "strategy_schedules", "content_department_runs",
      "content_packages", "content_claims", "production_jobs", "production_readiness",
      "artifact_publication_eligibility", "workspace_content_profiles"],
      { select := allRoles, insert := editRoles, update := editRoles }),
    (["pipeline_runs", "spend_reservations"],
      { select := allRoles, insert := editRoles, update := allRoles }),
    (["review_gates"], { select := allRoles, insert := allRoles, update := allRoles }),
    (["review_decisions"], { select := allRoles, insert := attestRoles }),
    (["outbox_events"], { select := editRoles, insert := allRoles, update := allRoles }),
    (["dead_letter_jobs"],
      { select := editRoles, insert := attestRoles, update := adminRole }),
    (["spend_caps"], { select := allRoles, insert := adminRole, update := editRoles }),
    (["workspace_billing"], { select := allRoles, insert := adminRole, update := adminRole }),
    (["workspace_concurrency_limits"],
      { select := editRoles, insert := adminRole, update := adminRole }),
    (["stage_assignments"], { select := allRoles, update := adminRole }),
    (["worker_credentials"], { select := adminRole, update := adminRole }),
    (["webhook_events"], { select := editRoles }),
    (["worker_logs", "billing_webhook_events"], { select := adminRole }),
    (["pipeline_stage_runs", "analytics_snapshots", "provider_usage", "stage_claim_audit",
      "provider_effect_keys", "workspace_backpressure_state", "provider_concurrency_budgets"],
      { select := allRoles }) ]

def tablePolicy (table : String) : TablePolicy :=
  ((tablePolicies.find? fun entry => entry.1.contains table).map Prod.snd).getD {}

/-- The policies of a table that only name roles, for the user `me`. -/
def TablePolicy.policy (t : TablePolicy) (db : Tables) (me : Cell) : Policy TenantRow :=
  let has := fun (row : TenantRow) => appUserHasWorkspaceRole db me (row "workspace_id")
  { select := fun row =>
      match t.tombstones with
      | none => has row t.select
      | some writers => if row "deleted_at" = .null then has row t.select else has row writers
    insert := fun row => has row t.insert
    update := fun row => has row t.update
    delete := fun row => has row t.delete }

section OtherPolicies

variable (db : Tables) (me : Cell)

def workspacesPolicy : Policy TenantRow where
  select row := isWorkspaceMember db (row "id") me
  insert row := (row "created_by").eq me
  update row := isWorkspaceAdmin db (row "id") me
  delete _ := false

def membershipsPolicy : Policy TenantRow where
  select row := isWorkspaceMember db (row "workspace_id") me
  -- the query for other memberships is not SECURITY DEFINER: it sees what `me` may select
  insert row :=
    isWorkspaceAdmin db (row "workspace_id") me
      || ((row "user_id").eq me && (row "role").eq (.text "admin")
          && isWorkspaceCreator db (row "workspace_id") me
          && !(visibleMemberships db me).any fun m => (m "workspace_id").eq (row "workspace_id"))
  update row := isWorkspaceAdmin db (row "workspace_id") me
  delete row := isWorkspaceAdmin db (row "workspace_id") me || (row "user_id").eq me

def workerRegistryPolicy : Policy TenantRow where
  select row := row "workspace_id" == .null || isWorkspaceMember db (row "workspace_id") me
  insert _ := false
  update row := appUserHasWorkspaceRole db me (row "workspace_id") adminRole
  delete _ := false

def stageRecoveryAuditPolicy : Policy TenantRow where
  select row := appUserHasWorkspaceRole db me (row "workspace_id") allRoles
  insert row :=
    appUserHasWorkspaceRole db me (row "workspace_id") adminRole
      && (db "stage_assignments").any fun sa =>
        appUserHasWorkspaceRole db me (sa "workspace_id") allRoles
          && (sa "id").eq (row "assignment_id") && (sa "workspace_id").eq (row "workspace_id")
  update _ := false
  delete _ := false

def profilesPolicy : Policy TenantRow where
  select row :=
    (row "id").eq me
      || (visibleMemberships db me).any fun caller =>
        (caller "user_id").eq me
          && (visibleMemberships db me).any fun target =>
            (target "workspace_id").eq (caller "workspace_id")
              && (target "user_id").eq (row "id")
  insert row := (row "id").eq me
  update row := (row "id").eq me
  delete _ := false

/-- The policies of a table, for the user `me`. Tables without a workspace are left out, as if
nothing were allowed on them: `event_consumers`, `consumer_checkpoints`, `request_rate_limits` and
`automation_leases` have no row level security, and the rows of `worker_heartbeats` can be selected
by the admins of the worker's workspace. -/
def policyOf (table : String) : Policy TenantRow :=
  match table with
  | "workspaces" => workspacesPolicy db me
  | "workspace_memberships" => membershipsPolicy db me
  | "worker_registry" => workerRegistryPolicy db me
  | "stage_recovery_audit" => stageRecoveryAuditPolicy db me
  | "profiles" => profilesPolicy db me
  | _ => (tablePolicy table).policy db me

end OtherPolicies

/-! ## Statements -/

inductive SqlError where
  /-- `new row violates row-level security policy for table` -/
  | policy (table : String)
  /-- A constraint of a table is violated. -/
  | integrity
  deriving DecidableEq

/-- The keys of the two tables that the policies read: the primary key of `workspaces`, the unique
key of `workspace_memberships` and its reference to the workspace. -/
def keysHold (db : Tables) : Bool :=
  decide ((db "workspaces").map fun w => w "id").Nodup
    && decide ((db "workspace_memberships").map fun m => (m "workspace_id", m "user_id")).Nodup
    && (db "workspace_memberships").all fun m =>
      (db "workspaces").any fun w => (w "id").eq (m "workspace_id")

/-- The rows that a query of the user `me` returns. -/
def query (db : Tables) (me : Cell) (table : String) (cond : TenantRow → Bool) : List TenantRow :=
  (db table).filter fun row => (policyOf db me table).select row && cond row

/-- A statement of the user `me`, with the rows that it has read or written. `valid` says which
tables meet the other constraints. -/
def execute (valid : Tables → Bool) (db : Tables) (me : Cell) (table : String)
    (command : Command TenantRow) : Except SqlError (Tables × List TenantRow) :=
  match (policyOf db me table).run (db table) command with
  | none => .error (.policy table)
  | some effect =>
      let new : Tables := Function.update db table effect.rows
      if command.isSelect || (keysHold new && valid new) then .ok (new, effect.touched)
      else .error .integrity

/-- A statement, with the user of its session. -/
structure TenantOp where
  user : Option UserId
  table : String
  command : Command TenantRow

/-- What is there after a statement: a statement that fails changes nothing. -/
def TenantOp.exec (valid : Tables → Bool) (db : Tables) (op : TenantOp) : Tables :=
  match execute valid db (appCurrentUserId op.user) op.table op.command with
  | .ok (new, _) => new
  | .error _ => db

/-- The rows that a statement has read or written. -/
def TenantOp.touched (valid : Tables → Bool) (db : Tables) (op : TenantOp) : List TenantRow :=
  match execute valid db (appCurrentUserId op.user) op.table op.command with
  | .ok (_, rows) => rows
  | .error _ => []

/-- The tables after statements of any users, one after the other. -/
def afterStatements (valid : Tables → Bool) (db : Tables) (ops : List TenantOp) : Tables :=
  ops.foldl (TenantOp.exec valid) db

/-- The workspace that a row belongs to; a profile belongs to none. -/
def tenantOf (table : String) (row : TenantRow) : Cell :=
  match table with
  | "workspaces" => row "id"
  | "profiles" => .null
  | _ => row "workspace_id"

/-- The rows of one workspace. -/
def Tables.only (db : Tables) (ws : WorkspaceId) : Tables :=
  fun table => (db table).filter fun row => tenantOf table row == .uuid ws

end HumanGate
