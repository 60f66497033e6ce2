import HumanGate.Model.Tenants

set_option autoImplicit false

/-! # Export and deletion of a workspace

`app/services/data_governance.py` and `app/api/routes/data_governance.py`, on the session of the
caller: every statement meets the policies of the tables. The catalogue of the database (which
tables are there, with which columns), the order in which a query without ORDER BY returns rows and
the texts of uuids and times are parameters.
-/

namespace HumanGate

open Lib.RowSecurity (Command)
open Lib.Calendar (Instant)

/-! ## Tables -/

def exportDenylist : List String :=
  [ "provider_credentials", "worker_credentials", "local_auth_credentials",
    "billing_webhook_events", "outbox_events", "event_consumers", "consumer_checkpoints",
    "provider_effect_keys" ]

def exportableTables : List String :=
  [ "workspaces", "workspace_memberships", "content_pillars", "content_items",
    "content_versions", "content_lineage", "pipeline_runs", "pipeline_stage_runs",
    "review_gates", "review_decisions", "publication_eligibility", "assets", "publish_jobs",
    "analytics_snapshots", "provider_usage", "spend_caps", "spend_logs", "spend_reservations",
    "workspace_billing", "workspace_content_profiles", "job_schedule",
    "workspace_concurrency_limits", "provider_concurrency_budgets",
    "workspace_backpressure_state", "stage_assignments", "stage_claim_audit",
    "stage_recovery_audit", "worker_registry", "worker_logs", "dead_letter_jobs",
    "webhook_events", "workflow_definitions", "workflow_stages", "workflow_transitions", "leads",
    "research_runs", "research_sources", "opportunities", "opportunity_evidence",
    "research_audits", "research_schedules", "strategy_runs", "strategy_briefs",
    "strategy_brief_opportunities", "strategy_audits", "strategy_schedules",
    "content_department_runs", "creative_directions", "content_packages", "content_claims",
    "content_audits", "content_audit_invalidations", "originality_fingerprints",
    "production_jobs", "production_assets", "final_artifacts", "media_qa_results",
    "production_repairs", "artifact_invalidations", "production_readiness",
    "platform_policy_sources", "artifact_rights_evidence", "audit_gate_manifests",
    "compliance_audits", "compliance_invalidations", "chief_audits", "chief_audit_invalidations",
    "human_review_packages", "artifact_publication_eligibility" ]

def structurallyUnexportableTables : List String := ["worker_heartbeats"]

def softDeletableTables : List String :=
  [ "publish_jobs", "assets", "content_items", "content_pillars" ]

def hardDeletableTables : List String :=
  [ "publication_eligibility", "leads", "job_schedule" ]

def deletableTables : List String := softDeletableTables ++ hardDeletableTables

def retainedContentHistoryTables : List String :=
  [ "content_versions", "content_lineage", "analytics_snapshots" ]

def retainedOnDelete : List String :=
  [ "spend_logs", "spend_reservations", "spend_caps", "provider_usage", "workspace_billing",
    "workspace_content_profiles", "review_gates", "review_decisions", "stage_claim_audit",
    "stage_recovery_audit", "stage_assignments", "pipeline_stage_runs", "pipeline_runs",
    "worker_logs", "worker_heartbeats", "worker_registry", "worker_credentials",
    "dead_letter_jobs", "webhook_events", "billing_webhook_events", "outbox_events",
    "workflow_definitions", "workflow_stages", "workflow_transitions",
    "workspace_concurrency_limits", "provider_concurrency_budgets",
    "workspace_backpressure_state", "provider_credentials", "workspace_memberships",
    "workspaces", "research_runs", "research_sources", "opportunities", "opportunity_evidence",
    "research_audits", "research_schedules", "strategy_runs", "strategy_briefs",
    "strategy_brief_opportunities", "strategy_audits", "strategy_schedules",
    "content_department_runs", "creative_directions", "content_packages", "content_claims",
    "content_audits", "content_audit_invalidations", "originality_fingerprints",
    "production_jobs", "production_assets", "final_artifacts", "media_qa_results",
    "production_repairs", "artifact_invalidations", "production_readiness",
    "platform_policy_sources", "artifact_rights_evidence", "audit_gate_manifests",
    "compliance_audits", "compliance_invalidations", "chief_audits", "chief_audit_invalidations",
    "human_review_packages", "artifact_publication_eligibility" ]

def exportMaxRowsPerTable : Nat := 50000

/-- What the functions find outside of the tables. -/
structure GovernanceEnv where
  valid : Tables → Bool
  /-- The tables of schema public, with their columns. -/
  schema : List (String × List String)
  /-- The order in which a query returns its rows. -/
  scan : List TenantRow → List TenantRow
  scan_perm : ∀ rows, (scan rows).Perm rows
  /-- `str` of a uuid or a time. -/
  str : Cell → String
  /-- The time of the transaction, and that of the process. -/
  now : Instant
  clock : Instant

def existingTables (env : GovernanceEnv) : List String := env.schema.map Prod.fst

def tablesWithWorkspaceColumn (env : GovernanceEnv) : List String :=
  (env.schema.filter fun t => t.2.contains "workspace_id").map Prod.fst

/-! ## Export -/

structure ExportBundle where
  workspaceId : WorkspaceId
  generatedAt : Instant
  tables : List (String × List (List (String × Cell)))
  excludedTables : List String
  exclusionReason : String
  unattributableTables : List String
  unattributableReason : String
  rowCounts : List (String × Nat)
  truncatedTables : List String
  truncationReason : Option String

/-- The part of the bundle that the loop over the tables fills. -/
structure Exported where
  tables : List (String × List (List (String × Cell))) := []
  counts : List (String × Nat) := []
  truncated : List String := []

def serialised (env : GovernanceEnv) (table : String) (row : TenantRow) : List (String × Cell) :=
  ((env.schema.lookup table).getD []).map fun column =>
    (column, match row column with
      | .uuid id => .text (env.str (.uuid id))
      | .time t => .text (env.str (.time t))
      | v => v)

/-- The rows that are read of a table, if it is read. -/
def exportedRows (env : GovernanceEnv) (db : Tables) (me : Cell) (ws : WorkspaceId)
    (table : String) : Option (List TenantRow) :=
  if table = "workspaces" then
    some (env.scan (query db me table fun row => (row "id").eq (.uuid ws)))
  else if (tablesWithWorkspaceColumn env).contains table then
    some ((env.scan (query db me table fun row => (row "workspace_id").eq (.uuid ws))).take
      (exportMaxRowsPerTable + 1))
  else none

/-- One table of the export. -/
def exportTable (env : GovernanceEnv) (db : Tables) (me : Cell) (ws : WorkspaceId)
    (acc : Exported) (table : String) : Exported :=
  if exportDenylist.contains table then acc
  else if !(existingTables env).contains table then acc
  else
    match exportedRows env db me ws table with
    | none => acc
    | some found =>
        let cut := decide (found.length > exportMaxRowsPerTable)
        let rows := if cut then found.take exportMaxRowsPerTable else found
        { tables := acc.tables ++ [(table, rows.map (serialised env table))]
          counts := acc.counts ++ [(table, rows.length)]
          truncated := if cut then acc.truncated ++ [table] else acc.truncated }

def exportWorkspace (env : GovernanceEnv) (db : Tables) (me : Cell) (ws : WorkspaceId) :
    ExportBundle :=
  let done := exportableTables.foldl (exportTable env db me ws) {}
  { workspaceId := ws
    generatedAt := env.clock
    tables := done.tables
    excludedTables := exportDenylist.mergeSort
    exclusionReason := "Excluded by policy: these tables hold credentials, credential "
      ++ "hashes, or service-only operational records and are never "
      ++ "included in a customer export."
    unattributableTables := structurallyUnexportableTables.mergeSort
    unattributableReason := "Cannot be exported: these tables have no workspace_id column, "
      ++ "so their rows cannot be attributed to one tenant."
    rowCounts := done.counts
    truncatedTables := done.truncated
    truncationReason :=
      if done.truncated.isEmpty then none
      else some ("Truncated at 50000 rows per table. Request a "
        ++ "paginated or offline export for the tables listed above.") }

/-! ## Deletion -/

structure DeletionOutcome where
  workspaceId : WorkspaceId
  executedAt : Instant
  softDeletedCounts : List (String × Nat)
  hardDeletedCounts : List (String × Nat)
  retainedContentHistory : List String
  retainedTables : List String
  retentionReason : String

inductive GovernanceError where
  | dataGovernance (code message : String)
  | http (code : Nat) (detail : String)
  | multipleResults
  | sql (error : SqlError)
  deriving DecidableEq

/-- The row after `SET deleted_at = now()`, with the trigger `set_version_and_updated_at`. -/
def tombstone (now : Instant) (row : TenantRow) : TenantRow := fun column =>
  match column with
  | "deleted_at" | "updated_at" => .time now
  | "version" =>
      match row "version" with
      | .int n => .int (n + 1)
      | v => v
  | _ => row column

/-- The tables so far, and how many rows each statement has written. -/
abbrev Deleting := Tables × List (String × Nat)

/-- One table of a loop: a statement, if the table is there and has a workspace column. -/
def deleteFrom (env : GovernanceEnv) (me : Cell) (command : Command TenantRow) (acc : Deleting)
    (table : String) : Except SqlError Deleting :=
  if !(existingTables env).contains table then .ok acc
  else if !(tablesWithWorkspaceColumn env).contains table then .ok acc
  else do
    let (new, rows) ← execute env.valid acc.1 me table command
    return (new, acc.2 ++ [(table, rows.length)])

/-- `UPDATE {table} SET deleted_at = now() WHERE workspace_id = :ws AND deleted_at IS NULL`. -/
def softDelete (env : GovernanceEnv) (ws : WorkspaceId) : Command TenantRow :=
  .update (some fun row => (row "workspace_id").eq (.uuid ws) && row "deleted_at" == .null)
    (tombstone env.now)

/-- `DELETE FROM {table} WHERE workspace_id = :ws`. -/
def hardDelete (ws : WorkspaceId) : Command TenantRow :=
  .delete (some fun row => (row "workspace_id").eq (.uuid ws))

/-- `delete_workspace_content`, with the tables that it leaves. -/
def deleteWorkspaceContent (env : GovernanceEnv) (db : Tables) (me : Cell)
    (ws confirm : WorkspaceId) : Except GovernanceError (Tables × DeletionOutcome) := do
  if confirm ≠ ws then
    throw (.dataGovernance "confirmation_mismatch"
      "deletion confirmation does not match the target workspace")
  let (db, soft) ← (softDeletableTables.foldlM (deleteFrom env me (softDelete env ws))
    (db, [])).mapError .sql
  let (db, hard) ← (hardDeletableTables.foldlM (deleteFrom env me (hardDelete ws))
    (db, [])).mapError .sql
  return (db,
    { workspaceId := ws
      executedAt := env.clock
      softDeletedCounts := soft
      hardDeletedCounts := hard
      retainedContentHistory := retainedContentHistoryTables
      retainedTables := retainedOnDelete
      retentionReason := "Content is withdrawn by tombstone where the schema is "
        ++ "append-only, and financial, review, security and audit records "
        ++ "are retained: deleting them would destroy the evidence of what "
        ++ "was executed. Physical erasure of retained classes requires an "
        ++ "approved retention schedule and legal basis." })

/-! ## Routes -/

/-- `require_workspace_admin`. -/
def requireWorkspaceAdmin (db : Tables) (me : Cell) (ws : WorkspaceId) :
    Except GovernanceError Unit :=
  match query db me "workspace_memberships" fun m =>
      (m "workspace_id").eq (.uuid ws) && (m "user_id").eq me with
  | [] => .error (.http 403 "not a member of this workspace")
  | [m] => if m "role" = .text "admin" then .ok () else .error (.http 403 "requires one of: admin")
  | _ => .error .multipleResults

/-- `export_workspace_data`. -/
def exportWorkspaceData (env : GovernanceEnv) (db : Tables) (user : UserId) (ws : WorkspaceId) :
    Except GovernanceError ExportBundle := do
  requireWorkspaceAdmin db (.uuid user) ws
  return exportWorkspace env db (.uuid user) ws

/-- `request_workspace_deletion`: what is committed, with the answer. -/
def requestWorkspaceDeletion (env : GovernanceEnv) (db : Tables) (user : UserId)
    (ws confirm : WorkspaceId) : Except GovernanceError (Tables × DeletionOutcome) := do
  requireWorkspaceAdmin db (.uuid user) ws
  match deleteWorkspaceContent env db (.uuid user) ws confirm with
  | .error (.dataGovernance _ message) => throw (.http 400 message)
  | result => result

end HumanGate
