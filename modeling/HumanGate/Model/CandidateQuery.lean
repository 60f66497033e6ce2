import HumanGate.Lib.Sql
import HumanGate.Model.Claiming

set_option autoImplicit false

/-! # The candidate query as SQL

The conditions and the order that `claim_assignment` puts into its query (`claiming.py`,
`priority.py`), with the budgets as rows and NULL as SQL has it.
-/

namespace HumanGate

open Lib Lib.Calendar Lib.Sql

/-- A row of `provider_concurrency_budgets`. -/
structure ProviderConcurrencyBudget where
  workspaceId : WorkspaceId
  provider : String
  maxConcurrent : Nat
  deriving DecidableEq

/-- The table. `(workspace_id, provider)` is unique. -/
structure ProviderBudgets where
  rows : List ProviderConcurrencyBudget
  unique : (rows.map fun b => (b.workspaceId, b.provider)).Nodup

/-- `lock_budget`. -/
def ProviderBudgets.lockBudget (budgets : ProviderBudgets) (ws : WorkspaceId) (provider : String) :
    Option ProviderConcurrencyBudget :=
  budgets.rows.find? fun b => b.workspaceId == ws && b.provider == provider

/-- The configuration with these budgets. -/
def Config.withBudgets (cfg : Config) (budgets : ProviderBudgets) : Config :=
  { cfg with
    providerBudget := fun ws provider =>
      (budgets.lockBudget ws provider).map ProviderConcurrencyBudget.maxConcurrent }

/-- The subquery of `_saturated_provider_pair`: the assignments in flight of the same workspace and
provider. -/
def inflightExpr (s : Db) (a : StageAssignment) : Nat :=
  (keep (fun x => both (some (x.workspaceId == a.workspaceId))
    (both (compare (fun p q => p == q) x.provider a.provider) (some x.status.inFlight)))
    s.assignments).length

/-- `_saturated_provider_pair`. -/
def saturatedProviderPairExpr (budgets : ProviderBudgets) (s : Db) (a : StageAssignment) : Truth :=
  both (isNotNull a.provider)
    (both (compare (fun p q => p != q) a.provider (some ""))
      (anyRow (fun b => both (some (b.workspaceId == a.workspaceId))
        (both (compare (fun p q => p == q) (some b.provider) a.provider)
          (some (decide (b.maxConcurrent ≤ inflightExpr s a)))))
        budgets.rows))

/-- `extract(epoch FROM now - created_at)`. -/
def epoch (createdAt now : Instant) : ℚ := ((now : ℚ) - createdAt) / microsPerSecond

/-- `effective_priority_expr`. -/
def effectivePriorityExpr (cfg : Config) (priority : Int) (createdAt now : Instant) : Int :=
  let age := max 0 (epoch createdAt now)
  if cfg.settings.assignmentAgeBoostIntervalSeconds = 0 then priority
  else
    priority + min (cfg.settings.assignmentAgeBoostMax : Int)
      (⌊age / cfg.settings.assignmentAgeBoostIntervalSeconds⌋
        * cfg.settings.assignmentAgeBoostPerInterval)

/-- `effective.desc(), created_at.asc()`. -/
def candidateLe (cfg : Config) (now : Instant) (a b : StageAssignment) : Bool :=
  let ea := effectivePriorityExpr cfg a.priority a.createdAt now
  let eb := effectivePriorityExpr cfg b.priority b.createdAt now
  decide (eb < ea) || (ea == eb && decide (a.createdAt ≤ b.createdAt))

/-- `base_where`. -/
def baseWhere (w : WorkerRegistration) (a : StageAssignment) : Truth :=
  both (some (a.status == .pending))
    (both (some (w.supportedStages.contains a.stage.value))
      (some (w.workspaceId.all fun pin => a.workspaceId == pin)))

/-- The candidate query. -/
def candidateQuery (cfg : Config) (budgets : ProviderBudgets) (s : Db) (now : Instant)
    (w : WorkerRegistration) (rows : List AssignmentId) : Option (AssignmentId × StageAssignment) :=
  ((keep (fun p => both (baseWhere w p.2) (negate (saturatedProviderPairExpr budgets s p.2)))
      (assignmentRows s rows)).insertionSort
    fun a b => candidateLe cfg now a.2 b.2 = true).head?

end HumanGate
