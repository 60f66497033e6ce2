import HumanGate.Model.Operations

set_option autoImplicit false

/-! # Handing out work under READ COMMITTED

`claim_assignment` and `dispatch_stage`, statement by statement. Each `SELECT` sees what is
committed when it starts; what a transaction writes is seen by the others when it commits. A
claim locks the row it picked, and other claims skip it. `has_provider_capacity` locks the budget
row, waits for it if another transaction has it, and counts. `dispatch_stage` counts the
assignments of the workspace without a lock.

The last statement of a transaction stands for all that follows the checks, down to the commit.
Operations other than these two are single steps here.
-/

namespace HumanGate

open Lib Lib.Calendar

/-! ## Transactions -/

/-- How far a claim is. From `picked` on it has locked the row, from `locked` on the budget row
too, if there is one. -/
inductive ClaimStep where
  | begun
  | scanning
  | picked (aid : AssignmentId) (a : StageAssignment)
  | locked (aid : AssignmentId) (a : StageAssignment)
  | admitted (aid : AssignmentId) (a : StageAssignment)
  | ended

/-- How far a dispatch is. `counted`: the workspace had room. `cleared`: the answer of
`has_provider_capacity`. -/
inductive DispatchStep where
  | begun
  | counted
  | locked
  | cleared (providerOk : Bool)
  | ended

structure ClaimRequest where
  wid : WorkerId
  token : Option ClaimToken := none
  requestWorkspaceId : Option WorkspaceId := none

/-- The job that a dispatch is for, and the random draw of its backoff. -/
structure LeasedWork where
  jid : JobId
  job : JobSchedule
  jitter : Nat

/-- A call of `dispatch_stage`, by `process_leased_job` if there is a job. -/
structure DispatchRequest where
  args : DispatchArgs
  work : Option LeasedWork := none

inductive HandOutTxn where
  | claim (req : ClaimRequest) (step : ClaimStep)
  | dispatch (req : DispatchRequest) (step : DispatchStep)

/-- The budget row that `has_provider_capacity` locks. -/
def budgetKey (cfg : Config) (ws : WorkspaceId) (provider : Option String) :
    Option (WorkspaceId × String) :=
  provider.bind fun p => if p = "" ∨ (cfg.providerBudget ws p).isNone then none else some (ws, p)

/-- The assignment a transaction has locked. -/
def HandOutTxn.lockedRow : HandOutTxn → Option AssignmentId
  | .claim _ (.picked aid _) | .claim _ (.locked aid _) | .claim _ (.admitted aid _) => some aid
  | _ => none

/-- The budget row a transaction has locked. -/
def HandOutTxn.holds (cfg : Config) : HandOutTxn → Option (WorkspaceId × String)
  | .claim _ (.locked _ a) | .claim _ (.admitted _ a) => budgetKey cfg a.workspaceId a.provider
  | .dispatch req .locked | .dispatch req (.cleared _) =>
      budgetKey cfg req.args.workspaceId req.args.provider
  | _ => none

/-- The budget row that the next statement of a transaction locks. -/
def HandOutTxn.wants (cfg : Config) (s : Db) : HandOutTxn → Option (WorkspaceId × String)
  | .claim _ (.picked _ a) => budgetKey cfg a.workspaceId a.provider
  | .dispatch req .counted =>
      match runRefusal s.runs[req.args.pipelineRunId]? with
      | some _ => none
      | none => budgetKey cfg req.args.workspaceId req.args.provider
  | _ => none

/-! ## Statements -/

/-- The next statement of a claim. `taken` are the rows that other claims have locked. An
exception rolls the transaction back. -/
def claimNext (cfg : Config) (s : Db) (now : Instant) (taken rows : List AssignmentId)
    (req : ClaimRequest) : ClaimStep → Db × ClaimStep
  | .begun =>
      match s.workers[req.wid]? with
      | none => (s, .ended)
      | some w =>
          match req.token.elim [] (heldUnder s req.wid w) with
          | _ :: _ :: _ => (s, .ended)
          | [aid] =>
              ((recordClaim s req.wid w .granted "idempotent replay"
                ((s.assignments[aid]?).map fun a => (aid, a)) req.requestWorkspaceId).flush, .ended)
          | [] =>
              match claimRefusal cfg w now with
              | some (outcome, reason) =>
                  ((claimNothing s req.wid w req.requestWorkspaceId outcome reason).db.flush,
                    .ended)
              | none => (s, .scanning)
  | .scanning =>
      match s.workers[req.wid]? with
      | none => (s, .ended)
      | some w =>
          match w.supportedStages.find? fun t => (ContentStage.ofText? t).isNone with
          | some _ => (s, .ended)
          | none =>
              match claimCandidate cfg s now w (rows.filter fun aid => !taken.contains aid) with
              | some (aid, a) => (s, .picked aid a)
              | none =>
                  let nothing := claimNothing s req.wid w req.requestWorkspaceId
                  -- the second query, without the budget, tells the two refusals apart
                  if s.assignments.any (claimable w) then
                    ((nothing .capacity "provider budget exhausted").db.flush, .ended)
                  else ((nothing .noWork "no eligible assignment").db.flush, .ended)
  | .picked aid a =>
      match budgetKey cfg a.workspaceId a.provider with
      | none => (s, .admitted aid a)
      | some _ => (s, .locked aid a)
  | .locked aid a =>
      if hasProviderCapacity cfg s a.workspaceId a.provider then (s, .admitted aid a)
      -- the budget filled up while the claim waited for the lock
      else (s, .scanning)
  | .admitted aid a =>
      match s.workers[req.wid]? with
      | none => (s, .ended)
      | some w =>
          match claimWithSpend cfg s now req.wid w aid a req.token req.requestWorkspaceId with
          | .error _ => (s, .ended)
          | .ok r => (r.db.flush, .ended)
  | .ended => (s, .ended)

/-- The end of a dispatch: its job is settled, and the transaction commits. -/
def DispatchRequest.finish (req : DispatchRequest) (s : Db) (now : Instant) (after : Db)
    (outcome : DispatchOutcome) : Db :=
  match req.work with
  | none => after.flush
  | some work =>
      match settleJob after now work.jid work.job req.args.pipelineRunId work.jitter outcome with
      -- what raises rolls the whole dispatch back
      | .error _ => s
      | .ok s' => s'.flush

/-- The next statement of a dispatch; `rows` is the order in which the workers are scanned. -/
def dispatchNext (cfg : Config) (s : Db) (now : Instant) (rows : List WorkerId)
    (req : DispatchRequest) : DispatchStep → Db × DispatchStep
  | .begun =>
      if maxConcurrentAssignments cfg req.args.workspaceId
        ≤ inFlightCount s req.args.workspaceId then
        (req.finish s now s .backpressure, .ended)
      else (s, .counted)
  | .counted =>
      match runRefusal s.runs[req.args.pipelineRunId]? with
      | some outcome => (req.finish s now s outcome, .ended)
      | none =>
          match budgetKey cfg req.args.workspaceId req.args.provider with
          | none => (s, .cleared true)
          | some _ => (s, .locked)
  | .locked => (s, .cleared (hasProviderCapacity cfg s req.args.workspaceId req.args.provider))
  | .cleared providerOk =>
      match assignmentByKey s req.args.workspaceId req.args.key with
      | some _ => (req.finish s now s .idempotent, .ended)
      | none =>
          match assignStage cfg s now req.args
              (if providerOk then (selectWorker s req.args.stage rows).map Prod.fst else none) with
          | .error _ => (s, .ended)
          | .ok (s', outcome) => (req.finish s now s' outcome, .ended)
  | .ended => (s, .ended)

/-- The next statement of a transaction. -/
def HandOutTxn.next (cfg : Config) (s : Db) (now : Instant) (taken : List AssignmentId)
    (rows : List Nat) : HandOutTxn → Db × HandOutTxn
  | .claim req step =>
      let r := claimNext cfg s now taken rows req step
      (r.1, .claim req r.2)
  | .dispatch req step =>
      let r := dispatchNext cfg s now rows req step
      (r.1, .dispatch req r.2)

/-! ## Interleavings -/

/-- What is committed, and the transactions. -/
structure HandOutState where
  db : Db
  txns : List HandOutTxn := []

inductive HandOutAction where
  | beginClaim (req : ClaimRequest)
  | beginDispatch (args : DispatchArgs)
  | beginJob (jid : JobId) (jitter : Nat)
  | statement (i : Nat) (rows : List Nat)
  | op (action : Action)

structure HandOutOp where
  now : Instant
  action : HandOutAction

/-- The rows that transactions have locked. -/
def HandOutState.taken (s : HandOutState) : List AssignmentId :=
  s.txns.filterMap HandOutTxn.lockedRow

/-- The transaction of a leased job; a job that is not work has none. -/
def jobTxn (s : Db) (jid : JobId) (jitter : Nat) : Option HandOutTxn :=
  match s.jobs[jid]? with
  | none => none
  | some job =>
      match job.refId with
      | .run rid =>
          if job.isWork then
            some (.dispatch ⟨job.dispatchArgs rid, some ⟨jid, job, jitter⟩⟩ .begun)
          else none
      | .gate _ => none

def handOutExec (cfg : Config) (s : HandOutState) (o : HandOutOp) : HandOutState :=
  match o.action with
  | .beginClaim req => { s with txns := s.txns ++ [.claim req .begun] }
  | .beginDispatch args => { s with txns := s.txns ++ [.dispatch ⟨args, none⟩ .begun] }
  | .beginJob jid jitter =>
      match jobTxn s.db jid jitter with
      | none => s
      | some t => { s with txns := s.txns ++ [t] }
  | .statement i rows =>
      match s.txns[i]? with
      | none => s
      | some t =>
          let r := t.next cfg s.db o.now s.taken rows
          { db := r.1, txns := s.txns.modify i fun _ => r.2 }
  | .op action => { s with db := exec cfg s.db ⟨o.now, action⟩ }

/-- The operations that are single steps: those that hand nothing out, and acknowledgements that
name their worker. -/
def Action.isSingle (s : Db) : Action → Bool
  | .claimAssignment .. | .dispatchStage .. | .acknowledge _ _ none => false
  | .processLeasedJob jid .. => (jobTxn s jid 0).isNone
  | _ => true

/-- A transaction waits for the budget row while another has it locked. -/
def handOutAllowed (cfg : Config) (s : HandOutState) : HandOutAction → Prop
  | .statement i _ => ∀ t ∈ s.txns[i]?, ∀ key ∈ t.wants cfg s.db,
      ∀ u ∈ s.txns, u.holds cfg ≠ some key
  | .op action => action.isSingle s.db = true
  | _ => True

/-- Any number of claims and dispatches, interleaved with each other and with every other
operation; from a database in which nothing has been orchestrated yet. -/
def handOuts (cfg : Config) : System HandOutState HandOutOp where
  init s := Fresh s.db ∧ s.txns = []
  allowed s o := handOutAllowed cfg s o.action
  exec := handOutExec cfg

end HumanGate
