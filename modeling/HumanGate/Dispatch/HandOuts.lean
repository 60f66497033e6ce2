import HumanGate.Fleet.Moves
import HumanGate.Model.HandOut

set_option autoImplicit false

/-! # What a statement does

A claim or a dispatch whose statements nothing interrupts is `claim_assignment` or
`dispatch_stage` (`run_claim`, `run_dispatch`). Of a single statement, `next_crew` says what it
does to the assignments: it hands an assignment to a worker, as the last statement of its
transaction, or it hands out nothing.
-/

namespace HumanGate

open Lib Lib.Calendar Relation

variable {cfg : Config} {now : Instant}

/-! ## Without interruption -/

/-- The statements of a transaction, one after the other. -/
def HandOutTxn.run (cfg : Config) (now : Instant) (rows : List Nat) : Nat → HandOutTxn → Db →
    Db × HandOutTxn
  | 0, t, s => (s, t)
  | n + 1, t, s => run cfg now rows n (t.next cfg s now [] rows).2 (t.next cfg s now [] rows).1

theorem run_claim_ended (req : ClaimRequest) (s : Db) (rows : List Nat) (n : Nat) :
    HandOutTxn.run cfg now rows n (.claim req .ended) s = (s, .claim req .ended) := by
  induction n with
  | zero => rfl
  | succ n ih => exact ih

theorem run_dispatch_ended (req : DispatchRequest) (s : Db) (rows : List Nat) (n : Nat) :
    HandOutTxn.run cfg now rows n (.dispatch req .ended) s = (s, .dispatch req .ended) := by
  induction n with
  | zero => rfl
  | succ n ih => exact ih

theorem run_claim_step {req : ClaimRequest} {s s' : Db} {rows : List Nat} {step step' : ClaimStep}
    (h : claimNext cfg s now [] rows req step = (s', step')) (n : Nat) :
    HandOutTxn.run cfg now rows (n + 1) (.claim req step) s
      = HandOutTxn.run cfg now rows n (.claim req step') s' := by
  show HandOutTxn.run cfg now rows n (.claim req (claimNext cfg s now [] rows req step).2)
    (claimNext cfg s now [] rows req step).1 = _
  rw [h]

theorem run_dispatch_step {req : DispatchRequest} {s s' : Db} {rows : List Nat}
    {step step' : DispatchStep} (h : dispatchNext cfg s now rows req step = (s', step')) (n : Nat) :
    HandOutTxn.run cfg now rows (n + 1) (.dispatch req step) s
      = HandOutTxn.run cfg now rows n (.dispatch req step') s' := by
  show HandOutTxn.run cfg now rows n (.dispatch req (dispatchNext cfg s now rows req step).2)
    (dispatchNext cfg s now rows req step).1 = _
  rw [h]

/-- The budget row is there exactly if `has_provider_capacity` has something to count. -/
theorem hasProviderCapacity_of_budgetKey {s : Db} {ws : WorkspaceId} {provider : Option String}
    (h : budgetKey cfg ws provider = none) : hasProviderCapacity cfg s ws provider = true := by
  cases provider with
  | none => rfl
  | some p =>
      unfold budgetKey at h
      rw [Option.bind_some] at h
      split_ifs at h with hcond
      simp only [hasProviderCapacity]
      rcases hcond with hblank | hnone
      · rw [if_pos hblank]
      · rw [Option.isNone_iff_eq_none.mp hnone]
        split <;> rfl

/-- What a claim leaves, when nothing interrupts it. -/
def committed {α : Type} (s : Db) (db : α → Db) : Except Err α → Db
  | .error _ => s
  | .ok r => (db r).flush

/-- The last statement of a claim. -/
theorem run_claim_admitted {req : ClaimRequest} {s : Db} {rows : List Nat}
    {w : WorkerRegistration} (hw : s.workers[req.wid]? = some w) (aid : AssignmentId)
    (a : StageAssignment) (n : Nat) :
    (HandOutTxn.run cfg now rows (n + 1) (.claim req (.admitted aid a)) s).1
      = committed s ClaimResult.db
        (claimWithSpend cfg s now req.wid w aid a req.token req.requestWorkspaceId) := by
  have hstep : claimNext cfg s now [] rows req (.admitted aid a) = (committed s ClaimResult.db
      (claimWithSpend cfg s now req.wid w aid a req.token req.requestWorkspaceId), .ended) := by
    simp only [claimNext, hw]
    cases claimWithSpend cfg s now req.wid w aid a req.token req.requestWorkspaceId <;> rfl
  rw [run_claim_step hstep, run_claim_ended]

/-- From its candidate on. -/
theorem run_claim_picked {req : ClaimRequest} {s : Db} {rows : List Nat} {w : WorkerRegistration}
    (hw : s.workers[req.wid]? = some w) {aid : AssignmentId} {a : StageAssignment}
    (hcap : hasProviderCapacity cfg s a.workspaceId a.provider = true) :
    (HandOutTxn.run cfg now rows 3 (.claim req (.picked aid a)) s).1
      = committed s ClaimResult.db
        (claimWithSpend cfg s now req.wid w aid a req.token req.requestWorkspaceId) := by
  cases hkey : budgetKey cfg a.workspaceId a.provider with
  | none =>
      have hstep : claimNext cfg s now [] rows req (.picked aid a) = (s, .admitted aid a) := by
        simp only [claimNext, hkey]
      rw [run_claim_step hstep]
      exact run_claim_admitted hw aid a 1
  | some key =>
      have hstep : claimNext cfg s now [] rows req (.picked aid a) = (s, .locked aid a) := by
        simp only [claimNext, hkey]
      have hstep' : claimNext cfg s now [] rows req (.locked aid a) = (s, .admitted aid a) := by
        simp only [claimNext, hcap, if_true]
      rw [run_claim_step hstep, run_claim_step hstep']
      exact run_claim_admitted hw aid a 0

/-- From the scan for a candidate on. -/
theorem run_claim_scanning {req : ClaimRequest} {s : Db} {rows : List Nat}
    {w : WorkerRegistration} (hw : s.workers[req.wid]? = some w)
    (hrefusal : claimRefusal cfg w now = none) :
    (HandOutTxn.run cfg now rows 4 (.claim req .scanning) s).1
      = committed s ClaimResult.db
        (claimFresh cfg s now req.wid w req.token req.requestWorkspaceId rows) := by
  have hall : rows.filter (fun aid => !([] : List AssignmentId).contains aid) = rows := by
    simp
  unfold claimFresh
  rw [hrefusal]
  cases hstages : w.supportedStages.find? fun t => (ContentStage.ofText? t).isNone with
  | some text =>
      have hstep : claimNext cfg s now [] rows req .scanning = (s, .ended) := by
        simp only [claimNext, hw, hstages]
      rw [run_claim_step hstep, run_claim_ended]
      rfl
  | none =>
      cases hcand : claimCandidate cfg s now w rows with
      | some c =>
          obtain ⟨aid, a⟩ := c
          have hstep : claimNext cfg s now [] rows req .scanning = (s, .picked aid a) := by
            simp only [claimNext, hw, hstages, hall, hcand]
          rw [run_claim_step hstep]
          exact run_claim_picked hw (claimCandidate_spec hcand).2.2
      | none =>
          by_cases hany : s.assignments.any (claimable w) = true
          · have hstep : claimNext cfg s now [] rows req .scanning = ((claimNothing s req.wid w
                req.requestWorkspaceId .capacity "provider budget exhausted").db.flush,
                .ended) := by
              simp only [claimNext, hw, hstages, hall, hcand, hany, if_true]
            rw [run_claim_step hstep, run_claim_ended]
            simp only [hany, if_true]
            rfl
          · have hstep : claimNext cfg s now [] rows req .scanning = ((claimNothing s req.wid w
                req.requestWorkspaceId .noWork "no eligible assignment").db.flush, .ended) := by
              simp only [claimNext, hw, hstages, hall, hcand, hany, Bool.false_eq_true, if_false]
            rw [run_claim_step hstep, run_claim_ended]
            simp only [hany, Bool.false_eq_true, if_false]
            rfl

/-- **A claim that nothing interrupts is `claim_assignment`.** -/
theorem run_claim (req : ClaimRequest) {s : Db} (hs : s.flush = s) (rows : List Nat) :
    (HandOutTxn.run cfg now rows 5 (.claim req .begun) s).1
      = committed s ClaimResult.db
        (claimAssignment cfg s now req.wid req.token req.requestWorkspaceId rows) := by
  unfold claimAssignment
  cases hw : s.workers[req.wid]? with
  | none =>
      have hstep : claimNext cfg s now [] rows req .begun = (s, .ended) := by
        simp only [claimNext, hw]
      rw [run_claim_step hstep, run_claim_ended]
      exact hs.symm
  | some w =>
      cases hheld : req.token.elim [] (heldUnder s req.wid w) with
      | nil =>
          cases hrefusal : claimRefusal cfg w now with
          | some refusal =>
              have hstep : claimNext cfg s now [] rows req .begun = ((claimNothing s req.wid w
                  req.requestWorkspaceId refusal.1 refusal.2).db.flush, .ended) := by
                simp only [claimNext, hw, hheld, hrefusal]
              rw [run_claim_step hstep, run_claim_ended]
              simp only [hheld, claimFresh, hrefusal]
              rfl
          | none =>
              have hstep : claimNext cfg s now [] rows req .begun = (s, .scanning) := by
                simp only [claimNext, hw, hheld, hrefusal]
              rw [run_claim_step hstep]
              simp only [hheld]
              exact run_claim_scanning hw hrefusal
      | cons aid rest =>
          cases rest with
          | nil =>
              have hstep : claimNext cfg s now [] rows req .begun = ((recordClaim s req.wid w
                  .granted "idempotent replay" ((s.assignments[aid]?).map fun a => (aid, a))
                  req.requestWorkspaceId).flush, .ended) := by
                simp only [claimNext, hw, hheld]
              rw [run_claim_step hstep, run_claim_ended]
              simp only [hheld]
              rfl
          | cons aid' rest =>
              have hstep : claimNext cfg s now [] rows req .begun = (s, .ended) := by
                simp only [claimNext, hw, hheld]
              rw [run_claim_step hstep, run_claim_ended]
              simp only [hheld]
              rfl

/-- What a dispatch leaves, when nothing interrupts it. -/
def DispatchRequest.outcome (req : DispatchRequest) (s : Db) (now : Instant) :
    Except Err (Db × DispatchOutcome) → Db
  | .error _ => s
  | .ok (s', outcome) => req.finish s now s' outcome

/-- The last statement of a dispatch. -/
theorem run_dispatch_cleared {req : DispatchRequest} {s : Db} {rows : List Nat} {ok : Bool}
    (hkey : assignmentByKey s req.args.workspaceId req.args.key = none) (n : Nat) :
    (HandOutTxn.run cfg now rows (n + 1) (.dispatch req (.cleared ok)) s).1
      = req.outcome s now (assignStage cfg s now req.args
        (if ok then (selectWorker s req.args.stage rows).map Prod.fst else none)) := by
  have hstep : dispatchNext cfg s now rows req (.cleared ok) = (req.outcome s now (assignStage cfg
      s now req.args (if ok then (selectWorker s req.args.stage rows).map Prod.fst else none)),
      .ended) := by
    simp only [dispatchNext, hkey]
    cases assignStage cfg s now req.args
      (if ok then (selectWorker s req.args.stage rows).map Prod.fst else none) <;> rfl
  rw [run_dispatch_step hstep, run_dispatch_ended]

/-- The last statement of a dispatch whose key is taken. -/
theorem run_dispatch_idempotent {req : DispatchRequest} {s : Db} {rows : List Nat} {ok : Bool}
    {a : StageAssignment} (hkey : assignmentByKey s req.args.workspaceId req.args.key = some a)
    (n : Nat) :
    (HandOutTxn.run cfg now rows (n + 1) (.dispatch req (.cleared ok)) s).1
      = req.finish s now s .idempotent := by
  have hstep : dispatchNext cfg s now rows req (.cleared ok)
      = (req.finish s now s .idempotent, .ended) := by
    simp only [dispatchNext, hkey]
  rw [run_dispatch_step hstep, run_dispatch_ended]

/-- **A dispatch that nothing interrupts is `dispatch_stage`**, and then what its caller does
with the outcome. -/
theorem run_dispatch (req : DispatchRequest) (s : Db) (rows : List Nat) :
    (HandOutTxn.run cfg now rows 4 (.dispatch req .begun) s).1
      = req.outcome s now (dispatchStage cfg s now req.args rows) := by
  unfold dispatchStage
  by_cases hfull : maxConcurrentAssignments cfg req.args.workspaceId
      ≤ inFlightCount s req.args.workspaceId
  · have hstep : dispatchNext cfg s now rows req .begun
        = (req.finish s now s .backpressure, .ended) := by
      simp only [dispatchNext, hfull, if_true]
    rw [run_dispatch_step hstep, run_dispatch_ended]
    simp only [hfull, if_true]
    rfl
  · have hstep : dispatchNext cfg s now rows req .begun = (s, .counted) := by
      simp only [dispatchNext, hfull, if_false]
    rw [run_dispatch_step hstep]
    simp only [hfull, if_false]
    cases hrefusal : runRefusal s.runs[req.args.pipelineRunId]? with
    | some outcome =>
        have hstep' : dispatchNext cfg s now rows req .counted
            = (req.finish s now s outcome, .ended) := by
          simp only [dispatchNext, hrefusal]
        rw [run_dispatch_step hstep', run_dispatch_ended]
        rfl
    | none =>
        -- both ways the check answers as `has_provider_capacity` does
        have hcleared : ∃ n, HandOutTxn.run cfg now rows 3 (.dispatch req .counted) s
            = HandOutTxn.run cfg now rows (n + 1) (.dispatch req (.cleared
              (hasProviderCapacity cfg s req.args.workspaceId req.args.provider))) s := by
          cases hbudget : budgetKey cfg req.args.workspaceId req.args.provider with
          | none =>
              have hstep' : dispatchNext cfg s now rows req .counted = (s, .cleared true) := by
                simp only [dispatchNext, hrefusal, hbudget]
              rw [run_dispatch_step hstep', hasProviderCapacity_of_budgetKey hbudget]
              exact ⟨1, rfl⟩
          | some key =>
              have hstep' : dispatchNext cfg s now rows req .counted = (s, .locked) := by
                simp only [dispatchNext, hrefusal, hbudget]
              rw [run_dispatch_step hstep']
              exact ⟨0, rfl⟩
        obtain ⟨n, hcleared⟩ := hcleared
        rw [hcleared]
        cases hkey : assignmentByKey s req.args.workspaceId req.args.key with
        | some a =>
            rw [run_dispatch_idempotent hkey]
            rfl
        | none => exact run_dispatch_cleared hkey n

/-- **The transaction of a job that nothing interrupts is `process_leased_job`.** -/
theorem run_jobTxn {s : Db} {jid : JobId} {jitter : Nat} {t : HandOutTxn}
    (ht : jobTxn s jid jitter = some t) (rows : List Nat) :
    (HandOutTxn.run cfg now rows 4 t s).1
      = committed s id (processLeasedJob cfg s now jid rows jitter) := by
  unfold jobTxn at ht
  cases hjob : s.jobs[jid]? with
  | none =>
      rw [hjob] at ht
      cases ht
  | some job =>
      cases href : job.refId with
      | gate gid => simp [hjob, href] at ht
      | run rid =>
          simp only [hjob, href] at ht
          split at ht
          · rename_i hwork
            cases ht
            rw [run_dispatch]
            have hprocess : processLeasedJob cfg s now jid rows jitter
                = (processWorkJob cfg s now jid job rid rows jitter).map Prod.fst := by
              unfold JobSchedule.isWork at hwork
              rw [Bool.or_eq_true, beq_iff_eq, beq_iff_eq] at hwork
              rcases hwork with htype | htype <;> simp only [processLeasedJob, hjob, href, htype]
            rw [hprocess, processWorkJob]
            cases dispatchStage cfg s now (job.dispatchArgs rid) rows with
            | error e => rfl
            | ok r =>
                obtain ⟨s1, outcome⟩ := r
                simp only [DispatchRequest.outcome, DispatchRequest.finish]
                have hrid : (job.dispatchArgs rid).pipelineRunId = rid := rfl
                rw [hrid]
                cases settleJob s1 now jid job rid jitter outcome <;> rfl
          · cases ht

/-! ## Where a statement leads -/

/-- How a statement can take a transaction on, with what it has found. -/
inductive Advances (cfg : Config) (s : Db) : HandOutTxn → HandOutTxn → Prop
  | claimEnds (req : ClaimRequest) (step : ClaimStep) :
      Advances cfg s (.claim req step) (.claim req .ended)
  | scans (req : ClaimRequest) (step : ClaimStep) :
      Advances cfg s (.claim req step) (.claim req .scanning)
  | picks (req : ClaimRequest) (aid : AssignmentId) (a : StageAssignment) :
      s.assignments[aid]? = some a →
      Advances cfg s (.claim req .scanning) (.claim req (.picked aid a))
  | passes (req : ClaimRequest) (aid : AssignmentId) (a : StageAssignment) :
      budgetKey cfg a.workspaceId a.provider = none →
      Advances cfg s (.claim req (.picked aid a)) (.claim req (.admitted aid a))
  | locks (req : ClaimRequest) (aid : AssignmentId) (a : StageAssignment) :
      Advances cfg s (.claim req (.picked aid a)) (.claim req (.locked aid a))
  | admits (req : ClaimRequest) (aid : AssignmentId) (a : StageAssignment) :
      hasProviderCapacity cfg s a.workspaceId a.provider = true →
      Advances cfg s (.claim req (.locked aid a)) (.claim req (.admitted aid a))
  | dispatchEnds (req : DispatchRequest) (step : DispatchStep) :
      Advances cfg s (.dispatch req step) (.dispatch req .ended)
  | counts (req : DispatchRequest) :
      inFlightCount s req.args.workspaceId < maxConcurrentAssignments cfg req.args.workspaceId →
      Advances cfg s (.dispatch req .begun) (.dispatch req .counted)
  | dispatchPasses (req : DispatchRequest) :
      budgetKey cfg req.args.workspaceId req.args.provider = none →
      Advances cfg s (.dispatch req .counted) (.dispatch req (.cleared true))
  | dispatchLocks (req : DispatchRequest) : runRefusal s.runs[req.args.pipelineRunId]? = none →
      Advances cfg s (.dispatch req .counted) (.dispatch req .locked)
  | clears (req : DispatchRequest) : Advances cfg s (.dispatch req .locked)
      (.dispatch req (.cleared
        (hasProviderCapacity cfg s req.args.workspaceId req.args.provider)))

theorem claimNext_advances (s : Db) (taken rows : List Nat) (req : ClaimRequest)
    (step : ClaimStep) : Advances cfg s (.claim req step)
      (.claim req (claimNext cfg s now taken rows req step).2) := by
  cases step with
  | begun =>
      simp only [claimNext]
      split
      · exact .claimEnds req _
      · split
        · exact .claimEnds req _
        · exact .claimEnds req _
        · split
          · exact .claimEnds req _
          · exact .scans req _
  | scanning =>
      simp only [claimNext]
      split
      · exact .claimEnds req _
      · split
        · exact .claimEnds req _
        · split
          · rename_i aid a hcand
            exact .picks req aid a (claimCandidate_spec hcand).1
          · split <;> exact .claimEnds req _
  -- the row that was picked may have been taken since
  | picked aid a =>
      simp only [claimNext]
      split
      · rename_i hnone
        exact .passes req aid a hnone
      · exact .locks req aid a
  | locked aid a =>
      simp only [claimNext]
      split
      · rename_i hcap
        exact .admits req aid a hcap
      · exact .scans req _
  | admitted aid a =>
      simp only [claimNext]
      split
      · exact .claimEnds req _
      · split <;> exact .claimEnds req _
  | ended => exact .claimEnds req _

theorem dispatchNext_advances (s : Db) (rows : List Nat) (req : DispatchRequest)
    (step : DispatchStep) : Advances cfg s (.dispatch req step)
      (.dispatch req (dispatchNext cfg s now rows req step).2) := by
  cases step with
  | begun =>
      simp only [dispatchNext]
      split
      · exact .dispatchEnds req _
      · rename_i hroom
        exact .counts req (Nat.lt_of_not_le hroom)
  | counted =>
      simp only [dispatchNext]
      split
      · exact .dispatchEnds req _
      · rename_i hrefusal
        split
        · rename_i hnone
          exact .dispatchPasses req hnone
        · exact .dispatchLocks req hrefusal
  | locked => exact .clears req
  | cleared ok =>
      simp only [dispatchNext]
      split
      · exact .dispatchEnds req _
      · split <;> exact .dispatchEnds req _
  | ended => exact .dispatchEnds req _

/-- **Where the next statement of a transaction leads.** -/
theorem next_advances (s : Db) (taken rows : List Nat) (t : HandOutTxn) :
    Advances cfg s t (t.next cfg s now taken rows).2 := by
  cases t with
  | claim req step => exact claimNext_advances s taken rows req step
  | dispatch req step => exact dispatchNext_advances s rows req step

/-! ## Handing out -/

/-- The spend that the dispatch of a stage needs can be reserved. -/
def DispatchArgs.affordable (cfg : Config) (s : Db) (now : Instant) (args : DispatchArgs) : Bool :=
  match ContentStage.ofText? args.stage, s.runs[args.pipelineRunId]? with
  | some stage, some run => (reserveSpend s now args.pipelineRunId run.workspaceId stage
      (effectiveProvider args.provider) cfg.settings.defaultStageEstimateUsd).2.isSome
  | _, _ => false

/-- The last statement of the dispatch gives its row to a worker: the key is new, there is a
worker, and the spend is reserved. -/
def DispatchRequest.assigns (cfg : Config) (s : Db) (now : Instant) (rows : List WorkerId)
    (req : DispatchRequest) : Bool :=
  (assignmentByKey s req.args.workspaceId req.args.key).isNone &&
    (selectWorker s req.args.stage rows).isSome && req.args.affordable cfg s now

/-- The workspace and the stored provider of the assignment that the next statement of a
transaction hands out. -/
def HandOutTxn.handsOut (cfg : Config) (s : Db) (now : Instant) (rows : List Nat) :
    HandOutTxn → Option (WorkspaceId × Option String)
  | .claim req (.admitted _ a) =>
      if s.workers[req.wid]?.isSome ∧ spendAdmits cfg s now a = true then
        some (a.workspaceId, a.provider)
      else none
  | .dispatch req (.cleared true) =>
      if req.assigns cfg s now rows = true then
        some (req.args.workspaceId, some (effectiveProvider req.args.provider))
      else none
  | _ => none

/-- What the next statement of a transaction does to the crew: it hands out an assignment, and
the transaction is over, or it hands out nothing. -/
inductive Handed (cfg : Config) (s : Db) (now : Instant) (rows : List Nat) :
    HandOutTxn → Crew → HandOutTxn → Prop
  | nothing {t t' : HandOutTxn} {c : Crew} : t.handsOut cfg s now rows = none →
      Moves cfg now [.queue, .cancel] s.crew c → Handed cfg s now rows t c t'
  | claimed (req : ClaimRequest) (aid : AssignmentId) (a : StageAssignment) :
      (HandOutTxn.claim req (.admitted aid a)).handsOut cfg s now rows
        = some (a.workspaceId, a.provider) →
      Handed cfg s now rows (.claim req (.admitted aid a))
        (s.crew.give cfg now aid req.wid req.token) (.claim req .ended)
  | assigned (req : DispatchRequest) (stage : ContentStage) (wid : WorkerId) :
      (HandOutTxn.dispatch req (.cleared true)).handsOut cfg s now rows
        = some (req.args.workspaceId, some (effectiveProvider req.args.provider)) →
      Handed cfg s now rows (.dispatch req (.cleared true))
        ((s.crew.push (newAssignment cfg now req.args stage (some wid))).slot (some wid)
          WorkerRegistration.takeSlot) (.dispatch req .ended)

/-- Only a job that met a full workspace can be cancelled with its assignments. -/
theorem crew_finish (req : DispatchRequest) (s after : Db) {outcome : DispatchOutcome}
    (h : outcome ≠ .backpressure) : (req.finish s now after outcome).crew = after.crew := by
  unfold DispatchRequest.finish
  cases req.work with
  | none => rfl
  | some work =>
      cases outcome with
      | backpressure => exact absurd rfl h
      | dispatched | idempotent | noWorker | spendHold | skipped => rfl

theorem finish_moves (req : DispatchRequest) (s : Db) (outcome : DispatchOutcome) :
    Moves cfg now [.queue, .cancel] s.crew (req.finish s now s outcome).crew := by
  unfold DispatchRequest.finish
  cases req.work with
  | none => exact .refl
  | some work =>
      simp only
      split
      · exact .refl
      · rename_i s' hsettle
        exact (settleJob_moves hsettle).mono (by simp)

/-- Without a worker the row is queued. -/
theorem assignStage_queue {s s' : Db} {args : DispatchArgs} {outcome : DispatchOutcome}
    (h : assignStage cfg s now args none = .ok (s', outcome)) :
    outcome ≠ .backpressure ∧ Moves cfg now [.queue, .cancel] s.crew s'.crew := by
  unfold assignStage at h
  split at h
  · cases h
  · cases h
  · rename_i stage run _ _
    cases h
    refine ⟨by decide, ?_⟩
    rw [crew_insertAssignment]
    exact .one (.queue args stage) (by simp)

/-- With a worker the row is the worker's if the spend is reserved, else nothing happens. -/
theorem assignStage_assign (cfg : Config) (s : Db) (now : Instant) (args : DispatchArgs)
    (wid : WorkerId) :
    (args.affordable cfg s now = true ∧ ∃ s' stage,
      assignStage cfg s now args (some wid) = .ok (s', .dispatched) ∧
      s'.crew = (s.crew.push (newAssignment cfg now args stage (some wid))).slot (some wid)
        WorkerRegistration.takeSlot) ∨
    (args.affordable cfg s now = false ∧ ∀ s' outcome,
      assignStage cfg s now args (some wid) = .ok (s', outcome) →
        outcome ≠ .backpressure ∧ s'.crew = s.crew) := by
  unfold DispatchArgs.affordable assignStage
  cases hstage : ContentStage.ofText? args.stage with
  | none => exact .inr ⟨rfl, fun _ _ h => by cases h⟩
  | some stage =>
      cases hrun : s.runs[args.pipelineRunId]? with
      | none => exact .inr ⟨rfl, fun _ _ h => by cases h⟩
      | some run =>
          simp only
          cases hres : (reserveSpend s now args.pipelineRunId run.workspaceId stage
              (effectiveProvider args.provider) cfg.settings.defaultStageEstimateUsd).2 with
          | none =>
              refine .inr ⟨rfl, fun s' outcome h => ?_⟩
              cases h
              exact ⟨by decide, crew_reserveSpend ..⟩
          | some res =>
              refine .inl ⟨rfl, _, stage, rfl, ?_⟩
              rw [crew_insertAssignment, crew_reserveSpend]
              rfl

/-- A claim that meets two reservations for its stage fails. -/
theorem claimWithSpend_error {s : Db} {wid : WorkerId} {w : WorkerRegistration}
    {aid : AssignmentId} {a : StageAssignment} {token : Option ClaimToken}
    {ws : Option WorkspaceId} {e : Err}
    (h : claimWithSpend cfg s now wid w aid a token ws = .error e) :
    spendAdmits cfg s now a = false := by
  unfold claimWithSpend at h
  unfold spendAdmits
  cases hrun : s.runs[a.pipelineRunId]? with
  | none =>
      rw [hrun] at h
      cases h
  | some run =>
      rw [hrun] at h
      simp only at h ⊢
      rcases hopen : openReservationsFor s a.pipelineRunId a.stage with _ | ⟨r, _ | ⟨r', more⟩⟩
      · simp only [hopen] at h
        split at h <;> cases h
      · rw [hopen] at h
        cases h
      · rfl

theorem claimNext_handed (s : Db) (taken rows : List Nat) (req : ClaimRequest) (step : ClaimStep) :
    Handed cfg s now rows (.claim req step) (claimNext cfg s now taken rows req step).1.crew
      (.claim req (claimNext cfg s now taken rows req step).2) := by
  -- before the last statement only the audit is written
  have hnone : ∀ {step step' : ClaimStep} {c : Crew},
      (HandOutTxn.claim req step).handsOut cfg s now rows = none → c = s.crew →
        Handed cfg s now rows (.claim req step) c (.claim req step') :=
    fun hhands hcrew => .nothing hhands (.none hcrew)
  cases step with
  | begun =>
      refine hnone rfl ?_
      simp only [claimNext]
      split
      · rfl
      · split
        · rfl
        · exact crew_recordClaim ..
        · split
          · exact crew_recordClaim ..
          · rfl
  | scanning =>
      refine hnone rfl ?_
      simp only [claimNext]
      split
      · rfl
      · split
        · rfl
        · split
          · rfl
          · split <;> exact crew_recordClaim ..
  | picked aid a =>
      refine hnone rfl ?_
      simp only [claimNext]
      split <;> rfl
  | locked aid a =>
      refine hnone rfl ?_
      simp only [claimNext]
      split <;> rfl
  | ended => exact hnone rfl rfl
  | admitted aid a =>
      cases hw : s.workers[req.wid]? with
      | none =>
          refine hnone (by simp [HandOutTxn.handsOut, hw]) ?_
          simp only [claimNext, hw]
      | some w =>
          simp only [claimNext, hw]
          cases hclaim : claimWithSpend cfg s now req.wid w aid a req.token
              req.requestWorkspaceId with
          | error e =>
              refine hnone ?_ rfl
              simp [HandOutTxn.handsOut, claimWithSpend_error hclaim]
          | ok r =>
              simp only [crew_flush]
              rcases claimWithSpend_claimed hclaim with ⟨hspend, hcrew, _⟩ | ⟨hspend, hcrew⟩
              · rw [hcrew]
                exact .claimed req aid a (by simp [HandOutTxn.handsOut, hw, hspend])
              · exact hnone (by simp [HandOutTxn.handsOut, hspend]) hcrew

theorem dispatchNext_handed (s : Db) (rows : List Nat) (req : DispatchRequest)
    (step : DispatchStep) :
    Handed cfg s now rows (.dispatch req step) (dispatchNext cfg s now rows req step).1.crew
      (.dispatch req (dispatchNext cfg s now rows req step).2) := by
  cases step with
  | begun =>
      refine .nothing rfl ?_
      simp only [dispatchNext]
      split
      · exact finish_moves ..
      · exact .refl
  | counted =>
      refine .nothing rfl ?_
      simp only [dispatchNext]
      split
      · exact finish_moves ..
      · split <;> exact .refl
  | locked => exact .nothing rfl .refl
  | ended => exact .nothing rfl .refl
  -- only the last statement inserts a row
  | cleared ok =>
      cases hkey : assignmentByKey s req.args.workspaceId req.args.key with
      | some a =>
          refine .nothing ?_ ?_
          · cases ok <;> simp [HandOutTxn.handsOut, DispatchRequest.assigns, hkey]
          · simp only [dispatchNext, hkey]
            exact finish_moves ..
      | none =>
          simp only [dispatchNext, hkey]
          cases hworker : (if ok = true then (selectWorker s req.args.stage rows).map Prod.fst
              else none) with
          | none =>
              refine .nothing ?_ ?_
              · cases ok with
                | false => rfl
                | true =>
                    have hsel : selectWorker s req.args.stage rows = none := by
                      simpa using hworker
                    simp [HandOutTxn.handsOut, DispatchRequest.assigns, hsel]
              · split
                · exact .refl
                · rename_i s' outcome hassign
                  obtain ⟨hout, hmoves⟩ := assignStage_queue hassign
                  simp only [crew_finish req s s' hout]
                  exact hmoves
          | some wid =>
              cases ok with
              | false => simp at hworker
              | true =>
                  have hsel : (selectWorker s req.args.stage rows).isSome = true := by
                    simp only [if_true] at hworker
                    exact Option.isSome_map.symm.trans (by rw [hworker]; rfl)
                  have hassigns : req.assigns cfg s now rows = req.args.affordable cfg s now := by
                    simp [DispatchRequest.assigns, hkey, hsel]
                  rcases assignStage_assign cfg s now req.args wid with
                    ⟨hspend, s', stage, hassign, hcrew⟩ | ⟨hspend, hnothing⟩
                  · simp only [hassign, crew_finish req s s' (show DispatchOutcome.dispatched
                      ≠ .backpressure by decide), hcrew]
                    exact .assigned req stage wid (by simp [HandOutTxn.handsOut, hassigns, hspend])
                  · refine .nothing (by simp [HandOutTxn.handsOut, hassigns, hspend]) ?_
                    split
                    · exact .refl
                    · rename_i s' outcome hassign
                      obtain ⟨hout, hcrew⟩ := hnothing s' outcome hassign
                      simp only [crew_finish req s s' hout, hcrew]
                      exact .refl

/-- **What the next statement does to the crew.** -/
theorem next_handed (s : Db) (taken rows : List Nat) (t : HandOutTxn) :
    Handed cfg s now rows t (t.next cfg s now taken rows).1.crew
      (t.next cfg s now taken rows).2 := by
  cases t with
  | claim req step => exact claimNext_handed s taken rows req step
  | dispatch req step => exact dispatchNext_handed s rows req step

end HumanGate
