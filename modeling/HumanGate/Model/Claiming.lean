import HumanGate.Model.Dispatcher

set_option autoImplicit false

/-! # Worker claiming

`app/orchestration/claiming.py`: a worker pulls at most one pending assignment. `rows` is the
order in which the database scans the assignments; it decides between candidates that tie.
Operations are atomic here, so no row is locked by another claim and the re-check of the
provider budget under its lock finds what the query found
(`hasProviderCapacity_eq_not_saturated`).
-/

namespace HumanGate

open Lib Lib.Calendar

/-! ## Eligibility -/

/-- `worker.status.value`. -/
def WorkerStatus.value : WorkerStatus → String
  | .online => "online"
  | .busy => "busy"
  | .draining => "draining"
  | .offline => "offline"

/-- Why a worker gets nothing before any assignment is looked at. -/
def claimRefusal (cfg : Config) (w : WorkerRegistration) (now : Instant) :
    Option (ClaimOutcome × String) :=
  if w.drain then some (.ineligible, "worker is draining")
  else if w.deregisteredAt.isSome ∨ w.status ≠ .online then
    some (.ineligible, "worker status is " ++ w.status.value ++ ", not online")
  else if w.lastHeartbeatAt.all
      (fun t => decide (seconds cfg.settings.workerOfflineAfterSeconds ≤ now - t)) then
    some (.ineligible, "heartbeat is stale")
  else if w.maxConcurrency ≤ w.currentLoad then
    some (.capacity, "worker at maximum concurrency")
  else if w.supportedStages = [] then some (.noWork, "worker supports no stages")
  else none

/-- `_record`: one audit row, when a workspace is known. -/
def recordClaim (s : Db) (wid : WorkerId) (w : WorkerRegistration) (outcome : ClaimOutcome)
    (reason : String) (assignment : Option (AssignmentId × StageAssignment))
    (requestWorkspaceId : Option WorkspaceId) : Db :=
  match (assignment.map fun p => p.2.workspaceId).or (w.workspaceId.or requestWorkspaceId) with
  | none => s
  | some ws =>
      { s with claimAudit := s.claimAudit ++ [{
          workspaceId := ws
          assignmentId := assignment.map Prod.fst
          workerId := wid
          outcome := outcome
          stage := assignment.map fun p => p.2.stage
          detail := reason }] }

/-! ## Candidates -/

/-- A pinned worker serves its own workspace, a global one all. -/
def WorkerRegistration.serves (w : WorkerRegistration) (ws : WorkspaceId) : Bool :=
  w.workspaceId.all fun pin => pin == ws

/-- The base conditions of the candidate query. -/
def claimable (w : WorkerRegistration) (a : StageAssignment) : Bool :=
  a.status == .pending && w.supportedStages.contains a.stage.value && w.serves a.workspaceId

/-- `_saturated_provider_pair`. -/
def saturatedProviderPair (cfg : Config) (s : Db) (a : StageAssignment) : Bool :=
  a.provider.any fun p => p != "" && (cfg.providerBudget a.workspaceId p).any
    fun maxConcurrent => decide (maxConcurrent ≤ countInflight s a.workspaceId p)

/-- `effective DESC, created_at ASC`. -/
def claimLe (cfg : Config) (now : Instant) (a b : StageAssignment) : Bool :=
  let ea := effectivePriority cfg a.priority a.createdAt now
  let eb := effectivePriority cfg b.priority b.createdAt now
  decide (eb < ea) || (ea == eb && decide (a.createdAt ≤ b.createdAt))

def assignmentRows (s : Db) (rows : List AssignmentId) : List (AssignmentId × StageAssignment) :=
  rows.filterMap fun aid => (s.assignments[aid]?).map fun a => (aid, a)

/-- The assignment the candidate query returns. -/
def claimCandidate (cfg : Config) (s : Db) (now : Instant) (w : WorkerRegistration)
    (rows : List AssignmentId) : Option (AssignmentId × StageAssignment) :=
  (((assignmentRows s rows).filter fun p =>
      claimable w p.2 && !saturatedProviderPair cfg s p.2).insertionSort
    fun a b => claimLe cfg now a.2 b.2 = true).head?

/-- The assignments held under a claim token, as the idempotent replay looks them up. -/
def heldUnder (s : Db) (wid : WorkerId) (w : WorkerRegistration) (token : ClaimToken) :
    List AssignmentId :=
  Table.select (fun a => a.claimedBy == some wid && a.claimToken == some token
    && a.status == .dispatched && w.serves a.workspaceId) s.assignments

/-! ## Claiming -/

def StageAssignment.claim (cfg : Config) (now : Instant) (wid : WorkerId)
    (token : Option ClaimToken) (a : StageAssignment) : StageAssignment :=
  { a with
    status := .dispatched
    workerId := some wid
    claimedBy := some wid
    claimedAt := some now
    dispatchedAt := some now
    leaseExpiresAt := some (now + seconds cfg.settings.assignmentLeaseSeconds)
    leaseStartedAt := some now
    leaseExtensionCount := 0
    claimCount := a.claimCount + 1
    claimToken := token }

/-- What a claim answers. -/
structure ClaimResult where
  db : Db
  outcome : ClaimOutcome
  reason : String
  assignment : Option AssignmentId := none

/-- Hand the assignment to the worker. -/
def grantClaim (cfg : Config) (s : Db) (now : Instant) (wid : WorkerId) (w : WorkerRegistration)
    (aid : AssignmentId) (a : StageAssignment) (token : Option ClaimToken)
    (requestWorkspaceId : Option WorkspaceId) : ClaimResult :=
  let s := s.updateAssignment now aid (StageAssignment.claim cfg now wid token)
  let s := s.updateWorker wid WorkerRegistration.takeSlot
  let s := recordClaim s wid w .granted "claimed" (some (aid, a)) requestWorkspaceId
  { db := s.emit now .stageAssigned a.workspaceId a.pipelineRunId
    outcome := .granted
    reason := "claimed"
    assignment := some aid }

/-- The spend gate at ownership transfer, then the grant. -/
def claimWithSpend (cfg : Config) (s : Db) (now : Instant) (wid : WorkerId)
    (w : WorkerRegistration) (aid : AssignmentId) (a : StageAssignment)
    (token : Option ClaimToken) (requestWorkspaceId : Option WorkspaceId) :
    Except Err ClaimResult :=
  match s.runs[a.pipelineRunId]? with
  -- nothing is reserved for a row without a run
  | none => .ok (grantClaim cfg s now wid w aid a token requestWorkspaceId)
  | some run =>
      match openReservationsFor s a.pipelineRunId a.stage with
      | _ :: _ :: _ => .error .multipleResultsFound
      -- the dispatch has reserved already
      | [_] => .ok (grantClaim cfg s now wid w aid a token requestWorkspaceId)
      | [] =>
          let reserved := reserveSpend s now a.pipelineRunId run.workspaceId a.stage
            (effectiveProvider a.provider) cfg.settings.defaultStageEstimateUsd
          match reserved.2 with
          | some _ => .ok (grantClaim cfg reserved.1 now wid w aid a token requestWorkspaceId)
          | none =>
              -- the row stays with no one, and the run is on hold
              .ok { db := recordClaim reserved.1 wid w .capacity "workspace spend cap reached"
                      (some (aid, a)) requestWorkspaceId
                    outcome := .capacity
                    reason := "workspace spend cap reached" }

/-- A claim that found no candidate. -/
def claimNothing (s : Db) (wid : WorkerId) (w : WorkerRegistration)
    (requestWorkspaceId : Option WorkspaceId) (outcome : ClaimOutcome) (reason : String) :
    ClaimResult :=
  { db := recordClaim s wid w outcome reason none requestWorkspaceId
    outcome := outcome
    reason := reason }

/-- `claim_assignment`, after the idempotent replay. A supported stage that is not in the
enumeration makes the candidate query fail. -/
def claimFresh (cfg : Config) (s : Db) (now : Instant) (wid : WorkerId) (w : WorkerRegistration)
    (token : Option ClaimToken) (requestWorkspaceId : Option WorkspaceId)
    (rows : List AssignmentId) : Except Err ClaimResult :=
  match claimRefusal cfg w now with
  | some (outcome, reason) => .ok (claimNothing s wid w requestWorkspaceId outcome reason)
  | none =>
      match w.supportedStages.find? fun t => (ContentStage.ofText? t).isNone with
      | some text => .error (.invalidStage text)
      | none =>
          match claimCandidate cfg s now w rows with
          | some (aid, a) => claimWithSpend cfg s now wid w aid a token requestWorkspaceId
          | none =>
              if s.assignments.any (claimable w) then
                .ok (claimNothing s wid w requestWorkspaceId .capacity "provider budget exhausted")
              else
                .ok (claimNothing s wid w requestWorkspaceId .noWork "no eligible assignment")

/-- `claim_assignment`. -/
def claimAssignment (cfg : Config) (s : Db) (now : Instant) (wid : WorkerId)
    (token : Option ClaimToken) (requestWorkspaceId : Option WorkspaceId)
    (rows : List AssignmentId) : Except Err ClaimResult :=
  match s.workers[wid]? with
  | none => .ok { db := s, outcome := .ineligible, reason := "worker not found" }
  | some w =>
      match token.elim [] (heldUnder s wid w) with
      | _ :: _ :: _ => .error .multipleResultsFound
      | [aid] =>
          .ok { db := recordClaim s wid w .granted "idempotent replay"
                  ((s.assignments[aid]?).map fun a => (aid, a)) requestWorkspaceId
                outcome := .granted
                reason := "idempotent replay"
                assignment := some aid }
      | [] => claimFresh cfg s now wid w token requestWorkspaceId rows

/-! ## The candidate -/

/-- The query's predicate is the rule of `has_provider_capacity`. -/
theorem hasProviderCapacity_eq_not_saturated (cfg : Config) (s : Db) (a : StageAssignment) :
    hasProviderCapacity cfg s a.workspaceId a.provider = !saturatedProviderPair cfg s a := by
  unfold saturatedProviderPair
  cases a.provider with
  | none => rfl
  | some p =>
      by_cases hp : p = ""
      · simp [hasProviderCapacity, hp]
      · cases hb : cfg.providerBudget a.workspaceId p with
        | none => simp [hasProviderCapacity, hp, hb]
        | some n =>
            have hne : (p != "") = true := bne_iff_ne.mpr hp
            simp only [hasProviderCapacity, hp, hb, if_false, Option.any_some, hne, Bool.true_and]
            rw [← decide_not]
            exact decide_eq_decide.mpr (Nat.not_le).symm

theorem mem_assignmentRows {s : Db} {rows : List AssignmentId} {aid : AssignmentId}
    {a : StageAssignment} (h : (aid, a) ∈ assignmentRows s rows) :
    s.assignments[aid]? = some a := by
  unfold assignmentRows at h
  rw [List.mem_filterMap] at h
  obtain ⟨x, _, hx⟩ := h
  rw [Option.map_eq_some_iff] at hx
  obtain ⟨b, hb, heq⟩ := hx
  cases heq
  exact hb

/-- A candidate is a pending assignment of a supported stage, in a workspace the worker
serves, with room in its provider's budget. -/
theorem claimCandidate_spec {cfg : Config} {s : Db} {now : Instant} {w : WorkerRegistration}
    {rows : List AssignmentId} {aid : AssignmentId} {a : StageAssignment}
    (h : claimCandidate cfg s now w rows = some (aid, a)) :
    s.assignments[aid]? = some a ∧ claimable w a = true ∧
      hasProviderCapacity cfg s a.workspaceId a.provider = true := by
  have hm := List.mem_of_mem_head? h
  rw [List.mem_insertionSort, List.mem_filter] at hm
  obtain ⟨hrow, hp⟩ := hm
  rw [Bool.and_eq_true] at hp
  exact ⟨mem_assignmentRows hrow, hp.1, by rw [hasProviderCapacity_eq_not_saturated]; exact hp.2⟩

end HumanGate
