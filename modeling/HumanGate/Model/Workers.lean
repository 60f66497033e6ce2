import HumanGate.Model.Operations

set_option autoImplicit false

/-! # The worker endpoints

`app/api/routes/workers.py`: what a worker asks for (register, heartbeat, claim, acknowledge,
renew, submit, deregister) and what an administrator does to it (revoke, and the quick action
`emergency_stop` of `app/services/operations_mission.py`). An endpoint is one transaction on
the *fleet*: the database, the credentials, and the provider effect keys.

A request carries what `get_current_worker` read off its credential when it arrived. The
handlers that touch an assignment check the credential again, under its lock. A request that is
refused changes nothing.
-/

namespace HumanGate

open Lib Lib.Calendar

abbrev CredentialId := Nat

/-! ## Credentials and effect keys -/

inductive WorkerCredentialStatus where
  | active | revoked
  deriving DecidableEq, Repr

structure WorkerCredential where
  workerId : WorkerId
  workspaceId : WorkspaceId
  status : WorkerCredentialStatus := .active
  expiresAt : Option Instant := none

structure ProviderEffectKey where
  workspaceId : WorkspaceId
  assignmentId : AssignmentId
  attemptNumber : Nat
  effectKey : String

structure Fleet where
  db : Db
  credentials : List WorkerCredential := []
  effects : List ProviderEffectKey := []

/-- The identity of a request, from its credential. -/
structure AuthenticatedWorker where
  workerId : WorkerId
  credentialId : CredentialId
  workspaceId : WorkspaceId
  deriving DecidableEq

/-! ## Refusals -/

/-- An HTTP error, or an exception of the orchestration. -/
inductive ApiError where
  | http (status : Nat) (detail : String)
  | raised (e : Err)
  deriving DecidableEq

def StageAssignmentStatus.value : StageAssignmentStatus → String
  | .pending => "pending"
  | .dispatched => "dispatched"
  | .acknowledged => "acknowledged"
  | .completed => "completed"
  | .failed => "failed"
  | .cancelled => "cancelled"

/-- `_lease_http_error`; `message` is the text of an `invalid_status` conflict. -/
def leaseHttpError (message : String) : Err → ApiError
  | .leaseNotOwned => .http 403 "assignment not owned by worker"
  | .leaseConflict code => .http 409 (if code = "invalid_status" then message else code)
  | e => .raised e

/-- The text of an `invalid_status` conflict of `assert_lease_extendable`. -/
def leaseStatusMessage (a : StageAssignment) : String :=
  "assignment status is " ++ a.status.value ++ ", expected dispatched or acknowledged"

/-- `acknowledge` has a check of its own after `assert_lease_extendable`. -/
def ackStatusMessage (a : StageAssignment) : String :=
  if a.status.inFlight then "ack requires dispatched, got " ++ a.status.value
  else leaseStatusMessage a

def submitStatusMessage (a : StageAssignment) : String :=
  "submit requires in-flight status, got " ++ a.status.value

/-- `_assert_credential_still_active`; `none` when it passes. -/
def credentialRefusal (f : Fleet) (now : Instant) (auth : AuthenticatedWorker) :
    Option ApiError :=
  if (f.credentials[auth.credentialId]?).any fun c =>
      c.status == .active && c.workerId == auth.workerId &&
        c.expiresAt.all fun t => decide (now < t)
  then none
  else some (.http 401 "invalid worker credentials")

/-- The registration of a worker that has not deregistered. -/
def activeRegistration (f : Fleet) (wid : WorkerId) : Except ApiError WorkerRegistration :=
  match f.db.workers[wid]? with
  | none => .error (.http 404 "worker not found")
  | some w => if w.deregisteredAt.isSome then .error (.http 410 "worker is deregistered") else .ok w

/-- `_load_owned_assignment`: a global worker sees the assignments it holds, a pinned one those
of the workspace of its credential. -/
def loadOwnedAssignment (f : Fleet) (auth : AuthenticatedWorker) (w : WorkerRegistration)
    (aid : AssignmentId) : Except ApiError StageAssignment :=
  match f.db.assignments[aid]? with
  | none => .error (.http 404 "assignment not found")
  | some a =>
      if (if w.workspaceId = none then a.workerId = some auth.workerId
        else a.workspaceId = auth.workspaceId)
      then .ok a
      else .error (.http 404 "assignment not found")

/-- The checks that acknowledge, renew and submit begin with. -/
def ownedAssignment (f : Fleet) (now : Instant) (auth : AuthenticatedWorker)
    (aid : AssignmentId) : Except ApiError StageAssignment :=
  match credentialRefusal f now auth with
  | some e => .error e
  | none =>
      match activeRegistration f auth.workerId with
      | .error e => .error e
      | .ok w => loadOwnedAssignment f auth w aid

/-! ## Effect keys -/

/-- `default_effect_key`: the text of the assignment's identifier, whatever the attempt. -/
def defaultEffectKey (aid : AssignmentId) : String := toString aid

/-- `effect_key or default_effect_key(...)`. -/
def effectKeyFor (aid : AssignmentId) : Option String → String
  | none => defaultEffectKey aid
  | some key => if key = "" then defaultEffectKey aid else key

/-- `ensure_provider_effect_key`: whether the key was new. The unique index on the workspace and
the key refuses a second row. -/
def ensureProviderEffectKey (f : Fleet) (aid : AssignmentId) (a : StageAssignment)
    (effectKey : Option String) : Fleet × Bool :=
  let key := effectKeyFor aid effectKey
  if f.effects.any fun e => e.workspaceId == a.workspaceId && e.effectKey == key then (f, false)
  else
    ({ f with effects := f.effects ++ [{
        workspaceId := a.workspaceId
        assignmentId := aid
        attemptNumber := a.attemptNumber
        effectKey := key }] }, true)

/-! ## A worker's requests -/

/-- The fields of a registration that a worker announces. -/
structure WorkerRegisterIn where
  protocolVersion : Nat
  supportedStages : List String
  maxConcurrency : Nat

def WorkerRegistration.register (now : Instant) (payload : WorkerRegisterIn)
    (w : WorkerRegistration) : WorkerRegistration :=
  { w with
    supportedStages := payload.supportedStages
    maxConcurrency := payload.maxConcurrency
    currentLoad := 0
    status := .online
    lastHeartbeatAt := some now
    deregisteredAt := none }

/-- What the worker still holds is recovered; `rows` is the scan order. -/
def reapHoldings (cfg : Config) (f : Fleet) (now : Instant) (wid : WorkerId)
    (reason : RecoveryReason) (rows : List AssignmentId) : Except ApiError Fleet :=
  match reapWorkerAssignments cfg f.db now wid reason none none rows with
  | .error e => .error (.raised e)
  | .ok s => .ok { f with db := s }

def Fleet.updateWorker (f : Fleet) (wid : WorkerId)
    (g : WorkerRegistration → WorkerRegistration) : Fleet :=
  { f with db := f.db.updateWorker wid g }

/-- `register_worker`. -/
def registerWorker (cfg : Config) (f : Fleet) (now : Instant) (auth : AuthenticatedWorker)
    (payload : WorkerRegisterIn) (rows : List AssignmentId) : Except ApiError Fleet :=
  if payload.protocolVersion ∉ cfg.settings.workerCapabilityProtocolVersions then
    .error (.http 422 ("unsupported capability protocol_version "
      ++ toString payload.protocolVersion ++ "; server accepts "
      ++ toString cfg.settings.workerCapabilityProtocolVersions))
  else
    match f.db.workers[auth.workerId]? with
    | none => .error (.http 404 "worker not found")
    | some _ =>
        -- a restarted worker holds nothing of what it held before
        match reapHoldings cfg f now auth.workerId .workerRestart rows with
        | .error e => .error e
        | .ok f => .ok (f.updateWorker auth.workerId (WorkerRegistration.register now payload))

def WorkerRegistration.beat (now : Instant) (status : WorkerStatus) (currentLoad : Nat)
    (w : WorkerRegistration) : WorkerRegistration :=
  { w with status := status, currentLoad := currentLoad, lastHeartbeatAt := some now }

/-- `worker_heartbeat`: the reported status and load replace the stored ones. -/
def workerHeartbeat (f : Fleet) (now : Instant) (auth : AuthenticatedWorker)
    (status : WorkerStatus) (currentLoad : Nat) : Except ApiError Fleet :=
  if status = .offline then
    .error (.http 422 "a heartbeat may report online, busy, or draining — not offline")
  else
    match activeRegistration f auth.workerId with
    | .error e => .error e
    | .ok w =>
        if w.maxConcurrency < currentLoad then
          .error (.http 422 "current_load exceeds max_concurrency")
        -- the reported load replaces the counted one
        else .ok (f.updateWorker auth.workerId (WorkerRegistration.beat now status currentLoad))

/-- Off duty, with no load. -/
def WorkerRegistration.goOffline (w : WorkerRegistration) : WorkerRegistration :=
  { w with status := .offline, currentLoad := 0 }

def WorkerRegistration.deregister (now : Instant) (w : WorkerRegistration) : WorkerRegistration :=
  { w.goOffline with deregisteredAt := some now }

/-- `deregister_worker`: idempotent. -/
def deregisterWorker (cfg : Config) (f : Fleet) (now : Instant) (auth : AuthenticatedWorker)
    (rows : List AssignmentId) : Except ApiError Fleet :=
  match f.db.workers[auth.workerId]? with
  | none => .error (.http 404 "worker not found")
  | some w =>
      if w.deregisteredAt.isSome then .ok f
      else
        match reapHoldings cfg f now auth.workerId .workerDeregistered rows with
        | .error e => .error e
        | .ok f => .ok (f.updateWorker auth.workerId (WorkerRegistration.deregister now))

/-- `claim_assignment_endpoint`. -/
def claimEndpoint (cfg : Config) (f : Fleet) (now : Instant) (auth : AuthenticatedWorker)
    (token : Option ClaimToken) (rows : List AssignmentId) :
    Except ApiError (Fleet × ClaimResult) :=
  match credentialRefusal f now auth with
  | some e => .error e
  | none =>
      match claimAssignment cfg f.db now auth.workerId token (some auth.workspaceId) rows with
      | .error e => .error (.raised e)
      | .ok r => .ok ({ f with db := r.db }, r)

/-- `ack_assignment`: acknowledge, and reserve the effect key. -/
def ackAssignment (cfg : Config) (f : Fleet) (now : Instant) (auth : AuthenticatedWorker)
    (aid : AssignmentId) : Except ApiError (Fleet × Bool) :=
  match ownedAssignment f now auth aid with
  | .error e => .error e
  | .ok a =>
      match acknowledge cfg f.db now aid none (some auth.workerId) with
      | .error e => .error (leaseHttpError (ackStatusMessage a) e)
      | .ok s => .ok (ensureProviderEffectKey { f with db := s } aid a none)

/-- `renew_assignment_lease`. -/
def renewAssignmentLease (cfg : Config) (f : Fleet) (now : Instant) (auth : AuthenticatedWorker)
    (aid : AssignmentId) : Except ApiError Fleet :=
  match ownedAssignment f now auth aid with
  | .error e => .error e
  | .ok a =>
      match renewLease cfg f.db now aid none (some auth.workerId) with
      | .error e => .error (leaseHttpError (leaseStatusMessage a) e)
      | .ok s => .ok { f with db := s }

structure SubmitIn where
  success : Bool
  result : Option JsonObject := none
  errorMessage : String := ""
  providerEffectKey : Option String := none

/-- What a submission answers. -/
structure SubmitOut where
  status : StageAssignmentStatus
  providerEffectKey : String
  providerEffectCreated : Bool
  deriving DecidableEq

/-- `COMPLETED` or `FAILED`. -/
def StageAssignmentStatus.isFinal : StageAssignmentStatus → Bool
  | .completed | .failed => true
  | _ => false

/-- `submit_assignment_result`. A known key on a finished assignment is a replay: it is answered
with the status the assignment has. -/
def submitAssignmentResult (cfg : Config) (f : Fleet) (now : Instant)
    (auth : AuthenticatedWorker) (aid : AssignmentId) (payload : SubmitIn) (jitter : Nat) :
    Except ApiError (Fleet × SubmitOut) :=
  match ownedAssignment f now auth aid with
  | .error e => .error e
  | .ok a =>
      let effect := ensureProviderEffectKey f aid a payload.providerEffectKey
      let key := effectKeyFor aid payload.providerEffectKey
      -- a replay: nothing is submitted again
      if effect.2 = false ∧ a.status.isFinal = true then .ok (effect.1, ⟨a.status, key, false⟩)
      else
        let call := submitResult cfg effect.1.db now aid payload.success payload.result
          payload.errorMessage (some auth.workerId) jitter
        match call.raised with
        -- the effect row goes with the rollback
        | some e => .error (leaseHttpError (submitStatusMessage a) e)
        | none =>
            .ok ({ effect.1 with db := call.db },
              ⟨if payload.success then .completed else .failed, key, effect.2⟩)

/-! ## An administrator's actions -/

def WorkerCredential.revoke (c : WorkerCredential) : WorkerCredential :=
  { c with status := .revoked }

/-- Revoke the active credentials that `p` selects. -/
def revokeWhere (p : WorkerCredential → Bool) (cs : List WorkerCredential) :
    List WorkerCredential :=
  cs.map fun c => if p c && c.status == .active then c.revoke else c

/-- `revoke_worker_credentials`. -/
def revokeWorkerCredentials (cfg : Config) (f : Fleet) (now : Instant) (ws : WorkspaceId)
    (wid : WorkerId) (rows : List AssignmentId) : Except ApiError Fleet :=
  match f.db.workers[wid]? with
  | none => .error (.http 404 "worker not found")
  | some w =>
      if w.workspaceId ≠ some ws then .error (.http 404 "worker not found")
      else
        let credentials := revokeWhere (fun c => c.workerId == wid) f.credentials
        match reapHoldings cfg { f with credentials := credentials } now wid .workerRevoked
          rows with
        | .error e => .error e
        | .ok f =>
            -- the worker is taken off duty, but not drained
            if w.deregisteredAt.isNone then .ok (f.updateWorker wid WorkerRegistration.goOffline)
            else .ok f

/-- `_workspace_workers`: the workers pinned to the workspace. -/
def workspaceWorkers (f : Fleet) (ws : WorkspaceId) (workers : List WorkerId) : List WorkerId :=
  workers.filter fun wid => (f.db.workers[wid]?).any fun w =>
    w.deregisteredAt.isNone && w.workspaceId == some ws

def WorkerRegistration.stop (w : WorkerRegistration) : WorkerRegistration :=
  { w.goOffline with drain := true }

def stopEach (cfg : Config) (now : Instant) (ws : WorkspaceId) (rows : List AssignmentId) :
    List WorkerId → Fleet → Except ApiError Fleet
  | [], f => .ok f
  | wid :: rest, f =>
      let credentials :=
        revokeWhere (fun c => c.workerId == wid && c.workspaceId == ws) f.credentials
      match reapHoldings cfg { f with credentials := credentials } now wid .workerRevoked rows with
      | .error e => .error e
      | .ok f => stopEach cfg now ws rows rest (f.updateWorker wid WorkerRegistration.stop)

/-- The assignments that row level security lets the session of an administrator of these
workspaces update. -/
def updatableRows (f : Fleet) (administered : List WorkspaceId) (rows : List AssignmentId) :
    List AssignmentId :=
  rows.filter fun aid => (f.db.assignments[aid]?).any fun a => administered.contains a.workspaceId

/-- `emergency_stop`, in the session of an administrator of `ws` and of `others`; `workers` is
the order in which the workers are scanned. -/
def emergencyStop (cfg : Config) (f : Fleet) (now : Instant) (ws : WorkspaceId)
    (others : List WorkspaceId) (workers : List WorkerId) (rows : List AssignmentId) :
    Except ApiError Fleet :=
  stopEach cfg now ws (updatableRows f (ws :: others) rows) (workspaceWorkers f ws workers) f

/-! ## Operations on the fleet -/

/-- A transaction of the orchestration, or a request. -/
inductive FleetAction where
  | op (action : Action)
  | register (auth : AuthenticatedWorker) (payload : WorkerRegisterIn) (rows : List AssignmentId)
  | heartbeat (auth : AuthenticatedWorker) (status : WorkerStatus) (currentLoad : Nat)
  | deregister (auth : AuthenticatedWorker) (rows : List AssignmentId)
  | claim (auth : AuthenticatedWorker) (token : Option ClaimToken) (rows : List AssignmentId)
  | ack (auth : AuthenticatedWorker) (aid : AssignmentId)
  | renew (auth : AuthenticatedWorker) (aid : AssignmentId)
  | submit (auth : AuthenticatedWorker) (aid : AssignmentId) (payload : SubmitIn) (jitter : Nat)
  | revoke (ws : WorkspaceId) (wid : WorkerId) (rows : List AssignmentId)
  | emergencyStop (ws : WorkspaceId) (others : List WorkspaceId) (workers : List WorkerId)
      (rows : List AssignmentId)

structure FleetOp where
  now : Instant
  action : FleetAction

/-- The fleet that a request computes. -/
def FleetOp.call (cfg : Config) (f : Fleet) (o : FleetOp) : Except ApiError Fleet :=
  match o.action with
  | .op action => .ok { f with db := exec cfg f.db ⟨o.now, action⟩ }
  | .register auth payload rows => registerWorker cfg f o.now auth payload rows
  | .heartbeat auth status currentLoad => workerHeartbeat f o.now auth status currentLoad
  | .deregister auth rows => deregisterWorker cfg f o.now auth rows
  | .claim auth token rows => (claimEndpoint cfg f o.now auth token rows).map Prod.fst
  | .ack auth aid => (ackAssignment cfg f o.now auth aid).map Prod.fst
  | .renew auth aid => renewAssignmentLease cfg f o.now auth aid
  | .submit auth aid payload jitter =>
      (submitAssignmentResult cfg f o.now auth aid payload jitter).map Prod.fst
  | .revoke ws wid rows => revokeWorkerCredentials cfg f o.now ws wid rows
  | .emergencyStop ws others workers rows => emergencyStop cfg f o.now ws others workers rows

/-- A refused request changes nothing; an accepted one is flushed and committed. -/
def fleetExec (cfg : Config) (f : Fleet) (o : FleetOp) : Fleet :=
  match o.call cfg f with
  | .error _ => f
  | .ok f' => { f' with db := f'.db.flush }

end HumanGate
