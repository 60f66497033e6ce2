import HumanGate.Lib.Interleaving
import HumanGate.Model.Workers

set_option autoImplicit false

/-! # Requests on their way through the API

A machine request is served in two transactions: `get_current_worker`
(`app/core/worker_auth.py`) reads the credential in a session of its own, and the handler opens
another one. Whatever else is committed in between, also a revocation, the handler is then run for
the identity that was read. The requests of an administrator, who has no machine credential, and
the transactions of the orchestration are served in one.

The time at which a transaction is run is the choice it is given.
-/

namespace HumanGate

open Lib Lib.Calendar Lib.Interleaving

/-! ## Authentication -/

/-- What the bearer token of a request says: the credential it names, if it can be parsed, and
whether the hash of its secret is the stored one. -/
structure BearerToken where
  credentialId : Option CredentialId
  secretOk : Bool := true
  deriving DecidableEq

def unauthorized : ApiError := .http 401 "invalid worker credentials"

/-- `get_current_worker`: one answer for every failure. -/
def getCurrentWorker (f : Fleet) (now : Instant) (token : BearerToken) :
    Except ApiError AuthenticatedWorker :=
  match token.credentialId with
  | none => .error unauthorized
  | some cid =>
      match f.credentials[cid]? with
      | none => .error unauthorized
      | some c =>
          if token.secretOk = false then .error unauthorized
          else if c.status ≠ .active then .error unauthorized
          else if c.expiresAt.any fun t => decide (t ≤ now) then .error unauthorized
          else .ok ⟨c.workerId, cid, c.workspaceId⟩

/-! ## Machine requests -/

inductive MachineRequest where
  | register (payload : WorkerRegisterIn) (rows : List AssignmentId)
  | heartbeat (status : WorkerStatus) (currentLoad : Nat)
  | deregister (rows : List AssignmentId)
  | claim (token : Option ClaimToken) (rows : List AssignmentId)
  | ack (aid : AssignmentId)
  | renew (aid : AssignmentId)
  | submit (aid : AssignmentId) (payload : SubmitIn) (jitter : Nat)

/-- The handler of the request. -/
def MachineRequest.action (auth : AuthenticatedWorker) : MachineRequest → FleetAction
  | .register payload rows => .register auth payload rows
  | .heartbeat status currentLoad => .heartbeat auth status currentLoad
  | .deregister rows => .deregister auth rows
  | .claim token rows => .claim auth token rows
  | .ack aid => .ack auth aid
  | .renew aid => .renew auth aid
  | .submit aid payload jitter => .submit auth aid payload jitter

/-! ## Administration -/

/-- `provision_worker`: the registration and its first credential. -/
def provisionWorker (f : Fleet) (ws : WorkspaceId) (supportedStages : List String)
    (maxConcurrency : Nat) : Fleet :=
  { f with
    db := { f.db with workers := f.db.workers ++ [{
      workspaceId := some ws
      supportedStages := supportedStages
      status := .offline
      maxConcurrency := maxConcurrency
      currentLoad := 0
      healthScore := 100
      lastHeartbeatAt := none
      drain := false
      deregisteredAt := none }] }
    credentials := f.credentials ++ [{ workerId := f.db.workers.length, workspaceId := ws }] }

/-- `_get_workspace_worker`. -/
def getWorkspaceWorker (f : Fleet) (ws : WorkspaceId) (wid : WorkerId) :
    Except ApiError WorkerRegistration :=
  match (f.db.workers[wid]?).filter fun w => w.workspaceId == some ws with
  | none => .error (.http 404 "worker not found")
  | some w => .ok w

/-- `set_worker_drain`. -/
def setWorkerDrain (f : Fleet) (ws : WorkspaceId) (wid : WorkerId) (drain : Bool) :
    Except ApiError Fleet :=
  match getWorkspaceWorker f ws wid with
  | .error e => .error e
  | .ok _ => .ok (f.updateWorker wid fun w => { w with drain := drain })

/-- The credential is good until the end of the grace at the latest. -/
def WorkerCredential.rotate (graceUntil : Instant) (c : WorkerCredential) : WorkerCredential :=
  { c with
    expiresAt :=
      if c.expiresAt.all fun t => decide (graceUntil < t) then some graceUntil else c.expiresAt }

/-- `rotate_worker_credential`: the active credentials get a grace, and a new one is issued.
`grace` is `worker_credential_rotation_grace_seconds`. -/
def rotateWorkerCredential (f : Fleet) (now : Instant) (ws : WorkspaceId) (wid : WorkerId)
    (grace : Nat) : Except ApiError Fleet :=
  match getWorkspaceWorker f ws wid with
  | .error e => .error e
  | .ok _ =>
      let old := f.credentials.map fun c =>
        if c.workerId == wid && c.status == .active then c.rotate (now + seconds grace) else c
      .ok { f with credentials := old ++ [{ workerId := wid, workspaceId := ws }] }

/-- What is served without a machine credential. -/
inductive TrustedAction where
  | op (action : Action)
  | provision (ws : WorkspaceId) (supportedStages : List String) (maxConcurrency : Nat)
  | setDrain (ws : WorkspaceId) (wid : WorkerId) (drain : Bool)
  | rotate (ws : WorkspaceId) (wid : WorkerId) (grace : Nat)
  | revoke (ws : WorkspaceId) (wid : WorkerId) (rows : List AssignmentId)
  | emergencyStop (ws : WorkspaceId) (others : List WorkspaceId) (workers : List WorkerId)
      (rows : List AssignmentId)

def TrustedAction.call (cfg : Config) (f : Fleet) (now : Instant) :
    TrustedAction → Except ApiError Fleet
  | .op action => .ok (fleetExec cfg f ⟨now, .op action⟩)
  | .provision ws supportedStages maxConcurrency =>
      .ok (provisionWorker f ws supportedStages maxConcurrency)
  | .setDrain ws wid drain => setWorkerDrain f ws wid drain
  | .rotate ws wid grace => rotateWorkerCredential f now ws wid grace
  | .revoke ws wid rows => FleetOp.call cfg f ⟨now, .revoke ws wid rows⟩
  | .emergencyStop ws others workers rows =>
      FleetOp.call cfg f ⟨now, .emergencyStop ws others workers rows⟩

/-! ## Interleavings -/

/-- A request under way. -/
inductive FleetRequest where
  | arrived (token : BearerToken) (request : MachineRequest)
  | admitted (auth : AuthenticatedWorker) (request : MachineRequest)
  | trusted (action : TrustedAction)
  | finished (error : Option ApiError)

/-- The transaction that is over: what it leaves, and what it answers. -/
def FleetRequest.close (f : Fleet) : Except ApiError Fleet → Fleet × FleetRequest
  | .error e => (f, .finished (some e))
  | .ok f' => ({ f' with db := f'.db.flush }, .finished none)

/-- The next transaction of the request. -/
def FleetRequest.next (cfg : Config) (f : Fleet) (_ : Nat) (r : FleetRequest) (now : Instant) :
    Fleet × FleetRequest :=
  match r with
  | .arrived token request =>
      match getCurrentWorker f now token with
      | .error e => (f, .finished (some e))
      | .ok auth => (f, .admitted auth request)
  | .admitted auth request => close f (FleetOp.call cfg f ⟨now, request.action auth⟩)
  | .trusted action => close f (action.call cfg f now)
  | .finished error => (f, .finished error)

/-- A request starts with its token, or is trusted. -/
def FleetRequest.Starts : FleetRequest → Prop
  | .arrived .. | .trusted _ => True
  | .admitted .. | .finished _ => False

instance decRequestStarts : (r : FleetRequest) → Decidable r.Starts
  | .arrived .. | .trusted _ => isTrue trivial
  | .admitted .. | .finished _ => isFalse id

/-- Any number of requests, transaction by transaction, in any order. -/
def requests (cfg : Config) : Program Fleet FleetRequest Instant where
  starts _ r := r.Starts
  ready _ _ _ _ := True
  next := FleetRequest.next cfg

instance decRequestsStarts (cfg : Config) (f : Fleet) (r : FleetRequest) :
    Decidable ((requests cfg).starts f r) :=
  decRequestStarts r

instance decRequestsReady (cfg : Config) (f : Fleet) (rs : List FleetRequest) (i : Nat)
    (now : Instant) : Decidable ((requests cfg).ready f rs i now) :=
  isTrue trivial

end HumanGate
