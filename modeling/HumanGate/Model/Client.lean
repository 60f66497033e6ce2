import HumanGate.Model.Workers

set_option autoImplicit false

/-! # The reference worker

`apps/worker/worker/client.py`: a worker process claims an assignment (`claim_next`), acknowledges
it, executes it and submits the result (`run_one`), over HTTP. A *site* is the fleet with the
processes and everything they have sent and been answered. Requests and responses stay in the site
once they are there. A request that is served again is a duplicate, one that is served late was
delayed, one that is never served was lost; the same goes for a response that is received. HTTP
ties a response to the call it answers, and a process waits for one call at a time.

The keyword arguments of the executor (topic, provider, and so on) are not modelled: what it
produces is an input of the model.
-/

namespace HumanGate

open Lib Lib.Calendar

/-! ## Requests and responses -/

inductive ClientRequest where
  | claim (token : ClaimToken)
  | ack (aid : AssignmentId)
  | renew (aid : AssignmentId)
  | submit (aid : AssignmentId) (payload : SubmitIn)

inductive ClientResponse where
  | claim (outcome : ClaimOutcome) (assignment : Option AssignmentId)
  | lease (providerEffectCreated : Option Bool)
  | submit (out : SubmitOut)
  | error (e : ApiError)

structure HttpRequest where
  client : Nat
  call : Nat
  auth : AuthenticatedWorker
  request : ClientRequest

structure HttpResponse where
  client : Nat
  call : Nat
  response : ClientResponse

/-! ## A worker process -/

/-- `_CLAIM_NETWORK_RETRY_ATTEMPTS`. -/
def claimNetworkRetryAttempts : Nat := 3

/-- Where a process stands in `claim_next` and `run_one`, with the call that it waits for. -/
inductive ClientPhase where
  | idle
  | claiming (call : Nat) (token : ClaimToken) (retries : Nat)
  | claimed (aid : AssignmentId)
  | acking (call : Nat) (aid : AssignmentId)
  | executing (aid : AssignmentId)
  | submitting (call : Nat)
  | crashed
  deriving DecidableEq

/-- The process; `calls` counts the HTTP calls it has made. -/
structure ReferenceWorkerClient where
  auth : AuthenticatedWorker
  draining : Bool := false
  currentLoad : Nat := 0
  calls : Nat := 0
  phase : ClientPhase := .idle

/-- What a process does at once: it may send a request, and it may call the executor on the
assignment that a call acknowledged. -/
structure ClientStep where
  client : ReferenceWorkerClient
  request : Option ClientRequest := none
  executes : Option (Nat × AssignmentId) := none

inductive ClientInput where
  /-- The loop of `main.py` calls `claim_next`; the token is a fresh UUID. -/
  | claimNext (token : ClaimToken)
  /-- It calls `run_one` on what was claimed. -/
  | runOne
  /-- The call that the process waits for fails in transit. -/
  | transportError
  /-- `_renew_while_running`. -/
  | renew
  /-- The renewals raise something else than an HTTP error, which ends `run_one`. -/
  | renewRaised
  /-- The executor returns; an exception of it counts as a failure. -/
  | executed (success : Bool) (result : Option JsonObject) (error : String)
  | drain
  | crash

namespace ReferenceWorkerClient

/-- Send a request, and wait for the call or go on. -/
def post (c : ReferenceWorkerClient) (request : ClientRequest) (phase : Nat → ClientPhase) :
    ClientStep where
  client := { c with calls := c.calls + 1, phase := phase c.calls }
  request := some request

def goto (c : ReferenceWorkerClient) (phase : ClientPhase) : ClientStep where
  client := { c with phase := phase }

/-- The refusal that `run_one` submits when the effect key was reserved before. -/
def refusal : SubmitIn where
  success := false
  errorMessage := "provider effect already reserved by a prior attempt of this " ++
    "assignment; refusing to repeat a possibly-billable side effect"

def handle (c : ReferenceWorkerClient) : ClientInput → ClientStep
  | .claimNext token =>
      if c.draining = true ∨ c.phase ≠ .idle then ⟨c, none, none⟩
      else c.post (.claim token) fun call => .claiming call token (claimNetworkRetryAttempts - 1)
  | .runOne =>
      match c.phase with
      | .claimed aid => c.post (.ack aid) fun call => .acking call aid
      | _ => ⟨c, none, none⟩
  | .transportError =>
      match c.phase with
      -- a claim is repeated under its token
      | .claiming _ token (retries + 1) =>
          c.post (.claim token) fun call => .claiming call token retries
      | .claiming .. | .acking .. | .submitting _ => c.goto .idle
      | _ => ⟨c, none, none⟩
  | .renew =>
      match c.phase with
      | .executing aid => c.post (.renew aid) fun _ => .executing aid
      | _ => ⟨c, none, none⟩
  | .renewRaised =>
      match c.phase with
      | .executing _ => c.goto .idle
      | _ => ⟨c, none, none⟩
  | .executed success result error =>
      match c.phase with
      | .executing aid => c.post (.submit aid ⟨success, result, error, none⟩) .submitting
      | _ => ⟨c, none, none⟩
  | .drain => ⟨{ c with draining := true }, none, none⟩
  | .crash => c.goto .crashed

/-- The response to the call that the process waits for. -/
def receive (c : ReferenceWorkerClient) (response : ClientResponse) : ClientStep :=
  match c.phase, response with
  | .claiming .., .claim .granted (some aid) =>
      ⟨{ c with currentLoad := c.currentLoad + 1, phase := .claimed aid }, none, none⟩
  | .claiming .., _ => c.goto .idle
  | .acking call aid, .lease created =>
      -- `ack_response.get("provider_effect_created") is False`
      if created = some false then c.post (.submit aid refusal) .submitting
      else ⟨{ c with phase := .executing aid }, none, some (call, aid)⟩
  | .acking .., _ => c.goto .idle
  | .submitting _, .submit _ =>
      ⟨{ c with currentLoad := c.currentLoad - 1, phase := .idle }, none, none⟩
  | .submitting _, _ => c.goto .idle
  | _, _ => ⟨c, none, none⟩

/-- The call that the process waits for. -/
def awaits (c : ReferenceWorkerClient) : Option Nat :=
  match c.phase with
  | .claiming call .. | .acking call _ | .submitting call => some call
  | _ => none

end ReferenceWorkerClient

/-! ## The server's side -/

/-- A committed fleet and the answer. -/
def answer (f : Fleet) {α : Type} (r : Except ApiError (Fleet × α)) (out : α → ClientResponse) :
    Fleet × ClientResponse :=
  match r with
  | .error e => (f, .error e)
  | .ok (f', a) => ({ f' with db := f'.db.flush }, out a)

/-- Handle a request; `rows` is the order in which a claim scans, `jitter` the delay of a retry. -/
def serveRequest (cfg : Config) (f : Fleet) (now : Instant) (rows : List AssignmentId)
    (jitter : Nat) (q : HttpRequest) : Fleet × ClientResponse :=
  match q.request with
  | .claim token =>
      answer f (claimEndpoint cfg f now q.auth (some token) rows) fun r =>
        .claim r.outcome r.assignment
  | .ack aid => answer f (ackAssignment cfg f now q.auth aid) fun created => .lease (some created)
  | .renew aid =>
      answer f ((renewAssignmentLease cfg f now q.auth aid).map fun f => (f, ())) fun _ =>
        .lease none
  | .submit aid payload =>
      answer f (submitAssignmentResult cfg f now q.auth aid payload jitter) .submit

/-! ## The site -/

/-- A call of a process about an assignment. -/
structure AckCall where
  client : Nat
  call : Nat
  assignmentId : AssignmentId
  deriving DecidableEq

/-- `reserved` and `executions` are records of the model: the acknowledgements that were committed
with a new effect key, and the calls of the executor, each under the call that acknowledged. -/
structure Site where
  fleet : Fleet
  clients : List ReferenceWorkerClient := []
  requests : List HttpRequest := []
  responses : List HttpResponse := []
  reserved : List AckCall := []
  executions : List AckCall := []

inductive SiteAction where
  | spawn (auth : AuthenticatedWorker)
  | client (i : Nat) (input : ClientInput)
  | receive (i : Nat) (j : Nat)
  | serve (j : Nat) (rows : List AssignmentId) (jitter : Nat)
  /-- Anything else that the server does, or is asked to do by others. -/
  | server (action : FleetAction)

structure SiteOp where
  now : Instant
  action : SiteAction

/-- The process `i`, which was `c`, takes a step. -/
def Site.advance (s : Site) (i : Nat) (c : ReferenceWorkerClient) (step : ClientStep) : Site :=
  { s with
    clients := s.clients.set i step.client
    requests := s.requests ++ (step.request.map fun r => ⟨i, c.calls, c.auth, r⟩).toList
    executions := s.executions ++ (step.executes.map fun x => ⟨i, x.1, x.2⟩).toList }

/-- The acknowledgement that an answer says is the first. -/
def HttpRequest.reserves (q : HttpRequest) : ClientResponse → Option AckCall
  | .lease (some true) =>
      match q.request with
      | .ack aid => some ⟨q.client, q.call, aid⟩
      | _ => none
  | _ => none

def Site.serve (s : Site) (q : HttpRequest) (r : Fleet × ClientResponse) : Site :=
  { s with
    fleet := r.1
    responses := s.responses ++ [⟨q.client, q.call, r.2⟩]
    reserved := s.reserved ++ (q.reserves r.2).toList }

def siteExec (cfg : Config) (s : Site) (o : SiteOp) : Site :=
  match o.action with
  | .spawn auth => { s with clients := s.clients ++ [{ auth := auth }] }
  | .client i input =>
      match s.clients[i]? with
      | none => s
      | some c => s.advance i c (c.handle input)
  | .receive i j =>
      match s.clients[i]?, s.responses[j]? with
      | some c, some r =>
          if r.client = i ∧ c.awaits = some r.call then s.advance i c (c.receive r.response) else s
      | _, _ => s
  | .serve j rows jitter =>
      match s.requests[j]? with
      | none => s
      | some q => s.serve q (serveRequest cfg s.fleet o.now rows jitter q)
  | .server action => { s with fleet := fleetExec cfg s.fleet ⟨o.now, action⟩ }

end HumanGate
