import HumanGate.Fleet.Exclusive

set_option autoImplicit false

/-! # Requests that arrive late

A worker acknowledges, renews and submits by the identifier of the assignment. The request says
neither which attempt it is for nor under which claim, and what the server checks is the worker and
the lease. So a request that is still under way when the assignment is recovered and given to the
same worker again is taken for one about the new attempt (`late_result_closes_next_attempt`).

`Mail` is the fleet with the requests under way. A request is fenced as long as no worker is given
an assignment while one of its requests about an earlier attempt of it is under way (`NoOverlap`).
-/

namespace HumanGate

open Lib Lib.Calendar Relation

variable {cfg : Config} {now : Instant}

/-! ## Requests under way -/

/-- What a worker asks for about an assignment it holds. -/
inductive LeaseRequest where
  | ack
  | renew
  | submit (payload : SubmitIn) (jitter : Nat)

/-- A request under way. The attempt is the one that was held when it was sent; the request itself
does not carry it. -/
structure Letter where
  auth : AuthenticatedWorker
  assignmentId : AssignmentId
  request : LeaseRequest
  attempt : Nat

/-- What the request asks of the server when it arrives. -/
def Letter.action (m : Letter) : FleetAction :=
  match m.request with
  | .ack => .ack m.auth m.assignmentId
  | .renew => .renew m.auth m.assignmentId
  | .submit payload jitter => .submit m.auth m.assignmentId payload jitter

structure Mail where
  fleet : Fleet
  sent : List Letter := []

inductive MailAction where
  | serve (action : FleetAction)
  | send (auth : AuthenticatedWorker) (aid : AssignmentId) (request : LeaseRequest)
  | deliver (i : Nat)
  | lose (i : Nat)

structure MailOp where
  now : Instant
  action : MailAction

/-- The request that reaches the server. -/
def MailOp.served (s : Mail) (o : MailOp) : Option FleetOp :=
  match o.action with
  | .serve action => some ⟨o.now, action⟩
  | .deliver i => (s.sent[i]?).map fun m => ⟨o.now, m.action⟩
  | .send .. | .lose _ => none

/-- A worker sends a request while it holds the assignment. -/
def Mail.send (s : Mail) (auth : AuthenticatedWorker) (aid : AssignmentId)
    (request : LeaseRequest) : Mail :=
  match s.fleet.row aid with
  | none => s
  | some a =>
      if a.workerId = some auth.workerId ∧ a.status.inFlight = true then
        { s with sent := s.sent ++ [⟨auth, aid, request, a.attemptNumber⟩] }
      else s

def mailExec (cfg : Config) (s : Mail) (o : MailOp) : Mail :=
  match o.action with
  | .serve action => { s with fleet := fleetExec cfg s.fleet ⟨o.now, action⟩ }
  | .send auth aid request => s.send auth aid request
  | .deliver i =>
      match s.sent[i]? with
      | none => s
      | some m => ⟨fleetExec cfg s.fleet ⟨o.now, m.action⟩, s.sent.eraseIdx i⟩
  | .lose i => { s with sent := s.sent.eraseIdx i }

/-- Every order of requests, arrivals, recoveries and losses. -/
def mail (cfg : Config) : System Mail MailOp where
  init s := Fresh s.fleet.db ∧ s.sent = []
  allowed s o := ∀ served ∈ o.served s, served.action.ByWorker
  exec := mailExec cfg

/-- A request changes the assignment it is about: it is acknowledged, its lease is extended, or
its result is recorded. -/
def Applied (cfg : Config) (f : Fleet) (now : Instant) (m : Letter) : Prop :=
  (fleetExec cfg f ⟨now, m.action⟩).row m.assignmentId ≠ f.row m.assignmentId

/-- The request would be applied to the attempt it was sent for, if it arrived now. -/
def Fenced (cfg : Config) (f : Fleet) (now : Instant) (m : Letter) : Prop :=
  Applied cfg f now m → (f.row m.assignmentId).map StageAssignment.attemptNumber = some m.attempt

/-- No worker is given an assignment while one of its requests about an earlier attempt of it is
under way. -/
def NoOverlap (cfg : Config) (s : Mail) (o : MailOp) : Prop :=
  ∀ served ∈ o.served s, ∀ m ∈ s.sent, ∀ n,
    Grants cfg s.fleet served m.assignmentId n m.auth.workerId → n ≤ m.attempt

/-! ## The row of a request under way -/

/-- What is known of the row while a request for the attempt `n` is under way: it is not for an
earlier attempt, and if the worker holds it, it is for that one. -/
def Awaits (n : Nat) (wid : WorkerId) (a : StageAssignment) : Prop :=
  n ≤ a.attemptNumber ∧ (a.workerId = some wid → a.attemptNumber = n)

theorem RowMove.awaits {k : MoveKind} {a a' : StageAssignment} (h : RowMove cfg now a k a')
    (hk : k ≠ .claim) {n : Nat} {wid : WorkerId} (ha : Awaits n wid a) : Awaits n wid a' := by
  cases h with
  | claim => exact absurd rfl hk
  | requeue hst =>
      refine ⟨Nat.le_succ_of_le ha.1, fun hw => ?_⟩
      cases hw
  | exhaust hst =>
      refine ⟨ha.1, fun hw => ?_⟩
      cases hw
  | acknowledge | confirm | extend | close | cancel => exact ha

/-- The rows that claims leave: as they were, or claimed once. -/
theorem Moves.claimed {c c' : Crew} (h : Moves cfg now [.claim] c c') {aid : AssignmentId}
    {a : StageAssignment} (ha : c.assignments[aid]? = some a) :
    ∃ a', c'.assignments[aid]? = some a' ∧
      (a' = a ∨ a.status = .pending ∧ a'.status = .dispatched ∧
        a'.attemptNumber = a.attemptNumber) := by
  refine h.row (P := fun a' => a' = a ∨ a.status = .pending ∧ a'.status = .dispatched ∧
    a'.attemptNumber = a.attemptNumber) ?_ ha (.inl rfl)
  intro k hk b b' hmove hb
  cases hmove with
  | claim wid token hst =>
      rcases hb with rfl | ⟨_, hb, _⟩
      · exact .inr ⟨hst, rfl, rfl⟩
      · rw [hst] at hb
        cases hb
  | _ => simp at hk

theorem FleetAction.kinds_of_claim {a : FleetAction} (h : .claim ∈ a.kinds) :
    a.kinds = [.claim] := by
  cases a with
  | op action =>
      cases action with
      | acknowledge aid secs worker => cases worker <;> simp [FleetAction.kinds, Action.kinds] at h
      | _ => simp_all [FleetAction.kinds, Action.kinds]
  | _ => simp_all [FleetAction.kinds]

/-- **One request at the server**, while another one is under way. -/
theorem fleetExec_awaits {f : Fleet} {o : FleetOp} {aid : AssignmentId} {a : StageAssignment}
    {n : Nat} {wid : WorkerId}
    (hgrant : ∀ m, Grants cfg f o aid m wid → m ≤ n) (ha : f.row aid = some a)
    (hP : Awaits n wid a) :
    ∃ a', (fleetExec cfg f o).row aid = some a' ∧ Awaits n wid a' := by
  have hmoves := fleetExec_moves cfg f o
  by_cases hclaim : .claim ∈ o.action.kinds
  · rw [FleetAction.kinds_of_claim hclaim] at hmoves
    obtain ⟨a', ha', rfl | ⟨hpend, hdisp, hatt⟩⟩ := hmoves.claimed ha
    · exact ⟨a', ha', hP⟩
    · refine ⟨a', ha', hatt ▸ hP.1, fun hw => ?_⟩
      -- the assignment was handed to the worker just now
      have hle : a'.attemptNumber ≤ n := by
        refine hgrant a'.attemptNumber ⟨fun b hb => ?_, a', ha', by rw [hdisp]; rfl, rfl, hw⟩
        rw [ha] at hb
        cases hb
        rw [hpend]
        rfl
      exact Nat.le_antisymm hle (hatt ▸ hP.1)
  · refine hmoves.row (fun k hk a a' hmove => hmove.awaits ?_) ha hP
    rintro rfl
    exact hclaim hk

/-! ## What is applied -/

theorem acknowledge_owner {s s' : Db} {aid : AssignmentId} {a : StageAssignment} {wid : WorkerId}
    {secs : Option Nat} (h : acknowledge cfg s now aid secs (some wid) = .ok s')
    (ha : s.assignments[aid]? = some a) : a.workerId = some wid := by
  by_contra hne
  unfold acknowledge at h
  simp [ha, leaseRefusal, hne] at h

theorem renewLease_owner {s s' : Db} {aid : AssignmentId} {a : StageAssignment} {wid : WorkerId}
    {secs : Option Nat} (h : renewLease cfg s now aid secs (some wid) = .ok s')
    (ha : s.assignments[aid]? = some a) : a.workerId = some wid := by
  by_contra hne
  unfold renewLease at h
  simp [ha, leaseRefusal, hne] at h

theorem fleetExec_of_error {f : Fleet} {o : FleetOp} {e : ApiError} (h : o.call cfg f = .error e) :
    fleetExec cfg f o = f := by
  unfold fleetExec
  rw [h]

/-- A request that is applied is one of the worker that has the assignment. -/
theorem Applied.owner {f : Fleet} {m : Letter} (h : Applied cfg f now m) :
    ∃ a, f.row m.assignmentId = some a ∧ a.workerId = some m.auth.workerId := by
  obtain ⟨auth, aid, request, attempt⟩ := m
  unfold Applied Letter.action at h
  cases request with
  | ack =>
      cases hcall : ackAssignment cfg f now auth aid with
      | error e =>
          rw [fleetExec_of_error (e := e) (by simp [FleetOp.call, hcall, Except.map])] at h
          exact absurd rfl h
      | ok r =>
          unfold ackAssignment at hcall
          split at hcall
          · cases hcall
          · rename_i a howned
            obtain ⟨hrow, _⟩ := ownedAssignment_spec howned
            split at hcall
            · cases hcall
            · rename_i s hack
              exact ⟨a, hrow, acknowledge_owner hack hrow⟩
  | renew =>
      cases hcall : renewAssignmentLease cfg f now auth aid with
      | error e =>
          rw [fleetExec_of_error (e := e) (by simp [FleetOp.call, hcall])] at h
          exact absurd rfl h
      | ok r =>
          unfold renewAssignmentLease at hcall
          split at hcall
          · cases hcall
          · rename_i a howned
            obtain ⟨hrow, _⟩ := ownedAssignment_spec howned
            split at hcall
            · cases hcall
            · rename_i s hrenew
              exact ⟨a, hrow, renewLease_owner hrenew hrow⟩
  | submit payload jitter =>
      cases hcall : submitAssignmentResult cfg f now auth aid payload jitter with
      | error e =>
          rw [fleetExec_of_error (e := e) (by simp [FleetOp.call, hcall, Except.map])] at h
          exact absurd rfl h
      | ok r =>
          have hexec : fleetExec cfg f ⟨now, .submit auth aid payload jitter⟩
              = { r.1 with db := r.1.db.flush } := by
            simp [fleetExec, FleetOp.call, hcall, Except.map]
          rw [hexec] at h
          unfold submitAssignmentResult at hcall
          split at hcall
          · cases hcall
          · rename_i a howned
            obtain ⟨hrow, _⟩ := ownedAssignment_spec howned
            simp only [ensureProviderEffectKey_db] at hcall
            split at hcall
            · -- a replay changes nothing
              cases hcall
              refine absurd ?_ h
              simp [Fleet.row, Db.flush]
            · split at hcall
              · cases hcall
              · rename_i hraised
                exact ⟨a, hrow, (submitResult_row rfl hrow hraised).1⟩

/-! ## Every run -/

/-- Every request under way waits for a row as above. -/
def Mail.Fences (s : Mail) : Prop :=
  ∀ m ∈ s.sent, ∃ a, s.fleet.row m.assignmentId = some a ∧ Awaits m.attempt m.auth.workerId a

theorem Mail.Fences.serve {s : Mail} (h : s.Fences) {o : FleetOp}
    (hno : ∀ m ∈ s.sent, ∀ n, Grants cfg s.fleet o m.assignmentId n m.auth.workerId →
      n ≤ m.attempt) {sent : List Letter} (hsent : sent ⊆ s.sent) :
    Mail.Fences ⟨fleetExec cfg s.fleet o, sent⟩ := by
  intro m hm
  obtain ⟨a, ha, hP⟩ := h m (hsent hm)
  exact fleetExec_awaits (hno m (hsent hm)) ha hP

theorem mailExec_fences {s : Mail} {o : MailOp} (h : s.Fences) (hno : NoOverlap cfg s o) :
    (mailExec cfg s o).Fences := by
  obtain ⟨now, action⟩ := o
  cases action with
  | serve action => exact h.serve (hno _ rfl) (List.Subset.refl _)
  | lose i => exact fun m hm => h m (List.eraseIdx_subset hm)
  | deliver i =>
      simp only [mailExec]
      split
      · exact h
      · rename_i m hm
        refine h.serve (hno _ ?_) List.eraseIdx_subset
        simp [MailOp.served, hm]
  | send auth aid request =>
      simp only [mailExec, Mail.send]
      split
      · exact h
      · rename_i a ha
        split
        · rename_i hheld
          intro m hm
          rcases List.mem_append.mp hm with hm | hm
          · exact h m hm
          · rw [List.mem_singleton.mp hm]
            exact ⟨a, ha, Nat.le_refl _, fun _ => rfl⟩
        · exact h

/-- **Lease fencing**, in every run in which no worker is given an assignment while one of its
requests about an earlier attempt of it is under way. -/
theorem requests_fenced (cfg : Config) (s : Mail)
    (h : ((mail cfg).restrict (NoOverlap cfg)).Reachable s) (now : Instant) :
    ∀ m ∈ s.sent, Fenced cfg s.fleet now m := by
  have hf : s.Fences := by
    refine h.invariant (I := Mail.Fences) ?_ ?_
    · rintro s ⟨_, hsent⟩ m hm
      rw [hsent] at hm
      cases hm
    · rintro s o hs ⟨_, hno⟩
      exact mailExec_fences hs hno
  -- whoever is let through owns the row, and owns it for the attempt of the request
  intro m hm happ
  obtain ⟨a, ha, _, hown⟩ := hf m hm
  obtain ⟨b, hb, hw⟩ := happ.owner
  rw [ha] at hb
  cases hb
  rw [ha, Option.map_some, hown hw]

/-! ## A script that is claimed twice -/

instance (cfg : Config) (s : Mail) (o : MailOp) : Decidable ((mail cfg).allowed s o) :=
  inferInstanceAs (Decidable (∀ served ∈ o.served s, served.action.ByWorker))

/-- The result of a script. -/
def scriptResult : LeaseRequest := .submit ⟨true, none, "", none⟩ 0

/-- A run is started and its script queued and claimed; then the worker sends its result. -/
def resultSent : List MailOp :=
  claimFleetOps.map (fun o => ⟨o.now, .serve o.action⟩) ++ [⟨5, .send deskAuth 0 scriptResult⟩]

def sentResult : Mail := resultSent.foldl (mailExec patientConfig) ⟨claimFleet, []⟩

theorem sent_result_fenced :
    sentResult.sent.map Letter.attempt = [1] ∧
    ((fleetExec patientConfig sentResult.fleet
      ⟨6, .submit deskAuth 0 ⟨true, none, "", none⟩ 0⟩).row 0).map StageAssignment.status
        = some .completed ∧
    ∀ m ∈ sentResult.sent, Fenced patientConfig sentResult.fleet 6 m := by
  refine ⟨by decide +kernel, by decide +kernel, requests_fenced patientConfig sentResult ?_ 6⟩
  refine .of_legal resultSent (.init ⟨?_, rfl⟩) ?_
  · exact ⟨rfl, rfl, rfl, rfl, rfl, rfl, rfl, rfl, rfl⟩
  · -- nothing is under way until the last step, which reaches no server
    have hempty : ∀ (s : Mail) (o : MailOp), s.sent = [] → NoOverlap patientConfig s o := by
      intro s o hs served _ m hm
      rw [hs] at hm
      cases hm
    refine ⟨⟨?_, hempty _ _ rfl⟩, ⟨?_, hempty _ _ rfl⟩, ⟨?_, hempty _ _ rfl⟩, ⟨?_, hempty _ _ rfl⟩,
      ⟨?_, hempty _ _ rfl⟩, ⟨?_, hempty _ _ rfl⟩, trivial⟩ <;> decide

/-- The result is slow; meanwhile the lease runs out, and the worker claims the script again. -/
def resultLate : List MailOp :=
  resultSent ++ [⟨seconds 61, .serve (.op (.reapExpiredLeases none [0]))⟩,
    ⟨seconds 62, .serve (.claim deskAuth none [0])⟩]

def lateResult : Mail := resultLate.foldl (mailExec patientConfig) ⟨claimFleet, []⟩

/-- The result of the first attempt completes the second one. -/
theorem late_result_closes_next_attempt :
    (mail patientConfig).Reachable lateResult ∧
    (lateResult.fleet.row 0).map (fun a => (a.status, a.attemptNumber)) = some (.dispatched, 2) ∧
    ((mailExec patientConfig lateResult ⟨seconds 63, .deliver 0⟩).fleet.row 0).map
      (fun a => (a.status, a.attemptNumber)) = some (.completed, 2) ∧
    ∃ m ∈ lateResult.sent, m.attempt = 1 ∧
      ¬ Fenced patientConfig lateResult.fleet (seconds 63) m := by
  have hrow : (lateResult.fleet.row 0).map (fun a => (a.status, a.attemptNumber))
      = some (.dispatched, 2) := by
    decide +kernel
  have hdone : ((mailExec patientConfig lateResult ⟨seconds 63, .deliver 0⟩).fleet.row 0).map
      (fun a => (a.status, a.attemptNumber)) = some (.completed, 2) := by
    decide +kernel
  have hsent : lateResult.sent.map (fun m => (m.assignmentId, m.attempt)) = [(0, 1)] := by
    decide +kernel
  refine ⟨?_, hrow, hdone, ?_⟩
  · refine .of_legal resultLate (.init ⟨?_, rfl⟩) (by decide +kernel)
    exact ⟨rfl, rfl, rfl, rfl, rfl, rfl, rfl, rfl, rfl⟩
  · rcases hm : lateResult.sent with _ | ⟨m, rest⟩
    · rw [hm] at hsent
      cases hsent
    · rw [hm, List.map_cons] at hsent
      have haid : m.assignmentId = 0 := congrArg Prod.fst (List.cons.inj hsent).1
      have hatt : m.attempt = 1 := congrArg Prod.snd (List.cons.inj hsent).1
      have hserve : (mailExec patientConfig lateResult ⟨seconds 63, .deliver 0⟩).fleet
          = fleetExec patientConfig lateResult.fleet ⟨seconds 63, m.action⟩ := by
        simp [mailExec, hm]
      refine ⟨m, List.mem_cons_self, hatt, fun hfenced => ?_⟩
      have happ : Applied patientConfig lateResult.fleet (seconds 63) m := by
        intro hsame
        rw [haid, ← hserve] at hsame
        rw [hsame, hrow] at hdone
        cases hdone
      have htwo := hfenced happ
      rw [haid, hatt] at htwo
      revert htwo
      decide +kernel

end HumanGate
