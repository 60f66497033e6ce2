import HumanGate.Fleet.Requests
import HumanGate.Model.Desk

set_option autoImplicit false

/-! # One worker, one completion

An attempt of an assignment is given to one worker, and an assignment is completed once, in
every order of the workers' requests, the reapers, the recoveries and the cancellations. The
argument is about single rows. The attempt number only grows; a row that has left `PENDING` comes
back to it only with a larger number; `COMPLETED`, `FAILED` and `CANCELLED` are never left.

The one operation that breaks all of this is an acknowledgement without a worker, which checks
nothing. No request of a worker makes it (`workerFleet`).
-/

namespace HumanGate

open Lib Lib.Calendar Relation

variable {cfg : Config} {now : Instant}

/-! ## Grants -/

/-- The request gives the assignment to `wid`, for the attempt `n`. -/
def Grants (cfg : Config) (f : Fleet) (o : FleetOp) (aid : AssignmentId) (n : Nat)
    (wid : WorkerId) : Prop :=
  (∀ a, f.row aid = some a → a.status.inFlight = false) ∧
    ∃ a, (fleetExec cfg f o).row aid = some a ∧ a.status.inFlight = true ∧
      a.attemptNumber = n ∧ a.workerId = some wid

/-- The attempt `n` has left `PENDING`, and nobody but `wid` has it. -/
def TakenBy (n : Nat) (wid : WorkerId) (a : StageAssignment) : Prop :=
  n < a.attemptNumber ∨
    (a.attemptNumber = n ∧ a.status ≠ .pending ∧ (a.workerId = some wid ∨ a.workerId = none))

theorem RowMove.takenBy {k : MoveKind} {a a' : StageAssignment} (h : RowMove cfg now a k a')
    {n : Nat} {wid : WorkerId} (ha : TakenBy n wid a) : TakenBy n wid a' := by
  cases h with
  | claim wid' token hst =>
      rcases ha with hlt | ⟨_, hne, _⟩
      · exact .inl hlt
      · exact absurd hst hne
  | requeue hst =>
      left
      show n < a.attemptNumber + 1
      rcases ha with hlt | ⟨heq, _⟩ <;> omega
  | exhaust hst =>
      rcases ha with hlt | ⟨heq, _⟩
      · exact .inl hlt
      · exact .inr ⟨heq, by simp [StageAssignment.exhaust], .inr rfl⟩
  | acknowledge secs hst =>
      exact ha.imp_right fun h => ⟨h.1, by simp [StageAssignment.acknowledge], h.2.2⟩
  | confirm secs =>
      exact ha.imp_right fun h => ⟨h.1, by simp [StageAssignment.acknowledge], h.2.2⟩
  | extend secs => exact ha
  | close success result hst =>
      refine ha.imp_right fun h => ⟨h.1, ?_, h.2.2⟩
      cases success <;> simp [StageAssignment.close]
  | cancel hst => exact ha.imp_right fun h => ⟨h.1, by simp [StageAssignment.cancel], h.2.2⟩

/-- The attempt `n` is over. -/
def Past (n : Nat) (a : StageAssignment) : Prop :=
  n < a.attemptNumber ∨ (a.attemptNumber = n ∧ a.status.isOpen = false)

theorem inFlight_isOpen {st : StageAssignmentStatus} (h : st.inFlight = true) :
    st.isOpen = true := by
  cases st <;> first | rfl | cases h

/-- A closed row has no move but an extension of its lease, unless nothing is checked. -/
theorem RowMove.of_closed {k : MoveKind} {a a' : StageAssignment} (h : RowMove cfg now a k a')
    (hk : k ≠ .confirm) (ha : a.status.isOpen = false) : k = .extend := by
  have hflight : a.status.inFlight ≠ true := fun hf => by
    rw [inFlight_isOpen hf] at ha
    cases ha
  cases h with
  | claim wid token hst => rw [hst] at ha; cases ha
  | acknowledge secs hst => rw [hst] at ha; cases ha
  | confirm secs => exact absurd rfl hk
  | extend secs => rfl
  | close success result hst => exact absurd hst hflight
  | requeue hst => exact absurd hst hflight
  | exhaust hst => exact absurd hst hflight
  | cancel hst => rw [hst] at ha; cases ha

/-- The attempt number never falls. -/
theorem RowMove.attempt_le {k : MoveKind} {a a' : StageAssignment} (h : RowMove cfg now a k a') :
    a.attemptNumber ≤ a'.attemptNumber := by
  cases h with
  | requeue hst => exact Nat.le_succ _
  | _ => exact Nat.le_refl _

theorem RowMove.past {k : MoveKind} {a a' : StageAssignment} (h : RowMove cfg now a k a')
    (hk : k ≠ .confirm) {n : Nat} (ha : Past n a) : Past n a' := by
  rcases ha with hlt | ⟨heq, hclosed⟩
  · exact .inl (hlt.trans_le h.attempt_le)
  · obtain rfl := h.of_closed hk hclosed
    cases h
    exact .inr ⟨heq, hclosed⟩

/-- Whoever takes an assignment after its attempt `n` was taken gets a later attempt. -/
theorem grants_later {g : Fleet} {o : FleetOp} (ho : o.action.ByWorker) {aid : AssignmentId}
    {n n' : Nat} {wid wid' : WorkerId} {a : StageAssignment} (ha : g.row aid = some a)
    (htaken : TakenBy n wid a) (h : Grants cfg g o aid n' wid') : n < n' := by
  obtain ⟨hidle, b, hb, hflight, rfl, _⟩ := h
  have hpast : Past n a := by
    rcases htaken with hlt | ⟨heq, hne, _⟩
    · exact .inl hlt
    · refine .inr ⟨heq, ?_⟩
      have hidle' := hidle a ha
      cases hst : a.status <;> simp_all [StageAssignmentStatus.inFlight,
        StageAssignmentStatus.isOpen]
  obtain ⟨b', hb', hlater⟩ :=
    fleetExec_row ho (fun k hk _ _ hm => hm.past hk) ha hpast
  rw [hb] at hb'
  cases hb'
  rcases hlater with hlt | ⟨_, hclosed⟩
  · exact hlt
  · rw [inFlight_isOpen hflight] at hclosed
    cases hclosed

/-! ## Changing hands -/

/-- The requests that recover assignments. -/
def FleetAction.recovers : FleetAction → Bool
  | .op (.recoverAssignment ..) | .op (.reapExpiredLeases ..) | .op (.reapWorkerAssignments ..)
  | .register .. | .deregister .. | .revoke .. | .emergencyStop .. => true
  | _ => false

theorem FleetAction.kinds_of_recovers {a : FleetAction} (h : a.recovers = true) :
    a.kinds ⊆ [.requeue, .exhaust, .staff] := by
  cases a with
  | op action => cases action <;> simp_all [FleetAction.recovers, FleetAction.kinds, Action.kinds]
  | _ => simp_all [FleetAction.recovers, FleetAction.kinds]

theorem FleetAction.kinds_of_not_recovers {a : FleetAction} (h : a.recovers = false) :
    .requeue ∉ a.kinds ∧ .exhaust ∉ a.kinds := by
  cases a with
  | op action =>
      cases action with
      | acknowledge aid secs worker => cases worker <;> simp [FleetAction.kinds, Action.kinds]
      | _ => simp_all [FleetAction.recovers, FleetAction.kinds, Action.kinds]
  | _ => simp_all [FleetAction.recovers, FleetAction.kinds]

/-- A pending assignment has no worker. -/
def PendingFree (a : StageAssignment) : Prop := a.status = .pending → a.workerId = none

theorem NewRow.pendingFree {k : MoveKind} {a : StageAssignment} (h : NewRow cfg now a k) :
    PendingFree a := by
  intro hst
  cases h with
  | queue args stage heq => rw [heq]; rfl
  | assign args stage wid heq => rw [heq] at hst; cases hst

theorem RowMove.pendingFree {k : MoveKind} {a a' : StageAssignment} (h : RowMove cfg now a k a')
    (ha : PendingFree a) : PendingFree a' := by
  intro hst
  cases h with
  | claim wid token _ => cases hst
  | acknowledge secs _ => cases hst
  | confirm secs => cases hst
  | extend secs => exact ha hst
  | close success result _ => cases success <;> cases hst
  | requeue _ => rfl
  | exhaust _ => rfl
  | cancel _ => cases hst

/-- What a recovery leaves of a row: requeued for the next attempt, or failed. -/
def Recovered (n : Nat) (a : StageAssignment) : Prop :=
  a.workerId = none ∧ ((a.attemptNumber = n + 1 ∧ a.status = .pending) ∨
    (a.attemptNumber = n ∧ a.status = .failed))

/-- In the hands of `wid` for the attempt `n`. -/
def InHands (n : Nat) (wid : WorkerId) (a : StageAssignment) : Prop :=
  a.attemptNumber = n ∧ a.workerId = some wid ∧ a.status ≠ .pending

theorem RowMove.recovered {k : MoveKind} {a a' : StageAssignment} (h : RowMove cfg now a k a')
    (hk : k ∈ [MoveKind.requeue, .exhaust, .staff]) {n : Nat} {wid : WorkerId}
    (ha : InHands n wid a ∨ Recovered n a) : InHands n wid a' ∨ Recovered n a' := by
  have hgone : Recovered n a → a.status.inFlight ≠ true := by
    rintro ⟨_, ⟨_, hst⟩ | ⟨_, hst⟩⟩ <;> rw [hst] <;> decide
  cases h with
  | requeue hst =>
      rcases ha with ⟨heq, _⟩ | hrec
      · exact .inr ⟨rfl, .inl ⟨congrArg (· + 1) heq, rfl⟩⟩
      · exact absurd hst (hgone hrec)
  | exhaust hst =>
      rcases ha with ⟨heq, _⟩ | hrec
      · exact .inr ⟨rfl, .inr ⟨heq, rfl⟩⟩
      · exact absurd hst (hgone hrec)
  | _ => simp at hk

theorem RowMove.inHands {k : MoveKind} {a a' : StageAssignment} (h : RowMove cfg now a k a')
    (hrequeue : k ≠ .requeue) (hexhaust : k ≠ .exhaust) {n : Nat} {wid : WorkerId}
    (ha : InHands n wid a) : InHands n wid a' := by
  obtain ⟨hn, hwid, hst⟩ := ha
  cases h with
  | claim wid' token hp => exact absurd hp hst
  | acknowledge secs _ => exact ⟨hn, hwid, by simp [StageAssignment.acknowledge]⟩
  | confirm secs => exact ⟨hn, hwid, by simp [StageAssignment.acknowledge]⟩
  | extend secs => exact ⟨hn, hwid, hst⟩
  | close success result _ =>
      exact ⟨hn, hwid, by cases success <;> simp [StageAssignment.close]⟩
  | requeue _ => exact absurd rfl hrequeue
  | exhaust _ => exact absurd rfl hexhaust
  | cancel _ => exact ⟨hn, hwid, by simp [StageAssignment.cancel]⟩

/-- A worker loses an assignment only to a recovery. -/
theorem worker_changes {f : Fleet} {o : FleetOp} {aid : AssignmentId} {a b : StageAssignment}
    {wid : WorkerId} (hfree : PendingFree a) (ha : f.row aid = some a)
    (hb : (fleetExec cfg f o).row aid = some b) (hwid : a.workerId = some wid)
    (hchange : b.workerId ≠ some wid) :
    o.action.recovers = true ∧ Recovered a.attemptNumber b := by
  have hhands : InHands a.attemptNumber wid a := by
    refine ⟨rfl, hwid, fun hst => ?_⟩
    rw [hfree hst] at hwid
    cases hwid
  have hmoves := fleetExec_moves cfg f o
  cases hrec : o.action.recovers with
  | true =>
      obtain ⟨b', hb', hcase⟩ := hmoves.row (P := fun b => InHands a.attemptNumber wid b ∨
        Recovered a.attemptNumber b) (fun k hk _ _ hm => hm.recovered
          (FleetAction.kinds_of_recovers hrec hk)) ha (.inl hhands)
      have heq : b' = b := Option.some.inj (hb'.symm.trans hb)
      rw [heq] at hcase
      exact ⟨rfl, hcase.resolve_left fun h => hchange h.2.1⟩
  | false =>
      obtain ⟨hno, hno'⟩ := FleetAction.kinds_of_not_recovers hrec
      obtain ⟨b', hb', hkept⟩ := hmoves.row (fun k hk _ _ hm => hm.inHands
        (fun heq => hno (heq ▸ hk)) (fun heq => hno' (heq ▸ hk))) ha hhands
      have heq : b' = b := Option.some.inj (hb'.symm.trans hb)
      rw [heq] at hkept
      exact absurd hkept.2.1 hchange

/-! ## Completed once -/

/-- The row is final, with this status, worker and workspace. -/
def FinalAs (st : StageAssignmentStatus) (worker : Option WorkerId) (ws : WorkspaceId)
    (a : StageAssignment) : Prop :=
  st.isFinal = true ∧ a.status = st ∧ a.workerId = worker ∧ a.workspaceId = ws

theorem RowMove.finalAs {k : MoveKind} {a a' : StageAssignment} (h : RowMove cfg now a k a')
    (hk : k ≠ .confirm) {st : StageAssignmentStatus} {worker : Option WorkerId}
    {ws : WorkspaceId} (ha : FinalAs st worker ws a) : FinalAs st worker ws a' := by
  have hclosed : a.status.isOpen = false := by
    rw [ha.2.1]
    have hfinal := ha.1
    cases st <;> first | rfl | cases hfinal
  obtain rfl := h.of_closed hk hclosed
  cases h
  exact ha

/-- A final row stays as it is. -/
theorem steps_final {f g : Fleet} (h : (workerFleet cfg).Steps f g) {aid : AssignmentId}
    {a : StageAssignment} (ha : f.row aid = some a) (hfinal : a.status.isFinal = true) :
    ∃ b, g.row aid = some b ∧ FinalAs a.status a.workerId a.workspaceId b :=
  steps_row (fun _ _ hk _ _ hm => hm.finalAs hk) h ha ⟨hfinal, rfl, rfl, rfl⟩

/-! ## One record for each attempt -/

/-- At most one record of each attempt of the assignment. -/
def RecordedOnce (rs : List PipelineStageRun) (a : StageAssignment) : Prop :=
  ∀ n, rs.countP (fun r => r.records { a with attemptNumber := n }) ≤ 1

theorem records_congr {r : PipelineStageRun} {a b : StageAssignment} (ha : r.records a = true)
    (hb : r.records b = true) (r' : PipelineStageRun) : r'.records a = r'.records b := by
  unfold PipelineStageRun.records at *
  simp only [Bool.and_eq_true, beq_iff_eq] at ha hb
  rw [← ha.1.1, ← ha.1.2, ← ha.2, hb.1.1, hb.1.2, hb.2]

theorem Recorded.once {a : StageAssignment} {rs rs' : List PipelineStageRun}
    (h : Recorded a rs rs') (hrs : ∀ b, rs.countP (fun r => r.records b) ≤ 1)
    (b : StageAssignment) : rs'.countP (fun r => r.records b) ≤ 1 := by
  cases h with
  | none => exact hrs b
  | @new r hrec hnone =>
      rw [Table.countP_push]
      by_cases hb : r.records b = true
      · have hzero : rs.countP (fun r => r.records b) = 0 := by
          rw [List.countP_eq_zero]
          intro r' hr'
          rw [← records_congr hrec hb r', hnone r' hr']
          decide
        rw [hzero]
        simp [hb]
      · simpa [hb] using hrs b

theorem Move.recorded {k : MoveKind} {c c' : Crew} (h : Move cfg now k c c') :
    c'.stageRuns = c.stageRuns ∨ ∃ a, Recorded a c.stageRuns c'.stageRuns := by
  cases h with
  | @close _ _ a _ _ _ _ _ hrs => exact .inr ⟨a, hrs⟩
  | _ => exact .inl (by simp [Crew.push, Crew.update])

/-- In every reachable state. -/
theorem reachable_recordedOnce {f : Fleet} (h : (workerFleet cfg).Reachable f)
    (a : StageAssignment) : RecordedOnce f.db.stageRuns a := by
  have hall : ∀ b, f.db.crew.stageRuns.countP (fun r => r.records b) ≤ 1 := by
    refine h.invariant (I := fun f => ∀ b, f.db.crew.stageRuns.countP (fun r => r.records b) ≤ 1)
      ?_ ?_
    · intro f hf b
      have hnil : f.db.crew.stageRuns = [] := hf.stageRuns
      rw [hnil]
      exact Nat.zero_le _
    · intro f o hf _
      refine (fleetExec_moves cfg f o).invariant
        (I := fun c => ∀ b, c.stageRuns.countP (fun r => r.records b) ≤ 1) ?_ hf
      intro k _ c c' hm hc b
      rcases hm.recorded with hsame | ⟨a, hrec⟩
      · rw [hsame]
        exact hc b
      · exact hrec.once hc b
  exact fun n => hall _

/-! ## Submitting again -/

/-- The effect key of an assignment of the workspace is taken. -/
def Fleet.keyKnown (f : Fleet) (ws : WorkspaceId) (key : String) : Bool :=
  f.effects.any fun e => e.workspaceId == ws && e.effectKey == key

theorem ensureProviderEffectKey_known (f : Fleet) (aid : AssignmentId) (a : StageAssignment)
    (key : Option String) :
    (ensureProviderEffectKey f aid a key).1.keyKnown a.workspaceId (effectKeyFor aid key)
      = true := by
  unfold ensureProviderEffectKey Fleet.keyKnown
  simp only
  split
  · assumption
  · simp

/-- What a run keeps beside the rows: the pins of the workers, and the effect keys. -/
theorem steps_keeps {allowed : Fleet → FleetOp → Prop} {f g : Fleet}
    (h : (fleet cfg allowed).Steps f g) :
    g.db.workers.map WorkerRegistration.workspaceId
        = f.db.workers.map WorkerRegistration.workspaceId ∧ f.effects <+: g.effects := by
  refine h.preserves (I := fun g => g.db.workers.map WorkerRegistration.workspaceId
    = f.db.workers.map WorkerRegistration.workspaceId ∧ f.effects <+: g.effects) ?_
    ⟨rfl, List.prefix_refl _⟩
  rintro g o ⟨hpins, heff⟩ -
  constructor
  · refine (fleetExec_moves cfg g o).invariant (I := fun c =>
      c.workers.map WorkerRegistration.workspaceId
        = f.db.workers.map WorkerRegistration.workspaceId) ?_ hpins
    intro k _ c c' hm hc
    rw [hm.pins, hc]
  · exact heff.trans (fleetExec_requested cfg g o).effects

theorem submitRefusal_owner {a : StageAssignment} {wid : WorkerId}
    (h : submitRefusal a (some wid) now = none) : a.workerId = some wid := by
  by_contra hne
  unfold submitRefusal at h
  rw [if_pos ⟨rfl, hne⟩] at h
  cases h

/-- A result that is accepted closes the assignment of the worker that submits it. -/
theorem submitResult_row {s : Db} {aid : AssignmentId} {a : StageAssignment} {success : Bool}
    {result : Option JsonObject} {errorMessage : String} {wid : WorkerId} {jitter : Nat}
    {c : Call} (hc : submitResult cfg s now aid success result errorMessage (some wid) jitter = c)
    (ha : s.assignments[aid]? = some a) (h : c.raised = none) :
    a.workerId = some wid ∧
      c.db.crew.assignments[aid]? = some { a.close now success result with updatedAt := now } := by
  have hclosed : (s.crew.update now aid
      (StageAssignment.close now success result)).assignments[aid]?
      = some { a.close now success result with updatedAt := now } := Table.get_modify_self ha
  unfold submitResult at hc
  simp only [ha] at hc
  split at hc
  · subst hc
    cases h
  · rename_i hrefusal
    refine ⟨submitRefusal_owner hrefusal, ?_⟩
    split at hc
    · subst hc
      rw [crew_freeSlot, Crew.slot_assignments]
      exact hclosed
    · split at hc
      · subst hc
        cases h
      · rename_i s1 hrecord
        obtain ⟨rs, _, hcrew⟩ := recordResult_crew hrecord
        have hs1 : s1.crew.assignments[aid]?
            = some { a.close now success result with updatedAt := now } := by
          rw [hcrew]
          simpa only [Crew.slot_assignments] using hclosed
        split at hc
        · rw [← hc, crew_submitSuccess]
          exact hs1
        · rw [← hc, crew_submitFailure]
          exact hs1

/-- The check of `_load_owned_assignment` on a worker with this pin. -/
def SeenBy (auth : AuthenticatedWorker) (pin : Option WorkspaceId) (a : StageAssignment) : Prop :=
  if pin = none then a.workerId = some auth.workerId else a.workspaceId = auth.workspaceId

theorem ownedAssignment_spec {f : Fleet} {auth : AuthenticatedWorker} {aid : AssignmentId}
    {a : StageAssignment} (h : ownedAssignment f now auth aid = .ok a) :
    f.row aid = some a ∧
      ∃ w, f.db.workers[auth.workerId]? = some w ∧ SeenBy auth w.workspaceId a := by
  unfold ownedAssignment at h
  split at h
  · cases h
  · split at h
    · cases h
    · rename_i w hreg
      have hw : f.db.workers[auth.workerId]? = some w := by
        unfold activeRegistration at hreg
        split at hreg
        · cases hreg
        · rename_i w' hw'
          split at hreg
          · cases hreg
          · cases hreg
            exact hw'
      unfold loadOwnedAssignment at h
      split at h
      · cases h
      · rename_i b hb
        by_cases hseen : SeenBy auth w.workspaceId b <;> unfold SeenBy at hseen
        · rw [if_pos hseen] at h
          cases h
          exact ⟨hb, w, hw, hseen⟩
        · rw [if_neg hseen] at h
          cases h

/-- **What an accepted submission leaves**: a final row with the status that was answered, which
the worker still sees, and a key that is taken. -/
theorem submit_accepted {f f' : Fleet} {auth : AuthenticatedWorker} {aid : AssignmentId}
    {payload : SubmitIn} {jitter : Nat} {out : SubmitOut}
    (h : submitAssignmentResult cfg f now auth aid payload jitter = .ok (f', out)) :
    out.providerEffectKey = effectKeyFor aid payload.providerEffectKey ∧
      ∃ a w, f'.row aid = some a ∧ f.db.workers[auth.workerId]? = some w ∧
        SeenBy auth w.workspaceId a ∧ a.status = out.status ∧ a.status.isFinal = true ∧
        f'.keyKnown a.workspaceId (effectKeyFor aid payload.providerEffectKey) = true := by
  unfold submitAssignmentResult at h
  split at h
  · cases h
  · rename_i a howned
    obtain ⟨hrow, w, hw, hseen⟩ := ownedAssignment_spec howned
    have hkey := ensureProviderEffectKey_known f aid a payload.providerEffectKey
    simp only [ensureProviderEffectKey_db] at h
    split at h
    · rename_i hreplay
      cases h
      refine ⟨rfl, a, w, ?_, hw, hseen, rfl, hreplay.2, hkey⟩
      rw [Fleet.row, ensureProviderEffectKey_db]
      exact hrow
    · split at h
      · cases h
      · rename_i hraised
        cases h
        obtain ⟨_, hclosed⟩ := submitResult_row rfl hrow hraised
        refine ⟨rfl, _, w, hclosed, hw, hseen, rfl, ?_, hkey⟩
        simp only [StageAssignment.close]
        split <;> rfl

/-- **The replay**: a known key on a final assignment is answered with its status. -/
theorem submit_replay {g : Fleet} {auth : AuthenticatedWorker} {aid : AssignmentId}
    {payload : SubmitIn} {jitter : Nat} {a : StageAssignment} {w : WorkerRegistration}
    (hcred : credentialRefusal g now auth = none) (hw : g.db.workers[auth.workerId]? = some w)
    (hreg : w.deregisteredAt = none) (hrow : g.row aid = some a)
    (hseen : SeenBy auth w.workspaceId a) (hfinal : a.status.isFinal = true)
    (hkey : g.keyKnown a.workspaceId (effectKeyFor aid payload.providerEffectKey) = true) :
    submitAssignmentResult cfg g now auth aid payload jitter
      = .ok (g, ⟨a.status, effectKeyFor aid payload.providerEffectKey, false⟩) := by
  have howned : ownedAssignment g now auth aid = .ok a := by
    have hrow' : g.db.assignments[aid]? = some a := hrow
    have hsee : loadOwnedAssignment g auth w aid = .ok a := by
      unfold loadOwnedAssignment
      simp only [hrow']
      exact if_pos hseen
    unfold ownedAssignment activeRegistration
    simp [hcred, hw, hreg, hsee]
  have hold : ensureProviderEffectKey g aid a payload.providerEffectKey = (g, false) := by
    unfold ensureProviderEffectKey
    exact if_pos hkey
  unfold submitAssignmentResult
  simp [howned, hold, hfinal]

/-- In every reachable state the session has been flushed. -/
theorem reachable_flushed {allowed : Fleet → FleetOp → Prop} {f : Fleet}
    (h : (fleet cfg allowed).Reachable f) : f.db.flush = f.db := by
  refine h.invariant (I := fun f => f.db.flush = f.db) ?_ ?_
  · intro f hf
    have hgates : f.db.gateColumn = f.db.gates.map ReviewGate.status := by
      rw [hf.gateColumn, hf.gates]
      rfl
    unfold Db.flush
    rw [← hgates]
  · intro f o hf _
    show (fleetExec cfg f o).db.flush = (fleetExec cfg f o).db
    unfold fleetExec
    split
    · exact hf
    · rfl

/-! ## The whole protocol -/

/-- A repetition of an accepted submission, at any later time. -/
theorem submit_again {f f' g : Fleet} {auth : AuthenticatedWorker} {aid : AssignmentId}
    {payload payload' : SubmitIn} {jitter : Nat} {out : SubmitOut} {w : WorkerRegistration}
    (now' : Instant) (jitter' : Nat)
    (h : submitAssignmentResult cfg f now auth aid payload jitter = .ok (f', out))
    (hsteps : (workerFleet cfg).Steps (fleetExec cfg f ⟨now, .submit auth aid payload jitter⟩) g)
    (hpayload : payload'.providerEffectKey = payload.providerEffectKey)
    (hcred : credentialRefusal g now' auth = none) (hw : g.db.workers[auth.workerId]? = some w)
    (hreg : w.deregisteredAt = none) :
    submitAssignmentResult cfg g now' auth aid payload' jitter'
      = .ok (g, ⟨out.status, out.providerEffectKey, false⟩) := by
  obtain ⟨hkey, a, w₀, hrow, hw₀, hseen, hst, hfinal, hknown⟩ := submit_accepted h
  have hexec : fleetExec cfg f ⟨now, .submit auth aid payload jitter⟩
      = { f' with db := f'.db.flush } := by
    unfold fleetExec FleetOp.call
    simp [h, Except.map]
  have hrow' : (fleetExec cfg f ⟨now, .submit auth aid payload jitter⟩).row aid = some a := by
    rw [hexec]
    exact hrow
  obtain ⟨b, hb, _, hbst, hbworker, hbws⟩ := steps_final hsteps hrow' hfinal
  -- the pin of the worker and the key are still there
  have hall : (workerFleet cfg).Steps f g := by
    refine System.Steps.trans ?_ hsteps
    exact .step .refl trivial
  have hpin : w.workspaceId = w₀.workspaceId := by
    have hget := congrArg (fun l => l[auth.workerId]?) (steps_keeps hall).1
    simp only [List.getElem?_map, hw, hw₀, Option.map_some] at hget
    exact Option.some.inj hget
  have hkept : f'.effects <+: g.effects := by
    have heff := (steps_keeps hsteps).2
    rw [hexec] at heff
    exact heff
  have hseen' : SeenBy auth w.workspaceId b := by
    unfold SeenBy at hseen ⊢
    rw [hpin, hbworker, hbws]
    exact hseen
  have hknown' : g.keyKnown b.workspaceId (effectKeyFor aid payload'.providerEffectKey) = true := by
    rw [hpayload, hbws]
    unfold Fleet.keyKnown at hknown ⊢
    rw [List.any_eq_true] at hknown ⊢
    obtain ⟨e, he, hp⟩ := hknown
    exact ⟨e, hkept.subset he, hp⟩
  rw [submit_replay hcred hw hreg hb hseen' (by rw [hbst]; exact hfinal) hknown', hbst, hst, hkey,
    hpayload]

/-- **Claims are exclusive and completion is final**, in every run of the fleet in which every
acknowledgement names its worker. An attempt of an assignment is granted once, so to one worker;
a worker that has an assignment loses it only to a recovery, which starts the next attempt or
fails it; `COMPLETED` and `FAILED` are never left; an attempt has at most one record; and an
accepted submission that is repeated while the worker is registered is answered with the final
status and changes nothing. -/
theorem assignment_granted_and_completed_once (cfg : Config) (f : Fleet)
    (hf : (workerFleet cfg).Reachable f) :
    (∀ o aid n wid, o.action.ByWorker → Grants cfg f o aid n wid →
      ∀ g, (workerFleet cfg).Steps (fleetExec cfg f o) g →
        ∀ o' n' wid', o'.action.ByWorker → Grants cfg g o' aid n' wid' → n < n') ∧
    (∀ g, (workerFleet cfg).Steps f g → ∀ aid a b wid wid', f.row aid = some a →
      g.row aid = some b → a.attemptNumber = b.attemptNumber → a.workerId = some wid →
      b.workerId = some wid' → wid' = wid) ∧
    (∀ o aid a b wid, o.action.ByWorker → f.row aid = some a →
      (fleetExec cfg f o).row aid = some b → a.workerId = some wid → b.workerId ≠ some wid →
      o.action.recovers = true ∧ Recovered a.attemptNumber b) ∧
    (∀ g, (workerFleet cfg).Steps f g → ∀ aid a, f.row aid = some a → a.status.isFinal = true →
      ∃ b, g.row aid = some b ∧ b.status = a.status) ∧
    (∀ a ∈ f.db.assignments, RecordedOnce f.db.stageRuns a) ∧
    ∀ now auth aid payload jitter f' out,
      submitAssignmentResult cfg f now auth aid payload jitter = .ok (f', out) →
      out.status.isFinal = true ∧
      ∀ g, (workerFleet cfg).Steps (fleetExec cfg f ⟨now, .submit auth aid payload jitter⟩) g →
        ∀ now' payload' jitter', payload'.providerEffectKey = payload.providerEffectKey →
          credentialRefusal g now' auth = none →
          (∃ w, g.db.workers[auth.workerId]? = some w ∧ w.deregisteredAt = none) →
          submitAssignmentResult cfg g now' auth aid payload' jitter'
              = .ok (g, ⟨out.status, out.providerEffectKey, false⟩) ∧
            fleetExec cfg g ⟨now', .submit auth aid payload' jitter'⟩ = g := by
  have hfree : ∀ a ∈ f.db.assignments, PendingFree a :=
    reachable_rows (fun _ _ _ h => h.pendingFree) (fun _ _ _ _ _ h => h.pendingFree) hf
  refine ⟨?_, ?_, ?_, ?_, fun a _ => reachable_recordedOnce hf a, ?_⟩
  · -- what a worker has taken stays taken until its attempt is over
    rintro o aid n wid - ⟨_, a, ha, hflight, hn, hwid⟩ g hsteps o' n' wid' ho' hgrant
    have htaken : TakenBy n wid a := by
      refine .inr ⟨hn, fun hst => ?_, .inl hwid⟩
      rw [hst] at hflight
      cases hflight
    obtain ⟨b, hb, hb'⟩ := steps_row (fun _ _ _ _ _ hm => hm.takenBy) hsteps ha htaken
    exact grants_later ho' hb hb' hgrant
  · -- one attempt has one worker
    intro g hsteps aid a b wid wid' ha hb hn hwid hwid'
    have htaken : TakenBy a.attemptNumber wid a := by
      refine .inr ⟨rfl, fun hst => ?_, .inl hwid⟩
      rw [hfree a (Table.mem_of_get ha) hst] at hwid
      cases hwid
    obtain ⟨b', hb', hb''⟩ := steps_row (fun _ _ _ _ _ hm => hm.takenBy) hsteps ha htaken
    rw [hb] at hb'
    cases hb'
    rcases hb'' with hlt | ⟨_, _, hsame | hnone⟩
    · omega
    · rw [hwid'] at hsame
      exact Option.some.inj hsame
    · rw [hwid'] at hnone
      cases hnone
  · intro o aid a b wid _ ha hb hwid hchange
    exact worker_changes (hfree a (Table.mem_of_get ha)) ha hb hwid hchange
  · intro g hsteps aid a ha hfinal
    obtain ⟨b, hb, _, hst, _⟩ := steps_final hsteps ha hfinal
    exact ⟨b, hb, hst⟩
  · -- the result is on the row, so the same request finds it and is answered alike
    intro now auth aid payload jitter f' out h
    obtain ⟨_, a, _, _, _, _, hst, hfinal, _⟩ := submit_accepted h
    refine ⟨hst ▸ hfinal, fun g hsteps now' payload' jitter' hpayload hcred hreg => ?_⟩
    obtain ⟨w, hw, hreg⟩ := hreg
    have hagain := submit_again now' jitter' h hsteps hpayload hcred hw hreg
    refine ⟨hagain, ?_⟩
    have hg : (workerFleet cfg).Reachable g := by
      refine System.Reachable.of_steps ?_ hsteps
      exact hf.step trivial
    have hflush := reachable_flushed hg
    unfold fleetExec FleetOp.call
    simp only [hagain, Except.map]
    rw [hflush]

/-! ## A script that is submitted twice -/

/-- The desk with a worker that is too unhealthy to be selected: its scripts wait to be claimed. -/
def claimFleet : Fleet where
  db := { deskDb with workers := [{ deskWorker [.scripting] with healthScore := 40 }] }
  credentials := [{ workerId := 0, workspaceId := 0 }]

def deskAuth : AuthenticatedWorker := ⟨0, 0, 0⟩

/-- A run is started and its script queued; the worker claims and acknowledges it. -/
def claimFleetOps : List FleetOp :=
  [⟨0, .op (.startRun 0 0 0)⟩, ⟨1, .op (.pollAndLease 10 [0])⟩,
   ⟨2, .op (.processLeasedJob 0 [0] 0)⟩, ⟨3, .claim deskAuth none [0]⟩, ⟨4, .ack deskAuth 0⟩]

def claimedFleet : Fleet := claimFleetOps.foldl (fleetExec deskConfig) claimFleet

/-- A result without a body. -/
def submitsScript : FleetAction := .submit deskAuth 0 ⟨true, none, "", none⟩ 0

/-- The worker submits its script, and submits it again. -/
theorem script_submitted_twice :
    (claimedFleet.row 0).map (fun a => (a.status, a.workerId)) = some (.acknowledged, some 0) ∧
    ((fleetExec deskConfig claimedFleet ⟨5, submitsScript⟩).row 0).map StageAssignment.status
      = some .completed ∧
    fleetExec deskConfig (fleetExec deskConfig claimedFleet ⟨5, submitsScript⟩) ⟨6, submitsScript⟩
      = fleetExec deskConfig claimedFleet ⟨5, submitsScript⟩ := by
  refine ⟨by decide +kernel, by decide +kernel, ?_⟩
  have hreach : (workerFleet deskConfig).Reachable claimedFleet := by
    refine .of_legal claimFleetOps (.init ?_) ?_
    · exact ⟨rfl, rfl, rfl, rfl, rfl, rfl, rfl, rfl, rfl⟩
    · exact ⟨trivial, trivial, trivial, trivial, trivial, trivial⟩
  have hok : (submitAssignmentResult deskConfig claimedFleet 5 deskAuth 0 ⟨true, none, "", none⟩
      0).toOption.map Prod.snd = some ⟨.completed, "0", false⟩ := by
    decide +kernel
  have hworker : ((fleetExec deskConfig claimedFleet ⟨5, submitsScript⟩).db.workers[0]?).map
      WorkerRegistration.deregisteredAt = some none := by
    decide +kernel
  cases hsubmit : submitAssignmentResult deskConfig claimedFleet 5 deskAuth 0
      ⟨true, none, "", none⟩ 0 with
  | error e =>
      rw [hsubmit] at hok
      cases hok
  | ok r =>
      obtain ⟨_, _, _, _, _, hagain⟩ :=
        assignment_granted_and_completed_once deskConfig claimedFleet hreach
      have hrepeat := (hagain 5 deskAuth 0 ⟨true, none, "", none⟩ 0 r.1 r.2 hsubmit).2 _ .refl 6
        ⟨true, none, "", none⟩ 0 rfl (by decide +kernel)
      exact (hrepeat (Option.map_eq_some_iff.mp hworker)).2

end HumanGate
