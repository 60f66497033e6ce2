import HumanGate.Fleet.Moves
import HumanGate.Model.Workers

set_option autoImplicit false

/-! # What a request does to the assignments

A request to the worker endpoints is a sequence of moves of the crew too (`fleetExec_moves`), so
what holds of every move holds of every run of the fleet. Two rules carry this over: one for a
single row that is followed through a run (`Steps.row`), one for all rows of every state
(`Reachable.rows`).
-/

namespace HumanGate

open Lib Lib.Calendar Relation

variable {cfg : Config} {now : Instant}

/-- The kinds of moves a request is made of. -/
def FleetAction.kinds : FleetAction → List MoveKind
  | .op action => action.kinds
  | .register .. | .deregister .. | .revoke .. | .emergencyStop .. =>
      [.requeue, .exhaust, .staff]
  | .heartbeat .. => [.staff]
  | .claim .. => [.claim]
  | .ack .. => [.acknowledge]
  | .renew .. => [.extend]
  | .submit .. => [.close]

/-! ## The moves of a request -/

/-- What a request does: moves of the crew. Effect keys are only ever added. -/
structure Requested (cfg : Config) (now : Instant) (kinds : List MoveKind) (f f' : Fleet) :
    Prop where
  moves : Moves cfg now kinds f.db.crew f'.db.crew
  effects : f.effects <+: f'.effects

theorem Requested.refl {kinds : List MoveKind} (f : Fleet) : Requested cfg now kinds f f :=
  ⟨.refl, List.prefix_refl _⟩

theorem Requested.trans {kinds : List MoveKind} {f f' f'' : Fleet}
    (h : Requested cfg now kinds f f') (h' : Requested cfg now kinds f' f'') :
    Requested cfg now kinds f f'' :=
  ⟨ReflTransGen.trans h.moves h'.moves, h.effects.trans h'.effects⟩

@[simp] theorem ensureProviderEffectKey_db (f : Fleet) (aid : AssignmentId) (a : StageAssignment)
    (key : Option String) : (ensureProviderEffectKey f aid a key).1.db = f.db := by
  unfold ensureProviderEffectKey
  simp only
  split <;> rfl

theorem ensureProviderEffectKey_effects (f : Fleet) (aid : AssignmentId) (a : StageAssignment)
    (key : Option String) : f.effects <+: (ensureProviderEffectKey f aid a key).1.effects := by
  unfold ensureProviderEffectKey
  simp only
  split
  · exact List.prefix_refl _
  · exact List.prefix_append ..

theorem reapHoldings_requested {f f' : Fleet} {wid : WorkerId} {reason : RecoveryReason}
    {rows : List AssignmentId} (h : reapHoldings cfg f now wid reason rows = .ok f') :
    Requested cfg now [.requeue, .exhaust, .staff] f f' := by
  unfold reapHoldings at h
  split at h
  · cases h
  · rename_i s hs
    cases h
    exact ⟨(reapWorkerBatches_moves _ hs).mono (by simp), List.prefix_refl _⟩

@[simp] theorem updateWorker_crew (f : Fleet) (wid : WorkerId)
    (g : WorkerRegistration → WorkerRegistration) :
    (f.updateWorker wid g).db.crew = f.db.crew.slot (some wid) g := rfl

/-- A change to the registration of a worker. -/
theorem updateWorker_requested {kinds : List MoveKind} (hk : .staff ∈ kinds) (f : Fleet)
    (wid : WorkerId) (g : WorkerRegistration → WorkerRegistration)
    (hpin : ∀ w, (g w).workspaceId = w.workspaceId) :
    Requested cfg now kinds f (f.updateWorker wid g) :=
  ⟨.one (.staff wid g hpin) hk, List.prefix_refl _⟩

theorem registerWorker_requested {f f' : Fleet} {auth : AuthenticatedWorker}
    {payload : WorkerRegisterIn} {rows : List AssignmentId}
    (h : registerWorker cfg f now auth payload rows = .ok f') :
    Requested cfg now [.requeue, .exhaust, .staff] f f' := by
  unfold registerWorker at h
  split at h
  · cases h
  · split at h
    · cases h
    · split at h
      · cases h
      · rename_i f1 hreap
        cases h
        refine (reapHoldings_requested hreap).trans ?_
        exact updateWorker_requested (by simp) f1 _ _ fun _ => rfl

theorem deregisterWorker_requested {f f' : Fleet} {auth : AuthenticatedWorker}
    {rows : List AssignmentId} (h : deregisterWorker cfg f now auth rows = .ok f') :
    Requested cfg now [.requeue, .exhaust, .staff] f f' := by
  unfold deregisterWorker at h
  split at h
  · cases h
  · split at h
    · cases h
      exact .refl _
    · split at h
      · cases h
      · rename_i f1 hreap
        cases h
        refine (reapHoldings_requested hreap).trans ?_
        exact updateWorker_requested (by simp) f1 _ _ fun _ => rfl

theorem workerHeartbeat_requested {f f' : Fleet} {auth : AuthenticatedWorker}
    {status : WorkerStatus} {load : Nat} (h : workerHeartbeat f now auth status load = .ok f') :
    Requested cfg now [.staff] f f' := by
  unfold workerHeartbeat at h
  split at h
  · cases h
  · split at h
    · cases h
    · split at h
      · cases h
      · cases h
        exact updateWorker_requested (by simp) f _ _ fun _ => rfl

theorem claimEndpoint_requested {f : Fleet} {auth : AuthenticatedWorker}
    {token : Option ClaimToken} {rows : List AssignmentId} {r : Fleet × ClaimResult}
    (h : claimEndpoint cfg f now auth token rows = .ok r) : Requested cfg now [.claim] f r.1 := by
  unfold claimEndpoint at h
  split at h
  · cases h
  · split at h
    · cases h
    · rename_i r' hclaim
      cases h
      exact ⟨claimAssignment_moves hclaim, List.prefix_refl _⟩

theorem ackAssignment_requested {f : Fleet} {auth : AuthenticatedWorker} {aid : AssignmentId}
    {r : Fleet × Bool} (h : ackAssignment cfg f now auth aid = .ok r) :
    Requested cfg now [.acknowledge] f r.1 := by
  unfold ackAssignment at h
  split at h
  · cases h
  · split at h
    · cases h
    · rename_i s hack
      cases h
      refine ⟨?_, ensureProviderEffectKey_effects { f with db := s } ..⟩
      rw [ensureProviderEffectKey_db]
      exact acknowledge_moves hack

theorem renewAssignmentLease_requested {f f' : Fleet} {auth : AuthenticatedWorker}
    {aid : AssignmentId} (h : renewAssignmentLease cfg f now auth aid = .ok f') :
    Requested cfg now [.extend] f f' := by
  unfold renewAssignmentLease at h
  split at h
  · cases h
  · split at h
    · cases h
    · rename_i s hrenew
      cases h
      exact ⟨renewLease_moves hrenew, List.prefix_refl _⟩

theorem submitAssignmentResult_requested {f : Fleet} {auth : AuthenticatedWorker}
    {aid : AssignmentId} {payload : SubmitIn} {jitter : Nat} {r : Fleet × SubmitOut}
    (h : submitAssignmentResult cfg f now auth aid payload jitter = .ok r) :
    Requested cfg now [.close] f r.1 := by
  unfold submitAssignmentResult at h
  split at h
  · cases h
  · simp only [ensureProviderEffectKey_db] at h
    split at h
    · cases h
      refine ⟨?_, ensureProviderEffectKey_effects ..⟩
      rw [ensureProviderEffectKey_db]
    · split at h
      · cases h
      · cases h
        exact ⟨submitResult_moves .., ensureProviderEffectKey_effects ..⟩

theorem revokeWorkerCredentials_requested {f f' : Fleet} {ws : WorkspaceId} {wid : WorkerId}
    {rows : List AssignmentId} (h : revokeWorkerCredentials cfg f now ws wid rows = .ok f') :
    Requested cfg now [.requeue, .exhaust, .staff] f f' := by
  unfold revokeWorkerCredentials at h
  split at h
  · cases h
  · split at h
    · cases h
    · simp only at h
      split at h
      · cases h
      · rename_i f1 hreap
        obtain ⟨hmoves, heff⟩ := reapHoldings_requested hreap
        have hfirst : Requested cfg now [.requeue, .exhaust, .staff] f f1 := ⟨hmoves, heff⟩
        split at h
        · cases h
          refine hfirst.trans ?_
          exact updateWorker_requested (by simp) f1 _ _ fun _ => rfl
        · cases h
          exact hfirst

theorem stopEach_requested {ws : WorkspaceId} {rows : List AssignmentId}
    (workers : List WorkerId) : ∀ {f f' : Fleet}, stopEach cfg now ws rows workers f = .ok f' →
      Requested cfg now [.requeue, .exhaust, .staff] f f' := by
  induction workers with
  | nil =>
      intro f f' h
      cases h
      exact .refl _
  | cons wid rest ih =>
      intro f f' h
      unfold stopEach at h
      simp only at h
      split at h
      · cases h
      · rename_i f1 hreap
        obtain ⟨hmoves, heff⟩ := reapHoldings_requested hreap
        have hfirst : Requested cfg now [.requeue, .exhaust, .staff] f f1 := ⟨hmoves, heff⟩
        refine hfirst.trans (Requested.trans ?_ (ih h))
        exact updateWorker_requested (by simp) f1 _ _ fun _ => rfl

theorem call_requested {f f' : Fleet} {o : FleetOp} (h : o.call cfg f = .ok f') :
    Requested cfg o.now o.action.kinds f f' := by
  obtain ⟨now, action⟩ := o
  cases action with
  | op action =>
      cases h
      exact ⟨exec_moves cfg f.db ⟨now, action⟩, List.prefix_refl _⟩
  | register auth payload rows => exact registerWorker_requested h
  | heartbeat auth status load => exact workerHeartbeat_requested h
  | deregister auth rows => exact deregisterWorker_requested h
  | claim auth token rows =>
      change (claimEndpoint cfg f now auth token rows).map Prod.fst = .ok f' at h
      obtain ⟨r, hr, rfl⟩ := map_ok h
      exact claimEndpoint_requested hr
  | ack auth aid =>
      change (ackAssignment cfg f now auth aid).map Prod.fst = .ok f' at h
      obtain ⟨r, hr, rfl⟩ := map_ok h
      exact ackAssignment_requested hr
  | renew auth aid => exact renewAssignmentLease_requested h
  | submit auth aid payload jitter =>
      change (submitAssignmentResult cfg f now auth aid payload jitter).map Prod.fst = .ok f' at h
      obtain ⟨r, hr, rfl⟩ := map_ok h
      exact submitAssignmentResult_requested hr
  | revoke ws wid rows => exact revokeWorkerCredentials_requested h
  | emergencyStop ws others workers rows => exact stopEach_requested _ h

/-- **Every request is a sequence of moves** of its kinds. -/
theorem fleetExec_requested (cfg : Config) (f : Fleet) (o : FleetOp) :
    Requested cfg o.now o.action.kinds f (fleetExec cfg f o) := by
  unfold fleetExec
  split
  · exact .refl f
  · rename_i f' hcall
    obtain ⟨hmoves, heff⟩ := call_requested hcall
    exact ⟨hmoves, heff⟩

theorem fleetExec_moves (cfg : Config) (f : Fleet) (o : FleetOp) :
    Moves cfg o.now o.action.kinds f.db.crew (fleetExec cfg f o).db.crew :=
  (fleetExec_requested cfg f o).moves

/-! ## Workers through moves -/

/-- No move changes which workspace a worker is pinned to. -/
theorem Move.pins {k : MoveKind} {c c' : Crew} (h : Move cfg now k c c') :
    c'.workers.map WorkerRegistration.workspaceId
      = c.workers.map WorkerRegistration.workspaceId := by
  have hslot : ∀ (c : Crew) worker (g : WorkerRegistration → WorkerRegistration),
      (∀ w, (g w).workspaceId = w.workspaceId) →
      (c.slot worker g).workers.map WorkerRegistration.workspaceId
        = c.workers.map WorkerRegistration.workspaceId := by
    intro c worker g hg
    cases worker with
    | none => rfl
    | some wid => exact Table.map_modify_same hg ..
  have hreturn : ∀ w : WorkerRegistration, w.returnSlot.workspaceId = w.workspaceId := by
    intro w
    unfold WorkerRegistration.returnSlot
    split <;> rfl
  cases h with
  | @assign _ wid _ args stage _ _ => exact hslot (c.push _) (some wid) _ fun _ => rfl
  | @claim _ _ _ wid _ token _ _ _ _ => exact hslot (c.update now _ _) (some wid) _ fun _ => rfl
  | @close _ _ a _ success result _ _ _ => exact hslot (c.update now _ _) a.workerId _ hreturn
  | @requeue _ _ a _ _ => exact hslot c a.workerId _ fun _ => rfl
  | @exhaust _ _ a _ _ => exact hslot c a.workerId _ fun _ => rfl
  | staff wid g hg => exact hslot c (some wid) g hg
  | _ => rfl

theorem Move.workers_length {k : MoveKind} {c c' : Crew} (h : Move cfg now k c c') :
    c'.workers.length = c.workers.length := by
  have hlen := congrArg List.length h.pins
  simpa only [List.length_map] using hlen

/-! ## Runs of the fleet -/

/-- The fleet from a database in which nothing has been orchestrated yet; `allowed` says which
requests are made. -/
def fleet (cfg : Config) (allowed : Fleet → FleetOp → Prop) : System Fleet FleetOp where
  init f := Fresh f.db
  allowed := allowed
  exec := fleetExec cfg

/-- Every acknowledgement names the worker that makes it. -/
def FleetAction.ByWorker : FleetAction → Prop
  | .op (.acknowledge _ _ none) => False
  | _ => True

instance (a : FleetAction) : Decidable a.ByWorker := by
  unfold FleetAction.ByWorker
  split <;> infer_instance

theorem FleetAction.ByWorker.kinds {a : FleetAction} (h : a.ByWorker) : .confirm ∉ a.kinds := by
  cases a with
  | op action =>
      cases action with
      | acknowledge aid secs worker =>
          cases worker with
          | none => exact h.elim
          | some wid => simp [FleetAction.kinds, Action.kinds]
      | _ => simp [FleetAction.kinds, Action.kinds]
  | _ => simp [FleetAction.kinds]

/-- The fleet in which every acknowledgement names its worker. -/
abbrev workerFleet (cfg : Config) : System Fleet FleetOp :=
  fleet cfg fun _ o => o.action.ByWorker

/-- The row of an assignment. -/
def Fleet.row (f : Fleet) (aid : AssignmentId) : Option StageAssignment := f.db.assignments[aid]?

/-- **A row through one request**: what every row move but an unchecked acknowledgement keeps. -/
theorem fleetExec_row {P : StageAssignment → Prop} {f : Fleet} {o : FleetOp}
    (ho : o.action.ByWorker)
    (hstep : ∀ k ≠ .confirm, ∀ a a', RowMove cfg o.now a k a' → P a → P a')
    {aid : AssignmentId} {a : StageAssignment} (ha : f.row aid = some a) (hP : P a) :
    ∃ a', (fleetExec cfg f o).row aid = some a' ∧ P a' := by
  refine (fleetExec_moves cfg f o).row (fun k hk a a' => hstep k ?_ a a') ha hP
  rintro rfl
  exact ho.kinds hk

/-- **A row through a run.** -/
theorem steps_row {P : StageAssignment → Prop}
    (hstep : ∀ now, ∀ k ≠ .confirm, ∀ a a', RowMove cfg now a k a' → P a → P a') {f g : Fleet}
    (h : (workerFleet cfg).Steps f g) {aid : AssignmentId} {a : StageAssignment}
    (ha : f.row aid = some a) (hP : P a) : ∃ a', g.row aid = some a' ∧ P a' := by
  refine h.preserves (I := fun g => ∃ a, g.row aid = some a ∧ P a) ?_ ⟨a, ha, hP⟩
  rintro g o ⟨a, ha, hP⟩ ho
  exact fleetExec_row ho (hstep o.now) ha hP

/-- **All rows of every state.** -/
theorem reachable_rows {P : StageAssignment → Prop}
    (hnew : ∀ now k a, NewRow cfg now a k → P a)
    (hstep : ∀ now, ∀ k ≠ .confirm, ∀ a a', RowMove cfg now a k a' → P a → P a') {f : Fleet}
    (h : (workerFleet cfg).Reachable f) : ∀ a ∈ f.db.assignments, P a := by
  refine h.invariant (I := fun f => ∀ a ∈ f.db.assignments, P a) ?_ ?_
  · intro f hf a ha
    rw [hf.assignments] at ha
    cases ha
  · intro f o hall ho
    refine (fleetExec_moves cfg f o).rows (hnew o.now) (fun k hk a a' => ?_) hall
    refine hstep o.now k ?_ a a'
    rintro rfl
    exact FleetAction.ByWorker.kinds ho hk

end HumanGate
