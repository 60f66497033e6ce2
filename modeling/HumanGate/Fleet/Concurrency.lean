import HumanGate.Fleet.Slots
import HumanGate.Model.Desk

set_option autoImplicit false

/-! # A worker's concurrency

Claims and dispatches admit work by `current_load < max_concurrency`, and they count in what they
admit. A heartbeat overwrites the counter with the number the worker reports, which may be out of
date by the claims that were granted meanwhile. The invariant that carries the bound is `held ≤
current_load ≤ max_concurrency`; every operation keeps it, and a heartbeat keeps it if it reports
no less than the worker holds.
-/

namespace HumanGate

open Lib Lib.Calendar Relation

variable {cfg : Config} {now : Instant}

/-! ## The system -/

/-- The requests of registered workers, and the transactions of the orchestration. Nobody
registers again or is deregistered, so `max_concurrency` stays. -/
def FleetAction.Serving : FleetAction → Prop
  | .register .. | .deregister .. | .revoke .. | .emergencyStop .. => False
  | _ => True

instance (a : FleetAction) : Decidable a.Serving := by
  unfold FleetAction.Serving
  split <;> infer_instance

/-- A registered worker that holds nothing yet, and everything that happens to it. -/
def servingWorker (cfg : Config) (wid : WorkerId) : System Fleet FleetOp where
  init f := ∃ w, f.db.workers[wid]? = some w ∧ f.db.crew.held wid = 0 ∧
    w.currentLoad ≤ w.maxConcurrency
  allowed _ o := o.action.ByWorker ∧ o.action.Serving
  exec := fleetExec cfg

/-- A heartbeat of the worker with an admissible load reports at least what the worker holds. -/
def HeartbeatCovers (wid : WorkerId) (f : Fleet) (o : FleetOp) : Prop :=
  match o.action with
  | .heartbeat auth _ load =>
      auth.workerId = wid → (f.db.workers[wid]?).any (fun w => decide (load ≤ w.maxConcurrency)) →
        f.db.crew.held wid ≤ load
  | _ => True

/-! ## The invariant -/

/-- The worker's load covers what it holds, and is within its concurrency. -/
def Crew.Covered (c : Crew) (wid : WorkerId) : Prop :=
  ∃ w, c.workers[wid]? = some w ∧ c.held wid ≤ w.currentLoad ∧ w.currentLoad ≤ w.maxConcurrency

theorem SlotMove.covered {max : Nat} {k : MoveKind} {p p' : Slots} (h : SlotMove max k p p')
    (hk : k ≠ .confirm) (hp : p.held ≤ p.load ∧ p.load ≤ max) :
    p'.held ≤ p'.load ∧ p'.load ≤ max := by
  cases h with
  | same => exact hp
  | take hroom => exact ⟨by simp only; omega, hroom⟩
  | free hheld => exact ⟨by simp only; omega, by simp only; omega⟩
  | lose _ hheld => exact ⟨by simp only; omega, hp.2⟩
  | gain hgain => exact absurd hgain hk

theorem Move.covered {k : MoveKind} {c c' : Crew} (h : Move cfg now k c c') (hstaff : k ≠ .staff)
    (hconfirm : k ≠ .confirm) {wid : WorkerId} (hc : c.Covered wid) : c'.Covered wid := by
  obtain ⟨w, hw, hcover⟩ := hc
  obtain ⟨w', hw', hmax, hslots⟩ := h.slots hstaff hw
  have hkept := hslots.covered hconfirm hcover
  refine ⟨w', hw', ?_⟩
  rw [hmax]
  exact hkept

/-- A heartbeat replaces the load of its worker, and nothing else changes hands. -/
theorem workerHeartbeat_beats {f f' : Fleet} {auth : AuthenticatedWorker} {status : WorkerStatus}
    {load : Nat} (h : workerHeartbeat f now auth status load = .ok f') :
    f' = f.updateWorker auth.workerId (WorkerRegistration.beat now status load) ∧
      ∃ w, f.db.workers[auth.workerId]? = some w ∧ load ≤ w.maxConcurrency := by
  unfold workerHeartbeat at h
  split at h
  · cases h
  · split at h
    · cases h
    · rename_i w hreg
      split at h
      · cases h
      · rename_i hload
        cases h
        refine ⟨rfl, w, ?_, Nat.le_of_not_lt hload⟩
        unfold activeRegistration at hreg
        split at hreg
        · cases hreg
        · rename_i w' hw'
          split at hreg
          · cases hreg
          · cases hreg
            exact hw'

theorem heartbeat_covered {f f' : Fleet} {auth : AuthenticatedWorker} {status : WorkerStatus}
    {load : Nat} {wid : WorkerId} (h : workerHeartbeat f now auth status load = .ok f')
    (hcover : HeartbeatCovers wid f ⟨now, .heartbeat auth status load⟩)
    (hf : f.db.crew.Covered wid) : f'.db.crew.Covered wid := by
  obtain ⟨rfl, w₀, hw₀, hload⟩ := workerHeartbeat_beats h
  obtain ⟨w, hw, hheld, hmax⟩ := hf
  refine ⟨_, Crew.worker_slot hw (some auth.workerId) _, ?_⟩
  rw [updateWorker_crew, held_slot]
  by_cases hwid : auth.workerId = wid
  · subst hwid
    have heq : w₀ = w := Option.some.inj (hw₀.symm.trans hw)
    subst heq
    rw [if_pos rfl]
    exact ⟨hcover rfl (by rw [hw₀]; simpa using hload), hload⟩
  · rw [if_neg fun h => hwid (Option.some.inj h)]
    exact ⟨hheld, hmax⟩

theorem FleetAction.Serving.kinds {a : FleetAction} (h : a.Serving)
    (hbeat : ∀ auth status load, a ≠ .heartbeat auth status load) : .staff ∉ a.kinds := by
  cases a with
  | op action =>
      cases action with
      | acknowledge aid secs worker => cases worker <;> simp [FleetAction.kinds, Action.kinds]
      | _ => simp [FleetAction.kinds, Action.kinds]
  | heartbeat auth status load => exact absurd rfl (hbeat auth status load)
  | register auth payload rows => exact h.elim
  | deregister auth rows => exact h.elim
  | revoke ws wid rows => exact h.elim
  | emergencyStop ws others workers rows => exact h.elim
  | _ => simp [FleetAction.kinds]

/-- **A worker never holds more than its concurrency**, in every run whose heartbeats of the
worker report at least what it holds. -/
theorem worker_within_concurrency (cfg : Config) (wid : WorkerId) (f : Fleet)
    (hf : ((servingWorker cfg wid).restrict (HeartbeatCovers wid)).Reachable f) :
    ∃ w, f.db.workers[wid]? = some w ∧ f.db.crew.held wid ≤ w.maxConcurrency := by
  have hcovered : f.db.crew.Covered wid := by
    refine hf.invariant (I := fun f => f.db.crew.Covered wid) ?_ ?_
    · rintro f ⟨w, hw, hheld, hmax⟩
      exact ⟨w, hw, by omega, hmax⟩
    · rintro f ⟨now, action⟩ hI ⟨⟨hworker, hserving⟩, hcover⟩
      -- a heartbeat overwrites the load; every other call moves it slot by slot
      by_cases hbeat : ∃ auth status load, action = .heartbeat auth status load
      · obtain ⟨auth, status, load, rfl⟩ := hbeat
        show (fleetExec cfg f _).db.crew.Covered wid
        unfold fleetExec
        split
        · exact hI
        · rename_i f' hcall
          have hbeaten : f'.db.crew.Covered wid := heartbeat_covered hcall hcover hI
          exact hbeaten
      · push Not at hbeat
        refine (fleetExec_moves cfg f ⟨now, action⟩).invariant (I := fun c => c.Covered wid)
          (fun k hk c c' hm => ?_) hI
        refine hm.covered ?_ ?_
        · rintro rfl
          exact hserving.kinds hbeat hk
        · rintro rfl
          exact hworker.kinds hk
  obtain ⟨w, hw, hheld, hmax⟩ := hcovered
  exact ⟨w, hw, hheld.trans hmax⟩

/-! ## One slot, two scripts -/

instance (wid : WorkerId) (f : Fleet) (o : FleetOp) : Decidable (HeartbeatCovers wid f o) := by
  unfold HeartbeatCovers
  split <;> infer_instance

instance (cfg : Config) (wid : WorkerId) (f : Fleet) (o : FleetOp) :
    Decidable ((servingWorker cfg wid).allowed f o) :=
  inferInstanceAs (Decidable (o.action.ByWorker ∧ o.action.Serving))

/-- A desk whose only worker takes one script at a time, and has to claim it. -/
def soloFleet : Fleet where
  db := { deskDb with
    workers := [{ deskWorker [.scripting] with healthScore := 40, maxConcurrency := 1 }] }
  credentials := [{ workerId := 0, workspaceId := 0 }]

def soloAuth : AuthenticatedWorker := ⟨0, 0, 0⟩

/-- Two runs are started and their scripts queued; the worker claims the first. -/
def soloOps : List FleetOp :=
  [⟨0, .op (.startRun 0 0 0)⟩, ⟨0, .op (.startRun 0 0 0)⟩, ⟨1, .op (.pollAndLease 10 [0, 1])⟩,
   ⟨2, .op (.processLeasedJob 0 [0] 0)⟩, ⟨2, .op (.processLeasedJob 1 [0] 0)⟩,
   ⟨3, .claim soloAuth none [0, 1]⟩]

/-- A heartbeat with this load, and another claim. -/
def beatAndClaim (load : Nat) : List FleetOp :=
  [⟨4, .heartbeat soloAuth .online load⟩, ⟨5, .claim soloAuth none [0, 1]⟩]

/-- The heartbeat reports the script that was claimed: the second is not granted. -/
theorem covering_heartbeat_within_concurrency :
    ((soloOps ++ beatAndClaim 1).foldl (fleetExec deskConfig) soloFleet).db.crew.held 0 = 1 ∧
    ∃ w, ((soloOps ++ beatAndClaim 1).foldl (fleetExec deskConfig) soloFleet).db.workers[0]?
        = some w ∧
      ((soloOps ++ beatAndClaim 1).foldl (fleetExec deskConfig) soloFleet).db.crew.held 0
        ≤ w.maxConcurrency := by
  refine ⟨by decide +kernel, worker_within_concurrency deskConfig 0 _ ?_⟩
  refine .of_legal (soloOps ++ beatAndClaim 1) (.init ⟨_, rfl, ?_, ?_⟩) ?_
  · decide +kernel
  · decide +kernel
  · decide +kernel

/-- The heartbeat was sent before the claim was granted: the worker is granted a second script. -/
theorem stale_heartbeat_exceeds_concurrency :
    ∃ f w, (servingWorker deskConfig 0).Reachable f ∧ f.db.workers[0]? = some w ∧
      w.maxConcurrency = 1 ∧ f.db.crew.held 0 = 2 := by
  have hmax : (((soloOps ++ beatAndClaim 0).foldl
      (fleetExec deskConfig) soloFleet).db.workers[0]?).map
      WorkerRegistration.maxConcurrency = some 1 := by
    decide +kernel
  obtain ⟨w, hw, hone⟩ := Option.map_eq_some_iff.mp hmax
  refine ⟨_, w, ?_, hw, hone, by decide +kernel⟩
  refine .of_legal (soloOps ++ beatAndClaim 0) (.init ⟨_, rfl, ?_, ?_⟩) ?_
  · decide +kernel
  · decide +kernel
  · decide +kernel

end HumanGate
