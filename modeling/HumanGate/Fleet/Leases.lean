import HumanGate.Fleet.Exclusive

set_option autoImplicit false

/-! # The lease of an assignment

Six functions set, extend and clear the lease of an assignment. Between them an assignment that is
in flight always has an owner and a lease that starts before it ends and is no longer than the
maximum, and one that is pending has nothing of the kind. The clock matters for one thing: a lease
that is extended must not have started in the future.

The comparison with the expiry is the same in `submit_result` and in the reaper's query, so at every
instant exactly one of them gets the assignment.
-/

namespace HumanGate

open Lib Lib.Calendar Relation

variable {cfg : Config} {now : Instant}

/-! ## The invariant -/

/-- The assignment has an owner and a lease within the maximum. -/
structure StageAssignment.Leased (cfg : Config) (a : StageAssignment) : Prop where
  worker : a.workerId.isSome = true
  dispatched : a.dispatchedAt.isSome = true
  lease : ∃ started expires, a.leaseStartedAt = some started ∧ a.leaseExpiresAt = some expires ∧
    started < expires ∧ expires ≤ started + seconds cfg.settings.assignmentMaxLeaseSeconds

/-- Nobody has the assignment, and nothing is left of an earlier owner. -/
structure StageAssignment.Unowned (a : StageAssignment) : Prop where
  worker : a.workerId = none
  started : a.leaseStartedAt = none
  expires : a.leaseExpiresAt = none
  claimedBy : a.claimedBy = none
  claimToken : a.claimToken = none

structure StageAssignment.LeaseKept (cfg : Config) (clock : Instant) (a : StageAssignment) :
    Prop where
  held : a.status.inFlight = true → a.Leased cfg
  started : ∀ t ∈ a.leaseStartedAt, t ≤ clock
  waiting : a.status = .pending → a.Unowned

theorem StageAssignment.LeaseKept.later {clock clock' : Instant} {a : StageAssignment}
    (h : a.LeaseKept cfg clock) (hle : clock ≤ clock') : a.LeaseKept cfg clock' :=
  ⟨h.held, fun t ht => (h.started t ht).trans hle, h.waiting⟩

/-- The settings the invariant needs. -/
structure Settings.LeasesFit (settings : Settings) : Prop where
  positive : 0 < settings.assignmentLeaseSeconds
  bounded : settings.assignmentLeaseSeconds ≤ settings.assignmentMaxLeaseSeconds

theorem seconds_pos {n : Nat} (h : 0 < n) : 0 < seconds n := Nat.mul_pos h (by decide)

theorem seconds_le {m n : Nat} (h : m ≤ n) : seconds m ≤ seconds n := Nat.mul_le_mul_right _ h

/-- A lease that is given now. -/
theorem Settings.LeasesFit.fresh (hfit : cfg.settings.LeasesFit) :
    now < now + seconds cfg.settings.assignmentLeaseSeconds ∧
      now + seconds cfg.settings.assignmentLeaseSeconds
        ≤ now + seconds cfg.settings.assignmentMaxLeaseSeconds :=
  ⟨Nat.lt_add_of_pos_right (seconds_pos hfit.positive),
    Nat.add_le_add_left (seconds_le hfit.bounded) now⟩

/-! ## Rows -/

theorem NewRow.leaseKept (hfit : cfg.settings.LeasesFit) {k : MoveKind} {a : StageAssignment}
    (h : NewRow cfg now a k) : a.LeaseKept cfg now := by
  cases h with
  | queue args stage heq =>
      subst heq
      refine ⟨fun hst => ?_, fun t ht => ?_, fun _ => ⟨rfl, rfl, rfl, rfl, rfl⟩⟩
      · cases hst
      · cases ht
  | assign args stage wid heq =>
      subst heq
      refine ⟨fun _ => ⟨rfl, rfl, now, _, rfl, rfl, hfit.fresh⟩, fun t ht => ?_, fun hst => ?_⟩
      · cases ht
        exact le_refl _
      · cases hst

/-- The moves that do not extend a lease. -/
theorem RowMove.leaseKept (hfit : cfg.settings.LeasesFit) {k : MoveKind} {a a' : StageAssignment}
    (h : RowMove cfg now a k a') (hk : k ∉ [MoveKind.acknowledge, .confirm, .extend])
    (ha : a.LeaseKept cfg now) : a'.LeaseKept cfg now := by
  cases h with
  | claim wid token hst =>
      refine ⟨fun _ => ⟨rfl, rfl, now, _, rfl, rfl, hfit.fresh⟩, fun t ht => ?_, fun hst => ?_⟩
      · cases ht
        exact le_refl _
      · cases hst
  | close success result hst =>
      have hno : (a.close now success result).status.inFlight = false ∧
          (a.close now success result).status ≠ .pending := by
        cases success <;> exact ⟨rfl, by simp [StageAssignment.close]⟩
      refine ⟨fun hin => ?_, fun t ht => ?_, fun hp => absurd hp hno.2⟩
      · exact absurd (hno.1.symm.trans hin) (by decide)
      · cases ht
  | requeue hst =>
      refine ⟨fun hin => ?_, fun t ht => ?_, fun _ => ⟨rfl, rfl, rfl, rfl, rfl⟩⟩
      · cases hin
      · cases ht
  | exhaust hst =>
      refine ⟨fun hin => ?_, fun t ht => ?_, fun hp => ?_⟩
      · cases hin
      · cases ht
      · cases hp
  | cancel hst =>
      refine ⟨fun hin => ?_, ha.started, fun hp => ?_⟩
      · cases hin
      · cases hp
  | acknowledge | confirm | extend => simp at hk

/-! ## Extensions -/

theorem leaseRefusal_none {a : StageAssignment} {wid : WorkerId} {secs : Nat}
    (h : leaseRefusal cfg a wid now secs = none) : a.status.inFlight = true ∧
      now + seconds secs ≤ a.leaseStartedAt.getD (a.dispatchedAt.getD now)
        + seconds cfg.settings.assignmentMaxLeaseSeconds := by
  unfold leaseRefusal at h
  split at h
  · cases h
  · split at h
    · cases h
    · rename_i hst
      split at h
      · cases h
      · split at h
        · cases h
        · rename_i hmax
          exact ⟨not_not.mp hst, Nat.le_of_not_lt hmax⟩

/-- An extension by the default that the checks have admitted. -/
theorem StageAssignment.LeaseKept.extend (hfit : cfg.settings.LeasesFit) {a : StageAssignment}
    {wid : WorkerId} (ha : a.LeaseKept cfg now)
    (h : leaseRefusal cfg a wid now cfg.settings.assignmentLeaseSeconds = none) :
    (a.extendLease now cfg.settings.assignmentLeaseSeconds).LeaseKept cfg now := by
  obtain ⟨hst, hmax⟩ := leaseRefusal_none h
  obtain ⟨hw, hd, started, expires, hs, _, _, _⟩ := ha.held hst
  have hbefore : started ≤ now := ha.started started hs
  rw [hs, Option.getD_some] at hmax
  have hlt : started < now + seconds cfg.settings.assignmentLeaseSeconds :=
    Nat.lt_of_le_of_lt hbefore hfit.fresh.1
  refine ⟨fun _ => ⟨hw, hd, started, _, ?_, rfl, hlt, hmax⟩, fun t ht => ?_, fun hp => ?_⟩
  · show some (a.leaseStartedAt.getD _) = some started
    rw [hs, Option.getD_some]
  · have heq : a.leaseStartedAt.getD (a.dispatchedAt.getD now) = t := Option.some.inj ht
    rw [hs, Option.getD_some] at heq
    exact heq ▸ hbefore
  · rw [show a.status = .pending from hp] at hst
    cases hst

theorem StageAssignment.LeaseKept.acknowledge (hfit : cfg.settings.LeasesFit) {a : StageAssignment}
    {wid : WorkerId} (ha : a.LeaseKept cfg now)
    (h : leaseRefusal cfg a wid now cfg.settings.assignmentLeaseSeconds = none) :
    (a.acknowledge now cfg.settings.assignmentLeaseSeconds).LeaseKept cfg now := by
  have hext := ha.extend hfit h
  obtain ⟨hw, hd, hlease⟩ := hext.held (leaseRefusal_none h).1
  refine ⟨fun _ => ⟨hw, hd, hlease⟩, hext.started, fun hp => ?_⟩
  cases hp

/-- All assignments keep the invariant. -/
def Db.LeasesKept (cfg : Config) (clock : Instant) (s : Db) : Prop :=
  ∀ a ∈ s.assignments, a.LeaseKept cfg clock

theorem acknowledge_leasesKept (hfit : cfg.settings.LeasesFit) {s s' : Db} {aid : AssignmentId}
    {wid : WorkerId} (hs : s.LeasesKept cfg now)
    (h : HumanGate.acknowledge cfg s now aid none (some wid) = .ok s') : s'.LeasesKept cfg now := by
  unfold HumanGate.acknowledge at h
  split at h
  · cases h
  · rename_i a ha
    simp only [Option.getD_none, Option.bind_some] at h
    split at h
    · cases h
    · rename_i hrefusal
      rw [Option.or_eq_none_iff] at hrefusal
      cases h
      refine Table.forall_modify hs fun old hold => ?_
      rw [ha] at hold
      cases hold
      obtain ⟨hheld, hstarted, hwaiting⟩ :=
        (hs a (Table.mem_of_get ha)).acknowledge hfit hrefusal.1
      exact ⟨fun hin => ⟨(hheld hin).1, (hheld hin).2, (hheld hin).3⟩, hstarted,
        fun hp => by cases hp⟩

theorem renewLease_leasesKept (hfit : cfg.settings.LeasesFit) {s s' : Db} {aid : AssignmentId}
    {wid : WorkerId} (hs : s.LeasesKept cfg now)
    (h : renewLease cfg s now aid none (some wid) = .ok s') : s'.LeasesKept cfg now := by
  unfold renewLease at h
  split at h
  · cases h
  · rename_i a ha
    simp only [Option.getD_none, Option.bind_some] at h
    split at h
    · cases h
    · rename_i hrefusal
      cases h
      refine Table.forall_modify hs fun old hold => ?_
      rw [ha] at hold
      cases hold
      obtain ⟨hheld, hstarted, hwaiting⟩ := (hs a (Table.mem_of_get ha)).extend hfit hrefusal
      exact ⟨fun hin => ⟨(hheld hin).1, (hheld hin).2, (hheld hin).3⟩, hstarted,
        fun hp => ⟨(hwaiting hp).1, (hwaiting hp).2, (hwaiting hp).3, (hwaiting hp).4,
          (hwaiting hp).5⟩⟩

/-! ## Requests -/

/-- Leases are extended on behalf of a worker and by the default, as the endpoints do. -/
def FleetAction.ExtendsAsWorker : FleetAction → Prop
  | .op (.acknowledge _ secs worker) => secs = none ∧ worker.isSome = true
  | .op (.renewLease _ secs worker) => secs = none ∧ worker.isSome = true
  | _ => True

/-- The actions that do not extend a lease. -/
theorem fleetExec_leasesKept_of_kinds (hfit : cfg.settings.LeasesFit) {f : Fleet} {o : FleetOp}
    (hk : ∀ k ∈ o.action.kinds, k ∉ [MoveKind.acknowledge, .confirm, .extend])
    (hf : f.db.LeasesKept cfg o.now) : (fleetExec cfg f o).db.LeasesKept cfg o.now :=
  (fleetExec_moves cfg f o).rows (fun _ _ hnew => hnew.leaseKept hfit)
    (fun k hmem _ _ hmove ha => hmove.leaseKept hfit (hk k hmem) ha) hf

theorem commit_leasesKept {s : Db} {e : Except Err Db} (hs : s.LeasesKept cfg now)
    (h : ∀ s', e = .ok s' → s'.LeasesKept cfg now) :
    ((Call.ofExcept s e).commit s).LeasesKept cfg now := by
  cases e with
  | error _ => exact hs
  | ok s' => exact h s' rfl

/-- **Every request keeps the invariant.** -/
theorem fleetExec_leasesKept (hfit : cfg.settings.LeasesFit) {f : Fleet} {o : FleetOp}
    (ho : o.action.ExtendsAsWorker) (hf : f.db.LeasesKept cfg o.now) :
    (fleetExec cfg f o).db.LeasesKept cfg o.now := by
  obtain ⟨now, action⟩ := o
  cases action with
  | ack auth aid =>
      simp only [fleetExec, FleetOp.call]
      split
      · exact hf
      · rename_i f' hcall
        obtain ⟨r, hack, rfl⟩ := map_ok hcall
        unfold ackAssignment at hack
        split at hack
        · cases hack
        · split at hack
          · cases hack
          · rename_i s hs
            cases hack
            rw [ensureProviderEffectKey_db]
            have hkept := acknowledge_leasesKept hfit hf hs
            exact hkept
  | renew auth aid =>
      simp only [fleetExec, FleetOp.call]
      split
      · exact hf
      · rename_i f' hrenew
        unfold renewAssignmentLease at hrenew
        split at hrenew
        · cases hrenew
        · split at hrenew
          · cases hrenew
          · rename_i s hs
            cases hrenew
            have hkept := renewLease_leasesKept hfit hf hs
            exact hkept
  | op action =>
      cases action with
      | acknowledge aid secs worker =>
          obtain ⟨rfl, hworker⟩ := ho
          obtain ⟨wid, rfl⟩ := Option.isSome_iff_exists.mp hworker
          exact commit_leasesKept hf fun _ h => acknowledge_leasesKept hfit hf h
      | renewLease aid secs worker =>
          obtain ⟨rfl, hworker⟩ := ho
          obtain ⟨wid, rfl⟩ := Option.isSome_iff_exists.mp hworker
          exact commit_leasesKept hf fun _ h => renewLease_leasesKept hfit hf h
      | _ => exact fleetExec_leasesKept_of_kinds hfit (by simp [FleetAction.kinds, Action.kinds]) hf
  | _ => exact fleetExec_leasesKept_of_kinds hfit (by simp [FleetAction.kinds]) hf

/-! ## Owner and reaper -/

/-- At every instant either the owner may submit or the reaper takes the assignment. -/
theorem StageAssignment.Leased.owner_xor_reaper {a : StageAssignment} (h : a.Leased cfg)
    (hst : a.status.inFlight = true) (t : Instant) :
    Xor (submitRefusal a a.workerId t = none) (a.leaseExpired t = true) := by
  obtain ⟨started, expires, _, he, _, _⟩ := h.lease
  have hadmits : submitRefusal a a.workerId t = none ↔ ¬ expires < t := by
    unfold submitRefusal
    by_cases hlt : expires < t <;> simp [hst, he, h.worker, hlt]
  have htakes : a.leaseExpired t = true ↔ expires < t := by
    unfold StageAssignment.leaseExpired
    simp [hst, he]
  rw [hadmits, htakes]
  by_cases hlt : expires < t
  · exact .inr ⟨hlt, not_not.mpr hlt⟩
  · exact .inl ⟨hlt, hlt⟩

/-! ## Every run -/

/-- The fleet and the time. -/
structure ClockedFleet where
  clock : Instant
  fleet : Fleet

/-- The fleet under a clock that does not go back. At the start there is no assignment. -/
def clockedFleet (cfg : Config) : System ClockedFleet FleetOp where
  init s := s.fleet.db.assignments = []
  allowed s o := s.clock ≤ o.now ∧ o.action.ExtendsAsWorker
  exec s o := ⟨o.now, fleetExec cfg s.fleet o⟩

/-- **The lease invariant**, of every assignment in every reachable state. -/
theorem lease_invariant (cfg : Config) (hpos : 0 < cfg.settings.assignmentLeaseSeconds)
    (hle : cfg.settings.assignmentLeaseSeconds ≤ cfg.settings.assignmentMaxLeaseSeconds)
    (s : ClockedFleet) (h : (clockedFleet cfg).Reachable s) :
    ∀ a ∈ s.fleet.db.assignments,
      (a.status.inFlight = true → a.Leased cfg ∧
        ∀ t, Xor (submitRefusal a a.workerId t = none) (a.leaseExpired t = true)) ∧
      (a.status = .pending → a.Unowned) := by
  have hkept : s.fleet.db.LeasesKept cfg s.clock := by
    refine h.invariant (I := fun s => s.fleet.db.LeasesKept cfg s.clock) ?_ ?_
    · intro s hs a ha
      rw [show s.fleet.db.assignments = [] from hs] at ha
      cases ha
    · -- the clock does not go back, so what held before holds now
      rintro s o hs ⟨hclock, hext⟩
      exact fleetExec_leasesKept ⟨hpos, hle⟩ hext fun a ha => (hs a ha).later hclock
  intro a ha
  have hrow := hkept a ha
  exact ⟨fun hst => ⟨hrow.held hst, (hrow.held hst).owner_xor_reaper hst⟩, hrow.waiting⟩

/-- The desk's worker has claimed and acknowledged a script. -/
def leasedScript : ClockedFleet :=
  claimFleetOps.foldl (clockedFleet deskConfig).exec ⟨0, claimFleet⟩

theorem leasedScript_reachable : (clockedFleet deskConfig).Reachable leasedScript := by
  refine .of_legal claimFleetOps (.init rfl) ?_
  exact ⟨⟨Nat.le_refl 0, trivial⟩, ⟨Nat.zero_le 1, trivial⟩, ⟨Nat.le_succ 1, trivial⟩,
    ⟨Nat.le_succ 2, trivial⟩, ⟨Nat.le_succ 3, trivial⟩, trivial⟩

theorem script_leased :
    leasedScript.fleet.db.assignments.map (fun a =>
      (a.status, a.leaseStartedAt, a.leaseExpiresAt))
        = [(.acknowledged, some 3, some (4 + seconds 60))] ∧
    ∀ a ∈ leasedScript.fleet.db.assignments, a.status.inFlight = true → a.Leased deskConfig := by
  refine ⟨by decide +kernel, fun a ha hst => ?_⟩
  exact ((lease_invariant deskConfig (by decide) (by decide) leasedScript leasedScript_reachable a
    ha).1 hst).1

end HumanGate
