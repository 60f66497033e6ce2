import HumanGate.Fleet.Requests

set_option autoImplicit false

/-! # Slots

A worker *holds* the `DISPATCHED` and `ACKNOWLEDGED` assignments whose `worker_id` it is, and its
`current_load` is meant to count them. `Move.slots` says what a move does to the two numbers of
one worker: nothing, a slot is taken or given back with the assignment, or the assignment moves
and the load does not (a cancellation, an unchecked acknowledgement).
-/

namespace HumanGate

open Lib Lib.Calendar Relation

variable {cfg : Config} {now : Instant}

/-! ## Held assignments -/

def StageAssignment.heldBy (wid : WorkerId) (a : StageAssignment) : Bool :=
  a.workerId == some wid && a.status.inFlight

/-- The number of assignments a worker holds. -/
def Crew.held (c : Crew) (wid : WorkerId) : Nat :=
  c.assignments.countP (StageAssignment.heldBy wid)

@[simp] theorem held_slot (c : Crew) (worker : Option WorkerId)
    (g : WorkerRegistration → WorkerRegistration) (wid : WorkerId) :
    (c.slot worker g).held wid = c.held wid := by
  unfold Crew.held
  rw [Crew.slot_assignments]

theorem held_push (c : Crew) (a : StageAssignment) (wid : WorkerId) :
    (c.push a).held wid = c.held wid + (if a.heldBy wid then 1 else 0) :=
  Table.countP_push ..

theorem held_update {c : Crew} {aid : AssignmentId} {a : StageAssignment}
    (ha : c.assignments[aid]? = some a) (f : StageAssignment → StageAssignment) (wid : WorkerId) :
    (c.update now aid f).held wid + (if a.heldBy wid then 1 else 0)
      = c.held wid + (if (f a).heldBy wid then 1 else 0) :=
  Table.countP_modify ha

/-- An update that does not change who holds the row. -/
theorem held_update_same {c : Crew} {aid : AssignmentId} {f : StageAssignment → StageAssignment}
    {wid : WorkerId}
    (h : ∀ a, c.assignments[aid]? = some a → (f a).heldBy wid = a.heldBy wid) :
    (c.update now aid f).held wid = c.held wid :=
  Table.countP_modify_same h

/-- An update that takes a row in flight out of it. -/
theorem held_update_out {c : Crew} {aid : AssignmentId} {a : StageAssignment}
    (ha : c.assignments[aid]? = some a) (hflight : a.status.inFlight = true)
    {f : StageAssignment → StageAssignment} (hf : (f a).status.inFlight = false) (wid : WorkerId) :
    (c.update now aid f).held wid + (if a.workerId = some wid then 1 else 0) = c.held wid := by
  have hcount : (c.update now aid f).held wid + _ = _ := held_update ha f wid
  have hout : (f a).heldBy wid = false := by
    unfold StageAssignment.heldBy
    rw [hf, Bool.and_false]
  have hin : a.heldBy wid = decide (a.workerId = some wid) := by
    unfold StageAssignment.heldBy
    rw [hflight, Bool.and_true]
    exact beq_eq_decide ..
  rw [hout, hin] at hcount
  simpa using hcount

/-- The registration of a worker after a slot changes. -/
theorem Crew.worker_slot {c : Crew} {wid : WorkerId} {w : WorkerRegistration}
    (hw : c.workers[wid]? = some w) (worker : Option WorkerId)
    (g : WorkerRegistration → WorkerRegistration) :
    (c.slot worker g).workers[wid]? = some (if worker = some wid then g w else w) := by
  cases worker with
  | none => exact hw
  | some wid' =>
      by_cases heq : wid' = wid
      · subst heq
        rw [if_pos rfl]
        exact Table.get_modify_self hw
      · rw [if_neg fun h => heq (Option.some.inj h)]
        exact (Table.get_modify_ne heq).trans hw

/-! ## The two numbers of a worker -/

/-- What a worker holds, and its load. -/
structure Slots where
  held : Nat
  load : Nat

/-- What a move does to the slots of a worker with room for `max` assignments. -/
inductive SlotMove (max : Nat) (k : MoveKind) (p : Slots) : Slots → Prop
  | same : SlotMove max k p p
  | take : p.load < max → SlotMove max k p ⟨p.held + 1, p.load + 1⟩
  | free {h : Nat} : p.held = h + 1 → SlotMove max k p ⟨h, p.load - 1⟩
  | lose {h : Nat} : k = .cancel → p.held = h + 1 → SlotMove max k p ⟨h, p.load⟩
  | gain : k = .confirm → SlotMove max k p ⟨p.held + 1, p.load⟩

/-- The slots of a registered worker. -/
def Crew.slots (c : Crew) (wid : WorkerId) (w : WorkerRegistration) : Slots :=
  ⟨c.held wid, w.currentLoad⟩

@[simp] theorem takeSlot_max (w : WorkerRegistration) :
    w.takeSlot.maxConcurrency = w.maxConcurrency := rfl

@[simp] theorem returnSlot_max (w : WorkerRegistration) :
    w.returnSlot.maxConcurrency = w.maxConcurrency := by
  unfold WorkerRegistration.returnSlot
  split <;> rfl

@[simp] theorem returnSlot_load (w : WorkerRegistration) :
    w.returnSlot.currentLoad = w.currentLoad - 1 := by
  unfold WorkerRegistration.returnSlot
  split
  · rfl
  · omega

/-- An assignment leaves a worker, and the slot with it. -/
theorem slots_free {k : MoveKind} {c : Crew} {wid : WorkerId} {w : WorkerRegistration}
    {held : Nat} {worker : Option WorkerId} {g : WorkerRegistration → WorkerRegistration}
    (hheld : held + (if worker = some wid then 1 else 0) = c.held wid)
    (hload : (g w).currentLoad = w.currentLoad - 1) :
    SlotMove w.maxConcurrency k (c.slots wid w)
      ⟨held, (if worker = some wid then g w else w).currentLoad⟩ := by
  by_cases hwid : worker = some wid
  · rw [if_pos hwid] at hheld ⊢
    rw [hload]
    exact .free hheld.symm
  · rw [if_neg hwid] at hheld ⊢
    have hsame : (⟨held, w.currentLoad⟩ : Slots) = c.slots wid w := by
      rw [Crew.slots, ← hheld, Nat.add_zero]
    rw [hsame]
    exact .same

/-- An assignment comes to a worker with room, and takes a slot. -/
theorem slots_take {k : MoveKind} {c : Crew} {wid wid' : WorkerId} {w w' : WorkerRegistration}
    {held : Nat} (hw : c.workers[wid]? = some w) (hw' : c.workers[wid']? = some w')
    (hroom : w'.currentLoad < w'.maxConcurrency)
    (hheld : held = c.held wid + (if wid' = wid then 1 else 0)) :
    SlotMove w.maxConcurrency k (c.slots wid w)
      ⟨held, (if some wid' = some wid then w.takeSlot else w).currentLoad⟩ := by
  by_cases hwid : wid' = wid
  · subst hwid
    rw [hw] at hw'
    cases hw'
    rw [if_pos rfl] at hheld ⊢
    rw [hheld]
    exact .take hroom
  · rw [if_neg hwid, Nat.add_zero] at hheld
    rw [if_neg fun h => hwid (Option.some.inj h), hheld]
    exact .same

theorem claimRefusal_room {w : WorkerRegistration} (h : claimRefusal cfg w now = none) :
    w.currentLoad < w.maxConcurrency := by
  by_contra hfull
  have hle : w.maxConcurrency ≤ w.currentLoad := Nat.le_of_not_lt hfull
  unfold claimRefusal at h
  rw [if_pos hle] at h
  split_ifs at h

/-- The numbers stay. -/
theorem slots_same {max : Nat} {k : MoveKind} {c c' : Crew} {wid : WorkerId}
    {w : WorkerRegistration} (h : c'.held wid = c.held wid) :
    SlotMove max k (c.slots wid w) (c'.slots wid w) := by
  unfold Crew.slots
  rw [h]
  exact .same

/-- **What a move does to the slots of a worker.** -/
theorem Move.slots {k : MoveKind} {c c' : Crew} (h : Move cfg now k c c') (hk : k ≠ .staff)
    {wid : WorkerId} {w : WorkerRegistration} (hw : c.workers[wid]? = some w) :
    ∃ w', c'.workers[wid]? = some w' ∧ w'.maxConcurrency = w.maxConcurrency ∧
      SlotMove w.maxConcurrency k (c.slots wid w) (c'.slots wid w') := by
  have hmax : ∀ (worker : Option WorkerId) (g : WorkerRegistration → WorkerRegistration),
      (g w).maxConcurrency = w.maxConcurrency →
      (if worker = some wid then g w else w).maxConcurrency = w.maxConcurrency := by
    intro worker g hg
    split
    · exact hg
    · rfl
  have hrow : ∀ aid a, c.assignments[aid]? = some a → ∀ f,
      (c.update now aid f).held wid + (if a.heldBy wid then 1 else 0)
        = c.held wid + (if (f a).heldBy wid then 1 else 0) :=
    fun _ _ ha f => held_update ha f wid
  have hfree : ∀ aid a, c.assignments[aid]? = some a → a.status.inFlight = true → ∀ f,
      (f a).status.inFlight = false →
      (c.update now aid f).held wid + (if a.workerId = some wid then 1 else 0) = c.held wid :=
    fun _ _ ha hflight _ hf => held_update_out ha hflight hf wid
  cases h with
  | queue args stage =>
      exact ⟨w, hw, rfl, slots_same (held_push c (newAssignment cfg now args stage none) wid)⟩
  | @assign _ wid' w' args stage hw' hroom =>
      refine ⟨_, Crew.worker_slot (c := c.push _) hw (some wid') _, hmax _ _ rfl, ?_⟩
      refine slots_take hw hw' hroom ?_
      rw [held_slot, held_push]
      simp [StageAssignment.heldBy, newAssignment, StageAssignmentStatus.inFlight]
  | @claim _ aid a wid' w' token ha hst hw' hrefusal =>
      refine ⟨_, Crew.worker_slot (c := c.update now aid _) hw (some wid') _, hmax _ _ rfl, ?_⟩
      refine slots_take hw hw' (claimRefusal_room hrefusal) ?_
      rw [held_slot]
      have hheld := hrow aid a ha (StageAssignment.claim cfg now wid' token)
      simpa [StageAssignment.heldBy, StageAssignment.claim, hst, StageAssignmentStatus.inFlight]
        using hheld
  | @acknowledge _ aid a secs ha hst =>
      refine ⟨w, hw, rfl, slots_same (held_update_same fun b hb => ?_)⟩
      rw [ha] at hb
      cases hb
      simp [StageAssignment.heldBy, StageAssignment.acknowledge, StageAssignment.extendLease, hst,
        StageAssignmentStatus.inFlight]
  | @confirm _ aid secs =>
      refine ⟨w, hw, rfl, ?_⟩
      by_cases hgain : ∃ a, c.assignments[aid]? = some a ∧ a.heldBy wid = false ∧
          (a.acknowledge now secs).heldBy wid = true
      · obtain ⟨a, ha, hout, hin⟩ := hgain
        have hheld := hrow aid a ha (StageAssignment.acknowledge now secs)
        rw [hout, hin] at hheld
        have hgained : (c.update now aid (StageAssignment.acknowledge now secs)).held wid
            = c.held wid + 1 := by
          simpa using hheld
        unfold Crew.slots
        rw [hgained]
        exact .gain rfl
      · refine slots_same (held_update_same fun a ha => ?_)
        push Not at hgain
        have hin := hgain a ha
        -- an acknowledged row is in flight, so it is held wherever it was held before
        unfold StageAssignment.heldBy at hin ⊢
        simp only [StageAssignment.acknowledge, StageAssignment.extendLease,
          StageAssignmentStatus.inFlight, Bool.and_true] at hin ⊢
        cases hworker : a.workerId == some wid <;> simp_all
  | extend secs => exact ⟨w, hw, rfl, slots_same (held_update_same fun _ _ => rfl)⟩
  | @close _ aid a rs success result ha hflight hrs =>
      refine ⟨_, Crew.worker_slot (c := c.update now aid _) hw a.workerId _,
        hmax _ _ (returnSlot_max w), slots_free ?_ (returnSlot_load w)⟩
      have hout : (a.close now success result).status.inFlight = false := by
        cases success <;> rfl
      have hheld := hfree aid a ha hflight (StageAssignment.close now success result) hout
      rw [← held_slot _ a.workerId WorkerRegistration.returnSlot] at hheld
      exact hheld
  | @requeue _ aid a ha hflight =>
      refine ⟨_, Crew.worker_slot hw a.workerId _, hmax _ _ rfl, slots_free ?_ rfl⟩
      have hheld := hfree aid a ha hflight StageAssignment.requeue rfl
      simpa only [Crew.held, Crew.update, Crew.slot_assignments] using hheld
  | @exhaust _ aid a ha hflight =>
      refine ⟨_, Crew.worker_slot hw a.workerId _, hmax _ _ rfl, slots_free ?_ rfl⟩
      have hheld := hfree aid a ha hflight (StageAssignment.exhaust now) rfl
      simpa only [Crew.held, Crew.update, Crew.slot_assignments] using hheld
  | @cancel _ aid a ha hopen =>
      refine ⟨w, hw, rfl, ?_⟩
      have hheld := hrow aid a ha StageAssignment.cancel
      have hout : a.cancel.heldBy wid = false := by
        simp [StageAssignment.heldBy, StageAssignment.cancel, StageAssignmentStatus.inFlight]
      rw [hout] at hheld
      by_cases hin : a.heldBy wid = true
      · rw [if_pos hin] at hheld
        exact .lose rfl hheld.symm
      · rw [if_neg hin] at hheld
        exact slots_same hheld
  | staff wid g _ => exact absurd rfl hk

end HumanGate
