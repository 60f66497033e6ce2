import HumanGate.Fleet.Requests

set_option autoImplicit false

/-! # Who is off duty

Only a registration and a heartbeat bring a worker on duty. Everything else leaves a worker that is
off duty where it is (`StaysOff`): a slot is taken by a worker that is on duty, and a worker that
gives its slot back goes from busy to online, not from offline.
-/

namespace HumanGate

open Lib Lib.Calendar Relation

variable {cfg : Config} {now : Instant}

/-! ## Workers -/

/-- A worker that is off duty stays off duty, and nobody is revived. -/
structure StaysOff (w w' : WorkerRegistration) : Prop where
  offline : w.status = .offline → w'.status = .offline
  deregistered : w'.deregisteredAt = w.deregisteredAt

theorem StaysOff.refl (w : WorkerRegistration) : StaysOff w w := ⟨id, rfl⟩

theorem StaysOff.trans {w w' w'' : WorkerRegistration} (h : StaysOff w w') (h' : StaysOff w' w'') :
    StaysOff w w'' :=
  ⟨h'.offline ∘ h.offline, h'.deregistered.trans h.deregistered⟩

theorem staysOff_takeSlot {w : WorkerRegistration} (h : w.status ≠ .offline) :
    StaysOff w w.takeSlot :=
  ⟨fun hoff => absurd hoff h, rfl⟩

theorem staysOff_releaseSlot (w : WorkerRegistration) : StaysOff w w.releaseSlot :=
  ⟨fun hoff => by simp [WorkerRegistration.releaseSlot, hoff], rfl⟩

theorem staysOff_returnSlot (w : WorkerRegistration) : StaysOff w w.returnSlot := by
  unfold WorkerRegistration.returnSlot
  split
  · exact ⟨fun hoff => by simp [hoff], rfl⟩
  · exact .refl w

/-- The same of every worker. -/
def Crew.StaysOff (c c' : Crew) : Prop :=
  ∀ (wid : WorkerId) (w' : WorkerRegistration), c'.workers[wid]? = some w' →
    ∃ w, c.workers[wid]? = some w ∧ HumanGate.StaysOff w w'

theorem Crew.StaysOff.refl (c : Crew) : c.StaysOff c := fun _ w' hw' => ⟨w', hw', .refl w'⟩

theorem Crew.StaysOff.trans {c c' c'' : Crew} (h : c.StaysOff c') (h' : c'.StaysOff c'') :
    c.StaysOff c'' := by
  intro wid w'' hw''
  obtain ⟨w', hw', hoff'⟩ := h' wid w'' hw''
  obtain ⟨w, hw, hoff⟩ := h wid w' hw'
  exact ⟨w, hw, hoff.trans hoff'⟩

/-- One worker changes. -/
theorem Crew.staysOff_slot {c : Crew} (worker : Option WorkerId)
    (g : WorkerRegistration → WorkerRegistration)
    (hg : ∀ wid w, worker = some wid → c.workers[wid]? = some w → HumanGate.StaysOff w (g w)) :
    c.StaysOff (c.slot worker g) := by
  cases worker with
  | none => exact .refl c
  | some wid₀ =>
      intro wid w' hw'
      obtain ⟨w, hw, ⟨rfl, rfl⟩ | ⟨_, rfl⟩⟩ := Table.get_modify hw'
      · exact ⟨w, hw, hg wid₀ w rfl hw⟩
      · exact ⟨w', hw, .refl w'⟩

theorem claimRefusal_onDuty {w : WorkerRegistration} (h : claimRefusal cfg w now = none) :
    w.status ≠ .offline := by
  intro hoff
  unfold claimRefusal at h
  rw [hoff] at h
  split_ifs at h with _ hstatus
  exact hstatus (.inr (by decide))

theorem selectWorker_onDuty {s : Db} {stage : String} {rows : List WorkerId} {wid : WorkerId}
    {w : WorkerRegistration} (h : selectWorker s stage rows = some (wid, w)) :
    s.workers[wid]? = some w ∧ w.status ≠ .offline := by
  have hmem := selectWorker_mem h
  unfold eligibleWorkers at hmem
  rw [List.mem_filter, List.mem_filterMap] at hmem
  obtain ⟨⟨x, _, hx⟩, helig⟩ := hmem
  obtain ⟨y, hy, heq⟩ := Option.map_eq_some_iff.mp hx
  cases heq
  refine ⟨hy, fun hoff => ?_⟩
  simp [WorkerRegistration.eligibleFor, hoff] at helig

/-! ## Moves -/

/-- Every move but a dispatch, which does not say what it has checked, and a change to the
registration. -/
theorem Move.staysOff {k : MoveKind} {c c' : Crew} (h : Move cfg now k c c') (hassign : k ≠ .assign)
    (hstaff : k ≠ .staff) : c.StaysOff c' := by
  cases h with
  | assign => exact absurd rfl hassign
  | staff => exact absurd rfl hstaff
  | @claim _ aid _ wid w token _ _ hw hrefusal =>
      refine Crew.staysOff_slot (c := c.update now aid _) (some wid) _ fun wid' w' heq hw' => ?_
      cases heq
      have heq : some w = some w' := hw.symm.trans hw'
      cases heq
      exact staysOff_takeSlot (claimRefusal_onDuty hrefusal)
  | @close _ aid a _ success result _ _ _ =>
      exact Crew.staysOff_slot (c := c.update now aid _) a.workerId _
        fun _ w _ _ => staysOff_returnSlot w
  | @requeue _ aid a _ _ =>
      exact Crew.staysOff_slot a.workerId _ fun _ w _ _ => staysOff_releaseSlot w
  | @exhaust _ aid a _ _ =>
      exact Crew.staysOff_slot a.workerId _ fun _ w _ _ => staysOff_releaseSlot w
  | _ => exact .refl c

theorem Moves.staysOff {kinds : List MoveKind} {c c' : Crew} (h : Moves cfg now kinds c c')
    (hassign : .assign ∉ kinds) (hstaff : .staff ∉ kinds) : c.StaysOff c' := by
  refine h.invariant (I := fun c' => c.StaysOff c') (fun k hk c₁ c₂ hm hoff => ?_) (.refl c)
  refine hoff.trans (hm.staysOff ?_ ?_)
  · rintro rfl
    exact hassign hk
  · rintro rfl
    exact hstaff hk

/-! ## Operations -/

theorem dispatchStage_staysOff {s s' : Db} {args : DispatchArgs} {rows : List WorkerId}
    {outcome : DispatchOutcome} (h : dispatchStage cfg s now args rows = .ok (s', outcome)) :
    s.crew.StaysOff s'.crew := by
  cases dispatchStage_placed h with
  | nothing hcrew _ =>
      rw [hcrew]
      exact .refl _
  | placed stage worker _ _ _ hselect hcrew _ _ =>
      rw [hcrew]
      refine Crew.staysOff_slot (c := s.crew.push _) worker _ fun wid w heq hw => ?_
      obtain ⟨⟨wid', w'⟩, hsel, rfl⟩ := Option.map_eq_some_iff.mp (hselect wid heq)
      obtain ⟨hw', honduty⟩ := selectWorker_onDuty hsel
      have heq : some w' = some w := hw'.symm.trans hw
      cases heq
      exact staysOff_takeSlot honduty

theorem processLeasedJob_staysOff {s s' : Db} {jid : JobId} {rows : List WorkerId} {jitter : Nat}
    (h : processLeasedJob cfg s now jid rows jitter = .ok s') : s.crew.StaysOff s'.crew := by
  rcases processLeasedJob_work h with ⟨job, rid, outcome, _, _, hp⟩ | hcrew
  · unfold processWorkJob at hp
    split at hp
    · cases hp
    · rename_i s1 out hdispatch
      split at hp
      · cases hp
      · rename_i s2 hsettle
        cases hp
        have hmoves : Moves cfg now [.cancel] s1.crew s'.crew := settleJob_moves hsettle
        exact (dispatchStage_staysOff hdispatch).trans (hmoves.staysOff (by simp) (by simp))
  · rw [hcrew]
    exact .refl _

/-- **The orchestration brings nobody on duty.** -/
theorem exec_staysOff (cfg : Config) (s : Db) (o : Op) : s.crew.StaysOff (exec cfg s o).crew := by
  obtain ⟨now, action⟩ := o
  by_cases hassign : .assign ∈ action.kinds
  · -- a dispatch, by itself or for a job
    cases action with
    | dispatchStage args rows =>
        rcases commit_ofExcept (t := exec cfg s ⟨now, .dispatchStage args rows⟩) rfl
          with hsame | ⟨s', hs', hexec⟩
        · rw [hsame]
          exact .refl _
        · obtain ⟨r, hd, rfl⟩ := map_ok hs'
          rw [hexec, crew_flush]
          exact dispatchStage_staysOff hd
    | processLeasedJob jid rows jitter =>
        rcases commit_ofExcept (t := exec cfg s ⟨now, .processLeasedJob jid rows jitter⟩) rfl
          with hsame | ⟨s', hs', hexec⟩
        · rw [hsame]
          exact .refl _
        · rw [hexec, crew_flush]
          exact processLeasedJob_staysOff hs'
    | acknowledge aid secs worker => cases worker <;> simp [Action.kinds] at hassign
    | _ => simp [Action.kinds] at hassign
  · refine (exec_moves cfg s ⟨now, action⟩).staysOff hassign ?_
    cases action with
    | acknowledge aid secs worker => cases worker <;> simp [Action.kinds]
    | _ => simp [Action.kinds]

end HumanGate
