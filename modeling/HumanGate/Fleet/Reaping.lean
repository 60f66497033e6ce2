import HumanGate.Fleet.Slots

set_option autoImplicit false

/-! # Reaping a worker

`reap_worker_assignments` works in batches until the worker holds nothing that the scan returns.
`reapWorkerBatches_reaped` says what becomes of every row: the rows that the worker holds and the
scan returns leave flight, all others stay as they are, and so does every other worker. A batch
of size zero is empty, and then nothing is reaped at all.
-/

namespace HumanGate

open Lib Lib.Calendar Relation

variable {cfg : Config} {now : Instant}

/-! ## One recovery -/

theorem heldBy_iff {wid : WorkerId} {a : StageAssignment} :
    a.heldBy wid = true ↔ a.workerId = some wid ∧ a.status.inFlight = true := by
  unfold StageAssignment.heldBy
  rw [Bool.and_eq_true, beq_iff_eq]

/-- A recovered row is out of flight. -/
theorem not_inFlight_of_recovery {f : StageAssignment → StageAssignment}
    (hf : f ∈ [StageAssignment.requeue, StageAssignment.exhaust now]) (a : StageAssignment) :
    (f a).status.inFlight = false := by
  simp only [List.mem_cons, List.not_mem_nil, or_false] at hf
  rcases hf with rfl | rfl <;> rfl

theorem assignments_of_slot_update {s s' : Db} {aid : AssignmentId} {worker : Option WorkerId}
    {g : WorkerRegistration → WorkerRegistration} {f : StageAssignment → StageAssignment}
    (h : s'.crew = (s.crew.slot worker g).update now aid f) :
    s'.assignments = s.assignments.modify aid fun a => { f a with updatedAt := now } := by
  show s'.crew.assignments = _
  rw [h]
  show (s.crew.slot worker g).assignments.modify aid _ = _
  rw [Crew.slot_assignments]
  rfl

/-- Recoveries insert no row. -/
theorem Moves.length_eq {c c' : Crew} (h : Moves cfg now [.requeue, .exhaust] c c') :
    c'.assignments.length = c.assignments.length := by
  refine h.invariant (I := fun c' => c'.assignments.length = c.assignments.length) ?_ rfl
  intro k hk c₁ c₂ hm hlen
  cases hm with
  | requeue _ _ => simpa [Crew.update] using hlen
  | exhaust _ _ => simpa [Crew.update] using hlen
  | _ => simp at hk

/-- The recovered row leaves flight; the other rows stay. -/
theorem recoverAssignment_row {s s' : Db} {aid : AssignmentId} {reason : RecoveryReason}
    {detail : Option String} (h : recoverAssignment cfg s now aid reason detail = .ok s')
    {aid' : AssignmentId} {a : StageAssignment} (ha : s.assignments[aid']? = some a) :
    ∃ a', s'.assignments[aid']? = some a' ∧
      (a' = a ∨ (aid' = aid ∧ a'.status.inFlight = false)) ∧
      (aid' = aid → a'.status.inFlight = false) := by
  obtain ⟨b, hb, ⟨hidle, hcrew⟩ | ⟨_, f, hf, hcrew⟩⟩ := recoverAssignment_crew h
  · have hsame : s'.assignments = s.assignments := congrArg Crew.assignments hcrew
    refine ⟨a, by rw [hsame]; exact ha, .inl rfl, ?_⟩
    rintro rfl
    rw [ha] at hb
    cases hb
    exact hidle
  · rw [assignments_of_slot_update hcrew]
    by_cases heq : aid' = aid
    · subst heq
      have hout : (f a).status.inFlight = false := not_inFlight_of_recovery hf a
      exact ⟨_, Table.get_modify_self ha, .inr ⟨rfl, hout⟩, fun _ => hout⟩
    · exact ⟨a, (Table.get_modify_ne (Ne.symm heq)).trans ha, .inl rfl, fun h => absurd h heq⟩

/-- Only the worker of the recovered row changes. -/
theorem recoverAssignment_worker {s s' : Db} {aid : AssignmentId} {reason : RecoveryReason}
    {detail : Option String} (h : recoverAssignment cfg s now aid reason detail = .ok s')
    {wid : WorkerId} (hwid : ∀ a, s.assignments[aid]? = some a → a.heldBy wid = false) :
    s'.workers[wid]? = s.workers[wid]? := by
  obtain ⟨b, hb, ⟨_, hcrew⟩ | ⟨hflight, f, _, hcrew⟩⟩ := recoverAssignment_crew h
  · have hsame : s'.workers = s.workers := congrArg Crew.workers hcrew
    rw [hsame]
  · have hset : s'.workers = (s.crew.slot b.workerId WorkerRegistration.releaseSlot).workers :=
      congrArg Crew.workers hcrew
    have hother : b.workerId ≠ some wid := by
      intro hw
      have hnot := hwid b hb
      rw [heldBy_iff.mpr ⟨hw, hflight⟩] at hnot
      cases hnot
    rw [hset]
    cases hbw : b.workerId with
    | none => rfl
    | some wid' =>
        refine Table.get_modify_ne fun heq => hother ?_
        rw [hbw, heq]

/-! ## A batch -/

/-- The rows of a batch leave flight; the other rows stay. -/
theorem recoverEach_row {reason : RecoveryReason} {detail : Option String}
    (ids : List AssignmentId) : ∀ {s s' : Db},
    recoverEach cfg s now reason detail ids = .ok s' → ∀ {aid : AssignmentId}
      {a : StageAssignment}, s.assignments[aid]? = some a →
      ∃ a', s'.assignments[aid]? = some a' ∧
        (a' = a ∨ (aid ∈ ids ∧ a'.status.inFlight = false)) ∧
        (aid ∈ ids → a'.status.inFlight = false) := by
  induction ids with
  | nil =>
      intro s s' h aid a ha
      cases h
      exact ⟨a, ha, .inl rfl, fun hmem => by cases hmem⟩
  | cons aid₀ rest ih =>
      intro s s' h aid a ha
      unfold recoverEach at h
      split at h
      · cases h
      · rename_i s1 hfirst
        obtain ⟨a₁, ha₁, hcase₁, hout₁⟩ := recoverAssignment_row hfirst ha
        obtain ⟨a', ha', hcase, hout⟩ := ih h ha₁
        refine ⟨a', ha', ?_, fun hmem => ?_⟩
        · rcases hcase with rfl | ⟨hmem, hflight⟩
          · rcases hcase₁ with rfl | ⟨rfl, hflight⟩
            · exact .inl rfl
            · exact .inr ⟨List.mem_cons_self, hflight⟩
          · exact .inr ⟨List.mem_cons_of_mem _ hmem, hflight⟩
        · rcases List.mem_cons.mp hmem with rfl | hmem
          · rcases hcase with rfl | ⟨_, hflight⟩
            · exact hout₁ rfl
            · exact hflight
          · exact hout hmem

/-- A worker that holds none of the rows of a batch stays as it is. -/
theorem recoverEach_worker {reason : RecoveryReason} {detail : Option String} {wid : WorkerId}
    (ids : List AssignmentId) : ∀ {s s' : Db},
    recoverEach cfg s now reason detail ids = .ok s' →
      (∀ aid ∈ ids, ∀ a, s.assignments[aid]? = some a → a.heldBy wid = false) →
      s'.workers[wid]? = s.workers[wid]? := by
  induction ids with
  | nil =>
      intro s s' h _
      cases h
      rfl
  | cons aid₀ rest ih =>
      intro s s' h hnone
      unfold recoverEach at h
      split at h
      · cases h
      · rename_i s1 hfirst
        rw [ih h ?_, recoverAssignment_worker hfirst (hnone aid₀ List.mem_cons_self)]
        intro aid hmem a₁ ha₁
        -- a row of the second state is one of the first, or out of flight
        have hlt : aid < s.assignments.length := by
          exact (recoverAssignment_moves hfirst).length_eq ▸ (List.getElem?_eq_some_iff.mp ha₁).1
        obtain ⟨a', ha', hcase, _⟩ := recoverAssignment_row hfirst (List.getElem?_eq_getElem hlt)
        rw [ha₁] at ha'
        cases ha'
        rcases hcase with rfl | ⟨_, hflight⟩
        · exact hnone aid (List.mem_cons_of_mem _ hmem) _ (List.getElem?_eq_getElem hlt)
        · unfold StageAssignment.heldBy
          rw [hflight, Bool.and_false]

/-! ## All batches -/

/-- The rows of the scan that the worker holds. -/
def heldRows (s : Db) (wid : WorkerId) (rows : List AssignmentId) : List AssignmentId :=
  rows.filter fun aid => (s.assignments[aid]?).any (StageAssignment.heldBy wid)

theorem holdings_eq (s : Db) (wid : WorkerId) (limit : Nat) (rows : List AssignmentId) :
    holdings s wid limit rows = (heldRows s wid rows).take limit := rfl

theorem mem_heldRows {s : Db} {wid : WorkerId} {rows : List AssignmentId} {aid : AssignmentId} :
    aid ∈ heldRows s wid rows ↔
      aid ∈ rows ∧ ∃ a, s.assignments[aid]? = some a ∧ a.heldBy wid = true := by
  unfold heldRows
  rw [List.mem_filter, Option.any_eq_true]

/-- A batch takes its rows out of the worker's hands, and no row comes into them. -/
theorem heldRows_batch {s s' : Db} {wid : WorkerId} {reason : RecoveryReason}
    {detail : Option String} {ids rows : List AssignmentId}
    (h : recoverEach cfg s now reason detail ids = .ok s') {aid : AssignmentId}
    (hmem : aid ∈ heldRows s' wid rows) :
    aid ∈ heldRows s wid rows ∧ aid ∉ ids := by
  obtain ⟨hrow, a', ha', hheld⟩ := mem_heldRows.mp hmem
  have hlt : aid < s.assignments.length := by
    exact (recoverEach_moves ids h).length_eq ▸ (List.getElem?_eq_some_iff.mp ha').1
  obtain ⟨a'', ha'', hcase, hout⟩ := recoverEach_row ids h (List.getElem?_eq_getElem hlt)
  rw [ha'] at ha''
  cases ha''
  have hflight := (heldBy_iff.mp hheld).2
  constructor
  · rcases hcase with heq | ⟨_, hnot⟩
    · exact mem_heldRows.mpr ⟨hrow, _, List.getElem?_eq_getElem hlt, heq ▸ hheld⟩
    · rw [hflight] at hnot
      cases hnot
  · intro hids
    rw [hout hids] at hflight
    cases hflight

/-- **What becomes of a row**: it stays, or the worker held it and it left flight. -/
theorem reapWorkerBatches_row {wid : WorkerId} {reason : RecoveryReason}
    {detail : Option String} {limit : Nat} {rows : List AssignmentId} (fuel : Nat) :
    ∀ {s s' : Db}, reapWorkerBatches cfg now wid reason detail limit rows fuel s = .ok s' →
      ∀ {aid : AssignmentId} {a : StageAssignment}, s.assignments[aid]? = some a →
        ∃ a', s'.assignments[aid]? = some a' ∧
          (a' = a ∨ (a.heldBy wid = true ∧ aid ∈ rows ∧ 0 < limit ∧
            a'.status.inFlight = false)) := by
  induction fuel with
  | zero =>
      intro s s' h aid a ha
      cases h
      exact ⟨a, ha, .inl rfl⟩
  | succ fuel ih =>
      intro s s' h aid a ha
      unfold reapWorkerBatches at h
      split at h
      · cases h
        exact ⟨a, ha, .inl rfl⟩
      · split at h
        · cases h
        · rename_i s1 hbatch
          -- what the first batch makes of the row
          have hfirst : ∃ a₁, s1.assignments[aid]? = some a₁ ∧ (a₁ = a ∨ (a.heldBy wid = true ∧
              aid ∈ rows ∧ 0 < limit ∧ a₁.status.inFlight = false)) := by
            obtain ⟨a₁, ha₁, hcase, _⟩ := recoverEach_row _ hbatch ha
            refine ⟨a₁, ha₁, ?_⟩
            rcases hcase with heq | ⟨hmem, hout⟩
            · exact .inl heq
            right
            rw [holdings_eq] at hmem
            have hlimit : 0 < limit := by
              by_contra hzero
              rw [Nat.eq_zero_of_not_pos hzero, List.take_zero] at hmem
              cases hmem
            obtain ⟨hrow, b, hb, hheld⟩ := mem_heldRows.mp (List.mem_of_mem_take hmem)
            rw [ha] at hb
            cases hb
            exact ⟨hheld, hrow, hlimit, hout⟩
          obtain ⟨a₁, ha₁, hcase₁⟩ := hfirst
          split at h
          · cases h
            exact ⟨a₁, ha₁, hcase₁⟩
          · obtain ⟨a', ha', hcase⟩ := ih h ha₁
            refine ⟨a', ha', ?_⟩
            -- a row that is out of flight stays out of it
            rcases hcase₁ with rfl | ⟨hheld, hrow, hlimit, hout⟩
            · exact hcase
            · refine .inr ⟨hheld, hrow, hlimit, ?_⟩
              rcases hcase with rfl | ⟨_, _, _, hout'⟩
              · exact hout
              · exact hout'

/-- The other workers stay as they are. -/
theorem reapWorkerBatches_worker {wid wid' : WorkerId} (hne : wid' ≠ wid)
    {reason : RecoveryReason} {detail : Option String} {limit : Nat} {rows : List AssignmentId}
    (fuel : Nat) :
    ∀ {s s' : Db}, reapWorkerBatches cfg now wid reason detail limit rows fuel s = .ok s' →
      s'.workers[wid']? = s.workers[wid']? := by
  induction fuel with
  | zero =>
      intro s s' h
      cases h
      rfl
  | succ fuel ih =>
      intro s s' h
      unfold reapWorkerBatches at h
      split at h
      · cases h
        rfl
      · split at h
        · cases h
        · rename_i s1 hbatch
          have hfirst : s1.workers[wid']? = s.workers[wid']? := by
            refine recoverEach_worker _ hbatch fun aid hmem a ha => ?_
            rw [holdings_eq] at hmem
            obtain ⟨_, b, hb, hheld⟩ := mem_heldRows.mp (List.mem_of_mem_take hmem)
            rw [ha] at hb
            cases hb
            by_contra hheld'
            have h₁ := (heldBy_iff.mp hheld).1
            have h₂ := (heldBy_iff.mp (Bool.not_eq_false _ ▸ hheld')).1
            rw [h₁] at h₂
            exact hne (Option.some.inj h₂).symm
          split at h
          · cases h
            exact hfirst
          · exact (ih h).trans hfirst

/-- A batch that is not empty leaves the worker fewer rows. -/
theorem heldRows_length_lt {s s' : Db} {wid : WorkerId} {reason : RecoveryReason}
    {detail : Option String} {ids rows : List AssignmentId}
    (h : recoverEach cfg s now reason detail ids = .ok s') {aid : AssignmentId}
    (hids : aid ∈ ids) (hmem : aid ∈ heldRows s wid rows) :
    (heldRows s' wid rows).length < (heldRows s wid rows).length := by
  have hsub : heldRows s' wid rows = (heldRows s wid rows).filter
      fun aid => (s'.assignments[aid]?).any (StageAssignment.heldBy wid) := by
    unfold heldRows
    rw [List.filter_filter]
    refine List.filter_congr fun aid' hrow => ?_
    rw [Bool.eq_iff_iff, Bool.and_eq_true]
    refine ⟨fun hheld => ⟨hheld, ?_⟩, fun hboth => hboth.1⟩
    have hmem' : aid' ∈ heldRows s' wid rows := List.mem_filter.mpr ⟨hrow, hheld⟩
    exact (List.mem_filter.mp (heldRows_batch h hmem').1).2
  rw [hsub, List.length_filter_lt_length_iff_exists]
  refine ⟨aid, hmem, fun hheld => ?_⟩
  have hmem' : aid ∈ heldRows s' wid rows :=
    List.mem_filter.mpr ⟨(mem_heldRows.mp hmem).1, hheld⟩
  exact (heldRows_batch h hmem').2 hids

/-- **Nothing is left**: with room in a batch and more batches than rows, the worker holds none of
the scanned rows in the end. -/
theorem reapWorkerBatches_complete {wid : WorkerId} {reason : RecoveryReason}
    {detail : Option String} {limit : Nat} (hlimit : 0 < limit) {rows : List AssignmentId}
    (fuel : Nat) :
    ∀ {s s' : Db}, (heldRows s wid rows).length < fuel →
      reapWorkerBatches cfg now wid reason detail limit rows fuel s = .ok s' →
      heldRows s' wid rows = [] := by
  induction fuel with
  | zero => intro s s' hfuel; omega
  | succ fuel ih =>
      intro s s' hfuel h
      unfold reapWorkerBatches at h
      rw [holdings_eq] at h
      split at h
      · rename_i hempty
        cases h
        rw [List.take_eq_nil_iff] at hempty
        exact hempty.resolve_left (Nat.ne_of_gt hlimit)
      · split at h
        · cases h
        · rename_i hne _ s1 hbatch
          split at h
          · rename_i hshort
            cases h
            -- the batch was not full, so it had every row
            have hall : (heldRows s wid rows).take limit = heldRows s wid rows := by
              rw [List.length_take] at hshort
              exact List.take_of_length_le (by omega)
            rw [hall] at hbatch
            refine List.eq_nil_iff_forall_not_mem.mpr fun aid hmem => ?_
            obtain ⟨hold, hnot⟩ := heldRows_batch hbatch hmem
            exact hnot hold
          · obtain ⟨aid, hids⟩ := List.exists_mem_of_ne_nil _ hne
            have hless := heldRows_length_lt hbatch hids (List.mem_of_mem_take hids)
            exact ih (by omega) h

/-! ## The worker afterwards -/

/-- The row is one that reaping the worker takes: the worker holds it, the scan returns it, and a
batch has room for it. -/
def Reaps (cfg : Config) (wid : WorkerId) (rows : List AssignmentId) (aid : AssignmentId)
    (a : StageAssignment) : Prop :=
  a.heldBy wid = true ∧ aid ∈ rows ∧ 0 < cfg.settings.assignmentReaperBatchSize

/-- **What reaping a worker does**: exactly the rows it reaps leave flight, and no other worker
changes. -/
theorem reapHoldings_reaped {f f' : Fleet} {wid : WorkerId} {reason : RecoveryReason}
    {rows : List AssignmentId} (h : reapHoldings cfg f now wid reason rows = .ok f') :
    (∀ aid a, f.row aid = some a → ∃ a', f'.row aid = some a' ∧
      ((Reaps cfg wid rows aid a ∧ a'.status.inFlight = false) ∨
        (¬ Reaps cfg wid rows aid a ∧ a' = a))) ∧
    f'.db.assignments.length = f.db.assignments.length ∧
    ∀ wid' ≠ wid, f'.db.workers[wid']? = f.db.workers[wid']? := by
  unfold reapHoldings at h
  split at h
  · cases h
  · rename_i s hs
    cases h
    refine ⟨fun aid a ha => ?_, (reapWorkerBatches_moves _ hs).length_eq,
      fun wid' hne => reapWorkerBatches_worker hne _ hs⟩
    obtain ⟨a', ha', hcase⟩ := reapWorkerBatches_row _ hs ha
    refine ⟨a', ha', ?_⟩
    by_cases hreap : Reaps cfg wid rows aid a
    · left
      refine ⟨hreap, ?_⟩
      obtain ⟨_, hrow, hlimit⟩ := hreap
      have hfuel : (heldRows f.db wid rows).length < rows.length + 1 :=
        Nat.lt_succ_of_le (List.length_filter_le ..)
      have hnone := reapWorkerBatches_complete hlimit _ hfuel hs
      rcases hcase with rfl | ⟨_, _, _, hout⟩
      · -- the row would still be held
        have hmem : aid ∈ heldRows s wid rows := mem_heldRows.mpr ⟨hrow, a', ha', ‹_›⟩
        rw [hnone] at hmem
        cases hmem
      · exact hout
    · right
      refine ⟨hreap, hcase.resolve_right fun h => hreap ⟨h.1, h.2.1, h.2.2.1⟩⟩

end HumanGate
