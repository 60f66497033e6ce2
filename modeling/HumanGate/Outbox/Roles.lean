import HumanGate.Model.Desk
import HumanGate.Model.Outbox

set_option autoImplicit false

/-! # Numbering in a user's session

The policies let admins, editors and reviewers insert outbox events, but show the events to
admins and editors only. The next number is computed from the events that the session sees. So a
session numbers an event rightly exactly if the aggregate has none yet or the newest is visible
to it (`emit_numbers_iff`); a reviewer starts again at one, which the unique index refuses
(`reviewer_decision_violates_uniqueness`).
-/

namespace HumanGate

open Lib Lib.Calendar

/-! ## The largest number -/

theorem le_foldr_max {l : List Nat} {n : Nat} (h : n ∈ l) : n ≤ l.foldr max 0 := by
  induction l with
  | nil => cases h
  | cons m l ih =>
      rw [List.foldr_cons]
      rcases List.mem_cons.mp h with rfl | hmem
      · exact Nat.le_max_left _ _
      · exact (ih hmem).trans (Nat.le_max_right _ _)

theorem foldr_max_mem {l : List Nat} (h : l.foldr max 0 ≠ 0) : l.foldr max 0 ∈ l := by
  induction l with
  | nil => exact absurd rfl h
  | cons m l ih =>
      rw [List.foldr_cons] at h ⊢
      by_cases hle : l.foldr max 0 ≤ m
      · rw [Nat.max_eq_left hle]
        exact List.mem_cons_self
      · have hlt : m ≤ l.foldr max 0 := by omega
        rw [Nat.max_eq_right hlt]
        exact List.mem_cons_of_mem _ (ih (by omega))

theorem mem_sequencesOf {rows : List OutboxRow} {agg : Aggregate} {n : Nat} :
    n ∈ sequencesOf rows agg ↔ ∃ r ∈ rows, r.aggregate = agg ∧ r.sequence = n := by
  unfold sequencesOf
  simp only [List.mem_map, List.mem_filter, beq_iff_eq, and_assoc]

theorem le_maxSequence {rows : List OutboxRow} {r : OutboxRow} (h : r ∈ rows) :
    r.sequence ≤ maxSequence rows r.aggregate :=
  le_foldr_max (mem_sequencesOf.mpr ⟨r, h, rfl, rfl⟩)

/-- The largest number belongs to an event, if it is not zero. -/
theorem exists_newest {rows : List OutboxRow} {agg : Aggregate} (h : maxSequence rows agg ≠ 0) :
    ∃ r ∈ rows, r.aggregate = agg ∧ r.sequence = maxSequence rows agg :=
  mem_sequencesOf.mp (foldr_max_mem h)

theorem maxSequence_filter_le (p : OutboxRow → Bool) (rows : List OutboxRow) (agg : Aggregate) :
    maxSequence (rows.filter p) agg ≤ maxSequence rows agg := by
  by_cases hzero : maxSequence (rows.filter p) agg = 0
  · omega
  · obtain ⟨r, hr, rfl, hseq⟩ := exists_newest hzero
    rw [← hseq]
    exact le_maxSequence (List.mem_of_mem_filter hr)

/-- The number after the largest one is free. -/
theorem not_sequenceTaken_max (rows : List OutboxRow) (agg : Aggregate) :
    sequenceTaken rows agg (maxSequence rows agg + 1) = false := by
  unfold sequenceTaken
  rw [List.contains_eq_mem, decide_eq_false_iff_not]
  intro hmem
  obtain ⟨r, hr, rfl, hseq⟩ := mem_sequencesOf.mp hmem
  have hle := le_maxSequence hr
  omega

/-! ## Sessions -/

/-- The aggregate has no numbered event, or the session sees the newest. -/
def NewestVisible (u : UserSession) (rows : List OutboxRow) (agg : Aggregate) : Prop :=
  maxSequence rows agg = 0 ∨
    ∃ r ∈ rows, r.aggregate = agg ∧ r.sequence = maxSequence rows agg ∧ u.sees r = true

/-- The query of a session finds the largest number exactly if it sees the newest event. -/
theorem maxSequence_visible_iff (u : UserSession) (rows : List OutboxRow) (agg : Aggregate) :
    maxSequence (rows.filter u.sees) agg = maxSequence rows agg ↔ NewestVisible u rows agg := by
  have hle := maxSequence_filter_le u.sees rows agg
  constructor
  · intro heq
    by_cases hzero : maxSequence rows agg = 0
    · exact .inl hzero
    · obtain ⟨r, hr, hagg, hseq⟩ := exists_newest (heq ▸ hzero)
      rw [List.mem_filter] at hr
      exact .inr ⟨r, hr.1, hagg, hseq.trans heq, hr.2⟩
  · rintro (hzero | ⟨r, hr, rfl, hseq, hsees⟩)
    · omega
    · have hge : r.sequence ≤ maxSequence (rows.filter u.sees) r.aggregate :=
        le_maxSequence (List.mem_filter.mpr ⟨hr, hsees⟩)
      omega

/-- The row that `emit` inserts is of the workspace and the aggregate it is called with. -/
theorem emitRow_fields {u : UserSession} {rows : List OutboxRow} {ws : WorkspaceId}
    {agg : Aggregate} {row : OutboxRow} (h : emitRow u rows ws agg = .ok row) :
    row = ⟨ws, agg, row.sequence⟩ := by
  unfold emitRow at h
  simp only at h
  split at h
  · cases h
  · split at h <;> cases h
    rfl

/-- In the workspace of an aggregate's events the role decides: a reviewer can only number the
first event. -/
theorem newestVisible_iff_role {u : UserSession} {ws : WorkspaceId} {role : WorkspaceRole}
    (hrole : ∀ roles, u.hasWorkspaceRole ws roles = roles.contains role) {rows : List OutboxRow}
    {agg : Aggregate} (hrows : ∀ r ∈ rows, r.aggregate = agg → r.workspaceId = ws) :
    NewestVisible u rows agg ↔ maxSequence rows agg = 0 ∨ role ≠ .reviewer := by
  have hsees : ∀ r ∈ rows, r.aggregate = agg → (u.sees r = true ↔ role ≠ .reviewer) := by
    intro r hr hagg
    unfold UserSession.sees
    rw [hrows r hr hagg, hrole]
    cases role <;> decide
  refine or_congr_right' fun hzero => ⟨?_, fun hne => ?_⟩
  · rintro ⟨r, hr, hagg, _, hvisible⟩
    exact (hsees r hr hagg).mp hvisible
  · obtain ⟨r, hr, hagg, hseq⟩ := exists_newest hzero
    exact ⟨r, hr, hagg, hseq, (hsees r hr hagg).mpr hne⟩

/-- The session may insert, and `emit` numbers the event after the newest. -/
theorem emitRow_iff (u : UserSession) {ws : WorkspaceId} (hinsert : u.mayInsert ws = true)
    (rows : List OutboxRow) (agg : Aggregate) :
    emitRow u rows ws agg = .ok ⟨ws, agg, maxSequence rows agg + 1⟩ ↔ NewestVisible u rows agg := by
  rw [← maxSequence_visible_iff]
  unfold emitRow nextSequence
  simp only [hinsert, Bool.true_eq_false, if_false]
  constructor
  · intro h
    split at h
    · cases h
    · have hseq := congrArg OutboxRow.sequence (Except.ok.inj h)
      simpa using hseq
  · intro heq
    rw [heq, not_sequenceTaken_max]
    rfl

/-- A session that sees everything emits as the orchestration does. -/
theorem emitIn_eq_emit (u : UserSession) (s : Db) (now : Instant) (eventType : EventType)
    {ws : WorkspaceId} (hinsert : u.mayInsert ws = true)
    (hsees : ∀ r ∈ s.outboxRows, u.sees r = true) (rid : RunId) (gid : Option GateId) :
    s.emitIn u now eventType ws rid gid = .ok (s.emit now eventType ws rid gid) := by
  have hvisible : NewestVisible u s.outboxRows (runAggregate rid) := by
    rw [← maxSequence_visible_iff, List.filter_eq_self.mpr hsees]
  have hmax : maxSequence s.outboxRows (runAggregate rid) + 1 = s.nextSequence rid := by
    have hpred : (fun r : OutboxRow => r.aggregate == runAggregate rid) ∘ OutboxEvent.row
        = fun e => decide (e.aggregateId = rid) := by
      funext e
      show decide (runAggregate e.aggregateId = runAggregate rid) = _
      simp [runAggregate]
    unfold maxSequence sequencesOf Db.outboxRows Db.nextSequence
    rw [List.filter_map, hpred, List.map_map]
    rfl
  unfold Db.emitIn Db.emit
  rw [(emitRow_iff u hinsert s.outboxRows (runAggregate rid)).mpr hvisible, hmax]

/-! ## Decisions -/

/-- The event that `emit` inserts, and its number. -/
theorem emitIn_iff (u : UserSession) (s : Db) (now : Instant) (eventType : EventType)
    (ws : WorkspaceId) (rid : RunId) (gid : Option GateId) (sequence : Nat) :
    (∃ s' e, s.emitIn u now eventType ws rid gid = .ok s' ∧
      s'.outbox[s.outbox.length]? = some e ∧ e.sequence = sequence) ↔
    emitRow u s.outboxRows ws (runAggregate rid) = .ok ⟨ws, runAggregate rid, sequence⟩ := by
  unfold Db.emitIn
  cases hemit : emitRow u s.outboxRows ws (runAggregate rid) with
  | error e => simp
  | ok row =>
      have hrow := emitRow_fields hemit
      constructor
      · rintro ⟨s', e, hok, he, rfl⟩
        cases hok
        have hnew := he.symm.trans (Table.get_push_new s.outbox _)
        cases hnew
        rw [hrow]
      · intro heq
        cases heq
        exact ⟨_, _, rfl, Table.get_push_new .., rfl⟩

/-- What `submit_review_decision` does for an awaiting gate is decided by its `emit`. -/
theorem submitReviewDecisionIn_iff (u : UserSession) {s : Db} (now : Instant) {gid : GateId}
    {gate : ReviewGate} {run : PipelineRun} (hgate : s.gates[gid]? = some gate)
    (hawaiting : gate.status = .awaiting) (hrun : s.runs[gate.pipelineRunId]? = some run)
    (reviewer : UserId) (approved : Bool) (notes : Option String) (sequence : Nat) :
    (∃ s' eid e, submitReviewDecisionIn u s now gid reviewer approved notes = .ok (s', eid) ∧
      s'.outbox[eid]? = some e ∧ e.sequence = sequence) ↔
    emitRow u s.outboxRows gate.workspaceId (runAggregate gate.pipelineRunId)
      = .ok ⟨gate.workspaceId, runAggregate gate.pipelineRunId, sequence⟩ := by
  -- the decision and the gate do not touch the outbox
  have hlast : ∀ (s1 : Db) (eventType : EventType) (r : Except SessionError (Db × EventId)),
      s1.outbox = s.outbox →
      (∀ e, s1.emitIn u now eventType gate.workspaceId gate.pipelineRunId (some gid) = .error e →
        r = .error e) →
      (∀ s2, s1.emitIn u now eventType gate.workspaceId gate.pipelineRunId (some gid) = .ok s2 →
        r = .ok (s2, s.outbox.length)) →
      ((∃ s' eid e, r = .ok (s', eid) ∧ s'.outbox[eid]? = some e ∧ e.sequence = sequence) ↔
      emitRow u s.outboxRows gate.workspaceId (runAggregate gate.pipelineRunId)
        = .ok ⟨gate.workspaceId, runAggregate gate.pipelineRunId, sequence⟩) := by
    intro s1 eventType r hs1 herror hok
    have hrows : s1.outboxRows = s.outboxRows := congrArg (List.map OutboxEvent.row) hs1
    rw [← hrows, ← emitIn_iff u s1 now eventType]
    cases hemit : s1.emitIn u now eventType gate.workspaceId gate.pipelineRunId (some gid) with
    | error e => simp [herror e hemit]
    | ok s2 =>
        rw [hok s2 hemit, ← hs1]
        constructor
        · rintro ⟨s', eid, e, hok, he, hseq⟩
          cases hok
          exact ⟨_, e, rfl, he, hseq⟩
        · rintro ⟨s', e, hok, he, hseq⟩
          cases hok
          exact ⟨_, _, e, rfl, he, hseq⟩
  unfold submitReviewDecisionIn
  simp only [hgate, hawaiting, ne_eq, not_true_eq_false, if_false, hrun]
  let decision : ReviewDecision :=
    { workspaceId := gate.workspaceId
      contentItemId := run.contentItemId
      reviewerId := reviewer
      decision := if approved then .approved else .rejected
      notes := notes }
  exact hlast { s.updateGate gid (ReviewGate.decideBy reviewer) with
    decisions := s.decisions ++ [decision] } _ _ rfl (fun e he => by rw [he])
      fun s2 h2 => by rw [h2]

/-- **When numbering works for a session that may insert**: for `emit` on any aggregate, and for
a decision on any awaiting gate. -/
theorem emit_numbers_iff (u : UserSession) (ws : WorkspaceId) (hinsert : u.mayInsert ws = true) :
    (∀ rows agg, (∃ row, emitRow u rows ws agg = .ok row ∧
        row.sequence = maxSequence rows agg + 1) ↔ NewestVisible u rows agg) ∧
    (∀ (s : Db) (now : Instant) (gid : GateId) (gate : ReviewGate) (run : PipelineRun)
        (reviewer : UserId) (approved : Bool) (notes : Option String),
      s.gates[gid]? = some gate → gate.status = .awaiting → gate.workspaceId = ws →
      s.runs[gate.pipelineRunId]? = some run →
        ((∃ s' eid e, submitReviewDecisionIn u s now gid reviewer approved notes = .ok (s', eid) ∧
          s'.outbox[eid]? = some e ∧
          e.sequence = maxSequence s.outboxRows (runAggregate gate.pipelineRunId) + 1) ↔
        NewestVisible u s.outboxRows (runAggregate gate.pipelineRunId))) := by
  refine ⟨fun rows agg => ?_, ?_⟩
  · -- a row that is let in with the right number is the row that was to be inserted
    rw [← emitRow_iff u hinsert]
    constructor
    · rintro ⟨row, hemit, hseq⟩
      rw [← hseq, hemit]
      exact congrArg Except.ok (emitRow_fields hemit)
    · intro hemit
      exact ⟨_, hemit, rfl⟩
  · rintro s now gid gate run reviewer approved notes hgate hawaiting rfl hrun
    rw [submitReviewDecisionIn_iff u now hgate hawaiting hrun, emitRow_iff u hinsert]

/-! ## The reviewer of a drafted script -/

/-- User 7 with this role in workspace 0. -/
def memberSession (role : WorkspaceRole) : UserSession := ⟨7, [⟨0, 7, role⟩]⟩

/-- A script that awaits its review. -/
def draftedDb : Db := runOps deskConfig deskDb draftedOps

instance (u : UserSession) (rows : List OutboxRow) (agg : Aggregate) :
    Decidable (NewestVisible u rows agg) :=
  inferInstanceAs (Decidable (_ ∨ ∃ r ∈ rows, _))

/-- An editor numbers the next event of the run. -/
theorem editor_numbers_next :
    (memberSession .editor).mayInsert 0 = true ∧
    ∃ row, emitRow (memberSession .editor) draftedDb.outboxRows 0 (runAggregate 0) = .ok row ∧
      row.sequence = maxSequence draftedDb.outboxRows (runAggregate 0) + 1 := by
  refine ⟨by decide, ((emit_numbers_iff (memberSession .editor) 0 (by decide)).1 _ _).mpr ?_⟩
  decide +kernel

/-- A reviewer may insert, but cannot record the decision on the script. -/
theorem reviewer_decision_violates_uniqueness :
    (orchestration deskConfig fun _ _ => True).Reachable draftedDb ∧
    (draftedDb.gates[0]?).map (fun g => (g.status, g.workspaceId, g.pipelineRunId))
      = some (.awaiting, 0, 0) ∧
    (memberSession .reviewer).mayInsert 0 = true ∧
    nextSequence (draftedDb.outboxRows.filter (memberSession .reviewer).sees) (runAggregate 0) = 1 ∧
    maxSequence draftedDb.outboxRows (runAggregate 0) = 5 ∧
    emitRow (memberSession .reviewer) draftedDb.outboxRows 0 (runAggregate 0)
      = .error .uniqueViolation ∧
    (submitReviewDecisionIn (memberSession .reviewer) draftedDb 4 0 7 true none).map (fun _ => ())
      = .error .uniqueViolation := by
  refine ⟨runOps_reachable deskConfig deskDb_fresh draftedOps, ?_⟩
  decide +kernel

end HumanGate
