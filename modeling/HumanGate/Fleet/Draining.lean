import HumanGate.Fleet.Reaping
import HumanGate.Model.Desk
import HumanGate.Model.Reaper

set_option autoImplicit false

/-! # Draining a worker

The loop that reaps a worker ends, in whatever order its queries return the rows: every full batch
leaves the worker fewer of them. It recovers all of them exactly if no requeued row meets its next
key on another row of its workspace (`worker_drained_iff`); otherwise some order makes it raise, and
nothing is recovered.
-/

namespace HumanGate

open Lib Lib.Calendar

variable {cfg : Config} {now : Instant} {s s₀ s' : Db} {reason : RecoveryReason}
    {detail : Option String}

/-! ## What a recovery leaves alone -/

/-- What recoveries read and write, workers, money and messages apart. -/
structure RecoveryView where
  assignments : List StageAssignment
  definitions : List (Option DefinitionId)
  recoveryAudit : List StageRecoveryAudit

def Db.recoveryView (s : Db) : RecoveryView :=
  ⟨s.assignments, s.runs.map PipelineRun.definitionId, s.recoveryAudit⟩

theorem view_releaseEach (s : Db) (now : Instant) (rid : RunId) (ws : WorkspaceId)
    (ids : List ReservationId) : (releaseEach s now rid ws ids).recoveryView = s.recoveryView := by
  induction ids generalizing s with
  | nil => rfl
  | cons resId rest ih =>
      have hone : (releaseSpend s now rid ws resId).recoveryView = s.recoveryView := by
        unfold releaseSpend
        split
        · rfl
        · split <;> rfl
      exact (ih _).trans hone

theorem view_failRunUnlessTerminal (s : Db) (now : Instant) (rid : RunId) :
    (failRunUnlessTerminal s now rid).recoveryView = s.recoveryView := by
  unfold failRunUnlessTerminal
  split
  · rfl
  · split
    · rfl
    · -- the run fails, under the same definition
      have hsame : (s.runs.modify rid (PipelineRun.fail now)).map PipelineRun.definitionId
          = s.runs.map PipelineRun.definitionId :=
        Table.map_modify_same (f := PipelineRun.fail now) (fun _ => rfl) _ _
      unfold failRun releaseAllReservations
      rw [view_releaseEach]
      unfold Db.recoveryView
      rw [← hsame]
      rfl

theorem view_freeSlot (s : Db) (worker : Option WorkerId)
    (f : WorkerRegistration → WorkerRegistration) :
    (freeSlot s worker f).recoveryView = s.recoveryView := by
  cases worker <;> rfl

theorem resolveMaxAttempts_view {t : Db}
    (h : t.recoveryView.definitions = s.recoveryView.definitions) (a : StageAssignment) :
    resolveMaxAttempts cfg t a = resolveMaxAttempts cfg s a := by
  have hdefinition : ∀ u : Db, ((u.runs[a.pipelineRunId]?).bind fun run =>
      run.definitionId.bind cfg.definition) =
        (u.recoveryView.definitions[a.pipelineRunId]?).bind fun i => i.bind cfg.definition := by
    intro u
    show _ = ((u.runs.map PipelineRun.definitionId)[a.pipelineRunId]?).bind _
    rw [List.getElem?_map]
    cases u.runs[a.pipelineRunId]? <;> rfl
  unfold resolveMaxAttempts
  rw [hdefinition, hdefinition, h]

/-! ## One recovery -/

/-- The assignment may be tried once more. -/
def HasAttempts (cfg : Config) (s : Db) (a : StageAssignment) : Prop :=
  a.attemptNumber + 1 ≤ resolveMaxAttempts cfg s a

instance (cfg : Config) (s : Db) (a : StageAssignment) : Decidable (HasAttempts cfg s a) :=
  inferInstanceAs (Decidable (_ ≤ _))

/-- What recovering makes of an assignment. -/
def recovered (cfg : Config) (s : Db) (now : Instant) (a : StageAssignment) : StageAssignment :=
  { (if HasAttempts cfg s a then a.requeue else a.exhaust now) with updatedAt := now }

/-- The next key is another row's. -/
def Blocked (cfg : Config) (s : Db) (aid : AssignmentId) (a : StageAssignment) : Prop :=
  HasAttempts cfg s a ∧ keyTaken s aid a.workspaceId a.nextKey = true

theorem recovered_inFlight (s : Db) (now : Instant) (a : StageAssignment) :
    (recovered cfg s now a).status.inFlight = false := by
  unfold recovered
  split <;> rfl

theorem recovered_workspace (s : Db) (now : Instant) (a : StageAssignment) :
    (recovered cfg s now a).workspaceId = a.workspaceId := by
  unfold recovered
  split <;> rfl

theorem recovered_key (s : Db) (now : Instant) (a : StageAssignment) :
    (recovered cfg s now a).idempotencyKey =
      if HasAttempts cfg s a then a.nextKey else a.idempotencyKey := by
  unfold recovered
  split <;> rfl

theorem keyTaken_iff {aid : AssignmentId} {ws : WorkspaceId} {key : IdempotencyKey} :
    keyTaken s aid ws key = true ↔ ∃ j b, s.assignments[j]? = some b ∧ j ≠ aid ∧
      b.workspaceId = ws ∧ b.idempotencyKey = key := by
  unfold keyTaken
  rw [List.any_eq_true]
  constructor
  · rintro ⟨j, hj, hne⟩
    obtain ⟨b, hb, hboth⟩ := Table.mem_select.mp hj
    rw [Bool.and_eq_true, beq_iff_eq, beq_iff_eq] at hboth
    exact ⟨j, b, hb, by simpa using hne, hboth.1, hboth.2⟩
  · rintro ⟨j, b, hb, hne, hws, hkey⟩
    refine ⟨j, Table.mem_select.mpr ⟨b, hb, ?_⟩, by simpa using hne⟩
    rw [hws, hkey, beq_self_eq_true, beq_self_eq_true]
    rfl

theorem keyTaken_eq {t : Db} (h : t.assignments = s.assignments) (aid : AssignmentId)
    (ws : WorkspaceId) (key : IdempotencyKey) : keyTaken t aid ws key = keyTaken s aid ws key := by
  unfold keyTaken
  rw [h]

/-- What a recovery leaves: the row, and one entry of the audit. -/
structure Leaves (cfg : Config) (now : Instant) (s s' : Db) (aid : AssignmentId)
    (a : StageAssignment) : Prop where
  row : s'.assignments[aid]? = some (recovered cfg s now a)
  others : ∀ j ≠ aid, s'.assignments[j]? = s.assignments[j]?
  length : s'.assignments.length = s.assignments.length
  definitions : s'.recoveryView.definitions = s.recoveryView.definitions
  audit : ∃ entry, s'.recoveryAudit = s.recoveryAudit ++ [entry] ∧ entry.assignmentId = aid ∧
    entry.outcome ≠ .skipped

theorem leaves_of_view {aid : AssignmentId} {a : StageAssignment} {u : Db}
    {f : StageAssignment → StageAssignment} {newAttempt : Option Nat} {outcome : RecoveryOutcome}
    {detail : Option String} (ha : s.assignments[aid]? = some a) (hf : f a = recovered cfg s now a)
    (houtcome : outcome ≠ .skipped)
    (hu : u.recoveryView =
      ⟨s.assignments.modify aid f, s.recoveryView.definitions, s.recoveryAudit⟩) :
    Leaves cfg now s (auditRecovery u aid a reason newAttempt outcome detail) aid a := by
  have hrows : u.assignments = s.assignments.modify aid f := congrArg RecoveryView.assignments hu
  have haudit : u.recoveryAudit = s.recoveryAudit := congrArg RecoveryView.recoveryAudit hu
  refine ⟨?_, fun j hj => ?_, ?_, ?_, _, congrArg (· ++ [_]) haudit, rfl, houtcome⟩
  · show u.assignments[aid]? = _
    rw [hrows, Table.get_modify_self ha, hf]
  · show u.assignments[j]? = _
    rw [hrows, Table.get_modify_ne (Ne.symm hj)]
  · show u.assignments.length = _
    rw [hrows, List.length_modify]
  · show u.recoveryView.definitions = _
    rw [hu]

theorem requeue_leaves {aid : AssignmentId} {a : StageAssignment} {u : Db}
    (hu : u.recoveryView = s.recoveryView) (ha : s.assignments[aid]? = some a)
    (hattempts : HasAttempts cfg s a) :
    Leaves cfg now s (auditRecovery ((u.updateAssignment now aid StageAssignment.requeue).emit now
      .stageReassigned a.workspaceId a.pipelineRunId) aid a reason (some (a.attemptNumber + 1))
      .requeued detail) aid a := by
  refine leaves_of_view (f := fun a => { a.requeue with updatedAt := now }) ha ?_
    (fun h => nomatch h) ?_
  · unfold recovered
    rw [if_pos hattempts]
  · have hrows : u.assignments = s.assignments := congrArg RecoveryView.assignments hu
    have hdefinitions : u.recoveryView.definitions = s.recoveryView.definitions := by rw [hu]
    have haudit : u.recoveryAudit = s.recoveryAudit := congrArg RecoveryView.recoveryAudit hu
    show RecoveryView.mk (u.assignments.modify aid _) u.recoveryView.definitions u.recoveryAudit = _
    rw [hrows, hdefinitions, haudit]

theorem exhaust_leaves {aid : AssignmentId} {a : StageAssignment} {t : Db} (maxAttempts : Nat)
    (ht : t.recoveryView = s.recoveryView) (ha : s.assignments[aid]? = some a)
    (hattempts : ¬ HasAttempts cfg s a) :
    Leaves cfg now s (exhaustAssignment t now aid a reason maxAttempts detail) aid a := by
  refine leaves_of_view (f := fun a => { a.exhaust now with updatedAt := now }) ha ?_
    (fun h => nomatch h) ?_
  · unfold recovered
    rw [if_neg hattempts]
  · have hrows : t.assignments = s.assignments := congrArg RecoveryView.assignments ht
    have hdefinitions : t.recoveryView.definitions = s.recoveryView.definitions := by rw [ht]
    have haudit : t.recoveryAudit = s.recoveryAudit := congrArg RecoveryView.recoveryAudit ht
    rw [view_failRunUnlessTerminal]
    show RecoveryView.mk (t.assignments.modify aid _) t.recoveryView.definitions t.recoveryAudit = _
    rw [hrows, hdefinitions, haudit]

/-- **What one recovery does**: it raises if the next key is taken, and otherwise leaves the row
recovered and audited, and every other row alone. -/
theorem recoverAssignment_leaves {aid : AssignmentId} {a : StageAssignment}
    (ha : s.assignments[aid]? = some a) (hflight : a.status.inFlight = true) :
    (Blocked cfg s aid a → recoverAssignment cfg s now aid reason detail = .error .integrityError) ∧
    (¬ Blocked cfg s aid a → ∃ s', recoverAssignment cfg s now aid reason detail = .ok s' ∧
      Leaves cfg now s s' aid a) := by
  have hslot : ∀ t : Db, t = freeSlot s a.workerId WorkerRegistration.releaseSlot →
      t.recoveryView = s.recoveryView := by
    rintro t rfl
    exact view_freeSlot ..
  unfold recoverAssignment
  rw [ha]
  dsimp only
  rw [if_neg (by rw [hflight]; exact fun h => h rfl)]
  generalize freeSlot s a.workerId WorkerRegistration.releaseSlot = t at hslot
  have hview := hslot t rfl
  have hmax : resolveMaxAttempts cfg t a = resolveMaxAttempts cfg s a :=
    resolveMaxAttempts_view (congrArg RecoveryView.definitions hview) a
  rw [hmax]
  -- attempts left: the row is requeued under its next key; else the run fails
  by_cases hattempts : HasAttempts cfg s a
  · rw [if_neg (not_lt.mpr hattempts)]
    have hrequeue : ∃ u, u.recoveryView = s.recoveryView ∧
        requeueAssignment t now aid a reason detail =
          if keyTaken u aid a.workspaceId a.nextKey then .error .integrityError
          else .ok (auditRecovery ((u.updateAssignment now aid StageAssignment.requeue).emit now
            .stageReassigned a.workspaceId a.pipelineRunId) aid a reason
            (some (a.attemptNumber + 1)) .requeued detail) := by
      unfold requeueAssignment
      cases t.runs[a.pipelineRunId]? with
      | none => exact ⟨t, hview, rfl⟩
      | some run => exact ⟨_, (view_releaseEach ..).trans hview, rfl⟩
    obtain ⟨u, hu, heq⟩ := hrequeue
    rw [heq, keyTaken_eq (congrArg RecoveryView.assignments hu)]
    constructor
    · intro hblocked
      rw [if_pos hblocked.2]
    · intro hfree
      rw [if_neg fun hkey => hfree ⟨hattempts, hkey⟩]
      exact ⟨_, rfl, requeue_leaves hu ha hattempts⟩
  · rw [if_pos (not_le.mp hattempts)]
    refine ⟨fun hblocked => absurd hblocked.1 hattempts, fun _ => ⟨_, rfl, ?_⟩⟩
    exact exhaust_leaves _ hview ha hattempts

/-! ## The reaping so far -/

/-- The worker holds the assignment. -/
def Holds (s : Db) (wid : WorkerId) (aid : AssignmentId) : Prop :=
  ∃ a, s.assignments[aid]? = some a ∧ a.heldBy wid = true

/-- Both rows may be requeued: their next keys differ. -/
def KeysApart (cfg : Config) (s : Db) (i j : AssignmentId) : Prop :=
  ∀ a b, s.assignments[i]? = some a → s.assignments[j]? = some b → HasAttempts cfg s a →
    HasAttempts cfg s b → a.workspaceId = b.workspaceId → a.nextKey ≠ b.nextKey

instance (cfg : Config) (s : Db) : Std.Symm (KeysApart cfg s) where
  symm _ _ h a b ha hb hattempts hattempts' hws := (h b a hb ha hattempts' hattempts hws.symm).symm

/-- What the recoveries of `done` have made of the database. -/
structure Progress (cfg : Config) (now : Instant) (s₀ s : Db) (done : List AssignmentId) :
    Prop where
  row : ∀ aid a, s₀.assignments[aid]? = some a → s.assignments[aid]? =
    some (if aid ∈ done then recovered cfg s₀ now a else a)
  length : s.assignments.length = s₀.assignments.length
  definitions : s.recoveryView.definitions = s₀.recoveryView.definitions
  audit : ∃ entries, s.recoveryAudit = s₀.recoveryAudit ++ entries ∧
    entries.map StageRecoveryAudit.assignmentId = done ∧ ∀ e ∈ entries, e.outcome ≠ .skipped
  /-- No two rows were requeued under one key. -/
  keys : done.Pairwise (KeysApart cfg s₀)

theorem progress_nil (s : Db) : Progress cfg now s s [] where
  row _ _ ha := ha
  length := rfl
  definitions := rfl
  audit := ⟨[], (List.append_nil _).symm, rfl, fun _ h => nomatch h⟩
  keys := .nil

variable {done : List AssignmentId} {aid : AssignmentId} {a : StageAssignment} {wid : WorkerId}

theorem Progress.hasAttempts (h : Progress cfg now s₀ s done) (a : StageAssignment) :
    HasAttempts cfg s a ↔ HasAttempts cfg s₀ a := by
  unfold HasAttempts
  rw [resolveMaxAttempts_view h.definitions]

theorem Progress.recovered_eq (h : Progress cfg now s₀ s done) (a : StageAssignment) :
    recovered cfg s now a = recovered cfg s₀ now a := by
  unfold recovered
  simp only [h.hasAttempts]

/-- **A recovery more.** -/
theorem Progress.push (h : Progress cfg now s₀ s done) (ha : s₀.assignments[aid]? = some a)
    (hnew : aid ∉ done) (hfree : ¬ Blocked cfg s aid a) (hleaves : Leaves cfg now s s' aid a) :
    Progress cfg now s₀ s' (done ++ [aid]) where
  row j b hb := by
    by_cases hj : j = aid
    · subst hj
      rw [ha] at hb
      cases hb
      rw [if_pos (List.mem_append_right _ List.mem_cons_self), hleaves.row, h.recovered_eq]
    · have hmem : j ∈ done ++ [aid] ↔ j ∈ done := by
        rw [List.mem_append, List.mem_singleton]
        exact or_iff_left hj
      rw [hleaves.others j hj, h.row j b hb]
      simp only [hmem]
  length := hleaves.length.trans h.length
  definitions := hleaves.definitions.trans h.definitions
  audit := by
    obtain ⟨entries, hentries, hids, hkinds⟩ := h.audit
    obtain ⟨entry, hentry, haid, hkind⟩ := hleaves.audit
    refine ⟨entries ++ [entry], ?_, ?_, ?_⟩
    · rw [hentry, hentries, List.append_assoc]
    · rw [List.map_append, hids, List.map_singleton, haid]
    · intro e he
      rcases List.mem_append.mp he with he | he
      · exact hkinds e he
      · rw [List.mem_singleton.mp he]
        exact hkind
  keys := by
    rw [List.pairwise_append]
    refine ⟨h.keys, List.pairwise_singleton _ _, ?_⟩
    intro i hi j hj b b' hb hb' hattempts hattempts' hws hkey
    rw [List.mem_singleton.mp hj, ha] at hb'
    cases hb'
    -- the row that was requeued before would have the key by now
    have hrow := h.row i b hb
    rw [if_pos hi] at hrow
    refine hfree ⟨(h.hasAttempts a).mpr hattempts', keyTaken_iff.mpr ⟨i, _, hrow, ?_, ?_, ?_⟩⟩
    · rintro rfl
      exact hnew hi
    · rw [recovered_workspace, hws]
    · rw [recovered_key, if_pos hattempts, hkey]

/-- No requeued row of the worker meets its next key: it is not another row's, and no other row is
requeued under it. -/
def Requeueable (cfg : Config) (s : Db) (wid : WorkerId) : Prop :=
  ∀ (aid : AssignmentId) (a : StageAssignment), s.assignments[aid]? = some a →
    a.heldBy wid = true → HasAttempts cfg s a →
    ∀ (j : AssignmentId) (b : StageAssignment), s.assignments[j]? = some b → j ≠ aid →
      b.workspaceId = a.workspaceId → b.idempotencyKey ≠ a.nextKey ∧
      (b.heldBy wid = true → HasAttempts cfg s b → b.nextKey ≠ a.nextKey)

theorem Progress.unblocked (h : Progress cfg now s₀ s done) (hrequeue : Requeueable cfg s₀ wid)
    (hdone : ∀ i ∈ done, Holds s₀ wid i) (ha : s₀.assignments[aid]? = some a)
    (hheld : a.heldBy wid = true) : ¬ Blocked cfg s aid a := by
  rintro ⟨hattempts, htaken⟩
  obtain ⟨j, c, hc, hne, hws, hkey⟩ := keyTaken_iff.mp htaken
  have hlt : j < s₀.assignments.length := h.length ▸ (List.getElem?_eq_some_iff.mp hc).1
  obtain ⟨b, hb⟩ : ∃ b, s₀.assignments[j]? = some b := ⟨_, List.getElem?_eq_getElem hlt⟩
  have hrow := h.row j b hb
  rw [hc] at hrow
  have hsafe := hrequeue aid a ha hheld ((h.hasAttempts a).mp hattempts) j b hb hne
  split at hrow
  · rename_i hmem
    cases hrow
    rw [recovered_workspace] at hws
    rw [recovered_key] at hkey
    split at hkey
    · rename_i hagain
      obtain ⟨b', hb', hheld'⟩ := hdone j hmem
      rw [hb] at hb'
      cases hb'
      exact (hsafe hws).2 hheld' hagain hkey
    · exact (hsafe hws).1 hkey
  · cases hrow
    exact (hsafe hws).1 hkey

/-! ## A batch -/

/-- **A batch** of rows that are still held: what it recovers is added, and it raises only if some
row does not find its next key free. -/
theorem recoverEach_progress {wid : WorkerId} (batch : List AssignmentId) :
    ∀ {s : Db} {done : List AssignmentId}, Progress cfg now s₀ s done → batch.Nodup →
      (∀ aid ∈ batch, aid ∉ done) → (∀ aid ∈ batch, Holds s₀ wid aid) →
      (∀ i ∈ done, Holds s₀ wid i) →
      (∀ s', recoverEach cfg s now reason detail batch = .ok s' →
        Progress cfg now s₀ s' (done ++ batch)) ∧
      (Requeueable cfg s₀ wid → ∃ s', recoverEach cfg s now reason detail batch = .ok s') := by
  induction batch with
  | nil =>
      intro s done h _ _ _ _
      refine ⟨fun s' hs' => ?_, fun _ => ⟨s, rfl⟩⟩
      cases hs'
      rw [List.append_nil]
      exact h
  | cons aid rest ih =>
      intro s done h hnodup hnew hheld hdone
      obtain ⟨hfirst, hnodup⟩ := List.nodup_cons.mp hnodup
      obtain ⟨a, ha, hholds⟩ := hheld aid List.mem_cons_self
      have hrow := h.row aid a ha
      rw [if_neg (hnew aid List.mem_cons_self)] at hrow
      obtain ⟨hraises, hrecovers⟩ : (Blocked cfg s aid a →
            recoverAssignment cfg s now aid reason detail = .error .integrityError) ∧
          (¬ Blocked cfg s aid a → ∃ s', recoverAssignment cfg s now aid reason detail = .ok s' ∧
            Leaves cfg now s s' aid a) := recoverAssignment_leaves hrow (heldBy_iff.mp hholds).2
      -- the row stops the batch, or is recovered and counted as done
      by_cases hblocked : Blocked cfg s aid a
      · have hraise : recoverEach cfg s now reason detail (aid :: rest)
            = .error .integrityError := by
          rw [recoverEach, hraises hblocked]
        rw [hraise]
        refine ⟨fun s' h => (nomatch h), fun hrequeue => ?_⟩
        exact absurd hblocked (h.unblocked hrequeue hdone ha hholds)
      · obtain ⟨s₁, hs₁, hleaves⟩ := hrecovers hblocked
        have hgoes : recoverEach cfg s now reason detail (aid :: rest) =
            recoverEach cfg s₁ now reason detail rest := by
          rw [recoverEach, hs₁]
        have hlater : ∀ i ∈ rest, i ∉ done ++ [aid] := by
          intro i hi hmem
          rcases List.mem_append.mp hmem with hmem | hmem
          · exact hnew i (List.mem_cons_of_mem aid hi) hmem
          · rw [List.mem_singleton] at hmem
            exact hfirst (hmem ▸ hi)
        have hall : ∀ i ∈ done ++ [aid], Holds s₀ wid i := by
          intro i hi
          rcases List.mem_append.mp hi with hi | hi
          · exact hdone i hi
          · rw [List.mem_singleton.mp hi]
            exact ⟨a, ha, hholds⟩
        have hpushed := h.push ha (hnew aid List.mem_cons_self) hblocked hleaves
        have hrest := ih hpushed hnodup hlater
          (fun i hi => hheld i (List.mem_cons_of_mem aid hi)) hall
        rw [List.append_assoc] at hrest
        rw [hgoes]
        exact hrest

/-! ## The loop -/

/-- The worker holds what it held and was not recovered. -/
theorem Progress.holds_iff (h : Progress cfg now s₀ s done) :
    Holds s wid aid ↔ Holds s₀ wid aid ∧ aid ∉ done := by
  constructor
  · rintro ⟨c, hc, hheld⟩
    have hlt : aid < s₀.assignments.length := h.length ▸ (List.getElem?_eq_some_iff.mp hc).1
    obtain ⟨a, ha⟩ : ∃ a, s₀.assignments[aid]? = some a := ⟨_, List.getElem?_eq_getElem hlt⟩
    have hrow := h.row aid a ha
    rw [hc] at hrow
    split at hrow
    · cases hrow
      have hflight := (heldBy_iff.mp hheld).2
      rw [recovered_inFlight] at hflight
      exact nomatch hflight
    · rename_i hnew
      cases hrow
      exact ⟨⟨_, ha, hheld⟩, hnew⟩
  · rintro ⟨⟨a, ha, hheld⟩, hnew⟩
    have hrow := h.row aid a ha
    rw [if_neg hnew] at hrow
    exact ⟨a, hrow, hheld⟩

theorem Progress.mem_heldRows (h : Progress cfg now s₀ s done) {rows : List AssignmentId}
    (hrows : rows.Perm (List.range s₀.assignments.length)) :
    aid ∈ heldRows s wid rows ↔ Holds s₀ wid aid ∧ aid ∉ done := by
  rw [HumanGate.mem_heldRows, ← h.holds_iff]
  refine and_iff_right_of_imp fun ⟨a, ha, _⟩ => hrows.mem_iff.mpr (List.mem_range.mpr ?_)
  exact h.length ▸ (List.getElem?_eq_some_iff.mp ha).1

/-- **The loop ends** after fewer queries than the worker holds rows, and one; where it does not
raise, it has recovered all of them. -/
theorem reapWorkerLoop_progress {limit : Nat} (hlimit : 1 ≤ limit) (held : List AssignmentId)
    (hheld : ∀ aid, Holds s₀ wid aid → aid ∈ held) (scans : List (List AssignmentId)) :
    ∀ {s : Db} {done : List AssignmentId}, Progress cfg now s₀ s done → done.Nodup →
      (∀ i ∈ done, Holds s₀ wid i) →
      (∀ rows ∈ scans, rows.Perm (List.range s₀.assignments.length)) →
      held.length < scans.length + done.length →
      ∃ outcome, reapWorkerLoop cfg now wid reason detail limit scans s = some outcome ∧
        (∀ s', outcome = .ok s' → ∃ all, Progress cfg now s₀ s' all ∧ all.Nodup ∧
          ∀ aid, aid ∈ all ↔ Holds s₀ wid aid) ∧
        (Requeueable cfg s₀ wid → ∃ s', outcome = .ok s') := by
  induction scans with
  | nil =>
      intro s done _ hnodup hdone _ hfew
      -- all rows are recovered before the queries are used up
      have hle := (List.Nodup.subperm hnodup fun i hi => hheld i (hdone i hi)).length_le
      rw [List.length_nil, Nat.zero_add] at hfew
      exact absurd hfew (not_lt.mpr hle)
  | cons rows scans ih =>
      intro s done h hnodup hdone hscans hfew
      have hrows := hscans rows List.mem_cons_self
      have hbatch := holdings_eq s wid limit rows
      have hunique : (heldRows s wid rows).Nodup :=
        (hrows.nodup_iff.mpr List.nodup_range).filter _
      unfold reapWorkerLoop
      cases hfound : holdings s wid limit rows with
      | nil =>
          rw [hfound] at hbatch
          have hnone : heldRows s wid rows = [] :=
            (List.take_eq_nil_iff.mp hbatch.symm).resolve_left (by omega)
          refine ⟨.ok s, rfl, fun s' hs' => ?_, fun _ => ⟨s, rfl⟩⟩
          cases hs'
          refine ⟨done, h, hnodup, fun aid => ⟨hdone aid, fun hholds => ?_⟩⟩
          by_contra hnew
          have hmem := (h.mem_heldRows hrows).mpr ⟨hholds, hnew⟩
          rw [hnone] at hmem
          exact nomatch hmem
      | cons aid batch =>
          rw [hfound] at hbatch
          have hmem : ∀ i ∈ aid :: batch, Holds s₀ wid i ∧ i ∉ done := by
            intro i hi
            rw [hbatch] at hi
            exact (h.mem_heldRows hrows).mp (List.mem_of_mem_take hi)
          have hbatchNodup : (aid :: batch).Nodup := by
            rw [hbatch]
            exact hunique.sublist (List.take_sublist _ _)
          obtain ⟨hok, hfree⟩ : (∀ s', recoverEach cfg s now reason detail (aid :: batch) = .ok s' →
                Progress cfg now s₀ s' (done ++ aid :: batch)) ∧
              (Requeueable cfg s₀ wid →
                ∃ s', recoverEach cfg s now reason detail (aid :: batch) = .ok s') :=
            recoverEach_progress (aid :: batch) h hbatchNodup (fun i hi => (hmem i hi).2)
              (fun i hi => (hmem i hi).1) hdone
          dsimp only
          cases hrecover : recoverEach cfg s now reason detail (aid :: batch) with
          | error e =>
              refine ⟨.error e, rfl, fun s' h => (nomatch h), fun hrequeue => ?_⟩
              obtain ⟨s₁, hs₁⟩ := hfree hrequeue
              rw [hrecover] at hs₁
              exact nomatch hs₁
          | ok s₁ =>
              have hnext := hok s₁ hrecover
              have hall : ∀ i ∈ done ++ aid :: batch, Holds s₀ wid i := by
                intro i hi
                rcases List.mem_append.mp hi with hi | hi
                · exact hdone i hi
                · exact (hmem i hi).1
              have hunited : (done ++ aid :: batch).Nodup := by
                refine List.nodup_append.mpr ⟨hnodup, hbatchNodup, ?_⟩
                rintro i hi j hj rfl
                exact (hmem i hj).2 hi
              dsimp only
              by_cases hshort : (aid :: batch).length < limit
              · rw [if_pos hshort]
                refine ⟨.ok s₁, rfl, fun s' hs' => ?_, fun _ => ⟨s₁, rfl⟩⟩
                cases hs'
                refine ⟨done ++ aid :: batch, hnext, hunited, fun i => ⟨hall i, fun hholds => ?_⟩⟩
                -- the batch was not full, so it had every row
                have hwhole : aid :: batch = heldRows s wid rows := by
                  rw [hbatch, List.length_take] at hshort
                  rw [hbatch]
                  exact List.take_of_length_le (by omega)
                by_contra hnot
                rw [List.mem_append, not_or, hwhole] at hnot
                exact hnot.2 ((h.mem_heldRows hrows).mpr ⟨hholds, hnot.1⟩)
              · rw [if_neg hshort]
                refine ih hnext hunited hall
                  (fun r hr => hscans r (List.mem_cons_of_mem rows hr)) ?_
                rw [List.length_append, List.length_cons]
                rw [List.length_cons] at hfew
                omega

/-! ## Draining -/

/-- Orders in which queries may find the rows of a database, for more queries than it has rows. -/
structure ReapScans (s : Db) (scans : List (List AssignmentId)) : Prop where
  rows : ∀ rows ∈ scans, rows.Perm (List.range s.assignments.length)
  enough : s.assignments.length < scans.length

/-- All of the worker's rows in flight were recovered, each of them once, and no other row
changed. -/
structure Drained (s s' : Db) (wid : WorkerId) : Prop where
  audited : ∃ entries, s'.recoveryAudit = s.recoveryAudit ++ entries ∧
    (entries.map StageRecoveryAudit.assignmentId).Nodup ∧
    (∀ aid, aid ∈ entries.map StageRecoveryAudit.assignmentId ↔ Holds s wid aid) ∧
    ∀ e ∈ entries, e.outcome ≠ .skipped
  landed : ∀ aid, Holds s wid aid → ∃ a', s'.assignments[aid]? = some a' ∧
    a'.status.inFlight = false
  none_held : ∀ aid, ¬ Holds s' wid aid
  others : ∀ aid, ¬ Holds s wid aid → s'.assignments[aid]? = s.assignments[aid]?

theorem Progress.drained (h : Progress cfg now s s' done) (hnodup : done.Nodup)
    (hall : ∀ aid, aid ∈ done ↔ Holds s wid aid) : Drained s s' wid where
  audited := by
    obtain ⟨entries, hentries, hids, hkinds⟩ := h.audit
    exact ⟨entries, hentries, hids ▸ hnodup, fun aid => hids ▸ hall aid, hkinds⟩
  landed aid hholds := by
    obtain ⟨a, ha, _⟩ := id hholds
    refine ⟨_, h.row aid a ha, ?_⟩
    rw [if_pos ((hall aid).mpr hholds)]
    exact recovered_inFlight s now a
  none_held aid hholds := by
    obtain ⟨hheld, hnew⟩ := h.holds_iff.mp hholds
    exact hnew ((hall aid).mpr hheld)
  others aid hnot := by
    cases ha : s.assignments[aid]? with
    | none =>
        have hlength := List.getElem?_eq_none_iff.mp ha
        exact List.getElem?_eq_none_iff.mpr (h.length ▸ hlength)
    | some a => rw [h.row aid a ha, if_neg fun hmem => hnot ((hall aid).mp hmem)]

/-- A row whose next key is another row's makes the loop raise, if a query finds it first. -/
theorem reapWorkerLoop_blocked {limit : Nat} (hlimit : 1 ≤ limit)
    (ha : s.assignments[aid]? = some a)
    (hheld : a.heldBy wid = true) (hblocked : Blocked cfg s aid a) (rows : List AssignmentId)
    (scans : List (List AssignmentId)) :
    reapWorkerLoop cfg now wid reason detail limit ((aid :: rows) :: scans) s
      = some (.error .integrityError) := by
  have hfirst : ∃ batch, holdings s wid limit (aid :: rows) = aid :: batch := by
    obtain ⟨n, rfl⟩ := Nat.exists_eq_add_of_le' hlimit
    rw [holdings_eq, heldRows, List.filter_cons_of_pos (by rw [ha]; exact hheld),
      List.take_succ_cons]
    exact ⟨_, rfl⟩
  obtain ⟨batch, hbatch⟩ := hfirst
  have hraise : recoverAssignment cfg s now aid reason detail = .error .integrityError :=
    (recoverAssignment_leaves ha (heldBy_iff.mp hheld).2).1 hblocked
  unfold reapWorkerLoop
  rw [hbatch]
  dsimp only
  rw [recoverEach, hraise]

/-- **When a worker is drained.** For every database, worker and batch size: the loop ends, in
whatever orders its queries find the rows. In all of these orders it recovers each of the worker's
rows in flight exactly once, leaves none in flight and changes no other row, exactly if no row that
is to be requeued meets its next key on another row of its workspace. -/
theorem worker_drained_iff (cfg : Config) (s : Db) (now : Instant) (wid : WorkerId)
    (reason : RecoveryReason) (detail : Option String) (limit : Nat) (hlimit : 1 ≤ limit) :
    (∀ scans, ReapScans s scans →
      ∃ outcome, reapWorkerLoop cfg now wid reason detail limit scans s = some outcome) ∧
    ((∀ scans, ReapScans s scans →
      ∃ s', reapWorkerLoop cfg now wid reason detail limit scans s = some (.ok s') ∧
        Drained s s' wid) ↔ Requeueable cfg s wid) := by
  have hlt : ∀ {i : AssignmentId} {b : StageAssignment}, s.assignments[i]? = some b →
      i < s.assignments.length := fun hb => (List.getElem?_eq_some_iff.mp hb).1
  have hends : ∀ scans, ReapScans s scans →
      ∃ outcome, reapWorkerLoop cfg now wid reason detail limit scans s = some outcome ∧
        (∀ s', outcome = .ok s' → ∃ all, Progress cfg now s s' all ∧ all.Nodup ∧
          ∀ aid, aid ∈ all ↔ Holds s wid aid) ∧
        (Requeueable cfg s wid → ∃ s', outcome = .ok s') := by
    intro scans hscans
    refine reapWorkerLoop_progress hlimit (List.range s.assignments.length) ?_ scans
      (progress_nil s) .nil (fun i hi => (nomatch hi)) hscans.rows ?_
    · rintro aid ⟨a, ha, _⟩
      exact List.mem_range.mpr (hlt ha)
    · rw [List.length_range, List.length_nil]
      exact hscans.enough
  refine ⟨fun scans hscans => ?_, fun hdrained => ?_, fun hrequeue scans hscans => ?_⟩
  · obtain ⟨outcome, houtcome, _⟩ := hends scans hscans
    exact ⟨outcome, houtcome⟩
  · intro aid a ha hheld hattempts j b hb hne hws
    constructor
    · -- the row could be found first
      intro hkey
      have hblocked : Blocked cfg s aid a :=
        ⟨hattempts, keyTaken_iff.mpr ⟨j, b, hb, hne, hws, hkey⟩⟩
      have hperm : (aid :: (List.range s.assignments.length).erase aid).Perm
          (List.range s.assignments.length) :=
        (List.perm_cons_erase (List.mem_range.mpr (hlt ha))).symm
      obtain ⟨s', hs', _⟩ := hdrained
        (List.replicate (s.assignments.length + 1)
          (aid :: (List.range s.assignments.length).erase aid))
        ⟨fun rows hrows => List.eq_of_mem_replicate hrows ▸ hperm, by
          rw [List.length_replicate]
          exact Nat.lt_succ_self _⟩
      rw [List.replicate_succ, reapWorkerLoop_blocked hlimit ha hheld hblocked] at hs'
      exact nomatch hs'
    · -- both rows would be requeued under one key
      intro hheld' hattempts' hkey
      have hscans : ReapScans s (List.replicate (s.assignments.length + 1)
          (List.range s.assignments.length)) :=
        ⟨fun rows hrows => List.eq_of_mem_replicate hrows ▸ .refl _, by
          rw [List.length_replicate]
          exact Nat.lt_succ_self _⟩
      obtain ⟨s', hs', _⟩ := hdrained _ hscans
      obtain ⟨outcome, houtcome, hall, _⟩ := hends _ hscans
      rw [hs'] at houtcome
      obtain ⟨all, hprogress, hnodup, hmem⟩ := hall s' (Option.some.inj houtcome).symm
      have hkeys := hprogress.keys.forall ((hmem j).mpr ⟨b, hb, hheld'⟩)
        ((hmem aid).mpr ⟨a, ha, hheld⟩) hne
      exact hkeys b a hb ha hattempts' hattempts hws hkey
  · obtain ⟨outcome, houtcome, hall, hfree⟩ := hends scans hscans
    obtain ⟨s', rfl⟩ := hfree hrequeue
    obtain ⟨all, hprogress, hnodup, hmem⟩ := hall s' rfl
    exact ⟨s', houtcome, hprogress.drained hnodup hmem⟩

/-- One order for all queries is what `reap_worker_assignments` was given. -/
theorem reapWorkerBatches_loop {limit : Nat} (rows : List AssignmentId) (fuel : Nat) :
    ∀ {s : Db} {outcome : Except Err Db},
      reapWorkerLoop cfg now wid reason detail limit (List.replicate fuel rows) s = some outcome →
      reapWorkerBatches cfg now wid reason detail limit rows fuel s = outcome := by
  induction fuel with
  | zero =>
      intro s outcome h
      exact nomatch h
  | succ fuel ih =>
      intro s outcome h
      rw [List.replicate_succ] at h
      unfold reapWorkerLoop at h
      unfold reapWorkerBatches
      cases hfound : holdings s wid limit rows with
      | nil =>
          rw [hfound] at h
          exact Option.some.inj h
      | cons aid batch =>
          rw [hfound] at h
          dsimp only at h ⊢
          cases hrecover : recoverEach cfg s now reason detail (aid :: batch) with
          | error e =>
              rw [hrecover] at h
              exact Option.some.inj h
          | ok s₁ =>
              rw [hrecover] at h
              dsimp only at h ⊢
              by_cases hshort : (aid :: batch).length < limit
              · rw [if_pos hshort] at h ⊢
                exact Option.some.inj h
              · rw [if_neg hshort] at h ⊢
                exact ih h

/-! ## A stage that times out -/

/-- A script that its worker has begun. -/
def begunOps : List Op :=
  [⟨0, .startRun 0 0 0⟩, ⟨1, .pollAndLease 10 [0]⟩, ⟨2, .processLeasedJob 0 [0] 0⟩]

/-- The stage times out meanwhile, and its retry is dispatched as well. -/
def timedOutOps : List Op :=
  begunOps ++ [⟨3, .handleStageTimeout 0 .scripting 0⟩, ⟨4, .pollAndLease 10 [0, 1]⟩,
    ⟨5, .processLeasedJob 1 [0] 0⟩]

/-- The one script comes back from its worker. -/
theorem begun_script_drained : ∃ s', reapWorkerLoop patientConfig 6 0 .workerOffline none 1
      [[0], [0]] (runOps patientConfig deskDb begunOps) = some (.ok s') ∧
    Drained (runOps patientConfig deskDb begunOps) s' 0 := by
  have hone : (runOps patientConfig deskDb begunOps).assignments.length = 1 := by decide +kernel
  generalize runOps patientConfig deskDb begunOps = s at hone
  have hzero : ∀ {i : AssignmentId} {b : StageAssignment}, s.assignments[i]? = some b → i = 0 := by
    intro i b hb
    exact Nat.lt_one_iff.mp (hone ▸ (List.getElem?_eq_some_iff.mp hb).1)
  refine (worker_drained_iff patientConfig s 6 0 .workerOffline none 1 le_rfl).2.mpr
    ?_ [[0], [0]] ?_
  · intro aid a ha _ _ j b hb hne
    exact absurd ((hzero hb).trans (hzero ha).symm) hne
  · refine ⟨fun rows hrows => ?_, by rw [hone]; decide⟩
    rw [hone]
    rcases List.mem_pair.mp hrows with rfl | rfl <;> exact .refl _

/-- With both rows in its hands, the worker cannot be reaped if the first one is found first. -/
theorem timed_out_worker_held :
    (orchestration patientConfig fun _ _ => True).Reachable
    (runOps patientConfig deskDb timedOutOps) ∧
    ReapScans (runOps patientConfig deskDb timedOutOps) [[0, 1], [0, 1], [0, 1]] ∧
    Holds (runOps patientConfig deskDb timedOutOps) 0 0 ∧
    Holds (runOps patientConfig deskDb timedOutOps) 0 1 ∧
    reapWorkerLoop patientConfig 6 0 .workerOffline none 100 [[0, 1], [0, 1], [0, 1]]
      (runOps patientConfig deskDb timedOutOps) = some (.error .integrityError) := by
  refine ⟨runOps_reachable patientConfig deskDb_fresh timedOutOps, ?_⟩
  have htwo : (runOps patientConfig deskDb timedOutOps).assignments.length = 2 := by decide +kernel
  have hfirst : ((runOps patientConfig deskDb timedOutOps).assignments[0]?).any (fun a =>
      a.heldBy 0 && decide (HasAttempts patientConfig
        (runOps patientConfig deskDb timedOutOps) a) &&
        keyTaken (runOps patientConfig deskDb timedOutOps) 0 a.workspaceId a.nextKey) = true := by
    decide +kernel
  have hsecond : ((runOps patientConfig deskDb timedOutOps).assignments[1]?).any
      (StageAssignment.heldBy 0) = true := by
    decide +kernel
  generalize runOps patientConfig deskDb timedOutOps = s at htwo hfirst hsecond
  obtain ⟨a, ha, hboth⟩ := (Option.any_eq_true _ _).mp hfirst
  obtain ⟨b, hb, hheld'⟩ := (Option.any_eq_true _ _).mp hsecond
  rw [Bool.and_eq_true, Bool.and_eq_true, decide_eq_true_eq] at hboth
  obtain ⟨⟨hheld, hattempts⟩, htaken⟩ := hboth
  refine ⟨⟨fun rows hrows => ?_, by rw [htwo]; decide⟩, ⟨a, ha, hheld⟩, ⟨b, hb, hheld'⟩, ?_⟩
  · rw [htwo]
    have hsame : rows = [0, 1] := by simpa using hrows
    rw [hsame]
    exact .refl _
  · exact reapWorkerLoop_blocked (by decide) ha hheld ⟨hattempts, htaken⟩ [1] _

end HumanGate
