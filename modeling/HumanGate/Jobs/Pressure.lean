import HumanGate.Lib.Changes
import HumanGate.Model.Backpressure
import HumanGate.Model.Desk

set_option autoImplicit false

/-! # Back-pressure over histories

A workspace's state is right after an evaluation of this workspace, and it does not change
otherwise. A pass evaluates only workspaces with pending assignments, and only a batch of them. So
it leaves every state right exactly if no drained workspace is under pressure before and the batch
is large enough (`pass_accurate_iff`); a workspace whose queue has emptied between two passes stays
throttled (`drained_stays_throttled`). The events are the changes of the state, in every history.
-/

namespace HumanGate

open Lib Lib.Calendar

variable {cfg : PressureConfig} {s : PressureDb} {ws : WorkspaceId}

/-! ## One workspace -/

/-- The class of the queue as it is. -/
def classOf (cfg : PressureConfig) (s : PressureDb) (ws : WorkspaceId) : BackpressureState :=
  classifyDepth (pendingDepth s ws) (queueLimits cfg ws).1 (queueLimits cfg ws).2

/-- Every workspace's state is the class of its queue. -/
def Accurate (cfg : PressureConfig) (s : PressureDb) : Prop :=
  ∀ ws, s.stateOf ws = classOf cfg s ws

/-- Limits are positive, so an empty queue is under no pressure. -/
theorem classOf_empty (cfg : PressureConfig) (hempty : pendingDepth s ws = 0) :
    classOf cfg s ws = .normal := by
  have hpos : 0 < (queueLimits cfg ws).1 ∧ 0 < (queueLimits cfg ws).2 := by
    unfold queueLimits
    cases cfg.limit ws with
    | none => exact ⟨cfg.queueSoftLimitDefault.pos, cfg.queueHardLimitDefault.pos⟩
    | some row => exact ⟨row.queueSoftLimit.pos, row.queueSoftLimit.pos.trans_le row.ordered⟩
  unfold classOf classifyDepth
  rw [hempty, if_neg (by omega), if_neg (by omega)]

/-- The row of another workspace stays. -/
theorem stateOf_upsert (s : PressureDb) (now : Instant) (ws ws' : WorkspaceId)
    (state : BackpressureState) (depth : Nat) :
    (s.upsert now ws state depth).stateOf ws' = if ws' = ws then state else s.stateOf ws' := by
  unfold PressureDb.upsert PressureDb.stateOf PressureDb.row
  cases hrow : s.rows.find? fun row => row.workspaceId == ws with
  | none =>
      simp only [List.find?_append]
      by_cases heq : ws' = ws
      · subst heq
        simp [hrow]
      · have hne : (ws == ws') = false := beq_eq_false_iff_ne.mpr (Ne.symm heq)
        simp [hne, heq]
  | some found =>
      simp only [List.find?_map]
      have hkey : (fun row : WorkspaceBackpressureState => row.workspaceId == ws') ∘ (fun row =>
          if row.workspaceId = ws then
            { row with
              state := state
              pendingDepth := depth
              enteredAt := if row.state = state then row.enteredAt else enteredAt now state
              updatedAt := now }
          else row) = fun row => row.workspaceId == ws' := by
        funext row
        simp only [Function.comp]
        split <;> rfl
      rw [hkey]
      by_cases heq : ws' = ws
      · subst heq
        have hws := List.find?_some hrow
        rw [beq_iff_eq] at hws
        simp [hrow, hws]
      · rw [if_neg heq]
        cases hrow' : s.rows.find? fun row => row.workspaceId == ws' with
        | none => rfl
        | some row =>
            have hws := List.find?_some hrow'
            rw [beq_iff_eq] at hws
            have hne : row.workspaceId ≠ ws := hws ▸ heq
            simp [hne]

theorem upsert_assignments (s : PressureDb) (now : Instant) (ws : WorkspaceId)
    (state : BackpressureState) (depth : Nat) :
    (s.upsert now ws state depth).assignments = s.assignments := by
  unfold PressureDb.upsert
  split <;> rfl

theorem upsert_outbox (s : PressureDb) (now : Instant) (ws : WorkspaceId)
    (state : BackpressureState) (depth : Nat) :
    (s.upsert now ws state depth).outbox = s.outbox := by
  unfold PressureDb.upsert
  split <;> rfl

variable (cfg s) in
theorem evaluate_assignments (now : Instant) (ws : WorkspaceId) :
    (evaluateWorkspaceBackpressure cfg now s ws).1.assignments = s.assignments :=
  upsert_assignments ..

variable (cfg s) in
/-- **An evaluation** sets the state of its workspace to the class of the queue. -/
theorem stateOf_evaluate (now : Instant) (ws ws' : WorkspaceId) :
    (evaluateWorkspaceBackpressure cfg now s ws).1.stateOf ws'
      = if ws' = ws then classOf cfg s ws else s.stateOf ws' :=
  stateOf_upsert ..

theorem classOf_congr {s s' : PressureDb} (h : s'.assignments = s.assignments) (ws : WorkspaceId) :
    classOf cfg s' ws = classOf cfg s ws := by
  unfold classOf pendingDepth
  rw [h]

/-! ## Events -/

/-- What an event reports: its type, and the states before and after. -/
def PressureEvent.report (e : PressureEvent) :
    PressureEventType × BackpressureState × BackpressureState :=
  (e.eventType, e.previousState, e.state)

/-- What the outbox reports about a workspace. -/
def reports (s : PressureDb) (ws : WorkspaceId) :
    List (PressureEventType × BackpressureState × BackpressureState) :=
  (s.outbox.filter fun e => e.workspaceId == ws).map PressureEvent.report

/-- The report that a change calls for. -/
def reportOf (change : BackpressureState × BackpressureState) :
    PressureEventType × BackpressureState × BackpressureState :=
  (transitionType change.2, change.1, change.2)

/-- The report of a workspace that goes from one state to another. -/
def reportBetween (old new : BackpressureState) :
    List (PressureEventType × BackpressureState × BackpressureState) :=
  if old = new then [] else [reportOf (old, new)]

variable (cfg s) in
/-- An evaluation reports the change of the state, if there is one. -/
theorem reports_evaluate (now : Instant) (ws ws' : WorkspaceId) :
    reports (evaluateWorkspaceBackpressure cfg now s ws).1 ws'
      = reports s ws' ++ reportBetween (s.stateOf ws')
          ((evaluateWorkspaceBackpressure cfg now s ws).1.stateOf ws') := by
  rw [stateOf_evaluate]
  unfold reports evaluateWorkspaceBackpressure reportBetween
  simp only [upsert_outbox]
  by_cases heq : ws' = ws
  · subst heq
    rw [if_pos rfl]
    by_cases hsame : s.stateOf ws' = classOf cfg s ws'
    · have hchanged : (s.stateOf ws' != classifyDepth (pendingDepth s ws')
          (queueLimits cfg ws').1 (queueLimits cfg ws').2) = false := by
        rw [bne_eq_false_iff_eq]
        exact hsame
      rw [hchanged, if_pos hsame, List.append_nil]
      rfl
    · have hchanged : (s.stateOf ws' != classifyDepth (pendingDepth s ws')
          (queueLimits cfg ws').1 (queueLimits cfg ws').2) = true := by
        rw [bne_iff_ne]
        exact hsame
      rw [hchanged, if_neg hsame, if_pos rfl, List.filter_append, List.map_append]
      simp [PressureEvent.report, reportOf, classOf]
  · rw [if_neg heq, if_pos rfl, List.append_nil]
    have hne : (ws == ws') = false := beq_eq_false_iff_ne.mpr (Ne.symm heq)
    split
    · rw [List.filter_append]
      simp [hne]
    · rfl

/-! ## A pass -/

/-- The visited workspaces have the class of their queue, the others keep their state. -/
theorem evaluateAll_spec (cfg : PressureConfig) (visited : List (WorkspaceId × Instant)) :
    ∀ s : PressureDb,
      (evaluateAllActiveWorkspaces cfg visited s).1.assignments = s.assignments ∧
      ∀ ws, (evaluateAllActiveWorkspaces cfg visited s).1.stateOf ws
        = if ws ∈ visited.map Prod.fst then classOf cfg s ws else s.stateOf ws := by
  induction visited with
  | nil => exact fun s => ⟨rfl, fun ws => rfl⟩
  | cons first rest ih =>
      intro s
      obtain ⟨ws, now⟩ := first
      have hfirst := evaluate_assignments cfg s now ws
      obtain ⟨hassignments, hstates⟩ := ih (evaluateWorkspaceBackpressure cfg now s ws).1
      refine ⟨hassignments.trans hfirst, fun ws' => ?_⟩
      show (evaluateAllActiveWorkspaces cfg rest
          (evaluateWorkspaceBackpressure cfg now s ws).1).1.stateOf
        ws' = _
      rw [hstates ws', classOf_congr hfirst, stateOf_evaluate, List.map_cons]
      by_cases hrest : ws' ∈ rest.map Prod.fst
      · rw [if_pos hrest, if_pos (List.mem_cons_of_mem _ hrest)]
      · rw [if_neg hrest]
        by_cases heq : ws' = ws
        · rw [if_pos heq, if_pos (heq ▸ List.mem_cons_self), heq]
        · have hmem : ws' ∉ ws :: rest.map Prod.fst := by
            rw [List.mem_cons]
            exact not_or.mpr ⟨heq, hrest⟩
          rw [if_neg heq, if_neg hmem]

/-- Two reports in a row are one, unless the state changes twice. -/
theorem reportBetween_append {a b c : BackpressureState} (h : a = b ∨ b = c) :
    reportBetween a b ++ reportBetween b c = reportBetween a c := by
  unfold reportBetween
  rcases h with rfl | rfl
  · rw [if_pos rfl, List.nil_append]
  · rw [if_pos rfl, List.append_nil]

/-- A pass reports the change of every workspace's state, once. -/
theorem reports_evaluateAll (ws : WorkspaceId) (cfg : PressureConfig)
    (visited : List (WorkspaceId × Instant)) :
    ∀ s : PressureDb, reports (evaluateAllActiveWorkspaces cfg visited s).1 ws
      = reports s ws ++ reportBetween (s.stateOf ws)
          ((evaluateAllActiveWorkspaces cfg visited s).1.stateOf ws) := by
  induction visited with
  | nil =>
      intro s
      show reports s ws = _ ++ reportBetween (s.stateOf ws) (s.stateOf ws)
      unfold reportBetween
      rw [if_pos rfl, List.append_nil]
  | cons first rest ih =>
      intro s
      obtain ⟨ws', now⟩ := first
      show reports (evaluateAllActiveWorkspaces cfg rest
        (evaluateWorkspaceBackpressure cfg now s ws').1).1 ws = _ ++ reportBetween _
          ((evaluateAllActiveWorkspaces cfg rest
            (evaluateWorkspaceBackpressure cfg now s ws').1).1.stateOf ws)
      rw [ih, reports_evaluate, List.append_assoc]
      congr 1
      apply reportBetween_append
      rw [(evaluateAll_spec cfg rest _).2 ws, stateOf_evaluate,
        classOf_congr (evaluate_assignments cfg s now ws')]
      -- once evaluated, the state is the class, which a pass does not change
      by_cases heq : ws = ws'
      · right
        rw [if_pos heq, heq, ite_self]
      · left
        rw [if_neg heq]

/-! ## When a pass leaves every state right -/

theorem mem_pendingWorkspaces : ws ∈ pendingWorkspaces s ↔ pendingDepth s ws ≠ 0 := by
  unfold pendingWorkspaces pendingDepth
  rw [List.mem_dedup, List.mem_map, ← Nat.pos_iff_ne_zero, List.countP_pos_iff]
  constructor
  · rintro ⟨a, ha, rfl⟩
    obtain ⟨ha, hpending⟩ := List.mem_filter.mp ha
    exact ⟨a, ha, by rw [hpending, beq_self_eq_true]; rfl⟩
  · rintro ⟨a, ha, hboth⟩
    rw [Bool.and_eq_true, beq_iff_eq] at hboth
    exact ⟨a, List.mem_filter.mpr ⟨ha, hboth.2⟩, hboth.1⟩

/-- No drained workspace is under pressure, and the batch has room for the others, unless their
states are right already. -/
def Covered (cfg : PressureConfig) (batchSize : Nat) (s : PressureDb) : Prop :=
  (∀ ws, pendingDepth s ws = 0 → s.stateOf ws = .normal) ∧
  ((pendingWorkspaces s).length ≤ batchSize ∨
    ∀ ws ∈ pendingWorkspaces s, s.stateOf ws = classOf cfg s ws)

/-- A batch with room for all workspaces returns all of them. -/
theorem Selected.complete {batchSize : Nat} {visited : List WorkspaceId}
    (h : Selected s batchSize visited) (hroom : (pendingWorkspaces s).length ≤ batchSize)
    (hws : ws ∈ pendingWorkspaces s) : ws ∈ visited := by
  have hsub := h.nodup.subperm h.pending
  have hlen : (pendingWorkspaces s).length ≤ visited.length := by
    rw [h.length]
    omega
  exact (hsub.perm_of_length_le hlen).mem_iff.mpr hws

/-- In a batch that is too small, any workspace may be missing. -/
theorem exists_selected_without {batchSize : Nat}
    (hsmall : batchSize < (pendingWorkspaces s).length)
    (hws : ws ∈ pendingWorkspaces s) : ∃ visited, Selected s batchSize visited ∧ ws ∉ visited := by
  have hnodup : (pendingWorkspaces s).Nodup := List.nodup_dedup _
  refine ⟨((pendingWorkspaces s).erase ws).take batchSize, ⟨?_, ?_, ?_⟩, ?_⟩
  · exact (hnodup.erase ws).sublist (List.take_sublist ..)
  · exact fun ws' hmem => List.mem_of_mem_erase (List.mem_of_mem_take hmem)
  · rw [List.length_take, List.length_erase_of_mem hws]
    omega
  · exact fun hmem => hnodup.not_mem_erase (List.mem_of_mem_take hmem)

/-- **One pass** leaves every state right, whatever the query returns, exactly if the state before
it is covered. -/
theorem pass_accurate_iff (cfg : PressureConfig) (s : PressureDb) (batchSize : Nat) :
    (∀ visited : List (WorkspaceId × Instant), Selected s batchSize (visited.map Prod.fst) →
      Accurate cfg (evaluateAllActiveWorkspaces cfg visited s).1) ↔ Covered cfg batchSize s := by
  -- a workspace that is not visited has to be right before
  have hright : ∀ (visited : List (WorkspaceId × Instant)) (ws : WorkspaceId),
      (evaluateAllActiveWorkspaces cfg visited s).1.stateOf ws
          = classOf cfg (evaluateAllActiveWorkspaces cfg visited s).1 ws ↔
        ws ∈ visited.map Prod.fst ∨ s.stateOf ws = classOf cfg s ws := by
    intro visited ws
    obtain ⟨hassignments, hstates⟩ := evaluateAll_spec cfg visited s
    rw [hstates ws, classOf_congr hassignments]
    by_cases hmem : ws ∈ visited.map Prod.fst
    · rw [if_pos hmem]
      exact iff_of_true rfl (.inl hmem)
    · rw [if_neg hmem]
      exact ⟨.inr, fun h => h.resolve_left hmem⟩
  have htimed : ∀ visited : List WorkspaceId,
      (visited.map fun ws => (ws, (0 : Instant))).map Prod.fst = visited := by
    intro visited
    rw [List.map_map]
    exact List.map_id _
  constructor
  · intro hall
    have haccurate : ∀ visited : List WorkspaceId, Selected s batchSize visited →
        Accurate cfg (evaluateAllActiveWorkspaces cfg (visited.map fun ws => (ws, 0)) s).1 := by
      intro visited hselected
      apply hall
      rw [htimed]
      exact hselected
    refine ⟨fun ws hempty => ?_, ?_⟩
    · -- a drained workspace is not visited
      have hselected : Selected s batchSize ((pendingWorkspaces s).take batchSize) :=
        ⟨(List.nodup_dedup _).sublist (List.take_sublist ..), fun _ => List.mem_of_mem_take,
          List.length_take⟩
      rcases (hright _ ws).mp (haccurate _ hselected ws) with hmem | hstate
      · rw [htimed] at hmem
        exact absurd hempty (mem_pendingWorkspaces.mp (List.mem_of_mem_take hmem))
      · rw [hstate, classOf_empty cfg hempty]
    · by_cases hroom : (pendingWorkspaces s).length ≤ batchSize
      · exact .inl hroom
      · refine .inr fun ws hws => ?_
        obtain ⟨visited, hselected, hmissing⟩ :=
          exists_selected_without (Nat.lt_of_not_le hroom) hws
        rcases (hright _ ws).mp (haccurate _ hselected ws) with hmem | hstate
        · rw [htimed] at hmem
          exact absurd hmem hmissing
        · exact hstate
  · rintro ⟨hdrained, hroom⟩ visited hselected ws
    rw [hright]
    by_cases hempty : pendingDepth s ws = 0
    · right
      rw [hdrained ws hempty, classOf_empty cfg hempty]
    · have hws := mem_pendingWorkspaces.mpr hempty
      rcases hroom with hroom | hstates
      · exact .inl (hselected.complete hroom hws)
      · exact .inr (hstates ws hws)

/-! ## Histories -/

/-- The condition on a pass. -/
def CoveredPass (cfg : PressureConfig) (s : PressureDb) : QueueOp → Prop
  | .evaluate batchSize _ => Covered cfg batchSize s
  | _ => True

/-- What the log of passes holds: the database after each. -/
def afterPass (cfg : PressureConfig) (s : PressureDb) (o : QueueOp) : List PressureDb :=
  match o with
  | .evaluate .. => [queueExec cfg s o]
  | _ => []

/-- Only a pass writes the state and the outbox. -/
theorem queueExec_frame (cfg : PressureConfig) (s : PressureDb) {o : QueueOp}
    (ho : afterPass cfg s o = []) :
    (queueExec cfg s o).rows = s.rows ∧ (queueExec cfg s o).outbox = s.outbox := by
  cases o with
  | enqueue a => exact ⟨rfl, rfl⟩
  | setStatus aid status => exact ⟨rfl, rfl⟩
  | evaluate batchSize visited => cases ho

/-- A drained workspace whose state is right has its full allowance. -/
theorem full_allowance (haccurate : Accurate cfg s) (hempty : pendingDepth s ws = 0)
    (configured : Int) : effectiveSchedulerTickLimit s ws configured = configured := by
  have hnormal : s.stateOf ws = .normal := (haccurate ws).trans (classOf_empty cfg hempty)
  unfold effectiveSchedulerTickLimit
  refine if_neg fun hthrottled => ?_
  unfold PressureDb.stateOf at hnormal
  rw [hthrottled] at hnormal
  cases hnormal

/-- The events of a workspace are the changes of its state from pass to pass, and its state is the
one after the last pass. -/
theorem events_are_changes {p : PressureDb × List PressureDb}
    (h : ((queuePressure cfg).logged (afterPass cfg)).Reachable p) (ws : WorkspaceId) :
    p.1.stateOf ws = (p.2.map fun t => t.stateOf ws).getLastD .normal ∧
    reports p.1 ws = (changes .normal (p.2.map fun t => t.stateOf ws)).map reportOf := by
  refine h.invariant (I := fun p : PressureDb × List PressureDb =>
    p.1.stateOf ws = (p.2.map fun t => t.stateOf ws).getLastD .normal ∧
    reports p.1 ws = (changes .normal (p.2.map fun t => t.stateOf ws)).map reportOf) ?_ ?_
  · rintro ⟨s, log⟩ ⟨⟨hrows, houtbox⟩, hlog⟩
    simp only at hrows houtbox hlog
    subst hlog
    refine ⟨?_, ?_⟩
    · simp [PressureDb.stateOf, PressureDb.row, hrows]
    · simp [reports, houtbox, changes]
  · rintro ⟨s, log⟩ o ⟨hstate, hreports⟩ _
    simp only at hstate hreports
    show (queueExec cfg s o).stateOf ws = ((log ++ afterPass cfg s o).map _).getLastD _ ∧
      reports (queueExec cfg s o) ws = (changes _ ((log ++ afterPass cfg s o).map _)).map reportOf
    cases o with
    | evaluate batchSize visited =>
        have hreport := reports_evaluateAll ws cfg visited s
        have hlog : (log ++ afterPass cfg s (.evaluate batchSize visited)).map
            (fun t => t.stateOf ws)
            = log.map (fun t => t.stateOf ws)
              ++ [(evaluateAllActiveWorkspaces cfg visited s).1.stateOf ws] := List.map_append
        rw [hlog]
        refine ⟨List.getLastD_concat.symm, ?_⟩
        show reports (evaluateAllActiveWorkspaces cfg visited s).1 ws = _
        rw [hreport, changes_concat, List.map_append, hreports, hstate]
        congr 1
        unfold reportBetween
        split <;> rfl
    | enqueue a =>
        rw [show afterPass cfg s (.enqueue a) = [] from rfl, List.append_nil]
        exact ⟨hstate, hreports⟩
    | setStatus aid status =>
        rw [show afterPass cfg s (.setStatus aid status) = [] from rfl, List.append_nil]
        exact ⟨hstate, hreports⟩

/-- **Which histories keep the states right.** One pass does exactly if the state before it is
covered. In every history whose passes all meet this, every workspace's state is right after each
pass, and a drained workspace has its full allowance. In every history at all, the outbox reports
exactly the changes of a workspace's state from pass to pass. -/
theorem pressure_over_histories (cfg : PressureConfig) :
    (∀ s batchSize, (∀ visited : List (WorkspaceId × Instant),
        Selected s batchSize (visited.map Prod.fst) →
          Accurate cfg (evaluateAllActiveWorkspaces cfg visited s).1) ↔ Covered cfg batchSize s) ∧
    (∀ p, (((queuePressure cfg).restrict (CoveredPass cfg)).logged (afterPass cfg)).Reachable p →
      ∀ t ∈ p.2, Accurate cfg t ∧ ∀ ws configured, pendingDepth t ws = 0 →
        effectiveSchedulerTickLimit t ws configured = configured) ∧
    ∀ p, ((queuePressure cfg).logged (afterPass cfg)).Reachable p → ∀ ws,
      reports p.1 ws = (changes .normal (p.2.map fun t => t.stateOf ws)).map reportOf := by
  refine ⟨pass_accurate_iff cfg, fun p hp => ?_, fun p hp ws => (events_are_changes hp ws).2⟩
  refine hp.invariant (I := fun p : PressureDb × List PressureDb =>
    ∀ t ∈ p.2, Accurate cfg t ∧ ∀ ws configured, pendingDepth t ws = 0 →
      effectiveSchedulerTickLimit t ws configured = configured) ?_ ?_
  · rintro ⟨s, log⟩ ⟨_, hlog⟩ t ht
    simp only at hlog ht
    rw [hlog] at ht
    cases ht
  · rintro ⟨s, log⟩ o hlog ⟨hallowed, hcovered⟩ t ht
    rcases List.mem_append.mp ht with hold | hnew
    · exact hlog t hold
    · -- only a pass is logged
      cases o with
      | enqueue a => cases hnew
      | setStatus aid status => cases hnew
      | evaluate batchSize visited =>
          rw [List.mem_singleton.mp hnew]
          have haccurate := (pass_accurate_iff cfg s batchSize).mpr hcovered visited hallowed
          exact ⟨haccurate, fun ws configured hempty => full_allowance haccurate hempty configured⟩

/-- The scheduler's allowance is the effective one. -/
theorem fairnessLimit_eq_effective (config : Config) (db : Db) (s : PressureDb)
    (hrows : db.backpressure = s.rows.map fun row => (row.workspaceId, row.state))
    (ws : WorkspaceId) :
    fairnessLimit config db ws = effectiveSchedulerTickLimit s ws
      (match config.concurrencyLimit ws with
      | some limit => limit.maxPerSchedulerTick
      | none => 5) := by
  have hlookup : db.backpressure.lookup ws = (s.row ws).map WorkspaceBackpressureState.state := by
    rw [hrows]
    unfold PressureDb.row
    induction s.rows with
    | nil => rfl
    | cons row rest ih =>
        rw [List.map_cons, List.lookup_cons, List.find?_cons]
        by_cases heq : row.workspaceId = ws
        · simp [heq]
        · have hne : (row.workspaceId == ws) = false := beq_eq_false_iff_ne.mpr heq
          have hne' : (ws == row.workspaceId) = false := beq_eq_false_iff_ne.mpr (Ne.symm heq)
          rw [hne, hne']
          exact ih
  unfold fairnessLimit effectiveSchedulerTickLimit
  cases config.concurrencyLimit ws with
  | none => simp only [hlookup]
  | some limit => simp only [hlookup]

/-! ## A queue that drains between two passes -/

/-- One pending assignment throttles. -/
def strictLimits : PressureConfig where
  limit := fun _ => some ⟨1, 1, le_rfl⟩

/-- An assignment waits for a pass, is handed out, and a second pass is made. -/
def drainedOps : List QueueOp :=
  [.enqueue (waitingAssignment 0 0 0), .evaluate 100 [(0, 1)], .setStatus 0 .dispatched,
    .evaluate 100 []]

/-- The second pass does not visit the workspace, whose queue is empty by then: it stays throttled,
and its allowance halved. -/
theorem drained_stays_throttled :
    ∃ p, ((queuePressure strictLimits).logged (afterPass strictLimits)).Reachable p ∧
      ∃ t ∈ p.2, pendingDepth t 0 = 0 ∧ classOf strictLimits t 0 = .normal ∧
        t.stateOf 0 = .throttled ∧ effectiveSchedulerTickLimit t 0 4 = 2 := by
  have hrun := System.Reachable.of_legal
    (S := (queuePressure strictLimits).logged (afterPass strictLimits)) (s := ({}, [])) drainedOps
    (.init ⟨⟨rfl, rfl⟩, rfl⟩)
    ⟨trivial, ⟨by decide, by decide, by decide⟩, trivial,
      ⟨by decide, by decide, by decide⟩, trivial⟩
  exact ⟨_, hrun, _, List.mem_cons_of_mem _ List.mem_cons_self, by decide, by decide, by decide,
    by decide⟩

/-- The second pass is made with another assignment waiting. -/
def refilledOps : List QueueOp :=
  [.enqueue (waitingAssignment 0 0 0), .evaluate 100 [(0, 1)], .setStatus 0 .dispatched,
   .enqueue (waitingAssignment 0 1 2), .evaluate 100 [(0, 3)]]

/-- A queue that is not empty at the second pass is seen. -/
theorem refilled_queue_seen :
    Accurate strictLimits (refilledOps.foldl (queueExec strictLimits) {}) := by
  have hfirst : Covered strictLimits 100 ((refilledOps.take 1).foldl (queueExec strictLimits) {}) :=
    ⟨fun ws _ => rfl, .inl (by decide)⟩
  have hsecond : Covered strictLimits 100
      ((refilledOps.take 4).foldl (queueExec strictLimits) {}) := by
    refine ⟨fun ws hempty => ?_, .inl (by decide)⟩
    by_cases hws : 0 = ws
    · rw [← hws] at hempty
      exact absurd hempty (by decide)
    · have hne : (0 == ws) = false := beq_eq_false_iff_ne.mpr hws
      show ((([_] : List WorkspaceBackpressureState).find? fun row => row.workspaceId == ws).map
        WorkspaceBackpressureState.state).getD .normal = .normal
      rw [List.find?_cons, hne]
      rfl
  have hrun := System.Reachable.of_legal
    (S := ((queuePressure strictLimits).restrict (CoveredPass strictLimits)).logged
      (afterPass strictLimits)) (s := ({}, [])) refilledOps (.init ⟨⟨rfl, rfl⟩, rfl⟩)
    ⟨⟨trivial, trivial⟩, ⟨⟨by decide, by decide, by decide⟩, hfirst⟩, ⟨trivial, trivial⟩,
      ⟨trivial, trivial⟩, ⟨⟨by decide, by decide, by decide⟩, hsecond⟩, trivial⟩
  exact ((pressure_over_histories strictLimits).2.1 _ hrun _
    (List.mem_cons_of_mem _ List.mem_cons_self)).1

end HumanGate
