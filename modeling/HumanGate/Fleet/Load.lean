import HumanGate.Fleet.Reaping
import HumanGate.Model.Desk

set_option autoImplicit false

/-! # Worker load

`current_load` counts the assignments a worker holds (`Crew.Balanced`). Dispatches, claims,
submissions, recoveries and the reapers keep the count. Four places do not: `cancel_run` and the
retry exhaustion of `process_leased_job` cancel assignments that are in flight and leave their
slots taken; an acknowledgement without a worker brings a closed assignment back in flight; and
the requests that set a load to zero after reaping reap nothing with a batch size of zero, or,
for `emergency_stop`, only what the administrator's session may update.

`load_conserved` is exact: an operation that is carried out keeps the count if and only if it
does none of this to an assignment of a registered worker.
-/

namespace HumanGate

open Lib Lib.Calendar Relation

variable {cfg : Config} {now : Instant}

/-- Every registered worker's load is the number of assignments it holds. -/
def Crew.Balanced (c : Crew) : Prop :=
  ∀ wid w, c.workers[wid]? = some w → w.currentLoad = c.held wid

/-! ## Moves that keep the count -/

theorem SlotMove.balanced {max : Nat} {k : MoveKind} {p p' : Slots} (h : SlotMove max k p p')
    (hcancel : k ≠ .cancel) (hconfirm : k ≠ .confirm) (hp : p.load = p.held) :
    p'.load = p'.held := by
  cases h with
  | same => exact hp
  | take _ => exact congrArg (· + 1) hp
  | free hheld => simp only; omega
  | lose hk _ => exact absurd hk hcancel
  | gain hk => exact absurd hk hconfirm

/-- The kinds of moves that keep the count. -/
def MoveKind.countsSlots (k : MoveKind) : Bool :=
  decide (k ∉ [.cancel, .confirm, .staff])

theorem Move.balanced {k : MoveKind} {c c' : Crew} (h : Move cfg now k c c')
    (hk : k.countsSlots = true) (hc : c.Balanced) : c'.Balanced := by
  intro wid w' hw'
  have hk' : k ∉ [MoveKind.cancel, .confirm, .staff] := of_decide_eq_true hk
  simp only [List.mem_cons, List.not_mem_nil, or_false, not_or] at hk'
  obtain ⟨hcancel, hconfirm, hstaff⟩ := hk'
  have hlt : wid < c.workers.length := by
    rw [← h.workers_length]
    exact (List.getElem?_eq_some_iff.mp hw').1
  obtain ⟨w₁, hw₁, _, hslots⟩ := h.slots hstaff (List.getElem?_eq_getElem hlt)
  rw [hw'] at hw₁
  cases hw₁
  exact hslots.balanced hcancel hconfirm (hc wid _ (List.getElem?_eq_getElem hlt))

theorem Moves.balanced {kinds : List MoveKind} {c c' : Crew} (h : Moves cfg now kinds c c')
    (hkinds : kinds.all MoveKind.countsSlots = true) (hc : c.Balanced) : c'.Balanced :=
  h.invariant (fun k hk _ _ hm => hm.balanced (List.all_eq_true.mp hkinds k hk)) hc

/-! ## Counting by rows -/

theorem held_eq_zero {c : Crew} {wid : WorkerId} :
    c.held wid = 0 ↔ ∀ (aid : AssignmentId) (a : StageAssignment),
      c.assignments[aid]? = some a → a.heldBy wid = false := by
  unfold Crew.held
  rw [List.countP_eq_zero]
  constructor
  · intro h aid a ha
    exact Bool.eq_false_iff.mpr (h a (Table.mem_of_get ha))
  · intro h a ha
    obtain ⟨aid, haid⟩ := List.getElem?_of_mem ha
    rw [h aid a haid]
    exact Bool.false_ne_true

/-- Rows that are held as before are as many as before. -/
theorem held_congr {c c' : Crew} {wid : WorkerId}
    (hlen : c'.assignments.length = c.assignments.length)
    (h : ∀ (aid : AssignmentId) (a : StageAssignment), c.assignments[aid]? = some a →
      ∃ a', c'.assignments[aid]? = some a' ∧ a'.heldBy wid = a.heldBy wid) :
    c'.held wid = c.held wid := by
  have hmap : c'.assignments.map (StageAssignment.heldBy wid)
      = c.assignments.map (StageAssignment.heldBy wid) := by
    refine List.ext_getElem? fun aid => ?_
    rw [List.getElem?_map, List.getElem?_map]
    by_cases hlt : aid < c.assignments.length
    · obtain ⟨a', ha', heq⟩ := h aid _ (List.getElem?_eq_getElem hlt)
      rw [ha', List.getElem?_eq_getElem hlt]
      exact congrArg some heq
    · rw [List.getElem?_eq_none (by omega), List.getElem?_eq_none (by omega)]
  unfold Crew.held
  have hcount : ∀ l : List StageAssignment, l.countP (StageAssignment.heldBy wid)
      = (l.map (StageAssignment.heldBy wid)).countP id := by
    intro l
    rw [List.countP_map]
    rfl
  rw [hcount, hcount, hmap]

/-! ## Cancellations -/

theorem cancelAssignments_workers (now : Instant) (ids : List AssignmentId) : ∀ s : Db,
    (cancelAssignments s now ids).workers = s.workers := by
  induction ids with
  | nil => intro s; rfl
  | cons aid rest ih => intro s; exact ih _

/-- Cancelling gives no worker anything, and takes something from a worker exactly if one of the
cancelled rows was held by it. -/
theorem cancelAssignments_held (now : Instant) (wid : WorkerId) (ids : List AssignmentId) :
    ∀ s : Db, (cancelAssignments s now ids).crew.held wid ≤ s.crew.held wid ∧
      ((cancelAssignments s now ids).crew.held wid = s.crew.held wid ↔
        ∀ aid ∈ ids, ∀ a, s.assignments[aid]? = some a → a.heldBy wid = false) := by
  induction ids with
  | nil => intro s; exact ⟨le_refl _, by simp [cancelAssignments]⟩
  | cons aid rest ih =>
      intro s
      obtain ⟨hle, hiff⟩ := ih (s.updateAssignment now aid StageAssignment.cancel)
      have hout : ∀ a : StageAssignment, a.cancel.heldBy wid = false := fun a => by
        simp [StageAssignment.heldBy, StageAssignment.cancel, StageAssignmentStatus.inFlight]
      by_cases hheld : ∃ a, s.assignments[aid]? = some a ∧ a.heldBy wid = true
      · -- the first row was held: one less from here on
        obtain ⟨a, ha, hheld⟩ := hheld
        have hfirst : (s.updateAssignment now aid StageAssignment.cancel).crew.held wid + 1
            = s.crew.held wid := by
          have hcount : (s.crew.update now aid StageAssignment.cancel).held wid + _ = _ :=
            held_update ha StageAssignment.cancel wid
          rw [hheld, hout a] at hcount
          simpa using hcount
        have hless : (cancelAssignments s now (aid :: rest)).crew.held wid < s.crew.held wid := by
          have := hle.trans_lt (Nat.lt_succ_self _)
          rw [Nat.succ_eq_add_one, hfirst] at this
          exact this
        refine ⟨hless.le, ⟨fun heq => absurd heq (Nat.ne_of_lt hless), fun hnone => ?_⟩⟩
        rw [hnone aid List.mem_cons_self a ha] at hheld
        cases hheld
      · push Not at hheld
        have hfirst : (s.updateAssignment now aid StageAssignment.cancel).crew.held wid
            = s.crew.held wid := by
          rw [crew_updateAssignment]
          refine held_update_same fun a ha => ?_
          rw [hout a]
          exact (Bool.eq_false_iff.mpr (hheld a ha)).symm
        rw [hfirst] at hle hiff
        refine ⟨hle, hiff.trans ⟨fun hrest aid' hmem a ha => ?_, fun hall aid' hmem a ha => ?_⟩⟩
        · rcases List.mem_cons.mp hmem with rfl | hmem
          · exact Bool.eq_false_iff.mpr (hheld a ha)
          · by_cases heq : aid' = aid
            · subst heq
              exact Bool.eq_false_iff.mpr (hheld a ha)
            · exact hrest aid' hmem a ((Table.get_modify_ne (Ne.symm heq)).trans ha)
        · obtain ⟨b, hb, ⟨_, heq⟩ | ⟨_, heq⟩⟩ := Table.get_modify ha
          · rw [heq]
            exact hout b
          · rw [heq]
            exact hall aid' (List.mem_cons_of_mem _ hmem) b hb

/-- The assignment is in the hands of a registered worker. -/
def Db.InHands (s : Db) (a : StageAssignment) : Prop :=
  ∃ wid w, s.workers[wid]? = some w ∧ a.heldBy wid = true

/-- Cancelling keeps the count exactly if no cancelled row was in somebody's hands. -/
theorem cancelAssignments_balanced {s : Db} (hs : s.crew.Balanced) (ids : List AssignmentId) :
    (cancelAssignments s now ids).crew.Balanced ↔
      ∀ aid ∈ ids, ∀ a, s.assignments[aid]? = some a → ¬ s.InHands a := by
  have hworkers : (cancelAssignments s now ids).crew.workers = s.workers :=
    cancelAssignments_workers now ids s
  constructor
  · rintro hb aid hmem a ha ⟨wid, w, hw, hheld⟩
    have hsame := (hb wid w (by rw [hworkers]; exact hw)).symm.trans (hs wid w hw)
    rw [(cancelAssignments_held now wid ids s).2.mp hsame aid hmem a ha] at hheld
    cases hheld
  · intro hnone wid w hw
    rw [hworkers] at hw
    rw [hs wid w hw]
    refine ((cancelAssignments_held now wid ids s).2.mpr fun aid hmem a ha => ?_).symm
    exact Bool.eq_false_iff.mpr fun hheld => hnone aid hmem a ha ⟨wid, w, hw, hheld⟩

/-! ## What is cancelled -/

/-- The assignments that `cancel_run` cancels. -/
def cancelledByRun (s : Db) (rid : RunId) : List AssignmentId :=
  if (s.runs[rid]?).any fun run => !run.status.isTerminal then openAssignments s rid else []

/-- The run and the stage of a work job whose retries end now: its workspace has no room, and
this was the last retry. -/
def exhaustedWork (cfg : Config) (s : Db) (jid : JobId) : Option (RunId × ContentStage) :=
  (s.jobs[jid]?).bind fun job => job.worksFor.bind fun rid =>
    if maxConcurrentAssignments cfg job.workspaceId ≤ inFlightCount s job.workspaceId ∧
        noWorkerMaxRetries ≤ job.attempt + 1 ∧ (s.runs[rid]?).isSome then
      (ContentStage.ofText? job.refTable).map fun stage => (rid, stage)
    else none

/-- The assignments that `process_leased_job` cancels. -/
def cancelledByJob (cfg : Config) (s : Db) (jid : JobId) : List AssignmentId :=
  match exhaustedWork cfg s jid with
  | some (rid, stage) => openStageAssignments s rid stage
  | none => []

theorem crew_cancelAssignments_congr (now : Instant) (ids : List AssignmentId) :
    ∀ {s t : Db}, s.crew = t.crew →
      (cancelAssignments s now ids).crew = (cancelAssignments t now ids).crew := by
  induction ids with
  | nil => intro s t h; exact h
  | cons aid rest ih =>
      intro s t h
      refine ih ?_
      rw [crew_updateAssignment, crew_updateAssignment, h]

theorem crew_cancelRun (s : Db) (now : Instant) (rid : RunId) :
    (cancelRun s now rid).crew = (cancelAssignments s now (cancelledByRun s rid)).crew := by
  unfold cancelRun cancelledByRun
  cases hrun : s.runs[rid]? with
  | none => rfl
  | some run =>
      by_cases hterm : run.status.isTerminal = true
      · simp [hterm, cancelAssignments]
      · simp [hterm]

theorem dispatchStage_backpressure {s s' : Db} {args : DispatchArgs} {rows : List WorkerId}
    (h : dispatchStage cfg s now args rows = .ok (s', .backpressure)) :
    s' = s ∧ maxConcurrentAssignments cfg args.workspaceId ≤ inFlightCount s args.workspaceId := by
  by_cases hfull : maxConcurrentAssignments cfg args.workspaceId ≤ inFlightCount s args.workspaceId
  · unfold dispatchStage at h
    rw [if_pos hfull] at h
    cases h
    exact ⟨rfl, hfull⟩
  · unfold dispatchStage at h
    rw [if_neg hfull] at h
    split at h
    · rename_i outcome hrefusal
      cases h
      unfold runRefusal at hrefusal
      split at hrefusal
      · cases hrefusal
      · split_ifs at hrefusal <;> cases hrefusal
    · split at h
      · cases h
      · simp only at h
        unfold assignStage at h
        split at h
        · cases h
        · cases h
        · split at h
          · cases h
          · simp only at h
            split at h
            · cases h
            · cases h

/-- The job's retries end: the open assignments of its stage are cancelled. -/
theorem processLeasedJob_exhausted {s : Db} {jid : JobId} {rid : RunId} {stage : ContentStage}
    (h : exhaustedWork cfg s jid = some (rid, stage)) (rows : List WorkerId) (jitter : Nat) :
    ∃ s', processLeasedJob cfg s now jid rows jitter = .ok s' ∧
      s'.crew = (cancelAssignments s now (openStageAssignments s rid stage)).crew := by
  unfold exhaustedWork at h
  obtain ⟨job, hjob, h⟩ := Option.bind_eq_some_iff.mp h
  obtain ⟨rid', hworks, h⟩ := Option.bind_eq_some_iff.mp h
  split_ifs at h with hcond
  obtain ⟨stage', hstage, heq⟩ := Option.map_eq_some_iff.mp h
  cases heq
  obtain ⟨hfull, hlast, hrun⟩ := hcond
  obtain ⟨run, hrun⟩ := Option.isSome_iff_exists.mp hrun
  have hdispatch : dispatchStage cfg s now (job.dispatchArgs rid) rows
      = .ok (s, .backpressure) := by
    unfold dispatchStage
    exact if_pos hfull
  have hsettle : ∃ s', settleJob s now jid job rid jitter .backpressure = .ok s' ∧
      s'.crew = (cancelAssignments s now (openStageAssignments s rid stage)).crew := by
    show ∃ s', rescheduleJob s now jid job rid jitter = .ok s' ∧ _
    unfold rescheduleJob
    rw [if_pos hlast]
    unfold exhaustJob
    simp only [Db.updateJob, hrun, hstage]
    refine ⟨_, rfl, ?_⟩
    rw [crew_routeToDeadLetter]
    -- the job and the reservations are not part of the crew
    have hcrew : (releaseAllReservations (s.updateJob jid fun j =>
        { j with status := .cancelled, attempt := job.attempt + 1 }) now rid
          run.workspaceId).crew = s.crew := by
      rw [crew_releaseAllReservations]
      rfl
    have hopen := congrArg (fun c => Table.select (fun a => a.pipelineRunId == rid
      && a.stage == stage && a.status.isOpen) c.assignments) hcrew
    refine (crew_cancelAssignments_congr now _ hcrew).trans ?_
    exact congrArg (fun ids => (cancelAssignments s now ids).crew) hopen
  obtain ⟨s', hsettled, hcrew⟩ := hsettle
  refine ⟨s', ?_, hcrew⟩
  have hwork : processWorkJob cfg s now jid job rid rows jitter = .ok (s', .backpressure) := by
    unfold processWorkJob
    simp only [hdispatch, hsettled]
  unfold JobSchedule.worksFor at hworks
  split at hworks
  · rename_i rid' href
    split_ifs at hworks with hwork'
    cases hworks
    unfold JobSchedule.isWork at hwork'
    rw [Bool.or_eq_true, beq_iff_eq, beq_iff_eq] at hwork'
    unfold processLeasedJob
    rcases hwork' with htype | htype
    · simp [hjob, htype, href, hwork, Except.map]
    · simp [hjob, htype, href, hwork, Except.map]
  · cases hworks

/-- Otherwise nothing is cancelled. -/
theorem processLeasedJob_not_exhausted {s s' : Db} {jid : JobId} {rows : List WorkerId}
    {jitter : Nat} (h : processLeasedJob cfg s now jid rows jitter = .ok s')
    (hnot : exhaustedWork cfg s jid = none) : Moves cfg now [.queue, .assign] s.crew s'.crew := by
  rcases processLeasedJob_work h with ⟨job, rid, outcome, hjob, hworks, hp⟩ | hcrew
  · unfold processWorkJob at hp
    split at hp
    · cases hp
    · rename_i s1 out hdispatch
      have hfirst := dispatchStage_moves hdispatch
      split at hp
      · cases hp
      · rename_i s2 hsettle
        cases hp
        cases hout : outcome with
        | backpressure =>
            rw [hout] at hdispatch hsettle
            obtain ⟨rfl, hfull⟩ := dispatchStage_backpressure hdispatch
            change rescheduleJob s1 now jid job rid jitter = .ok s' at hsettle
            unfold rescheduleJob at hsettle
            split at hsettle
            · rename_i hlast
              unfold exhaustJob at hsettle
              simp only [Db.updateJob] at hsettle
              split at hsettle
              · cases hsettle
                exact .refl
              · rename_i run hrun
                split at hsettle
                · cases hsettle
                · rename_i stage hstage
                  -- this is the job that is given up, which was excluded
                  have hsome : exhaustedWork cfg s1 jid = some (rid, stage) := by
                    unfold exhaustedWork
                    simp only [hjob, hworks, Option.bind_some]
                    rw [if_pos ⟨hfull, hlast, Option.isSome_iff_exists.mpr ⟨run, hrun⟩⟩, hstage]
                    rfl
                  rw [hsome] at hnot
                  cases hnot
            · cases hsettle
              exact .refl
        | _ =>
            rw [hout] at hsettle
            cases hsettle
            exact hfirst
  · rw [hcrew]

/-! ## The transactions of the orchestration -/

/-- A registered worker is named on the assignment, which is not in flight. -/
def Db.Dormant (s : Db) (a : StageAssignment) : Prop :=
  a.status.inFlight = false ∧ ∃ wid w, s.workers[wid]? = some w ∧ a.workerId = some wid

/-- The transaction takes no assignment out of a registered worker's hands, and puts none into
them, without its slot. -/
def Action.KeepsLoad (cfg : Config) (s : Db) : Action → Prop
  | .cancelRun rid =>
      ∀ aid ∈ cancelledByRun s rid, ∀ a, s.assignments[aid]? = some a → ¬ s.InHands a
  | .processLeasedJob jid _ _ =>
      ∀ aid ∈ cancelledByJob cfg s jid, ∀ a, s.assignments[aid]? = some a → ¬ s.InHands a
  | .acknowledge aid _ none => ∀ a, s.assignments[aid]? = some a → ¬ s.Dormant a
  | _ => True

/-- An unchecked acknowledgement keeps the count exactly if the row was not dormant. -/
theorem confirm_balanced {s : Db} (hs : s.crew.Balanced) (aid : AssignmentId) (secs : Nat) :
    (s.updateAssignment now aid (StageAssignment.acknowledge now secs)).crew.Balanced ↔
      ∀ a, s.assignments[aid]? = some a → ¬ s.Dormant a := by
  rw [crew_updateAssignment]
  have hin : ∀ (a : StageAssignment) wid, (a.acknowledge now secs).heldBy wid = true ↔
      a.workerId = some wid := by
    intro a wid
    rw [heldBy_iff]
    exact and_iff_left rfl
  constructor
  · rintro hb a ha ⟨hidle, wid, w, hw, hwid⟩
    have hsame := (hb wid w hw).symm.trans (hs wid w hw)
    have hcount : (s.crew.update now aid (StageAssignment.acknowledge now secs)).held wid + _ = _ :=
      held_update ha (StageAssignment.acknowledge now secs) wid
    have hout : a.heldBy wid = false := by
      unfold StageAssignment.heldBy
      rw [hidle, Bool.and_false]
    rw [hout, if_pos ((hin a wid).mpr hwid), hsame] at hcount
    simp at hcount
  · intro hnone wid w hw
    rw [hs wid w hw]
    refine (held_update_same fun a ha => ?_).symm
    rw [Bool.eq_iff_iff, hin a wid, heldBy_iff]
    refine ⟨fun hwid => ⟨hwid, ?_⟩, fun h => h.1⟩
    by_contra hidle
    exact hnone a ha ⟨by simpa using hidle, wid, w, hw, hwid⟩

theorem processLeasedJob_balanced {s : Db} (hs : s.crew.Balanced) (jid : JobId)
    (rows : List WorkerId) (jitter : Nat) :
    (exec cfg s ⟨now, .processLeasedJob jid rows jitter⟩).crew.Balanced ↔
      ∀ aid ∈ cancelledByJob cfg s jid, ∀ a, s.assignments[aid]? = some a → ¬ s.InHands a := by
  cases hwork : exhaustedWork cfg s jid with
  | some work =>
      have hids : cancelledByJob cfg s jid = openStageAssignments s work.1 work.2 := by
        unfold cancelledByJob
        rw [hwork]
      have hjob : ∃ s', processLeasedJob cfg s now jid rows jitter = .ok s' ∧ _ :=
        processLeasedJob_exhausted hwork rows jitter
      obtain ⟨s', hok, hcrew⟩ := hjob
      have hexec : (exec cfg s ⟨now, .processLeasedJob jid rows jitter⟩).crew = s'.crew := by
        simp [exec, Op.call, hok, Call.ofExcept, Call.commit]
      rw [hexec, hcrew, hids]
      exact cancelAssignments_balanced hs _
  | none =>
      have hids : cancelledByJob cfg s jid = [] := by
        unfold cancelledByJob
        rw [hwork]
      rw [hids]
      refine iff_of_true ?_ (by simp)
      generalize hexec : exec cfg s ⟨now, .processLeasedJob jid rows jitter⟩ = t
      rcases commit_ofExcept hexec with rfl | ⟨s', hok, rfl⟩
      · exact hs
      · rw [crew_flush]
        exact (processLeasedJob_not_exhausted hok hwork).balanced rfl hs

theorem acknowledge_balanced {s : Db} (hs : s.crew.Balanced) (aid : AssignmentId)
    (secs : Option Nat) :
    (exec cfg s ⟨now, .acknowledge aid secs none⟩).crew.Balanced ↔
      ∀ a, s.assignments[aid]? = some a → ¬ s.Dormant a := by
  cases ha : s.assignments[aid]? with
  | none =>
      have hexec : exec cfg s ⟨now, .acknowledge aid secs none⟩ = s := by
        simp [exec, Op.call, acknowledge, ha, Call.ofExcept, Call.commit]
      rw [hexec]
      exact iff_of_true hs (by simp)
  | some a =>
      have hexec : (exec cfg s ⟨now, .acknowledge aid secs none⟩).crew
          = (s.updateAssignment now aid (StageAssignment.acknowledge now
            (secs.getD cfg.settings.assignmentLeaseSeconds))).crew := by
        simp [exec, Op.call, acknowledge, ha, Call.ofExcept, Call.commit]
      rw [hexec, ← ha]
      exact confirm_balanced hs aid _

/-- **The transactions**: the count is kept exactly if `KeepsLoad`. -/
theorem exec_balanced {s : Db} (hs : s.crew.Balanced) (o : Op) :
    (exec cfg s o).crew.Balanced ↔ o.action.KeepsLoad cfg s := by
  obtain ⟨now, action⟩ := o
  have hmoves := exec_moves cfg s ⟨now, action⟩
  cases action with
  | cancelRun rid =>
      show (cancelRun s now rid).flush.crew.Balanced ↔ _
      rw [crew_flush, crew_cancelRun]
      exact cancelAssignments_balanced hs _
  | processLeasedJob jid rows jitter => exact processLeasedJob_balanced hs jid rows jitter
  | acknowledge aid secs worker =>
      cases worker with
      | some wid => exact iff_of_true (hmoves.balanced rfl hs) trivial
      | none => exact acknowledge_balanced hs aid secs
  | _ => exact iff_of_true (hmoves.balanced rfl hs) trivial

/-! ## The requests that reset loads -/

/-- The loads of some workers are set to zero after what the scan returns of their assignments is
reaped. -/
structure ResetLoads (cfg : Config) (rows : List AssignmentId) (wids : List WorkerId)
    (f f' : Fleet) : Prop where
  row : ∀ aid a, f.row aid = some a → ∃ a', f'.row aid = some a' ∧
    (((∃ wid ∈ wids, Reaps cfg wid rows aid a) ∧ a'.status.inFlight = false) ∨
      ((¬ ∃ wid ∈ wids, Reaps cfg wid rows aid a) ∧ a' = a))
  length : f'.db.assignments.length = f.db.assignments.length
  others : ∀ wid ∉ wids, f'.db.workers[wid]? = f.db.workers[wid]?
  load : ∀ wid ∈ wids, ∀ w, f'.db.workers[wid]? = some w → w.currentLoad = 0

/-- Everything the worker holds is reaped. -/
def Cleared (cfg : Config) (f : Fleet) (rows : List AssignmentId) (wid : WorkerId) : Prop :=
  ∀ aid a, f.row aid = some a → a.heldBy wid = true → Reaps cfg wid rows aid a

theorem not_heldBy {wid : WorkerId} {a : StageAssignment} (h : a.status.inFlight = false) :
    a.heldBy wid = false := by
  unfold StageAssignment.heldBy
  rw [h, Bool.and_false]

/-- An assignment has one holder. -/
theorem heldBy_unique {wid wid' : WorkerId} {a : StageAssignment} (h : a.heldBy wid = true)
    (h' : a.heldBy wid' = true) : wid = wid' := by
  have hw := (heldBy_iff.mp h).1
  rw [(heldBy_iff.mp h').1] at hw
  exact (Option.some.inj hw).symm

/-- One worker. -/
theorem ResetLoads.one {f f' : Fleet} {wid : WorkerId} {reason : RecoveryReason}
    {rows : List AssignmentId} (h : reapHoldings cfg f now wid reason rows = .ok f')
    (g : WorkerRegistration → WorkerRegistration) (hg : ∀ w, (g w).currentLoad = 0) :
    ResetLoads cfg rows [wid] f (f'.updateWorker wid g) := by
  obtain ⟨hrow, hlen, hothers⟩ := reapHoldings_reaped h
  constructor
  · intro aid a ha
    obtain ⟨a', ha', hcase⟩ := hrow aid a ha
    refine ⟨a', ha', ?_⟩
    simpa using hcase
  · exact hlen
  · intro wid' hmem
    have hne : wid' ≠ wid := by simpa using hmem
    exact (Table.get_modify_ne (Ne.symm hne)).trans (hothers wid' hne)
  · intro wid' hmem w hw
    obtain rfl : wid' = wid := by simpa using hmem
    obtain ⟨w₀, _, ⟨_, rfl⟩ | ⟨hne, _⟩⟩ := Table.get_modify hw
    · exact hg w₀
    · exact absurd rfl hne

/-- No worker. -/
theorem ResetLoads.refl (rows : List AssignmentId) (f : Fleet) : ResetLoads cfg rows [] f f where
  row _ a ha := ⟨a, ha, .inr ⟨by simp, rfl⟩⟩
  length := rfl
  others _ _ := rfl
  load _ hmem := by cases hmem

/-- One worker after the other. -/
theorem ResetLoads.cons {f f' f'' : Fleet} {wid : WorkerId} {wids : List WorkerId}
    {rows : List AssignmentId} (h : ResetLoads cfg rows [wid] f f')
    (h' : ResetLoads cfg rows wids f' f'') : ResetLoads cfg rows (wid :: wids) f f'' := by
  constructor
  · intro aid a ha
    obtain ⟨a₁, ha₁, hcase₁⟩ := h.row aid a ha
    obtain ⟨a', ha', hcase⟩ := h'.row aid a₁ ha₁
    refine ⟨a', ha', ?_⟩
    rcases hcase₁ with ⟨⟨wid₁, hmem, hreap⟩, hout⟩ | ⟨hnot, rfl⟩
    · left
      refine ⟨⟨wid₁, List.mem_cons.mpr (.inl (by simpa using hmem)), hreap⟩, ?_⟩
      rcases hcase with ⟨_, hout'⟩ | ⟨_, rfl⟩
      · exact hout'
      · exact hout
    · rcases hcase with ⟨⟨wid₁, hmem, hreap⟩, hout⟩ | ⟨hnot', rfl⟩
      · exact .inl ⟨⟨wid₁, List.mem_cons_of_mem _ hmem, hreap⟩, hout⟩
      · right
        refine ⟨?_, rfl⟩
        rintro ⟨wid₁, hmem, hreap⟩
        rcases List.mem_cons.mp hmem with rfl | hmem
        · exact hnot ⟨wid₁, List.mem_singleton_self _, hreap⟩
        · exact hnot' ⟨wid₁, hmem, hreap⟩
  · exact h'.length.trans h.length
  · intro wid' hmem
    rw [List.mem_cons, not_or] at hmem
    exact (h'.others wid' hmem.2).trans (h.others wid' (by simpa using hmem.1))
  · intro wid' hmem w hw
    by_cases hrest : wid' ∈ wids
    · exact h'.load wid' hrest w hw
    · have heq : wid' = wid := (List.mem_cons.mp hmem).resolve_right hrest
      rw [h'.others wid' hrest] at hw
      exact h.load wid' (by simp [heq]) w hw

/-- **Resetting loads keeps the count exactly if everything was reaped.** -/
theorem ResetLoads.balanced {f f' : Fleet} {wids : List WorkerId} {rows : List AssignmentId}
    (h : ResetLoads cfg rows wids f f') (hf : f.db.crew.Balanced)
    (hreg : ∀ wid ∈ wids, wid < f'.db.workers.length) :
    f'.db.crew.Balanced ↔ ∀ wid ∈ wids, Cleared cfg f rows wid := by
  constructor
  · intro hb wid hmem aid a ha hheld
    have hw : f'.db.crew.workers[wid]? = some (f'.db.workers.get ⟨wid, hreg wid hmem⟩) :=
      List.getElem?_eq_getElem (hreg wid hmem)
    -- a balanced worker whose load was reset holds nothing
    have hzero : f'.db.crew.held wid = 0 := by
      rw [← hb wid _ hw]
      exact h.load wid hmem _ hw
    obtain ⟨a', ha', ⟨⟨wid', _, hreap⟩, _⟩ | ⟨_, rfl⟩⟩ := h.row aid a ha
    · rw [heldBy_unique hheld hreap.1]
      exact hreap
    · rw [held_eq_zero.mp hzero aid a' ha'] at hheld
      cases hheld
  · intro hclear wid w hw
    by_cases hmem : wid ∈ wids
    · rw [h.load wid hmem w hw]
      refine (held_eq_zero.mpr fun aid a' ha' => ?_).symm
      have hlt : aid < f.db.assignments.length := by
        rw [← h.length]
        exact (List.getElem?_eq_some_iff.mp ha').1
      obtain ⟨a'', ha'', hcase⟩ := h.row aid _ (List.getElem?_eq_getElem hlt)
      have heq : a'' = a' := Option.some.inj (ha''.symm.trans ha')
      subst heq
      rcases hcase with ⟨_, hout⟩ | ⟨hnot, hsame⟩
      · exact not_heldBy hout
      · by_contra hheld
        rw [Bool.not_eq_false] at hheld
        rw [hsame] at hheld
        exact hnot ⟨wid, hmem, hclear wid hmem aid _ (List.getElem?_eq_getElem hlt) hheld⟩
    · have hw₀ : f.db.crew.workers[wid]? = some w := (h.others wid hmem).symm.trans hw
      rw [hf wid w hw₀]
      refine (held_congr h.length fun aid a ha => ?_).symm
      obtain ⟨a', ha', hcase⟩ := h.row aid a ha
      refine ⟨a', ha', ?_⟩
      rcases hcase with ⟨⟨wid', hmem', hreap⟩, hout⟩ | ⟨_, rfl⟩
      · rw [not_heldBy hout]
        by_contra hheld
        have hheld' : a.heldBy wid = true := by
          cases hh : a.heldBy wid
          · exact absurd hh.symm hheld
          · rfl
        exact hmem (heldBy_unique hheld' hreap.1 ▸ hmem')
      · rfl

/-- The workers whose load the request sets to zero. -/
def FleetAction.resets (cfg : Config) (f : Fleet) : FleetAction → List WorkerId
  | .register auth payload _ =>
      if payload.protocolVersion ∈ cfg.settings.workerCapabilityProtocolVersions ∧
        (f.db.workers[auth.workerId]?).isSome then [auth.workerId] else []
  | .deregister auth _ =>
      if (f.db.workers[auth.workerId]?).any fun w => w.deregisteredAt.isNone then [auth.workerId]
      else []
  | .revoke ws wid _ =>
      if (f.db.workers[wid]?).any fun w => w.workspaceId == some ws && w.deregisteredAt.isNone
      then [wid] else []
  | .emergencyStop ws _ workers _ => workspaceWorkers f ws workers
  | _ => []

/-- The assignments that the request scans. -/
def FleetAction.scanned (f : Fleet) : FleetAction → List AssignmentId
  | .register _ _ rows | .deregister _ rows | .revoke _ _ rows => rows
  | .emergencyStop ws others _ rows => updatableRows f (ws :: others) rows
  | _ => []

theorem stopEach_resets {ws : WorkspaceId} {rows : List AssignmentId} (wids : List WorkerId) :
    ∀ {f f' : Fleet}, stopEach cfg now ws rows wids f = .ok f' →
      ResetLoads cfg rows wids f f' := by
  induction wids with
  | nil =>
      intro f f' h
      cases h
      exact .refl rows _
  | cons wid rest ih =>
      intro f f' h
      unfold stopEach at h
      simp only at h
      split at h
      · cases h
      · rename_i f1 hreap
        obtain ⟨hrow, hlen, hothers, hload⟩ :=
          ResetLoads.one hreap WorkerRegistration.stop fun _ => rfl
        exact .cons ⟨hrow, hlen, hothers, hload⟩ (ih h)

/-- A request resets loads, or it is made of moves that keep the count. -/
theorem call_resets {f f' : Fleet} {action : FleetAction}
    (h : FleetOp.call cfg f ⟨now, action⟩ = .ok f')
    (hop : ∀ a, action ≠ .op a) (hbeat : ∀ auth status load, action ≠ .heartbeat auth status load) :
    ResetLoads cfg (action.scanned f) (action.resets cfg f) f f' ∨
      (action.resets cfg f = [] ∧ ∃ kinds, kinds.all MoveKind.countsSlots = true ∧
        Moves cfg now kinds f.db.crew f'.db.crew) := by
  -- a request that resets no load moves slots only
  have hplain : action.resets cfg f = [] → action.kinds.all MoveKind.countsSlots = true →
      ResetLoads cfg (action.scanned f) (action.resets cfg f) f f' ∨
      (action.resets cfg f = [] ∧ ∃ kinds, kinds.all MoveKind.countsSlots = true ∧
        Moves cfg now kinds f.db.crew f'.db.crew) :=
    fun hnone hkinds => .inr ⟨hnone, _, hkinds, (call_requested h).moves⟩
  cases action with
  | op a => exact absurd rfl (hop a)
  | heartbeat auth status load => exact absurd rfl (hbeat auth status load)
  | register auth payload rows =>
      change registerWorker cfg f now auth payload rows = .ok f' at h
      unfold registerWorker at h
      split at h
      · cases h
      · rename_i hversion
        split at h
        · cases h
        · rename_i w hw
          split at h
          · cases h
          · rename_i f1 hreap
            cases h
            left
            have hresets : FleetAction.resets cfg f (.register auth payload rows)
                = [auth.workerId] := by
              rw [FleetAction.resets, if_pos ⟨not_not.mp hversion, by rw [hw]; rfl⟩]
            rw [hresets]
            exact .one hreap _ fun _ => rfl
  | deregister auth rows =>
      change deregisterWorker cfg f now auth rows = .ok f' at h
      unfold deregisterWorker at h
      split at h
      · cases h
      · rename_i w hw
        split at h
        · -- who has left before is left alone
          rename_i hgone
          cases h
          right
          refine ⟨?_, [], rfl, .refl⟩
          rw [FleetAction.resets, hw]
          simp [Option.isSome_iff_ne_none.mp hgone]
        · rename_i hactive
          split at h
          · cases h
          · rename_i f1 hreap
            cases h
            left
            have hresets : FleetAction.resets cfg f (.deregister auth rows)
                = [auth.workerId] := by
              rw [FleetAction.resets, hw]
              simp [Option.not_isSome_iff_eq_none.mp hactive]
            rw [hresets]
            exact .one hreap _ fun _ => rfl
  | claim auth token rows => exact hplain rfl rfl
  | ack auth aid => exact hplain rfl rfl
  | renew auth aid => exact hplain rfl rfl
  | submit auth aid payload jitter => exact hplain rfl rfl
  | revoke ws wid rows =>
      change revokeWorkerCredentials cfg f now ws wid rows = .ok f' at h
      unfold revokeWorkerCredentials at h
      split at h
      · cases h
      · rename_i w hw
        split at h
        · cases h
        · rename_i hpin
          simp only at h
          split at h
          · cases h
          · rename_i f1 hreap
            split at h
            · rename_i hactive
              cases h
              left
              have hresets : FleetAction.resets cfg f (.revoke ws wid rows) = [wid] := by
                rw [FleetAction.resets, hw]
                simp [not_not.mp hpin, Option.isNone_iff_eq_none.mp hactive]
              rw [hresets]
              obtain ⟨hrow, hlen, hothers, hload⟩ :=
                ResetLoads.one hreap WorkerRegistration.goOffline fun _ => rfl
              exact ⟨hrow, hlen, hothers, hload⟩
            · -- the assignments are reaped, the row of who has left stays
              rename_i hgone
              cases h
              right
              refine ⟨?_, [.requeue, .exhaust], rfl, ?_⟩
              · rw [FleetAction.resets, hw]
                simp [Option.isNone_iff_eq_none.not.mp hgone]
              · unfold reapHoldings at hreap
                split at hreap
                · cases hreap
                · rename_i s hs
                  cases hreap
                  exact reapWorkerBatches_moves _ hs
  | emergencyStop ws others workers rows => exact .inl (stopEach_resets _ h)

/-! ## Every operation -/

/-- What the request reaps of a worker's assignments, when it resets the worker. -/
def FleetAction.Reaches (cfg : Config) (action : FleetAction) (a : StageAssignment) : Prop :=
  0 < cfg.settings.assignmentReaperBatchSize ∧
    match action with
    | .emergencyStop ws others _ _ => a.workspaceId ∈ ws :: others
    | _ => True

/-- The operation leaves no assignment of a registered worker without its slot, and no slot
without its assignment. -/
def FleetAction.KeepsLoad (cfg : Config) (f : Fleet) : FleetAction → Prop
  | .op action => action.KeepsLoad cfg f.db
  | action => ∀ wid ∈ action.resets cfg f, ∀ a ∈ f.db.assignments, a.heldBy wid = true →
      action.Reaches cfg a

/-- A scan of the assignments returns all of them. -/
def FleetAction.ScansAll (f : Fleet) : FleetAction → Prop
  | .register _ _ rows | .deregister _ rows | .revoke _ _ rows | .emergencyStop _ _ _ rows =>
      ∀ aid < f.db.assignments.length, aid ∈ rows
  | _ => True

/-- Anything but a heartbeat. -/
def FleetAction.Counted : FleetAction → Prop
  | .heartbeat .. => False
  | _ => True

/-- A reset worker is registered. -/
theorem resets_registered {f : Fleet} {action : FleetAction} {wid : WorkerId}
    (h : wid ∈ action.resets cfg f) : wid < f.db.workers.length := by
  have hsome : (f.db.workers[wid]?).isSome = true := by
    cases action with
    | register auth payload rows =>
        simp only [FleetAction.resets] at h
        split_ifs at h with hcond
        · obtain rfl : wid = auth.workerId := by simpa using h
          exact hcond.2
        · cases h
    | deregister auth rows =>
        simp only [FleetAction.resets] at h
        split_ifs at h with hcond
        · obtain rfl : wid = auth.workerId := by simpa using h
          exact Option.isSome_of_any hcond
        · cases h
    | revoke ws wid' rows =>
        simp only [FleetAction.resets] at h
        split_ifs at h with hcond
        · obtain rfl : wid = wid' := by simpa using h
          exact Option.isSome_of_any hcond
        · cases h
    | emergencyStop ws others workers rows =>
        obtain ⟨_, hcond⟩ := List.mem_filter.mp h
        exact Option.isSome_of_any hcond
    | _ => cases h
  obtain ⟨w, hw⟩ := Option.isSome_iff_exists.mp hsome
  exact (List.getElem?_eq_some_iff.mp hw).1

/-- With a scan of the whole table, a worker is cleared exactly if the request reaches everything
it holds. -/
theorem cleared_iff {f : Fleet} {action : FleetAction} (hscan : action.ScansAll f)
    {wid : WorkerId} (hwid : wid ∈ action.resets cfg f) :
    Cleared cfg f (action.scanned f) wid ↔
      ∀ a ∈ f.db.assignments, a.heldBy wid = true → action.Reaches cfg a := by
  have hrow : ∀ aid a, f.row aid = some a →
      ((aid ∈ action.scanned f ∧ 0 < cfg.settings.assignmentReaperBatchSize) ↔
        action.Reaches cfg a) := by
    intro aid a ha
    have hlt : aid < f.db.assignments.length := (List.getElem?_eq_some_iff.mp ha).1
    have ha' : f.db.assignments[aid]? = some a := ha
    cases action with
    | register auth payload rows =>
        simp [FleetAction.scanned, FleetAction.Reaches, hscan aid hlt]
    | deregister auth rows => simp [FleetAction.scanned, FleetAction.Reaches, hscan aid hlt]
    | revoke ws wid rows => simp [FleetAction.scanned, FleetAction.Reaches, hscan aid hlt]
    | emergencyStop ws others workers rows =>
        simp [FleetAction.scanned, FleetAction.Reaches, updatableRows, ha', hscan aid hlt, and_comm]
    | _ => cases hwid
  constructor
  · intro hclear a ha hheld
    obtain ⟨aid, haid⟩ := List.getElem?_of_mem ha
    obtain ⟨_, hmem, hlimit⟩ := hclear aid a haid hheld
    exact (hrow aid a haid).mp ⟨hmem, hlimit⟩
  · intro hreach aid a ha hheld
    obtain ⟨hmem, hlimit⟩ := (hrow aid a ha).mpr (hreach a (Table.mem_of_get ha) hheld)
    exact ⟨hheld, hmem, hlimit⟩

/-- An operation that is carried out keeps the count exactly if `KeepsLoad`. -/
theorem call_balanced {f f' : Fleet} {o : FleetOp} (hf : f.db.crew.Balanced)
    (hcount : o.action.Counted) (hscan : o.action.ScansAll f) (h : o.call cfg f = .ok f') :
    f'.db.crew.Balanced ↔ o.action.KeepsLoad cfg f := by
  obtain ⟨now, action⟩ := o
  by_cases hop : ∃ a, action = .op a
  · obtain ⟨a, rfl⟩ := hop
    cases h
    exact exec_balanced hf _
  · push Not at hop
    have hbeat : ∀ auth status load, action ≠ .heartbeat auth status load := by
      rintro auth status load rfl
      exact hcount
    have hkeeps : FleetAction.KeepsLoad cfg f action ↔ ∀ wid ∈ action.resets cfg f,
        ∀ a ∈ f.db.assignments, a.heldBy wid = true → action.Reaches cfg a := by
      cases action with
      | op a => exact absurd rfl (hop a)
      | _ => exact Iff.rfl
    rw [hkeeps]
    rcases call_resets h hop hbeat with hreset | ⟨hnone, kinds, hkinds, hmoves⟩
    · have hlen : f'.db.workers.length = f.db.workers.length := by
        have hpins := (call_requested h).moves.invariant
          (I := fun c => c.workers.length = f.db.workers.length)
          (fun k _ c c' hm hc => hm.workers_length.trans hc) rfl
        exact hpins
      rw [hreset.balanced hf fun wid hmem => by rw [hlen]; exact resets_registered hmem]
      exact forall₂_congr fun wid hwid => cleared_iff hscan hwid
    · rw [hnone]
      exact iff_of_true (hmoves.balanced hkinds hf) (by simp)

/-- The fleet without heartbeats, from any state in which the loads are right. -/
def countedFleet (cfg : Config) : System Fleet FleetOp where
  init f := f.db.crew.Balanced
  allowed f o := o.action.Counted ∧ o.action.ScansAll f
  exec := fleetExec cfg

/-- **Worker load is conserved.** From a state in which every worker's load is the number of
assignments it holds, an operation that is carried out leads to such a state if and only if
`KeepsLoad` (one that is refused changes nothing); and without heartbeats the loads are right in
every state of every run whose operations all meet it. -/
theorem load_conserved (cfg : Config) :
    (∀ f f' o, f.db.crew.Balanced → o.action.Counted → o.action.ScansAll f →
      o.call cfg f = .ok f' →
      ((fleetExec cfg f o).db.crew.Balanced ↔ o.action.KeepsLoad cfg f)) ∧
    ∀ f, ((countedFleet cfg).restrict fun f o => o.action.KeepsLoad cfg f).Reachable f →
      f.db.crew.Balanced := by
  have hstep : ∀ f f' o, f.db.crew.Balanced → o.action.Counted → o.action.ScansAll f →
      o.call cfg f = .ok f' →
      ((fleetExec cfg f o).db.crew.Balanced ↔ o.action.KeepsLoad cfg f) := by
    intro f f' o hf hcount hscan h
    have hexec : (fleetExec cfg f o).db.crew = f'.db.crew := by
      unfold fleetExec
      rw [h]
      exact crew_flush _
    rw [hexec]
    exact call_balanced hf hcount hscan h
  refine ⟨hstep, fun f hf => ?_⟩
  refine hf.invariant (I := fun f => f.db.crew.Balanced) (fun f h => h) ?_
  rintro f o hI ⟨⟨hcount, hscan⟩, hkeeps⟩
  show (fleetExec cfg f o).db.crew.Balanced
  -- a refused call leaves the fleet as it is
  cases hcall : o.call cfg f with
  | error e =>
      unfold fleetExec
      rw [hcall]
      exact hI
  | ok f' => exact (hstep f f' o hI hcount hscan hcall).mpr hkeeps

/-! ## A cancelled script -/

/-- The desk after its script was dispatched: the worker holds it, and has a load of one. -/
def dispatchedFleet : Fleet where
  db := runOps deskConfig deskDb (draftedOps.take 3)

theorem dispatchedFleet_balanced : dispatchedFleet.db.crew.Balanced := by
  intro wid w hw
  have hlen : dispatchedFleet.db.crew.workers.length = 1 := by decide +kernel
  have hlt := (List.getElem?_eq_some_iff.mp hw).1
  rw [hlen] at hlt
  obtain rfl : wid = 0 := Nat.lt_one_iff.mp hlt
  have hload : (dispatchedFleet.db.crew.workers[0]?).map WorkerRegistration.currentLoad
      = some (dispatchedFleet.db.crew.held 0) := by
    decide +kernel
  rw [hw] at hload
  exact Option.some.inj hload

/-- The worker submits its script: the load is given back. -/
theorem submitted_script_keeps_load :
    dispatchedFleet.db.crew.held 0 = 1 ∧
    (fleetExec deskConfig dispatchedFleet
      ⟨3, .op (.submitResult 0 true none "" (some 0) 0)⟩).db.crew.Balanced :=
  ⟨by decide +kernel, ((load_conserved deskConfig).1 dispatchedFleet _
    ⟨3, .op (.submitResult 0 true none "" (some 0) 0)⟩ dispatchedFleet_balanced trivial trivial
    rfl).mpr trivial⟩

/-- The run is cancelled: the script is gone, and the slot stays taken. -/
theorem cancelled_run_leaks_slot :
    ∃ f, (countedFleet deskConfig).Reachable f ∧ f.db.crew.Balanced ∧
      ¬ (fleetExec deskConfig f ⟨3, .op (.cancelRun 0)⟩).db.crew.Balanced := by
  refine ⟨dispatchedFleet, .init dispatchedFleet_balanced, dispatchedFleet_balanced, fun hb => ?_⟩
  have hload : ((fleetExec deskConfig dispatchedFleet
      ⟨3, .op (.cancelRun 0)⟩).db.crew.workers[0]?).map
      WorkerRegistration.currentLoad = some 1 := by
    decide +kernel
  have hheld : (fleetExec deskConfig dispatchedFleet ⟨3, .op (.cancelRun 0)⟩).db.crew.held 0
      = 0 := by
    decide +kernel
  obtain ⟨w, hw, hone⟩ := Option.map_eq_some_iff.mp hload
  have hbalanced := hb 0 w hw
  omega

end HumanGate
