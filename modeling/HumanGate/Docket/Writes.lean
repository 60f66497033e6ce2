import HumanGate.Model.Operations

set_option autoImplicit false

/-! # The docket of a run

What the tables hold of one run, as far as it decides how the run goes on: the run itself, its
`STAGE` and `RETRY` jobs that are pending or leased, its open assignments, its awaiting gates, and
for each stage the number of its open reservations. The jobs, assignments and gates are the *work
items* of the run. This file says what single writes to the tables do to the dockets of all runs;
a write about one run changes the docket of this run only, which is written with
`Function.update`.

To change a work item in place is to replace it, as long as it is the only one
(`Docket.Single`).
-/

namespace HumanGate

open Lib Lib.Calendar

/-! ## Dockets -/

def JobSchedule.waitsFor (rid : RunId) (j : JobSchedule) : Bool :=
  j.isWork && j.isLive && j.refId == .run rid

def StageAssignment.openFor (rid : RunId) (a : StageAssignment) : Bool :=
  a.pipelineRunId == rid && a.status.isOpen

def ReviewGate.awaitedBy (rid : RunId) (g : ReviewGate) : Bool :=
  g.pipelineRunId == rid && g.status == .awaiting

def SpendReservation.openAt (rid : RunId) (stage : ContentStage) (r : SpendReservation) : Bool :=
  r.pipelineRunId == some rid && r.stage == some stage && r.status == .reserved

@[ext]
structure Docket where
  run : Option PipelineRun
  jobs : List JobSchedule
  rows : List StageAssignment
  gates : List ReviewGate
  reserved : ContentStage → Nat

def Db.docket (s : Db) (rid : RunId) : Docket where
  run := s.runs[rid]?
  jobs := s.jobs.filter (JobSchedule.waitsFor rid)
  rows := s.assignments.filter (StageAssignment.openFor rid)
  gates := s.gates.filter (ReviewGate.awaitedBy rid)
  reserved stage := s.reservations.countP (SpendReservation.openAt rid stage)

namespace Docket

/-- The number of work items. -/
def items (d : Docket) : Nat := d.jobs.length + d.rows.length + d.gates.length

/-- At most one work item. -/
def Single (d : Docket) : Prop := d.items ≤ 1

/-- The docket of a run without work items. -/
def idle (run : Option PipelineRun) (reserved : ContentStage → Nat) : Docket :=
  ⟨run, [], [], [], reserved⟩

/-- A job is the only work item. -/
def queued (run : Option PipelineRun) (j : JobSchedule) (reserved : ContentStage → Nat) : Docket :=
  ⟨run, [j], [], [], reserved⟩

/-- An assignment is the only work item. -/
def assigned (run : Option PipelineRun) (a : StageAssignment) (reserved : ContentStage → Nat) :
    Docket :=
  ⟨run, [], [a], [], reserved⟩

/-- A gate is the only work item. -/
def gated (run : Option PipelineRun) (g : ReviewGate) (reserved : ContentStage → Nat) : Docket :=
  ⟨run, [], [], [g], reserved⟩

end Docket

variable {s : Db} {now : Instant} {rid : RunId}

theorem docket_of_job (h : (s.docket rid).Single) {jid : JobId} {j : JobSchedule}
    (hj : s.jobs[jid]? = some j) (hw : j.waitsFor rid = true) :
    s.docket rid = .queued s.runs[rid]? j (s.docket rid).reserved := by
  unfold Docket.Single Docket.items at h
  have hjobs : (s.docket rid).jobs = [j] := Table.filter_eq_single hj hw
    (by omega : (s.docket rid).jobs.length ≤ 1)
  rw [hjobs, List.length_singleton] at h
  refine Docket.ext rfl hjobs ?_ ?_ rfl
  · exact List.length_eq_zero_iff.mp (by omega)
  · exact List.length_eq_zero_iff.mp (by omega)

theorem docket_of_row (h : (s.docket rid).Single) {aid : AssignmentId} {a : StageAssignment}
    (ha : s.assignments[aid]? = some a) (hw : a.openFor rid = true) :
    s.docket rid = .assigned s.runs[rid]? a (s.docket rid).reserved := by
  unfold Docket.Single Docket.items at h
  have hrows : (s.docket rid).rows = [a] := Table.filter_eq_single ha hw
    (by omega : (s.docket rid).rows.length ≤ 1)
  rw [hrows, List.length_singleton] at h
  refine Docket.ext rfl ?_ hrows ?_ rfl
  · exact List.length_eq_zero_iff.mp (by omega)
  · exact List.length_eq_zero_iff.mp (by omega)

theorem docket_of_gate (h : (s.docket rid).Single) {gid : GateId} {g : ReviewGate}
    (hg : s.gates[gid]? = some g) (hw : g.awaitedBy rid = true) :
    s.docket rid = .gated s.runs[rid]? g (s.docket rid).reserved := by
  unfold Docket.Single Docket.items at h
  have hgates : (s.docket rid).gates = [g] := Table.filter_eq_single hg hw
    (by omega : (s.docket rid).gates.length ≤ 1)
  rw [hgates, List.length_singleton] at h
  refine Docket.ext rfl ?_ ?_ hgates rfl
  · exact List.length_eq_zero_iff.mp (by omega)
  · exact List.length_eq_zero_iff.mp (by omega)

/-! ## Writes that no docket sees -/

section Frame

@[simp] theorem docket_flush (s : Db) : s.flush.docket = s.docket := rfl

@[simp] theorem docket_emit (s : Db) (now : Instant) (e : EventType) (ws : WorkspaceId)
    (rid : RunId) (g : Option GateId) : (s.emit now e ws rid g).docket = s.docket := rfl

@[simp] theorem docket_updateEvent (s : Db) (eid : EventId) (f : OutboxEvent → OutboxEvent) :
    (s.updateEvent eid f).docket = s.docket := rfl

@[simp] theorem docket_updateWorker (s : Db) (wid : WorkerId)
    (f : WorkerRegistration → WorkerRegistration) : (s.updateWorker wid f).docket = s.docket := rfl

@[simp] theorem docket_freeSlot (s : Db) (worker : Option WorkerId)
    (f : WorkerRegistration → WorkerRegistration) : (freeSlot s worker f).docket = s.docket := by
  unfold freeSlot
  split <;> rfl

@[simp] theorem docket_routeToDeadLetter (s : Db) (now : Instant) (ws : WorkspaceId)
    (related : RelatedId) (jobType reason : String) (attempts : Nat) (first : Instant) :
    (routeToDeadLetter s now ws related jobType reason attempts first).docket = s.docket := rfl

@[simp] theorem docket_auditRecovery (s : Db) (aid : AssignmentId) (a : StageAssignment)
    (reason : RecoveryReason) (newAttempt : Option Nat) (outcome : RecoveryOutcome)
    (detail : Option String) :
    (auditRecovery s aid a reason newAttempt outcome detail).docket = s.docket := rfl

@[simp] theorem docket_recordClaim (s : Db) (wid : WorkerId) (w : WorkerRegistration)
    (outcome : ClaimOutcome) (reason : String) (a : Option (AssignmentId × StageAssignment))
    (ws : Option WorkspaceId) : (recordClaim s wid w outcome reason a ws).docket = s.docket := by
  unfold recordClaim
  split <;> rfl

@[simp] theorem docket_failDelivery (s : Db) (now : Instant) (eid : EventId) (event : OutboxEvent)
    (e : Err) : (failDelivery s now eid event e).docket = s.docket := by
  unfold failDelivery
  simp only
  split <;> rfl

end Frame

/-! ## Runs -/

@[simp] theorem docket_updateRun (s : Db) (rid : RunId) (f : PipelineRun → PipelineRun) :
    (s.updateRun rid f).docket = Function.update s.docket rid
      { s.docket rid with run := (s.docket rid).run.map f } := by
  funext r
  by_cases h : r = rid
  · subst h
    rw [Function.update_self]
    refine Docket.ext ?_ rfl rfl rfl rfl
    exact List.getElem?_modify_eq ..
  · rw [Function.update_of_ne h]
    refine Docket.ext ?_ rfl rfl rfl rfl
    exact Table.get_modify_ne (Ne.symm h)

/-! ## Jobs -/

theorem waitsFor_ref {j : JobSchedule} {r : RunId} (h : j.waitsFor r = true) :
    j.refId = .run r := by
  unfold JobSchedule.waitsFor at h
  rw [Bool.and_eq_true, beq_iff_eq] at h
  exact h.2

/-- A new job that waits for the run. -/
theorem docket_pushJob (s : Db) {j : JobSchedule} (hw : j.waitsFor rid = true) :
    Db.docket { s with jobs := s.jobs ++ [j] } = Function.update s.docket rid
      { s.docket rid with jobs := (s.docket rid).jobs ++ [j] } := by
  funext r
  by_cases h : r = rid
  · subst h
    rw [Function.update_self]
    refine Docket.ext rfl ?_ rfl rfl rfl
    show (s.jobs ++ [j]).filter _ = s.jobs.filter _ ++ [j]
    rw [List.filter_append, List.filter_cons_of_pos hw, List.filter_nil]
  · rw [Function.update_of_ne h]
    refine Docket.ext rfl ?_ rfl rfl rfl
    show (s.jobs ++ [j]).filter _ = s.jobs.filter _
    have hnot : ¬ j.waitsFor r = true := fun hr => by
      have href := (waitsFor_ref hr).symm.trans (waitsFor_ref hw)
      exact h (RefId.run.inj href)
    rw [List.filter_append, List.filter_cons_of_neg hnot, List.filter_nil, List.append_nil]

/-- New jobs that wait for no run. -/
theorem docket_pushJobs (s : Db) {jobs : List JobSchedule} (h : ∀ j ∈ jobs, j.isWork = false) :
    Db.docket { s with jobs := s.jobs ++ jobs } = s.docket := by
  funext r
  refine Docket.ext rfl ?_ rfl rfl rfl
  show (s.jobs ++ jobs).filter _ = s.jobs.filter _
  have hnone : jobs.filter (JobSchedule.waitsFor r) = [] := by
    rw [List.filter_eq_nil_iff]
    intro j hj hw
    rw [JobSchedule.waitsFor, h j hj] at hw
    cases hw
  rw [List.filter_append, hnone, List.append_nil]

/-- The job that is the work item of a run is replaced, or used up. -/
theorem docket_updateJob {j : JobSchedule} {jid : JobId} {f : JobSchedule → JobSchedule}
    (h : (s.docket rid).jobs.length ≤ 1) (hj : s.jobs[jid]? = some j)
    (hw : j.waitsFor rid = true) (href : (f j).refId = j.refId) :
    (s.updateJob jid f).docket = Function.update s.docket rid
      { s.docket rid with jobs := [f j].filter (JobSchedule.waitsFor rid) } := by
  funext r
  by_cases hr : r = rid
  · subst hr
    rw [Function.update_self]
    refine Docket.ext rfl ?_ rfl rfl rfl
    exact Table.filter_modify_single hj hw h
  · rw [Function.update_of_ne hr]
    refine Docket.ext rfl ?_ rfl rfl rfl
    refine Table.filter_modify_of_not fun j' hj' => ?_
    rw [hj] at hj'
    cases hj'
    have hne : j.refId ≠ .run r := fun heq =>
      hr (RefId.run.inj (heq.symm.trans (waitsFor_ref hw)))
    constructor
    · simp [JobSchedule.waitsFor, hne]
    · simp [JobSchedule.waitsFor, href, hne]

/-- An update of a job that waits for no run, before or after. -/
theorem docket_updateJob_other {jid : JobId} {f : JobSchedule → JobSchedule}
    (h : ∀ j, s.jobs[jid]? = some j → ∀ r, j.waitsFor r = false ∧ (f j).waitsFor r = false) :
    (s.updateJob jid f).docket = s.docket := by
  funext r
  refine Docket.ext rfl ?_ rfl rfl rfl
  exact Table.filter_modify_of_not fun j hj => h j hj r

/-! ## Assignments -/

theorem openFor_run {a : StageAssignment} {r : RunId} (h : a.openFor r = true) :
    a.pipelineRunId = r ∧ a.status.isOpen = true := by
  unfold StageAssignment.openFor at h
  rw [Bool.and_eq_true, beq_iff_eq] at h
  exact h

theorem openFor_iff {a : StageAssignment} {r : RunId} :
    a.openFor r = true ↔ a.pipelineRunId = r ∧ a.status.isOpen = true := by
  unfold StageAssignment.openFor
  rw [Bool.and_eq_true, beq_iff_eq]

/-- A new open assignment. -/
theorem docket_pushRow (s : Db) {a : StageAssignment} (hw : a.openFor rid = true) :
    Db.docket { s with assignments := s.assignments ++ [a] } = Function.update s.docket rid
      { s.docket rid with rows := (s.docket rid).rows ++ [a] } := by
  funext r
  by_cases h : r = rid
  · subst h
    rw [Function.update_self]
    refine Docket.ext rfl rfl ?_ rfl rfl
    show (s.assignments ++ [a]).filter _ = s.assignments.filter _ ++ [a]
    rw [List.filter_append, List.filter_cons_of_pos hw, List.filter_nil]
  · rw [Function.update_of_ne h]
    refine Docket.ext rfl rfl ?_ rfl rfl
    show (s.assignments ++ [a]).filter _ = s.assignments.filter _
    have hnot : ¬ a.openFor r = true := fun hr =>
      h ((openFor_run hr).1.symm.trans (openFor_run hw).1)
    rw [List.filter_append, List.filter_cons_of_neg hnot, List.filter_nil, List.append_nil]

/-- The assignment that is the work item of a run is replaced, or closed. -/
theorem docket_updateRow {a : StageAssignment} {aid : AssignmentId}
    {f : StageAssignment → StageAssignment} (h : (s.docket rid).Single)
    (ha : s.assignments[aid]? = some a) (hw : a.openFor rid = true)
    (hrun : (f a).pipelineRunId = a.pipelineRunId) :
    (s.updateAssignment now aid f).docket = Function.update s.docket rid
      { s.docket rid with
        rows := [{ f a with updatedAt := now }].filter (StageAssignment.openFor rid) } := by
  unfold Docket.Single Docket.items at h
  funext r
  by_cases hr : r = rid
  · subst hr
    rw [Function.update_self]
    refine Docket.ext rfl rfl ?_ rfl rfl
    exact Table.filter_modify_single ha hw (by omega : (s.docket r).rows.length ≤ 1)
  · rw [Function.update_of_ne hr]
    refine Docket.ext rfl rfl ?_ rfl rfl
    refine Table.filter_modify_of_not fun a' ha' => ?_
    rw [ha] at ha'
    cases ha'
    have hne : a.pipelineRunId ≠ r := fun heq => hr (heq.symm.trans (openFor_run hw).1)
    constructor
    · simp [StageAssignment.openFor, hne]
    · simp [StageAssignment.openFor, hrun, hne]

/-- An update of an assignment that is closed before and after. -/
theorem docket_updateRow_other {aid : AssignmentId} {f : StageAssignment → StageAssignment}
    (h : ∀ a, s.assignments[aid]? = some a →
      a.status.isOpen = false ∧ (f a).status.isOpen = false) :
    (s.updateAssignment now aid f).docket = s.docket := by
  funext r
  refine Docket.ext rfl rfl ?_ rfl rfl
  refine Table.filter_modify_of_not fun a ha => ?_
  obtain ⟨hb, haf⟩ := h a ha
  constructor
  · simp [StageAssignment.openFor, hb]
  · simp [StageAssignment.openFor, haf]

/-! ## Gates -/

theorem awaitedBy_iff {g : ReviewGate} {r : RunId} :
    g.awaitedBy r = true ↔ g.pipelineRunId = r ∧ g.status = .awaiting := by
  unfold ReviewGate.awaitedBy
  rw [Bool.and_eq_true, beq_iff_eq, beq_iff_eq]

/-- A new awaiting gate. -/
theorem docket_pushGate (s : Db) {g : ReviewGate} (hw : g.awaitedBy rid = true) :
    Db.docket { s with gates := s.gates ++ [g] } = Function.update s.docket rid
      { s.docket rid with gates := (s.docket rid).gates ++ [g] } := by
  funext r
  by_cases h : r = rid
  · subst h
    rw [Function.update_self]
    refine Docket.ext rfl rfl rfl ?_ rfl
    show (s.gates ++ [g]).filter _ = s.gates.filter _ ++ [g]
    rw [List.filter_append, List.filter_cons_of_pos hw, List.filter_nil]
  · rw [Function.update_of_ne h]
    refine Docket.ext rfl rfl rfl ?_ rfl
    show (s.gates ++ [g]).filter _ = s.gates.filter _
    have hnot : ¬ g.awaitedBy r = true := fun hr =>
      h ((awaitedBy_iff.mp hr).1.symm.trans (awaitedBy_iff.mp hw).1)
    rw [List.filter_append, List.filter_cons_of_neg hnot, List.filter_nil, List.append_nil]

/-- The gate that is the work item of a run is changed, or decided. -/
theorem docket_updateGate {g : ReviewGate} {gid : GateId} {f : ReviewGate → ReviewGate}
    (h : (s.docket rid).Single) (hg : s.gates[gid]? = some g) (hw : g.awaitedBy rid = true)
    (hrun : (f g).pipelineRunId = g.pipelineRunId) :
    (s.updateGate gid f).docket = Function.update s.docket rid
      { s.docket rid with gates := [f g].filter (ReviewGate.awaitedBy rid) } := by
  unfold Docket.Single Docket.items at h
  funext r
  by_cases hr : r = rid
  · subst hr
    rw [Function.update_self]
    refine Docket.ext rfl rfl rfl ?_ rfl
    exact Table.filter_modify_single hg hw (by omega : (s.docket r).gates.length ≤ 1)
  · rw [Function.update_of_ne hr]
    refine Docket.ext rfl rfl rfl ?_ rfl
    refine Table.filter_modify_of_not fun g' hg' => ?_
    rw [hg] at hg'
    cases hg'
    have hne : g.pipelineRunId ≠ r := fun heq => hr (heq.symm.trans (awaitedBy_iff.mp hw).1)
    constructor
    · simp [ReviewGate.awaitedBy, hne]
    · simp [ReviewGate.awaitedBy, hrun, hne]

/-! ## Reservations -/

theorem openAt_iff {r : SpendReservation} {rid : RunId} {stage : ContentStage} :
    r.openAt rid stage = true ↔
      r.pipelineRunId = some rid ∧ r.stage = some stage ∧ r.status = .reserved := by
  unfold SpendReservation.openAt
  rw [Bool.and_eq_true, Bool.and_eq_true, beq_iff_eq, beq_iff_eq, beq_iff_eq, and_assoc]

theorem openAt_withStatus {r : SpendReservation} {st : ReservationStatus} (hst : st ≠ .reserved)
    (rid : RunId) (stage : ContentStage) : (r.withStatus st).openAt rid stage = false := by
  rw [← Bool.not_eq_true, openAt_iff]
  exact fun h => hst h.2.2

/-- A reservation leaves `RESERVED`: one less is open at its stage. -/
theorem docket_closeReservation {r : SpendReservation} {resId : ReservationId}
    {st : ReservationStatus} {stage : ContentStage} (hst : st ≠ .reserved)
    (hr : s.reservations[resId]? = some r) (hopen : r.openAt rid stage = true) :
    Db.docket { s with
        reservations := s.reservations.modify resId (SpendReservation.withStatus st) }
      = Function.update s.docket rid { s.docket rid with
          reserved := Function.update (s.docket rid).reserved stage
            ((s.docket rid).reserved stage - 1) } := by
  obtain ⟨hrun, hstage, _⟩ := openAt_iff.mp hopen
  -- the row no longer counts where it counted before
  have hcount : ∀ rid' stage', (s.reservations.modify resId (SpendReservation.withStatus st)).countP
      (SpendReservation.openAt rid' stage') + (if r.openAt rid' stage' then 1 else 0)
        = s.reservations.countP (SpendReservation.openAt rid' stage') := by
    intro rid' stage'
    have hmod := Table.countP_modify (p := SpendReservation.openAt rid' stage')
      (f := SpendReservation.withStatus st) hr
    rw [openAt_withStatus hst, if_neg Bool.false_ne_true, Nat.add_zero] at hmod
    exact hmod
  funext rid'
  by_cases hrid : rid' = rid
  · subst hrid
    rw [Function.update_self]
    refine Docket.ext rfl rfl rfl rfl ?_
    funext stage'
    have hc := hcount rid' stage'
    show (s.reservations.modify resId _).countP _
      = Function.update (s.docket rid').reserved stage _ stage'
    by_cases hs : stage' = stage
    · subst hs
      rw [hopen, if_pos rfl] at hc
      rw [Function.update_self]
      exact Nat.eq_sub_of_add_eq hc
    · rw [Function.update_of_ne hs]
      have hnot : r.openAt rid' stage' = false := by
        rw [← Bool.not_eq_true, openAt_iff]
        rintro ⟨_, hstage', _⟩
        exact hs (Option.some.inj (hstage'.symm.trans hstage))
      rw [hnot, if_neg Bool.false_ne_true] at hc
      exact hc
  · rw [Function.update_of_ne hrid]
    refine Docket.ext rfl rfl rfl rfl ?_
    funext stage'
    have hc := hcount rid' stage'
    have hnot : r.openAt rid' stage' = false := by
      rw [← Bool.not_eq_true, openAt_iff]
      rintro ⟨hrun', _⟩
      exact hrid (Option.some.inj (hrun'.symm.trans hrun))
    rw [hnot, if_neg Bool.false_ne_true] at hc
    exact hc

/-- A new reservation. -/
theorem docket_pushReservation (s : Db) {r : SpendReservation} {stage : ContentStage}
    (hopen : r.openAt rid stage = true) :
    Db.docket { s with reservations := s.reservations ++ [r] } = Function.update s.docket rid
      { s.docket rid with
        reserved := Function.update (s.docket rid).reserved stage
          ((s.docket rid).reserved stage + 1) } := by
  obtain ⟨hrun, hstage, _⟩ := openAt_iff.mp hopen
  funext rid'
  by_cases hrid : rid' = rid
  · subst hrid
    rw [Function.update_self]
    refine Docket.ext rfl rfl rfl rfl ?_
    funext stage'
    show (s.reservations ++ [r]).countP _ = Function.update (s.docket rid').reserved stage _ stage'
    rw [Table.countP_push]
    by_cases hs : stage' = stage
    · subst hs
      rw [hopen, if_pos rfl, Function.update_self]
      rfl
    · have hnot : r.openAt rid' stage' = false := by
        rw [← Bool.not_eq_true, openAt_iff]
        rintro ⟨_, hstage', _⟩
        exact hs (Option.some.inj (hstage'.symm.trans hstage))
      rw [hnot, if_neg Bool.false_ne_true, Function.update_of_ne hs]
      rfl
  · rw [Function.update_of_ne hrid]
    refine Docket.ext rfl rfl rfl rfl ?_
    funext stage'
    show (s.reservations ++ [r]).countP _ = _
    have hnot : r.openAt rid' stage' = false := by
      rw [← Bool.not_eq_true, openAt_iff]
      rintro ⟨hrun', _⟩
      exact hrid (Option.some.inj (hrun'.symm.trans hrun))
    rw [Table.countP_push, hnot, if_neg Bool.false_ne_true]
    rfl

end HumanGate
