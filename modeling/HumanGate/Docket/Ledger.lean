import HumanGate.Docket.Writes
import HumanGate.Spend.ReadCommitted

set_option autoImplicit false

/-! # The ledger on the dockets

What reserving, releasing and committing do to the dockets. A reservation that is open at a stage
of a run is released or committed once; a new one of the same run and stage takes the place of the
open ones.
-/

namespace HumanGate

open Lib Lib.Calendar

variable {s : Db} {now : Instant} {rid : RunId}

/-! ## Releasing -/

theorem openAt_release (r : SpendReservation) (rid : RunId) (stage : ContentStage) :
    r.release.openAt rid stage = false := by
  unfold SpendReservation.release
  split
  · exact openAt_withStatus (by decide) rid stage
  · rename_i hst
    rw [← Bool.not_eq_true, openAt_iff]
    exact fun h => hst h.2.2

/-- What a function of the ledger leaves of a docket, apart from the reservations. -/
theorem docket_of_core {t : Db} (h : t.core = s.core) (r : RunId) :
    t.docket r = { s.docket r with reserved := (t.docket r).reserved } := by
  have hruns := congrArg Db.runs h
  have hjobs := congrArg Db.jobs h
  have hrows := congrArg Db.assignments h
  have hgates := congrArg Db.gates h
  simp only [Db.core] at hruns hjobs hrows hgates
  refine Docket.ext ?_ ?_ ?_ ?_ rfl
  · exact congrArg (fun rows => rows[r]?) hruns
  · exact congrArg (List.filter _) hjobs
  · exact congrArg (List.filter _) hrows
  · exact congrArg (List.filter _) hgates

/-- A batch of releases of reservations of one run, among them all that are open at the stages
which `all` selects and none at the others. -/
theorem docket_releaseEach (ws : WorkspaceId) {ids : List ReservationId}
    (all : ContentStage → Prop) [DecidablePred all]
    (hmem : ∀ i ∈ ids, ∀ r, s.reservations[i]? = some r →
      r.pipelineRunId = some rid ∧ ∀ stage, r.stage = some stage → all stage)
    (hall : ∀ stage, all stage → ∀ i r, s.reservations[i]? = some r → r.openAt rid stage = true →
      i ∈ ids) :
    (releaseEach s now rid ws ids).docket = Function.update s.docket rid
      { s.docket rid with
        reserved := fun stage => if all stage then 0 else (s.docket rid).reserved stage } := by
  have hrows := reservations_releaseEach now rid ws ids s
  have hcore := docket_of_core (core_releaseEach now rid ws ids s)
  funext r
  by_cases hr : r = rid
  · subst hr
    rw [Function.update_self, hcore r]
    refine Docket.ext rfl rfl rfl rfl ?_
    funext stage
    show (releaseEach s now r ws ids).reservations.countP _ = if all stage then 0 else _
    rw [hrows, List.countP_eq_length_filter]
    split
    · rename_i hstage
      rw [Table.filter_modifyAll_none (fun x => openAt_release x r stage) ids (hall stage hstage)]
      rfl
    · rename_i hstage
      rw [Table.filter_modifyAll_same (fun x => openAt_release x r stage) ids,
        ← List.countP_eq_length_filter]
      · rfl
      intro i hi x hx
      rw [← Bool.not_eq_true, openAt_iff]
      exact fun h => hstage ((hmem i hi x hx).2 stage h.2.1)
  · -- the rows of other runs are not among the released
    rw [Function.update_of_ne hr, hcore r]
    refine Docket.ext rfl rfl rfl rfl ?_
    funext stage
    show (releaseEach s now rid ws ids).reservations.countP _ = _
    rw [hrows, List.countP_eq_length_filter,
      Table.filter_modifyAll_same (fun x => openAt_release x r stage) ids,
      ← List.countP_eq_length_filter]
    · rfl
    intro i hi x hx
    rw [← Bool.not_eq_true, openAt_iff]
    exact fun h => hr (Option.some.inj (h.1.symm.trans (hmem i hi x hx).1))

/-- All open reservations of a run and stage are released. -/
theorem docket_releaseFor (s : Db) (now : Instant) (rid : RunId) (ws : WorkspaceId)
    (stage : ContentStage) :
    (releaseEach s now rid ws (openReservationsFor s rid stage)).docket
      = Function.update s.docket rid { s.docket rid with
          reserved := Function.update (s.docket rid).reserved stage 0 } := by
  rw [docket_releaseEach ws fun st => st = stage]
  · congr 1
    refine Docket.ext rfl rfl rfl rfl (funext fun st => ?_)
    by_cases h : st = stage
    · subst h
      simp
    · simp [h]
  · intro i hi r hr
    obtain ⟨r', hr', hp⟩ := Table.mem_select.mp hi
    rw [hr] at hr'
    cases hr'
    have hopen : r.openAt rid stage = true := hp
    obtain ⟨hrun, hstage, _⟩ := openAt_iff.mp hopen
    exact ⟨hrun, fun st hst => Option.some.inj (hst.symm.trans hstage)⟩
  · rintro st rfl i r hr hopen
    exact Table.mem_select.mpr ⟨r, hr, hopen⟩

/-- All open reservations of a run are released. -/
theorem docket_releaseAll (s : Db) (now : Instant) (rid : RunId) (ws : WorkspaceId) :
    (releaseAllReservations s now rid ws).docket = Function.update s.docket rid
      { s.docket rid with reserved := fun _ => 0 } := by
  rw [releaseAllReservations, docket_releaseEach ws fun _ => True]
  · simp
  · intro i hi r hr
    obtain ⟨r', hr', hp⟩ := Table.mem_select.mp hi
    rw [hr] at hr'
    cases hr'
    rw [Bool.and_eq_true, beq_iff_eq] at hp
    exact ⟨hp.1, fun _ _ => trivial⟩
  · intro st _ i r hr hopen
    obtain ⟨hrun, _, hst⟩ := openAt_iff.mp hopen
    exact Table.mem_select.mpr ⟨r, hr, by simp [hrun, hst]⟩

/-- The reservation that a result settles: the latest one that is open at the stage. -/
theorem latestOpenReservation_open {stage : ContentStage} {resId : ReservationId}
    (h : latestOpenReservation s rid stage = some resId) :
    ∃ r, s.reservations[resId]? = some r ∧ r.openAt rid stage = true := by
  have hm := List.mem_of_mem_head? h
  rw [List.mem_insertionSort] at hm
  exact Table.mem_select.mp hm

theorem latestOpenReservation_none {stage : ContentStage}
    (h : latestOpenReservation s rid stage = none) : (s.docket rid).reserved stage = 0 := by
  unfold latestOpenReservation at h
  rw [List.head?_eq_none_iff] at h
  have hnil : openReservationsFor s rid stage = [] := by
    have hlen := congrArg List.length h
    rw [List.length_insertionSort] at hlen
    exact List.length_eq_zero_iff.mp hlen
  show s.reservations.countP _ = 0
  rw [List.countP_eq_zero]
  intro r hr hopen
  obtain ⟨i, hi⟩ := List.getElem?_of_mem hr
  have hmem : i ∈ openReservationsFor s rid stage := Table.mem_select.mpr ⟨r, hi, hopen⟩
  rw [hnil] at hmem
  cases hmem

/-- One reservation of the run and stage is settled, if there is an open one. -/
def Docket.settle (d : Docket) (stage : ContentStage) : Docket :=
  { d with reserved := Function.update d.reserved stage (d.reserved stage - 1) }

theorem Docket.settle_of_zero {d : Docket} {stage : ContentStage} (h : d.reserved stage = 0) :
    d.settle stage = d := by
  unfold Docket.settle
  rw [h, Nat.zero_sub, ← h, Function.update_eq_self]

theorem docket_releaseSpend {ws : WorkspaceId} {resId : ReservationId} {stage : ContentStage}
    {r : SpendReservation} (hr : s.reservations[resId]? = some r)
    (hopen : r.openAt rid stage = true) :
    (releaseSpend s now rid ws resId).docket
      = Function.update s.docket rid ((s.docket rid).settle stage) := by
  unfold releaseSpend
  simp only [hr, (openAt_iff.mp hopen).2.2, if_true, docket_emit]
  exact docket_closeReservation (by decide) hr hopen

theorem docket_commitSpend {t : Db} {ws : WorkspaceId} {resId : ReservationId}
    {stage : ContentStage} {r : SpendReservation} {actual : Decimal}
    (hr : s.reservations[resId]? = some r) (hopen : r.openAt rid stage = true)
    (h : commitSpend s now rid ws resId actual = .ok t) :
    t.docket = Function.update s.docket rid ((s.docket rid).settle stage) := by
  unfold commitSpend at h
  simp only [hr, (openAt_iff.mp hopen).2.2] at h
  split at h
  · cases h
  · cases h
    rw [docket_emit]
    exact docket_closeReservation (by decide) hr hopen

/-! ## Reserving -/

/-- A reservation for a stage is granted, or the run is held. -/
theorem docket_reserveSpend (s : Db) (now : Instant) (rid : RunId) (ws : WorkspaceId)
    (stage : ContentStage) (provider : String) (estimate : ℚ≥0) :
    ((reserveSpend s now rid ws stage provider estimate).2 = none ∧
      (reserveSpend s now rid ws stage provider estimate).1.docket
        = Function.update s.docket rid { s.docket rid with
            run := (s.docket rid).run.map PipelineRun.holdForSpend
            reserved := Function.update (s.docket rid).reserved stage 0 }) ∨
    ((reserveSpend s now rid ws stage provider estimate).2.isSome = true ∧
      (reserveSpend s now rid ws stage provider estimate).1.docket
        = Function.update s.docket rid { s.docket rid with
            reserved := Function.update (s.docket rid).reserved stage 1 }) := by
  have hrel := docket_releaseFor s now rid ws stage
  unfold reserveSpend
  simp only
  generalize releaseEach s now rid ws (openReservationsFor s rid stage) = t at hrel ⊢
  unfold recordReservation
  split
  · left
    refine ⟨rfl, ?_⟩
    rw [docket_emit, docket_updateRun, hrel, Function.update_idem, Function.update_self]
  · right
    refine ⟨rfl, ?_⟩
    have hnew : ∀ r : SpendReservation, r.openAt rid stage = true →
        Db.docket { t with reservations := t.reservations ++ [r] } = Function.update s.docket rid
          { s.docket rid with reserved := Function.update (s.docket rid).reserved stage 1 } := by
      intro r hopen
      rw [docket_pushReservation t hopen, hrel, Function.update_idem, Function.update_self]
      simp
    rw [docket_emit]
    exact hnew _ (by simp [SpendReservation.openAt])

end HumanGate
