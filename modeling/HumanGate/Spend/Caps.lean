import HumanGate.Lib.Budget
import HumanGate.Lib.System
import HumanGate.Model.Spend

set_option autoImplicit false

/-! # Spend caps over whole runs

The ledger of a workspace (its spend logs and open reservations) is a budget with two windows,
the UTC day and the month. Each spend function, on whatever run, stage and provider, is a
sequence of moves of that budget (`Lib/Budget.lean`): releasing and committing always, and
reserving as soon as the amount fits. A workspace with a workspace-wide cap only therefore
stays under its caps; one with provider caps does only while the reservations that a provider
cap admits happen to fit.
-/

namespace HumanGate

open Lib Lib.Calendar Relation

/-! ## The ledger as a budget -/

/-- The ledger of the workspace `ws` over all providers. -/
def ledger (ws : WorkspaceId) (s : Db) (now : Instant) : Budget.State Instant ℚ≥0 :=
  { clock := now
    spent := (s.logs.filter (logCounts ws none none)).map fun l => (l.occurredAt, l.costUsd)
    held := reservedSum s.reservations ws none }

def dayWindow (cap : SpendCap) : Budget.Window Instant ℚ≥0 :=
  ⟨dayStart, dayStart_mono, cap.dailyCapUsd⟩

def monthWindow (cap : SpendCap) : Budget.Window Instant ℚ≥0 :=
  ⟨monthStart, monthStart_mono, cap.monthlyCapUsd⟩

/-- The two windows of a cap. -/
def windows (cap : SpendCap) : List (Budget.Window Instant ℚ≥0) :=
  [dayWindow cap, monthWindow cap]

theorem used_ledger (w : Budget.Window Instant ℚ≥0) (ws : WorkspaceId) (s : Db) (now : Instant) :
    Budget.used w (ledger ws s now) = committedSum s.logs ws none (some (w.start now)) := by
  show Table.total _ _ ((s.logs.filter (logCounts ws none none)).map _) = _
  rw [Table.total_map_filter]
  unfold committedSum
  congr 1
  funext l
  rw [Bool.eq_iff_iff]
  simp only [logCounts, ledger, Option.all_none, Option.all_some, Bool.and_true, Bool.and_eq_true]
  exact and_congr Iff.rfl (Iff.trans decide_eq_true_iff decide_eq_true_iff.symm)

/-- The usage figure of `reserve_spend` is what the window has used and holds. -/
theorem usage_eq (w : Budget.Window Instant ℚ≥0) (ws : WorkspaceId) (s : Db) (now : Instant) :
    Budget.used w (ledger ws s now) + (ledger ws s now).held
      = spendCommittedPlusReserved s ws none (some (w.start now)) := by
  rw [used_ledger]
  rfl

/-- The ledger is within both windows of the cap. -/
def WithinCap (cap : SpendCap) (ws : WorkspaceId) (s : Db) (now : Instant) : Prop :=
  spendCommittedPlusReserved s ws none (some (dayStart now)) ≤ cap.dailyCapUsd ∧
  spendCommittedPlusReserved s ws none (some (monthStart now)) ≤ cap.monthlyCapUsd

theorem withinCap_iff (cap : SpendCap) (ws : WorkspaceId) (s : Db) (now : Instant) :
    WithinCap cap ws s now ↔ ∀ w ∈ windows cap, Budget.Within w (ledger ws s now) := by
  unfold WithinCap Budget.Within
  simp only [windows, List.mem_cons, List.not_mem_nil, or_false, forall_eq_or_imp, forall_eq,
    usage_eq]
  exact Iff.rfl

/-- Both windows have room for `estimate`. -/
def FitsCap (cap : SpendCap) (ws : WorkspaceId) (s : Db) (now : Instant) (estimate : ℚ≥0) : Prop :=
  spendCommittedPlusReserved s ws none (some (dayStart now)) + estimate ≤ cap.dailyCapUsd ∧
  spendCommittedPlusReserved s ws none (some (monthStart now)) + estimate ≤ cap.monthlyCapUsd

theorem fitsCap_iff (cap : SpendCap) (ws : WorkspaceId) (s : Db) (now : Instant) (e : ℚ≥0) :
    FitsCap cap ws s now e ↔ ∀ w ∈ windows cap,
      Budget.used w (ledger ws s now) + (ledger ws s now).held + e ≤ w.cap := by
  unfold FitsCap
  simp only [windows, List.mem_cons, List.not_mem_nil, or_false, forall_eq_or_imp, forall_eq,
    usage_eq]
  exact Iff.rfl

/-! ## The spend functions are moves of the budget -/

section Moves

variable {ws : WorkspaceId} {now : Instant} (cap : SpendCap)

/-- Moves of the ledger of `ws`, all at the instant `now`. -/
def LedgerMoves (cap : SpendCap) (ws : WorkspaceId) (now : Instant) (s s' : Db) : Prop :=
  ReflTransGen (Budget.Move (windows cap)) (ledger ws s now) (ledger ws s' now)

theorem LedgerMoves.of_eq {s s' : Db} (h : ledger ws s' now = ledger ws s now) :
    LedgerMoves cap ws now s s' := by
  unfold LedgerMoves
  rw [h]

/-- An open reservation that closes leaves the sum, if it was counted at all. -/
theorem reservedSum_close {rs : List SpendReservation} {i : ReservationId} {r : SpendReservation}
    {status : ReservationStatus} (hr : rs[i]? = some r) (ho : r.status = .reserved)
    (hs : status ≠ .reserved) :
    reservedSum rs ws none = reservedSum (rs.modify i (SpendReservation.withStatus status)) ws none
      + (if r.workspaceId = ws then r.estimatedCostUsd else 0) := by
  unfold reservedSum
  have hne : (status == ReservationStatus.reserved) = false := beq_eq_false_iff_ne.mpr hs
  by_cases hw : r.workspaceId = ws
  · rw [if_pos hw, Table.total_modify_leave hr]
    · simp [reservationCounts, hw, ho]
    · simp [reservationCounts, SpendReservation.withStatus, hne]
  · rw [if_neg hw, add_zero, Table.total_modify_out]
    intro r' hr'
    rw [hr] at hr'
    cases hr'
    have : (r.workspaceId == ws) = false := beq_eq_false_iff_ne.mpr hw
    simp [reservationCounts, SpendReservation.withStatus, this]

theorem releaseSpend_moves (s : Db) (rid : RunId) (rws : WorkspaceId) (resId : ReservationId) :
    LedgerMoves cap ws now s (releaseSpend s now rid rws resId) := by
  unfold releaseSpend
  split
  · exact .refl
  case _ r hr =>
    split
    · rename_i ho
      refine .single (Budget.Move.release
        (e := if r.workspaceId = ws then r.estimatedCostUsd else 0) ?_)
      exact reservedSum_close hr ho (by decide)
    · exact .refl

theorem releaseEach_moves (rid : RunId) (rws : WorkspaceId) (ids : List ReservationId) :
    ∀ s : Db, LedgerMoves cap ws now s (releaseEach s now rid rws ids) := by
  induction ids with
  | nil => intro s; exact .refl
  | cons resId rest ih =>
      intro s
      exact (releaseSpend_moves cap s rid rws resId).trans (ih _)

/-- The reported cost is at most what was reserved. -/
theorem settledCost_le {reserved cost : ℚ≥0} {actual : Decimal}
    (h : settledCost reserved actual = .ok cost) : cost ≤ reserved := by
  unfold settledCost at h
  split at h
  · cases h
  · cases h
  · cases h; exact le_refl _
  case _ q =>
    split at h
    · cases h
    · split at h
      · cases h; exact le_refl _
      · rename_i h0 hle
        cases h
        rw [Rat.toNNRat_le_iff_le_coe]
        exact le_of_not_gt hle

theorem commitSpend_moves {s s' : Db} {rid : RunId} {rws : WorkspaceId} {resId : ReservationId}
    {actual : Decimal} (hws : ∀ r, s.reservations[resId]? = some r → r.workspaceId = rws)
    (h : commitSpend s now rid rws resId actual = .ok s') : LedgerMoves cap ws now s s' := by
  unfold commitSpend at h
  split at h
  · cases h; exact .refl
  case _ r hr =>
    split at h
    · cases h; exact .refl
    · cases h
    case _ ho =>
      split at h
      · cases h
      case _ cost hcost =>
        cases h
        have hrw := hws r hr
        have hclose : reservedSum s.reservations ws none = reservedSum (s.reservations.modify _
            (SpendReservation.withStatus .committed)) ws none
              + (if r.workspaceId = ws then r.estimatedCostUsd else 0) :=
          reservedSum_close hr ho (by decide)
        by_cases hw : r.workspaceId = ws
        · -- held for this workspace: exchanged for spent
          rw [if_pos hw] at hclose
          have hcount : logCounts ws none none
              ⟨rws, r.provider, r.stage, cost, now⟩ = true := by
            simp [logCounts, ← hrw, hw]
          have hheld : (ledger ws s now).held = _ := hclose
          have hmove : Budget.Move (windows cap) (ledger ws s now) _ :=
            .settle hheld (settledCost_le hcost)
          refine .single (cast ?_ hmove)
          congr 1
          simp only [ledger, Db.emit, Db.flush, List.filter_append, List.map_append]
          rw [List.filter_cons_of_pos hcount]
          rfl
        · -- another workspace's reservation
          rw [if_neg hw, add_zero] at hclose
          have hcount : ¬ logCounts ws none none ⟨rws, r.provider, r.stage, cost, now⟩ = true := by
            simp [logCounts, ← hrw, hw]
          apply LedgerMoves.of_eq
          simp only [ledger, Db.emit, Db.flush, List.filter_append, List.map_append]
          rw [List.filter_cons_of_neg hcount, ← hclose]
          simp

/-- Reserving is moves of the budget, when a granted reservation in `ws` fits. -/
theorem reserveSpend_moves (s : Db) (rid : RunId) (rws : WorkspaceId) (stage : ContentStage)
    (provider : String) (estimate : ℚ≥0)
    (hfit : rws = ws →
      exceededCap (releaseEach s now rid rws (openReservationsFor s rid stage)) now rws provider
        estimate = none →
      FitsCap cap ws (releaseEach s now rid rws (openReservationsFor s rid stage)) now estimate) :
    LedgerMoves cap ws now s (reserveSpend s now rid rws stage provider estimate).1 := by
  have hrel : LedgerMoves cap ws now s
      (releaseEach s now rid rws (openReservationsFor s rid stage)) :=
    releaseEach_moves cap rid rws (openReservationsFor s rid stage) s
  unfold reserveSpend recordReservation
  simp only
  generalize releaseEach s now rid rws (openReservationsFor s rid stage) = t at hfit hrel ⊢
  split
  · exact hrel
  · rename_i hex
    refine hrel.trans ?_
    by_cases hw : rws = ws
    · subst hw
      have hmove : Budget.Move (windows cap) (ledger rws t now)
          { ledger rws t now with held := (ledger rws t now).held + estimate } := .hold
        ((fitsCap_iff cap rws t now estimate).mp (hfit rfl hex))
      refine .single (cast ?_ hmove)
      congr 1
      simp [ledger, Db.emit, Db.flush, reservedSum, Table.total_push, reservationCounts]
    · refine LedgerMoves.of_eq cap ?_
      have hne : (rws == ws) = false := beq_eq_false_iff_ne.mpr hw
      simp [ledger, Db.emit, Db.flush, reservedSum, Table.total_push, reservationCounts, hne]

end Moves

/-! ## Runs of spend operations -/

/-- The database and the clock. -/
structure SpendState where
  db : Db
  now : Instant

/-- The spend operations. A reservation is settled for the run it was made for. -/
inductive SpendAction where
  | reserve (rid : RunId) (stage : ContentStage) (provider : String) (estimate : ℚ≥0)
  | commit (resId : ReservationId) (actual : Decimal)
  | release (resId : ReservationId)
  | releaseAll (rid : RunId)

structure SpendOp where
  now : Instant
  action : SpendAction

/-- The run a reservation was made for. -/
def reservationRun (s : Db) (resId : ReservationId) : Option (RunId × PipelineRun) :=
  ((s.reservations[resId]?).bind SpendReservation.pipelineRunId).bind fun rid =>
    (s.runs[rid]?).map fun run => (rid, run)

/-- The ledger after an operation; one that raises changes nothing. -/
def spendExec (s : Db) (now : Instant) : SpendAction → Db
  | .reserve rid stage provider estimate =>
      match s.runs[rid]? with
      | none => s
      | some run => (reserveSpend s now rid run.workspaceId stage provider estimate).1
  | .commit resId actual =>
      match reservationRun s resId with
      | none => s
      | some (rid, run) =>
          match commitSpend s now rid run.workspaceId resId actual with
          | .error _ => s
          | .ok s' => s'
  | .release resId =>
      match reservationRun s resId with
      | none => s
      | some (rid, run) => releaseSpend s now rid run.workspaceId resId
  | .releaseAll rid =>
      match s.runs[rid]? with
      | none => s
      | some run => releaseAllReservations s now rid run.workspaceId

/-- The cap rows of `ws`: one workspace-wide row, `cap`, and the providers' own rows. -/
def HasWideCap (ws : WorkspaceId) (cap : SpendCap) (s : Db) : Prop :=
  s.caps.find? (fun c => c.workspaceId == ws && c.provider == none) = some cap

/-- Spend operations at non-decreasing times, from an empty ledger. -/
def spendSystem (ws : WorkspaceId) (cap : SpendCap) : System SpendState SpendOp where
  init s := HasWideCap ws cap s.db ∧ s.db.reservations = [] ∧ s.db.logs = []
  allowed s o := s.now ≤ o.now
  exec s o := ⟨spendExec s.db o.now o.action, o.now⟩

/-! ## Whose reservation it is

The columns that say so are written once. -/

/-- The run and workspace columns of the reservations. -/
def owners (s : Db) : List (Option RunId × WorkspaceId) :=
  s.reservations.map fun r => (r.pipelineRunId, r.workspaceId)

/-- The workspace column of the runs. -/
def homes (s : Db) : List WorkspaceId := s.runs.map PipelineRun.workspaceId

/-- Every reservation belongs to a run of its workspace. -/
def ReservationsOwned (s : Db) : Prop :=
  ∀ p ∈ owners s, ∀ rid, p.1 = some rid → (homes s)[rid]? = some p.2

theorem homes_of_core {s s' : Db} (h : s'.core = s.core) : homes s' = homes s := by
  have hruns : s'.core.runs = s.core.runs := by rw [h]
  exact congrArg (List.map PipelineRun.workspaceId) hruns

theorem owners_withStatus (status : ReservationStatus) (rs : List SpendReservation)
    (i : ReservationId) :
    (rs.modify i (SpendReservation.withStatus status)).map
        (fun r => (r.pipelineRunId, r.workspaceId))
      = rs.map fun r => (r.pipelineRunId, r.workspaceId) :=
  Table.map_modify_same (f := SpendReservation.withStatus status) (fun _ => rfl) rs i

theorem owners_releaseSpend (s : Db) (now : Instant) (rid : RunId) (ws : WorkspaceId)
    (resId : ReservationId) : owners (releaseSpend s now rid ws resId) = owners s := by
  unfold releaseSpend
  split
  · rfl
  · split
    · exact owners_withStatus .released s.reservations resId
    · rfl

theorem owners_releaseEach (now : Instant) (rid : RunId) (ws : WorkspaceId)
    (ids : List ReservationId) : ∀ s : Db, owners (releaseEach s now rid ws ids) = owners s := by
  induction ids with
  | nil => intro s; rfl
  | cons resId rest ih =>
      intro s
      rw [releaseEach, ih, owners_releaseSpend]

theorem owners_commitSpend {s s' : Db} {now : Instant} {rid : RunId} {ws : WorkspaceId}
    {resId : ReservationId} {actual : Decimal}
    (h : commitSpend s now rid ws resId actual = .ok s') : owners s' = owners s := by
  unfold commitSpend at h
  split at h
  · cases h; rfl
  · split at h
    · cases h; rfl
    · cases h
    · split at h
      · cases h
      · cases h
        exact owners_withStatus .committed s.reservations resId

theorem owners_recordReservation (s : Db) (now : Instant) (rid : RunId) (ws : WorkspaceId)
    (stage : ContentStage) (provider : String) (estimate : ℚ≥0) (kind : Option CapKind) :
    owners (recordReservation s now rid ws stage provider estimate kind).1
      = owners s ++ (if kind.isNone then [(some rid, ws)] else []) := by
  cases kind with
  | some k => simp [recordReservation, owners, Db.emit, Db.flush, Db.updateRun]
  | none => simp [recordReservation, owners, Db.emit, Db.flush]

theorem owners_reserveSpend (s : Db) (now : Instant) (rid : RunId) (ws : WorkspaceId)
    (stage : ContentStage) (provider : String) (estimate : ℚ≥0) :
    ∀ p ∈ owners (reserveSpend s now rid ws stage provider estimate).1,
      p ∈ owners s ∨ p = (some rid, ws) := by
  intro p hp
  unfold reserveSpend at hp
  simp only at hp
  rw [owners_recordReservation, owners_releaseEach] at hp
  rcases List.mem_append.mp hp with h | h
  · exact .inl h
  · split at h
    · exact .inr (List.mem_singleton.mp h)
    · cases h

theorem homes_reserveSpend (s : Db) (now : Instant) (rid : RunId) (ws : WorkspaceId)
    (stage : ContentStage) (provider : String) (estimate : ℚ≥0) :
    homes (reserveSpend s now rid ws stage provider estimate).1 = homes s := by
  rcases core_reserveSpend s now rid ws stage provider estimate with ⟨_, h⟩ | ⟨_, h⟩
  · rw [homes_of_core h]
    exact Table.map_modify_same (f := PipelineRun.holdForSpend) (fun _ => rfl) s.runs rid
  · exact homes_of_core h

/-- A reservation is for a run of its own workspace, so settling it concerns that workspace. -/
theorem reservationRun_workspace {s : Db} (h : ReservationsOwned s) {resId : ReservationId}
    {rid : RunId} {run : PipelineRun} (hrun : reservationRun s resId = some (rid, run)) :
    ∀ r, s.reservations[resId]? = some r → r.workspaceId = run.workspaceId := by
  intro r hr
  unfold reservationRun at hrun
  rw [hr, Option.bind_some, Option.bind_eq_some_iff] at hrun
  obtain ⟨rid', hrid, hmap⟩ := hrun
  rw [Option.map_eq_some_iff] at hmap
  obtain ⟨run', hget, heq⟩ := hmap
  cases heq
  have hown := h (r.pipelineRunId, r.workspaceId)
    (List.mem_map_of_mem (f := fun r : SpendReservation => (r.pipelineRunId, r.workspaceId))
      (Table.mem_of_get hr)) rid hrid
  unfold homes at hown
  rw [List.getElem?_map, hget] at hown
  simpa using hown.symm

/-! ## What one operation keeps -/

/-- Only a refused reservation touches anything but the ledger, and only the run's status. -/
theorem spendExec_frame (s : Db) (now : Instant) (a : SpendAction) :
    (spendExec s now a).caps = s.caps ∧ homes (spendExec s now a) = homes s := by
  have of_core : ∀ {t : Db}, t.core = s.core → t.caps = s.caps ∧ homes t = homes s := by
    intro t h
    have hcaps : t.core.caps = s.core.caps := by rw [h]
    exact ⟨hcaps, homes_of_core h⟩
  cases a with
  | reserve rid stage provider estimate =>
      unfold spendExec
      simp only
      split
      · exact ⟨rfl, rfl⟩
      · rename_i run _
        refine ⟨?_, homes_reserveSpend ..⟩
        rcases core_reserveSpend s now rid run.workspaceId stage provider estimate with
          ⟨_, h⟩ | ⟨_, h⟩
        · have hcaps := congrArg Db.caps h
          exact hcaps
        · exact (of_core h).1
  | commit resId actual =>
      unfold spendExec
      simp only
      split
      · exact ⟨rfl, rfl⟩
      · split
        · exact ⟨rfl, rfl⟩
        · rename_i h
          exact of_core (core_commitSpend h)
  | release resId =>
      unfold spendExec
      simp only
      split
      · exact ⟨rfl, rfl⟩
      · exact of_core (core_releaseSpend ..)
  | releaseAll rid =>
      unfold spendExec
      simp only
      split
      · exact ⟨rfl, rfl⟩
      · exact of_core (core_releaseAllReservations ..)

theorem spendExec_owned {s : Db} (h : ReservationsOwned s) (now : Instant) (a : SpendAction) :
    ReservationsOwned (spendExec s now a) := by
  have hhomes := (spendExec_frame s now a).2
  -- but for a new reservation the owners are those of before
  have same : owners (spendExec s now a) = owners s → ReservationsOwned (spendExec s now a) := by
    intro ho p hp rid hrid
    rw [hhomes]
    exact h p (ho ▸ hp) rid hrid
  cases a with
  | reserve rid stage provider estimate =>
      unfold spendExec at hhomes same ⊢
      simp only at hhomes same ⊢
      split at hhomes
      · exact h
      · rename_i run hrun
        intro p hp rid' hrid
        rw [hhomes]
        rcases owners_reserveSpend s now rid run.workspaceId stage provider estimate p hp with
          hold | rfl
        · exact h p hold rid' hrid
        · cases hrid
          unfold homes
          rw [List.getElem?_map, hrun]
          rfl
  | commit resId actual =>
      refine same ?_
      unfold spendExec
      simp only
      split
      · rfl
      · split
        · rfl
        · rename_i h
          exact owners_commitSpend h
  | release resId =>
      refine same ?_
      unfold spendExec
      simp only
      split
      · rfl
      · exact owners_releaseSpend ..
  | releaseAll rid =>
      refine same ?_
      unfold spendExec
      simp only
      split
      · rfl
      · exact owners_releaseEach ..

/-- The state in which `reserve_spend` checks the cap: earlier reservations of the run and
stage are released. -/
def checkedState (s : Db) (now : Instant) (rid : RunId) (ws : WorkspaceId)
    (stage : ContentStage) : Db :=
  releaseEach s now rid ws (openReservationsFor s rid stage)

/-- If the operation reserves for a run of `ws` and the code grants it, it fits. -/
def GrantsFit (cap : SpendCap) (ws : WorkspaceId) (s : Db) (now : Instant) :
    SpendAction → Prop
  | .reserve rid stage provider estimate =>
      ∀ run, s.runs[rid]? = some run → run.workspaceId = ws →
        exceededCap (checkedState s now rid ws stage) now ws provider estimate = none →
        FitsCap cap ws (checkedState s now rid ws stage) now estimate
  | _ => True

theorem spendExec_moves (cap : SpendCap) {ws : WorkspaceId} {s : Db} {now : Instant}
    {a : SpendAction} (hown : ReservationsOwned s) (hfit : GrantsFit cap ws s now a) :
    LedgerMoves cap ws now s (spendExec s now a) := by
  cases a with
  | reserve rid stage provider estimate =>
      unfold spendExec
      simp only
      split
      · exact .refl
      · rename_i run hrun
        refine reserveSpend_moves cap s rid run.workspaceId stage provider estimate ?_
        intro hw hex
        exact hw ▸ hfit run hrun hw (hw ▸ hex)
  | commit resId actual =>
      unfold spendExec
      simp only
      split
      · exact .refl
      · rename_i rid run hrun
        split
        · exact .refl
        · rename_i hc
          exact commitSpend_moves cap (reservationRun_workspace hown hrun) hc
  | release resId =>
      unfold spendExec
      simp only
      split
      · exact .refl
      · exact releaseSpend_moves cap s _ _ resId
  | releaseAll rid =>
      unfold spendExec
      simp only
      split
      · exact .refl
      · exact releaseEach_moves cap _ _ _ s

/-- Time passing is a move too. -/
theorem tick_moves (cap : SpendCap) (ws : WorkspaceId) (s : Db) {now later : Instant}
    (h : now ≤ later) :
    ReflTransGen (Budget.Move (windows cap)) (ledger ws s now) (ledger ws s later) :=
  .single (Budget.Move.tick (b := ledger ws s now) h)

/-- What every run of spend operations keeps. -/
structure SpendInv (ws : WorkspaceId) (cap : SpendCap) (s : SpendState) : Prop where
  wide : HasWideCap ws cap s.db
  owned : ReservationsOwned s.db
  within : WithinCap cap ws s.db s.now

theorem spendInv_init {ws : WorkspaceId} {cap : SpendCap} {s : SpendState}
    (h : (spendSystem ws cap).init s) : SpendInv ws cap s := by
  obtain ⟨hwide, hres, hlogs⟩ := h
  refine ⟨hwide, ?_, ?_⟩
  · intro p hp
    unfold owners at hp
    rw [hres] at hp
    cases hp
  · have hempty : ledger ws s.db s.now = ⟨s.now, [], 0⟩ := by
      simp [ledger, hres, hlogs, reservedSum]
    rw [withinCap_iff, hempty]
    intro w _
    exact Budget.within_empty w s.now

/-- **One operation.** It keeps the invariant if what it grants fits. -/
theorem spendInv_step {ws : WorkspaceId} {cap : SpendCap} {s : SpendState} {o : SpendOp}
    (hinv : SpendInv ws cap s) (hnow : s.now ≤ o.now)
    (hfit : GrantsFit cap ws s.db o.now o.action) :
    SpendInv ws cap ((spendSystem ws cap).exec s o) := by
  have hframe := spendExec_frame s.db o.now o.action
  refine ⟨?_, spendExec_owned hinv.owned o.now o.action, ?_⟩
  · show List.find? _ (spendExec s.db o.now o.action).caps = some cap
    rw [hframe.1]
    exact hinv.wide
  · show WithinCap cap ws (spendExec s.db o.now o.action) o.now
    rw [withinCap_iff]
    have hb := (withinCap_iff cap ws s.db s.now).mp hinv.within
    exact Budget.moves_within
      ((tick_moves cap ws s.db hnow).trans (spendExec_moves cap hinv.owned hfit)) hb

/-! ## The governing cap row -/

theorem capExceeded_eq_none {cap : SpendCap} {daily monthly e : ℚ≥0}
    (h : capExceeded cap daily monthly e = none) :
    daily + e ≤ cap.dailyCapUsd ∧ monthly + e ≤ cap.monthlyCapUsd := by
  unfold capExceeded at h
  split at h
  · cases h
  · split at h
    · cases h
    · rename_i hd hm
      exact ⟨le_of_not_gt hd, le_of_not_gt hm⟩

/-- `provider` has a cap row of its own in `ws`. -/
def HasOwnCap (ws : WorkspaceId) (provider : String) (s : Db) : Prop :=
  ∃ c ∈ s.caps, c.workspaceId = ws ∧ c.provider = some provider

/-- Without a row of its own, a provider is governed by the workspace-wide row. -/
theorem load_of_wide {ws : WorkspaceId} {cap : SpendCap} {s : Db} {provider : String}
    (hwide : HasWideCap ws cap s) (hown : ¬ HasOwnCap ws provider s) :
    loadSpendCapForUpdate s ws provider = some cap ∧ usageProvider cap provider = none := by
  have hnone : s.caps.find? (fun c => c.workspaceId == ws && c.provider == some provider)
      = none := by
    rw [List.find?_eq_none]
    intro c hc hp
    rw [Bool.and_eq_true, beq_iff_eq, beq_iff_eq] at hp
    exact hown ⟨c, hc, hp.1, hp.2⟩
  constructor
  · unfold loadSpendCapForUpdate
    rw [hnone]
    exact hwide
  · have hrow := List.find?_some hwide
    simp only [Bool.and_eq_true, beq_iff_eq] at hrow
    unfold usageProvider
    rw [hrow.2]
    rfl

/-- Under the workspace-wide cap, a reservation that is granted fits. -/
theorem fitsCap_of_wide {ws : WorkspaceId} {cap : SpendCap} {s : Db} {now : Instant}
    {provider : String} {e : ℚ≥0} (hwide : HasWideCap ws cap s)
    (hown : ¬ HasOwnCap ws provider s) (h : exceededCap s now ws provider e = none) :
    FitsCap cap ws s now e := by
  obtain ⟨hload, husage⟩ := load_of_wide hwide hown
  unfold exceededCap at h
  rw [hload] at h
  simp only [husage] at h
  exact capExceeded_eq_none h

theorem caps_checkedState (s : Db) (now : Instant) (rid : RunId) (ws : WorkspaceId)
    (stage : ContentStage) : (checkedState s now rid ws stage).caps = s.caps := by
  have h : (checkedState s now rid ws stage).core.caps = s.core.caps := by
    unfold checkedState
    rw [core_releaseEach]
  exact h

/-- What is granted under the workspace-wide row fits, so only the providers with a row of
their own need looking at. -/
theorem grantsFit_of_own {ws : WorkspaceId} {cap : SpendCap} {s : Db} {now : Instant}
    {a : SpendAction} (hwide : HasWideCap ws cap s)
    (hown : ∀ rid stage provider estimate, a = .reserve rid stage provider estimate →
      HasOwnCap ws provider s → GrantsFit cap ws s now a) : GrantsFit cap ws s now a := by
  cases a with
  | reserve rid stage provider estimate =>
      by_cases h : HasOwnCap ws provider s
      · exact hown rid stage provider estimate rfl h
      · intro run _ _ hex
        have hcaps := caps_checkedState s now rid ws stage
        have hwide' : HasWideCap ws cap (checkedState s now rid ws stage) := by
          unfold HasWideCap
          rw [hcaps]
          exact hwide
        have hnone : ¬ HasOwnCap ws provider (checkedState s now rid ws stage) := by
          unfold HasOwnCap
          rw [hcaps]
          exact h
        exact fitsCap_of_wide hwide' hnone hex
  | commit resId actual => exact trivial
  | release resId => exact trivial
  | releaseAll rid => exact trivial

/-! ## A workspace-wide cap only -/

/-- The system of a workspace without provider caps. -/
def wideOnlySystem (ws : WorkspaceId) (cap : SpendCap) : System SpendState SpendOp :=
  { spendSystem ws cap with
    init := fun s => (spendSystem ws cap).init s ∧ ∀ provider, ¬ HasOwnCap ws provider s.db }

/-- **The caps hold in every reachable state**: what was logged since the current day (month)
began plus everything reserved is at most the daily (monthly) cap. -/
theorem spend_within_caps (ws : WorkspaceId) (cap : SpendCap) (s : SpendState)
    (h : (wideOnlySystem ws cap).Reachable s) :
    spendCommittedPlusReserved s.db ws none (some (dayStart s.now)) ≤ cap.dailyCapUsd ∧
    spendCommittedPlusReserved s.db ws none (some (monthStart s.now)) ≤ cap.monthlyCapUsd := by
  have hinv : SpendInv ws cap s ∧ ∀ provider, ¬ HasOwnCap ws provider s.db := by
    refine h.invariant (I := fun s => SpendInv ws cap s ∧ ∀ provider, ¬ HasOwnCap ws provider s.db)
      ?_ ?_
    · rintro s ⟨hinit, hno⟩
      exact ⟨spendInv_init hinit, hno⟩
    · rintro s o ⟨hinv, hno⟩ hnow
      refine ⟨spendInv_step hinv hnow ?_, ?_⟩
      · -- only an own cap lets a reservation past the check of the workspace
        refine grantsFit_of_own hinv.wide ?_
        intro _ _ provider _ _ hown
        exact absurd hown (hno provider)
      · intro provider hown
        unfold HasOwnCap at hown
        rw [show ((wideOnlySystem ws cap).exec s o).db.caps = s.db.caps from
          (spendExec_frame s.db o.now o.action).1] at hown
        exact hno provider hown
  exact hinv.1.within

/-- Workspace 0 with one run, a cap of 10 a day and 100 a month, and nothing spent yet. -/
def cappedDb : Db where
  runs := [{ workspaceId := 0, contentItemId := 0, currentStage := .scripting, status := .running }]
  caps := [wideCap 10 100]

/-- Six reserved before midnight are committed after it, at four; then ten more are asked
for, and six. -/
def cappedOps : List SpendOp :=
  [⟨dayStart 0, .reserve 0 .scripting "draft_desk" (usd 6)⟩,
   ⟨microsPerDay, .commit 0 (.finite (usd 4))⟩,
   ⟨microsPerDay, .reserve 0 .scripting "draft_desk" (usd 10)⟩,
   ⟨microsPerDay, .reserve 0 .scripting "other" (usd 6)⟩]

def cappedRun : SpendState := cappedOps.foldl (wideOnlySystem 0 (wideCap 10 100)).exec ⟨cappedDb, 0⟩

theorem cappedRun_reachable : (wideOnlySystem 0 (wideCap 10 100)).Reachable cappedRun := by
  refine System.Reachable.of_legal cappedOps (.init ⟨⟨rfl, rfl, rfl⟩, ?_⟩) ?_
  · rintro provider ⟨c, hc, _, hp⟩
    rw [List.mem_singleton.mp hc] at hp
    cases hp
  · exact ⟨Nat.zero_le _, Nat.zero_le _, Nat.le_refl _, Nat.le_refl _, trivial⟩

theorem cappedRun_within_caps :
    (wideOnlySystem 0 (wideCap 10 100)).Reachable cappedRun ∧
    (cappedRun.db.logs.length = 1 ∧ cappedRun.db.reservations.length = 2) ∧
    spendCommittedPlusReserved cappedRun.db 0 none (some (dayStart cappedRun.now)) ≤ 10 ∧
    spendCommittedPlusReserved cappedRun.db 0 none (some (monthStart cappedRun.now)) ≤ 100 :=
  ⟨cappedRun_reachable, by decide +kernel,
    spend_within_caps 0 (wideCap 10 100) cappedRun cappedRun_reachable⟩

/-! ## Provider caps beside the workspace-wide one -/

/-- Where a reservation is for a provider with a cap row of its own, and that row admits it, it
fits under the workspace-wide cap as well. -/
def OwnCapGrantsFit (ws : WorkspaceId) (cap : SpendCap) (s : SpendState) (o : SpendOp) : Prop :=
  ∀ rid stage provider estimate, o.action = .reserve rid stage provider estimate →
    HasOwnCap ws provider s.db → GrantsFit cap ws s.db o.now o.action

/-- **The workspace-wide cap bounds all providers** in every run whose reservations under a
provider cap fit under the workspace-wide cap too. -/
theorem wide_cap_bounds_all_providers (ws : WorkspaceId) (cap : SpendCap) (s : SpendState)
    (h : ((spendSystem ws cap).restrict (OwnCapGrantsFit ws cap)).Reachable s) :
    spendCommittedPlusReserved s.db ws none (some (dayStart s.now)) ≤ cap.dailyCapUsd ∧
    spendCommittedPlusReserved s.db ws none (some (monthStart s.now)) ≤ cap.monthlyCapUsd := by
  -- what is reserved under no own cap has been checked by the code
  have hinv : SpendInv ws cap s := by
    refine h.invariant (I := SpendInv ws cap) ?_ ?_
    · intro s hs
      exact spendInv_init hs
    · rintro s o hinv ⟨hnow, hcond⟩
      exact spendInv_step hinv hnow (grantsFit_of_own hinv.wide hcond)
  exact hinv.within

/-- The same workspace, where the provider `own` has a cap of 20 a day and 200 a month. -/
def ownCapDb : Db := { cappedDb with caps := [wideCap 10 100, ⟨0, some "own", usd 20, usd 200⟩] }

/-- A reservation of eight for `own` is under both caps. -/
def ownCapState : SpendState :=
  ((spendSystem 0 (wideCap 10 100)).restrict (OwnCapGrantsFit 0 (wideCap 10 100))).exec
    ⟨ownCapDb, 0⟩ ⟨0, .reserve 0 .scripting "own" (usd 8)⟩

theorem ownCapState_reachable :
    ((spendSystem 0 (wideCap 10 100)).restrict
      (OwnCapGrantsFit 0 (wideCap 10 100))).Reachable ownCapState := by
  have hinit : (spendSystem 0 (wideCap 10 100)).init ⟨ownCapDb, 0⟩ := ⟨rfl, rfl, rfl⟩
  refine System.Reachable.step (.init hinit) ⟨Nat.le_refl 0, ?_⟩
  rintro rid stage provider estimate heq _
  cases heq
  intro run _ _ _
  unfold FitsCap
  decide +kernel

theorem ownCapState_within_caps :
    ((spendSystem 0 (wideCap 10 100)).restrict
      (OwnCapGrantsFit 0 (wideCap 10 100))).Reachable ownCapState ∧
    ownCapState.db.reservations.length = 1 ∧
    spendCommittedPlusReserved ownCapState.db 0 none (some (dayStart ownCapState.now)) ≤ 10 ∧
    spendCommittedPlusReserved ownCapState.db 0 none (some (monthStart ownCapState.now)) ≤ 100 :=
  ⟨ownCapState_reachable, by decide +kernel,
    wide_cap_bounds_all_providers 0 (wideCap 10 100) ownCapState ownCapState_reachable⟩

/-- A reservation of fifteen for `own` passes that provider's cap; nobody compares it with the
workspace-wide cap of ten. -/
theorem wide_cap_exceeded_by_own_cap :
    ∃ s, (spendSystem 0 (wideCap 10 100)).Reachable s ∧
      ¬ spendCommittedPlusReserved s.db 0 none (some (dayStart s.now)) ≤ 10 := by
  have hinit : (spendSystem 0 (wideCap 10 100)).init ⟨ownCapDb, 0⟩ := ⟨rfl, rfl, rfl⟩
  let o : SpendOp := ⟨0, .reserve 0 .scripting "own" (usd 15)⟩
  have hallowed : (spendSystem 0 (wideCap 10 100)).allowed ⟨ownCapDb, 0⟩ o := Nat.le_refl 0
  refine ⟨_, System.Reachable.step (.init hinit) hallowed, ?_⟩
  decide +kernel

end HumanGate
