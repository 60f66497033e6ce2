import HumanGate.Spend.Caps

set_option autoImplicit false

/-! # The spend check under READ COMMITTED

`reserve_spend` statement by statement. Each `SELECT` sees what is committed when it starts,
and the transaction's own writes. The transaction holds the lock on the cap row from the
moment it reads it until it commits, so reservations wait for each other; `commit_spend` and
`release_spend` of other runs take no such lock and may commit between any two statements.

A usage figure is the sum over the logs plus, one statement later, the sum over the open
reservations. A commit that falls between the two moves its amount from the second sum into
the first after the first was taken: it is counted in neither. Without such a commit the check
is sound, whatever else happens in between.
-/

namespace HumanGate

open Lib Lib.Calendar

/-! ## Transactions -/

/-- How far a `reserve_spend` transaction is. `dailyLogs` and `monthlyLogs` are the points
inside a usage figure: the logs are summed, the reservations not yet. -/
inductive TxnStep where
  | begun
  | released
  | locked
  | dailyLogs (logs : ℚ≥0)
  | daily (usage : ℚ≥0)
  | monthlyLogs (daily logs : ℚ≥0)
  | monthly (daily usage : ℚ≥0)
  | committed
  deriving DecidableEq

/-- The cap row is locked by the transaction. -/
def TxnStep.holdsLock : TxnStep → Bool
  | .begun | .released | .committed => false
  | _ => true

/-- Between the two `SELECT`s of a usage figure. -/
def TxnStep.midFigure : TxnStep → Bool
  | .dailyLogs _ | .monthlyLogs .. => true
  | _ => false

/-- A `reserve_spend` transaction. `priors` are the reservations it has released; nobody else
sees that before it commits. -/
structure ReserveTxn where
  rid : RunId
  ws : WorkspaceId
  stage : ContentStage
  provider : String
  estimate : ℚ≥0
  priors : List ReservationId := []
  step : TxnStep := .begun

/-- What is committed, the clock, and the transactions. -/
structure RcState where
  db : Db
  now : Instant
  txns : List ReserveTxn

/-- The database as the transaction sees it. -/
def ReserveTxn.view (t : ReserveTxn) (s : Db) (now : Instant) : Db :=
  releaseEach s now t.rid t.ws t.priors

/-- The provider filter of the transaction's sums, from the cap row it has locked. -/
def ReserveTxn.filter (t : ReserveTxn) (s : Db) : Option String :=
  (loadSpendCapForUpdate s t.ws t.provider).bind fun cap => usageProvider cap t.provider

/-- The comparison with the locked cap row. -/
def ReserveTxn.exceeded (t : ReserveTxn) (s : Db) (daily monthly : ℚ≥0) : Option CapKind :=
  match loadSpendCapForUpdate s t.ws t.provider with
  | none => some .missingCap
  | some cap => capExceeded cap daily monthly t.estimate

/-- The first `SELECT` of a usage figure. -/
def ReserveTxn.selectLogs (t : ReserveTxn) (s : Db) (since : Instant) : ℚ≥0 :=
  committedSum s.logs t.ws (t.filter s) (some since)

/-- The second `SELECT` of a usage figure. -/
def ReserveTxn.selectReservations (t : ReserveTxn) (s : Db) (now : Instant) : ℚ≥0 :=
  reservedSum (t.view s now).reservations t.ws (t.filter s)

/-- The next statement of a transaction: the committed database and the transaction after it. -/
def ReserveTxn.next (t : ReserveTxn) (s : Db) (now : Instant) : Db × ReserveTxn :=
  match t.step with
  | .begun => (s, { t with priors := openReservationsFor s t.rid t.stage, step := .released })
  | .released => (s, { t with step := .locked })
  | .locked => (s, { t with step := .dailyLogs (t.selectLogs s (dayStart now)) })
  | .dailyLogs l => (s, { t with step := .daily (l + t.selectReservations s now) })
  | .daily d => (s, { t with step := .monthlyLogs d (t.selectLogs s (monthStart now)) })
  | .monthlyLogs d l => (s, { t with step := .monthly d (l + t.selectReservations s now) })
  | .monthly d m =>
      ((recordReservation (t.view s now) now t.rid t.ws t.stage t.provider t.estimate
        (t.exceeded s d m)).1, { t with step := .committed })
  | .committed => (s, t)

/-! ## Interleavings -/

inductive RcAction where
  | begin (rid : RunId) (stage : ContentStage) (provider : String) (estimate : ℚ≥0)
  | statement (i : Nat)
  | commitSpend (resId : ReservationId) (actual : Decimal)
  | releaseSpend (resId : ReservationId)

structure RcOp where
  now : Instant
  action : RcAction

/-- The reservation is not one of a run with a `reserve_spend` in progress. -/
def OfOtherRun (s : RcState) (resId : ReservationId) : Prop :=
  ∀ t ∈ s.txns, t.step ≠ .committed →
    (s.db.reservations[resId]?).bind SpendReservation.pipelineRunId ≠ some t.rid

/-- Which step may happen next: a run of `ws` reserves; a transaction waits for the lock until
nobody holds it; other runs commit and release at any time. -/
def rcAllowed (ws : WorkspaceId) (s : RcState) : RcAction → Prop
  | .begin rid .. => ∃ run ∈ s.db.runs[rid]?, run.workspaceId = ws
  | .statement i => ∃ t ∈ s.txns[i]?,
      t.step = .released → ∀ u ∈ s.txns, u.step.holdsLock = false
  | .commitSpend resId _ => OfOtherRun s resId
  | .releaseSpend resId => OfOtherRun s resId

instance decRcAllowed (ws : WorkspaceId) (s : RcState) :
    (a : RcAction) → Decidable (rcAllowed ws s a)
  | .begin rid .. => inferInstanceAs (Decidable (∃ run ∈ s.db.runs[rid]?, run.workspaceId = ws))
  | .statement i => inferInstanceAs (Decidable (∃ t ∈ s.txns[i]?,
      t.step = .released → ∀ u ∈ s.txns, u.step.holdsLock = false))
  | .commitSpend resId _ => inferInstanceAs (Decidable (∀ t ∈ s.txns, t.step ≠ .committed →
      (s.db.reservations[resId]?).bind SpendReservation.pipelineRunId ≠ some t.rid))
  | .releaseSpend resId => inferInstanceAs (Decidable (∀ t ∈ s.txns, t.step ≠ .committed →
      (s.db.reservations[resId]?).bind SpendReservation.pipelineRunId ≠ some t.rid))

def rcExec (ws : WorkspaceId) (s : RcState) (now : Instant) : RcAction → RcState
  | .begin rid stage provider estimate =>
      { s with now := now, txns := s.txns ++ [⟨rid, ws, stage, provider, estimate, [], .begun⟩] }
  | .statement i =>
      match s.txns[i]? with
      | none => { s with now := now }
      | some t =>
          { db := (t.next s.db now).1
            now := now
            txns := s.txns.modify i fun _ => (t.next s.db now).2 }
  | .commitSpend resId actual =>
      { s with db := spendExec s.db now (.commit resId actual), now := now }
  | .releaseSpend resId =>
      { s with db := spendExec s.db now (.release resId), now := now }

/-- Any number of reservations in the workspace `ws`, whose only cap row is the workspace-wide
`cap`, interleaved with commits and releases; from any ledger. -/
def readCommitted (ws : WorkspaceId) (cap : SpendCap) : System RcState RcOp where
  init s := s.txns = [] ∧ HasWideCap ws cap s.db ∧ (∀ provider, ¬ HasOwnCap ws provider s.db) ∧
    ReservationsOwned s.db
  allowed s o := s.now ≤ o.now ∧ rcAllowed ws s o.action
  exec s o := rcExec ws s o.now o.action

/-! ## Without interruption it is `reserve_spend` -/

/-- The statements of a transaction, one after the other. -/
def ReserveTxn.run (t : ReserveTxn) (s : Db) (now : Instant) : Nat → Db × ReserveTxn
  | 0 => (s, t)
  | n + 1 => (t.next s now).2.run (t.next s now).1 now n

theorem load_view (t : ReserveTxn) (s : Db) (now : Instant) :
    loadSpendCapForUpdate (t.view s now) t.ws t.provider
      = loadSpendCapForUpdate s t.ws t.provider := by
  have h : (t.view s now).core.caps = s.core.caps := by
    unfold ReserveTxn.view
    rw [core_releaseEach]
  have hcaps : (t.view s now).caps = s.caps := h
  unfold loadSpendCapForUpdate
  rw [hcaps]

theorem logs_releaseEach (now : Instant) (rid : RunId) (ws : WorkspaceId)
    (ids : List ReservationId) : ∀ s : Db, (releaseEach s now rid ws ids).logs = s.logs := by
  induction ids with
  | nil => intro s; rfl
  | cons resId rest ih =>
      intro s
      rw [releaseEach, ih]
      unfold releaseSpend
      split
      · rfl
      · split <;> rfl

/-- **A transaction that nothing interrupts is `reserve_spend`.** -/
theorem run_eq_reserveSpend (s : Db) (now : Instant) (rid : RunId) (ws : WorkspaceId)
    (stage : ContentStage) (provider : String) (estimate : ℚ≥0) :
    (ReserveTxn.run ⟨rid, ws, stage, provider, estimate, [], .begun⟩ s now 7).1
      = (reserveSpend s now rid ws stage provider estimate).1 := by
  let t : ReserveTxn :=
    ⟨rid, ws, stage, provider, estimate, openReservationsFor s rid stage, .begun⟩
  have hlogs := logs_releaseEach now rid ws (openReservationsFor s rid stage) s
  have hload := load_view t s now
  show (recordReservation (t.view s now) now rid ws stage provider estimate
    (t.exceeded s (t.selectLogs s (dayStart now) + t.selectReservations s now)
      (t.selectLogs s (monthStart now) + t.selectReservations s now))).1
    = (recordReservation (t.view s now) now rid ws stage provider estimate
        (exceededCap (t.view s now) now ws provider estimate)).1
  congr 2
  unfold ReserveTxn.exceeded exceededCap
  rw [show loadSpendCapForUpdate (t.view s now) ws provider
    = loadSpendCapForUpdate s t.ws t.provider from hload]
  cases hcap : loadSpendCapForUpdate s t.ws t.provider with
  | none => rfl
  | some cap =>
      simp only [ReserveTxn.selectLogs, ReserveTxn.selectReservations, ReserveTxn.filter, hcap,
        Option.bind_some, spendCommittedPlusReserved]
      rw [show (t.view s now).logs = s.logs from hlogs]

/-! ## What the others change -/

/-- A release, as an update of the row. -/
def SpendReservation.release (r : SpendReservation) : SpendReservation :=
  if r.status = .reserved then r.withStatus .released else r

theorem reservations_releaseSpend (s : Db) (now : Instant) (rid : RunId) (ws : WorkspaceId)
    (resId : ReservationId) :
    (releaseSpend s now rid ws resId).reservations
      = s.reservations.modify resId SpendReservation.release := by
  apply List.ext_getElem?
  intro k
  unfold releaseSpend
  rw [List.getElem?_modify]
  split
  · rename_i hnone
    by_cases hk : resId = k
    · subst hk
      simp [hnone]
    · simp [hk]
  · rename_i r hr
    by_cases hk : resId = k
    · subst hk
      split
      · rename_i ho
        simp [Db.emit, Db.flush, hr, SpendReservation.release, ho]
      · rename_i ho
        simp [hr, SpendReservation.release, ho]
    · split
      · simp [Db.emit, Db.flush, hk]
      · simp

theorem reservations_releaseEach (now : Instant) (rid : RunId) (ws : WorkspaceId)
    (ids : List ReservationId) : ∀ s : Db, (releaseEach s now rid ws ids).reservations
      = Table.modifyAll SpendReservation.release ids s.reservations := by
  induction ids with
  | nil => intro s; rfl
  | cons resId rest ih =>
      intro s
      rw [releaseEach, ih, reservations_releaseSpend]
      rfl

/-- The open reservations as the transaction sees them. -/
def heldFor (ws : WorkspaceId) (priors : List ReservationId) (s : Db) : ℚ≥0 :=
  reservedSum (Table.modifyAll SpendReservation.release priors s.reservations) ws none

/-- The true total since `since`, as the transaction sees it: its own releases count. -/
def usageFor (ws : WorkspaceId) (priors : List ReservationId) (s : Db) (since : Instant) : ℚ≥0 :=
  committedSum s.logs ws none (some since) + heldFor ws priors s

/-- Later windows hold less. -/
theorem committedSum_antitone (logs : List SpendLog) (ws : WorkspaceId) {since later : Instant}
    (h : since ≤ later) :
    committedSum logs ws none (some later) ≤ committedSum logs ws none (some since) := by
  refine Table.total_mono _ ?_ logs
  intro l hl
  simp only [logCounts, Option.all_some, Option.all_none, Bool.and_true, Bool.and_eq_true,
    decide_eq_true_eq] at hl ⊢
  exact ⟨hl.1, Nat.le_trans h hl.2⟩

theorem heldFor_close (ws : WorkspaceId) {priors : List ReservationId} {s : Db}
    {i : ReservationId} {r : SpendReservation} (status : ReservationStatus)
    (hr : s.reservations[i]? = some r) (ho : r.status = .reserved) (hi : i ∉ priors)
    (hs : status ≠ .reserved) :
    heldFor ws priors s =
      reservedSum (Table.modifyAll SpendReservation.release priors
        (s.reservations.modify i (SpendReservation.withStatus status))) ws none
      + (if r.workspaceId = ws then r.estimatedCostUsd else 0) := by
  have hcomm : ∀ r : SpendReservation,
      (r.withStatus status).release = r.release.withStatus status := by
    intro r
    unfold SpendReservation.release
    rw [if_neg (show ¬ (r.withStatus status).status = .reserved from hs)]
    split <;> rfl
  rw [Table.modifyAll_modify_comm hcomm]
  refine reservedSum_close ?_ ho hs
  rw [Table.get_modifyAll_of_notMem hi]
  exact hr

/-- A release of another run's reservation takes nothing in. -/
theorem usageFor_releaseSpend_le {ws : WorkspaceId} {priors : List ReservationId} {s : Db}
    {now : Instant} {rid : RunId} {rws : WorkspaceId} {i : ReservationId} (hi : i ∉ priors)
    (since : Instant) :
    usageFor ws priors (releaseSpend s now rid rws i) since ≤ usageFor ws priors s since := by
  unfold releaseSpend
  split
  · exact le_refl _
  · rename_i r hr
    split
    · rename_i ho
      refine add_le_add (le_refl _) ?_
      rw [heldFor_close ws .released hr ho hi (by decide)]
      exact le_self_add
    · exact le_refl _

/-- A commit of another run's reservation exchanges what was held for at most as much. -/
theorem usageFor_commitSpend_le {ws : WorkspaceId} {priors : List ReservationId} {s s' : Db}
    {now : Instant} {rid : RunId} {rws : WorkspaceId} {i : ReservationId} {actual : Decimal}
    (hi : i ∉ priors) (hws : ∀ r, s.reservations[i]? = some r → r.workspaceId = rws)
    (h : commitSpend s now rid rws i actual = .ok s') (since : Instant) :
    usageFor ws priors s' since ≤ usageFor ws priors s since := by
  unfold commitSpend at h
  split at h
  · cases h; exact le_refl _
  case _ r hr =>
    split at h
    · cases h; exact le_refl _
    · cases h
    case _ ho =>
      split at h
      · cases h
      case _ cost hcost =>
        cases h
        have hclose := heldFor_close ws .committed hr ho hi (by decide)
        have hle := settledCost_le hcost
        unfold usageFor
        rw [hclose]
        simp only [Db.emit, Db.flush, committedSum, Table.total_push, heldFor]
        rw [← hws r hr]
        by_cases hw : r.workspaceId = ws
        · rw [if_pos hw]
          have hpush : (if logCounts ws none (some since)
              ⟨r.workspaceId, r.provider, r.stage, cost, now⟩ = true then cost else 0)
              ≤ r.estimatedCostUsd := by
            split
            · exact hle
            · exact zero_le
          rw [add_assoc, add_comm _ (r.estimatedCostUsd)]
          exact add_le_add (le_refl _) (add_le_add hpush (le_refl _))
        · have hcount : ¬ logCounts ws none (some since)
              ⟨r.workspaceId, r.provider, r.stage, cost, now⟩ = true := by
            simp [logCounts, hw]
          rw [if_neg hw, if_neg hcount, add_zero, add_zero]

/-- The commits and releases that may fall between two statements. -/
inductive Settles : SpendAction → ReservationId → Prop
  | commit (i : ReservationId) (actual : Decimal) : Settles (.commit i actual) i
  | release (i : ReservationId) : Settles (.release i) i

theorem usageFor_spendExec_le {ws : WorkspaceId} {priors : List ReservationId} {s : Db}
    {now : Instant} {a : SpendAction} {i : ReservationId} (ha : Settles a i)
    (hown : ReservationsOwned s) (hi : i ∉ priors) (since : Instant) :
    usageFor ws priors (spendExec s now a) since ≤ usageFor ws priors s since := by
  cases ha with
  | commit i actual =>
      unfold spendExec
      simp only
      split
      · exact le_refl _
      · rename_i rid run hrun
        split
        · exact le_refl _
        · rename_i hc
          exact usageFor_commitSpend_le hi (reservationRun_workspace hown hrun) hc since
  | release i =>
      unfold spendExec
      simp only
      split
      · exact le_refl _
      · exact usageFor_releaseSpend_le hi since

theorem owners_settle {s : Db} {now : Instant} {a : SpendAction} {i : ReservationId}
    (ha : Settles a i) : owners (spendExec s now a) = owners s := by
  cases ha with
  | commit i actual =>
      unfold spendExec
      simp only
      split
      · rfl
      · split
        · rfl
        · rename_i h
          exact owners_commitSpend h
  | release i =>
      unfold spendExec
      simp only
      split
      · rfl
      · exact owners_releaseSpend ..

/-! ## The invariant -/

/-- The reservations a transaction has released are its own run's. -/
def PriorsOwn (s : Db) (t : ReserveTxn) : Prop :=
  ∀ i ∈ t.priors, ((owners s)[i]?).map Prod.fst = some (some t.rid)

/-- The figures a transaction has read are not below the true totals. -/
def FiguresSound (ws : WorkspaceId) (s : Db) (now : Instant) (t : ReserveTxn) : Prop :=
  match t.step with
  | .dailyLogs l => committedSum s.logs ws none (some (dayStart now)) ≤ l
  | .daily d => usageFor ws t.priors s (dayStart now) ≤ d
  | .monthlyLogs d l => usageFor ws t.priors s (dayStart now) ≤ d ∧
      committedSum s.logs ws none (some (monthStart now)) ≤ l
  | .monthly d m => usageFor ws t.priors s (dayStart now) ≤ d ∧
      usageFor ws t.priors s (monthStart now) ≤ m
  | _ => True

structure RcInv (ws : WorkspaceId) (cap : SpendCap) (s : RcState) : Prop where
  wide : HasWideCap ws cap s.db
  noOwn : ∀ provider, ¬ HasOwnCap ws provider s.db
  owned : ReservationsOwned s.db
  here : ∀ t ∈ s.txns, t.ws = ws
  runs : ∀ t ∈ s.txns, (homes s.db)[t.rid]? = some ws
  priors : ∀ t ∈ s.txns, PriorsOwn s.db t
  sound : ∀ t ∈ s.txns, FiguresSound ws s.db s.now t
  exclusive : ∀ (i j : Nat) (t u : ReserveTxn), s.txns[i]? = some t → s.txns[j]? = some u →
    t.step.holdsLock = true →
    u.step.holdsLock = true → i = j

/-- No commit of a reservation of `ws` falls between the two `SELECT`s of a usage figure. -/
def NoCommitMidFigure (ws : WorkspaceId) (s : RcState) (o : RcOp) : Prop :=
  match o.action with
  | .commitSpend resId _ => ∀ r ∈ s.db.reservations[resId]?, r.workspaceId = ws →
      ∀ t ∈ s.txns, t.step.midFigure = false
  | _ => True

theorem figuresSound_later {ws : WorkspaceId} {s : Db} {now later : Instant} {t : ReserveTxn}
    (hle : now ≤ later) (h : FiguresSound ws s now t) : FiguresSound ws s later t := by
  have hday := committedSum_antitone s.logs ws (dayStart_mono hle)
  have hmonth := committedSum_antitone s.logs ws (monthStart_mono hle)
  have husage : ∀ {a b : Instant}, committedSum s.logs ws none (some b)
      ≤ committedSum s.logs ws none (some a) →
      usageFor ws t.priors s b ≤ usageFor ws t.priors s a :=
    fun hab => add_le_add hab (le_refl _)
  unfold FiguresSound at h ⊢
  split at h
  · exact le_trans hday h
  · exact le_trans (husage hday) h
  · exact ⟨le_trans (husage hday) h.1, le_trans hmonth h.2⟩
  · exact ⟨le_trans (husage hday) h.1, le_trans (husage hmonth) h.2⟩
  · trivial

theorem figuresSound_of_unlocked {ws : WorkspaceId} {s : Db} {now : Instant} {t : ReserveTxn}
    (h : t.step.holdsLock = false) : FiguresSound ws s now t := by
  unfold FiguresSound
  cases hs : t.step <;> simp_all [TxnStep.holdsLock]

/-- In a workspace with one cap row a transaction sums over all providers. -/
theorem filter_eq_none {ws : WorkspaceId} {cap : SpendCap} {s : RcState}
    (hinv : RcInv ws cap s) {t : ReserveTxn} (ht : t ∈ s.txns) : t.filter s.db = none := by
  obtain ⟨hload, husage⟩ := load_of_wide hinv.wide (hinv.noOwn t.provider)
  unfold ReserveTxn.filter
  rw [hinv.here t ht, hload]
  exact husage

theorem selectLogs_eq {ws : WorkspaceId} {cap : SpendCap} {s : RcState} (hinv : RcInv ws cap s)
    {t : ReserveTxn} (ht : t ∈ s.txns) (since : Instant) :
    t.selectLogs s.db since = committedSum s.db.logs ws none (some since) := by
  unfold ReserveTxn.selectLogs
  rw [filter_eq_none hinv ht, hinv.here t ht]

theorem selectReservations_eq {ws : WorkspaceId} {cap : SpendCap} {s : RcState}
    (hinv : RcInv ws cap s) {t : ReserveTxn} (ht : t ∈ s.txns) (now : Instant) :
    t.selectReservations s.db now = heldFor ws t.priors s.db := by
  unfold ReserveTxn.selectReservations ReserveTxn.view heldFor
  rw [filter_eq_none hinv ht, reservations_releaseEach, hinv.here t ht]

/-! ### Steps of other transactions -/

/-- A settled reservation is none of those a transaction in progress has released. -/
theorem notMem_priors {s : RcState} {i : ReservationId} (hother : OfOtherRun s i)
    {t : ReserveTxn} (ht : t ∈ s.txns) (hstep : t.step ≠ .committed)
    (hpriors : PriorsOwn s.db t) : i ∉ t.priors := by
  intro hi
  have hrun := hpriors i hi
  unfold owners at hrun
  rw [List.getElem?_map] at hrun
  cases hr : s.db.reservations[i]? with
  | none => simp [hr] at hrun
  | some r =>
      rw [hr] at hrun
      refine hother t ht hstep ?_
      rw [hr]
      simpa using hrun

theorem committedSum_settle {ws : WorkspaceId} {s : Db} {now : Instant} {a : SpendAction}
    {i : ReservationId} (ha : Settles a i) (hown : ReservationsOwned s)
    (hws : ∀ actual r, a = .commit i actual → s.reservations[i]? = some r → r.workspaceId ≠ ws)
    (since : Instant) :
    committedSum (spendExec s now a).logs ws none (some since)
      = committedSum s.logs ws none (some since) := by
  cases ha with
  | release i =>
      unfold spendExec
      simp only
      split
      · rfl
      · exact congrArg (fun l => committedSum l ws none (some since))
          (logs_releaseEach now _ _ [i] s)
  | commit i actual =>
      unfold spendExec
      simp only
      split
      · rfl
      case _ rid run hrun =>
        split
        · rfl
        case _ s' hc =>
          unfold commitSpend at hc
          split at hc
          · cases hc; rfl
          case _ r hr =>
            split at hc
            · cases hc; rfl
            · cases hc
            · split at hc
              · cases hc
              · cases hc
                have hne := hws actual r rfl hr
                rw [reservationRun_workspace hown hrun r hr] at hne
                simp only [committedSum, Db.emit, Db.flush, Table.total_push]
                simp [logCounts, hne]

/-- A commit or a release of another run keeps the invariant. -/
theorem rcInv_settle {ws : WorkspaceId} {cap : SpendCap} {s : RcState} {now : Instant}
    {a : SpendAction} {i : ReservationId} (hinv : RcInv ws cap s) (hnow : s.now ≤ now)
    (ha : Settles a i) (hother : OfOtherRun s i)
    (hmid : ∀ actual r, a = .commit i actual → s.db.reservations[i]? = some r →
      r.workspaceId = ws → ∀ t ∈ s.txns, t.step.midFigure = false) :
    RcInv ws cap { s with db := spendExec s.db now a, now := now } := by
  obtain ⟨hcaps, hhomes⟩ := spendExec_frame s.db now a
  have howners : owners (spendExec s.db now a) = owners s.db := owners_settle ha
  refine ⟨?_, ?_, spendExec_owned hinv.owned now a, hinv.here, ?_, ?_, ?_, hinv.exclusive⟩
  · show List.find? _ (spendExec s.db now a).caps = some cap
    rw [hcaps]
    exact hinv.wide
  · intro provider hown
    unfold HasOwnCap at hown
    rw [show ({ s with db := spendExec s.db now a, now := now } : RcState).db.caps = s.db.caps
      from hcaps] at hown
    exact hinv.noOwn provider hown
  · intro t ht
    show (homes (spendExec s.db now a))[t.rid]? = some ws
    rw [hhomes]
    exact hinv.runs t ht
  · intro t ht
    show ∀ j ∈ t.priors, ((owners (spendExec s.db now a))[j]?).map Prod.fst = some (some t.rid)
    rw [howners]
    exact hinv.priors t ht
  · intro t ht
    have hlater := figuresSound_later hnow (hinv.sound t ht)
    by_cases hc : t.step = .committed
    · exact figuresSound_of_unlocked (by rw [hc]; rfl)
    have hi := notMem_priors hother ht hc (hinv.priors t ht)
    have husage : ∀ since, usageFor ws t.priors (spendExec s.db now a) since
        ≤ usageFor ws t.priors s.db since := usageFor_spendExec_le ha hinv.owned hi
    -- inside a figure the logs of the workspace stand still
    have hlogs : t.step.midFigure = true → ∀ since,
        committedSum (spendExec s.db now a).logs ws none (some since)
          = committedSum s.db.logs ws none (some since) := by
      intro hmf
      refine committedSum_settle ha hinv.owned ?_
      intro actual r hact hr hw
      have := hmid actual r hact hr hw t ht
      rw [hmf] at this
      cases this
    show FiguresSound ws (spendExec s.db now a) now t
    unfold FiguresSound at hlater ⊢
    split at hlater
    · rename_i hs
      rw [hlogs (by rw [hs]; rfl)]
      exact hlater
    · exact le_trans (husage _) hlater
    · rename_i hs
      refine ⟨le_trans (husage _) hlater.1, ?_⟩
      rw [hlogs (by rw [hs]; rfl)]
      exact hlater.2
    · exact ⟨le_trans (husage _) hlater.1, le_trans (husage _) hlater.2⟩
    · trivial

/-! ### Statements of a transaction -/

theorem rcInv_begin {ws : WorkspaceId} {cap : SpendCap} {s : RcState} {now : Instant}
    (hinv : RcInv ws cap s) (hnow : s.now ≤ now) {rid : RunId} (stage : ContentStage)
    (provider : String) (estimate : ℚ≥0)
    (hrun : ∃ run, s.db.runs[rid]? = some run ∧ run.workspaceId = ws) :
    RcInv ws cap (rcExec ws s now (.begin rid stage provider estimate)) := by
  refine ⟨hinv.wide, hinv.noOwn, hinv.owned, ?_, ?_, ?_, ?_, ?_⟩
  · exact Table.forall_push hinv.here rfl
  · refine Table.forall_push hinv.runs ?_
    obtain ⟨run, hget, hws⟩ := hrun
    show (homes s.db)[rid]? = some ws
    unfold homes
    rw [List.getElem?_map, hget, ← hws]
    rfl
  · exact Table.forall_push hinv.priors (by intro i hi; cases hi)
  · exact Table.forall_push (fun t ht => figuresSound_later hnow (hinv.sound t ht)) trivial
  · -- the new transaction holds no lock
    have hold : ∀ (i : Nat) (t : ReserveTxn), (s.txns ++
        [(⟨rid, ws, stage, provider, estimate, [], .begun⟩ : ReserveTxn)])[i]? = some t →
        t.step.holdsLock = true → s.txns[i]? = some t := by
      intro i t hi ht
      rcases Table.get_push hi with h | ⟨_, rfl⟩
      · exact h
      · cases ht
    intro i j t u hi hj ht hu
    exact hinv.exclusive i j t u (hold i t hi ht) (hold j u hj hu) ht hu

/-- Until it commits, a transaction only changes itself. -/
theorem next_db {t : ReserveTxn} (s : Db) (now : Instant) (h : ∀ d m, t.step ≠ .monthly d m) :
    (t.next s now).1 = s := by
  unfold ReserveTxn.next
  split <;> first | rfl | (rename_i d m hs; exact absurd hs (h d m))

theorem next_fixed (t : ReserveTxn) (s : Db) (now : Instant) :
    (t.next s now).2.ws = t.ws ∧ (t.next s now).2.rid = t.rid := by
  unfold ReserveTxn.next
  split <;> exact ⟨rfl, rfl⟩

/-- The lock is taken after `released`, and kept until the commit. -/
theorem next_holdsLock {t : ReserveTxn} {s : Db} {now : Instant}
    (h : (t.next s now).2.step.holdsLock = true) :
    t.step = .released ∨ t.step.holdsLock = true := by
  unfold ReserveTxn.next at h
  cases hs : t.step <;> rw [hs] at h <;> first | (left; rfl) | (right; rfl) | skip
  · cases h
  · simp only [hs] at h
    cases h

theorem priors_next {s : Db} {now : Instant} {t : ReserveTxn} (h : PriorsOwn s t) :
    PriorsOwn s (t.next s now).2 := by
  unfold ReserveTxn.next
  split
  · -- the reservations it finds are its run's
    intro i hi
    obtain ⟨r, hr, hp⟩ := Table.mem_select.mp hi
    simp only [Bool.and_eq_true, beq_iff_eq] at hp
    unfold owners
    rw [List.getElem?_map, hr]
    simpa using hp.1.1
  all_goals exact h

/-- What a transaction reads keeps its figures sound. -/
theorem sound_next {ws : WorkspaceId} {cap : SpendCap} {s : RcState} {now : Instant}
    (hinv : RcInv ws cap s) {t : ReserveTxn} (ht : t ∈ s.txns)
    (hlater : FiguresSound ws s.db now t) : FiguresSound ws s.db now (t.next s.db now).2 := by
  have hlogs := selectLogs_eq hinv ht
  have hres := selectReservations_eq hinv ht now
  unfold ReserveTxn.next
  unfold FiguresSound at hlater
  split <;> rename_i hs <;> rw [hs] at hlater
  · trivial
  · trivial
  · show committedSum _ _ _ _ ≤ t.selectLogs s.db (dayStart now)
    rw [hlogs]
  · show usageFor _ _ _ _ ≤ _ + t.selectReservations s.db now
    rw [hres]
    exact add_le_add hlater (le_refl _)
  · refine ⟨hlater, ?_⟩
    show committedSum _ _ _ _ ≤ t.selectLogs s.db (monthStart now)
    rw [hlogs]
  · refine ⟨hlater.1, ?_⟩
    show usageFor _ _ _ _ ≤ _ + t.selectReservations s.db now
    rw [hres]
    exact add_le_add hlater.2 (le_refl _)
  · trivial
  · exact figuresSound_of_unlocked (by rw [hs]; rfl)

/-- A statement before the commit. -/
theorem rcInv_read {ws : WorkspaceId} {cap : SpendCap} {s : RcState} {now : Instant} {i : Nat}
    {t : ReserveTxn} (hinv : RcInv ws cap s) (hnow : s.now ≤ now) (hi : s.txns[i]? = some t)
    (hlock : t.step = .released → ∀ u ∈ s.txns, u.step.holdsLock = false) :
    RcInv ws cap
      { s with now := now, txns := s.txns.modify i fun _ => (t.next s.db now).2 } := by
  have ht := Table.mem_of_get hi
  obtain ⟨hws, hrid⟩ := next_fixed t s.db now
  refine ⟨hinv.wide, hinv.noOwn, hinv.owned, ?_, ?_, ?_, ?_, ?_⟩
  · refine Table.forall_replace (hws.trans (hinv.here t ht)) ?_
    intro j u _ hu
    exact hinv.here u (Table.mem_of_get hu)
  · refine Table.forall_replace (hrid ▸ hinv.runs t ht) ?_
    intro j u _ hu
    exact hinv.runs u (Table.mem_of_get hu)
  · refine Table.forall_replace (priors_next (hinv.priors t ht)) ?_
    intro j u _ hu
    exact hinv.priors u (Table.mem_of_get hu)
  · refine Table.forall_replace
      (sound_next hinv ht (figuresSound_later hnow (hinv.sound t ht))) ?_
    intro j u _ hu
    exact figuresSound_later hnow (hinv.sound u (Table.mem_of_get hu))
  · -- who takes the lock does so when nobody holds it
    have hold : ∀ (j : Nat) (u : ReserveTxn),
        (s.txns.modify i fun _ => (t.next s.db now).2)[j]? = some u → u.step.holdsLock = true →
        ∃ v, s.txns[j]? = some v ∧ (v.step.holdsLock = true ∨ (j = i ∧ t.step = .released)) := by
      intro j u hj hu
      obtain ⟨v, hv, ⟨rfl, rfl⟩ | ⟨_, rfl⟩⟩ := Table.get_modify hj
      · rw [hi] at hv
        cases hv
        refine ⟨t, hi, ?_⟩
        rcases next_holdsLock hu with h | h
        · exact .inr ⟨rfl, h⟩
        · exact .inl h
      · exact ⟨u, hv, .inl hu⟩
    intro j k u v hj hk hu hv
    obtain ⟨u', hu', hlu⟩ := hold j u hj hu
    obtain ⟨v', hv', hlv⟩ := hold k v hk hv
    rcases hlu with hlu | ⟨rfl, hrel⟩
    · rcases hlv with hlv | ⟨rfl, hrel⟩
      · exact hinv.exclusive j k u' v' hu' hv' hlu hlv
      · rw [hlock hrel u' (Table.mem_of_get hu')] at hlu
        cases hlu
    · rcases hlv with hlv | ⟨rfl, _⟩
      · rw [hlock hrel v' (Table.mem_of_get hv')] at hlv
        cases hlv
      · rfl

/-- The database after the commit of a transaction: only its own releases and its own
reservation are new. -/
theorem commit_frame (t : ReserveTxn) (s : Db) (now : Instant) (kind : Option CapKind) :
    let s' := (recordReservation (t.view s now) now t.rid t.ws t.stage t.provider t.estimate
      kind).1
    s'.caps = s.caps ∧ homes s' = homes s ∧
      owners s' = owners s ++ (if kind.isNone then [(some t.rid, t.ws)] else []) := by
  have hcore : (t.view s now).core = s.core := core_releaseEach ..
  have hcaps : (t.view s now).core.caps = s.core.caps := by rw [hcore]
  have hhomes := homes_of_core hcore
  have howners : owners (t.view s now) = owners s := owners_releaseEach ..
  refine ⟨?_, ?_, ?_⟩
  · cases kind <;> exact hcaps
  · rw [← hhomes]
    cases kind with
    | none => rfl
    | some k => exact Table.map_modify_same (f := PipelineRun.holdForSpend) (fun _ => rfl) _ _
  · rw [← howners]
    exact owners_recordReservation ..

/-- The commit of a transaction. -/
theorem rcInv_commit {ws : WorkspaceId} {cap : SpendCap} {s : RcState} {now : Instant} {i : Nat}
    {t : ReserveTxn} {d m : ℚ≥0} (hinv : RcInv ws cap s) (hi : s.txns[i]? = some t)
    (hs : t.step = .monthly d m) :
    RcInv ws cap
      { db := (t.next s.db now).1
        now := now
        txns := s.txns.modify i fun _ => (t.next s.db now).2 } := by
  have ht := Table.mem_of_get hi
  have hdb : (t.next s.db now).1 = (recordReservation (t.view s.db now) now t.rid t.ws t.stage
      t.provider t.estimate (t.exceeded s.db d m)).1 := by
    unfold ReserveTxn.next
    rw [hs]
  have htxn : (t.next s.db now).2 = { t with step := .committed } := by
    unfold ReserveTxn.next
    rw [hs]
  obtain ⟨hcaps, hhomes, howners⟩ := commit_frame t s.db now (t.exceeded s.db d m)
  rw [← hdb] at hcaps hhomes howners
  have hholds : t.step.holdsLock = true := by rw [hs]; rfl
  -- the committed reservations keep their places
  have hkeep : ∀ u : ReserveTxn, PriorsOwn s.db u → PriorsOwn (t.next s.db now).1 u := by
    intro u hu j hj
    have hold := hu j hj
    rw [howners]
    cases ho : (owners s.db)[j]? with
    | none => simp [ho] at hold
    | some p =>
        rw [Table.get_append_of_some ho]
        rw [ho] at hold
        exact hold
  rw [htxn]
  refine ⟨?_, ?_, ?_, ?_, ?_, ?_, ?_, ?_⟩
  · show List.find? _ (t.next s.db now).1.caps = some cap
    rw [hcaps]
    exact hinv.wide
  · rintro provider ⟨c, hc, hcap⟩
    have hc' : c ∈ (t.next s.db now).1.caps := hc
    rw [hcaps] at hc'
    exact hinv.noOwn provider ⟨c, hc', hcap⟩
  · intro p hp rid hrid
    show (homes (t.next s.db now).1)[rid]? = some p.2
    have hp' : p ∈ owners (t.next s.db now).1 := hp
    rw [howners] at hp'
    rw [hhomes]
    rcases List.mem_append.mp hp' with h | h
    · exact hinv.owned p h rid hrid
    · split at h
      · rw [List.mem_singleton.mp h] at hrid ⊢
        cases hrid
        show _ = some t.ws
        rw [hinv.here t ht]
        exact hinv.runs t ht
      · cases h
  · refine Table.forall_replace (hinv.here t ht) ?_
    intro j u _ hu
    exact hinv.here u (Table.mem_of_get hu)
  · refine Table.forall_replace
      (P := fun u : ReserveTxn => (homes (t.next s.db now).1)[u.rid]? = some ws) ?_ ?_
    · rw [hhomes]
      exact hinv.runs t ht
    · intro j u _ hu
      rw [hhomes]
      exact hinv.runs u (Table.mem_of_get hu)
  · refine Table.forall_replace (hkeep _ (hinv.priors t ht)) ?_
    intro j u _ hu
    exact hkeep u (hinv.priors u (Table.mem_of_get hu))
  · refine Table.forall_replace trivial ?_
    intro j u hne hu
    refine figuresSound_of_unlocked ?_
    cases hl : u.step.holdsLock with
    | false => rfl
    | true => exact absurd (hinv.exclusive j i u t hu hi hl hholds) hne
  · have hold : ∀ (j : Nat) (u : ReserveTxn),
        (s.txns.modify i fun _ => { t with step := .committed })[j]? = some u →
        u.step.holdsLock = true → s.txns[j]? = some u := by
      intro j u hj hu
      obtain ⟨v, hv, ⟨rfl, rfl⟩ | ⟨_, rfl⟩⟩ := Table.get_modify hj
      · cases hu
      · exact hv
    intro j k u v hj hk hu hv
    exact hinv.exclusive j k u v (hold j u hj hu) (hold k v hk hv) hu hv

/-! ## Soundness of the check -/

theorem rcInv_init {ws : WorkspaceId} {cap : SpendCap} {s : RcState}
    (h : (readCommitted ws cap).init s) : RcInv ws cap s := by
  obtain ⟨htxns, hwide, hown, howned⟩ := h
  refine ⟨hwide, hown, howned, ?_, ?_, ?_, ?_, ?_⟩ <;> rw [htxns]
  · intro t ht; cases ht
  · intro t ht; cases ht
  · intro t ht; cases ht
  · intro t ht; cases ht
  · intro i j t u hi; simp at hi

theorem rcInv_step {ws : WorkspaceId} {cap : SpendCap} {s : RcState} {o : RcOp}
    (hinv : RcInv ws cap s) (hall : (readCommitted ws cap).allowed s o)
    (hcond : NoCommitMidFigure ws s o) : RcInv ws cap ((readCommitted ws cap).exec s o) := by
  obtain ⟨hnow, hact⟩ := hall
  show RcInv ws cap (rcExec ws s o.now o.action)
  cases ha : o.action with
  | begin rid stage provider estimate =>
      rw [ha] at hact
      exact rcInv_begin hinv hnow stage provider estimate hact
  | statement i =>
      rw [ha] at hact
      obtain ⟨t, hi, hlock⟩ := hact
      rw [Option.mem_def] at hi
      unfold rcExec
      simp only [hi]
      by_cases hm : ∃ d m, t.step = .monthly d m
      · obtain ⟨d, m, hs⟩ := hm
        exact rcInv_commit hinv hi hs
      · have hdb := next_db (t := t) s.db o.now fun d m hs => hm ⟨d, m, hs⟩
        rw [hdb]
        exact rcInv_read hinv hnow hi hlock
  | commitSpend resId actual =>
      rw [ha] at hact
      refine rcInv_settle hinv hnow (.commit resId actual) hact ?_
      intro actual' r _ hr hw
      unfold NoCommitMidFigure at hcond
      rw [ha] at hcond
      exact hcond r hr hw
  | releaseSpend resId =>
      rw [ha] at hact
      refine rcInv_settle hinv hnow (.release resId) hact ?_
      intro actual' r heq
      cases heq

theorem length_owners (s : Db) : (owners s).length = s.reservations.length := by
  unfold owners
  rw [List.length_map]

/-- Only the commit of a transaction that passed its check adds a reservation. -/
theorem creates_cases {ws : WorkspaceId} {cap : SpendCap} {s : RcState} {o : RcOp}
    (hall : (readCommitted ws cap).allowed s o)
    (hnew : s.db.reservations.length < ((readCommitted ws cap).exec s o).db.reservations.length) :
    ∃ i t d m, o.action = .statement i ∧ s.txns[i]? = some t ∧ t.step = .monthly d m ∧
      t.exceeded s.db d m = none := by
  rw [← length_owners, ← length_owners] at hnew
  change (owners s.db).length < (owners (rcExec ws s o.now o.action).db).length at hnew
  cases ha : o.action with
  | begin rid stage provider estimate =>
      rw [ha] at hnew
      exact absurd hnew (lt_irrefl _)
  | statement i =>
      obtain ⟨_, hact⟩ := hall
      rw [ha] at hact hnew
      obtain ⟨t, hi, _⟩ := hact
      rw [Option.mem_def] at hi
      unfold rcExec at hnew
      simp only [hi] at hnew
      -- only the last statement of a reservation inserts it
      by_cases hm : ∃ d m, t.step = .monthly d m
      · obtain ⟨d, m, hs⟩ := hm
        refine ⟨i, t, d, m, rfl, hi, hs, ?_⟩
        have hdb : (t.next s.db o.now).1 = (recordReservation (t.view s.db o.now) o.now t.rid t.ws
            t.stage t.provider t.estimate (t.exceeded s.db d m)).1 := by
          unfold ReserveTxn.next
          rw [hs]
        rw [hdb, (commit_frame t s.db o.now (t.exceeded s.db d m)).2.2] at hnew
        cases hk : t.exceeded s.db d m with
        | none => rfl
        | some k =>
            rw [hk] at hnew
            simp at hnew
      · rw [next_db (t := t) s.db o.now fun d m hs => hm ⟨d, m, hs⟩] at hnew
        exact absurd hnew (lt_irrefl _)
  | commitSpend resId actual =>
      rw [ha] at hnew
      change (owners s.db).length
        < (owners (spendExec s.db o.now (.commit resId actual))).length at hnew
      rw [owners_settle (.commit resId actual)] at hnew
      exact absurd hnew (lt_irrefl _)
  | releaseSpend resId =>
      rw [ha] at hnew
      change (owners s.db).length < (owners (spendExec s.db o.now (.release resId))).length at hnew
      rw [owners_settle (.release resId)] at hnew
      exact absurd hnew (lt_irrefl _)

/-- The true total after the commit is the transaction's view plus its reservation. -/
theorem usage_after_commit {ws : WorkspaceId} {t : ReserveTxn} (hws : t.ws = ws) (s : Db)
    (now since : Instant) :
    spendCommittedPlusReserved
        (recordReservation (t.view s now) now t.rid t.ws t.stage t.provider t.estimate none).1
        ws none (some since)
      = usageFor ws t.priors s since + t.estimate := by
  have hlogs : (t.view s now).logs = s.logs := logs_releaseEach ..
  have hres : (t.view s now).reservations
      = Table.modifyAll SpendReservation.release t.priors s.reservations :=
    reservations_releaseEach ..
  subst hws
  unfold spendCommittedPlusReserved usageFor heldFor
  simp only [recordReservation, Db.emit, Db.flush, hlogs, hres, reservedSum, Table.total_push]
  simp [reservationCounts, add_assoc]

/-- **The check is sound** in every interleaving in which no commit of the workspace falls
between the two `SELECT`s of a usage figure: whenever a reservation is created, the true
totals of the day and of the month at that moment are under the caps. -/
theorem reservation_within_caps (ws : WorkspaceId) (cap : SpendCap) (s : RcState) (o : RcOp)
    (h : ((readCommitted ws cap).restrict (NoCommitMidFigure ws)).Reachable s)
    (hall : (readCommitted ws cap).allowed s o)
    (hnew : s.db.reservations.length
      < ((readCommitted ws cap).exec s o).db.reservations.length) :
    spendCommittedPlusReserved ((readCommitted ws cap).exec s o).db ws none
        (some (dayStart ((readCommitted ws cap).exec s o).now)) ≤ cap.dailyCapUsd ∧
    spendCommittedPlusReserved ((readCommitted ws cap).exec s o).db ws none
        (some (monthStart ((readCommitted ws cap).exec s o).now)) ≤ cap.monthlyCapUsd := by
  have hinv : RcInv ws cap s := by
    refine h.invariant (I := RcInv ws cap) ?_ ?_
    · intro s hs
      exact rcInv_init hs
    · rintro s o hinv ⟨hall, hcond⟩
      exact rcInv_step hinv hall hcond
  obtain ⟨i, t, d, m, ha, hi, hs, hex⟩ := creates_cases hall hnew
  have ht := Table.mem_of_get hi
  have hsound := figuresSound_later hall.1 (hinv.sound t ht)
  unfold FiguresSound at hsound
  rw [hs] at hsound
  -- the figures the check compared are at least the true totals
  have hfits : d + t.estimate ≤ cap.dailyCapUsd ∧ m + t.estimate ≤ cap.monthlyCapUsd := by
    unfold ReserveTxn.exceeded at hex
    rw [hinv.here t ht, (load_of_wide hinv.wide (hinv.noOwn t.provider)).1] at hex
    exact capExceeded_eq_none hex
  have hexec : (readCommitted ws cap).exec s o
      = { db := (recordReservation (t.view s.db o.now) o.now t.rid t.ws t.stage t.provider
            t.estimate none).1
          now := o.now
          txns := s.txns.modify i fun _ => (t.next s.db o.now).2 } := by
    show rcExec ws s o.now o.action = _
    rw [ha]
    unfold rcExec
    simp only [hi, ReserveTxn.next, hs, hex]
  rw [hexec]
  simp only [usage_after_commit (hinv.here t ht)]
  exact ⟨le_trans (add_le_add hsound.1 (le_refl _)) hfits.1,
    le_trans (add_le_add hsound.2 (le_refl _)) hfits.2⟩

/-! ## A commit between the two sums -/

/-- Workspace 0 may spend 10 a day; run 0 has reserved all of it, run 1 nothing. -/
def raceState : RcState where
  db :=
    { runs := [
        { workspaceId := 0, contentItemId := 0, currentStage := .scripting, status := .running },
        { workspaceId := 0, contentItemId := 1, currentStage := .scripting, status := .running }]
      caps := [wideCap 10 100]
      reservations := [⟨0, some 0, "draft_desk", some .scripting, usd 10, .reserved, 0⟩] }
  now := 0
  txns := []

theorem raceState_init : (readCommitted 0 (wideCap 10 100)).init raceState := by
  refine ⟨rfl, rfl, ?_, ?_⟩
  · rintro provider ⟨c, hc, _, hp⟩
    rw [List.mem_singleton.mp hc] at hp
    cases hp
  · intro p hp rid hrid
    rw [List.mem_singleton.mp hp] at hrid ⊢
    cases hrid
    rfl

/-- Run 1 asks for `estimate`, and run 0 commits its reservation at `actual` after the first
`n` statements of run 1. -/
def raceOps (estimate : ℚ≥0) (actual : ℚ) (n : Nat) : List RcOp :=
  ⟨0, .begin 1 .scripting "draft_desk" estimate⟩ ::
    (List.replicate n ⟨0, .statement 0⟩ ++ [⟨0, .commitSpend 0 (.finite actual)⟩]
      ++ List.replicate (6 - n) ⟨0, .statement 0⟩)

abbrev raceSystem : System RcState RcOp := readCommitted 0 (wideCap 10 100)

instance (s : RcState) (o : RcOp) : Decidable (raceSystem.allowed s o) :=
  inferInstanceAs (Decidable (s.now ≤ o.now ∧ rcAllowed 0 s o.action))

instance decNoCommitMidFigure (ws : WorkspaceId) (s : RcState) (o : RcOp) :
    Decidable (NoCommitMidFigure ws s o) :=
  match o with
  | ⟨_, .commitSpend resId _⟩ => inferInstanceAs (Decidable (∀ r ∈ s.db.reservations[resId]?,
      r.workspaceId = ws → ∀ t ∈ s.txns, t.step.midFigure = false))
  | ⟨_, .begin ..⟩ => isTrue trivial
  | ⟨_, .statement _⟩ => isTrue trivial
  | ⟨_, .releaseSpend _⟩ => isTrue trivial

/-- Run 0 commits 4 of its 10 before run 1 sums anything; run 1 gets the 5 it asks for. -/
theorem calm_reservation_within_caps :
    let s := (raceOps 5 4 2).foldl raceSystem.exec raceState
    let o : RcOp := ⟨0, .statement 0⟩
    s.db.reservations.length < (raceSystem.exec s o).db.reservations.length ∧
    spendCommittedPlusReserved (raceSystem.exec s o).db 0 none
        (some (dayStart (raceSystem.exec s o).now)) ≤ 10 ∧
    spendCommittedPlusReserved (raceSystem.exec s o).db 0 none
        (some (monthStart (raceSystem.exec s o).now)) ≤ 100 := by
  intro s o
  have hnew : s.db.reservations.length < (raceSystem.exec s o).db.reservations.length := by
    decide +kernel
  refine ⟨hnew, reservation_within_caps 0 (wideCap 10 100) s o ?_ (by decide +kernel) hnew⟩
  have hlegal : (raceSystem.restrict (NoCommitMidFigure 0)).Legal raceState (raceOps 5 4 2) := by
    decide +kernel
  exact System.Reachable.of_legal _ (.init raceState_init) hlegal

/-- Run 0 commits its 10 between the two sums of the day: run 1's figure is zero, it is granted
10, and the day's total is 20. -/
theorem race_exceeds_daily_cap :
    ∃ s o, raceSystem.Reachable s ∧ raceSystem.allowed s o ∧
      s.db.reservations.length < (raceSystem.exec s o).db.reservations.length ∧
      ¬ spendCommittedPlusReserved (raceSystem.exec s o).db 0 none
        (some (dayStart (raceSystem.exec s o).now)) ≤ 10 := by
  refine ⟨(raceOps 10 10 3).foldl raceSystem.exec raceState, ⟨0, .statement 0⟩, ?_, ?_⟩
  · have hlegal : raceSystem.Legal raceState (raceOps 10 10 3) := by decide +kernel
    exact System.Reachable.of_legal _ (.init raceState_init) hlegal
  · decide +kernel

end HumanGate
