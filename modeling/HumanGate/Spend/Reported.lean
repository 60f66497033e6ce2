import HumanGate.Docket.Ledger
import HumanGate.Lib.Ranking
import HumanGate.Model.Desk
import HumanGate.Spend.Books

set_option autoImplicit false

/-! # The cost a worker reports

A successful result settles the stage's reservation at the cost that the worker reports. Reading the
value is guarded, and what cannot be read counts as the default estimate. Ordering it is not: a
number below zero and a NaN raise, and the result is rolled back; so does a value that the database
does not store (`reported_cost_settles_iff`).
-/

namespace HumanGate

open Lib Lib.Calendar

variable {cfg : Config} {s t : Db} {now : Instant} {result : Option JsonObject}

/-! ## The value -/

/-- What the worker reports, if it reads as a decimal. -/
def reportedDecimal (result : Option JsonObject) : Option Decimal :=
  (result.bind fun r => r.lookup "estimated_cost_usd").bind Decimal.ofJson

/-- The value is not a NaN, and not below zero. -/
def Decimal.Usable : Decimal → Prop
  | .finite q => 0 ≤ q
  | .infinity negative => negative = false
  | .nan => False

/-- The worker reports nothing, something that does not read as a decimal, or a usable value. -/
def UsableCost (result : Option JsonObject) : Prop := ∀ d ∈ reportedDecimal result, d.Usable

/-- What a reservation of `e` is settled at: a cost from zero to `e` as it is, a greater one at `e`,
and the default estimate, at most `e`, if there is no such cost. -/
def costFor (cfg : Config) (e : ℚ≥0) : Option Decimal → ℚ≥0
  | some (.finite q) => if 0 ≤ q then min q.toNNRat e
    else min cfg.settings.defaultStageEstimateUsd e
  | some (.infinity false) => e
  | _ => min cfg.settings.defaultStageEstimateUsd e

theorem costFor_le (cfg : Config) (e : ℚ≥0) (d : Option Decimal) : costFor cfg e d ≤ e := by
  unfold costFor
  split
  · split
    · exact min_le_right ..
    · exact min_le_right ..
  · exact le_rfl
  · exact min_le_right ..

theorem reportedCost_eq (cfg : Config) (result : Option JsonObject) :
    reportedCost cfg result
      = (reportedDecimal result).getD (.finite (cfg.settings.defaultStageEstimateUsd : ℚ)) := by
  unfold reportedCost reportedDecimal
  cases result.bind fun r => r.lookup "estimated_cost_usd" with
  | none => rfl
  | some v => cases v <;> rfl

/-- A finite cost from zero on is settled. -/
theorem settledCost_finite (e : ℚ≥0) {q : ℚ} (hq : 0 ≤ q) :
    settledCost e (.finite q) = .ok (min q.toNNRat e) := by
  unfold settledCost
  simp only
  rw [if_neg hq.not_gt]
  by_cases hle : (e : ℚ) < q
  · rw [if_pos hle, min_eq_right]
    exact (Rat.le_toNNRat_iff_coe_le hq).mpr hle.le
  · rw [if_neg hle, min_eq_left]
    exact Rat.toNNRat_le_iff_le_coe.mpr (le_of_not_gt hle)

/-- A usable cost is settled. -/
theorem settledCost_usable (cfg : Config) (e : ℚ≥0) (husable : UsableCost result) :
    settledCost e (reportedCost cfg result) = .ok (costFor cfg e (reportedDecimal result)) := by
  rw [reportedCost_eq]
  unfold UsableCost at husable
  cases hd : reportedDecimal result with
  | none =>
      rw [Option.getD_none, settledCost_finite e (NNRat.coe_nonneg _), NNRat.toNNRat_coe]
      rfl
  | some d =>
      have hd' := husable d hd
      rw [Option.getD_some]
      cases d with
      | finite q =>
          have hq : 0 ≤ q := hd'
          rw [settledCost_finite e hq]
          unfold costFor
          simp only
          rw [if_pos hq]
      | infinity negative =>
          have hneg : negative = false := hd'
          rw [hneg]
          rfl
      | nan => exact hd'.elim

/-- Any other cost raises. -/
theorem settledCost_unusable (cfg : Config) (e : ℚ≥0) (hbad : ¬ UsableCost result) :
    settledCost e (reportedCost cfg result) = .error .invalidOperation ∨
      settledCost e (reportedCost cfg result) = .error .negativeCost := by
  unfold UsableCost at hbad
  push Not at hbad
  obtain ⟨d, hd, hunusable⟩ := hbad
  rw [Option.mem_def] at hd
  rw [reportedCost_eq, hd, Option.getD_some]
  cases d with
  | finite q =>
      have hq : q < 0 := lt_of_not_ge hunusable
      right
      unfold settledCost
      simp only
      rw [if_pos hq]
  | infinity negative =>
      have hneg : negative = true := by simpa [Decimal.Usable] using hunusable
      right
      rw [hneg]
      rfl
  | nan => exact .inl rfl

/-! ## What is stored of a decoded result -/

/-- The key of the cost. -/
def costKey : PyStr := PyStr.lit "estimated_cost_usd"

theorem stored_str {t : PyStr} {s : String} (h : t.stored? = some s) :
    (BodyJson.str t).stored? = some (.str s) := by
  unfold BodyJson.stored?
  rw [h]
  rfl

theorem costKey_stored : costKey.stored? = some "estimated_cost_usd" := by decide +kernel

/-- The cost in the result, as it was decoded. -/
def reportedValue (body : Option BodyFields) : Option BodyJson :=
  body.bind fun fields => bodyGet fields "estimated_cost_usd"

/-- A text or a number of the result can be stored. -/
def storable (field : PyStr × BodyJson) : Bool := field.1.stored?.isSome && field.2.stored?.isSome

/-- The result can be stored, and the worker reports no cost, one that does not read as a decimal,
or a usable one. -/
structure UsableReport (body : Option BodyFields) : Prop where
  stored : ∀ field ∈ body.getD [], storable field = true
  usable : ∀ v ∈ reportedValue body, ∀ j ∈ v.stored?, ∀ d ∈ Decimal.ofJson j, d.Usable

theorem storedFields_isSome {fields : BodyFields} :
    (storedFields? fields).isSome = fields.all storable := by
  induction fields with
  | nil => rfl
  | cons field fields ih =>
      obtain ⟨key, value⟩ := field
      unfold storedFields?
      rw [List.all_cons, ← ih, storable]
      cases key.stored? with
      | none => rfl
      | some k =>
          cases value.stored? with
          | none => rfl
          | some j => cases storedFields? fields <;> rfl

/-- The text of a key is read back in one way. -/
theorem stored_key_beq {key : PyStr} {k : String} (h : key.stored? = some k) :
    ("estimated_cost_usd" == k) = (costKey == key) := by
  rw [Bool.eq_iff_iff, beq_iff_eq, beq_iff_eq]
  constructor
  · rintro rfl
    exact PyStr.lit_of_stored h
  · rintro rfl
    exact Option.some.inj (costKey_stored.symm.trans h)

/-- The stored cost is that of the decoded result. -/
theorem lookup_stored {fields : BodyFields} {stored : JsonObject}
    (h : storedFields? fields = some stored) : stored.lookup "estimated_cost_usd"
      = (bodyGet fields "estimated_cost_usd").bind BodyJson.stored? := by
  unfold bodyGet
  change _ = (fields.lookup costKey).bind BodyJson.stored?
  induction fields generalizing stored with
  | nil =>
      cases h
      rfl
  | cons field fields ih =>
      obtain ⟨key, value⟩ := field
      unfold storedFields? at h
      obtain ⟨k, hk, h⟩ := Option.bind_eq_some_iff.mp h
      obtain ⟨j, hj, h⟩ := Option.bind_eq_some_iff.mp h
      obtain ⟨rest, hrest, rfl⟩ := Option.map_eq_some_iff.mp h
      rw [List.lookup_cons, List.lookup_cons, stored_key_beq hk, ih hrest]
      cases costKey == key with
      | true => exact hj.symm
      | false => rfl

/-- What is stored of a result that can be stored, and what it reports. -/
theorem usableReport_iff {body : Option BodyFields} :
    UsableReport body ↔ ∃ result, storedResult? body = some result ∧ UsableCost result := by
  cases body with
  | none =>
      refine iff_of_true ⟨fun field hfield => ?_, fun v hv => ?_⟩ ⟨none, rfl, fun d hd => ?_⟩
      · cases hfield
      · cases hv
      · cases hd
  | some fields =>
      have hall : (storedFields? fields).isSome = true ↔
          ∀ field ∈ fields, storable field = true := by
        rw [storedFields_isSome, List.all_eq_true]
      have hstore : storedResult? (some fields) = (storedFields? fields).map some := rfl
      rw [hstore]
      cases hstored : storedFields? fields with
      | none =>
          rw [hstored] at hall
          constructor
          · intro husable
            cases hall.mpr husable.stored
          · rintro ⟨result, hresult, _⟩
            cases hresult
      | some stored =>
          rw [hstored] at hall
          -- the cost that is read back is the one that was sent
          have hcost : ∀ d, reportedDecimal (some stored) = some d
              ↔ ∃ v ∈ reportedValue (some fields), ∃ j ∈ v.stored?, Decimal.ofJson j = some d := by
            intro d
            unfold reportedDecimal reportedValue
            rw [Option.bind_some, Option.bind_some, lookup_stored hstored, Option.bind_eq_some_iff]
            simp only [Option.bind_eq_some_iff, Option.mem_def]
            tauto
          constructor
          · intro husable
            refine ⟨some stored, rfl, fun d hd => ?_⟩
            obtain ⟨v, hv, j, hj, hd⟩ := (hcost d).mp hd
            exact husable.usable v hv j hj d hd
          · rintro ⟨result, hresult, husable⟩
            cases hresult
            exact ⟨hall.mp rfl, fun v hv j hj d hd => husable d ((hcost d).mpr ⟨v, hv, j, hj, hd⟩)⟩

/-! ## Settling the reservation -/

/-- The books with the reservation committed and its cost logged. -/
def Books.settle (b : Books) (now : Instant) (ws : WorkspaceId) (resId : ReservationId)
    (r : SpendReservation) (cost : ℚ≥0) : Books where
  reservations := b.reservations.modify resId (SpendReservation.withStatus .committed)
  logs := b.logs ++ [{
    workspaceId := ws
    provider := r.provider
    stage := r.stage
    costUsd := cost
    occurredAt := now }]

theorem commitSpend_ok (now : Instant) (rid : RunId) (ws : WorkspaceId) {resId : ReservationId}
    {r : SpendReservation} {actual : Decimal} {cost : ℚ≥0} (hr : s.reservations[resId]? = some r)
    (hopen : r.status = .reserved) (hcost : settledCost r.estimatedCostUsd actual = .ok cost) :
    ∃ t, commitSpend s now rid ws resId actual = .ok t ∧
      t.books = s.books.settle now ws resId r cost := by
  unfold commitSpend
  simp only [hr, hopen, hcost]
  exact ⟨_, rfl, rfl⟩

theorem commitSpend_error (now : Instant) (rid : RunId) (ws : WorkspaceId) {resId : ReservationId}
    {r : SpendReservation} {actual : Decimal} {e : Err} (hr : s.reservations[resId]? = some r)
    (hopen : r.status = .reserved) (hcost : settledCost r.estimatedCostUsd actual = .error e) :
    commitSpend s now rid ws resId actual = .error e := by
  unfold commitSpend
  simp only [hr, hopen, hcost]

/-- There is an open reservation to settle. -/
theorem exists_latestOpenReservation {rid : RunId} {stage : ContentStage}
    (hopen : openReservationsFor s rid stage ≠ []) :
    ∃ resId r, latestOpenReservation s rid stage = some resId ∧
      s.reservations[resId]? = some r ∧ r.openAt rid stage = true := by
  have hsome : latestOpenReservation s rid stage ≠ none := fun hnone =>
    hopen ((Ranking.head_none _).mp hnone)
  obtain ⟨resId, hres⟩ := Option.ne_none_iff_exists'.mp hsome
  obtain ⟨r, hr, hropen⟩ := latestOpenReservation_open hres
  exact ⟨resId, r, hres, hr, hropen⟩

/-- The attempt is on record already. -/
def StageAssignment.onRecord (s : Db) (a : StageAssignment) : Bool :=
  s.stageRuns.any fun r => r.pipelineRunId == a.pipelineRunId && r.stage == a.stage
    && r.attemptNumber == a.attemptNumber

/-- An attempt that is not on record is recorded, whatever it says. -/
theorem recordResult_succeeds {aid : AssignmentId} {a : StageAssignment} (run : PipelineRun)
    (success : Bool) (result : Option JsonObject) (errorMessage : String)
    (h : a.onRecord s = false) :
    ∃ t, recordResult s now aid a run success result errorMessage = .ok t := by
  have hruns : ∀ u : Db, (freeSlot u a.workerId WorkerRegistration.returnSlot).stageRuns
      = u.stageRuns := by
    intro u
    unfold freeSlot
    split <;> rfl
  unfold recordResult
  simp only [hruns]
  unfold StageAssignment.onRecord at h
  have hfresh : ((s.updateAssignment now aid
      (StageAssignment.close now success result)).stageRuns.any fun r =>
      r.pipelineRunId == a.pipelineRunId && r.stage == a.stage
        && r.attemptNumber == a.attemptNumber) = false := h
  rw [hfresh, if_neg Bool.false_ne_true]
  exact ⟨_, rfl⟩

theorem books_recordResult {aid : AssignmentId} {a : StageAssignment} {run : PipelineRun}
    {success : Bool} {errorMessage : String}
    (h : recordResult s now aid a run success result errorMessage = .ok t) : t.books = s.books := by
  unfold recordResult at h
  simp only at h
  split at h
  · cases h
  · cases h
    exact books_freeSlot ..

/-! ## The result -/

/-- The spend is settled at the reported cost, and what is left to do is to lead the run on. -/
def SettlesSpend (cfg : Config) (s : Db) (now : Instant) (a : StageAssignment) (run : PipelineRun)
    (result : Option JsonObject) (call : Call) : Prop :=
  ∃ resId r t, s.reservations[resId]? = some r ∧ r.openAt a.pipelineRunId a.stage = true ∧
    t.books = s.books.settle now run.workspaceId resId r
      (costFor cfg r.estimatedCostUsd (reportedDecimal result)) ∧
    call = handleStageSuccess cfg t now a.pipelineRunId a.stage (result.getD [])

section

variable {aid : AssignmentId} {a : StageAssignment} {run : PipelineRun} {errorMessage : String}

/-- A result that passes the checks before comes to the commit of the latest open reservation. -/
theorem submit_commits (cfg : Config) (worker : Option WorkerId) (jitter : Nat)
    (ha : s.assignments[aid]? = some a)
    (haccept : submitRefusal a worker now = none) (hrun : s.runs[a.pipelineRunId]? = some run)
    (hrecord : recordResult s now aid a run true result errorMessage = .ok t)
    (hopen : openReservationsFor s a.pipelineRunId a.stage ≠ []) :
    ∃ s1 resId r, s1.books = s.books ∧ s1.reservations[resId]? = some r ∧
      r.openAt a.pipelineRunId a.stage = true ∧
      submitResult cfg s now aid true result errorMessage worker jitter
        = match commitSpend s1 now a.pipelineRunId run.workspaceId resId
          (reportedCost cfg result) with
          | .error e => { db := s1, raised := some e }
          | .ok u => handleStageSuccess cfg u now a.pipelineRunId a.stage (result.getD []) := by
  have hbooks : (t.emit now .stageCompleted a.workspaceId a.pipelineRunId).books = s.books :=
    (books_emit ..).trans (books_recordResult hrecord)
  generalize hs1 : t.emit now .stageCompleted a.workspaceId a.pipelineRunId = s1 at hbooks
  have hopen1 : openReservationsFor s1 a.pipelineRunId a.stage ≠ [] := by
    unfold openReservationsFor
    rw [show s1.reservations = s.reservations from congrArg Books.reservations hbooks]
    exact hopen
  obtain ⟨resId, r, hlatest, hr, hropen⟩ := exists_latestOpenReservation hopen1
  refine ⟨s1, resId, r, hbooks, hr, hropen, ?_⟩
  have hcall : submitResult cfg s now aid true result errorMessage worker jitter
      = submitSuccess cfg t now a run result := by
    unfold submitResult
    simp only [ha, haccept, hrun, hrecord, if_true]
  rw [hcall]
  unfold submitSuccess
  cases hcommit : commitSpend s1 now a.pipelineRunId run.workspaceId resId
      (reportedCost cfg result) with
  | error e => simp only [hs1, hlatest, hcommit]
  | ok u => simp only [hs1, hlatest, hcommit]

/-- A usable cost is settled. -/
theorem submit_usable (cfg : Config) (worker : Option WorkerId) (jitter : Nat)
    (ha : s.assignments[aid]? = some a)
    (haccept : submitRefusal a worker now = none) (hrun : s.runs[a.pipelineRunId]? = some run)
    (hrecord : recordResult s now aid a run true result errorMessage = .ok t)
    (hopen : openReservationsFor s a.pipelineRunId a.stage ≠ []) (husable : UsableCost result) :
    SettlesSpend cfg s now a run result
      (submitResult cfg s now aid true result errorMessage worker jitter) := by
  obtain ⟨s1, resId, r, hbooks, hr, hropen, hsubmit⟩ :=
    submit_commits cfg worker jitter ha haccept hrun hrecord hopen
  obtain ⟨u, hu, hsettled⟩ := commitSpend_ok now a.pipelineRunId run.workspaceId hr
    (openAt_iff.mp hropen).2.2 (settledCost_usable cfg r.estimatedCostUsd husable)
  rw [show s1.reservations = s.reservations from congrArg Books.reservations hbooks] at hr
  rw [hbooks] at hsettled
  exact ⟨resId, r, u, hr, hropen, hsettled, by rw [hsubmit, hu]⟩

/-- Any other cost raises, and nothing is settled. -/
theorem submit_unusable (cfg : Config) (worker : Option WorkerId) (jitter : Nat)
    (ha : s.assignments[aid]? = some a)
    (haccept : submitRefusal a worker now = none) (hrun : s.runs[a.pipelineRunId]? = some run)
    (hrecord : recordResult s now aid a run true result errorMessage = .ok t)
    (hopen : openReservationsFor s a.pipelineRunId a.stage ≠ []) (hbad : ¬ UsableCost result) :
    (∃ e, (submitResult cfg s now aid true result errorMessage worker jitter).raised = some e ∧
      (e = .invalidOperation ∨ e = .negativeCost)) ∧
    ¬ SettlesSpend cfg s now a run result
      (submitResult cfg s now aid true result errorMessage worker jitter) := by
  obtain ⟨s1, resId, r, hbooks, hr, hropen, hsubmit⟩ :=
    submit_commits cfg worker jitter ha haccept hrun hrecord hopen
  have hreserved := (openAt_iff.mp hropen).2.2
  obtain ⟨e, hcost, he⟩ : ∃ e, settledCost r.estimatedCostUsd (reportedCost cfg result) = .error e ∧
      (e = .invalidOperation ∨ e = .negativeCost) := by
    rcases settledCost_unusable cfg r.estimatedCostUsd hbad with hcost | hcost
    · exact ⟨_, hcost, .inl rfl⟩
    · exact ⟨_, hcost, .inr rfl⟩
  rw [commitSpend_error now a.pipelineRunId run.workspaceId hr hreserved hcost] at hsubmit
  rw [hsubmit]
  refine ⟨⟨e, rfl, he⟩, ?_⟩
  -- a settled cost is one more line in the books
  rintro ⟨resId', r', u, _, _, hsettled, hled⟩
  have hlogs := congrArg (fun c : Call => c.db.books.logs.length) hled
  simp only at hlogs
  rw [books_handleStageSuccess, hsettled, hbooks] at hlogs
  simp [Books.settle] at hlogs

end

/-- The decoded result is stored, and settled at its cost. -/
def SettlesReport (cfg : Config) (s : Db) (now : Instant) (a : StageAssignment) (run : PipelineRun)
    (body : Option BodyFields) (call : Call) : Prop :=
  ∃ result, storedResult? body = some result ∧ SettlesSpend cfg s now a run result call

/-- **Which costs are settled.** A successful result of an in-flight assignment with an open
reservation is settled exactly if it can be stored, and the worker reports no cost, one that does
not read as a decimal, or a usable one. Any other result raises, and the transaction leaves nothing
behind: the assignment cannot be submitted with it. -/
theorem reported_cost_settles_iff (cfg : Config) (s : Db) (now : Instant) (aid : AssignmentId)
    (a : StageAssignment) (run : PipelineRun) (body : Option BodyFields) (errorMessage : String)
    (worker : Option WorkerId) (jitter : Nat) (ha : s.assignments[aid]? = some a)
    (haccept : submitRefusal a worker now = none) (hrun : s.runs[a.pipelineRunId]? = some run)
    (hrecord : a.onRecord s = false)
    (hopen : openReservationsFor s a.pipelineRunId a.stage ≠ []) :
    (SettlesReport cfg s now a run body
      (submitDecoded cfg s now aid true body errorMessage worker jitter) ↔ UsableReport body) ∧
    (∀ e d, costFor cfg e d ≤ e) ∧
    (¬ UsableReport body →
      (submitDecoded cfg s now aid true body errorMessage worker jitter).raised ≠ none ∧
      (submitDecoded cfg s now aid true body errorMessage worker jitter).commit s = s) := by
  refine and_left_comm.mp ⟨costFor_le cfg, ?_⟩
  rw [usableReport_iff]
  unfold SettlesReport submitDecoded
  cases hstored : storedResult? body with
  -- the flush raises before the cost is read
  | none =>
      refine ⟨⟨?_, ?_⟩, fun _ => ⟨Option.some_ne_none _, rfl⟩⟩
      · rintro ⟨result, hresult, _⟩
        cases hresult
      · rintro ⟨result, hresult, _⟩
        cases hresult
  | some result =>
      obtain ⟨t, ht⟩ : ∃ t, recordResult s now aid a run true result errorMessage = .ok t :=
        recordResult_succeeds run true result errorMessage hrecord
      constructor
      · constructor
        · rintro ⟨result', hresult, hsettles⟩
          cases hresult
          by_contra hbad
          exact (submit_unusable cfg worker jitter ha haccept hrun ht hopen fun husable =>
            hbad ⟨result, rfl, husable⟩).2 hsettles
        · rintro ⟨result', hresult, husable⟩
          cases hresult
          exact ⟨result, rfl, submit_usable cfg worker jitter ha haccept hrun ht hopen husable⟩
      · -- what raises is rolled back
        intro hbad
        obtain ⟨⟨e, hraised, _⟩, _⟩ := submit_unusable cfg worker jitter ha haccept hrun ht hopen
          fun husable => hbad ⟨result, rfl, husable⟩
        unfold Call.commit
        rw [hraised]
        exact ⟨Option.some_ne_none e, rfl⟩

/-! ## A cost below zero -/

def costReport (cost : BodyJson) : Option BodyFields := some [(costKey, cost)]

def reportedAssignment : StageAssignment := { waitingAssignment 0 0 0 with status := .dispatched }

def reportedRun : PipelineRun where
  workspaceId := 0
  contentItemId := 0
  currentStage := .scripting
  status := .running
  definitionId := some 0

/-- An assignment in flight, with a reservation for its stage. -/
def reportingDb : Db :=
  { deskDb with
    runs := [reportedRun]
    assignments := [reportedAssignment]
    reservations := [{
      workspaceId := 0
      pipelineRunId := some 0
      provider := "draft_desk"
      stage := some .scripting
      estimatedCostUsd := usd 2
      status := .reserved
      createdAt := 0 }] }

theorem costReport_stored {cost : BodyJson} {j : Json} (hj : cost.stored? = some j) :
    storedResult? (costReport cost) = some (some [("estimated_cost_usd", j)]) := by
  unfold storedResult? costReport
  simp only [storedFields?, costKey_stored, hj, Option.bind_some, Option.map_some]

/-- The result cannot be submitted with the cost, and nothing is settled. -/
def BlocksResult (cost : BodyJson) : Prop :=
  (submitDecoded deskConfig reportingDb 3 0 true (costReport cost) "" none 0).raised ≠ none ∧
    ¬ SettlesReport deskConfig reportingDb 3 reportedAssignment reportedRun (costReport cost)
      (submitDecoded deskConfig reportingDb 3 0 true (costReport cost) "" none 0)

/-- A worker that reports a negative cost, also one in other digits, a NaN or a negative infinity
cannot submit its result, nor can one that reports a number that is too large for a float. -/
theorem bad_cost_blocks_result :
    BlocksResult (.num (.int (-1))) ∧ BlocksResult (.str [0x2D, 0x661]) ∧
      BlocksResult (.str (PyStr.lit "NaN")) ∧ BlocksResult (.str (PyStr.lit "-Infinity")) ∧
      BlocksResult (.num (.infinity false)) := by
  have hbad : ∀ cost j d, cost.stored? = some j → Decimal.ofJson j = some d → ¬ d.Usable →
      BlocksResult cost := by
    intro cost j d hj hd hunusable
    have hlookup : reportedDecimal (some [("estimated_cost_usd", j)]) = some d := hd
    have hstored := costReport_stored hj
    obtain ⟨t, ht⟩ : ∃ t, recordResult reportingDb 3 0 reportedAssignment reportedRun true
        (some [("estimated_cost_usd", j)]) "" = .ok t :=
      recordResult_succeeds reportedRun true _ "" rfl
    obtain ⟨⟨e, hraised, _⟩, hnot⟩ :=
      submit_unusable deskConfig (s := reportingDb) none 0 rfl rfl rfl ht (by decide)
        fun husable => hunusable (husable d hlookup)
    unfold BlocksResult SettlesReport submitDecoded
    simp only [hstored]
    refine ⟨by rw [hraised]; exact Option.some_ne_none e, ?_⟩
    rintro ⟨result, hresult, hsettles⟩
    cases hresult
    exact hnot hsettles
  refine ⟨?_, ?_, ?_, ?_, ?_⟩
  · exact hbad _ (.num (-1)) (.finite (-1)) rfl rfl (by unfold Decimal.Usable; norm_num)
  · refine hbad _ (.str "-١") (.finite (-1)) (stored_str (by decide +kernel)) (by decide +kernel) ?_
    unfold Decimal.Usable
    norm_num
  · exact hbad _ (.str "NaN") .nan (stored_str (by decide +kernel)) (by decide +kernel) id
  · exact hbad _ (.str "-Infinity") (.infinity true) (stored_str (by decide +kernel))
      (by decide +kernel) Bool.noConfusion
  · refine ⟨Option.some_ne_none _, ?_⟩
    rintro ⟨result, hresult, _⟩
    cases hresult

/-- An infinite cost is settled at the estimate. -/
theorem infinite_cost_settled :
    SettlesReport deskConfig reportingDb 3 reportedAssignment reportedRun
      (costReport (.str (PyStr.lit "Infinity")))
      (submitDecoded deskConfig reportingDb 3 0 true (costReport (.str (PyStr.lit "Infinity"))) ""
        none 0) := by
  have hstored : (BodyJson.str (PyStr.lit "Infinity")).stored? = some (.str "Infinity") :=
    stored_str (by decide +kernel)
  have husable : UsableReport (costReport (.str (PyStr.lit "Infinity"))) := by
    refine usableReport_iff.mpr ⟨some [("estimated_cost_usd", .str "Infinity")], ?_, fun d hd => ?_⟩
    · exact costReport_stored hstored
    · have hread : Decimal.ofJson (.str "Infinity") = some (.infinity false) := by decide +kernel
      obtain rfl : Decimal.infinity false = d := Option.some.inj (hread.symm.trans hd)
      rfl
  exact (reported_cost_settles_iff deskConfig reportingDb 3 0 reportedAssignment reportedRun
    (costReport (.str (PyStr.lit "Infinity"))) "" none 0 rfl rfl rfl rfl (by decide)).1.mpr husable

end HumanGate
