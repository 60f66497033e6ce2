import Mathlib
import HumanGate.Lib.Table
import HumanGate.Model.LeonVoice

set_option autoImplicit false

/-! # Settling a voice reservation

Every exit of the three provider calls releases the reservation or commits it, except where
something raises in between: the JSON decoder may run out of stack, and a cost may not be a decimal
of 28 digits. `voice_settled_iff` says for which answers of a provider the reservation is left open.
-/

namespace HumanGate

open Lib Lib.Calendar Lib.Rounding LeonVoiceSpend LeonVoice

/-- The reservation is committed with one log of a cost between nothing and the estimate, or
released with none. -/
def CallSettled (before after : Ledger) (id : Nat) (estimate : ℚ) : Prop :=
  ∃ r, after.reservations[id]? = some r ∧
    ((r.status = .committed ∧ ∃ log, after.logs = before.logs ++ [log] ∧
        0 ≤ log.costUsd ∧ log.costUsd ≤ estimate) ∨
      (r.status = .released ∧ after.logs = before.logs))

/-! ## Which answers settle -/

/-- It can be quantized when it is rounded to the precision. -/
def HasRoom (cost : ℚ) : Prop := |cost| < (10 ^ 28 - 1 / 2) / 10 ^ 4

/-- The cost of a duration is a decimal: the duration is missing, negative, or a finite number whose
cost has room. -/
def SttChargeable (prices : VoicePrices) : Option PyNumber → Prop
  | none => True
  | some (.bool _) => False
  | some (.int n) => n < 0 ∨ HasRoom (toPrecision 28 (n / 60) * prices.sttCostUsdPerMinute)
  | some (.float q) => q < 0 ∨ HasRoom (toPrecision 28 (q / 60) * prices.sttCostUsdPerMinute)
  | some .nan => False
  | some (.infinity negative) => negative = true

/-- The cost of input tokens and the cost of output tokens. -/
def llmSum (prices : VoicePrices) (inputTokens outputTokens : ℚ) : ℚ :=
  toPrecision 28 (toPrecision 28 (inputTokens / 1000) * prices.llmInputCostUsdPer1kTokens) +
    toPrecision 28 (toPrecision 28 (outputTokens / 1000) * prices.llmOutputCostUsdPer1kTokens)

/-- What a transcription is answered with settles the reservation. -/
def SttSettles (prices : VoicePrices) (estimate : ℚ) : ProviderOutcome → Prop
  | .transportError => True
  | .response r => 400 ≤ r.statusCode ∨ (r.body ≠ .tooDeep ∧
      ∀ fields text, r.body = .value (.obj fields) → heardText fields = some text →
        0 ≤ estimate ∧ SttChargeable prices (heardDuration fields))

/-- What a request for a reply is answered with settles the reservation. -/
def LlmSettles (prices : VoicePrices) (estimate : ℚ) : ProviderOutcome → Prop
  | .transportError => True
  | .response r => 400 ≤ r.statusCode ∨ (r.body ≠ .tooDeep ∧
      ∀ fields reply, r.body = .value (.obj fields) → replyOf fields = .ok reply →
        0 ≤ estimate ∧ HasRoom (llmSum prices (max (reportedTokens fields).1 0 : ℤ)
          (max (reportedTokens fields).2 0 : ℤ)))

/-- What a request for speech is answered with settles the reservation. -/
def TtsSettles (estimate : ℚ) : ProviderOutcome → Prop
  | .transportError => True
  | .response r => 400 ≤ r.statusCode ∨ r.content = [] ∨ isJsonType r.contentType = true ∨
      0 ≤ estimate

/-! ## The ledger -/

variable {l l' : Ledger} {now reservedAt : Instant} {id : Nat} {provider : String} {estimate : ℚ}

theorem reserve_held (h : reserve l reservedAt provider estimate = some (l', id)) :
    l'.reservations[id]? = some ⟨provider, estimate, .reserved⟩ := by
  unfold reserve at h
  split at h
  · exact nomatch h
  · split at h
    · exact nomatch h
    · split at h
      · exact nomatch h
      · cases h
        exact Table.get_push_new _ _

/-- **A release** settles. -/
theorem release_settled (hheld : l.reservations[id]? = some ⟨provider, estimate, .reserved⟩) :
    CallSettled l (release l id) id estimate := by
  unfold release
  rw [hheld]
  exact ⟨_, Table.get_modify_self hheld, .inr ⟨rfl, rfl⟩⟩

/-- What is charged lies between nothing and the reservation, if that is not negative. -/
theorem charged_bounds {reserved q cost : ℚ} (h : charged reserved (.finite q) = .ok cost) :
    (0 ≤ reserved → 0 ≤ cost ∧ cost ≤ reserved) ∧ (reserved < 0 → cost = reserved) := by
  have hactual : (0 : ℚ) ≤ if 0 ≤ q then q else 0 := by
    split
    · assumption
    · exact le_rfl
  unfold charged at h
  dsimp only at h
  generalize (if 0 ≤ q then q else 0) = actual at h hactual
  cases h
  constructor
  · intro hreserved
    split
    · exact ⟨hreserved, le_rfl⟩
    · rename_i hle
      exact ⟨hactual, not_lt.mp hle⟩
  · intro hreserved
    rw [if_pos (hreserved.trans_le hactual)]

/-- **A commit** of a finite cost settles exactly a reservation that is not negative. -/
theorem commit_settled (now : Instant)
    (hheld : l.reservations[id]? = some ⟨provider, estimate, .reserved⟩) (q : ℚ) :
    ∃ l', commit l now id (.finite q) = .ok l' ∧ (CallSettled l l' id estimate ↔ 0 ≤ estimate) := by
  obtain ⟨cost, hcost⟩ : ∃ cost, charged estimate (.finite q) = .ok cost := ⟨_, rfl⟩
  obtain ⟨hbounds, hnegative⟩ := charged_bounds hcost
  have hcommit : commit l now id (.finite q) = .ok { l with
      reservations := l.reservations.modify id (Reservation.withStatus .committed)
      logs := l.logs ++ [⟨provider, cost, now⟩] } := by
    unfold commit
    simp only [hheld, ne_eq, not_true_eq_false, if_false, hcost]
  refine ⟨_, hcommit, ?_⟩
  constructor
  · rintro ⟨r, hr, ⟨_, log, hlogs, hlow, _⟩ | ⟨_, hlogs⟩⟩
    · by_contra hestimate
      have hlog : log = ⟨provider, cost, now⟩ := by
        have happend := List.append_cancel_left hlogs
        exact (List.singleton_inj.mp happend).symm
      rw [hlog, hnegative (not_le.mp hestimate)] at hlow
      exact hestimate hlow
    · have hlength := congrArg List.length hlogs
      simp at hlength
  · intro hestimate
    obtain ⟨hlow, hhigh⟩ := hbounds hestimate
    exact ⟨_, Table.get_modify_self hheld, .inl ⟨rfl, _, rfl, hlow, hhigh⟩⟩

/-- A reservation that is left alone is not settled. -/
theorem open_not_settled (hheld : l.reservations[id]? = some ⟨provider, estimate, .reserved⟩) :
    ¬ CallSettled l l id estimate := by
  rintro ⟨r, hr, hcase⟩
  rw [hheld] at hr
  cases hr
  rcases hcase with ⟨hstatus, _⟩ | ⟨hstatus, _⟩ <;> exact nomatch hstatus

/-! ## Costs -/

theorem toCents_finite (q : ℚ) :
    (∃ cost, (Decimal.finite (toPrecision 28 q)).toCents = .ok (.finite cost)) ↔ HasRoom q := by
  have hroom : (quantize Decimal.precision 4 (toPrecision 28 q)).isSome ↔
      |q| < (10 ^ 28 - 1 / 2) / 10 ^ 4 := quantize_isSome (by decide)
  unfold HasRoom
  rw [← hroom]
  unfold Decimal.toCents
  dsimp only
  cases quantize Decimal.precision 4 (toPrecision 28 q) with
  | none =>
      constructor
      · rintro ⟨_, h⟩
        cases h
      · intro h
        cases h
  | some cost => exact ⟨fun _ => rfl, fun _ => ⟨cost, rfl⟩⟩

/-- No cost is infinite. -/
theorem toCents_ne_infinity (d : Decimal) (negative : Bool) :
    d.toCents ≠ .ok (.infinity negative) := by
  intro h
  unfold Decimal.toCents at h
  split at h
  · split at h <;> cases h
  · cases h
  · cases h

/-- A cost that was computed settles the reservation if it is finite. -/
theorem commitAndReturn_settled {α : Type} {cost : Except DecimalSignal Decimal} (value : α)
    (hheld : l.reservations[id]? = some ⟨provider, estimate, .reserved⟩)
    (hcost : ∀ negative, cost ≠ .ok (.infinity negative)) :
    CallSettled l (commitAndReturn l now id cost value).ledger id estimate ↔
      0 ≤ estimate ∧ ∃ q, cost = .ok (.finite q) := by
  unfold commitAndReturn
  cases cost with
  | error e => exact ⟨fun h => absurd h (open_not_settled hheld), fun ⟨_, q, hq⟩ => (nomatch hq)⟩
  | ok actual =>
      cases actual with
      | finite q =>
          obtain ⟨l', hcommit, hsettled⟩ := commit_settled now hheld q
          dsimp only
          rw [hcommit]
          exact hsettled.trans ⟨fun h => ⟨h, q, rfl⟩, fun h => h.1⟩
      | infinity negative => exact absurd rfl (hcost negative)
      | nan =>
          have hcommit : commit l now id .nan = .error .invalidOperation := by
            unfold commit
            simp only [hheld, ne_eq, not_true_eq_false, if_false]
            rfl
          dsimp only
          rw [hcommit]
          exact ⟨fun h => absurd h (open_not_settled hheld), fun ⟨_, q, hq⟩ => (nomatch hq)⟩

variable {prices : VoicePrices}

theorem times_finite (q rate : ℚ) :
    (Decimal.finite q).times rate = .ok (.finite (toPrecision 28 (q * rate))) := rfl

theorem sttReserveEstimateUsd_eq : sttReserveEstimateUsd prices
    = (Decimal.finite (toPrecision 28 (12 * prices.sttCostUsdPerMinute))).toCents := by
  unfold sttReserveEstimateUsd
  rw [times_finite]
  rfl

/-- The cost of so many seconds. -/
def secondsCost (prices : VoicePrices) (seconds : Decimal) : Except DecimalSignal Decimal :=
  (seconds.dividedBy 60).times prices.sttCostUsdPerMinute >>= Decimal.toCents

theorem secondsCost_finite (q : ℚ) :
    (∃ cost, secondsCost prices (.finite q) = .ok (.finite cost)) ↔
      HasRoom (toPrecision 28 (q / 60) * prices.sttCostUsdPerMinute) :=
  toCents_finite _

/-- Infinity is not quantized, and times nothing it is no number. -/
theorem secondsCost_infinity :
    secondsCost prices (.infinity false) = .error .invalidOperation := by
  unfold secondsCost Decimal.dividedBy Decimal.times
  dsimp only
  split <;> rfl

theorem sttActualCostUsd_negative {duration : PyNumber} (h : duration.isNegative = true) :
    sttActualCostUsd prices (some duration) = sttReserveEstimateUsd prices := if_pos h

theorem sttActualCostUsd_seconds {duration : PyNumber} (h : duration.isNegative = false) :
    sttActualCostUsd prices (some duration) = duration.toDecimal >>= secondsCost prices :=
  if_neg (by rw [h]; exact Bool.false_ne_true)

/-- **The cost of a transcription** is a decimal exactly if its duration is chargeable. -/
theorem sttActualCostUsd_finite (hestimate : sttReserveEstimateUsd prices = .ok (.finite estimate))
    (duration : Option PyNumber) :
    (∃ cost, sttActualCostUsd prices duration = .ok (.finite cost)) ↔
      SttChargeable prices duration := by
  -- where the duration is not known the whole estimate is charged
  have hwhole : ∀ {d : Option PyNumber} {p : Prop},
      sttActualCostUsd prices d = sttReserveEstimateUsd prices → p →
      ((∃ cost, sttActualCostUsd prices d = .ok (.finite cost)) ↔ p) :=
    fun heq hp => ⟨fun _ => hp, fun _ => ⟨estimate, heq.trans hestimate⟩⟩
  cases duration with
  | none => exact hwhole rfl trivial
  | some duration =>
      cases duration with
      | bool b =>
          have hcost : sttActualCostUsd prices (some (.bool b)) = .error .invalidOperation :=
            sttActualCostUsd_seconds rfl
          rw [hcost]
          exact ⟨fun ⟨_, h⟩ => (nomatch h), fun h => h.elim⟩
      | nan =>
          have hcost : sttActualCostUsd prices (some .nan) = .ok .nan :=
            sttActualCostUsd_seconds rfl
          rw [hcost]
          exact ⟨fun ⟨_, h⟩ => (nomatch h), fun h => h.elim⟩
      | int n =>
          by_cases hn : n < 0
          · exact hwhole (sttActualCostUsd_negative (decide_eq_true hn)) (Or.inl hn)
          · have hcost : sttActualCostUsd prices (some (.int n)) = secondsCost prices (.finite n) :=
              sttActualCostUsd_seconds (decide_eq_false hn)
            rw [hcost, secondsCost_finite]
            exact ⟨Or.inr, fun h => h.resolve_left hn⟩
      | float q =>
          by_cases hq : q < 0
          · exact hwhole (sttActualCostUsd_negative (decide_eq_true hq)) (Or.inl hq)
          · have hcost : sttActualCostUsd prices (some (.float q))
                = secondsCost prices (.finite q) :=
              sttActualCostUsd_seconds (decide_eq_false hq)
            rw [hcost, secondsCost_finite]
            exact ⟨Or.inr, fun h => h.resolve_left hq⟩
      | infinity negative =>
          cases negative with
          | true => exact hwhole (sttActualCostUsd_negative rfl) rfl
          | false =>
              have hcost : sttActualCostUsd prices (some (.infinity false))
                  = .error .invalidOperation :=
                (sttActualCostUsd_seconds rfl).trans secondsCost_infinity
              rw [hcost]
              exact ⟨fun ⟨_, h⟩ => (nomatch h), fun h => (nomatch h)⟩

theorem sttActualCostUsd_ne_infinity (duration : Option PyNumber) (negative : Bool) :
    sttActualCostUsd prices duration ≠ .ok (.infinity negative) := by
  have hbind : ∀ x : Except DecimalSignal Decimal,
      (x >>= Decimal.toCents) ≠ .ok (.infinity negative) := by
    intro x
    cases x with
    | error e => exact fun h => nomatch h
    | ok d => exact toCents_ne_infinity d negative
  have hestimate : sttReserveEstimateUsd prices ≠ .ok (.infinity negative) :=
    sttReserveEstimateUsd_eq ▸ toCents_ne_infinity _ negative
  cases duration with
  | none => exact hestimate
  | some duration =>
      cases hnegative : duration.isNegative with
      | true =>
          rw [sttActualCostUsd_negative hnegative]
          exact hestimate
      | false =>
          rw [sttActualCostUsd_seconds hnegative]
          cases duration.toDecimal with
          | error e => exact fun h => nomatch h
          | ok d => exact hbind _

theorem llmCost_eq (inputTokens outputTokens : ℚ) :
    llmCost prices inputTokens outputTokens
      = toPrecision 28 (llmSum prices inputTokens outputTokens) := by
  unfold llmCost llmSum Decimal.precision
  rfl

theorem llmActualCostUsd_finite (inputTokens outputTokens : ℤ) :
    (∃ cost, llmActualCostUsd prices inputTokens outputTokens = .ok (.finite cost)) ↔
      HasRoom (llmSum prices (max inputTokens 0 : ℤ) (max outputTokens 0 : ℤ)) := by
  unfold llmActualCostUsd
  rw [llmCost_eq]
  exact toCents_finite _

theorem llmActualCostUsd_ne_infinity (inputTokens outputTokens : ℤ) (negative : Bool) :
    llmActualCostUsd prices inputTokens outputTokens ≠ .ok (.infinity negative) :=
  toCents_ne_infinity _ negative

/-! ## The three calls -/

variable {text : PyStr}

theorem releaseAndRaise_settled {α : Type} (detail stage : String)
    (hheld : l.reservations[id]? = some ⟨provider, estimate, .reserved⟩) {p : Prop} (hp : p) :
    CallSettled l (releaseAndRaise l id detail stage : VoiceCall α).ledger id estimate ↔ p :=
  ⟨fun _ => hp, fun _ => release_settled hheld⟩

theorem transcribeReserved_settled
    (hheld : l.reservations[id]? = some ⟨provider, estimate, .reserved⟩)
    (hestimate : sttReserveEstimateUsd prices = .ok (.finite estimate))
    (outcome : ProviderOutcome) :
    CallSettled l (transcribeReserved prices l now id outcome).ledger id estimate ↔
      SttSettles prices estimate outcome := by
  cases outcome with
  | transportError => exact releaseAndRaise_settled _ _ hheld trivial
  | response r =>
      unfold transcribeReserved SttSettles
      dsimp only
      split
      · rename_i hstatus
        exact releaseAndRaise_settled _ _ hheld (Or.inl hstatus)
      · rename_i hstatus
        rw [or_iff_right hstatus]
        cases hbody : r.body with
        -- the decoder raises and nothing releases the reservation
        | tooDeep => exact ⟨fun h => absurd h (open_not_settled hheld), fun h => absurd rfl h.1⟩
        | invalid =>
            exact releaseAndRaise_settled _ _ hheld ⟨fun h => (nomatch h), fun _ _ h => (nomatch h)⟩
        | value body =>
            cases body with
            | obj fields =>
                dsimp only [safeJson]
                cases htext : heardText fields with
                | none =>
                    refine releaseAndRaise_settled _ _ hheld ⟨fun h => (nomatch h), ?_⟩
                    intro fields' text hfields htext'
                    cases hfields
                    rw [htext] at htext'
                    exact nomatch htext'
                | some text =>
                    refine (commitAndReturn_settled text hheld fun negative =>
                      sttActualCostUsd_ne_infinity _ negative).trans ?_
                    rw [sttActualCostUsd_finite hestimate]
                    constructor
                    · intro h
                      refine ⟨fun h => (nomatch h), fun fields' text' hfields _ => ?_⟩
                      cases hfields
                      exact h
                    · exact fun h => h.2 fields text rfl htext
            | null | num _ | str _ | arr _ =>
                exact releaseAndRaise_settled _ _ hheld
                  ⟨fun h => (nomatch h), fun _ _ h => (nomatch h)⟩

theorem replyReserved_settled
    (hheld : l.reservations[id]? = some ⟨provider, estimate, .reserved⟩)
    (outcome : ProviderOutcome) :
    CallSettled l (replyReserved prices l now id outcome).ledger id estimate ↔
      LlmSettles prices estimate outcome := by
  cases outcome with
  | transportError => exact releaseAndRaise_settled _ _ hheld trivial
  | response r =>
      unfold replyReserved LlmSettles
      dsimp only
      split
      · rename_i hstatus
        exact releaseAndRaise_settled _ _ hheld (Or.inl hstatus)
      · rename_i hstatus
        rw [or_iff_right hstatus]
        cases hbody : r.body with
        -- the decoder raises and nothing releases the reservation
        | tooDeep => exact ⟨fun h => absurd h (open_not_settled hheld), fun h => absurd rfl h.1⟩
        | invalid =>
            exact releaseAndRaise_settled _ _ hheld ⟨fun h => (nomatch h), fun _ _ h => (nomatch h)⟩
        | value body =>
            cases body with
            | obj fields =>
                dsimp only [safeJson]
                cases hreply : replyOf fields with
                | error detail =>
                    refine releaseAndRaise_settled _ _ hheld ⟨fun h => (nomatch h), ?_⟩
                    intro fields' reply hfields hreply'
                    cases hfields
                    rw [hreply] at hreply'
                    exact nomatch hreply'
                | ok reply =>
                    refine (commitAndReturn_settled reply hheld fun negative =>
                      llmActualCostUsd_ne_infinity _ _ negative).trans ?_
                    rw [llmActualCostUsd_finite]
                    constructor
                    · intro h
                      refine ⟨fun h => (nomatch h), fun fields' reply' hfields _ => ?_⟩
                      cases hfields
                      exact h
                    · exact fun h => h.2 fields reply rfl hreply
            | null | num _ | str _ | arr _ =>
                exact releaseAndRaise_settled _ _ hheld
                  ⟨fun h => (nomatch h), fun _ _ h => (nomatch h)⟩

theorem speechReserved_settled
    (hheld : l.reservations[id]? = some ⟨provider, estimate, .reserved⟩)
    (hestimate : ttsCostUsd prices text = .ok (.finite estimate)) (outcome : ProviderOutcome) :
    CallSettled l (speechReserved prices l now id text outcome).ledger id estimate ↔
      TtsSettles estimate outcome := by
  cases outcome with
  | transportError => exact releaseAndRaise_settled _ _ hheld trivial
  | response r =>
      unfold speechReserved TtsSettles
      dsimp only
      split
      · rename_i hstatus
        exact releaseAndRaise_settled _ _ hheld (Or.inl hstatus)
      · rename_i hstatus
        rw [or_iff_right hstatus]
        split
        · rename_i hempty
          exact releaseAndRaise_settled _ _ hheld (Or.inl hempty)
        · rename_i hempty
          rw [or_iff_right hempty]
          split
          · rename_i hjson
            exact releaseAndRaise_settled _ _ hheld (Or.inl hjson)
          · rename_i hjson
            rw [or_iff_right hjson, hestimate]
            refine (commitAndReturn_settled r.content hheld fun negative h => by cases h).trans ?_
            exact ⟨fun h => h.1, fun h => ⟨h, estimate, rfl⟩⟩

/-- **What settles a voice reservation.** For every reservation that one of the three calls makes,
and every answer of the provider: when the call ends, the reservation is committed with one log of a
cost between nothing and the estimate, or released with none, exactly if the estimate is not
negative where something is charged, the decoder does not run out of stack, and the cost of what the
provider reports is a decimal of 28 digits. -/
theorem voice_settled_iff (prices : VoicePrices) (l l' : Ledger) (reservedAt now : Instant)
    (id : Nat) (estimate : ℚ) (outcome : ProviderOutcome) :
    (sttReserveEstimateUsd prices = .ok (.finite estimate) →
      reserve l reservedAt "openai-whisper" estimate = some (l', id) →
      (CallSettled l' (transcribeAudio prices true l reservedAt now outcome).ledger id estimate ↔
        SttSettles prices estimate outcome)) ∧
    (∀ userText history, llmReserveEstimateUsd prices history userText = .ok (.finite estimate) →
      reserve l reservedAt "openai-llm" estimate = some (l', id) →
      (CallSettled l' (generateReply prices true l reservedAt now outcome userText history).ledger
          id estimate ↔
        LlmSettles prices estimate outcome)) ∧
    (∀ text, ttsCostUsd prices text = .ok (.finite estimate) →
      reserve l reservedAt "openai-tts" estimate = some (l', id) →
      (CallSettled l' (synthesizeSpeech prices true l reservedAt now outcome text).ledger
          id estimate ↔
        TtsSettles estimate outcome)) := by
  refine ⟨?_, ?_, ?_⟩
  · intro hestimate hreserve
    unfold transcribeAudio withKey withReservation
    rw [if_pos rfl, hestimate]
    dsimp only
    rw [hreserve]
    exact transcribeReserved_settled (reserve_held hreserve) hestimate outcome
  · intro userText history hestimate hreserve
    unfold generateReply withKey withReservation
    rw [if_pos rfl, hestimate]
    dsimp only
    rw [hreserve]
    exact replyReserved_settled (reserve_held hreserve) outcome
  · intro text hestimate hreserve
    unfold synthesizeSpeech withKey withReservation
    rw [if_pos rfl, hestimate]
    dsimp only
    rw [hreserve]
    exact speechReserved_settled (reserve_held hreserve) hestimate outcome

/-! ## A duration that is no number -/

/-- Two dollars a day, twenty a month, and nothing spent. -/
def freshVoiceLedger : Ledger := { caps := some (2, 20) }

/-- A transcription with the given duration. -/
def transcription (duration : PyNumber) : ProviderOutcome :=
  .response { statusCode := 200, body := .value (.obj
    [(PyStr.lit "text", .str (PyStr.lit "hi")), (PyStr.lit "duration", .num duration)]) }

/-- The duration `NaN` leaves the reservation open. -/
theorem nan_duration_leaks :
    sttReserveEstimateUsd {} = .ok (.finite (9 / 125)) ∧
      (reserve freshVoiceLedger 0 "openai-whisper" (9 / 125)).map Prod.snd = some 0 ∧
      ((transcribeAudio {} true freshVoiceLedger 0 0 (transcription .nan)).ledger.reservations.map
        Reservation.status) = [.reserved] := by
  refine ⟨by decide +kernel, by decide +kernel, by decide +kernel⟩

/-- A duration of six seconds settles it. -/
theorem short_duration_settles :
    ∃ l' id, reserve freshVoiceLedger 0 "openai-whisper" (9 / 125) = some (l', id) ∧
      CallSettled l' (transcribeAudio {} true freshVoiceLedger 0 0 (transcription (.int 6))).ledger
        id
        (9 / 125) := by
  have hsome : (reserve freshVoiceLedger 0 "openai-whisper" (9 / 125)).isSome = true := by
    decide +kernel
  obtain ⟨⟨l', id⟩, hreserve⟩ := Option.isSome_iff_exists.mp hsome
  refine ⟨l', id, hreserve, ?_⟩
  refine ((voice_settled_iff {} freshVoiceLedger l' 0 0 id (9 / 125) (transcription (.int 6))).1
    (by decide +kernel) hreserve).mpr (.inr ⟨fun h => (nomatch h), fun fields text hfields _ => ?_⟩)
  cases hfields
  refine ⟨by norm_num, .inr ?_⟩
  show HasRoom _
  unfold HasRoom
  decide +kernel

end HumanGate
