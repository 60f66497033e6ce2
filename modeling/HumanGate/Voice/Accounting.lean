import Mathlib
import HumanGate.Voice.Settlement

set_option autoImplicit false

/-! # What a reply of Leon's brain is accounted for

`generate_reply` reserves an estimate and logs what the response reports. The estimate counts the
user's text and the history; the system prompt, which is sent with every call, is not in it, and a
response without `usage` is logged with no cost at all. `accounting_conservative_iff` says for which
texts, prices and replies both amounts still cover the true price of the call.
-/

namespace HumanGate

open Lib Lib.Calendar Lib.Rounding LeonVoiceSpend LeonVoice

/-! ## The true price -/

/-- The characters of all messages that are sent. -/
def sentChars (userText : PyStr) (history : List LeonVoiceSpend.Turn) : Nat :=
  historyChars (sentMessages userText history)

/-- What so many tokens cost. -/
def truePrice (prices : VoicePrices) (inputTokens outputTokens : ℚ) : ℚ :=
  (inputTokens * prices.llmInputCostUsdPer1kTokens
    + outputTokens * prices.llmOutputCostUsdPer1kTokens) / 1000

/-- Half a unit of the fourth decimal. -/
def halfCent : ℚ := 1 / 20000

/-- The nearest number of four decimals. -/
def roundedPrice (x : ℚ) : ℚ := nearest (x * 10 ^ 4) / 10 ^ 4

/-- The reserved amount and the logged amount cover the price, up to a rounding. -/
def Conservative (before after : Ledger) (estimate price : ℚ) : Prop :=
  price - halfCent ≤ estimate ∧
    ∃ log, after.logs = before.logs ++ [log] ∧ price - halfCent ≤ log.costUsd

/-- `generate_reply` returns the reply of the response. -/
def Accepted (r : ProviderResponse) (fields : BodyFields) : Prop :=
  r.statusCode < 400 ∧ r.body = .value (.obj fields) ∧ ∃ reply, replyOf fields = .ok reply

/-- The response reports so many tokens. -/
def Reports (fields : BodyFields) (inputTokens outputTokens : Nat) : Prop :=
  reportedTokens fields = ((inputTokens : ℤ), (outputTokens : ℤ))

/-- The response reports no usage. -/
def ReportsNothing (fields : BodyFields) : Prop := bodyGet fields "usage" = none

/-- The cost of so many tokens is computed without losing a digit. -/
def PricedExactly (prices : VoicePrices) (inputTokens outputTokens : ℚ) : Prop :=
  llmCost prices inputTokens outputTokens = truePrice prices inputTokens outputTokens

theorem lit_length (text : String) : (PyStr.lit text).length = text.length := by
  unfold PyStr.lit
  rw [List.length_map, String.length_toList]

theorem historyChars_cons (role text : PyStr) (turns : List LeonVoiceSpend.Turn) :
    historyChars (⟨role, some text⟩ :: turns) = text.length + historyChars turns := by
  unfold historyChars
  rw [List.map_cons, List.sum_cons]
  rfl

theorem historyChars_append (turns turns' : List LeonVoiceSpend.Turn) :
    historyChars (turns ++ turns') = historyChars turns + historyChars turns' := by
  unfold historyChars
  rw [List.map_append, List.sum_append]

theorem sentChars_eq (userText : PyStr) (history : List LeonVoiceSpend.Turn) :
    sentChars userText history
      = leonSystemPrompt.length + (historyChars history + userText.length) := by
  have huser : historyChars [⟨PyStr.lit "user", some userText⟩] = userText.length :=
    historyChars_cons _ _ []
  unfold sentChars sentMessages
  generalize leonSystemPrompt = prompt
  rw [List.cons_append, historyChars_cons, historyChars_append, huser, lit_length]

section Price

variable {prices : VoicePrices} (hin : 0 ≤ prices.llmInputCostUsdPer1kTokens)
  (hout : 0 ≤ prices.llmOutputCostUsdPer1kTokens)

include hin hout

theorem truePrice_nonneg {i o : ℚ} (hi : 0 ≤ i) (ho : 0 ≤ o) : 0 ≤ truePrice prices i o := by
  unfold truePrice
  positivity

theorem truePrice_mono {i i' o o' : ℚ} (hi : i ≤ i') (ho : o ≤ o') :
    truePrice prices i o ≤ truePrice prices i' o' := by
  unfold truePrice
  gcongr

theorem llmSum_nonneg {i o : ℚ} (hi : 0 ≤ i) (ho : 0 ≤ o) : 0 ≤ llmSum prices i o := by
  have hthousandth : ∀ {x : ℚ}, 0 ≤ x → 0 ≤ toPrecision 28 (x / 1000) := fun hx =>
    toPrecision_nonneg (by positivity)
  exact add_nonneg (toPrecision_nonneg (mul_nonneg (hthousandth hi) hin))
    (toPrecision_nonneg (mul_nonneg (hthousandth ho) hout))

/-- Rounding to digits changes a price by less than a factor of a hundred. -/
theorem llmSum_le {i o : ℚ} (hi : 0 ≤ i) (ho : 0 ≤ o) :
    llmSum prices i o ≤ 100 * truePrice prices i o := by
  have hpart : ∀ {x rate : ℚ}, 0 ≤ x → 0 ≤ rate →
      toPrecision 28 (toPrecision 28 (x / 1000) * rate) ≤ 100 * (x * rate / 1000) := by
    intro x rate hx hrate
    have hnonneg : 0 ≤ x / 1000 := by positivity
    have hthousandth : toPrecision 28 (x / 1000) ≤ 10 * (x / 1000) := toPrecision_le hnonneg
    calc toPrecision 28 (toPrecision 28 (x / 1000) * rate)
        ≤ 10 * (toPrecision 28 (x / 1000) * rate) :=
          toPrecision_le (mul_nonneg (toPrecision_nonneg hnonneg) hrate)
      _ ≤ 10 * (10 * (x / 1000) * rate) := by gcongr
      _ = 100 * (x * rate / 1000) := by ring
  have hinput := hpart hi hin
  have houtput := hpart ho hout
  unfold llmSum truePrice
  linarith

/-- A price of a rounding is computed. -/
theorem hasRoom_of_small {i o : ℚ} (hi : 0 ≤ i) (ho : 0 ≤ o)
    (hsmall : truePrice prices i o ≤ halfCent) : HasRoom (llmSum prices i o) := by
  have hle := llmSum_le hin hout hi ho
  unfold HasRoom
  rw [abs_of_nonneg (llmSum_nonneg hin hout hi ho)]
  unfold halfCent at hsmall
  norm_num
  linarith

end Price

/-! ## The two amounts -/

/-- A price is quantized exactly if it has room, to the nearest number of four decimals. -/
theorem toCents_iff {q cost : ℚ} :
    (Decimal.finite q).toCents = .ok (.finite cost) ↔ HasRoom q ∧ cost = roundedPrice q := by
  have heven : (10 ^ 28 : ℤ) % 2 = 0 := by norm_num
  have hfits : |nearest (q * 10 ^ 4)| < (10 ^ 28 : ℤ) ↔ HasRoom q := by
    rw [abs_nearest_lt_iff heven, abs_mul, abs_of_pos (by norm_num : (0 : ℚ) < 10 ^ 4)]
    unfold HasRoom
    rw [lt_div_iff₀ (by norm_num), Int.cast_pow, Int.cast_ofNat]
  rw [← hfits]
  unfold Decimal.toCents quantize Decimal.precision
  dsimp only
  split
  · rename_i hsome
    split at hsome
    · rename_i hlt
      cases hsome
      constructor
      · intro h
        cases h
        exact ⟨hlt, rfl⟩
      · rintro ⟨_, rfl⟩
        rfl
    · exact nomatch hsome
  · rename_i hnone
    split at hnone
    · exact nomatch hnone
    · rename_i hmany
      exact ⟨fun h => (nomatch h), fun h => absurd h.1 hmany⟩

theorem le_roundedPrice (x : ℚ) : x - halfCent ≤ roundedPrice x := by
  have hmoved := (abs_le.mp (abs_nearest_sub (x * 10 ^ 4))).1
  unfold roundedPrice halfCent
  rw [le_div_iff₀ (by norm_num)]
  linarith

theorem roundedPrice_nonneg {x : ℚ} (h : 0 ≤ x) : 0 ≤ roundedPrice x := by
  have hnearest : 0 ≤ nearest (x * 10 ^ 4) := le_nearest (by push_cast; positivity)
  unfold roundedPrice
  have hcast : (0 : ℚ) ≤ nearest (x * 10 ^ 4) := by exact_mod_cast hnearest
  positivity

variable {prices : VoicePrices} {l l' : Ledger} {now reservedAt : Instant} {id : Nat}
  {provider : String} {estimate price : ℚ} {r : ProviderResponse} {fields : BodyFields}

theorem commit_conservative (hheld : l.reservations[id]? = some ⟨provider, estimate, .reserved⟩)
    (q : ℚ) :
    ∃ l', commit l now id (.finite q) = .ok l' ∧ (Conservative l l' estimate price ↔
      price - halfCent ≤ estimate ∧ price - halfCent ≤ max q 0) := by
  have hcost : charged estimate (.finite q) = .ok (min (max q 0) estimate) := by
    unfold charged
    dsimp only
    congr 1
    have hmax : (if 0 ≤ q then q else 0) = max q 0 := by
      split
      · rename_i h
        exact (max_eq_left h).symm
      · rename_i h
        exact (max_eq_right (le_of_not_ge h)).symm
    rw [hmax]
    split
    · rename_i h
      exact (min_eq_right h.le).symm
    · rename_i h
      exact (min_eq_left (not_lt.mp h)).symm
  refine ⟨{ l with
      reservations := l.reservations.modify id (Reservation.withStatus .committed)
      logs := l.logs ++ [⟨provider, min (max q 0) estimate, now⟩] }, ?_, ?_⟩
  · unfold commit
    simp only [hheld, ne_eq, not_true_eq_false, if_false, hcost]
  · constructor
    · rintro ⟨hreserved, log, hlogs, hlogged⟩
      have hlog : (⟨provider, min (max q 0) estimate, now⟩ : Log) = log :=
        List.singleton_inj.mp (List.append_cancel_left hlogs)
      rw [← hlog] at hlogged
      exact ⟨hreserved, hlogged.trans (min_le_left _ _)⟩
    · rintro ⟨hreserved, hlogged⟩
      exact ⟨hreserved, _, rfl, le_min hlogged hreserved⟩

/-- **An accepted reply** is accounted for conservatively exactly if the reserved amount covers its
price, and so does the cost of the reported tokens. -/
theorem replyReserved_conservative (prices : VoicePrices) (now : Instant) (price : ℚ)
    (hheld : l.reservations[id]? = some ⟨provider, estimate, .reserved⟩)
    (haccepted : Accepted r fields) :
    Conservative l (replyReserved prices l now id (.response r)).ledger estimate price ↔
      price - halfCent ≤ estimate ∧ ∃ cost,
        llmActualCostUsd prices (reportedTokens fields).1 (reportedTokens fields).2
          = .ok (.finite cost) ∧ price - halfCent ≤ max cost 0 := by
  obtain ⟨hstatus, hbody, reply, hreply⟩ := haccepted
  have hledger : (replyReserved prices l now id (.response r)).ledger
      = (commitAndReturn l now id
          (llmActualCostUsd prices (reportedTokens fields).1 (reportedTokens fields).2)
            reply).ledger := by
    unfold replyReserved
    dsimp only
    rw [if_neg (not_le.mpr hstatus), hbody]
    dsimp only [safeJson]
    rw [hreply]
  -- a cost that is not computed leaves the logs alone
  have hunlogged : ¬ Conservative l l estimate price := by
    rintro ⟨_, log, hlogs, _⟩
    exact absurd (congrArg List.length hlogs) (by simp)
  rw [hledger]
  unfold commitAndReturn
  cases hcost : llmActualCostUsd prices (reportedTokens fields).1 (reportedTokens fields).2 with
  | error e => exact ⟨fun h => absurd h hunlogged, fun h => nomatch h.2.choose_spec.1⟩
  | ok actual =>
      cases actual with
      | infinity negative => exact absurd hcost (llmActualCostUsd_ne_infinity _ _ negative)
      | nan =>
          have hcommit : commit l now id .nan = .error .invalidOperation := by
            unfold commit
            simp only [hheld, ne_eq, not_true_eq_false, if_false]
            rfl
          dsimp only
          rw [hcommit]
          exact ⟨fun h => absurd h hunlogged, fun h => nomatch h.2.choose_spec.1⟩
      | finite q =>
          obtain ⟨l', hcommit, hiff⟩ :=
            commit_conservative hheld q
          dsimp only
          rw [hcommit]
          refine hiff.trans (and_congr_right fun _ => ?_)
          exact ⟨fun h => ⟨q, rfl, h⟩, fun ⟨_, heq, h⟩ => by cases heq; exact h⟩

/-! ## The call -/

section Call

variable {userText : PyStr} {history : List LeonVoiceSpend.Turn}

theorem reserve_logs (h : reserve l reservedAt provider estimate = some (l', id)) :
    l'.logs = l.logs := by
  unfold reserve at h
  split at h
  · exact nomatch h
  · split at h
    · exact nomatch h
    · split at h
      · exact nomatch h
      · cases h
        rfl

theorem generateReply_conservative
    (hestimate : llmReserveEstimateUsd prices history userText = .ok (.finite estimate))
    (hreserve : (reserve l reservedAt "openai-llm" estimate).isSome)
    (haccepted : Accepted r fields) :
    Conservative l
        (generateReply prices true l reservedAt now (.response r) userText history).ledger estimate
        price ↔
      price - halfCent ≤ estimate ∧ ∃ cost,
        llmActualCostUsd prices (reportedTokens fields).1 (reportedTokens fields).2
          = .ok (.finite cost) ∧ price - halfCent ≤ max cost 0 := by
  obtain ⟨⟨l', id⟩, hreserve⟩ := Option.isSome_iff_exists.mp hreserve
  have hreply := replyReserved_conservative prices now price (reserve_held hreserve) haccepted
  have hlogs := reserve_logs hreserve
  unfold generateReply withKey withReservation
  rw [if_pos rfl, hestimate]
  dsimp only
  rw [hreserve]
  unfold Conservative at hreply ⊢
  rw [hlogs] at hreply
  exact hreply

theorem llmReserveEstimateUsd_eq
    (h : llmReserveEstimateUsd prices history userText = .ok (.finite estimate)) :
    estimate = roundedPrice (llmCost prices
      (toPrecision 28 ((userText.length + historyChars history : Nat) / 4)) 300) := by
  have heq := (toCents_iff.mp h).2
  unfold charsPerTokenEstimate llmReserveMaxOutputTokens Decimal.precision at heq
  exact_mod_cast heq

/-- No usage counts as no tokens. -/
theorem reportedTokens_nothing (h : ReportsNothing fields) : reportedTokens fields = (0, 0) := by
  have husage : usageOf fields = [] := by
    unfold usageOf
    rw [h]
  unfold reportedTokens
  rw [husage]
  rfl

theorem llmActualCostUsd_zero : llmActualCostUsd prices 0 0 = .ok (.finite 0) := by
  have hzero : llmCost prices ((max 0 0 : ℤ) : ℚ) ((max 0 0 : ℤ) : ℚ) = 0 := by
    unfold llmCost
    simp [toPrecision_zero]
  unfold llmActualCostUsd
  rw [hzero]
  have hroom : HasRoom 0 := by
    unfold HasRoom
    norm_num
  have hrounded : roundedPrice 0 = 0 := by
    unfold roundedPrice
    have hnearest : nearest (0 : ℚ) = 0 := nearest_intCast 0
    rw [zero_mul, hnearest, Int.cast_zero, zero_div]
  exact toCents_iff.mpr ⟨hroom, hrounded.symm⟩

/-- A response without usage is logged with nothing. -/
theorem generateReply_nothing (hestimate0 : 0 ≤ estimate)
    (hestimate : llmReserveEstimateUsd prices history userText = .ok (.finite estimate))
    (hreserve : (reserve l reservedAt "openai-llm" estimate).isSome)
    (haccepted : Accepted r fields) (hnothing : ReportsNothing fields) :
    Conservative l
        (generateReply prices true l reservedAt now (.response r) userText history).ledger estimate
        price ↔ price ≤ halfCent := by
  rw [generateReply_conservative hestimate hreserve haccepted, reportedTokens_nothing hnothing,
    llmActualCostUsd_zero]
  constructor
  · rintro ⟨_, cost, heq, hlogged⟩
    cases heq
    rw [max_self] at hlogged
    linarith
  · intro hsmall
    refine ⟨by linarith, 0, rfl, ?_⟩
    rw [max_self]
    linarith

/-- The tokens that a response reports. -/
theorem generateReply_reported {i o : Nat}
    (hestimate : llmReserveEstimateUsd prices history userText = .ok (.finite estimate))
    (hreserve : (reserve l reservedAt "openai-llm" estimate).isSome)
    (haccepted : Accepted r fields) (hreports : Reports fields i o) :
    Conservative l
        (generateReply prices true l reservedAt now (.response r) userText history).ledger estimate
        price ↔
      price - halfCent ≤ estimate ∧ ∃ cost,
        (Decimal.finite (llmCost prices i o)).toCents = .ok (.finite cost) ∧
          price - halfCent ≤ max cost 0 := by
  have htokens : llmActualCostUsd prices (reportedTokens fields).1 (reportedTokens fields).2
      = (Decimal.finite (llmCost prices i o)).toCents := by
    rw [hreports]
    unfold llmActualCostUsd
    dsimp only
    rw [max_eq_left (Int.natCast_nonneg i), max_eq_left (Int.natCast_nonneg o), Int.cast_natCast,
      Int.cast_natCast]
  rw [generateReply_conservative hestimate hreserve haccepted, htokens]

end Call

/-! ## A reply without usage -/

/-- The body of a reply, and what else is in it. -/
def chatFields (rest : BodyFields) : BodyFields :=
  (PyStr.lit "choices", .arr [.obj [(PyStr.lit "message",
    .obj [(PyStr.lit "content", .str (PyStr.lit "hey"))])]]) :: rest

def chatReply (rest : BodyFields) : ProviderResponse :=
  { statusCode := 200, body := .value (.obj (chatFields rest)) }

theorem chatReply_accepted (rest : BodyFields) : Accepted (chatReply rest) (chatFields rest) :=
  ⟨show 200 < 400 by decide, rfl, PyStr.lit "hey", rfl⟩

/-- **When the accounting is conservative.** For every text, history and prices that are not
negative, and every call whose estimate is reserved. All replies, with at most a quarter of the
characters sent as input tokens and at most 300 output tokens, are covered exactly if the largest of
their prices is no more than a rounding. A reply that reports no usage is covered exactly if its own
price is no more than that. A reply that reports its tokens is covered exactly if its price is
logged at all and the estimate, which is the price of the characters without the system prompt,
covers it. -/
theorem accounting_conservative_iff (prices : VoicePrices)
    (hin : 0 ≤ prices.llmInputCostUsdPer1kTokens) (hout : 0 ≤ prices.llmOutputCostUsdPer1kTokens)
    (l : Ledger) (reservedAt now : Instant) (userText : PyStr) (history : List LeonVoiceSpend.Turn)
    (estimate : ℚ)
    (hestimate : llmReserveEstimateUsd prices history userText = .ok (.finite estimate))
    (hreserve : (reserve l reservedAt "openai-llm" estimate).isSome) :
    ((∀ r fields (i o : Nat), Accepted r fields → 4 * i ≤ sentChars userText history → o ≤ 300 →
        Reports fields i o ∨ ReportsNothing fields →
        Conservative l
          (generateReply prices true l reservedAt now (.response r) userText history).ledger
          estimate (truePrice prices i o)) ↔
      truePrice prices (sentChars userText history / 4 : Nat) 300 ≤ halfCent) ∧
    (∀ r fields (i o : Nat), Accepted r fields → ReportsNothing fields →
      (Conservative l
          (generateReply prices true l reservedAt now (.response r) userText history).ledger
          estimate (truePrice prices i o) ↔
        truePrice prices i o ≤ halfCent)) ∧
    (∀ r fields (i o : Nat), Accepted r fields → Reports fields i o → PricedExactly prices i o →
      llmCost prices (toPrecision 28 ((userText.length + historyChars history : Nat) / 4)) 300
        = truePrice prices ((userText.length + historyChars history : Nat) / 4) 300 →
      (Conservative l
          (generateReply prices true l reservedAt now (.response r) userText history).ledger
          estimate (truePrice prices i o) ↔
        HasRoom (truePrice prices i o) ∧ truePrice prices i o - halfCent ≤
          roundedPrice (truePrice prices
            ((userText.length + historyChars history : Nat) / 4) 300))) := by
  have hestimateEq := llmReserveEstimateUsd_eq hestimate
  have hestimate0 : 0 ≤ estimate := by
    rw [hestimateEq, llmCost_eq]
    have htokens : (0 : ℚ) ≤
        toPrecision 28 ((userText.length + historyChars history : Nat) / 4) :=
      toPrecision_nonneg (by positivity)
    have hsum := llmSum_nonneg hin hout htokens (by norm_num : (0 : ℚ) ≤ 300)
    exact roundedPrice_nonneg (toPrecision_nonneg hsum)
  have hprice0 : ∀ i o : Nat, 0 ≤ truePrice prices i o := fun i o =>
    truePrice_nonneg hin hout (Nat.cast_nonneg i) (Nat.cast_nonneg o)
  refine ⟨⟨?_, ?_⟩, ?_, ?_⟩
  · -- a reply of the largest price need not report its usage
    intro hall
    have hmost := hall _ _ (sentChars userText history / 4) 300 (chatReply_accepted []) (by omega)
      le_rfl (.inr rfl)
    exact (generateReply_nothing hestimate0 hestimate hreserve (chatReply_accepted []) rfl).mp hmost
  · intro hsmall r fields i o haccepted hi ho hreported
    have hle : truePrice prices i o ≤ halfCent := by
      have hi : (i : ℚ) ≤ (sentChars userText history / 4 : Nat) := by
        exact_mod_cast (by omega : i ≤ sentChars userText history / 4)
      have ho : (o : ℚ) ≤ 300 := by exact_mod_cast ho
      exact (truePrice_mono hin hout hi ho).trans hsmall
    rcases hreported with hreports | hnothing
    · rw [generateReply_reported hestimate hreserve haccepted hreports]
      have hroom := hasRoom_of_small hin hout (Nat.cast_nonneg i) (Nat.cast_nonneg o) hle
      obtain ⟨cost, hcost⟩ := (toCents_finite _).mpr hroom
      rw [← llmCost_eq] at hcost
      refine ⟨by linarith, cost, hcost, ?_⟩
      exact le_trans (by linarith) (le_max_right cost 0)
    · exact (generateReply_nothing hestimate0 hestimate hreserve haccepted hnothing).mpr hle
  · intro r fields i o haccepted hnothing
    exact generateReply_nothing hestimate0 hestimate hreserve haccepted hnothing
  · intro r fields i o haccepted hreports hexact hexactEstimate
    rw [hexactEstimate] at hestimateEq
    rw [generateReply_reported hestimate hreserve haccepted hreports, hexact, hestimateEq]
    have hlow := le_roundedPrice (truePrice prices i o)
    constructor
    · rintro ⟨hreserved, cost, hcost, _⟩
      exact ⟨(toCents_iff.mp hcost).1, hreserved⟩
    · rintro ⟨hroom, hreserved⟩
      exact ⟨hreserved, _, toCents_iff.mpr ⟨hroom, rfl⟩, hlow.trans (le_max_left _ _)⟩

/-- A usage of so many tokens. -/
def usageField (inputTokens outputTokens : Nat) : BodyFields :=
  [(PyStr.lit "usage", .obj [(PyStr.lit "prompt_tokens", .num (.int inputTokens)),
    (PyStr.lit "completion_tokens", .num (.int outputTokens))])]

/-- A short answer to `hi` is covered. -/
theorem short_reply_covered :
    Conservative freshVoiceLedger
      (generateReply {} true freshVoiceLedger 0 0 (.response (chatReply (usageField 1 10)))
        (PyStr.lit "hi") []).ledger (9 / 2000) (truePrice {} 1 10) := by
  have hiff := (accounting_conservative_iff {} (by decide +kernel) (by decide +kernel)
    freshVoiceLedger 0 0 (PyStr.lit "hi") [] (9 / 2000) (by decide +kernel)
    (by decide +kernel)).2.2 (chatReply (usageField 1 10)) _ 1 10 (chatReply_accepted _) rfl
    (by unfold PricedExactly; decide +kernel) (by decide +kernel)
  refine hiff.mpr ⟨?_, ?_⟩
  · unfold HasRoom
    decide +kernel
  · decide +kernel

/-- Two sentences of the prompt are more than 33 tokens. -/
theorem leonSystemPrompt_long : 4 * 33 ≤ leonSystemPrompt.length := by
  have hfirst : "You are Leon Rico, an animated companion who lives as an overlay on ".length
      = 68 := by
    decide +kernel
  have hsecond : "the user's Android screen. You are having a spoken conversation — ".length
      = 66 := by
    decide +kernel
  unfold leonSystemPrompt
  simp only [String.length_append, hfirst, hsecond]
  omega

/-- A long answer to `hi` is not, with its usage reported or not: 33 tokens of the prompt count. -/
theorem prompt_uncounted :
    4 * 33 ≤ sentChars (PyStr.lit "hi") [] ∧
      llmReserveEstimateUsd {} [] (PyStr.lit "hi") = .ok (.finite (9 / 2000)) ∧
      (reserve freshVoiceLedger 0 "openai-llm" (9 / 2000)).isSome ∧
      Accepted (chatReply (usageField 33 300)) (chatFields (usageField 33 300)) ∧
      Reports (chatFields (usageField 33 300)) 33 300 ∧
      ¬ Conservative freshVoiceLedger
        (generateReply {} true freshVoiceLedger 0 0 (.response (chatReply (usageField 33 300)))
          (PyStr.lit "hi") []).ledger (9 / 2000) (truePrice {} 33 300) ∧
      Accepted (chatReply []) (chatFields []) ∧ ReportsNothing (chatFields []) ∧
      (generateReply {} true freshVoiceLedger 0 0 (.response (chatReply []))
        (PyStr.lit "hi") []).ledger.logs.map Log.costUsd = [0] := by
  refine ⟨?_, by decide +kernel, by decide +kernel, chatReply_accepted _, rfl, ?_,
    chatReply_accepted _, rfl, by decide +kernel⟩
  · rw [sentChars_eq]
    exact leonSystemPrompt_long.trans (Nat.le_add_right _ _)
  · rintro ⟨hreserved, _⟩
    exact absurd hreserved (not_le.mpr (by decide +kernel))

end HumanGate
