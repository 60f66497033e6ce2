import HumanGate.Lib.Rounding
import HumanGate.Model.Data
import HumanGate.Model.Json

set_option autoImplicit false

/-! # Leon's voice turn and its spend

`app/services/leon_voice_spend.py` and `app/services/leon_voice.py`: each call of a provider
reserves an estimate, and what the provider answers decides whether the reservation is committed
with a cost or released. The costs are computed with `Decimal` in its default context, of 28 digits.
A call to the ledger is one transaction; what a provider answers is given, with what the JSON
decoder makes of it.
-/

namespace HumanGate

open Lib Lib.Calendar Lib.Rounding

/-! ## What a provider answers -/

/-- What `response.json()` does: decode a value, raise a `ValueError`, or run out of stack. -/
inductive DecodedBody where
  | value (body : BodyJson)
  | invalid
  | tooDeep

structure ProviderResponse where
  statusCode : Nat
  body : DecodedBody := .invalid
  content : List UInt8 := []
  contentType : PyStr := []

/-- An `httpx.HTTPError`, or a response. -/
inductive ProviderOutcome where
  | transportError
  | response (r : ProviderResponse)

/-- The prices of `Settings`, in dollars. A price that is no finite number has no reservation: the
estimate cannot be computed, or not be compared with the caps. -/
structure VoicePrices where
  sttCostUsdPerMinute : ℚ := 6 / 1000
  llmInputCostUsdPer1kTokens : ℚ := 3 / 1000
  llmOutputCostUsdPer1kTokens : ℚ := 15 / 1000
  ttsCostUsdPer1kChars : ℚ := 15 / 1000

/-- A signal that the default context of `decimal` traps. -/
inductive DecimalSignal where
  | invalidOperation
  deriving DecidableEq

/-! ## Decimals of 28 digits -/

namespace Decimal

def precision : Nat := 28

/-- `self / n` for a positive `n`. -/
def dividedBy (n : ℚ) : Decimal → Decimal
  | .finite q => .finite (toPrecision precision (q / n))
  | .infinity negative => .infinity negative
  | .nan => .nan

/-- `self * rate`. -/
def times (rate : ℚ) : Decimal → Except DecimalSignal Decimal
  | .finite q => .ok (.finite (toPrecision precision (q * rate)))
  | .infinity negative =>
      if rate = 0 then .error .invalidOperation
      else .ok (.infinity (negative != decide (rate < 0)))
  | .nan => .ok .nan

/-- `self.quantize(Decimal("0.0001"))`. -/
def toCents : Decimal → Except DecimalSignal Decimal
  | .finite q =>
      match quantize precision 4 q with
      | some cost => .ok (.finite cost)
      | none => .error .invalidOperation
  | .infinity _ => .error .invalidOperation
  | .nan => .ok .nan

end Decimal

/-- `number < 0`. -/
def PyNumber.isNegative : PyNumber → Bool
  | .bool _ => false
  | .int n => decide (n < 0)
  | .float q => decide (q < 0)
  | .nan => false
  | .infinity negative => negative

/-- `Decimal(str(number))`; `True` and `False` are no numbers there. -/
def PyNumber.toDecimal : PyNumber → Except DecimalSignal Decimal
  | .bool _ => .error .invalidOperation
  | .int n => .ok (.finite n)
  | .float q => .ok (.finite q)
  | .nan => .ok .nan
  | .infinity negative => .ok (.infinity negative)

/-! ## The ledger -/

namespace LeonVoiceSpend

structure Reservation where
  provider : String
  estimatedCostUsd : ℚ
  status : ReservationStatus := .reserved

structure Log where
  provider : String
  costUsd : ℚ
  occurredAt : Instant

/-- The rows of `LEON_SYSTEM_WORKSPACE_ID`: its cap without a provider, its reservations and
logs. -/
structure Ledger where
  caps : Option (ℚ × ℚ) := none
  reservations : List Reservation := []
  logs : List Log := []

/-- `spend_committed_plus_reserved`, for all providers. -/
def committedPlusReserved (l : Ledger) (since : Instant) : ℚ :=
  ((l.logs.filter fun log => since ≤ log.occurredAt).map Log.costUsd).sum +
    ((l.reservations.filter fun r => r.status == .reserved).map Reservation.estimatedCostUsd).sum

/-- `reserve`; `none` where it raises `LeonSpendExceeded`. -/
def reserve (l : Ledger) (now : Instant) (provider : String) (estimate : ℚ) :
    Option (Ledger × Nat) :=
  match l.caps with
  -- without a cap the voice is off
  | none => none
  | some (dailyCap, monthlyCap) =>
      if dailyCap < committedPlusReserved l (dayStart now) + estimate then none
      else if monthlyCap < committedPlusReserved l (monthStart now) + estimate then none
      else
        some ({ l with reservations := l.reservations ++ [⟨provider, estimate, .reserved⟩] },
          l.reservations.length)

def Reservation.withStatus (status : ReservationStatus) (r : Reservation) : Reservation :=
  { r with status := status }

/-- The cost that `commit` charges: not negative, and not above the reservation. -/
def charged (reserved : ℚ) : Decimal → Except DecimalSignal ℚ
  | .nan => .error .invalidOperation
  | .infinity negative => .ok (if negative then min 0 reserved else reserved)
  | .finite q =>
      let actual := if 0 ≤ q then q else 0
      .ok (if reserved < actual then reserved else actual)

/-- `commit`. Ordering a NaN raises. -/
def commit (l : Ledger) (now : Instant) (id : Nat) (actual : Decimal) :
    Except DecimalSignal Ledger :=
  match l.reservations[id]? with
  | none => .ok l
  | some r =>
      if r.status ≠ .reserved then .ok l
      else
        match charged r.estimatedCostUsd actual with
        | .error e => .error e
        | .ok cost =>
            .ok { l with
              reservations := l.reservations.modify id (Reservation.withStatus .committed)
              logs := l.logs ++ [⟨r.provider, cost, now⟩] }

/-- `release`. -/
def release (l : Ledger) (id : Nat) : Ledger :=
  match l.reservations[id]? with
  | none => l
  | some r =>
      if r.status ≠ .reserved then l
      else { l with reservations := l.reservations.modify id (Reservation.withStatus .released) }

/-! ## Costs -/

variable (prices : VoicePrices)

def sttReserveMaxMinutes : ℚ := 12

def charsPerTokenEstimate : ℚ := 4

def llmReserveMaxOutputTokens : Nat := 300

def sttReserveEstimateUsd : Except DecimalSignal Decimal := do
  (← (Decimal.finite sttReserveMaxMinutes).times prices.sttCostUsdPerMinute).toCents

def sttActualCostUsd (durationSeconds : Option PyNumber) : Except DecimalSignal Decimal :=
  match durationSeconds with
  | none => sttReserveEstimateUsd prices
  | some duration =>
      -- a NaN is not negative, and goes on
      if duration.isNegative then sttReserveEstimateUsd prices
      else do
        let minutes := (← duration.toDecimal).dividedBy 60
        (← minutes.times prices.sttCostUsdPerMinute).toCents

/-- The sum of two costs, for so many input and output tokens. -/
def llmCost (inputTokens outputTokens : ℚ) : ℚ :=
  toPrecision Decimal.precision
    (toPrecision Decimal.precision
        (toPrecision Decimal.precision (inputTokens / 1000) * prices.llmInputCostUsdPer1kTokens) +
      toPrecision Decimal.precision
        (toPrecision Decimal.precision (outputTokens / 1000) * prices.llmOutputCostUsdPer1kTokens))

/-- A message of the history; its `content` may be missing. -/
structure Turn where
  role : PyStr
  content : Option PyStr

/-- `len(turn.get("content", ""))`, summed. -/
def historyChars (history : List Turn) : Nat :=
  (history.map fun turn => (turn.content.getD []).length).sum

def llmReserveEstimateUsd (history : List Turn) (userText : PyStr) :
    Except DecimalSignal Decimal :=
  let inputChars := userText.length + historyChars history
  let inputTokens := toPrecision Decimal.precision (inputChars / charsPerTokenEstimate)
  (Decimal.finite (llmCost prices inputTokens llmReserveMaxOutputTokens)).toCents

def llmActualCostUsd (inputTokens outputTokens : ℤ) : Except DecimalSignal Decimal :=
  (Decimal.finite (llmCost prices (max inputTokens 0 : ℤ) (max outputTokens 0 : ℤ))).toCents

def ttsCostUsd (text : PyStr) : Except DecimalSignal Decimal := do
  (← ((Decimal.finite text.length).dividedBy 1000).times prices.ttsCostUsdPer1kChars).toCents

end LeonVoiceSpend

/-! ## The calls of the providers -/

namespace LeonVoice

open LeonVoiceSpend

/-- `LEON_SYSTEM_PROMPT`. -/
def leonSystemPrompt : String :=
  "You are Leon Rico, an animated companion who lives as an overlay on " ++
  "the user's Android screen. You are having a spoken conversation — " ++
  "your reply is converted to speech and read aloud, so write the way a " ++
  "person actually talks: short sentences, no markdown, no bullet " ++
  "lists, no headings, nothing that only makes sense written down. " ++
  "Keep replies brief and conversational, generally one to three " ++
  "sentences unless the user clearly wants more detail.\n\n" ++
  "Who you are: a hustler at heart who made his money designing an app " ++
  "that took off — self-made, not handed anything. That background " ++
  "comes through as confidence and hustle, not bragging; you only bring " ++
  "it up when it's actually relevant, not every reply.\n\n" ++
  "Your energy is always positive and always encouraging — you hype the " ++
  "user up, look for the upside, and never talk down to them, even when " ++
  "the news is bad; you're still real about the bad news, just not " ++
  "negative about it. Your voice is casual and warm, contemporary " ++
  "African American vernacular worked in naturally — words like " ++
  "'fam', 'no cap', 'let's get it', 'I got you', 'that's real' — used " ++
  "the way someone actually talks, not piled on every sentence and " ++
  "never written as broken or misspelled English. Skip it entirely for " ++
  "serious or sensitive topics; read the room."

/-- The messages that `generate_reply` sends. -/
def sentMessages (userText : PyStr) (history : List Turn) : List Turn :=
  ⟨PyStr.lit "system", some (PyStr.lit leonSystemPrompt)⟩ ::
    history ++ [⟨PyStr.lit "user", some userText⟩]

/-- What a call raises: a `LeonVoiceError`, a signal of `decimal`, or a `RecursionError`. -/
inductive VoiceError where
  | leonVoice (detail stage : String)
  | decimal (signal : DecimalSignal)
  | recursion
  deriving DecidableEq

/-- The ledger as a call leaves it, and what it returns or raises. -/
structure VoiceCall (α : Type) where
  ledger : Ledger
  result : Except VoiceError α

variable {α : Type}

/-- Release the reservation, then raise. -/
def releaseAndRaise (l : Ledger) (id : Nat) (detail stage : String) : VoiceCall α :=
  ⟨release l id, .error (.leonVoice detail stage)⟩

/-- Compute the cost, commit it, then return. -/
def commitAndReturn (l : Ledger) (now : Instant) (id : Nat) (cost : Except DecimalSignal Decimal)
    (value : α) : VoiceCall α :=
  match cost with
  -- the reservation stays open: only errors of a call release it
  | .error e => ⟨l, .error (.decimal e)⟩
  | .ok actual =>
      match commit l now id actual with
      | .error e => ⟨l, .error (.decimal e)⟩
      | .ok l' => ⟨l', .ok value⟩

/-- `_safe_json`: an object, or the `LeonVoiceError` with the fallback text. Only a `ValueError` of
the decoder is caught. -/
inductive SafeJson where
  | object (fields : BodyFields)
  | refused
  | tooDeep

def safeJson : DecodedBody → SafeJson
  | .value (.obj fields) => .object fields
  | .value _ => .refused
  | .invalid => .refused
  | .tooDeep => .tooDeep

/-- `body.get("text")`, stripped, if there is something left of it. -/
def heardText (fields : BodyFields) : Option PyStr :=
  match bodyGet fields "text" with
  | some (.str text) => if text.strip = [] then none else some text.strip
  | _ => none

/-- `duration if isinstance(duration, int | float) else None`. -/
def heardDuration (fields : BodyFields) : Option PyNumber :=
  match bodyGet fields "duration" with
  | some (.num n) => some n
  | _ => none

/-- `transcribe_audio` from the reservation on. -/
def transcribeReserved (prices : VoicePrices) (l : Ledger) (now : Instant) (id : Nat) :
    ProviderOutcome → VoiceCall PyStr
  | .transportError => releaseAndRaise l id "speech recognition is unavailable right now" "stt"
  | .response r =>
      if 400 ≤ r.statusCode then releaseAndRaise l id "could not understand that audio" "stt"
      else
        match safeJson r.body with
        | .tooDeep => ⟨l, .error .recursion⟩
        | .refused =>
            releaseAndRaise l id "speech recognition returned an unexpected response" "stt"
        | .object fields =>
            match heardText fields with
            | none => releaseAndRaise l id "didn't catch that — try again" "stt"
            | some text =>
                commitAndReturn l now id (sttActualCostUsd prices (heardDuration fields)) text

/-- The text of a block of a reply that is a list. -/
def blockText : BodyJson → Option PyStr
  | .obj block =>
      match bodyGet block "type", bodyGet block "text" with
      | some (.str kind), some (.str text) => if kind = PyStr.lit "text" then some text else none
      | _, _ => none
  | _ => none

/-- The reply in a body, or the text of the `LeonVoiceError`. -/
def replyOf (fields : BodyFields) : Except String PyStr :=
  match bodyGet fields "choices" with
  | some (.arr (.obj choice :: _)) =>
      match bodyGet choice "message" with
      | some (.obj message) =>
          let reply :=
            match bodyGet message "content" with
            | some (.str text) => text.strip
            | some (.arr blocks) => PyStr.strip (blocks.filterMap blockText).flatten
            | _ => []
          if reply = [] then .error "Leon couldn't think of a reply just now" else .ok reply
      | _ => .error "Leon's brain returned an unexpected response"
  | _ => .error "Leon's brain returned an unexpected response"

/-- `raw if isinstance(raw, int) else 0`. -/
def tokenCount : Option BodyJson → ℤ
  | some (.num (.int n)) => n
  | some (.num (.bool b)) => if b then 1 else 0
  | _ => 0

/-- The usage of a body, if it is an object. -/
def usageOf (fields : BodyFields) : BodyFields :=
  match bodyGet fields "usage" with
  | some (.obj usage) => usage
  | _ => []

/-- The input and output tokens that a body reports. -/
def reportedTokens (fields : BodyFields) : ℤ × ℤ :=
  let usage := usageOf fields
  (tokenCount ((bodyGet usage "input_tokens").or (bodyGet usage "prompt_tokens")),
    tokenCount ((bodyGet usage "output_tokens").or (bodyGet usage "completion_tokens")))

/-- `generate_reply` from the reservation on. -/
def replyReserved (prices : VoicePrices) (l : Ledger) (now : Instant) (id : Nat) :
    ProviderOutcome → VoiceCall PyStr
  | .transportError => releaseAndRaise l id "Leon's brain is unavailable right now" "llm"
  | .response r =>
      if 400 ≤ r.statusCode then
        releaseAndRaise l id "Leon couldn't think of a reply just now" "llm"
      else
        match safeJson r.body with
        | .tooDeep => ⟨l, .error .recursion⟩
        | .refused => releaseAndRaise l id "Leon's brain returned an unexpected response" "llm"
        | .object fields =>
            match replyOf fields with
            | .error detail => releaseAndRaise l id detail "llm"
            | .ok reply =>
                let tokens := reportedTokens fields
                commitAndReturn l now id (llmActualCostUsd prices tokens.1 tokens.2) reply

/-- `response.headers.get("content-type", "").lower().startswith("application/json")`. -/
def isJsonType (contentType : PyStr) : Bool :=
  (PyStr.lit "application/json").isPrefixOf contentType.lowerAscii

/-- `synthesize_speech` from the reservation on. -/
def speechReserved (prices : VoicePrices) (l : Ledger) (now : Instant) (id : Nat) (text : PyStr) :
    ProviderOutcome → VoiceCall (List UInt8)
  | .transportError => releaseAndRaise l id "Leon's voice is unavailable right now" "tts"
  | .response r =>
      if 400 ≤ r.statusCode then releaseAndRaise l id "Leon's voice is unavailable right now" "tts"
      else if r.content = [] then releaseAndRaise l id "Leon's voice returned empty audio" "tts"
      else if isJsonType r.contentType then
        releaseAndRaise l id "Leon's voice returned an unexpected response" "tts"
      else commitAndReturn l now id (ttsCostUsd prices text) r.content

/-- `_reserve_or_fail` after an estimate, and then the rest of the call. `reservedAt` and `now` are
the instants of the two transactions. -/
def withReservation (l : Ledger) (reservedAt : Instant) (provider : String)
    (estimate : Except DecimalSignal Decimal) (call : Ledger → Nat → VoiceCall α) : VoiceCall α :=
  match estimate with
  | .error e => ⟨l, .error (.decimal e)⟩
  | .ok (.finite cost) =>
      match reserve l reservedAt provider cost with
      | none =>
          ⟨l, .error (.leonVoice
            "Leon has reached today's conversation budget — try again later" "spend")⟩
      | some (l', id) => call l' id
  | .ok _ => ⟨l, .error (.decimal .invalidOperation)⟩

variable (prices : VoicePrices) (keyed : Bool) (l : Ledger) (reservedAt now : Instant)
  (outcome : ProviderOutcome)

/-- `_require_openai_key`, and then the rest of the call. -/
def withKey (keyed : Bool) (l : Ledger) (stage : String) (call : VoiceCall α) : VoiceCall α :=
  if keyed then call
  else ⟨l, .error (.leonVoice "voice conversation is not configured (missing OpenAI key)" stage)⟩

def transcribeAudio : VoiceCall PyStr :=
  withKey keyed l "stt" <|
    withReservation l reservedAt "openai-whisper" (sttReserveEstimateUsd prices) fun l' id =>
      transcribeReserved prices l' now id outcome

def generateReply (userText : PyStr) (history : List Turn) : VoiceCall PyStr :=
  withKey keyed l "llm" <|
    withReservation l reservedAt "openai-llm" (llmReserveEstimateUsd prices history userText)
      fun l' id => replyReserved prices l' now id outcome

def synthesizeSpeech (text : PyStr) : VoiceCall (List UInt8) :=
  withKey keyed l "tts" <|
    withReservation l reservedAt "openai-tts" (ttsCostUsd prices text) fun l' id =>
      speechReserved prices l' now id text outcome

end LeonVoice

end HumanGate
