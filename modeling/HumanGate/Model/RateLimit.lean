import HumanGate.Lib.FixedWindow
import HumanGate.Lib.OrderedDict

set_option autoImplicit false

/-! # Request rate limits

The two limiters of `app/core/rate_limit.py`. `InMemoryRateLimiter` keeps a bounded, ordered map of
windows in the process; `PostgresRateLimiter` keeps a row for each key that one upsert writes, and
deletes rows that have expired. Times are exact. The arguments of a constructor are a structure that
only holds what the constructor accepts.
-/

namespace HumanGate

open Lib Lib.FixedWindow

universe u v

variable {κ : Type u} {τ : Type v} [DecidableEq κ] [AddCommGroup τ] [LinearOrder τ]

/-! ## In memory -/

/-- `_Window`. -/
structure RateWindow (τ : Type v) where
  startedAt : τ
  count : Nat
  deriving DecidableEq

structure InMemorySettings (τ : Type v) [Zero τ] [LT τ] where
  maxRequests : Nat
  windowSeconds : τ
  maxTrackedKeys : Nat
  maxRequests_pos : 1 ≤ maxRequests
  windowSeconds_pos : 0 < windowSeconds
  maxTrackedKeys_pos : 1 ≤ maxTrackedKeys

structure InMemoryRateLimiter (κ : Type u) (τ : Type v) where
  windows : OrderedDict κ (RateWindow τ)
  nextSweepAt : τ

namespace InMemoryRateLimiter

/-- `__init__`. -/
def new : InMemoryRateLimiter κ τ := ⟨.empty, 0⟩

variable (settings : InMemorySettings τ)

/-- `_sweep`. -/
def sweep (s : InMemoryRateLimiter κ τ) (now : τ) : InMemoryRateLimiter κ τ where
  windows := s.windows.filter fun e => decide (now - settings.windowSeconds < e.2.startedAt)
  nextSweepAt := now + settings.windowSeconds

/-- The loop of `_make_room`; each round takes an entry out, so `rounds` is the number of
entries. -/
def evict (cap : Nat) : (rounds : Nat) → OrderedDict κ (RateWindow τ) →
    OrderedDict κ (RateWindow τ)
  | 0, windows => windows
  | rounds + 1, windows =>
      if cap ≤ windows.entries.length then evict cap rounds windows.popFirst else windows

/-- `_make_room`. -/
def makeRoom (s : InMemoryRateLimiter κ τ) (now : τ) : InMemoryRateLimiter κ τ :=
  let s := if s.nextSweepAt ≤ now then s.sweep settings now else s
  { s with windows := evict settings.maxTrackedKeys s.windows.entries.length s.windows }

/-- The branch of `check` that starts a window. -/
def startWindow (s : InMemoryRateLimiter κ τ) (r : Request κ τ) :
    InMemoryRateLimiter κ τ × Answer τ :=
  let s := s.makeRoom settings r.now
  ({ s with windows := s.windows.putLast r.key ⟨r.now, 1⟩ }, true, 0)

def check (s : InMemoryRateLimiter κ τ) (r : Request κ τ) : InMemoryRateLimiter κ τ × Answer τ :=
  match s.windows.get r.key with
  | none => s.startWindow settings r
  | some w =>
      if settings.windowSeconds ≤ r.now - w.startedAt then s.startWindow settings r
      else if w.count < settings.maxRequests then
        ({ s with windows := s.windows.modify r.key fun w => { w with count := w.count + 1 } },
          true, 0)
      else (s, false, max (settings.windowSeconds - (r.now - w.startedAt)) 0)

/-- The limiter after a sequence of requests, and the answers. -/
def checks : InMemoryRateLimiter κ τ → List (Request κ τ) →
    InMemoryRateLimiter κ τ × List (Answer τ)
  | s, [] => (s, [])
  | s, r :: rest =>
      let (t, answers) := checks (s.check settings r).1 rest
      (t, (s.check settings r).2 :: answers)

end InMemoryRateLimiter

/-! ## In PostgreSQL -/

structure PostgresSettings (τ : Type v) [Zero τ] [LT τ] where
  maxRequests : Nat
  windowSeconds : τ
  cleanupIntervalSeconds : Option τ
  cleanupBatchSize : Nat
  maxRequests_pos : 1 ≤ maxRequests
  windowSeconds_pos : 0 < windowSeconds
  cleanupIntervalSeconds_pos : ∀ interval ∈ cleanupIntervalSeconds, 0 < interval
  cleanupBatchSize_pos : 1 ≤ cleanupBatchSize

/-- A row of `request_rate_limits`. -/
structure RateLimitRow (τ : Type v) where
  windowStartedAt : τ
  expiresAt : τ
  count : Nat
  updatedAt : τ
  deriving DecidableEq

/-- The rows by `bucket_key`. -/
abbrev RequestRateLimits (κ : Type u) (τ : Type v) := κ → Option (RateLimitRow τ)

/-- The row that is proposed for insertion. -/
def excludedRow (windowSeconds now : τ) : RateLimitRow τ where
  windowStartedAt := now
  expiresAt := now + windowSeconds
  count := 1
  updatedAt := now

/-- `_RATE_LIMIT_UPSERT_SQL`: the row after it. -/
def upsertRow (windowSeconds now : τ) : Option (RateLimitRow τ) → RateLimitRow τ
  | none => excludedRow windowSeconds now
  | some rl =>
      let excluded := excludedRow windowSeconds now
      { count := if rl.expiresAt ≤ excluded.updatedAt then 1 else rl.count + 1
        windowStartedAt :=
          if rl.expiresAt ≤ excluded.updatedAt then excluded.windowStartedAt
          else rl.windowStartedAt
        expiresAt :=
          if rl.expiresAt ≤ excluded.updatedAt then excluded.expiresAt else rl.expiresAt
        updatedAt := excluded.updatedAt }

/-- What `check` makes of the returned row. -/
def RateLimitRow.answer (maxRequests : Nat) (row : RateLimitRow τ) : Answer τ :=
  let retryAfter := max (row.expiresAt - row.updatedAt) 0
  let allowed := decide (row.count ≤ maxRequests)
  (allowed, if allowed then 0 else retryAfter)

/-- The keys that `_RATE_LIMIT_CLEANUP_SQL` deletes. `scan` lists the keys as the query scans
them. -/
def doomed (rows : RequestRateLimits κ τ) (now : τ) (batchSize : Nat) (scan : List κ) : List κ :=
  (((scan.filterMap fun k => (rows k).map fun row => (k, row)).filter
      fun e => decide (e.2.expiresAt ≤ now)).insertionSort
    fun a b => a.2.expiresAt ≤ b.2.expiresAt).take batchSize |>.map Prod.fst

/-- `_RATE_LIMIT_CLEANUP_SQL`. -/
def cleanUp (rows : RequestRateLimits κ τ) (now : τ) (batchSize : Nat) (scan : List κ) :
    RequestRateLimits κ τ :=
  fun k => if k ∈ doomed rows now batchSize scan then none else rows k

/-- The rows, and the `_next_cleanup_at` of every process. -/
structure SharedLimiter (κ : Type u) (τ : Type v) where
  rows : RequestRateLimits κ τ
  nextCleanupAt : Nat → τ

/-- What a call of `check` depends on: the process, the key, the process's `time.monotonic()`, the
time of the upsert, whether the lock for a clean-up is free, and the time and the scan of the
clean-up. -/
structure SharedCheck (κ : Type u) (τ : Type v) where
  process : Nat
  key : κ
  monotonic : τ
  now : τ
  locked : Bool
  cleanUpAt : τ
  scan : List κ

inductive SharedOp (κ : Type u) (τ : Type v) where
  | check (c : SharedCheck κ τ)
  /-- A clean-up on its own. -/
  | cleanUp (now : τ) (batchSize : Nat) (scan : List κ)

section PostgresRateLimiter

variable [One τ] (settings : PostgresSettings τ)

/-- `cleanup_interval_seconds or window_seconds`. -/
def PostgresSettings.interval (settings : PostgresSettings τ) : τ :=
  settings.cleanupIntervalSeconds.getD settings.windowSeconds

/-- `PostgresRateLimiter.check`. -/
def SharedLimiter.check (s : SharedLimiter κ τ) (c : SharedCheck κ τ) :
    SharedLimiter κ τ × Answer τ :=
  let row := upsertRow settings.windowSeconds c.now (s.rows c.key)
  let rows := Function.update s.rows c.key (some row)
  let s' : SharedLimiter κ τ :=
    if s.nextCleanupAt c.process ≤ c.monotonic then
      if c.locked then
        { rows := cleanUp rows c.cleanUpAt settings.cleanupBatchSize c.scan
          nextCleanupAt :=
            Function.update s.nextCleanupAt c.process (c.monotonic + settings.interval) }
      else
        { rows := rows
          nextCleanupAt :=
            Function.update s.nextCleanupAt c.process (c.monotonic + min 1 settings.interval) }
    else { s with rows := rows }
  (s', row.answer settings.maxRequests)

/-- The answers of all processes, in the order of the upserts. -/
def SharedLimiter.answers : SharedLimiter κ τ → List (SharedOp κ τ) → List (Answer τ)
  | _, [] => []
  | s, .check c :: rest => (s.check settings c).2 :: answers (s.check settings c).1 rest
  | s, .cleanUp now batchSize scan :: rest =>
      answers { s with rows := cleanUp s.rows now batchSize scan } rest

end PostgresRateLimiter

end HumanGate
