import Mathlib
import HumanGate.Edge.InMemory

set_option autoImplicit false

/-! # The shared limiter is a fixed-window limiter

`PostgresRateLimiter` stores when a window expires and counts on after the limit; a clean-up deletes
rows that have expired. A row that is there stands for the ideal window of its key, and the ideal
window of a key without a row has ended; so every answer is the ideal one, and the one of the
in-memory limiter as long as that one tracks every live key.
-/

namespace HumanGate

open Lib Lib.FixedWindow

universe u v

variable {κ : Type u} {τ : Type v} [LinearOrder τ]

/-- Only expired rows are deleted. -/
theorem mem_doomed {rows : RequestRateLimits κ τ} {now : τ} {batchSize : Nat}
    {scan : List κ} {k : κ}
    (h : k ∈ doomed rows now batchSize scan) : ∃ row, rows k = some row ∧ row.expiresAt ≤ now := by
  unfold doomed at h
  obtain ⟨e, he, rfl⟩ := List.mem_map.mp h
  have hmem := (List.mem_insertionSort _).mp (List.mem_of_mem_take he)
  obtain ⟨hscan, hexpired⟩ := List.mem_filter.mp hmem
  obtain ⟨k, _, hk⟩ := List.mem_filterMap.mp hscan
  obtain ⟨row, hrow, rfl⟩ := Option.map_eq_some_iff.mp hk
  exact ⟨row, hrow, of_decide_eq_true hexpired⟩

/-- The database times of an operation, in order. -/
def SharedOp.times : SharedOp κ τ → List τ
  | .check c => [c.now, c.cleanUpAt]
  | .cleanUp now _ _ => [now]

def SharedOp.request : SharedOp κ τ → Option (Request κ τ)
  | .check c => some ⟨c.key, c.now⟩
  | .cleanUp _ _ _ => none

/-- The requests, with the database times of their upserts. -/
def keyedRequests (ops : List (SharedOp κ τ)) : List (Request κ τ) := ops.filterMap SharedOp.request

/-- The database times never go back. -/
def TimesOrdered (ops : List (SharedOp κ τ)) : Prop := (ops.flatMap SharedOp.times).Pairwise (· ≤ ·)

instance (ops : List (SharedOp κ τ)) : Decidable (TimesOrdered ops) :=
  inferInstanceAs (Decidable (List.Pairwise _ _))

/-- The requests are in the order of their times. -/
theorem keyedRequests_ordered {ops : List (SharedOp κ τ)} (h : TimesOrdered ops) :
    Ordered (keyedRequests ops) := by
  have hsub : ((keyedRequests ops).map Request.now).Sublist (ops.flatMap SharedOp.times) := by
    induction ops with
    | nil => exact List.Sublist.refl _
    | cons op rest ih =>
        have hrest : TimesOrdered rest := (List.pairwise_append.mp h).2.1
        rw [List.flatMap_cons]
        cases op with
        | check c =>
            have hnow : [c.now].Sublist [c.now, c.cleanUpAt] :=
              List.Sublist.cons_cons _ (List.nil_sublist _)
            exact hnow.append (ih hrest)
        | cleanUp now batchSize scan => exact (ih hrest).trans (List.sublist_cons_self _ _)
  exact List.pairwise_map.mp (h.sublist hsub)

variable [AddCommGroup τ]

def PostgresSettings.policy (settings : PostgresSettings τ) : Policy τ where
  limit := settings.maxRequests
  length := settings.windowSeconds
  limit_pos := settings.maxRequests_pos
  length_pos := settings.windowSeconds_pos

variable {settings : PostgresSettings τ} {rows : RequestRateLimits κ τ} {ideal : Windows κ τ}
  {now now' : τ}

/-- The row counts on where the ideal window stops at the limit. -/
structure RateLimitRow.StandsFor (settings : PostgresSettings τ) (row : RateLimitRow τ)
    (w : Window τ) : Prop where
  start : row.windowStartedAt = w.start
  expires : row.expiresAt = w.start + settings.windowSeconds
  count : w.count = min row.count settings.maxRequests

/-- Rows stand for the windows of their keys; a key without a row has no window that is open. -/
structure InStep (settings : PostgresSettings τ) (rows : RequestRateLimits κ τ)
    (ideal : Windows κ τ) (now : τ) : Prop where
  kept : ∀ k row, rows k = some row → ∃ w, ideal k = some w ∧ row.StandsFor settings w
  gone : ∀ k w, ideal k = some w → rows k = none → settings.policy.expired now w = true

/-! ## An upsert -/

/-- The inserted row is allowed. -/
theorem excludedRow_answer (settings : PostgresSettings τ) (now : τ) :
    (excludedRow settings.windowSeconds now).answer settings.maxRequests = (true, 0) := by
  have hallowed : decide (1 ≤ settings.maxRequests) = true :=
    decide_eq_true settings.maxRequests_pos
  unfold RateLimitRow.answer excludedRow
  rw [hallowed]
  rfl

theorem excludedRow_standsFor (settings : PostgresSettings τ) (now : τ) :
    (excludedRow settings.windowSeconds now).StandsFor settings ⟨now, 1⟩ :=
  ⟨rfl, rfl, (min_eq_left settings.maxRequests_pos).symm⟩

section Order

variable [IsOrderedAddMonoid τ]

/-- A row expires when its window ends. -/
theorem RateLimitRow.StandsFor.expired_iff {row : RateLimitRow τ} {w : Window τ}
    (h : row.StandsFor settings w) :
    row.expiresAt ≤ now ↔ settings.policy.expired now w = true := by
  rw [h.expires]
  calc w.start + settings.windowSeconds ≤ now
      ↔ settings.windowSeconds + w.start ≤ now := by rw [add_comm]
    _ ↔ settings.windowSeconds ≤ now - w.start := le_sub_iff_add_le.symm
    _ ↔ settings.policy.expired now w = true := decide_eq_true_iff.symm

theorem InStep.later (h : InStep settings rows ideal now) (hle : now ≤ now') :
    InStep settings rows ideal now' :=
  ⟨h.kept, fun k w hw hrow => Policy.expired_later hle (h.gone k w hw hrow)⟩

/-- **The upsert** writes the row of the next ideal window, and its row gives the ideal answer. -/
theorem upsertRow_spec (h : InStep settings rows ideal now) (k : κ) :
    (upsertRow settings.windowSeconds now (rows k)).StandsFor settings
        (settings.policy.hit now (ideal k)).1 ∧
      (upsertRow settings.windowSeconds now (rows k)).answer settings.maxRequests
        = (settings.policy.hit now (ideal k)).2 := by
  cases hrow : rows k with
  | none =>
      have hhit : settings.policy.hit now (ideal k) = (⟨now, 1⟩, true, 0) := by
        cases hideal : ideal k with
        | none => rfl
        | some w => exact Policy.hit_of_expired (h.gone k w hideal hrow)
      rw [hhit]
      exact ⟨excludedRow_standsFor settings now, excludedRow_answer settings now⟩
  | some rl =>
      obtain ⟨w, hideal, hstands⟩ := h.kept k rl hrow
      rw [hideal]
      unfold upsertRow
      dsimp only
      by_cases hexpired : rl.expiresAt ≤ now
      · -- the window has ended: the row starts again
        have hhit : settings.policy.hit now (some w) = (⟨now, 1⟩, true, 0) :=
          Policy.hit_of_expired (hstands.expired_iff.mp hexpired)
        have hcond : rl.expiresAt ≤ (excludedRow settings.windowSeconds now).updatedAt := hexpired
        rw [hhit, if_pos hcond, if_pos hcond, if_pos hcond]
        exact ⟨excludedRow_standsFor settings now, excludedRow_answer settings now⟩
      · have hopen : settings.policy.expired now w = false := by
          refine Bool.eq_false_iff.mpr fun hend => hexpired (hstands.expired_iff.mpr hend)
        have hcond : ¬ rl.expiresAt ≤ (excludedRow settings.windowSeconds now).updatedAt := hexpired
        rw [if_neg hcond, if_neg hcond, if_neg hcond]
        by_cases hcount : w.count < settings.maxRequests
        · -- below the limit both count
          have hrows : w.count = rl.count := by
            have hmin := hstands.count
            omega
          rw [Policy.hit_open hopen hcount]
          refine ⟨⟨hstands.start, hstands.expires, ?_⟩, ?_⟩
          · show w.count + 1 = min (rl.count + 1) settings.maxRequests
            omega
          · have hallowed : decide (rl.count + 1 ≤ settings.maxRequests) = true :=
              decide_eq_true (by omega)
            unfold RateLimitRow.answer
            dsimp only
            rw [hallowed]
            rfl
        · -- at the limit only the row counts on
          rw [Policy.hit_full hopen hcount]
          have hmin := hstands.count
          refine ⟨⟨hstands.start, hstands.expires, ?_⟩, ?_⟩
          · show w.count = min (rl.count + 1) settings.maxRequests
            omega
          · have hrefused : decide (rl.count + 1 ≤ settings.maxRequests) = false :=
              decide_eq_false (by omega)
            have hleft : rl.expiresAt - now = settings.windowSeconds - (now - w.start) := by
              rw [hstands.expires]
              abel
            have hpos : 0 < settings.windowSeconds - (now - w.start) := Policy.left_pos hopen
            unfold RateLimitRow.answer
            dsimp only
            rw [hrefused]
            show (false, max (rl.expiresAt - now) 0)
              = (false, settings.windowSeconds - (now - w.start))
            rw [hleft, max_eq_left hpos.le]

end Order

variable [DecidableEq κ]

theorem InStep.update (h : InStep settings rows ideal now) {k : κ} {row : RateLimitRow τ}
    {w : Window τ} (hrow : row.StandsFor settings w) :
    InStep settings (Function.update rows k (some row)) (Function.update ideal k (some w)) now := by
  constructor
  · intro k' row' hrow'
    by_cases hk : k' = k
    · subst hk
      rw [Function.update_self] at hrow' ⊢
      cases hrow'
      exact ⟨w, rfl, hrow⟩
    · rw [Function.update_of_ne hk] at hrow' ⊢
      exact h.kept k' row' hrow'
  · intro k' w' hw' hnone
    by_cases hk : k' = k
    · subst hk
      rw [Function.update_self] at hnone
      exact nomatch hnone
    · rw [Function.update_of_ne hk] at hw' hnone
      exact h.gone k' w' hw' hnone

variable [IsOrderedAddMonoid τ]

theorem InStep.cleanUp (h : InStep settings rows ideal now) (batchSize : Nat) (scan : List κ) :
    InStep settings (cleanUp rows now batchSize scan) ideal now := by
  constructor
  · intro k row hrow
    unfold HumanGate.cleanUp at hrow
    split at hrow
    · exact nomatch hrow
    · exact h.kept k row hrow
  · intro k w hw hrow
    unfold HumanGate.cleanUp at hrow
    split at hrow
    · rename_i hdoomed
      obtain ⟨row, hrow, hexpired⟩ := mem_doomed hdoomed
      obtain ⟨w', hw', hstands⟩ := h.kept k row hrow
      have hsame : w = w' := Option.some.inj (hw.symm.trans hw')
      rw [hsame]
      exact hstands.expired_iff.mp hexpired
    · exact h.gone k w hw hrow

/-! ## Sequences -/

variable [One τ]

/-- **A check** answers as the ideal limiter, and keeps the rows in step with it. -/
theorem check_inStep {s : SharedLimiter κ τ} {c : SharedCheck κ τ}
    (h : InStep settings s.rows ideal c.now) (hle : c.now ≤ c.cleanUpAt) :
    InStep settings (s.check settings c).1.rows
        (FixedWindow.check settings.policy ideal ⟨c.key, c.now⟩).1 c.cleanUpAt ∧
      (s.check settings c).2 = (FixedWindow.check settings.policy ideal ⟨c.key, c.now⟩).2 := by
  obtain ⟨hstands, hanswer⟩ := upsertRow_spec h c.key
  have hrows := (h.update (k := c.key) hstands).later hle
  refine ⟨?_, hanswer⟩
  unfold SharedLimiter.check
  dsimp only
  split
  · split
    · exact hrows.cleanUp settings.cleanupBatchSize c.scan
    · exact hrows
  · exact hrows

theorem answers_inStep : ∀ (ops : List (SharedOp κ τ)) {s : SharedLimiter κ τ}
    {ideal : Windows κ τ} {now : τ}, InStep settings s.rows ideal now →
    (now :: ops.flatMap SharedOp.times).Pairwise (· ≤ ·) →
    s.answers settings ops = FixedWindow.answers settings.policy ideal (keyedRequests ops) := by
  intro ops
  induction ops with
  | nil => exact fun _ _ => rfl
  | cons op rest ih =>
      intro s ideal now h htimes
      cases op with
      | check c =>
          have htimes : (now :: c.now :: c.cleanUpAt :: rest.flatMap SharedOp.times).Pairwise
              (· ≤ ·) := htimes
          obtain ⟨hnow, htimes⟩ := List.pairwise_cons.mp htimes
          obtain ⟨hcheck, htimes⟩ := List.pairwise_cons.mp htimes
          have hle : c.now ≤ c.cleanUpAt := hcheck _ List.mem_cons_self
          obtain ⟨hinStep, hanswer⟩ :=
            check_inStep (c := c) (h.later (hnow _ List.mem_cons_self)) hle
          have hrest := ih hinStep htimes
          show (s.check settings c).2 :: (s.check settings c).1.answers settings rest
            = (FixedWindow.check settings.policy ideal ⟨c.key, c.now⟩).2
              :: FixedWindow.answers settings.policy
                (FixedWindow.check settings.policy ideal ⟨c.key, c.now⟩).1 (keyedRequests rest)
          rw [hanswer, hrest]
      | cleanUp at' batchSize scan =>
          have htimes : (now :: at' :: rest.flatMap SharedOp.times).Pairwise (· ≤ ·) := htimes
          obtain ⟨hnow, htimes⟩ := List.pairwise_cons.mp htimes
          have hlater := (h.later (hnow _ List.mem_cons_self)).cleanUp batchSize scan
          exact ih (s := { s with rows := HumanGate.cleanUp s.rows at' batchSize scan })
            hlater htimes

/-- **The shared limiter**: whatever the processes clean up and when, every request is answered as
by the limiter that keeps every window for ever, and so as by the in-memory limiter with the same
window while no more keys are live than that one may track. -/
theorem shared_limiter_agrees (settings : PostgresSettings τ) (nextCleanupAt : Nat → τ)
    (ops : List (SharedOp κ τ)) (htimes : TimesOrdered ops) :
    SharedLimiter.answers settings ⟨fun _ => none, nextCleanupAt⟩ ops
      = FixedWindow.answers settings.policy (fun _ => none) (keyedRequests ops) ∧
    ∀ memory : InMemorySettings τ, memory.maxRequests = settings.maxRequests →
      memory.windowSeconds = settings.windowSeconds →
      Crowd memory.policy memory.maxTrackedKeys (fun _ => none) (keyedRequests ops) →
      SharedLimiter.answers settings ⟨fun _ => none, nextCleanupAt⟩ ops
        = (InMemoryRateLimiter.new.checks memory (keyedRequests ops)).2 := by
  have hideal : SharedLimiter.answers settings ⟨fun _ => none, nextCleanupAt⟩ ops
      = FixedWindow.answers settings.policy (fun _ => none) (keyedRequests ops) := by
    have hempty : ∀ now, InStep settings (fun _ : κ => none) (fun _ => none) now := fun now =>
      ⟨fun _ _ hrow => (nomatch hrow), fun _ _ hw => (nomatch hw)⟩
    cases ops with
    | nil => rfl
    | cons op rest =>
        -- the clock starts with the first operation
        obtain ⟨first, later, hfirst⟩ : ∃ first later,
            (op :: rest).flatMap SharedOp.times = first :: later := by
          cases op with
          | check c => exact ⟨c.now, _, rfl⟩
          | cleanUp now batchSize scan => exact ⟨now, _, rfl⟩
        refine answers_inStep (op :: rest) (hempty first) ?_
        unfold TimesOrdered at htimes
        rw [hfirst] at htimes ⊢
        refine List.pairwise_cons.mpr ⟨fun t ht => ?_, htimes⟩
        rcases List.mem_cons.mp ht with rfl | hlater
        · exact le_rfl
        · exact (List.pairwise_cons.mp htimes).1 t hlater
  refine ⟨hideal, fun memory hrequests hseconds hcrowd => ?_⟩
  have hpolicy : memory.policy = settings.policy := by
    unfold InMemorySettings.policy PostgresSettings.policy
    simp only [hrequests, hseconds]
  rw [hideal, checks_new (keyedRequests_ordered htimes) hcrowd, hpolicy]

/-- Two requests in ten seconds. -/
def sharedSettings : PostgresSettings ℤ where
  maxRequests := smallSettings.maxRequests
  windowSeconds := smallSettings.windowSeconds
  cleanupIntervalSeconds := none
  cleanupBatchSize := 1
  maxRequests_pos := smallSettings.maxRequests_pos
  windowSeconds_pos := smallSettings.windowSeconds_pos
  cleanupIntervalSeconds_pos _ h := absurd h (Option.not_mem_none _)
  cleanupBatchSize_pos := le_rfl

/-- A refused request, a clean-up after the window, and a request that starts again. -/
def sharedOps : List (SharedOp Bool ℤ) :=
  [.check ⟨0, false, 5, 0, true, 0, []⟩, .check ⟨1, false, 2, 1, true, 1, []⟩,
    .check ⟨0, false, 6, 2, false, 2, [false]⟩, .cleanUp 10 1 [false, true],
    .check ⟨1, true, 40, 11, true, 12, [true, false]⟩,
    .check ⟨0, false, 41, 13, true, 14, [true, false]⟩]

theorem shared_ops_answered :
    SharedLimiter.answers sharedSettings ⟨fun _ => none, fun _ => 7⟩ sharedOps
      = (InMemoryRateLimiter.new.checks smallSettings (keyedRequests sharedOps)).2 :=
  (shared_limiter_agrees sharedSettings (fun _ => 7) sharedOps (by decide)).2 smallSettings rfl rfl
    (by decide +kernel)

end HumanGate
