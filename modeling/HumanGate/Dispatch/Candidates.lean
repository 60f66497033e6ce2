import HumanGate.Lib.Ranking
import HumanGate.Model.CandidateQuery
import HumanGate.Model.Desk

set_option autoImplicit false

/-! # The candidate query and the rule

The query of `claim_assignment` and the functions it is kept in step with say the same: a row is
saturated exactly if its provider has no capacity (`saturatedProviderPairExpr_eq`), and its rank is
the effective priority (`effectivePriorityExpr_eq`). So a claim considers the first of the pending
assignments that it may have, and an empty answer means what it says (`claim_follows_rule`).
-/

namespace HumanGate

open Lib Lib.Calendar Lib.Sql

variable {cfg : Config} {budgets : ProviderBudgets} {s : Db} {now : Instant}
  {a b : StageAssignment} {w : WorkerRegistration} {rows : List AssignmentId}

/-! ## Budgets -/

theorem inflightExpr_eq {p : String} (hp : a.provider = some p) :
    inflightExpr s a = countInflight s a.workspaceId p := by
  have hkeep : keep (fun x => both (some (x.workspaceId == a.workspaceId))
        (both (compare (fun p q => p == q) x.provider a.provider) (some x.status.inFlight)))
        s.assignments
      = s.assignments.filter fun x =>
          x.workspaceId == a.workspaceId && x.provider == some p && x.status.inFlight := by
    refine List.filter_congr fun x _ => ?_
    -- a row whose provider is NULL does not count
    rw [hp, both_isTrue, both_isTrue, bool_isTrue, compare_beq_isTrue, bool_isTrue, Bool.and_assoc]
  unfold inflightExpr countInflight
  rw [hkeep]

/-- The budget row of a workspace and provider is the only one. -/
theorem lockBudget_eq_some {ws : WorkspaceId} {p : String} {row : ProviderConcurrencyBudget}
    (hrow : row ∈ budgets.rows) (hws : row.workspaceId = ws) (hp : row.provider = p) :
    budgets.lockBudget ws p = some row := by
  have hfound : (budgets.lockBudget ws p).isSome = true := by
    unfold ProviderBudgets.lockBudget
    rw [List.find?_isSome]
    exact ⟨row, hrow, by simp [hws, hp]⟩
  obtain ⟨row', hrow'⟩ := Option.isSome_iff_exists.mp hfound
  have hmem := List.mem_of_find?_eq_some hrow'
  have hkey := List.find?_some hrow'
  simp only [Bool.and_eq_true, beq_iff_eq] at hkey
  have heq : row' = row := List.inj_on_of_nodup_map budgets.unique hmem hrow
      (by simp [hkey, hws, hp])
  rw [hrow', heq]

/-- **The query's predicate is the rule** of `has_provider_capacity`; it is never NULL. -/
theorem saturatedProviderPairExpr_eq (cfg : Config) (budgets : ProviderBudgets) (s : Db)
    (a : StageAssignment) : saturatedProviderPairExpr budgets s a
      = some (!hasProviderCapacity (cfg.withBudgets budgets) s a.workspaceId a.provider) := by
  unfold saturatedProviderPairExpr
  cases hp : a.provider with
  | none => rfl
  | some p =>
      have hnull : isNotNull (some p) = some true := rfl
      rw [hnull, both_true, compare_some]
      by_cases hblank : p = ""
      · rw [hblank]
        rfl
      · have hne : (p != "") = true := bne_iff_ne.mpr hblank
        rw [hne, both_true, anyRow_eq]
        simp only [compare_some, both_bool, inflightExpr_eq hp, hasProviderCapacity, hblank,
          if_false,
          Config.withBudgets]
        congr 1
        cases hlock : budgets.lockBudget a.workspaceId p with
        | none =>
            -- no budget, no limit
            have hnone := List.find?_eq_none.mp hlock
            rw [Option.map_none, Bool.not_true, List.any_eq_false]
            intro row hrow hsat
            simp only [beq_iff_eq, Option.some.injEq, Bool.and_eq_true] at hsat
            exact hnone row hrow (by simp [hsat.1, hsat.2.1])
        | some row =>
            have hmem := List.mem_of_find?_eq_some hlock
            have hkey := List.find?_some hlock
            simp only [Bool.and_eq_true, beq_iff_eq] at hkey
            simp only [Option.map_some]
            rw [Bool.eq_iff_iff, List.any_eq_true, Bool.not_eq_true',
              decide_eq_false_iff_not, not_lt]
            constructor
            · rintro ⟨row', hrow', hsat⟩
              simp only [beq_iff_eq, Option.some.injEq, Bool.and_eq_true, decide_eq_true_eq] at hsat
              have heq := lockBudget_eq_some hrow' hsat.1 hsat.2.1
              rw [hlock] at heq
              cases heq
              exact hsat.2.2
            · intro hle
              exact ⟨row, hmem, by simp [hkey, hle]⟩

/-! ## Priorities -/

/-- The age in whole intervals. -/
theorem floor_age (createdAt now : Instant) (interval : Nat) :
    ⌊max 0 (epoch createdAt now) / (interval : ℚ)⌋
      = (((now - createdAt) / seconds interval : Nat) : Int) := by
  have hage : max 0 (epoch createdAt now) = ((now - createdAt : Nat) : ℚ) / microsPerSecond := by
    unfold epoch
    rcases Nat.le_total createdAt now with hle | hle
    · rw [Nat.cast_sub hle]
      apply max_eq_right
      apply div_nonneg
      · have hcast : (createdAt : ℚ) ≤ now := by exact_mod_cast hle
        linarith
      · exact Nat.cast_nonneg _
    · rw [Nat.sub_eq_zero_of_le hle, Nat.cast_zero, zero_div]
      apply max_eq_left
      apply div_nonpos_of_nonpos_of_nonneg
      · have hcast : (now : ℚ) ≤ createdAt := by exact_mod_cast hle
        linarith
      · exact Nat.cast_nonneg _
  have hseconds : ((microsPerSecond : ℚ) * interval) = ((seconds interval : Nat) : ℚ) := by
    unfold seconds
    push_cast
    ring
  rw [hage, div_div, hseconds]
  exact_mod_cast Rat.floor_natCast_div_natCast (now - createdAt) (seconds interval)

/-- **The rank is the effective priority.** -/
theorem effectivePriorityExpr_eq (cfg : Config) (priority : Int) (createdAt now : Instant) :
    effectivePriorityExpr cfg priority createdAt now
      = effectivePriority cfg priority createdAt now := by
  unfold effectivePriorityExpr effectivePriority computeAgeBoost
  by_cases hzero : cfg.settings.assignmentAgeBoostIntervalSeconds = 0
  · simp [hzero]
  · simp only [hzero, if_false]
    rw [floor_age, min_comm]
    push_cast
    rfl

/-- A boost never shrinks with age. -/
theorem computeAgeBoost_mono (cfg : Config) {createdAt createdAt' : Instant} (now : Instant)
    (hle : createdAt ≤ createdAt') :
    computeAgeBoost cfg createdAt' now ≤ computeAgeBoost cfg createdAt now := by
  unfold computeAgeBoost
  split
  · exact le_rfl
  · have hage : (now - createdAt') / seconds cfg.settings.assignmentAgeBoostIntervalSeconds
        ≤ (now - createdAt) / seconds cfg.settings.assignmentAgeBoostIntervalSeconds :=
      Nat.div_le_div_right (Nat.sub_le_sub_left hle now)
    have hboost := Nat.mul_le_mul_right cfg.settings.assignmentAgeBoostPerInterval hage
    omega

theorem claimLe_iff {cfg : Config} {now : Instant} {a b : StageAssignment} :
    claimLe cfg now a b = true ↔
      effectivePriority cfg b.priority b.createdAt now
        < effectivePriority cfg a.priority a.createdAt now ∨
      effectivePriority cfg a.priority a.createdAt now
        = effectivePriority cfg b.priority b.createdAt now ∧
        a.createdAt ≤ b.createdAt := by
  simp [claimLe]

/-- Of two assignments of the same priority, the older one ranks first. -/
theorem older_first (cfg : Config) (now : Instant) (hpriority : a.priority = b.priority)
    (holder : a.createdAt < b.createdAt) :
    claimLe cfg now a b = true ∧ claimLe cfg now b a = false := by
  have hmono : effectivePriority cfg b.priority b.createdAt now
      ≤ effectivePriority cfg a.priority a.createdAt now := by
    have hboost := computeAgeBoost_mono cfg now holder.le
    unfold effectivePriority
    rw [hpriority]
    omega
  rw [← Bool.not_eq_true, claimLe_iff, claimLe_iff]
  rcases hmono.lt_or_eq with hlt | heq
  · refine ⟨.inl hlt, ?_⟩
    rintro (hlt' | ⟨heq', _⟩)
    · exact absurd hlt' hlt.not_gt
    · exact absurd heq' hlt.ne
  · refine ⟨.inr ⟨heq.symm, holder.le⟩, ?_⟩
    rintro (hlt' | ⟨_, hle⟩)
    · exact absurd heq hlt'.ne'
    · exact absurd hle holder.not_ge

/-! ## The first candidate -/

instance claim_total (cfg : Config) (now : Instant) :
    Std.Total fun p q : AssignmentId × StageAssignment => claimLe cfg now p.2 q.2 = true where
  total p q := by
    rw [claimLe_iff, claimLe_iff]
    rcases lt_trichotomy (effectivePriority cfg p.2.priority p.2.createdAt now)
      (effectivePriority cfg q.2.priority q.2.createdAt now) with hlt | heq | hgt
    · exact .inr (.inl hlt)
    · rcases le_total p.2.createdAt q.2.createdAt with hle | hle
      · exact .inl (.inr ⟨heq, hle⟩)
      · exact .inr (.inr ⟨heq.symm, hle⟩)
    · exact .inl (.inl hgt)

instance claim_trans (cfg : Config) (now : Instant) :
    IsTrans (AssignmentId × StageAssignment) fun p q => claimLe cfg now p.2 q.2 = true where
  trans p q r hpq hqr := by
    rw [claimLe_iff] at hpq hqr ⊢
    rcases hpq with hlt | ⟨heq, hle⟩
    · rcases hqr with hlt' | ⟨heq', _⟩
      · exact .inl (hlt'.trans hlt)
      · exact .inl (heq' ▸ hlt)
    · rcases hqr with hlt' | ⟨heq', hle'⟩
      · exact .inl (heq ▸ hlt')
      · exact .inr ⟨heq.trans heq', hle.trans hle'⟩

theorem candidateLe_eq (cfg : Config) (now : Instant) (a b : StageAssignment) :
    candidateLe cfg now a b = claimLe cfg now a b := by
  unfold candidateLe claimLe
  rw [effectivePriorityExpr_eq, effectivePriorityExpr_eq]

/-- **The query** returns the candidate of the rule. -/
theorem candidateQuery_eq (cfg : Config) (budgets : ProviderBudgets) (s : Db) (now : Instant)
    (w : WorkerRegistration) (rows : List AssignmentId) :
    candidateQuery cfg budgets s now w rows
      = claimCandidate (cfg.withBudgets budgets) s now w rows := by
  have hwhere : keep (fun p => both (baseWhere w p.2)
        (negate (saturatedProviderPairExpr budgets s p.2))) (assignmentRows s rows)
      = (assignmentRows s rows).filter fun p => claimable w p.2 &&
          !saturatedProviderPair (cfg.withBudgets budgets) s p.2 := by
    refine keep_bool fun p _ => ?_
    have hbase : baseWhere w p.2 = some (claimable w p.2) := by
      unfold baseWhere claimable WorkerRegistration.serves
      rw [both_bool, both_bool, Bool.and_assoc]
      congr 4
      funext pin
      rw [Bool.eq_iff_iff, beq_iff_eq, beq_iff_eq, eq_comm]
    rw [hbase, saturatedProviderPairExpr_eq cfg budgets, negate_bool, both_bool, Bool.not_not,
      hasProviderCapacity_eq_not_saturated]
  have hle : candidateLe cfg now = claimLe (cfg.withBudgets budgets) now := by
    funext a b
    exact candidateLe_eq cfg now a b
  unfold candidateQuery claimCandidate
  rw [hwhere, hle]

/-- A pending assignment in the worker's scope whose provider has capacity. -/
def MayHandOut (cfg : Config) (s : Db) (w : WorkerRegistration) (aid : AssignmentId)
    (a : StageAssignment) : Prop :=
  s.assignments[aid]? = some a ∧ claimable w a = true ∧
    hasProviderCapacity cfg s a.workspaceId a.provider = true

/-- The database scans every assignment once, in any order. -/
def Scans (s : Db) (rows : List AssignmentId) : Prop := rows.Perm (List.range s.assignments.length)

theorem mem_scan (hrows : Scans s rows) {aid : AssignmentId} :
    (aid, a) ∈ assignmentRows s rows ↔ s.assignments[aid]? = some a := by
  refine ⟨mem_assignmentRows, fun ha => ?_⟩
  unfold assignmentRows
  have hlt : aid < s.assignments.length := (List.getElem?_eq_some_iff.mp ha).1
  refine List.mem_filterMap.mpr ⟨aid, hrows.mem_iff.mpr (List.mem_range.mpr hlt), ?_⟩
  rw [ha, Option.map_some]

theorem mem_candidates (hrows : Scans s rows) {aid : AssignmentId} :
    (aid, a) ∈ (assignmentRows s rows).filter (fun p => claimable w p.2 &&
        !saturatedProviderPair cfg s p.2)
      ↔ MayHandOut cfg s w aid a := by
  unfold MayHandOut
  rw [List.mem_filter, mem_scan hrows, Bool.and_eq_true, hasProviderCapacity_eq_not_saturated]

/-- **The candidate** is the first of the assignments that may be handed out. -/
theorem claimCandidate_first (hrows : Scans s rows) {aid : AssignmentId}
    (h : claimCandidate cfg s now w rows = some (aid, a)) :
    MayHandOut cfg s w aid a ∧
      ∀ aid' a', MayHandOut cfg s w aid' a' → claimLe cfg now a a' = true := by
  obtain ⟨hmem, hfirst⟩ := Ranking.head_first
    (fun p q : AssignmentId × StageAssignment => claimLe cfg now p.2 q.2 = true) h
  exact ⟨(mem_candidates hrows).mp hmem,
    fun aid' a' hmay => hfirst (aid', a') ((mem_candidates hrows).mpr hmay)⟩

theorem claimCandidate_none (hrows : Scans s rows) :
    claimCandidate cfg s now w rows = none ↔ ∀ aid a, ¬ MayHandOut cfg s w aid a := by
  unfold claimCandidate
  rw [Ranking.head_none fun p q : AssignmentId × StageAssignment => claimLe cfg now p.2 q.2 = true,
    List.eq_nil_iff_forall_not_mem]
  constructor
  · exact fun hnone aid a hmay => hnone (aid, a) ((mem_candidates hrows).mpr hmay)
  · exact fun hnone p hp => hnone p.1 p.2 ((mem_candidates hrows).mp hp)

/-! ## The answers -/

/-- The worker passes the checks of a claim. A stage that is none cannot be asked for. -/
structure Eligible (cfg : Config) (w : WorkerRegistration) (now : Instant) : Prop where
  admitted : ∀ r ∈ claimRefusal cfg w now, r.1 = .noWork
  stages : ∀ t ∈ w.supportedStages, (ContentStage.ofText? t).isSome = true

/-- Only a worker without stages is told that there is no work before the query. -/
theorem claimRefusal_noWork {r : ClaimOutcome × String} (h : claimRefusal cfg w now = some r)
    (hwork : r.1 = .noWork) : w.supportedStages = [] := by
  unfold claimRefusal at h
  split_ifs at h with hdrain hstatus hbeat hload hstages
  · cases h
    cases hwork
  · cases h
    cases hwork
  · cases h
    cases hwork
  · cases h
    cases hwork
  · exact hstages

variable {wid : WorkerId} {token : Option ClaimToken} {requestWorkspaceId : Option WorkspaceId}

variable (requestWorkspaceId) in
/-- A claim that is no replay, of an eligible worker. -/
theorem claimAssignment_eq (hw : s.workers[wid]? = some w) (heligible : Eligible cfg w now)
    (hfresh : token.elim [] (heldUnder s wid w) = []) (hrows : Scans s rows) :
    (∀ aid a, claimCandidate cfg s now w rows = some (aid, a) →
      claimAssignment cfg s now wid token requestWorkspaceId rows
        = claimWithSpend cfg s now wid w aid a token requestWorkspaceId) ∧
    (claimCandidate cfg s now w rows = none →
      ∃ r, claimAssignment cfg s now wid token requestWorkspaceId rows = .ok r ∧
        ((∃ a ∈ s.assignments, claimable w a = true) → r.outcome = .capacity ∧
          r.reason = "provider budget exhausted") ∧
        ((∀ a ∈ s.assignments, claimable w a = false) → r.outcome = .noWork)) := by
  have hstages : (w.supportedStages.find? fun t => (ContentStage.ofText? t).isNone) = none := by
    rw [List.find?_eq_none]
    intro t ht hnone
    have hsome := heligible.stages t ht
    rw [Option.isNone_iff_eq_none] at hnone
    rw [hnone] at hsome
    cases hsome
  unfold claimAssignment
  simp only [hw, hfresh]
  unfold claimFresh
  cases hrefusal : claimRefusal cfg w now with
  | some r =>
      -- no stage is supported, so no assignment is in scope
      obtain ⟨outcome, reason⟩ := r
      have hwork : outcome = .noWork := heligible.admitted _ hrefusal
      have hnil := claimRefusal_noWork hrefusal hwork
      have hscope : ∀ a : StageAssignment, claimable w a = false := by
        intro a
        simp [claimable, hnil]
      refine ⟨fun aid a hcand => ?_, fun _ => ⟨_, rfl, fun hex => ?_, fun _ => hwork⟩⟩
      · have hmay := (claimCandidate_first hrows hcand).1.2.1
        rw [hscope a] at hmay
        cases hmay
      · obtain ⟨a, _, ha⟩ := hex
        rw [hscope a] at ha
        cases ha
  | none =>
      simp only [hstages]
      refine ⟨fun aid a hcand => by simp only [hcand], fun hnone => ?_⟩
      simp only [hnone]
      by_cases hany : s.assignments.any (claimable w) = true
      · rw [if_pos hany]
        refine ⟨_, rfl, fun _ => ⟨rfl, rfl⟩, fun hall => ?_⟩
        obtain ⟨a, ha, hclaim⟩ := List.any_eq_true.mp hany
        rw [hall a ha] at hclaim
        cases hclaim
      · rw [if_neg hany]
        refine ⟨_, rfl, fun hex => absurd (List.any_eq_true.mpr hex) hany, fun _ => rfl⟩

/-- A claim with a candidate is granted, or the spend gate refuses it. -/
theorem claimWithSpend_outcome {aid : AssignmentId} {r : ClaimResult}
    (h : claimWithSpend cfg s now wid w aid a token requestWorkspaceId = .ok r) :
    r.outcome = .granted ∨ r.outcome = .capacity ∧ r.reason = "workspace spend cap reached" := by
  unfold claimWithSpend at h
  split at h
  · cases h
    exact .inl rfl
  · split at h
    · cases h
    · cases h
      exact .inl rfl
    · simp only at h
      split at h
      · cases h
        exact .inl rfl
      · cases h
        exact .inr ⟨rfl, rfl⟩

/-- **The claim query refines the rule.** Its predicate is that of `has_provider_capacity`, its rank
is the effective priority, and an older assignment of the same priority ranks first. A claim of an
eligible worker considers the first of the pending assignments in its scope with provider capacity;
it reports `NO_WORK` exactly if none is pending in its scope, and exhausted budgets exactly if all
of them are saturated. -/
theorem claim_follows_rule (cfg : Config) (budgets : ProviderBudgets) (s : Db) (now : Instant) :
    (∀ a, saturatedProviderPairExpr budgets s a = some true ↔
      hasProviderCapacity (cfg.withBudgets budgets) s a.workspaceId a.provider = false) ∧
    (∀ priority createdAt, effectivePriorityExpr cfg priority createdAt now
      = effectivePriority cfg priority createdAt now) ∧
    (∀ a b, a.priority = b.priority → a.createdAt < b.createdAt →
      candidateLe cfg now a b = true ∧ candidateLe cfg now b a = false) ∧
    ∀ (wid : WorkerId) (w : WorkerRegistration) (token : Option ClaimToken)
      (requestWorkspaceId : Option WorkspaceId) (rows : List AssignmentId),
      s.workers[wid]? = some w → Eligible cfg w now → token.elim [] (heldUnder s wid w) = [] →
      Scans s rows →
      (∀ aid a, candidateQuery cfg budgets s now w rows = some (aid, a) →
        MayHandOut (cfg.withBudgets budgets) s w aid a ∧
        (∀ aid' a', MayHandOut (cfg.withBudgets budgets) s w aid' a' →
          claimLe cfg now a a' = true) ∧
        claimAssignment (cfg.withBudgets budgets) s now wid token requestWorkspaceId rows
          = claimWithSpend (cfg.withBudgets budgets) s now wid w aid a token requestWorkspaceId) ∧
      (candidateQuery cfg budgets s now w rows = none ↔
        ∀ aid a, ¬ MayHandOut (cfg.withBudgets budgets) s w aid a) ∧
      ((∃ r, claimAssignment (cfg.withBudgets budgets) s now wid token requestWorkspaceId rows
            = .ok r ∧
          r.outcome = .noWork) ↔
        ∀ a ∈ s.assignments, claimable w a = false) ∧
      ((∃ r, claimAssignment (cfg.withBudgets budgets) s now wid token requestWorkspaceId rows
            = .ok r ∧
          r.outcome = .capacity ∧ r.reason = "provider budget exhausted") ↔
        (∃ a ∈ s.assignments, claimable w a = true) ∧
          ∀ a ∈ s.assignments, claimable w a = true →
            hasProviderCapacity (cfg.withBudgets budgets) s a.workspaceId a.provider = false) := by
  refine ⟨fun a => ?_, fun priority createdAt => effectivePriorityExpr_eq ..,
    fun a b hpriority holder => ?_,
    fun wid w token requestWorkspaceId rows hw heligible hfresh hrows => ?_⟩
  · rw [saturatedProviderPairExpr_eq cfg, Option.some.injEq, Bool.not_eq_true']
  · rw [candidateLe_eq, candidateLe_eq]
    exact older_first cfg now hpriority holder
  · have heligible' : Eligible (cfg.withBudgets budgets) w now := ⟨heligible.1, heligible.2⟩
    obtain ⟨hsome, hnone⟩ := claimAssignment_eq requestWorkspaceId hw heligible' hfresh hrows
    rw [candidateQuery_eq]
    -- without a candidate, every pending assignment in scope is saturated
    have hsaturated : claimCandidate (cfg.withBudgets budgets) s now w rows = none ↔
        ∀ a ∈ s.assignments, claimable w a = true →
          hasProviderCapacity (cfg.withBudgets budgets) s a.workspaceId a.provider = false := by
      rw [claimCandidate_none hrows]
      constructor
      · intro hall a ha hclaim
        obtain ⟨aid, haid⟩ := List.mem_iff_getElem?.mp ha
        rw [← Bool.not_eq_true]
        exact fun hcap => hall aid a ⟨haid, hclaim, hcap⟩
      · rintro hall aid a ⟨haid, hclaim, hcap⟩
        rw [hall a (List.mem_of_getElem? haid) hclaim] at hcap
        cases hcap
    refine ⟨fun aid a hcand => ⟨(claimCandidate_first hrows hcand).1,
      (claimCandidate_first hrows hcand).2, hsome aid a hcand⟩, claimCandidate_none hrows, ?_, ?_⟩
    · constructor
      · -- a claim that finds no work had no candidate, and not for lack of budget
        rintro ⟨r, hr, hwork⟩ a ha
        cases hcand : claimCandidate (cfg.withBudgets budgets) s now w rows with
        | some p =>
            rw [hsome p.1 p.2 hcand] at hr
            rcases claimWithSpend_outcome hr with hgranted | ⟨hcap, _⟩
            · rw [hwork] at hgranted
              cases hgranted
            · rw [hwork] at hcap
              cases hcap
        | none =>
            obtain ⟨r', hr', hany, _⟩ := hnone hcand
            rw [hr] at hr'
            cases hr'
            rw [← Bool.not_eq_true]
            intro hclaim
            rw [hwork] at hany
            cases (hany ⟨a, ha, hclaim⟩).1
      · intro hall
        have hcand : claimCandidate (cfg.withBudgets budgets) s now w rows = none :=
          hsaturated.mpr fun a ha hclaim => absurd hclaim (by simp [hall a ha])
        obtain ⟨r, hr, _, hwork⟩ := hnone hcand
        exact ⟨r, hr, hwork hall⟩
    · constructor
      · -- a claim that lacks budget had no candidate, but pending work in scope
        rintro ⟨r, hr, hcap, hreason⟩
        cases hcand : claimCandidate (cfg.withBudgets budgets) s now w rows with
        | some p =>
            rw [hsome p.1 p.2 hcand] at hr
            rcases claimWithSpend_outcome hr with hgranted | ⟨_, hspend⟩
            · rw [hcap] at hgranted
              cases hgranted
            · rw [hreason] at hspend
              exact absurd hspend (by decide)
        | none =>
            refine ⟨?_, hsaturated.mp hcand⟩
            obtain ⟨r', hr', _, hwork⟩ := hnone hcand
            rw [hr] at hr'
            cases hr'
            by_contra hno
            push Not at hno
            have hidle := hwork fun a ha => Bool.eq_false_iff.mpr (hno a ha)
            rw [hcap] at hidle
            cases hidle
      · rintro ⟨hex, hall⟩
        obtain ⟨r, hr, hany, _⟩ := hnone (hsaturated.mpr hall)
        exact ⟨r, hr, hany hex⟩

/-- One assignment at a time for the provider `p`. -/
def oneAtATime : ProviderBudgets := ⟨[⟨0, "p", 1⟩], by decide⟩

/-- An assignment for `p` is in flight; an older one for `p` and a newer one without a provider
wait. -/
def saturatedDb : Db :=
  { deskDb with
    assignments :=
      [{ waitingAssignment 0 0 0 with status := .dispatched, provider := some "p" },
        { waitingAssignment 0 1 1 with provider := some "p" }, waitingAssignment 0 2 2] }

/-- The claim considers the newer one. -/
theorem saturated_row_skipped :
    claimAssignment (deskConfig.withBudgets oneAtATime) saturatedDb 3 0 none none [0, 1, 2]
      = claimWithSpend (deskConfig.withBudgets oneAtATime) saturatedDb 3 0
        (deskWorker [.scripting]) 2
          (waitingAssignment 0 2 2) none none := by
  have hquery : candidateQuery deskConfig oneAtATime saturatedDb 3
      (deskWorker [.scripting]) [0, 1, 2]
      = some (2, waitingAssignment 0 2 2) := by
    rw [candidateQuery_eq]
    rfl
  have hrule := (claim_follows_rule deskConfig oneAtATime saturatedDb 3).2.2.2 0
    (deskWorker [.scripting]) none none [0, 1, 2] rfl ⟨by decide, by decide⟩ rfl (.refl _)
  exact (hrule.1 2 (waitingAssignment 0 2 2) hquery).2.2

end HumanGate
