import HumanGate.Dispatch.InFlight
import HumanGate.Model.Desk

set_option autoImplicit false

/-! # Provider budgets

A transaction that has counted under the lock of a budget row has *admitted* one assignment: it
holds the lock until it ends, and what it hands out is the one it admitted. So at most one
transaction is admitted under a budget row, and what is in flight together with what is admitted
stays within the budget.

The assignment that is handed out must be stored under the provider that was counted. A dispatch
that names no provider is not counted at all, and its row is stored under `draft_desk`. That is
how `process_leased_job` dispatches, so a budget for `draft_desk` does not hold
(`jobs_exceed_desk_budget`); `provider_budgets_kept` says what holds.
-/

namespace HumanGate

open Lib Lib.Calendar Relation

variable {cfg : Config} {now : Instant}

/-! ## Admission -/

/-- The budget row under which a transaction is admitted. -/
def HandOutTxn.ticket (cfg : Config) : HandOutTxn → Option (WorkspaceId × String)
  | .claim _ (.admitted _ a) => budgetKey cfg a.workspaceId a.provider
  | .dispatch req (.cleared true) => budgetKey cfg req.args.workspaceId req.args.provider
  | _ => none

/-- The number of transactions admitted under a budget row. -/
def HandOutState.admitted (cfg : Config) (s : HandOutState) (key : WorkspaceId × String) : Nat :=
  s.txns.countP fun t => t.ticket cfg == some key

/-- The number of transactions that have the budget row locked. -/
def HandOutState.lockers (cfg : Config) (s : HandOutState) (key : WorkspaceId × String) : Nat :=
  s.txns.countP fun t => t.holds cfg == some key

theorem budgetKey_eq_some {ws ws' : WorkspaceId} {provider : Option String} {p : String} :
    budgetKey cfg ws' provider = some (ws, p) ↔
      ws' = ws ∧ provider = some p ∧ p ≠ "" ∧ (cfg.providerBudget ws p).isSome = true := by
  unfold budgetKey
  cases provider with
  | none => simp
  | some p' =>
      rw [Option.bind_some]
      split_ifs with hcond
      · constructor
        · intro h
          cases h
        · rintro ⟨rfl, heq, hne, hsome⟩
          cases heq
          rcases hcond with hblank | hnone
          · exact absurd hblank hne
          · simp [Option.isNone_iff_eq_none.mp hnone] at hsome
      · push Not at hcond
        constructor
        · intro h
          cases h
          exact ⟨rfl, rfl, hcond.1, by simpa [Option.isSome_iff_ne_none] using hcond.2⟩
        · rintro ⟨rfl, heq, _, _⟩
          cases heq
          rfl

theorem ticket_holds {t : HandOutTxn} {key : WorkspaceId × String}
    (h : t.ticket cfg = some key) : t.holds cfg = some key := by
  cases t with
  | claim req step => cases step <;> first | exact h | cases h
  | dispatch req step =>
      cases step with
      | cleared ok => cases ok <;> first | exact h | cases h
      | _ => cases h

theorem not_holds_of_begun {t : HandOutTxn} (h : t.isBegun = true) : t.holds cfg = none := by
  cases t with
  | claim req step => cases step <;> first | rfl | cases h
  | dispatch req step => cases step <;> first | rfl | cases h

/-- A lock is taken by the statement that wants it. -/
theorem Advances.holds {s : Db} {t t' : HandOutTxn} (h : Advances cfg s t t')
    {key : WorkspaceId × String} (hkey : t'.holds cfg = some key) :
    t.holds cfg = some key ∨ t.wants cfg s = some key := by
  cases h with
  | passes req aid a hnone => simp [HandOutTxn.holds, hnone] at hkey
  | locks req aid a => exact .inr hkey
  | admits req aid a _ => exact .inl hkey
  | dispatchPasses req hnone => simp [HandOutTxn.holds, hnone] at hkey
  | dispatchLocks req hrefusal =>
      right
      simp only [HandOutTxn.wants, hrefusal]
      exact hkey
  | clears req => exact .inl hkey
  | _ => cases hkey

/-- A transaction is admitted by a count under the lock, which hands nothing out. -/
theorem Advances.ticket {s : Db} {t t' : HandOutTxn} (h : Advances cfg s t t') {ws : WorkspaceId}
    {p : String} (hticket : t'.ticket cfg = some (ws, p)) :
    t.holds cfg = some (ws, p) ∧ t.ticket cfg = none ∧
      hasProviderCapacity cfg s ws (some p) = true ∧
      ∀ now rows, t.handsOut cfg s now rows = none := by
  cases h with
  | passes req aid a hnone => simp [HandOutTxn.ticket, hnone] at hticket
  | admits req aid a hcap =>
      obtain ⟨rfl, hprovider, _, _⟩ := budgetKey_eq_some.mp hticket
      rw [hprovider] at hcap
      exact ⟨hticket, rfl, hcap, fun _ _ => rfl⟩
  | dispatchPasses req hnone => simp [HandOutTxn.ticket, hnone] at hticket
  | clears req =>
      cases hcap : hasProviderCapacity cfg s req.args.workspaceId req.args.provider with
      | false =>
          rw [hcap] at hticket
          cases hticket
      | true =>
          rw [hcap] at hticket
          obtain ⟨rfl, hprovider, _, _⟩ := budgetKey_eq_some.mp hticket
          rw [hprovider] at hcap
          exact ⟨hticket, rfl, hcap, fun _ _ => rfl⟩
  | _ => cases hticket

/-- Only an admitted transaction hands out, but for the dispatch that names no provider. -/
theorem handsOut_ticket {s : Db} {rows : List Nat} {t : HandOutTxn} {ws : WorkspaceId} {p : String}
    (h : t.handsOut cfg s now rows = some (ws, some p)) (hp : p ≠ "")
    (hbudget : (cfg.providerBudget ws p).isSome = true) :
    t.ticket cfg = some (ws, p) ∨ ∃ req, t = .dispatch req (.cleared true) ∧
      (req.args.provider = none ∨ req.args.provider = some "") ∧
      req.assigns cfg s now rows = true ∧ req.args.workspaceId = ws ∧ p = "draft_desk" := by
  unfold HandOutTxn.handsOut at h
  split at h
  · rename_i req aid a
    split at h
    · simp only [Option.some.injEq, Prod.mk.injEq] at h
      exact .inl (budgetKey_eq_some.mpr ⟨h.1, h.2, hp, hbudget⟩)
    · cases h
  · rename_i req
    split at h
    · rename_i hassigns
      simp only [Option.some.injEq, Prod.mk.injEq] at h
      cases hprovider : req.args.provider with
      | none =>
          rw [hprovider] at h
          exact .inr ⟨req, rfl, .inl hprovider, hassigns, h.1, h.2.symm⟩
      | some p' =>
          rw [hprovider] at h
          by_cases hblank : p' = ""
          · subst hblank
            exact .inr ⟨req, rfl, .inr hprovider, hassigns, h.1, h.2.symm⟩
          · have heff : effectiveProvider (some p') = p' := by simp [effectiveProvider, hblank]
            rw [heff] at h
            left
            refine budgetKey_eq_some.mpr ⟨h.1, ?_, hp, hbudget⟩
            rw [hprovider, h.2]
    · cases h
  · cases h

/-! ## The condition -/

/-- A dispatch that names no provider gives its row to a worker only while the budget of
`draft_desk` has room for it, next to what is admitted. -/
def DeskHasRoom (cfg : Config) (s : HandOutState) (o : HandOutOp) : Prop :=
  match o.action with
  | .statement i rows =>
      match s.txns[i]? with
      | some (.dispatch req (.cleared true)) =>
          (req.args.provider = none ∨ req.args.provider = some "") →
          req.assigns cfg s.db o.now rows = true →
          ∀ n ∈ cfg.providerBudget req.args.workspaceId "draft_desk",
            countInflight s.db req.args.workspaceId "draft_desk"
              + s.admitted cfg (req.args.workspaceId, "draft_desk") < n
      | _ => True
  | _ => True

/-! ## The invariant -/

/-- At most one transaction has the budget row locked; what is in flight and what is admitted is
within the budget. -/
structure WithinBudget (cfg : Config) (ws : WorkspaceId) (p : String) (n : Nat)
    (s : HandOutState) : Prop where
  lockers : s.lockers cfg (ws, p) ≤ 1
  bound : countInflight s.db ws p + s.admitted cfg (ws, p) ≤ n

section Key

variable {ws : WorkspaceId} {p : String} {n : Nat}

/-- A transaction that holds the lock and is not admitted is alone. -/
theorem admitted_eq_zero {s : HandOutState} (h : s.lockers cfg (ws, p) ≤ 1) {i : Nat}
    {t : HandOutTxn} (ht : s.txns[i]? = some t) (hholds : t.holds cfg = some (ws, p))
    (hticket : t.ticket cfg = none) : s.admitted cfg (ws, p) = 0 := by
  have hlt : s.admitted cfg (ws, p) < s.lockers cfg (ws, p) := by
    refine Table.countP_lt (fun u hu => ?_) ht ?_ ?_
    · rw [beq_iff_eq] at hu ⊢
      exact ticket_holds hu
    · rw [beq_iff_eq]
      exact hholds
    · rw [hticket]
      rfl
  omega

/-- The lock of the budget row, through a statement. -/
theorem lockers_statement {s : HandOutState} {i : Nat} {t t' : HandOutTxn}
    (hadv : Advances cfg s.db t t') (ht : s.txns[i]? = some t)
    (hwaits : ∀ key ∈ t.wants cfg s.db, ∀ u ∈ s.txns, u.holds cfg ≠ some key)
    (h : s.lockers cfg (ws, p) ≤ 1) :
    (s.txns.modify i fun _ => t').countP (fun u => u.holds cfg == some (ws, p)) ≤ 1 := by
  have hcount := Table.countP_modify (p := fun u : HandOutTxn => u.holds cfg == some (ws, p))
    (f := fun _ => t') ht
  unfold HandOutState.lockers at h
  by_cases hnew : t'.holds cfg = some (ws, p)
  · rcases hadv.holds hnew with hold | hwants
    · simp only [hnew, hold, beq_self_eq_true, if_true] at hcount
      omega
    · have hfree : s.txns.countP (fun u => u.holds cfg == some (ws, p)) = 0 := by
        rw [List.countP_eq_zero]
        intro u hu
        rw [beq_iff_eq]
        exact hwaits _ hwants u hu
      simp only [hnew, beq_self_eq_true, if_true] at hcount
      omega
  · have hfalse : (t'.holds cfg == some (ws, p)) = false := beq_eq_false_iff_ne.mpr hnew
    simp only [hfalse, Bool.false_eq_true, if_false] at hcount
    omega

/-- What a statement adds to the rows in flight under the budget. -/
theorem countInflight_statement {s : HandOutState} (htrack : Tracked s) {i : Nat} {t : HandOutTxn}
    (ht : s.txns[i]? = some t) (now : Instant) (rows : List Nat) (ws : WorkspaceId) (p : String) :
    countInflight (t.next cfg s.db now s.taken rows).1 ws p ≤ countInflight s.db ws p
      + if t.handsOut cfg s.db now rows = some (ws, some p) then 1 else 0 := by
  rw [countInflight_eq_flying, countInflight_eq_flying]
  have hhanded : Handed cfg s.db now rows t (t.next cfg s.db now s.taken rows).1.crew
      (t.next cfg s.db now s.taken rows).2 := next_handed s.db s.taken rows t
  have hle := hhanded.flying_le (htrack t (Table.mem_of_get ht))
    fun ws' provider' => ws' == ws && provider' == some p
  have hiff : ((t.handsOut cfg s.db now rows).any fun q => q.1 == ws && q.2 == some p) = true ↔
      t.handsOut cfg s.db now rows = some (ws, some p) := by
    cases t.handsOut cfg s.db now rows with
    | none => simp
    | some q =>
        obtain ⟨ws', provider'⟩ := q
        simp
  simp only [hiff] at hle
  exact hle

/-- The statement of a transaction keeps the budget. -/
theorem withinBudget_statement (hp : p ≠ "") (hbudget : cfg.providerBudget ws p = some n)
    {s : HandOutState} {i : Nat} {t : HandOutTxn} {rows : List Nat} (htrack : Tracked s)
    (ht : s.txns[i]? = some t)
    (hallowed : handOutAllowed cfg s (.statement i rows))
    (hroom : DeskHasRoom cfg s ⟨now, .statement i rows⟩) (h : WithinBudget cfg ws p n s) :
    WithinBudget cfg ws p n
      { db := (t.next cfg s.db now s.taken rows).1
        txns := s.txns.modify i fun _ => (t.next cfg s.db now s.taken rows).2 } := by
  have hadv : Advances cfg s.db t (t.next cfg s.db now s.taken rows).2 :=
    next_advances s.db s.taken rows t
  have hflight : countInflight (t.next cfg s.db now s.taken rows).1 ws p ≤ _ :=
    countInflight_statement htrack ht now rows ws p
  refine ⟨lockers_statement hadv ht (hallowed t ht) h.lockers, ?_⟩
  have hcount := Table.countP_modify (p := fun u : HandOutTxn => u.ticket cfg == some (ws, p))
    (f := fun _ => (t.next cfg s.db now s.taken rows).2) ht
  have hbound := h.bound
  unfold HandOutState.admitted at hbound ⊢
  by_cases hnew : (t.next cfg s.db now s.taken rows).2.ticket cfg = some (ws, p)
  · -- the transaction counts: nobody else is admitted
    obtain ⟨hholds, hnone, hcap, hquiet⟩ := hadv.ticket hnew
    have hzero := admitted_eq_zero h.lockers ht hholds hnone
    unfold HandOutState.admitted at hzero
    have hlt : countInflight s.db ws p < n := by
      simpa [hasProviderCapacity, hp, hbudget] using hcap
    have hfalse : (t.ticket cfg == some (ws, p)) = false := by
      rw [hnone]
      rfl
    simp only [hnew, hfalse, beq_self_eq_true, if_true, Bool.false_eq_true, if_false] at hcount
    rw [hquiet now rows, if_neg (by simp)] at hflight
    simp only
    omega
  · have hnew' : ((t.next cfg s.db now s.taken rows).2.ticket cfg == some (ws, p)) = false :=
      beq_eq_false_iff_ne.mpr hnew
    simp only [hnew', Bool.false_eq_true, if_false] at hcount
    simp only
    by_cases hhands : t.handsOut cfg s.db now rows = some (ws, some p)
    · rw [if_pos hhands] at hflight
      rcases handsOut_ticket hhands hp (by rw [hbudget]; rfl) with
        hticket | ⟨req, rfl, hblank, hassigns, rfl, rfl⟩
      · -- what is handed out was admitted
        simp only [hticket, beq_self_eq_true, if_true] at hcount
        omega
      · have hfree : countInflight s.db req.args.workspaceId "draft_desk"
            + s.admitted cfg (req.args.workspaceId, "draft_desk") < n := by
          simp only [DeskHasRoom, ht] at hroom
          exact hroom hblank hassigns n hbudget
        unfold HandOutState.admitted at hfree
        omega
    · rw [if_neg hhands] at hflight
      omega

theorem HandOutStep.withinBudget (hp : p ≠ "") (hbudget : cfg.providerBudget ws p = some n)
    {s s' : HandOutState} {o : HandOutOp} (hstep : HandOutStep cfg s o s')
    (hallowed : handOutAllowed cfg s o.action) (hroom : DeskHasRoom cfg s o) (htrack : Tracked s)
    (h : WithinBudget cfg ws p n s) : WithinBudget cfg ws p n s' := by
  cases hstep with
  | begun hbegun =>
      rename_i t
      have hholds : t.holds cfg = none := not_holds_of_begun hbegun
      have hticket : t.ticket cfg = none := by
        cases hkey : t.ticket cfg with
        | none => rfl
        | some key =>
            rw [ticket_holds hkey] at hholds
            cases hholds
      refine ⟨?_, ?_⟩
      · have hlockers := h.lockers
        unfold HandOutState.lockers at hlockers ⊢
        rw [Table.countP_push, hholds]
        exact hlockers
      · have hbound := h.bound
        unfold HandOutState.admitted at hbound ⊢
        rw [Table.countP_push, hticket]
        exact hbound
  | quiet hflying _ =>
      refine ⟨h.lockers, ?_⟩
      have hle := hflying fun ws' provider' => ws' == ws && provider' == some p
      rw [← countInflight_eq_flying, ← countInflight_eq_flying] at hle
      have hbound := h.bound
      unfold HandOutState.admitted at hbound ⊢
      simp only
      omega
  | statement haction ht =>
      obtain ⟨now, action⟩ := o
      cases haction
      exact withinBudget_statement hp hbudget htrack ht hallowed hroom h

end Key

/-! ## The stored provider -/

theorem effectiveProvider_ne_blank (provider : Option String) :
    effectiveProvider provider ≠ "" := by
  unfold effectiveProvider
  split
  · decide
  · split
    · decide
    · assumption

/-- No row is stored under a blank provider. -/
def Stored (c : Crew) : Prop := ∀ a ∈ c.assignments, a.provider ≠ some ""

theorem newAssignment_stored (args : DispatchArgs) (stage : ContentStage)
    (worker : Option WorkerId) : (newAssignment cfg now args stage worker).provider ≠ some "" := by
  intro h
  exact effectiveProvider_ne_blank args.provider (Option.some.inj h)

theorem Moves.stored {kinds : List MoveKind} {c c' : Crew} (h : Moves cfg now kinds c c')
    (hc : Stored c) : Stored c' := by
  refine h.rows (P := fun a => a.provider ≠ some "") ?_ ?_ hc
  · intro k a hnew
    cases hnew with
    | queue args stage heq => exact heq ▸ newAssignment_stored args stage Option.none
    | assign args stage wid heq => exact heq ▸ newAssignment_stored args stage (some wid)
  · intro k _ a a' hrow ha
    rw [(Prod.mk.inj hrow.place).2]
    exact ha

theorem Handed.stored {s : Db} {rows : List Nat} {t t' : HandOutTxn} {c : Crew}
    (h : Handed cfg s now rows t c t') (hs : Stored s.crew) : Stored c := by
  cases h with
  | nothing _ hmoves => exact hmoves.stored hs
  | claimed req aid a _ =>
      unfold Stored Crew.give
      rw [Crew.slot_assignments]
      exact Table.forall_modify hs fun b hb => hs b (Table.mem_of_get hb)
  | assigned req stage wid _ =>
      unfold Stored
      rw [Crew.slot_assignments]
      exact Table.forall_push hs (newAssignment_stored req.args stage (some wid))

theorem stored_of_reachable {s : HandOutState} (h : (handOuts cfg).Reachable s) :
    Stored s.db.crew := by
  refine h.invariant (I := fun s => Stored s.db.crew) ?_ ?_
  · rintro s ⟨hfresh, _⟩ a ha
    have hnone : s.db.assignments = [] := hfresh.assignments
    rw [show s.db.crew.assignments = s.db.assignments from rfl, hnone] at ha
    cases ha
  · intro s o hs ha
    show Stored (handOutExec cfg s o).db.crew
    have hstep := handOutExec_step ha
    generalize handOutExec cfg s o = s' at hstep
    cases hstep with
    | begun _ => exact hs
    | quiet _ hmoves =>
        obtain ⟨kinds, hmoves⟩ := hmoves
        exact hmoves.stored hs
    | statement _ _ =>
        rename_i i rows t _ _
        have hhanded : Handed cfg s.db o.now rows t (t.next cfg s.db o.now s.taken rows).1.crew
            (t.next cfg s.db o.now s.taken rows).2 := next_handed s.db s.taken rows t
        exact hhanded.stored hs

/-! ## Budgets are kept -/

/-- **No provider budget is exceeded**, in every run in which a dispatch without a provider
respects the budget of `draft_desk`. -/
theorem provider_budgets_kept (cfg : Config) (s : HandOutState)
    (h : ((handOuts cfg).restrict (DeskHasRoom cfg)).Reachable s) (ws : WorkspaceId)
    (p : String) (n : Nat) (hbudget : cfg.providerBudget ws p = some n) :
    countInflight s.db ws p ≤ n := by
  by_cases hp : p = ""
  · -- nothing is stored under the blank provider
    subst hp
    have hstored : Stored s.db.crew := stored_of_reachable h.of_restrict
    have hzero : countInflight s.db ws "" = 0 := by
      rw [countInflight_eq_flying]
      refine List.countP_eq_zero.mpr fun a ha hfly => hstored a ha ?_
      simp only [StageAssignment.flies, Bool.and_eq_true, beq_iff_eq] at hfly
      exact hfly.1.2
    omega
  · have hwithin : Tracked s ∧ WithinBudget cfg ws p n s := by
      refine h.invariant (I := fun s => Tracked s ∧ WithinBudget cfg ws p n s) ?_ ?_
      · rintro s ⟨hfresh, htxns⟩
        have hnone : s.db.assignments = [] := hfresh.assignments
        refine ⟨tracked_of_nil htxns, ?_, ?_⟩
        · simp [HandOutState.lockers, htxns]
        · simp [HandOutState.admitted, htxns, countInflight, hnone]
      · rintro s o ⟨htrack, hs⟩ ⟨hallowed, hroom⟩
        have hstep := handOutExec_step hallowed
        exact ⟨hstep.tracked htrack, hstep.withinBudget hp hbudget hallowed hroom htrack hs⟩
    have hbound := hwithin.2.bound
    omega

/-! ## Two drafts under a budget of one -/

instance (cfg : Config) (s : HandOutState) (o : HandOutOp) : Decidable (DeskHasRoom cfg s o) := by
  unfold DeskHasRoom
  split
  · split <;> infer_instance
  · infer_instance

/-- The desk, with a budget for `draft_desk`. -/
def budgetedDesk (n : Nat) : Config :=
  { deskConfig with
    providerBudget := fun ws p => if ws = 0 ∧ p = "draft_desk" then some n else none }

/-- Two runs are started, and their jobs leased and carried out one after the other. -/
def twoJobs : List HandOutOp :=
  [⟨0, .op (.startRun 0 0 0)⟩, ⟨0, .op (.startRun 0 0 0)⟩, ⟨1, .op (.pollAndLease 10 [0, 1])⟩,
   ⟨2, .beginJob 0 0⟩, ⟨2, .statement 0 [0]⟩, ⟨2, .statement 0 [0]⟩, ⟨2, .statement 0 [0]⟩,
   ⟨3, .beginJob 1 0⟩, ⟨3, .statement 1 [0]⟩, ⟨3, .statement 1 [0]⟩, ⟨3, .statement 1 [0]⟩]

/-- Under a budget of two, the two drafts are within it. -/
theorem jobs_within_desk_budget :
    countInflight (twoJobs.foldl (handOutExec (budgetedDesk 2)) ⟨deskDb, []⟩).db 0 "draft_desk"
      = 2 ∧
    countInflight (twoJobs.foldl (handOutExec (budgetedDesk 2)) ⟨deskDb, []⟩).db 0 "draft_desk"
      ≤ 2 := by
  refine ⟨by decide +kernel, provider_budgets_kept (budgetedDesk 2) _ ?_ 0 "draft_desk" 2 rfl⟩
  refine .of_legal twoJobs (.init ⟨deskDb_fresh, rfl⟩) ?_
  decide +kernel

/-- Under a budget of one, both are handed out as well. -/
theorem jobs_exceed_desk_budget :
    ∃ s, (handOuts (budgetedDesk 1)).Reachable s ∧
      (budgetedDesk 1).providerBudget 0 "draft_desk" = some 1 ∧
      countInflight s.db 0 "draft_desk" = 2 := by
  refine ⟨twoJobs.foldl (handOutExec (budgetedDesk 1)) ⟨deskDb, []⟩, ?_, rfl, by decide +kernel⟩
  refine .of_legal twoJobs (.init ⟨deskDb_fresh, rfl⟩) ?_
  decide +kernel

end HumanGate
