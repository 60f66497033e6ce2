import HumanGate.Dispatch.InFlight
import HumanGate.Model.Desk

set_option autoImplicit false

/-! # The workspace concurrency limit

`dispatch_stage` counts what the workspace has in flight before it adds to it, without a lock;
`claim_assignment` does not count. A dispatch that has counted and has not ended has a *place*
in the workspace: it may still hand out. What is in flight and the places together stay within
the limit as long as every place is taken, and every claim granted, while there is one left
(`workspace_limit_kept`). Nothing in the code sees to that (`claims_exceed_workspace_limit`).
-/

namespace HumanGate

open Lib Lib.Calendar Relation

variable {cfg : Config} {now : Instant}

/-! ## Places -/

/-- A dispatch of the workspace that has counted and has not ended. -/
def HandOutTxn.hasPlace (ws : WorkspaceId) : HandOutTxn → Bool
  | .dispatch req .counted | .dispatch req .locked | .dispatch req (.cleared _) =>
      req.args.workspaceId == ws
  | _ => false

def HandOutState.places (s : HandOutState) (ws : WorkspaceId) : Nat :=
  s.txns.countP (HandOutTxn.hasPlace ws)

/-- The workspace of a claim that the next statement grants. -/
def HandOutTxn.grants (cfg : Config) (s : Db) (now : Instant) (rows : List Nat) :
    HandOutTxn → Option WorkspaceId
  | .claim req step =>
      ((HandOutTxn.claim req step).handsOut cfg s now rows).map Prod.fst
  | .dispatch _ _ => none

/-- The workspace of a dispatch that counts next. -/
def HandOutTxn.countsNext : HandOutTxn → Option WorkspaceId
  | .dispatch req .begun => some req.args.workspaceId
  | _ => none

/-- A place is left in the workspace. -/
def HandOutState.PlaceLeft (cfg : Config) (s : HandOutState) (ws : WorkspaceId) : Prop :=
  inFlightCount s.db ws + s.places ws < maxConcurrentAssignments cfg ws

/-- A claim is granted only while a place is left, and a dispatch that counts finds either the
workspace full or a place left. -/
def TakesPlaces (cfg : Config) (s : HandOutState) (o : HandOutOp) : Prop :=
  match o.action with
  | .statement i rows => ∀ t ∈ s.txns[i]?,
      (∀ ws ∈ t.grants cfg s.db o.now rows, s.PlaceLeft cfg ws) ∧
      (∀ ws ∈ t.countsNext, inFlightCount s.db ws < maxConcurrentAssignments cfg ws →
        s.PlaceLeft cfg ws)
  | _ => True

/-- A place is taken by the count. -/
theorem Advances.hasPlace {s : Db} {t t' : HandOutTxn} (h : Advances cfg s t t')
    {ws : WorkspaceId} (hplace : t'.hasPlace ws = true) :
    t.hasPlace ws = true ∨
      (t.countsNext = some ws ∧ inFlightCount s ws < maxConcurrentAssignments cfg ws) := by
  cases h with
  | counts req hroom =>
      have hws : req.args.workspaceId = ws := beq_iff_eq.mp hplace
      subst hws
      exact .inr ⟨rfl, hroom⟩
  | dispatchPasses req _ => exact .inl hplace
  | dispatchLocks req _ => exact .inl hplace
  | clears req => exact .inl hplace
  | _ => cases hplace

/-- What is handed out was claimed, or had a place and gives it up. -/
theorem Handed.grants {s : Db} {rows : List Nat} {t t' : HandOutTxn} {c : Crew}
    (h : Handed cfg s now rows t c t') {ws : WorkspaceId} {provider : Option String}
    (hhands : t.handsOut cfg s now rows = some (ws, provider)) :
    t.grants cfg s now rows = some ws ∨ (t.hasPlace ws = true ∧ t'.hasPlace ws = false) := by
  cases h with
  | nothing hnone _ =>
      rw [hnone] at hhands
      cases hhands
  | claimed req aid a _ =>
      left
      simp only [HandOutTxn.grants]
      rw [hhands]
      rfl
  | assigned req stage wid hreq =>
      rw [hreq] at hhands
      cases hhands
      exact .inr ⟨beq_self_eq_true _, rfl⟩

/-! ## The invariant -/

/-- What is in flight and the places, within the limit. -/
def WithinLimit (cfg : Config) (ws : WorkspaceId) (s : HandOutState) : Prop :=
  inFlightCount s.db ws + s.places ws ≤ maxConcurrentAssignments cfg ws

theorem not_hasPlace_of_begun {t : HandOutTxn} (h : t.isBegun = true) (ws : WorkspaceId) :
    t.hasPlace ws = false := by
  cases t with
  | claim req step => rfl
  | dispatch req step => cases step <;> first | rfl | cases h

/-- What a statement adds to the rows in flight. -/
theorem inFlightCount_statement {s : HandOutState} (htrack : Tracked s) {i : Nat} {t : HandOutTxn}
    (ht : s.txns[i]? = some t) (now : Instant) (rows : List Nat) (ws : WorkspaceId) :
    inFlightCount (t.next cfg s.db now s.taken rows).1 ws ≤ inFlightCount s.db ws
      + if (t.handsOut cfg s.db now rows).map Prod.fst = some ws then 1 else 0 := by
  rw [inFlightCount_eq_flying, inFlightCount_eq_flying]
  have hhanded : Handed cfg s.db now rows t (t.next cfg s.db now s.taken rows).1.crew
      (t.next cfg s.db now s.taken rows).2 := next_handed s.db s.taken rows t
  have hle := hhanded.flying_le (htrack t (Table.mem_of_get ht)) fun ws' _ => ws' == ws
  have hiff : ((t.handsOut cfg s.db now rows).any fun q => q.1 == ws) = true ↔
      (t.handsOut cfg s.db now rows).map Prod.fst = some ws := by
    cases t.handsOut cfg s.db now rows <;> simp
  simp only [hiff] at hle
  exact hle

theorem withinLimit_statement {ws : WorkspaceId} {s : HandOutState} {i : Nat} {t : HandOutTxn}
    {rows : List Nat} (htrack : Tracked s) (ht : s.txns[i]? = some t)
    (hplaces : TakesPlaces cfg s ⟨now, .statement i rows⟩) (h : WithinLimit cfg ws s) :
    WithinLimit cfg ws
      { db := (t.next cfg s.db now s.taken rows).1
        txns := s.txns.modify i fun _ => (t.next cfg s.db now s.taken rows).2 } := by
  have hadv : Advances cfg s.db t (t.next cfg s.db now s.taken rows).2 :=
    next_advances s.db s.taken rows t
  have hhanded : Handed cfg s.db now rows t (t.next cfg s.db now s.taken rows).1.crew
      (t.next cfg s.db now s.taken rows).2 := next_handed s.db s.taken rows t
  have hflight : inFlightCount (t.next cfg s.db now s.taken rows).1 ws ≤ _ :=
    inFlightCount_statement htrack ht now rows ws
  have hcount := Table.countP_modify (p := HandOutTxn.hasPlace ws)
    (f := fun _ => (t.next cfg s.db now s.taken rows).2) ht
  obtain ⟨hgrant, hnext⟩ := hplaces t ht
  unfold WithinLimit HandOutState.places at h ⊢
  simp only
  by_cases hhands : (t.handsOut cfg s.db now rows).map Prod.fst = some ws
  · rw [if_pos hhands] at hflight
    obtain ⟨⟨ws', provider⟩, hout, hws⟩ := Option.map_eq_some_iff.mp hhands
    change ws' = ws at hws
    subst hws
    -- a claim fills a place that is left, a dispatch the one it has found
    rcases hhanded.grants hout with hclaim | ⟨hold, hnew⟩
    · have hleft := hgrant _ hclaim
      unfold HandOutState.PlaceLeft HandOutState.places at hleft
      have hsame : (t.next cfg s.db now s.taken rows).2.hasPlace ws' = false := by
        cases t with
        | claim req step => rfl
        | dispatch req step => cases hclaim
      simp only [hsame, Bool.false_eq_true, if_false] at hcount
      omega
    · simp only [hold, hnew, if_true, Bool.false_eq_true, if_false] at hcount
      omega
  · rw [if_neg hhands] at hflight
    by_cases hnew : (t.next cfg s.db now s.taken rows).2.hasPlace ws = true
    · -- a place that was held, or one that is found now
      rcases hadv.hasPlace hnew with hold | ⟨hcounts, hroom⟩
      · simp only [hold, hnew, if_true] at hcount
        omega
      · have hleft := hnext ws hcounts hroom
        unfold HandOutState.PlaceLeft HandOutState.places at hleft
        simp only [hnew, if_true] at hcount
        omega
    · simp only [hnew, Bool.false_eq_true, if_false] at hcount
      omega

theorem HandOutStep.withinLimit {ws : WorkspaceId} {s s' : HandOutState} {o : HandOutOp}
    (hstep : HandOutStep cfg s o s') (hplaces : TakesPlaces cfg s o) (htrack : Tracked s)
    (h : WithinLimit cfg ws s) : WithinLimit cfg ws s' := by
  cases hstep with
  | begun hbegun =>
      unfold WithinLimit HandOutState.places at h ⊢
      rw [Table.countP_push, not_hasPlace_of_begun hbegun]
      exact h
  | quiet hflying _ =>
      have hle := hflying fun ws' _ => ws' == ws
      rw [← inFlightCount_eq_flying, ← inFlightCount_eq_flying] at hle
      unfold WithinLimit HandOutState.places at h ⊢
      simp only
      omega
  | statement haction ht =>
      obtain ⟨now, action⟩ := o
      cases haction
      exact withinLimit_statement htrack ht hplaces h

/-- **The workspace limit is kept**, in every run whose claims and dispatches take their places
while there are any. -/
theorem workspace_limit_kept (cfg : Config) (s : HandOutState)
    (h : ((handOuts cfg).restrict (TakesPlaces cfg)).Reachable s) (ws : WorkspaceId) :
    inFlightCount s.db ws ≤ maxConcurrentAssignments cfg ws := by
  -- the places that transactions under way have found free count as taken
  have hwithin : Tracked s ∧ WithinLimit cfg ws s := by
    refine h.invariant (I := fun s => Tracked s ∧ WithinLimit cfg ws s) ?_ ?_
    · rintro s ⟨hfresh, htxns⟩
      have hnone : s.db.assignments = [] := hfresh.assignments
      refine ⟨tracked_of_nil htxns, ?_⟩
      simp [WithinLimit, HandOutState.places, htxns, inFlightCount, hnone]
    · rintro s o ⟨htrack, hs⟩ ⟨hallowed, hplaces⟩
      have hstep := handOutExec_step hallowed
      exact ⟨hstep.tracked htrack, hstep.withinLimit hplaces htrack hs⟩
  exact (Nat.le_add_right _ _).trans hwithin.2

/-! ## Two claims under a limit of one -/

instance (cfg : Config) (s : HandOutState) (ws : WorkspaceId) : Decidable (s.PlaceLeft cfg ws) :=
  inferInstanceAs (Decidable (_ < _))

instance (cfg : Config) (s : HandOutState) (o : HandOutOp) : Decidable (TakesPlaces cfg s o) :=
  match o with
  | ⟨now, .statement i rows⟩ => inferInstanceAs (Decidable (∀ t ∈ s.txns[i]?,
      (∀ ws ∈ t.grants cfg s.db now rows, s.PlaceLeft cfg ws) ∧
      (∀ ws ∈ t.countsNext, inFlightCount s.db ws < maxConcurrentAssignments cfg ws →
        s.PlaceLeft cfg ws)))
  | ⟨_, .op _⟩ => isTrue trivial
  | ⟨_, .beginClaim _⟩ => isTrue trivial
  | ⟨_, .beginDispatch _⟩ => isTrue trivial
  | ⟨_, .beginJob _ _⟩ => isTrue trivial

/-- The desk, with a limit on what is in flight. -/
def limitedDesk (n : Nat) : Config :=
  { deskConfig with
    concurrencyLimit := fun ws => if ws = 0 then some { maxConcurrentAssignments := n } else none }

/-- Its worker has to claim: its health is too low for the dispatcher. -/
def claimingDesk : HandOutState where
  db := { deskDb with workers := [{ deskWorker [.scripting] with healthScore := 40 }] }

/-- Two runs are started and their scripts queued; the worker claims one, then the other. -/
def twoClaims : List HandOutOp :=
  [⟨0, .op (.startRun 0 0 0)⟩, ⟨0, .op (.startRun 0 0 0)⟩, ⟨1, .op (.pollAndLease 10 [0, 1])⟩,
   ⟨2, .beginJob 0 0⟩, ⟨2, .statement 0 [0]⟩, ⟨2, .statement 0 [0]⟩, ⟨2, .statement 0 [0]⟩,
   ⟨3, .beginJob 1 0⟩, ⟨3, .statement 1 [0]⟩, ⟨3, .statement 1 [0]⟩, ⟨3, .statement 1 [0]⟩,
   ⟨4, .beginClaim ⟨0, none, none⟩⟩, ⟨4, .statement 2 [0, 1]⟩, ⟨4, .statement 2 [0, 1]⟩,
   ⟨4, .statement 2 [0, 1]⟩, ⟨4, .statement 2 [0, 1]⟩,
   ⟨5, .beginClaim ⟨0, none, none⟩⟩, ⟨5, .statement 3 [0, 1]⟩, ⟨5, .statement 3 [0, 1]⟩,
   ⟨5, .statement 3 [0, 1]⟩, ⟨5, .statement 3 [0, 1]⟩]

theorem claimingDesk_init (n : Nat) : (handOuts (limitedDesk n)).init claimingDesk :=
  ⟨⟨rfl, rfl, rfl, rfl, rfl, rfl, rfl, rfl, rfl⟩, rfl⟩

/-- Under a limit of two, the two claims are within it. -/
theorem claims_within_workspace_limit :
    inFlightCount (twoClaims.foldl (handOutExec (limitedDesk 2)) claimingDesk).db 0 = 2 ∧
    inFlightCount (twoClaims.foldl (handOutExec (limitedDesk 2)) claimingDesk).db 0
      ≤ maxConcurrentAssignments (limitedDesk 2) 0 := by
  refine ⟨by decide +kernel, workspace_limit_kept (limitedDesk 2) _ ?_ 0⟩
  refine .of_legal twoClaims (.init (claimingDesk_init 2)) ?_
  decide +kernel

/-- Under a limit of one, both are granted as well. -/
theorem claims_exceed_workspace_limit :
    ∃ s, (handOuts (limitedDesk 1)).Reachable s ∧ maxConcurrentAssignments (limitedDesk 1) 0 = 1 ∧
      inFlightCount s.db 0 = 2 := by
  refine ⟨twoClaims.foldl (handOutExec (limitedDesk 1)) claimingDesk, ?_, rfl, by decide +kernel⟩
  refine .of_legal twoClaims (.init (claimingDesk_init 1)) ?_
  decide +kernel

end HumanGate
