import HumanGate.Model.Webhook

set_option autoImplicit false

/-! # Concurrent webhooks

The receipt and the effect of a webhook are committed together, and only if the request answers that
the event was processed; this holds in every interleaving (`webhooks_atomic`). That an event is
answered as a duplicate only if it has a receipt does not: any violated constraint is answered so.
It holds as long as no statement violates another constraint than the one on the ids of the receipts
(`duplicate_received`).
-/

namespace HumanGate

open Lib Lib.Interleaving

variable {s : BillingDb} {t : WebhookTxn}

def WebhookTxn.isProcessed (t : WebhookTxn) : Bool :=
  match t.step with
  | .finished (.processed _) => true
  | _ => false

/-- The receipt was inserted, and the transaction has not ended. -/
def WebhookStep.isOpen : WebhookStep → Bool
  | .begun | .checked | .finished _ => false
  | _ => true

/-- The receipt is there from the moment it is inserted, unless it was rolled back. -/
def WebhookTxn.hasReceipt (t : WebhookTxn) : Bool := t.step.isOpen || t.isProcessed

/-- A transaction has written the receipt of its event, or nothing. -/
def WebhookTxn.WellFormed (t : WebhookTxn) : Prop :=
  if t.hasReceipt then ∃ r, t.receipt = some r ∧ r.stripeEventId = t.eventId ∧ r.payload = t.event
  else t.receipt = none ∧ t.row = none

/-- The next statement violates a constraint other than the one on the ids of the receipts: a
workspace that is not there, a second row for a workspace, a status that the table does not take, or
an id that another workspace has. -/
def WebhookTxn.refused (t : WebhookTxn) (s : BillingDb) : Bool :=
  match t.step with
  | .checked => t.event.object.workspaceId.any fun ws => !s.workspaces.contains ws
  | .missing ws => (s.billing ws).isSome || !s.workspaces.contains ws
  | _ => (t.update s).any fun p =>
      !billingStatuses.contains p.2.status || (t.view s).clashes p.1 p.2

/-! ## One statement -/

/-- The transaction goes on. -/
structure Continues (t t' : WebhookTxn) : Prop where
  event : t'.event = t.event
  active : t'.active = true
  wellFormed : t.WellFormed → t'.WellFormed

/-- What a statement before the commit can do: end with an error, end as a duplicate because of a
constraint, or go on. -/
def Outcome (t : WebhookTxn) (s : BillingDb) (t' : WebhookTxn) : Prop :=
  (∃ e, t' = t.rollback (.raised e)) ∨
    (t' = t.rollback .duplicate ∧ (s.received t.eventId = true ∨ t.refused s = true)) ∨
    Continues t t'

/-- A step that leaves the receipt alone. -/
theorem continues_step {step : WebhookStep} {row : Option (WorkspaceId × WorkspaceBilling)}
    {locked : Option WorkspaceId} (hopen : t.hasReceipt = true) (hstep : step.isOpen = true) :
    Continues t { t with row := row, locked := locked, step := step } := by
  refine ⟨rfl, ?_, fun hwf => ?_⟩
  · cases step with
    | finished r => cases hstep
    | _ => rfl
  · have hopen' : WebhookTxn.hasReceipt { t with row := row, locked := locked, step := step }
        = true := by
      unfold WebhookTxn.hasReceipt
      rw [hstep, Bool.true_or]
    unfold WebhookTxn.WellFormed at hwf ⊢
    rw [if_pos hopen] at hwf
    rw [if_pos hopen']
    exact hwf

theorem hasReceipt_of_open (h : t.step.isOpen = true) : t.hasReceipt = true := by
  unfold WebhookTxn.hasReceipt
  rw [h, Bool.true_or]

theorem flush_outcome (ws : WorkspaceId) (hopen : t.hasReceipt = true)
    (hrefused : t.refused s = (t.update s).any fun p =>
      !billingStatuses.contains p.2.status || (t.view s).clashes p.1 p.2) :
    Outcome t s (t.flush s ws) := by
  unfold WebhookTxn.flush
  cases hupdate : t.update s with
  | none => exact Or.inr (Or.inr (continues_step hopen rfl))
  | some p =>
      obtain ⟨ws', row⟩ := p
      simp only
      cases hwrite : (t.view s).writeBilling ws' row with
      | ok _ => exact Or.inr (Or.inr (continues_step hopen rfl))
      | error e =>
          refine Or.inr (Or.inl ⟨rfl, Or.inr ?_⟩)
          rw [hrefused, hupdate, Option.any_some]
          by_contra hno
          unfold BillingDb.writeBilling at hwrite
          rw [if_neg hno] at hwrite
          cases hwrite

theorem map_outcome (hopen : t.hasReceipt = true) : Outcome t s (t.map s) := by
  have hgo : ∀ {step : WebhookStep}, step.isOpen = true → Outcome t s { t with step := step } :=
    fun hstep => Or.inr (Or.inr (continues_step hopen hstep))
  unfold WebhookTxn.map
  split <;> dsimp only
  · split
    · exact Or.inl ⟨_, rfl⟩
    · exact hgo rfl
  all_goals first | exact hgo rfl | (split <;> exact hgo rfl)

theorem advance_outcome (hactive : t.active = true) (hcommit : ∀ ws, t.step ≠ .named ws) :
    Outcome t s (t.advance s) := by
  have hopen : t.step.isOpen = true → t.hasReceipt = true := hasReceipt_of_open
  unfold WebhookTxn.advance
  cases hstep : t.step with
  | begun =>
      simp only
      split
      · exact Or.inl ⟨_, rfl⟩
      · split
        · rename_i hreceived
          exact Or.inr (Or.inl ⟨rfl, Or.inl hreceived⟩)
        · refine Or.inr (Or.inr ⟨rfl, rfl, fun hwf => ?_⟩)
          simpa [WebhookTxn.WellFormed, WebhookTxn.hasReceipt, WebhookTxn.isProcessed,
            WebhookStep.isOpen, hstep] using hwf
  | checked =>
      simp only
      split
      · rename_i hreceived
        exact Or.inr (Or.inl ⟨rfl, Or.inl hreceived⟩)
      · split
        · rename_i hinsert
          refine Or.inr (Or.inl ⟨rfl, Or.inr ?_⟩)
          unfold WebhookTxn.refused
          rw [hstep]
          -- the insert violates a constraint only if it violates another than the one on the id
          by_contra hno
          unfold BillingDb.insertReceipt StripeEvent.receipt at hinsert
          rw [if_neg hno] at hinsert
          cases hinsert
        · refine Or.inr (Or.inr ⟨rfl, rfl, fun _ => ?_⟩)
          exact ⟨_, rfl, rfl, rfl⟩
  | stored => exact map_outcome (hopen (by rw [hstep]; rfl))
  | unmapped =>
      simp only
      split
      · exact Or.inl ⟨_, rfl⟩
      · exact Or.inr (Or.inr (continues_step (hopen (by rw [hstep]; rfl)) rfl))
  | mapped ws =>
      simp only
      split
      · exact Or.inr (Or.inr (continues_step (hopen (by rw [hstep]; rfl)) rfl))
      · exact Or.inr (Or.inr (continues_step (hopen (by rw [hstep]; rfl)) rfl))
  | missing ws =>
      simp only
      split
      · rename_i hrefused
        refine Or.inr (Or.inl ⟨rfl, Or.inr ?_⟩)
        unfold WebhookTxn.refused
        rw [hstep]
        exact hrefused
      · exact Or.inr (Or.inr (continues_step (hopen (by rw [hstep]; rfl)) rfl))
  | loaded ws row =>
      simp only
      split
      · refine flush_outcome ws (hopen (by rw [hstep]; rfl)) ?_
        unfold WebhookTxn.refused
        rw [hstep]
      · exact Or.inr (Or.inr (continues_step (hopen (by rw [hstep]; rfl)) rfl))
  | compared ws row latest =>
      refine flush_outcome ws (hopen (by rw [hstep]; rfl)) ?_
      unfold WebhookTxn.refused
      rw [hstep]
  -- the receipt is there and gets its workspace
  | written ws =>
      refine Or.inr (Or.inr ⟨rfl, rfl, fun hwf => ?_⟩)
      unfold WebhookTxn.WellFormed at hwf
      rw [if_pos (hopen (by rw [hstep]; rfl))] at hwf
      obtain ⟨r, hr, hid, hpayload⟩ := hwf
      exact ⟨{ r with workspaceId := r.workspaceId.or ws }, by simp [hr], hid, hpayload⟩
  | named ws => exact absurd hstep (hcommit ws)
  | finished r =>
      unfold WebhookTxn.active at hactive
      rw [hstep] at hactive
      cases hactive

theorem next_ended (hended : t.active = false) (c : Fate) : WebhookTxn.next s t c = (s, t) := by
  cases c with
  | abort =>
      unfold WebhookTxn.next
      rw [if_neg (by rw [hended]; decide)]
  | go =>
      unfold WebhookTxn.active at hended
      cases hstep : t.step with
      | finished r =>
          have hadvance : t.advance s = t := by
            unfold WebhookTxn.advance
            rw [hstep]
          simp only [WebhookTxn.next, hstep, hadvance]
      | _ =>
          rw [hstep] at hended
          cases hended

/-- What a statement of a transaction that has not ended can do. -/
theorem next_cases (hactive : t.active = true) (c : Fate) :
    (∃ t', WebhookTxn.next s t c = (s, t') ∧ Outcome t s t') ∨
      ∃ ws, t.step = .named ws ∧ WebhookTxn.next s t c
        = (t.view s, { t with locked := none, step := .finished (.processed ws) }) := by
  cases c with
  | abort =>
      refine Or.inl ⟨t.rollback (.raised none), ?_, Or.inl ⟨none, rfl⟩⟩
      unfold WebhookTxn.next
      rw [if_pos hactive]
  | go =>
      by_cases hcommit : ∃ ws, t.step = .named ws
      · obtain ⟨ws, hstep⟩ := hcommit
        refine Or.inr ⟨ws, hstep, ?_⟩
        simp only [WebhookTxn.next, hstep]
      · have hnot : ∀ ws, t.step ≠ .named ws := fun ws hstep => hcommit ⟨ws, hstep⟩
        refine Or.inl ⟨t.advance s, ?_, advance_outcome hactive hnot⟩
        simp only [WebhookTxn.next]

theorem not_processed_of_active (h : t.active = true) : t.isProcessed = false := by
  unfold WebhookTxn.active at h
  unfold WebhookTxn.isProcessed
  cases hstep : t.step with
  | finished r =>
      rw [hstep] at h
      cases h
  | _ => rfl

theorem Outcome.not_processed {t' : WebhookTxn} (h : Outcome t s t') : t'.isProcessed = false := by
  rcases h with ⟨e, rfl⟩ | ⟨rfl, _⟩ | h
  · rfl
  · rfl
  · exact not_processed_of_active h.active

theorem Outcome.wellFormed {t' : WebhookTxn} (h : Outcome t s t') (hwf : t.WellFormed) :
    t'.WellFormed := by
  rcases h with ⟨e, rfl⟩ | ⟨rfl, _⟩ | h
  · exact ⟨rfl, rfl⟩
  · exact ⟨rfl, rfl⟩
  · exact h.wellFormed hwf

/-- Receipts stay. -/
theorem next_received (c : Fate) {id : String} (h : s.received id = true) :
    (WebhookTxn.next s t c).1.received id = true := by
  by_cases hactive : t.active = true
  · rcases next_cases hactive c with ⟨t', hnext, _⟩ | ⟨ws, _, hnext⟩
    · rw [hnext]
      exact h
    · rw [hnext]
      unfold BillingDb.received WebhookTxn.view at *
      rw [List.any_append, h, Bool.true_or]
  · rw [next_ended (Bool.eq_false_iff.mpr hactive)]
    exact h

/-! ## Interleavings -/

/-- The statement violates no constraint but the one on the ids of the receipts. -/
def Unrefused (s : BillingDb) (ts : List WebhookTxn) (i : Nat) : Fate → Prop
  | .abort => True
  | .go => ∀ t ∈ ts[i]?, t.refused s = false

instance decUnrefused (s : BillingDb) (ts : List WebhookTxn) (i : Nat) :
    (c : Fate) → Decidable (Unrefused s ts i c)
  | .abort => isTrue trivial
  | .go => inferInstanceAs (Decidable (∀ t ∈ ts[i]?, t.refused s = false))

variable {init : BillingDb → Prop} {r r₀ : State BillingDb WebhookTxn}

/-- **Atomic commits.** In every interleaving, what is committed are the receipts and rows of
exactly the requests that answered that the event was processed, one after the other. A request that
answered something else, or has not answered, has committed nothing. -/
theorem webhooks_atomic (h : (webhooks.system init).Steps r₀ r) (hnone : r₀.txns = []) :
    ∃ order : List WebhookTxn, order.Perm (r.txns.filter WebhookTxn.isProcessed) ∧
      r.shared = order.foldl (fun s t => t.view s) r₀.shared := by
  refine Steps.replay hnone (fun s t hstart => ?_) (fun s i t c hopen => ?_)
    (fun s i t c hdone => ?_) h
  · rw [hstart]
    rfl
  · by_cases hactive : t.active = true
    · rcases next_cases (s := s) hactive c with ⟨t', hnext, houtcome⟩ | ⟨ws, _, hnext⟩
      · rw [show webhooks.next s i t c = (s, t') from hnext]
        exact Or.inl ⟨rfl, houtcome.not_processed⟩
      · rw [show webhooks.next s i t c = _ from hnext]
        exact Or.inr ⟨rfl, rfl⟩
    · rw [show webhooks.next s i t c = (s, t) from next_ended (Bool.eq_false_iff.mpr hactive) c]
      exact Or.inl ⟨rfl, hopen⟩
  · refine next_ended ?_ c
    by_contra hactive
    rw [not_processed_of_active (by simpa using hactive)] at hdone
    cases hdone

theorem webhooks_wellFormed (h : (webhooks.system init).Steps r₀ r) (hnone : r₀.txns = []) :
    ∀ t ∈ r.txns, t.WellFormed := by
  intro t ht
  obtain ⟨i, ht⟩ := List.mem_iff_getElem?.mp ht
  refine (Steps.each (I := fun _ => True) (J := fun _ _ t => t.WellFormed) trivial hnone
    (fun s i t _ hstart => ?_) (fun s ts i c t _ hwf ht _ => ⟨trivial, ?_⟩)
    (fun _ _ _ _ _ _ _ _ _ _ _ _ => id) h).2 i t ht
  · rw [hstart]
    exact ⟨rfl, rfl⟩
  · by_cases hactive : t.active = true
    · rcases next_cases (s := s) hactive c with ⟨t', hnext, houtcome⟩ | ⟨ws, hstep, hnext⟩
      · rw [show webhooks.next s i t c = (s, t') from hnext]
        exact houtcome.wellFormed hwf
      · rw [show webhooks.next s i t c = _ from hnext]
        unfold WebhookTxn.WellFormed at hwf
        rw [if_pos (hasReceipt_of_open (by rw [hstep]; rfl))] at hwf
        exact hwf
    · rw [show webhooks.next s i t c = (s, t) from next_ended (Bool.eq_false_iff.mpr hactive) c]
      exact hwf

/-- **Duplicates have receipts**, if no other constraint is violated. -/
theorem duplicate_received (h : ((webhooks.restrict Unrefused).system init).Steps r₀ r)
    (hnone : r₀.txns = []) :
    ∀ t ∈ r.txns, t.step = .finished .duplicate → r.shared.received t.eventId = true := by
  intro t ht
  obtain ⟨i, ht⟩ := List.mem_iff_getElem?.mp ht
  refine (Steps.each (I := fun _ => True)
    (J := fun s _ t => t.step = .finished .duplicate → s.received t.eventId = true) trivial hnone
    (fun s i t _ hstart hstep => ?_)
    (fun s ts i c t _ hbefore ht hready => ⟨trivial, fun hstep => ?_⟩)
    (fun s ts i c t j u _ _ ht _ _ hu hstep => next_received c (hu hstep)) h).2 i t ht
  · rw [hstart] at hstep
    cases hstep
  · by_cases hactive : t.active = true
    · rcases next_cases (s := s) hactive c with ⟨t', hnext, houtcome⟩ | ⟨ws, _, hnext⟩
      · have hnext' : (webhooks.restrict Unrefused).next s i t c = (s, t') := hnext
        rw [hnext'] at hstep ⊢
        rcases houtcome with ⟨e, rfl⟩ | ⟨rfl, hcause⟩ | hgoes
        · cases hstep
        · cases c with
          | abort =>
              -- an abort is no answer
              have hraised : WebhookTxn.next s t .abort = (s, t.rollback (.raised none)) := by
                unfold WebhookTxn.next
                rw [if_pos hactive]
              rw [hraised] at hnext
              have hstep' := congrArg (fun p => p.2.step) hnext
              cases hstep'
          | go =>
              have hunrefused : t.refused s = false := hready.2 t ht
              rw [hunrefused] at hcause
              exact hcause.resolve_right Bool.false_ne_true
        · have hactive' := hgoes.active
          unfold WebhookTxn.active at hactive'
          rw [hstep] at hactive'
          cases hactive'
      · have hnext' : (webhooks.restrict Unrefused).next s i t c = _ := hnext
        rw [hnext'] at hstep
        cases hstep
    · have hnext' : (webhooks.restrict Unrefused).next s i t c = (s, t) :=
        next_ended (Bool.eq_false_iff.mpr hactive) c
      rw [hnext'] at hstep ⊢
      exact hbefore hstep

/-- **Answers of the webhook.** In every interleaving whose statements violate no constraint but the
one on the ids of the receipts: a request answers that the event is a duplicate only if its receipt
is committed; and in any case what is committed are the receipts, with their events, and the rows of
exactly the requests that answered that the event was processed. -/
theorem webhook_answers (h : ((webhooks.restrict Unrefused).system init).Steps r₀ r)
    (hnone : r₀.txns = []) :
    (∀ t ∈ r.txns, t.step = .finished .duplicate → r.shared.received t.eventId = true) ∧
    ∃ order : List WebhookTxn, order.Perm (r.txns.filter WebhookTxn.isProcessed) ∧
      r.shared = order.foldl (fun s t => t.view s) r₀.shared ∧
      ∀ t ∈ order, ∃ receipt, t.receipt = some receipt ∧ receipt.stripeEventId = t.eventId ∧
        receipt.payload = t.event := by
  obtain ⟨order, hperm, hshared⟩ := webhooks_atomic (Steps.of_restrict h) hnone
  refine ⟨duplicate_received h hnone, order, hperm, hshared, fun t ht => ?_⟩
  -- who answers that the event was processed has written its receipt
  obtain ⟨hmem, hprocessed⟩ := List.mem_filter.mp (hperm.mem_iff.mp ht)
  have hwf := webhooks_wellFormed (Steps.of_restrict h) hnone t hmem
  unfold WebhookTxn.WellFormed WebhookTxn.hasReceipt at hwf
  rw [hprocessed, Bool.or_true] at hwf
  exact hwf

/-! ## Two first events -/

/-- A database with one workspace, which has no billing row. -/
def newWorkspaceDb : BillingDb where
  workspaces := [1]
  billing _ := none
  receipts := []

/-- An event of subscription `sub` of workspace 1. -/
def firstEvent (id sub : String) : StripeEvent where
  id := some id
  type := some .subscriptionCreated
  created := some 1
  object := {
    id := some sub
    status := some "active"
    metadataWorkspaceId := some (.id 1) }

/-- Both requests find no row before one of them has inserted it. -/
def firstEventsOps : List (Op WebhookTxn Fate) :=
  [.start { event := firstEvent "evt_1" "sub_1" }, .start { event := firstEvent "evt_2" "sub_1" }]
    ++ List.replicate 4 (.run 0 .go) ++ List.replicate 4 (.run 1 .go)
    ++ List.replicate 5 (.run 0 .go) ++ [.run 1 .go]

/-- The second request answers that the event is a duplicate, and its event is not recorded. -/
theorem webhook_race :
    (webhooks.system fun _ => True).Legal ⟨newWorkspaceDb, []⟩ firstEventsOps ∧
    (firstEventsOps.foldl webhooks.exec ⟨newWorkspaceDb, []⟩).txns.map WebhookTxn.step
      = [.finished (.processed (some 1)), .finished .duplicate] ∧
    (firstEventsOps.foldl webhooks.exec ⟨newWorkspaceDb, []⟩).shared.received "evt_2" = false := by
  decide +kernel

/-- One request after the other: both events are recorded. -/
def sequentialOps : List (Op WebhookTxn Fate) :=
  [.start { event := firstEvent "evt_1" "sub_1" }, .start { event := firstEvent "evt_2" "sub_1" }]
    ++ List.replicate 9 (.run 0 .go) ++ List.replicate 8 (.run 1 .go)

/-- One request after the other, and the first event once more. -/
def repeatedOps : List (Op WebhookTxn Fate) :=
  sequentialOps ++ [.start { event := firstEvent "evt_1" "sub_1" }, .run 2 .go]

theorem repeatedOps_legal : ((webhooks.restrict Unrefused).system fun _ => True).Legal
    ⟨newWorkspaceDb, []⟩ repeatedOps := by
  decide +kernel

/-- The third request answers that the event is a duplicate: it has a receipt. -/
theorem webhook_repeated_received :
    (repeatedOps.foldl webhooks.exec ⟨newWorkspaceDb, []⟩).txns.map WebhookTxn.step
      = [.finished (.processed (some 1)), .finished (.processed (some 1)), .finished .duplicate] ∧
    ∀ t ∈ (repeatedOps.foldl webhooks.exec ⟨newWorkspaceDb, []⟩).txns,
      t.step = .finished .duplicate →
        (repeatedOps.foldl webhooks.exec ⟨newWorkspaceDb, []⟩).shared.received t.eventId
          = true := by
  have hsteps := System.Steps.of_legal repeatedOps repeatedOps_legal
  exact ⟨by decide +kernel, (webhook_answers hsteps rfl).1⟩

end HumanGate
