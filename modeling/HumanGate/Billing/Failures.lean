import Mathlib.Data.List.TakeWhile
import HumanGate.Billing.Entitlement

set_option autoImplicit false

/-! # Payment failures

An `invoice.payment_failed` names a subscription and no workspace. It is mapped by the billing row
that has the subscription, and a failure that comes before any row has it leaves a receipt without
a workspace, which no later event looks at. So it revokes in every order but those in which it
comes before all events of the subscription that are stored (`paymentFailed_revokes_iff`).
-/

namespace HumanGate

open Lib

variable {s s₀ : BillingDb} {ws : WorkspaceId} {e f : StripeEvent} {eventId sub : String}
  {type : StripeEventType} {row : WorkspaceBilling} {ds : List StripeEvent}
  {P : StripeEvent → Prop}

/-- The row of the workspace has the subscription. -/
def BillingDb.Linked (s : BillingDb) (ws : WorkspaceId) (sub : String) : Prop :=
  (s.rowOf ws).stripeSubscriptionId = some sub

instance (s : BillingDb) (ws : WorkspaceId) (sub : String) : Decidable (s.Linked ws sub) :=
  inferInstanceAs (Decidable ((s.rowOf ws).stripeSubscriptionId = some sub))

/-- No other workspace has the subscription. -/
def BillingDb.Owned (s : BillingDb) (ws : WorkspaceId) (sub : String) : Prop :=
  ∀ ws' row, ws' ≠ ws → s.billing ws' = some row → row.stripeSubscriptionId ≠ some sub

/-! ## Mapping -/

theorem findWorkspace_linked (hws : ws ∈ s.workspaces) (howned : s.Owned ws sub)
    (hlinked : s.Linked ws sub) :
    s.findWorkspace WorkspaceBilling.stripeSubscriptionId (some sub) = some ws := by
  have hrow : ((s.billing ws).any fun row => row.stripeSubscriptionId == some sub) = true := by
    unfold BillingDb.Linked BillingDb.rowOf at hlinked
    cases hbilling : s.billing ws with
    | none =>
        rw [hbilling] at hlinked
        cases hlinked
    | some row =>
        rw [hbilling] at hlinked
        exact beq_iff_eq.mpr hlinked
  cases hfind : s.findWorkspace WorkspaceBilling.stripeSubscriptionId (some sub) with
  | none =>
      have hnone := List.find?_eq_none.mp hfind ws hws
      exact absurd hrow hnone
  | some ws' =>
      have hsome := List.find?_some hfind
      obtain ⟨row', hrow', hsub⟩ := Option.any_eq_true _ _ |>.mp hsome
      by_cases hne : ws' = ws
      · rw [hne]
      · exact absurd (beq_iff_eq.mp hsub) (howned ws' row' hne hrow')

theorem findWorkspace_unlinked (howned : s.Owned ws sub) (hlinked : ¬ s.Linked ws sub) :
    s.findWorkspace WorkspaceBilling.stripeSubscriptionId (some sub) = none := by
  refine List.find?_eq_none.mpr fun ws' _ hsome => ?_
  obtain ⟨row', hrow', hsub⟩ := Option.any_eq_true _ _ |>.mp hsome
  by_cases hne : ws' = ws
  · refine hlinked ?_
    unfold BillingDb.Linked BillingDb.rowOf
    rw [← hne, hrow']
    exact beq_iff_eq.mp hsub
  · exact absurd (beq_iff_eq.mp hsub) (howned ws' row' hne hrow')

theorem Heard.owned (h : Heard s₀ ws ds P s) (howned : s₀.Owned ws sub) : s.Owned ws sub :=
  fun ws' row hne hrow => howned ws' row hne ((h.others ws' hne).symm.trans hrow)

/-! ## One delivery -/

/-- A payment failure for the subscription, without a workspace. -/
structure StripeEvent.FailureOf (f : StripeEvent) (sub : String) (created : Int) : Prop where
  key : ∃ eventId, f.key = some (eventId, .paymentFailed)
  unnamed : f.object.workspaceId = none
  subscription : f.object.subscription = some sub
  timed : f.created = some created

theorem StripeEvent.FailureOf.reported {created : Int} (hf : f.FailureOf sub created) :
    f.reported = some (created, false) := by
  obtain ⟨eventId, hkey⟩ := hf.key
  unfold StripeEvent.reported StripeEvent.report
  simp [(StripeEvent.key_eq hkey).2, hf.timed, StripeEventType.isSubscription]

theorem StripeEvent.FailureOf.not_report {created : Int} (hf : f.FailureOf sub created) :
    f.isReport = false := by
  obtain ⟨eventId, hkey⟩ := hf.key
  rw [StripeEvent.isReport_of_key hkey]
  rfl

theorem StripeEvent.FailureOf.storable {created : Int} (hf : f.FailureOf sub created) :
    f.storable = true := by
  unfold StripeEvent.storable
  rw [hf.not_report]
  rfl

/-- **A payment failure** in a run, once the row has the subscription. -/
theorem Heard.failure (h : Heard s₀ ws ds P s) (hws : ws ∈ s₀.workspaces)
    (howned : s₀.Owned ws sub) (hlinked : s.Linked ws sub) {created : Int}
    (hf : f.FailureOf sub created) (hkey : f.key = some (eventId, .paymentFailed))
    (hnew : s.received eventId = false) :
    Heard s₀ ws (ds ++ [f]) (fun d => P d ∨ d = f) (stripeWebhook s f) ∧
      ((stripeWebhook s f).rowOf ws).stripeSubscriptionId = (s.rowOf ws).stripeSubscriptionId := by
  have hws' : ws ∈ s.workspaces := by
    rw [h.workspaces]
    exact hws
  have hfound : s.findWorkspace WorkspaceBilling.stripeSubscriptionId f.object.subscription
      = some ws := by
    rw [hf.subscription]
    exact findWorkspace_linked hws' (h.owned howned) hlinked
  rw [stripeWebhook_failure h.valid hkey hf.unnamed hnew hfound hws']
  constructor
  · refine h.receive (x := (created, false)) hkey rfl rfl ?_ ?_
      (entitled_rowFailed hnew hf.timed h.settled) ?_
    · simp [StripeEvent.report, hf.timed, StripeEventType.isSubscription]
    · intro hno
      rw [hf.storable] at hno
      cases hno
    · refine h.valid.setBilling hws' ?_ fun ws' row' hne hrow' => ?_
      · unfold rowFailed
        split
        · exact h.valid.row_status ws
        · rfl
      · unfold rowFailed
        split
        · exact h.valid.row_unique hne hrow'
        · exact h.valid.row_unique hne hrow'
  · rw [rowOf_update]
    unfold rowFailed
    split
    · rfl
    · rfl

/-- **A payment failure** in a run, before the row has the subscription: nothing but a receipt. -/
theorem Heard.unmapped (h : Heard s₀ ws ds P s) (howned : s₀.Owned ws sub)
    (hlinked : ¬ s.Linked ws sub) {created : Int} (hf : f.FailureOf sub created)
    (hkey : f.key = some (eventId, .paymentFailed)) (hnew : s.received eventId = false) :
    Heard s₀ ws (ds ++ [f]) P (stripeWebhook s f) ∧
      (stripeWebhook s f).billing = s.billing := by
  have hfound : s.findWorkspace WorkspaceBilling.stripeSubscriptionId f.object.subscription
      = none := by
    rw [hf.subscription]
    exact findWorkspace_unlinked (h.owned howned) hlinked
  rw [stripeWebhook_unmapped hkey hf.unnamed hnew hfound]
  have hreports : BillingDb.reports
      { s with receipts := s.receipts ++ [⟨eventId, .paymentFailed, none, f⟩] } ws
        = s.reports ws := by
    refine (reports_append s _).trans ?_
    simp [BillingWebhookEvent.concerns]
  obtain ⟨hreceived, hstored⟩ := h.receipt hkey s.billing
    (r := ⟨eventId, .paymentFailed, none, f⟩) rfl
  refine ⟨{ h with
    valid := ⟨h.valid.exists_workspace, h.valid.status, h.valid.unique⟩
    received := hreceived
    stored := hstored
    among := fun d hd => List.mem_append_left _ (h.among d hd)
    applied := fun d hd hreport hok => ?_
    reports := fun x => ?_
    settled := fun hne => ?_
    quiet := fun hnil => ?_ }, rfl⟩
  · rcases List.mem_append.mp hd with hd | hd
    · exact h.applied d hd hreport hok
    · rw [List.mem_singleton.mp hd, hf.not_report] at hreport
      cases hreport
  · rw [hreports]
    exact h.reports x
  · rw [hreports] at hne
    unfold BillingDb.Settled
    rw [hreports]
    exact h.settled hne
  · rw [hreports] at hnil
    exact h.quiet hnil

/-! ## Every order -/

/-- A workspace that is not entitled and has no receipts yet, the events `E` of its subscription
`sub`, and a payment failure `f` that is at least as new as each of them. -/
structure FailedSubscription (s : BillingDb) (ws : WorkspaceId) (sub : String)
    (E : Finset StripeEvent) (f : StripeEvent) (created : StripeEvent → Int) : Prop where
  valid : s.Valid
  workspace : ws ∈ s.workspaces
  quiet : s.Quiet ws
  before : isEntitled (s.billing ws) true = false
  owned : s.Owned ws sub
  sub_ne : sub ≠ ""
  events : ∀ e ∈ E, e.About s ws (created e) ∧ e.object.id = some sub
  failure : f.FailureOf sub (created f)
  newest : ∀ e ∈ E, created e ≤ created f
  new : ∀ e ∈ insert f E, ∀ id, e.id = some id → s.received id = false
  distinct : ∀ e ∈ insert f E, ∀ e' ∈ insert f E, e.id = e'.id → e = e'

variable {E : Finset StripeEvent} {created : StripeEvent → Int}

theorem FailedSubscription.not_mem (h : FailedSubscription s₀ ws sub E f created) : f ∉ E := by
  intro hf
  have hname := (h.events f hf).1.named
  rw [h.failure.unnamed] at hname
  cases hname

theorem FailedSubscription.key (h : FailedSubscription s₀ ws sub E f created)
    (he : e ∈ insert f E) :
    ∃ eventId type, e.key = some (eventId, type) := by
  rcases Finset.mem_insert.mp he with rfl | hE
  · obtain ⟨eventId, hkey⟩ := h.failure.key
    exact ⟨eventId, _, hkey⟩
  · obtain ⟨eventId, type, hkey, _⟩ := (h.events e hE).1.key
    exact ⟨eventId, type, hkey⟩

/-- The failure is mapped when it is first delivered: the row has the subscription from the
start, or an event with a status that the table takes came before. -/
def Mapped (s₀ : BillingDb) (ws : WorkspaceId) (sub : String) (f : StripeEvent)
    (ds : List StripeEvent) : Prop :=
  s₀.Linked ws sub ∨ ∃ d ∈ ds.takeWhile (· ≠ f), d.object.hasStatus = true

/-- What is delivered after the failure does not matter for it. -/
theorem mapped_append (h : f ∈ ds ∨ e ≠ f) :
    (f ∈ ds ++ [e] ∧ Mapped s₀ ws sub f (ds ++ [e])) ↔ (f ∈ ds ∧ Mapped s₀ ws sub f ds) := by
  by_cases hf : f ∈ ds
  · have hstop : ((ds.takeWhile (· ≠ f)).length = ds.length) = False := by
      refine eq_false fun hlen => ?_
      have hall := List.takeWhile_eq_self_iff.mp
        ((List.takeWhile_prefix (l := ds) (· ≠ f)).eq_of_length hlen)
      simpa using hall f hf
    unfold Mapped
    rw [List.takeWhile_append]
    simp only [hstop, if_false, hf, List.mem_append, true_or, true_and]
  · have hne := h.resolve_left hf
    have hmem : f ∉ ds ++ [e] := by
      simp [hf, Ne.symm hne]
    exact iff_of_false (fun hand => hmem hand.1) fun hand => hf hand.1

/-- The events before the first failure. -/
theorem takeWhile_first (hf : f ∉ ds) : (ds ++ [f]).takeWhile (· ≠ f) = ds := by
  rw [List.takeWhile_append_of_pos fun d hd => ?_]
  · simp
  · exact decide_eq_true fun heq => hf (heq ▸ hd)

/-- What holds after the deliveries `ds` of the events and the failure. -/
structure Followed (s₀ : BillingDb) (ws : WorkspaceId) (sub : String) (f : StripeEvent)
    (ds : List StripeEvent) (P : StripeEvent → Prop) (s : BillingDb) : Prop where
  heard : Heard s₀ ws ds P s
  mapped : P f ↔ f ∈ ds ∧ Mapped s₀ ws sub f ds
  linked : (s₀.Linked ws sub ∨ ∃ d ∈ ds, d ≠ f ∧ d.object.hasStatus = true) → s.Linked ws sub

/-- If there is a report, there is one of an event that is stored. -/
theorem Heard.exists_storable (h : Heard s₀ ws ds P s) (hne : s.reports ws ≠ []) :
    ∃ z, P z ∧ z.storable = true := by
  obtain ⟨x, hx⟩ := List.exists_mem_of_ne_nil _ hne
  obtain ⟨d, hd, hdx⟩ := (h.reports x).mp hx
  by_cases hok : d.storable = true
  · exact ⟨d, hd, hok⟩
  · obtain ⟨z, hz, hzok, _⟩ := h.refused d hd (Bool.eq_false_iff.mpr hok) x hdx
    exact ⟨z, hz, hzok⟩

/-- A report is one of a row with the subscription. -/
theorem Followed.linked_of_reports (h : Followed s₀ ws sub f ds P s)
    (hds : ∀ d ∈ ds, d ≠ f → d.About s₀ ws (created d)) (hne : s.reports ws ≠ []) :
    s.Linked ws sub := by
  obtain ⟨z, hz, hok⟩ := h.heard.exists_storable hne
  by_cases hzf : z = f
  · rw [hzf] at hz
    rcases (h.mapped.mp hz).2 with hbefore | ⟨d, hd, hstatus⟩
    · exact h.linked (Or.inl hbefore)
    · have hdf : d ≠ f := by
        simpa using List.mem_takeWhile_imp hd
      exact h.linked (Or.inr ⟨d, (List.takeWhile_sublist _).mem hd, hdf, hstatus⟩)
  · have hmem := h.heard.among z hz
    rw [(hds z hmem hzf).storable_eq] at hok
    exact h.linked (Or.inr ⟨z, hmem, hzf, hok⟩)

/-- Delivered before. -/
theorem Followed.again (h : Followed s₀ ws sub f ds P s) (hkey : e.key = some (eventId, type))
    (hold : s.received eventId = true) (hmem : e ∈ ds) :
    Followed s₀ ws sub f (ds ++ [e]) P (stripeWebhook s e) := by
  rw [stripeWebhook_duplicate hkey hold]
  refine ⟨h.heard.ignored hkey fun _ => ⟨hold, hmem⟩, ?_, ?_⟩
  · rw [h.mapped, mapped_append]
    by_cases hef : e = f
    · exact Or.inl (hef ▸ hmem)
    · exact Or.inr hef
  · rintro (hbefore | ⟨d, hd, hd'⟩)
    · exact h.linked (Or.inl hbefore)
    · refine h.linked (Or.inr ⟨d, ?_, hd'⟩)
      rcases List.mem_append.mp hd with hd | hd
      · exact hd
      · rwa [List.mem_singleton.mp hd]

/-- An event of the subscription that was not received. -/
theorem Followed.event (h : Followed s₀ ws sub f ds P s)
    (hds : ∀ d ∈ ds, d ≠ f → d.About s₀ ws (created d)) (hws : ws ∈ s₀.workspaces)
    (he : e.About s₀ ws (created e)) (hsub : e.object.id = some sub) (hne : sub ≠ "") (hef : e ≠ f)
    (hkey : e.key = some (eventId, type)) (hnew : s.received eventId = false) :
    ∃ Q, Followed s₀ ws sub f (ds ++ [e]) Q (stripeWebhook s e) := by
  have htype : type.isSubscription = true := by
    rw [← StripeEvent.isReport_of_key hkey, he.isReport]
  have hmapped : P f ∨ f = e ↔ f ∈ ds ++ [e] ∧ Mapped s₀ ws sub f (ds ++ [e]) := by
    rw [mapped_append (Or.inr hef), ← h.mapped]
    exact or_iff_left hef.symm
  rcases h.heard.subscription hws hkey htype he.named he.timed he.ids hnew
    with ⟨hold, hheard, hrow⟩ | ⟨_, _, hheard, hrow⟩ | ⟨_, hno, hheard, hsame⟩
  · refine ⟨_, hheard, hmapped, fun _ => ?_⟩
    -- outdated by a report, so the row has the subscription
    unfold BillingDb.outdates at hold
    rw [latest_eq hnew, he.timed] at hold
    obtain ⟨y, hy, _⟩ := isStale_iff.mp hold
    have hlinked := h.linked_of_reports hds (List.ne_nil_of_mem hy)
    unfold BillingDb.Linked
    rw [hrow]
    exact hlinked
  · refine ⟨_, hheard, hmapped, fun _ => ?_⟩
    unfold BillingDb.Linked
    rw [hrow]
    simp [WorkspaceBilling.mirror, hsub, hne]
  · refine ⟨_, hheard, ?_, ?_⟩
    · rw [mapped_append (Or.inr hef), h.mapped]
    · rw [hsame]
      rintro (hbefore | ⟨d, hd, hdf, hstatus⟩)
      · exact h.linked (Or.inl hbefore)
      · rcases List.mem_append.mp hd with hd | hd
        · exact h.linked (Or.inr ⟨d, hd, hdf, hstatus⟩)
        · rw [List.mem_singleton.mp hd, ← he.storable_eq, hno] at hstatus
          cases hstatus

/-- The failure is delivered for the first time. If the row has the subscription, then from the
start or by an event that came before. -/
theorem Followed.failure (h : Followed s₀ ws sub f ds P s)
    (hds : ∀ d ∈ ds, d ≠ f → d.About s₀ ws (created d)) (hws : ws ∈ s₀.workspaces)
    (howned : s₀.Owned ws sub) (hf : f.FailureOf sub (created f))
    (hkey : f.key = some (eventId, .paymentFailed)) (hnew : s.received eventId = false) :
    ∃ Q, Followed s₀ ws sub f (ds ++ [f]) Q (stripeWebhook s f) := by
  have hfirst : f ∉ ds := by
    intro hmem
    rw [h.heard.stored f hmem hf.storable eventId (StripeEvent.key_eq hkey).1] at hnew
    cases hnew
  have hlast := List.mem_append_right ds (List.mem_singleton_self f)
  have hmapped : Mapped s₀ ws sub f (ds ++ [f])
      ↔ s₀.Linked ws sub ∨ ∃ d ∈ ds, d ≠ f ∧ d.object.hasStatus = true := by
    unfold Mapped
    rw [takeWhile_first hfirst]
    refine or_congr Iff.rfl (exists_congr fun d => and_congr_right fun hd => ?_)
    have hdf : d ≠ f := fun heq => hfirst (heq ▸ hd)
    exact (and_iff_right hdf).symm
  have hkeep : (s₀.Linked ws sub ∨ ∃ d ∈ ds ++ [f], d ≠ f ∧ d.object.hasStatus = true) →
      s.Linked ws sub := by
    rintro (hbefore | ⟨d, hd, hdf, hstatus⟩)
    · exact h.linked (Or.inl hbefore)
    · rcases List.mem_append.mp hd with hd | hd
      · exact h.linked (Or.inr ⟨d, hd, hdf, hstatus⟩)
      · exact absurd (List.mem_singleton.mp hd) hdf
  by_cases hlinked : s.Linked ws sub
  · obtain ⟨hheard, hsame⟩ := h.heard.failure hws howned hlinked hf hkey hnew
    refine ⟨_, hheard, ?_, fun _ => hsame.trans hlinked⟩
    refine iff_of_true (Or.inr rfl) ⟨hlast, hmapped.mpr ?_⟩
    by_contra hnone
    -- nothing was stored, so the row is the one of the start
    have hreports : s.reports ws = [] := by
      by_contra hne
      obtain ⟨z, hz, hok⟩ := h.heard.exists_storable hne
      have hmem := h.heard.among z hz
      have hzf : z ≠ f := fun heq => hfirst (heq ▸ hmem)
      rw [(hds z hmem hzf).storable_eq] at hok
      exact hnone (Or.inr ⟨z, hmem, hzf, hok⟩)
    refine hnone (Or.inl ?_)
    unfold BillingDb.Linked BillingDb.rowOf at hlinked ⊢
    rwa [← h.heard.quiet hreports]
  · obtain ⟨hheard, hsame⟩ := h.heard.unmapped howned hlinked hf hkey hnew
    refine ⟨_, hheard, ?_, fun hpre => absurd (hkeep hpre) hlinked⟩
    refine iff_of_false (fun hPf => hfirst (h.heard.among f hPf)) fun hand => hlinked ?_
    exact h.linked (hmapped.mp hand.2)

theorem followed_run (h : FailedSubscription s₀ ws sub E f created)
    (hds : ∀ d ∈ ds, d ∈ insert f E) :
    ∃ P, Followed s₀ ws sub f ds P (ds.foldl stripeWebhook s₀) := by
  induction ds using List.reverseRecOn with
  | nil =>
      refine ⟨_, Heard.init h.valid h.quiet.reports, by simp, ?_⟩
      rintro (hlinked | ⟨d, hd, _⟩)
      · exact hlinked
      · cases hd
  | append_singleton ds e ih =>
      have hsub : ∀ d ∈ ds, d ∈ insert f E := fun d hd => hds d (List.mem_append_left _ hd)
      obtain ⟨P, hheard⟩ := ih hsub
      have habout : ∀ d ∈ ds, d ≠ f → d.About s₀ ws (created d) := fun d hd hdf =>
        (h.events d (Finset.mem_of_mem_insert_of_ne (hsub d hd) hdf)).1
      have he : e ∈ insert f E := hds e (List.mem_append_right _ (List.mem_singleton_self e))
      obtain ⟨eventId, type, hkey⟩ := h.key he
      rw [List.foldl_concat]
      by_cases hold : (ds.foldl stripeWebhook s₀).received eventId = true
      · refine ⟨P, hheard.again hkey hold (hheard.heard.mem_of_received (h.new e he) ?_ hkey hold)⟩
        intro d hd
        exact h.distinct d (hsub d hd) e he
      · have hnew := Bool.eq_false_iff.mpr hold
        rcases Finset.mem_insert.mp he with rfl | hE
        · have htype : type = .paymentFailed := by
            obtain ⟨_, hkey'⟩ := h.failure.key
            rw [hkey] at hkey'
            cases hkey'
            rfl
          subst htype
          exact hheard.failure habout h.workspace h.owned h.failure hkey hnew
        · obtain ⟨habout', hid⟩ := h.events e hE
          exact hheard.event habout h.workspace habout' hid h.sub_ne
            (fun heq => h.not_mem (heq ▸ hE)) hkey hnew

/-- **Revocation by a failed payment.** After all deliveries, in whatever order, the workspace is
not entitled exactly if the failure was mapped when it came, or the events alone do not entitle
it. -/
theorem paymentFailed_revokes_iff (h : FailedSubscription s ws sub E f created)
    (ds : List StripeEvent) (hds : ∀ e, e ∈ ds ↔ e ∈ insert f E) :
    isEntitled ((ds.foldl stripeWebhook s).billing ws) true = false
      ↔ Mapped s ws sub f ds ∨ ¬ ((taken E).Nonempty ∧ NewestActive (taken E) created) := by
  obtain ⟨P, hrun⟩ := followed_run h fun d hd => (hds d).mp hd
  have hf : f ∈ ds := (hds f).mpr (Finset.mem_insert_self f E)
  rw [← Bool.not_eq_true, hrun.heard.entitled_iff h.before]
  by_cases hmapped : Mapped s ws sub f ds
  · -- the failure is the newest report and says no
    refine iff_of_true (Register.not_holds_no (x := (created f, false)) (fun x hx => ?_) ?_ rfl)
      (Or.inl hmapped)
    · obtain ⟨d, hd, hx⟩ := (hrun.heard.reports x).mp hx
      rcases Finset.mem_insert.mp ((hds d).mp (hrun.heard.among d hd)) with rfl | hE
      · rw [h.failure.reported] at hx
        cases hx
        exact le_refl _
      · rw [(h.events d hE).1.reported] at hx
        cases hx
        exact h.newest d hE
    · exact (hrun.heard.reports _).mpr ⟨f, hrun.mapped.mpr ⟨hf, hmapped⟩, h.failure.reported⟩
  · -- only the events are reports
    rw [hrun.heard.holds_iff (fun e he => (h.events e he).1) (fun d hd => ?_) fun e he => ?_]
    · exact ⟨Or.inr, fun hor => hor.resolve_left hmapped⟩
    · refine Finset.mem_of_mem_insert_of_ne ((hds d).mp (hrun.heard.among d hd)) fun heq => ?_
      rw [heq] at hd
      exact hmapped (hrun.mapped.mp hd).2
    · exact (hds e).mpr (Finset.mem_insert_of_mem he)

/-! ## A failure that comes first -/

/-- A failed payment for a subscription. -/
def paymentFailedEvent (id : String) (created : Int) (sub : String) : StripeEvent where
  id := some id
  type := some .paymentFailed
  created := some created
  object := { subscription := some sub }

theorem oneWorkspaceDb_failedSubscription :
    FailedSubscription oneWorkspaceDb 1 "sub_1"
      {subscriptionEvent "evt_1" .subscriptionCreated 1 "sub_1" "active"}
      (paymentFailedEvent "evt_2" 2 "sub_1") StripeEvent.time where
  valid := oneWorkspaceDb_valid
  workspace := by decide
  quiet := oneWorkspaceDb_quiet
  before := rfl
  owned ws' row hne h := by simp [oneWorkspaceDb, hne] at h
  sub_ne := by decide
  events e he := by
    rw [Finset.mem_singleton] at he
    subst he
    exact ⟨⟨⟨"evt_1", _, rfl, rfl⟩, rfl, rfl, oneWorkspaceDb_private _⟩, rfl⟩
  failure := ⟨⟨"evt_2", rfl⟩, rfl, rfl, rfl⟩
  newest := by decide
  new _ _ _ _ := rfl
  distinct := by decide

/-- The failure is mapped if it comes second. -/
theorem paymentFailed_revokes_second :
    isEntitled ((List.foldl stripeWebhook oneWorkspaceDb
      [subscriptionEvent "evt_1" .subscriptionCreated 1 "sub_1" "active",
        paymentFailedEvent "evt_2" 2 "sub_1"]).billing 1) true = false := by
  refine (paymentFailed_revokes_iff oneWorkspaceDb_failedSubscription _ fun e => ?_).mpr
    (Or.inl (Or.inr (by decide)))
  simp only [List.mem_cons, List.not_mem_nil, or_false, Finset.mem_insert, Finset.mem_singleton]
  exact or_comm

/-- If it comes first, the workspace is entitled in the end. -/
theorem paymentFailed_lost_first :
    FailedSubscription oneWorkspaceDb 1 "sub_1"
      {subscriptionEvent "evt_1" .subscriptionCreated 1 "sub_1" "active"}
      (paymentFailedEvent "evt_2" 2 "sub_1") StripeEvent.time ∧
    isEntitled ((List.foldl stripeWebhook oneWorkspaceDb
      [paymentFailedEvent "evt_2" 2 "sub_1",
        subscriptionEvent "evt_1" .subscriptionCreated 1 "sub_1" "active"]).billing 1) true
          = true :=
  ⟨oneWorkspaceDb_failedSubscription, by decide +kernel⟩

end HumanGate
