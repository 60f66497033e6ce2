import HumanGate.Lib.Register
import HumanGate.Model.Billing

set_option autoImplicit false

/-! # Webhooks out of order

Stripe delivers events in any order and more than once. What one delivery does: a subscription
event is stored, and applied if it is not too old (`stripeWebhook_subscription`), but one with a
status that the table does not take leaves nothing (`stripeWebhook_refused`); a payment failure is
applied if it is mapped (`stripeWebhook_failure`) and only stored if not (`stripeWebhook_unmapped`).
-/

namespace HumanGate

open Lib

variable {s t : BillingDb} {ws : WorkspaceId} {e : StripeEvent} {eventId : String}
  {type : StripeEventType} {row : WorkspaceBilling}

/-! ## Constraints -/

/-- What the constraints of the tables guarantee: a row is one of a workspace and has one of the
statuses, and no two rows share an id. -/
structure BillingDb.Valid (s : BillingDb) : Prop where
  exists_workspace : ∀ ws row, s.billing ws = some row → ws ∈ s.workspaces
  status : ∀ ws row, s.billing ws = some row → billingStatuses.contains row.status = true
  unique : ∀ ws ws' row row', ws ≠ ws' → s.billing ws = some row → s.billing ws' = some row' →
    row.clashes row' = false

/-- No other workspace has the subscription or the customer of the event. -/
structure BillingDb.Private (s : BillingDb) (ws : WorkspaceId) (o : StripeObject) : Prop where
  subscription : ∀ ws' row, ws' ≠ ws → s.billing ws' = some row → ∀ id, o.id = some id →
    row.stripeSubscriptionId ≠ some id
  customer : ∀ ws' row, ws' ≠ ws → s.billing ws' = some row → ∀ c,
    customerFor o.customer none = some c → row.stripeCustomerId ≠ some c

/-- The row of a workspace, or the one that is inserted for it. -/
def BillingDb.rowOf (s : BillingDb) (ws : WorkspaceId) : WorkspaceBilling := (s.billing ws).getD {}

theorem sameId_iff {a b : Option String} :
    (a.isSome && a == b) = false ↔ ∀ id, a = some id → b ≠ some id := by
  cases a with
  | none => simp
  | some id =>
      rw [Option.isSome_some, Bool.true_and, beq_eq_false_iff_ne]
      constructor
      · intro hne id' hid hb
        exact hne (hid.trans hb.symm)
      · rintro h rfl
        exact h id rfl rfl

theorem clashes_iff {a b : WorkspaceBilling} : a.clashes b = false ↔
    (∀ id, a.stripeSubscriptionId = some id → b.stripeSubscriptionId ≠ some id) ∧
      ∀ c, a.stripeCustomerId = some c → b.stripeCustomerId ≠ some c := by
  unfold WorkspaceBilling.clashes
  rw [Bool.or_eq_false_iff, sameId_iff, sameId_iff]

theorem BillingDb.not_clashes (h : ∀ ws' row', ws' ≠ ws → s.billing ws' = some row' →
    row.clashes row' = false) : s.clashes ws row = false := by
  unfold BillingDb.clashes
  rw [List.any_eq_false]
  intro ws' _ hclash
  rw [Bool.and_eq_true, bne_iff_ne, Option.any_eq_true] at hclash
  obtain ⟨hne, row', hrow', hclash⟩ := hclash
  rw [h ws' row' hne hrow'] at hclash
  cases hclash

theorem BillingDb.Valid.row_unique (hs : s.Valid) {ws' : WorkspaceId} {row' : WorkspaceBilling}
    (hne : ws' ≠ ws) (hrow' : s.billing ws' = some row') : (s.rowOf ws).clashes row' = false := by
  unfold BillingDb.rowOf
  cases hrow : s.billing ws with
  | none => rfl
  | some row => exact hs.unique ws ws' row row' hne.symm hrow hrow'

theorem BillingDb.Valid.row_status (hs : s.Valid) (ws : WorkspaceId) :
    billingStatuses.contains (s.rowOf ws).status = true := by
  unfold BillingDb.rowOf
  cases hrow : s.billing ws with
  | none => rfl
  | some row => exact hs.status ws row hrow

/-- A row may take over the ids of an event that are private to its workspace. -/
theorem BillingDb.Valid.mirror_unique (hs : s.Valid) {o : StripeObject} (ho : s.Private ws o)
    {ws' : WorkspaceId} {row' : WorkspaceBilling} (hne : ws' ≠ ws)
    (hrow' : s.billing ws' = some row') : ((s.rowOf ws).mirror o).clashes row' = false := by
  obtain ⟨hsub, hcust⟩ := clashes_iff.mp (hs.row_unique hne hrow')
  refine clashes_iff.mpr ⟨fun id hid => ?_, fun c hc => ?_⟩
  · unfold WorkspaceBilling.mirror at hid
    simp only at hid
    split at hid
    · rename_i id' hid'
      split at hid
      · exact hsub id hid
      · cases hid
        exact ho.subscription ws' row' hne hrow' _ hid'
    · exact hsub id hid
  · unfold WorkspaceBilling.mirror customerFor at hc
    simp only at hc
    split at hc
    · rename_i c' hc'
      cases hc
      exact ho.customer ws' row' hne hrow' _ (by rw [hc']; rfl)
    · rename_i c' hc'
      split at hc
      · exact hcust c hc
      · rename_i hne'
        cases hc
        refine ho.customer ws' row' hne hrow' _ ?_
        rw [hc']
        simp [customerFor, hne']
    · exact hcust c hc
    · exact hcust c hc

/-- The new row of a workspace keeps the constraints. -/
theorem BillingDb.Valid.setBilling (hs : s.Valid) (hws : ws ∈ s.workspaces)
    (hstatus : billingStatuses.contains row.status = true)
    (hfree : ∀ ws' row', ws' ≠ ws → s.billing ws' = some row' → row.clashes row' = false)
    {receipts : List BillingWebhookEvent} :
    BillingDb.Valid
      { s with
        billing := Function.update s.billing ws (some row)
        receipts := receipts } := by
  have hsymm : ∀ {a b : WorkspaceBilling}, a.clashes b = false → b.clashes a = false := by
    intro a b h
    obtain ⟨hsub, hcust⟩ := clashes_iff.mp h
    exact clashes_iff.mpr ⟨fun id hid hid' => hsub id hid' hid, fun c hc hc' => hcust c hc' hc⟩
  constructor
  · intro ws' row' hrow'
    by_cases h : ws' = ws
    · rw [h]
      exact hws
    · have hold : s.billing ws' = some row' := by
        simpa [h] using hrow'
      exact hs.exists_workspace ws' row' hold
  · intro ws' row' hrow'
    by_cases h : ws' = ws
    · subst h
      simp only [Function.update_self] at hrow'
      cases hrow'
      exact hstatus
    · have hold : s.billing ws' = some row' := by
        simpa [h] using hrow'
      exact hs.status ws' row' hold
  · intro w w' r r' hne hr hr'
    simp only at hr hr'
    by_cases h : w = ws
    · subst h
      rw [Function.update_self] at hr
      rw [Function.update_of_ne hne.symm] at hr'
      cases hr
      exact hfree w' r' hne.symm hr'
    · rw [Function.update_of_ne h] at hr
      by_cases h' : w' = ws
      · subst h'
        rw [Function.update_self] at hr'
        cases hr'
        exact hsymm (hfree w r h hr)
      · rw [Function.update_of_ne h'] at hr'
        exact hs.unique w w' r r' hne hr hr'

/-! ## One delivery -/

theorem stripeWebhook_duplicate (hkey : e.key = some (eventId, type))
    (hreceived : s.received eventId = true) : stripeWebhook s e = s := by
  unfold stripeWebhook processStripeEvent
  rw [hkey]
  simp only [hreceived, if_true]

/-- The receipt of the event itself does not count. -/
theorem latest_own (s : BillingDb) {r : BillingWebhookEvent} (hr : r.stripeEventId = eventId)
    {billing : WorkspaceId → Option WorkspaceBilling} :
    latestAppliedEventCreated { s with billing := billing, receipts := s.receipts ++ [r] }
      ws eventId
      = latestAppliedEventCreated s ws eventId := by
  have hown : r.counts ws eventId = false := by
    simp [BillingWebhookEvent.counts, hr]
  unfold latestAppliedEventCreated
  simp only [List.filter_append, List.filter_cons, hown, List.filter_nil, Bool.false_eq_true,
    if_false, List.append_nil]

theorem received_iff : s.received eventId = true ↔ ∃ r ∈ s.receipts, r.stripeEventId = eventId := by
  unfold BillingDb.received
  simp only [List.any_eq_true, beq_iff_eq]

/-- The workspace is named on the new receipt only. -/
theorem nameReceipt_own (hnew : s.received eventId = false)
    {billing : WorkspaceId → Option WorkspaceBilling} {r : BillingWebhookEvent}
    (hr : r.stripeEventId = eventId) (w : Option WorkspaceId) :
    BillingDb.nameReceipt { s with billing := billing, receipts := s.receipts ++ [r] } eventId w
      = { s with
          billing := billing
          receipts := s.receipts ++ [{ r with workspaceId := r.workspaceId.or w }] } := by
  have hold : (s.receipts.map fun r =>
      if r.stripeEventId = eventId then { r with workspaceId := r.workspaceId.or w } else r)
        = s.receipts := by
    refine (List.map_congr_left fun r hr => ?_).trans (List.map_id _)
    have hne : r.stripeEventId ≠ eventId := by
      intro heq
      rw [received_iff.mpr ⟨r, hr, heq⟩] at hnew
      cases hnew
    rw [if_neg hne]
    rfl
  unfold BillingDb.nameReceipt
  simp only [List.map_append, hold, List.map_cons, List.map_nil, if_pos hr]

/-- `ensure_workspace_billing` for a workspace that is there. -/
theorem ensureWorkspaceBilling_ok (hws : ws ∈ s.workspaces) :
    ensureWorkspaceBilling s ws = .ok (s.setBilling ws (s.rowOf ws), s.rowOf ws) := by
  unfold ensureWorkspaceBilling BillingDb.rowOf
  cases hrow : s.billing ws with
  | some row =>
      have hsame : s.setBilling ws row = s := by
        unfold BillingDb.setBilling
        rw [← hrow, Function.update_eq_self]
      simp only [Option.getD_some, hsame]
  | none => simp [hws]

theorem writeBilling_ok (hstatus : billingStatuses.contains row.status = true)
    (h : ∀ ws' row', ws' ≠ ws → s.billing ws' = some row' → row.clashes row' = false) :
    s.writeBilling ws row = .ok { s with
      billing := Function.update s.billing ws (some row) } := by
  unfold BillingDb.writeBilling
  rw [BillingDb.not_clashes h, hstatus, if_neg (by decide)]
  rfl

/-- The status of the event is one that the table takes. -/
def StripeObject.hasStatus (o : StripeObject) : Bool := billingStatuses.contains o.statusText

/-- The event is too old for the workspace. -/
def BillingDb.outdates (s : BillingDb) (ws : WorkspaceId) (e : StripeEvent) (eventId : String) :
    Bool :=
  isStale e.created (latestAppliedEventCreated s ws eventId) e.object.statusText

/-- The row after a subscription event: as before if the event is stale. -/
def rowAfter (s : BillingDb) (ws : WorkspaceId) (e : StripeEvent) (eventId : String) :
    WorkspaceBilling :=
  if s.outdates ws e eventId then s.rowOf ws else (s.rowOf ws).mirror e.object

/-- `_apply_subscription` after the receipt was inserted. -/
theorem applySubscription_receipt (hs : s.Valid) (hws : ws ∈ s.workspaces)
    (hpriv : s.Private ws e.object) (eventId : String) (type : StripeEventType) :
    applySubscription { s with receipts := s.receipts ++ [e.receipt eventId type] } ws e.object
      eventId e.created
      = if s.outdates ws e eventId || e.object.hasStatus then
          .ok { s with
            billing := Function.update s.billing ws (some (rowAfter s ws e eventId))
            receipts := s.receipts ++ [e.receipt eventId type] }
        else .error .integrity := by
  have hensure : ensureWorkspaceBilling
      { s with receipts := s.receipts ++ [e.receipt eventId type] } ws
        = .ok (BillingDb.setBilling { s with receipts := s.receipts ++ [e.receipt eventId type] } ws
            (s.rowOf ws), s.rowOf ws) := ensureWorkspaceBilling_ok hws
  have hlatest : latestAppliedEventCreated (BillingDb.setBilling
      { s with receipts := s.receipts ++ [e.receipt eventId type] } ws (s.rowOf ws)) ws eventId
        = latestAppliedEventCreated s ws eventId := latest_own s rfl
  unfold applySubscription rowAfter BillingDb.outdates
  simp only [hensure, hlatest]
  by_cases hstale : isStale e.created (latestAppliedEventCreated s ws eventId) e.object.statusText
      = true
  · simp only [hstale, if_true, Bool.true_or]
    rfl
  · simp only [hstale, Bool.false_eq_true, if_false, Bool.false_or]
    by_cases hstatus : e.object.hasStatus = true
    · have hstatus' : billingStatuses.contains ((s.rowOf ws).mirror e.object).status = true :=
        hstatus
      rw [if_pos hstatus, writeBilling_ok hstatus' fun ws' row' hne hrow' => ?_]
      · simp only [BillingDb.setBilling, Function.update_idem]
      · have hold : s.billing ws' = some row' := by
          simpa [BillingDb.setBilling, hne] using hrow'
        exact hs.mirror_unique hpriv hne hold
    · rw [if_neg hstatus]
      have hstatus' : billingStatuses.contains ((s.rowOf ws).mirror e.object).status = false :=
        Bool.eq_false_iff.mpr hstatus
      unfold BillingDb.writeBilling
      rw [hstatus', Bool.not_false, Bool.true_or, if_pos rfl]

/-- The effect of a subscription event that names its workspace. -/
theorem applyEvent_subscription (htype : type.isSubscription = true)
    (hname : e.object.workspaceId = some ws) :
    applyEvent s e eventId type
      = (applySubscription s ws e.object eventId e.created).map fun s => (s, some ws) := by
  cases type with
  | checkoutCompleted | paymentFailed | other => cases htype
  | subscriptionCreated | subscriptionUpdated | subscriptionDeleted =>
      simp only [applyEvent, hname, Option.some_or]

theorem insertReceipt_named (hws : ws ∈ s.workspaces) (hname : e.object.workspaceId = some ws) :
    s.insertReceipt (e.receipt eventId type)
      = .ok { s with receipts := s.receipts ++ [e.receipt eventId type] } := by
  unfold BillingDb.insertReceipt StripeEvent.receipt
  simp [hname, hws]

/-- **A subscription event** that is new, with a status that the table takes or too old. -/
theorem stripeWebhook_subscription (hs : s.Valid) (hws : ws ∈ s.workspaces)
    (hkey : e.key = some (eventId, type)) (htype : type.isSubscription = true)
    (hname : e.object.workspaceId = some ws) (hnew : s.received eventId = false)
    (hpriv : s.Private ws e.object)
    (hok : (s.outdates ws e eventId || e.object.hasStatus) = true) :
    stripeWebhook s e = { s with
      billing := Function.update s.billing ws (some (rowAfter s ws e eventId))
      receipts := s.receipts ++ [e.receipt eventId type] } := by
  have happly := applySubscription_receipt hs hws hpriv eventId type
  rw [if_pos hok] at happly
  unfold stripeWebhook processStripeEvent recordEvent
  simp only [hkey, hnew, Bool.false_eq_true, if_false, insertReceipt_named hws hname,
    applyEvent_subscription htype hname, happly, Except.map]
  rw [nameReceipt_own hnew rfl]
  unfold StripeEvent.receipt
  simp [hname]

/-- **A subscription event that is refused**: it is not too old, and the table does not take its
status. The savepoint is rolled back, and the request answers that the event is a duplicate. -/
theorem stripeWebhook_refused (hs : s.Valid) (hws : ws ∈ s.workspaces)
    (hkey : e.key = some (eventId, type)) (htype : type.isSubscription = true)
    (hname : e.object.workspaceId = some ws) (hnew : s.received eventId = false)
    (hpriv : s.Private ws e.object)
    (hno : (s.outdates ws e eventId || e.object.hasStatus) = false) :
    stripeWebhook s e = s := by
  have happly := applySubscription_receipt hs hws hpriv eventId type
  rw [if_neg (by rw [hno]; decide)] at happly
  unfold stripeWebhook processStripeEvent recordEvent
  simp only [hkey, hnew, Bool.false_eq_true, if_false, insertReceipt_named hws hname,
    applyEvent_subscription htype hname, happly, Except.map]

/-- The row after a payment failure. -/
def rowFailed (s : BillingDb) (ws : WorkspaceId) (e : StripeEvent) (eventId : String) :
    WorkspaceBilling :=
  if isOlder e.created (latestAppliedEventCreated s ws eventId) then s.rowOf ws
  else { s.rowOf ws with status := "past_due" }

/-- **A payment failure** that is new and mapped to a workspace. -/
theorem stripeWebhook_failure (hs : s.Valid) (hkey : e.key = some (eventId, .paymentFailed))
    (hname : e.object.workspaceId = none) (hnew : s.received eventId = false)
    (hfound : s.findWorkspace WorkspaceBilling.stripeSubscriptionId e.object.subscription = some ws)
    (hws : ws ∈ s.workspaces) :
    stripeWebhook s e = { s with
      billing := Function.update s.billing ws (some (rowFailed s ws e eventId))
      receipts := s.receipts ++ [⟨eventId, .paymentFailed, some ws, e⟩] } := by
  have hinsert : s.insertReceipt (e.receipt eventId .paymentFailed)
      = .ok { s with receipts := s.receipts ++ [e.receipt eventId .paymentFailed] } := by
    unfold BillingDb.insertReceipt StripeEvent.receipt
    simp [hname]
  have hpayment : failPayment
      { s with receipts := s.receipts ++ [e.receipt eventId .paymentFailed] } ws eventId e.created
        = .ok { s with
          billing := Function.update s.billing ws (some (rowFailed s ws e eventId))
          receipts := s.receipts ++ [e.receipt eventId .paymentFailed] } := by
    have hensure : ensureWorkspaceBilling
        { s with receipts := s.receipts ++ [e.receipt eventId .paymentFailed] } ws
          = .ok (BillingDb.setBilling
            { s with receipts := s.receipts ++ [e.receipt eventId .paymentFailed] } ws (s.rowOf ws),
              s.rowOf ws) := ensureWorkspaceBilling_ok hws
    have hlatest : latestAppliedEventCreated (BillingDb.setBilling
        { s with receipts := s.receipts ++ [e.receipt eventId .paymentFailed] } ws (s.rowOf ws)) ws
          eventId = latestAppliedEventCreated s ws eventId := latest_own s rfl
    unfold failPayment rowFailed
    simp only [hensure, hlatest]
    split
    · rfl
    · rw [writeBilling_ok (by rfl) fun ws' row' hne hrow' => ?_]
      · simp only [BillingDb.setBilling, Function.update_idem]
      · have hold : s.billing ws' = some row' := by
          simpa [BillingDb.setBilling, hne] using hrow'
        exact hs.row_unique hne hold
  have hfound' : BillingDb.findWorkspace
      { s with receipts := s.receipts ++ [e.receipt eventId .paymentFailed] }
      WorkspaceBilling.stripeSubscriptionId e.object.subscription = some ws := hfound
  unfold stripeWebhook processStripeEvent recordEvent applyEvent
  simp only [hkey, hnew, Bool.false_eq_true, if_false, hinsert, hfound', hpayment, Except.map]
  rw [nameReceipt_own hnew rfl]
  unfold StripeEvent.receipt
  simp [hname]

/-- A payment failure that nobody is known for: only the receipt. -/
theorem stripeWebhook_unmapped (hkey : e.key = some (eventId, .paymentFailed))
    (hname : e.object.workspaceId = none) (hnew : s.received eventId = false)
    (hfound : s.findWorkspace WorkspaceBilling.stripeSubscriptionId e.object.subscription = none) :
    stripeWebhook s e = { s with
      receipts := s.receipts ++ [⟨eventId, .paymentFailed, none, e⟩] } := by
  have hinsert : s.insertReceipt (e.receipt eventId .paymentFailed)
      = .ok { s with receipts := s.receipts ++ [e.receipt eventId .paymentFailed] } := by
    unfold BillingDb.insertReceipt StripeEvent.receipt
    simp [hname]
  have hfound' : BillingDb.findWorkspace
      { s with receipts := s.receipts ++ [e.receipt eventId .paymentFailed] }
      WorkspaceBilling.stripeSubscriptionId e.object.subscription = none := hfound
  unfold stripeWebhook processStripeEvent recordEvent applyEvent
  simp only [hkey, hnew, Bool.false_eq_true, if_false, hinsert, hfound', hname]
  rw [nameReceipt_own hnew rfl]
  unfold StripeEvent.receipt
  simp [hname]

end HumanGate
