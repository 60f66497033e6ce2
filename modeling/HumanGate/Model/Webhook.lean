import HumanGate.Lib.Interleaving
import HumanGate.Model.Billing

set_option autoImplicit false

/-! # Webhook transactions

`process_stripe_event` statement by statement, under READ COMMITTED. A `SELECT` sees what is
committed and the transaction's own writes; a `SELECT … FOR UPDATE` and an `UPDATE` wait for the
lock on the row; an `INSERT` or `UPDATE` of a unique value waits for a transaction that has written
the same value and has not ended. An `IntegrityError` rolls the savepoint back and is answered as a
duplicate; any other error, also one of the database itself, ends the request and rolls the
transaction back.
-/

namespace HumanGate

open Lib.Interleaving

/-- What the request answers. An error without a code is one of the database or the connection. -/
inductive WebhookResult where
  | duplicate
  | processed (ws : Option WorkspaceId)
  | raised (e : Option BillingError)
  deriving DecidableEq

/-- How far a transaction is, by its last statement. -/
inductive WebhookStep where
  | begun
  /-- No receipt was found. -/
  | checked
  /-- The receipt was inserted. -/
  | stored
  /-- No row has the subscription; the customer is looked up next. -/
  | unmapped
  | mapped (ws : WorkspaceId)
  /-- The workspace has no row. -/
  | missing (ws : WorkspaceId)
  | loaded (ws : WorkspaceId) (row : WorkspaceBilling)
  | compared (ws : WorkspaceId) (row : WorkspaceBilling) (latest : Option Int)
  /-- The effect was flushed. -/
  | written (ws : Option WorkspaceId)
  /-- The receipt names the workspace. -/
  | named (ws : Option WorkspaceId)
  | finished (r : WebhookResult)
  deriving DecidableEq

/-- A transaction: the event, what it has written (nobody else sees that before it commits) and the
row it has locked. -/
structure WebhookTxn where
  event : StripeEvent
  receipt : Option BillingWebhookEvent := none
  row : Option (WorkspaceId × WorkspaceBilling) := none
  locked : Option WorkspaceId := none
  step : WebhookStep := .begun
  deriving DecidableEq

def WebhookTxn.eventId (t : WebhookTxn) : String := (t.event.key.map Prod.fst).getD ""

def WebhookTxn.type (t : WebhookTxn) : StripeEventType :=
  (t.event.key.map Prod.snd).getD (.other "")

def WebhookTxn.active (t : WebhookTxn) : Bool :=
  match t.step with
  | .finished _ => false
  | _ => true

/-- The database as the transaction sees it. -/
def WebhookTxn.view (t : WebhookTxn) (s : BillingDb) : BillingDb where
  workspaces := s.workspaces
  billing := match t.row with
    | some (ws, row) => Function.update s.billing ws (some row)
    | none => s.billing
  receipts := s.receipts ++ t.receipt.toList

/-- The savepoint or the transaction is rolled back. -/
def WebhookTxn.rollback (t : WebhookTxn) (r : WebhookResult) : WebhookTxn :=
  { t with receipt := none, row := none, locked := none, step := .finished r }

/-- The rows are read with a lock, but for a checkout. -/
def WebhookTxn.forUpdate (t : WebhookTxn) : Bool := t.type != .checkoutCompleted

/-! ## Writes -/

/-- The row after a checkout. -/
def WorkspaceBilling.link (o : StripeObject) (row : WorkspaceBilling) : WorkspaceBilling :=
  { row with
    stripeCustomerId := o.customerId.or row.stripeCustomerId
    stripeSubscriptionId := o.subscription.or row.stripeSubscriptionId }

/-- The `UPDATE` of a checkout sets the columns that differ from the row that was read. -/
def WorkspaceBilling.relink (o : StripeObject) (read row : WorkspaceBilling) : WorkspaceBilling :=
  { row with
    stripeCustomerId :=
      if (read.link o).stripeCustomerId = read.stripeCustomerId then row.stripeCustomerId
      else (read.link o).stripeCustomerId
    stripeSubscriptionId :=
      if (read.link o).stripeSubscriptionId = read.stripeSubscriptionId then
        row.stripeSubscriptionId
      else (read.link o).stripeSubscriptionId }

/-- The `UPDATE` of the billing row that is the next statement, if it is one. -/
def WebhookTxn.update (t : WebhookTxn) (s : BillingDb) : Option (WorkspaceId × WorkspaceBilling) :=
  match t.step with
  | .loaded ws row =>
      if t.type = .checkoutCompleted ∧ row.link t.event.object ≠ row then
        some (ws, row.relink t.event.object (((t.view s).billing ws).getD row))
      else none
  | .compared ws row latest =>
      if t.type = .paymentFailed then
        if isOlder t.event.created latest then none
        else some (ws, { row with status := "past_due" })
      else if isStale t.event.created latest t.event.object.statusText then none
      else some (ws, row.mirror t.event.object)
  | _ => none

/-- Execute the `UPDATE`, if there is one. -/
def WebhookTxn.flush (t : WebhookTxn) (s : BillingDb) (ws : WorkspaceId) : WebhookTxn :=
  match t.update s with
  | none => { t with step := .written (some ws) }
  | some (ws, row) =>
      match (t.view s).writeBilling ws row with
      | .error _ => t.rollback .duplicate
      | .ok _ => { t with row := some (ws, row), step := .written (some ws) }

/-! ## Statements -/

/-- The first `SELECT` for the workspace of the event, if there is one. -/
def WebhookTxn.map (t : WebhookTxn) (s : BillingDb) : WebhookTxn :=
  let o := t.event.object
  let bySubscription := (t.view s).findWorkspace WorkspaceBilling.stripeSubscriptionId
  match t.type with
  | .checkoutCompleted =>
      match o.workspaceId with
      | none => t.rollback (.raised (some .missingWorkspace))
      | some ws => { t with step := .mapped ws }
  | .subscriptionCreated | .subscriptionUpdated | .subscriptionDeleted =>
      match o.workspaceId.or (bySubscription o.id) with
      | none => { t with step := .unmapped }
      | some ws => { t with step := .mapped ws }
  | .paymentFailed =>
      match bySubscription o.subscription with
      | none => { t with step := .written o.workspaceId }
      | some ws => { t with step := .mapped ws }
  | .other _ => { t with step := .written o.workspaceId }

/-- The next statement of a transaction that does not commit. -/
def WebhookTxn.advance (t : WebhookTxn) (s : BillingDb) : WebhookTxn :=
  match t.step with
  | .begun =>
      if t.event.key = none then t.rollback (.raised (some .invalidEvent))
      else if s.received t.eventId then t.rollback .duplicate
      else { t with step := .checked }
  | .checked =>
      if s.received t.eventId then t.rollback .duplicate
      else
        match s.insertReceipt (t.event.receipt t.eventId t.type) with
        | .error _ => t.rollback .duplicate
        | .ok _ => { t with receipt := some (t.event.receipt t.eventId t.type), step := .stored }
  | .stored => t.map s
  | .unmapped =>
      match (t.view s).findWorkspace WorkspaceBilling.stripeCustomerId
        t.event.object.customerId with
      | none => t.rollback (.raised (some .unknownSubscription))
      | some ws => { t with step := .mapped ws }
  | .mapped ws =>
      match s.billing ws with
      | some row =>
          { t with locked := if t.forUpdate then some ws else none, step := .loaded ws row }
      | none => { t with step := .missing ws }
  | .missing ws =>
      if (s.billing ws).isSome || !s.workspaces.contains ws then t.rollback .duplicate
      else { t with row := some (ws, {}), step := .loaded ws {} }
  | .loaded ws row =>
      if t.type = .checkoutCompleted then t.flush s ws
      else { t with step := .compared ws row (latestAppliedEventCreated (t.view s) ws t.eventId) }
  | .compared ws _ _ => t.flush s ws
  | .written ws =>
      { t with
        receipt := t.receipt.map fun r => { r with workspaceId := r.workspaceId.or ws }
        step := .named ws }
  | .named _ | .finished _ => t

def WebhookTxn.next (s : BillingDb) (t : WebhookTxn) : Fate → BillingDb × WebhookTxn
  | .abort => if t.active then (s, t.rollback (.raised none)) else (s, t)
  | .go =>
      match t.step with
      | .named ws => (t.view s, { t with locked := none, step := .finished (.processed ws) })
      | _ => (s, t.advance s)

/-! ## Waiting -/

/-- The transaction has not ended, and has locked or written the row. -/
def WebhookTxn.holds (u : WebhookTxn) (ws : WorkspaceId) : Bool :=
  u.locked == some ws || u.row.any fun p => p.1 == ws

/-- The next statement of `t` waits for `u`. -/
def WebhookTxn.waitsFor (s : BillingDb) (t u : WebhookTxn) : Bool :=
  u.active && match t.step with
    | .checked => u.receipt.any fun r => r.stripeEventId == t.eventId
    | .mapped ws => t.forUpdate && (s.billing ws).isSome && u.holds ws
    | .missing ws => u.holds ws
    | _ => (t.update s).any fun p =>
        u.holds p.1 || u.row.any fun q => q.1 != p.1 && p.2.clashes q.2

def webhookReady (s : BillingDb) (ts : List WebhookTxn) (i : Nat) : Fate → Prop
  | .abort => True
  | .go => ∀ t ∈ ts[i]?, ∀ u ∈ ts.eraseIdx i, t.waitsFor s u = false

instance decWebhookReady (s : BillingDb) (ts : List WebhookTxn) (i : Nat) :
    (c : Fate) → Decidable (webhookReady s ts i c)
  | .abort => isTrue trivial
  | .go => inferInstanceAs (Decidable (∀ t ∈ ts[i]?, ∀ u ∈ ts.eraseIdx i, t.waitsFor s u = false))

/-- Any number of webhook requests at once. -/
def webhooks : Program BillingDb WebhookTxn Fate where
  starts _ t := t = { event := t.event }
  ready := webhookReady
  next s _ t c := WebhookTxn.next s t c

instance (s : BillingDb) (t : WebhookTxn) : Decidable (webhooks.starts s t) :=
  inferInstanceAs (Decidable (t = { event := t.event }))

instance (s : BillingDb) (ts : List WebhookTxn) (i : Nat) (c : Fate) :
    Decidable (webhooks.ready s ts i c) :=
  decWebhookReady s ts i c

end HumanGate
