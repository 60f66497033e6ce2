import HumanGate.Model.Data

set_option autoImplicit false

/-! # Billing

`app/services/billing.py`: Stripe events are mirrored into `workspace_billing`, which decides
whether a workspace is entitled. Every event leaves a receipt, and its effect depends on the
receipts that are there.

An event is what the code reads of it. A text that Python takes for false is `none` where the
code makes no difference between the two.
-/

namespace HumanGate

/-! ## Events -/

/-- What the code does with an event, by its type. -/
inductive StripeEventType where
  | checkoutCompleted
  | subscriptionCreated
  | subscriptionUpdated
  | subscriptionDeleted
  | paymentFailed
  | other (text : String)
  deriving DecidableEq

def StripeEventType.isSubscription : StripeEventType → Bool
  | .subscriptionCreated | .subscriptionUpdated | .subscriptionDeleted => true
  | _ => false

/-- The types that `_latest_applied_event_created` selects. -/
def StripeEventType.affectsEntitlement : StripeEventType → Bool
  | .paymentFailed => true
  | type => type.isSubscription

/-- A text for a workspace id: one that `uuid.UUID` reads, or another. -/
inductive WorkspaceRef where
  | id (ws : WorkspaceId)
  | malformed
  deriving DecidableEq

/-- A customer, by its id or expanded. -/
inductive CustomerRef where
  | id (customer : String)
  | expanded (customer : Option String)
  deriving DecidableEq

/-- `event["data"]["object"]`: a subscription, an invoice or a checkout session. -/
structure StripeObject where
  id : Option String := none
  status : Option String := none
  customer : Option CustomerRef := none
  subscription : Option String := none
  currentPeriodEnd : Option Int := none
  cancelAtPeriodEnd : Bool := false
  metadataWorkspaceId : Option WorkspaceRef := none
  clientReferenceId : Option WorkspaceRef := none
  deriving DecidableEq

/-- A verified event. `created` is there if it is an integer. -/
structure StripeEvent where
  id : Option String
  type : Option StripeEventType
  created : Option Int := none
  object : StripeObject := {}
  deriving DecidableEq

/-- `_workspace_id_from_metadata`. -/
def StripeObject.workspaceId (o : StripeObject) : Option WorkspaceId :=
  match o.metadataWorkspaceId.or o.clientReferenceId with
  | some (.id ws) => some ws
  | some .malformed | none => none

/-- `value or default`, for a text. -/
def orText (value : Option String) (default : String) : String :=
  match value with
  | some text => if text = "" then default else text
  | none => default

/-- `str(subscription.get("status") or "inactive")`. -/
def StripeObject.statusText (o : StripeObject) : String := orText o.status "inactive"

/-! ## Tables -/

structure WorkspaceBilling where
  stripeCustomerId : Option String := none
  stripeSubscriptionId : Option String := none
  plan : String := "none"
  status : String := "inactive"
  currentPeriodEnd : Option Int := none
  cancelAtPeriodEnd : Bool := false
  deriving DecidableEq

/-- A receipt. -/
structure BillingWebhookEvent where
  stripeEventId : String
  eventType : StripeEventType
  workspaceId : Option WorkspaceId
  payload : StripeEvent
  deriving DecidableEq

/-- The workspaces, their billing rows, by the primary key, and the receipts. -/
structure BillingDb where
  workspaces : List WorkspaceId
  billing : WorkspaceId → Option WorkspaceBilling
  receipts : List BillingWebhookEvent

def activeStatuses : List String := ["active", "trialing"]

def proPlan : String := "pro"

/-- `status in ACTIVE_STATUSES`. -/
def isActive (status : String) : Bool := activeStatuses.contains status

def isEntitled (row : Option WorkspaceBilling) (billingEnabled : Bool) : Bool :=
  if !billingEnabled then true
  else
    match row with
    | none => false
    | some row => row.plan == proPlan && isActive row.status

/-! ## Errors -/

structure BillingError where
  code : String
  message : String
  deriving DecidableEq

def BillingError.invalidEvent : BillingError :=
  ⟨"invalid_event", "Stripe event missing id or type"⟩

def BillingError.missingWorkspace : BillingError :=
  ⟨"missing_workspace", "checkout session missing workspace_id"⟩

def BillingError.unknownSubscription : BillingError :=
  ⟨"unknown_subscription", "subscription event could not be mapped to a workspace"⟩

/-- What ends the savepoint: an error of the service, or a constraint of the database. -/
inductive BillingFailure where
  | billing (e : BillingError)
  | integrity
  deriving DecidableEq

/-! ## Constraints -/

/-- Two rows of different workspaces have the same id in a unique column. -/
def WorkspaceBilling.clashes (a b : WorkspaceBilling) : Bool :=
  (a.stripeSubscriptionId.isSome && a.stripeSubscriptionId == b.stripeSubscriptionId)
    || (a.stripeCustomerId.isSome && a.stripeCustomerId == b.stripeCustomerId)

/-- The row may not be written for the workspace: another workspace has one of its ids. -/
def BillingDb.clashes (s : BillingDb) (ws : WorkspaceId) (row : WorkspaceBilling) : Bool :=
  s.workspaces.any fun ws' => ws' != ws && (s.billing ws').any row.clashes

def BillingDb.setBilling (s : BillingDb) (ws : WorkspaceId) (row : WorkspaceBilling) : BillingDb :=
  { s with billing := Function.update s.billing ws (some row) }

/-- `workspace_billing_status_chk`: the statuses that the table takes. -/
def billingStatuses : List String :=
  ["inactive", "incomplete", "trialing", "active", "past_due", "canceled", "unpaid"]

/-- Write the row and flush. -/
def BillingDb.writeBilling (s : BillingDb) (ws : WorkspaceId) (row : WorkspaceBilling) :
    Except BillingFailure BillingDb :=
  if !billingStatuses.contains row.status || s.clashes ws row then .error .integrity
  else .ok (s.setBilling ws row)

/-- Insert the receipt and flush. The workspace must be there; the id is known to be new. -/
def BillingDb.insertReceipt (s : BillingDb) (r : BillingWebhookEvent) :
    Except BillingFailure BillingDb :=
  if r.workspaceId.any fun ws => !s.workspaces.contains ws then .error .integrity
  else .ok { s with receipts := s.receipts ++ [r] }

/-! ## Subscriptions -/

/-- `ensure_workspace_billing`: the row, and the tables with it. -/
def ensureWorkspaceBilling (s : BillingDb) (ws : WorkspaceId) :
    Except BillingFailure (BillingDb × WorkspaceBilling) :=
  match s.billing ws with
  | some row => .ok (s, row)
  | none =>
      if s.workspaces.contains ws then .ok (s.setBilling ws {}, {}) else .error .integrity

/-- The receipt counts for the freshness of another event of the workspace. -/
def BillingWebhookEvent.counts (ws : WorkspaceId) (excludeEventId : String)
    (r : BillingWebhookEvent) : Bool :=
  r.workspaceId == some ws && r.stripeEventId != excludeEventId && r.eventType.affectsEntitlement

/-- `_latest_applied_event_created`. -/
def latestAppliedEventCreated (s : BillingDb) (ws : WorkspaceId) (excludeEventId : String) :
    Option Int :=
  ((s.receipts.filter (BillingWebhookEvent.counts ws excludeEventId)).filterMap
    fun r => r.payload.created).max?

/-- The event is strictly older than the newest one. -/
def isOlder (eventCreated latest : Option Int) : Bool :=
  match eventCreated, latest with
  | some created, some latest => decide (created < latest)
  | _, _ => false

/-- The event is too old to be applied: strictly older, or as old and entitling. -/
def isStale (eventCreated latest : Option Int) (status : String) : Bool :=
  isOlder eventCreated latest
    || (eventCreated.isSome && eventCreated == latest && isActive status)

/-- The plan after a status. -/
def planFor (status plan : String) : String :=
  if isActive status then proPlan
  else if status = "canceled" then "none"
  else if status = "past_due" ∨ status = "unpaid" ∨ status = "incomplete" then proPlan
  else plan

/-- The customer id after an event. -/
def customerFor (customer : Option CustomerRef) (old : Option String) : Option String :=
  match customer with
  | some (.id c) => some c
  | some (.expanded (some c)) => if c = "" then old else some c
  | some (.expanded none) | none => old

/-- The row after a subscription event is applied. -/
def WorkspaceBilling.mirror (o : StripeObject) (row : WorkspaceBilling) : WorkspaceBilling where
  stripeCustomerId := customerFor o.customer row.stripeCustomerId
  stripeSubscriptionId := match o.id with
    | some id => if id = "" then row.stripeSubscriptionId else some id
    | none => row.stripeSubscriptionId
  plan := planFor o.statusText row.plan
  status := o.statusText
  currentPeriodEnd := o.currentPeriodEnd
  cancelAtPeriodEnd := o.cancelAtPeriodEnd

/-- `_apply_subscription`. -/
def applySubscription (s : BillingDb) (ws : WorkspaceId) (o : StripeObject) (eventId : String)
    (eventCreated : Option Int) : Except BillingFailure BillingDb :=
  match ensureWorkspaceBilling s ws with
  | .error e => .error e
  | .ok (s, row) =>
      -- ignored, but the receipt stays
      if isStale eventCreated (latestAppliedEventCreated s ws eventId) o.statusText then .ok s
      else s.writeBilling ws (row.mirror o)

/-! ## Events, one at a time -/

/-- The workspace whose row has the id, in the column that `get` reads. -/
def BillingDb.findWorkspace (s : BillingDb) (get : WorkspaceBilling → Option String)
    (id : Option String) : Option WorkspaceId :=
  id.bind fun id => s.workspaces.find? fun ws => (s.billing ws).any fun row => get row == some id

/-- The customer, if it is given by its id. -/
def StripeObject.customerId (o : StripeObject) : Option String :=
  match o.customer with
  | some (.id c) => some c
  | some (.expanded _) | none => none

/-- The workspace of a subscription event that does not name one. -/
def BillingDb.mapSubscription (s : BillingDb) (o : StripeObject) : Option WorkspaceId :=
  (s.findWorkspace WorkspaceBilling.stripeSubscriptionId o.id).or
    (s.findWorkspace WorkspaceBilling.stripeCustomerId o.customerId)

/-- `checkout.session.completed`: linkage only. -/
def linkCheckout (s : BillingDb) (ws : WorkspaceId) (o : StripeObject) :
    Except BillingFailure BillingDb :=
  match ensureWorkspaceBilling s ws with
  | .error e => .error e
  | .ok (s, row) =>
      s.writeBilling ws { row with
        stripeCustomerId := o.customerId.or row.stripeCustomerId
        stripeSubscriptionId := o.subscription.or row.stripeSubscriptionId }

/-- `invoice.payment_failed`, for the workspace it was mapped to. -/
def failPayment (s : BillingDb) (ws : WorkspaceId) (eventId : String) (eventCreated : Option Int) :
    Except BillingFailure BillingDb :=
  match ensureWorkspaceBilling s ws with
  | .error e => .error e
  | .ok (s, row) =>
      if isOlder eventCreated (latestAppliedEventCreated s ws eventId) then .ok s
      else s.writeBilling ws { row with status := "past_due" }

/-- Name the workspace on the receipt, if it has none. -/
def BillingDb.nameReceipt (s : BillingDb) (eventId : String) (ws : Option WorkspaceId) :
    BillingDb :=
  { s with receipts := s.receipts.map fun r =>
      if r.stripeEventId = eventId then { r with workspaceId := r.workspaceId.or ws } else r }

/-- The effect of an event, once its receipt is there: the tables, and the workspace it is
about. -/
def applyEvent (s : BillingDb) (e : StripeEvent) (eventId : String) (type : StripeEventType) :
    Except BillingFailure (BillingDb × Option WorkspaceId) :=
  let named := e.object.workspaceId
  match type with
  | .checkoutCompleted =>
      match named with
      | none => .error (.billing .missingWorkspace)
      | some ws => (linkCheckout s ws e.object).map fun s => (s, some ws)
  | .subscriptionCreated | .subscriptionUpdated | .subscriptionDeleted =>
      match named.or (s.mapSubscription e.object) with
      | none => .error (.billing .unknownSubscription)
      | some ws =>
          (applySubscription s ws e.object eventId e.created).map fun s => (s, some ws)
  | .paymentFailed =>
      match s.findWorkspace WorkspaceBilling.stripeSubscriptionId e.object.subscription with
      -- not linked yet: the receipt is stored with what the object names
      | none => .ok (s, named)
      | some ws => (failPayment s ws eventId e.created).map fun s => (s, some ws)
  | .other _ => .ok (s, named)

/-- The receipt of an event, as it is inserted. -/
def StripeEvent.receipt (e : StripeEvent) (eventId : String) (type : StripeEventType) :
    BillingWebhookEvent :=
  ⟨eventId, type, e.object.workspaceId, e⟩

/-- The savepoint: the receipt, the effect, and the workspace on the receipt. -/
def recordEvent (s : BillingDb) (e : StripeEvent) (eventId : String) (type : StripeEventType) :
    Except BillingFailure (BillingDb × Option WorkspaceId) :=
  match s.insertReceipt (e.receipt eventId type) with
  | .error err => .error err
  -- the receipt is flushed first, so its own event is excluded by its id
  | .ok s =>
      match applyEvent s e eventId type with
      | .error err => .error err
      | .ok (s, ws) => .ok (s.nameReceipt eventId ws, ws)

inductive WebhookStatus where
  | duplicate
  | processed (ws : Option WorkspaceId)
  deriving DecidableEq

/-- The id and the type of an event that has both. -/
def StripeEvent.key (e : StripeEvent) : Option (String × StripeEventType) :=
  match e.id, e.type with
  | some id, some type => if id = "" then none else some (id, type)
  | _, _ => none

def BillingDb.received (s : BillingDb) (eventId : String) : Bool :=
  s.receipts.any fun r => r.stripeEventId == eventId

/-- `process_stripe_event`. -/
def processStripeEvent (s : BillingDb) (e : StripeEvent) :
    Except BillingError (BillingDb × WebhookStatus) :=
  match e.key with
  | none => .error .invalidEvent
  | some (eventId, type) =>
      if s.received eventId then .ok (s, .duplicate)
      else
        match recordEvent s e eventId type with
        | .error (.billing err) => .error err
        -- any constraint violation is taken for a concurrent winner
        | .error .integrity => .ok (s, .duplicate)
        | .ok (s, ws) => .ok (s, .processed ws)

/-- One webhook request: an error rolls the transaction back. -/
def stripeWebhook (s : BillingDb) (e : StripeEvent) : BillingDb :=
  match processStripeEvent s e with
  | .error _ => s
  | .ok (s, _) => s

end HumanGate
