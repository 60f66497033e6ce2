import HumanGate.Billing.Ordering

set_option autoImplicit false

/-! # Entitlement by the newest reports

The receipts that count for a workspace are timed reports about its subscription
(`BillingDb.reports`), and the workspace is entitled if the newest say so (`BillingDb.Settled`). A
delivery keeps that, in whatever order the events arrive, as long as the event is mapped to the
workspace.
-/

namespace HumanGate

open Lib

variable {s s₀ : BillingDb} {ws : WorkspaceId} {e : StripeEvent} {eventId : String}
  {type : StripeEventType} {row : WorkspaceBilling}

/-! ## Reports -/

/-- The receipt counts for the entitlement of the workspace. -/
def BillingWebhookEvent.concerns (ws : WorkspaceId) (r : BillingWebhookEvent) : Bool :=
  r.workspaceId == some ws && r.eventType.affectsEntitlement

/-- What an event with a time says: whether the workspace is to be entitled from then on. -/
def StripeEvent.report (e : StripeEvent) (type : StripeEventType) : Option (Int × Bool) :=
  e.created.map fun created => (created, type.isSubscription && isActive e.object.statusText)

def BillingDb.reports (s : BillingDb) (ws : WorkspaceId) : List (Int × Bool) :=
  (s.receipts.filter (BillingWebhookEvent.concerns ws)).filterMap fun r =>
    r.payload.report r.eventType

/-- The row agrees with the reports. -/
def BillingDb.Settled (s : BillingDb) (ws : WorkspaceId) : Prop :=
  isEntitled (s.billing ws) true = true ↔ Register.Holds (s.reports ws)

/-- The newest event that counts is the newest report. -/
theorem latest_eq (hnew : s.received eventId = false) :
    latestAppliedEventCreated s ws eventId = ((s.reports ws).map Prod.fst).max? := by
  have hcounts : s.receipts.filter (BillingWebhookEvent.counts ws eventId)
      = s.receipts.filter (BillingWebhookEvent.concerns ws) := by
    refine List.filter_congr fun r hr => ?_
    have hne : r.stripeEventId ≠ eventId := by
      intro heq
      rw [received_iff.mpr ⟨r, hr, heq⟩] at hnew
      cases hnew
    unfold BillingWebhookEvent.counts BillingWebhookEvent.concerns
    rw [bne_iff_ne.mpr hne, Bool.and_true]
  unfold latestAppliedEventCreated BillingDb.reports
  rw [hcounts, List.map_filterMap]
  congr 2
  funext r
  unfold StripeEvent.report
  rw [Option.map_map]
  exact Option.map_id'.symm

/-- Reports are appended with their receipts. -/
theorem reports_append (s : BillingDb) {billing : WorkspaceId → Option WorkspaceBilling}
    (r : BillingWebhookEvent) :
    BillingDb.reports { s with billing := billing, receipts := s.receipts ++ [r] } ws
      = s.reports ws ++
        if r.concerns ws then (r.payload.report r.eventType).toList else [] := by
  unfold BillingDb.reports
  rw [List.filter_append, List.filterMap_append]
  congr 1
  by_cases h : r.concerns ws = true
  · simp only [List.filter_cons, h, if_true, List.filter_nil]
    cases hreport : r.payload.report r.eventType with
    | none => simp [hreport]
    | some x => simp [hreport]
  · simp [h]

theorem isOlder_iff {xs : List (Int × Bool)} {created : Int} :
    isOlder (some created) (xs.map Prod.fst).max? = true ↔ Register.Stale xs (created, false) := by
  unfold Register.Stale
  simp only [Bool.false_eq_true, and_false, or_false]
  cases hmax : (xs.map Prod.fst).max? with
  | none =>
      have hnil : xs = [] := by simpa using hmax
      simp [isOlder, hnil]
  | some latest =>
      obtain ⟨hmem, hle⟩ := List.max?_eq_some_iff.mp hmax
      obtain ⟨y, hy, rfl⟩ := List.mem_map.mp hmem
      simp only [isOlder, decide_eq_true_eq]
      constructor
      · intro hlt
        exact ⟨y, hy, hlt⟩
      · rintro ⟨z, hz, hlt⟩
        exact hlt.trans_le (hle z.1 (List.mem_map_of_mem hz))

theorem isStale_iff {xs : List (Int × Bool)} {created : Int} {status : String} :
    isStale (some created) (xs.map Prod.fst).max? status = true
      ↔ Register.Stale xs (created, isActive status) := by
  unfold isStale
  rw [Bool.or_eq_true, isOlder_iff]
  unfold Register.Stale
  simp only [Option.isSome_some, Bool.true_and, Bool.and_eq_true, beq_iff_eq, Bool.false_eq_true,
    and_false, or_false]
  constructor
  · rintro (⟨y, hy, hlt⟩ | ⟨hmax, hactive⟩)
    · exact ⟨y, hy, Or.inl hlt⟩
    · obtain ⟨hmem, _⟩ := List.max?_eq_some_iff.mp hmax.symm
      obtain ⟨y, hy, heq⟩ := List.mem_map.mp hmem
      exact ⟨y, hy, Or.inr ⟨heq.symm, hactive⟩⟩
  · rintro ⟨y, hy, hlt | ⟨heq, hactive⟩⟩
    · exact Or.inl ⟨y, hy, hlt⟩
    · by_cases hnewer : ∃ z ∈ xs, created < z.1
      · exact Or.inl hnewer
      · refine Or.inr ⟨(List.max?_eq_some_iff.mpr ⟨?_, fun t ht => ?_⟩).symm, hactive⟩
        · exact heq ▸ List.mem_map_of_mem hy
        · obtain ⟨z, hz, rfl⟩ := List.mem_map.mp ht
          exact not_lt.mp fun hlt => hnewer ⟨z, hz, hlt⟩

/-! ## One report -/

/-- An applied subscription event decides alone. -/
theorem isEntitled_mirror (row : WorkspaceBilling) (o : StripeObject) :
    isEntitled (some (row.mirror o)) true = isActive o.statusText := by
  unfold isEntitled WorkspaceBilling.mirror planFor
  by_cases h : isActive o.statusText = true
  · simp [h]
  · simp [h]

theorem isEntitled_rowOf (s : BillingDb) (ws : WorkspaceId) :
    isEntitled (some (s.rowOf ws)) true = isEntitled (s.billing ws) true := by
  unfold BillingDb.rowOf
  cases s.billing ws with
  | none => decide
  | some row => rfl

theorem isEntitled_pastDue (row : WorkspaceBilling) :
    isEntitled (some { row with status := "past_due" }) true = false := by
  have hactive : isActive "past_due" = false := by decide
  simp [isEntitled, hactive]

/-- The entitlement after a subscription event. -/
theorem entitled_rowAfter (hnew : s.received eventId = false) {created : Int}
    (hcreated : e.created = some created) (hv : s.reports ws ≠ [] → s.Settled ws) :
    isEntitled (some (rowAfter s ws e eventId)) true = true
      ↔ Register.Holds (s.reports ws ++ [(created, isActive e.object.statusText)]) := by
  unfold rowAfter BillingDb.outdates
  rw [latest_eq hnew, hcreated]
  refine Register.holds_append (v := isEntitled (s.billing ws) true = true) (fun h => ?_)
    (fun h => ?_) hv
  · rw [if_pos (isStale_iff.mpr h), isEntitled_rowOf]
  · rw [if_neg (mt isStale_iff.mp h), isEntitled_mirror]

/-- The entitlement after a payment failure. -/
theorem entitled_rowFailed (hnew : s.received eventId = false) {created : Int}
    (hcreated : e.created = some created) (hv : s.reports ws ≠ [] → s.Settled ws) :
    isEntitled (some (rowFailed s ws e eventId)) true = true
      ↔ Register.Holds (s.reports ws ++ [(created, false)]) := by
  unfold rowFailed
  rw [latest_eq hnew, hcreated]
  refine Register.holds_append (v := isEntitled (s.billing ws) true = true) (fun h => ?_)
    (fun h => ?_) hv
  · rw [if_pos (isOlder_iff.mpr h), isEntitled_rowOf]
  · rw [if_neg (mt isOlder_iff.mp h), isEntitled_pastDue]

/-! ## Deliveries

`Heard s₀ ws ds P s`: the deliveries `ds` lead from `s₀` to `s`. Those of `P` were mapped to the
workspace and stored, and nothing happened to other workspaces. -/

/-- The event reports the state of a subscription. -/
def StripeEvent.isReport (e : StripeEvent) : Bool := e.type.any StripeEventType.isSubscription

/-- The event may be stored: if it is a report, then with a status that the table takes. -/
def StripeEvent.storable (e : StripeEvent) : Bool := !e.isReport || e.object.hasStatus

/-- What a delivery says, by the type it names. -/
def StripeEvent.reported (e : StripeEvent) : Option (Int × Bool) := e.type.bind e.report

structure Heard (s₀ : BillingDb) (ws : WorkspaceId) (ds : List StripeEvent)
    (P : StripeEvent → Prop) (s : BillingDb) : Prop where
  valid : s.Valid
  workspaces : s.workspaces = s₀.workspaces
  others : ∀ ws', ws' ≠ ws → s.billing ws' = s₀.billing ws'
  received : ∀ id, s.received id = true → s₀.received id = true ∨ ∃ e ∈ ds, e.id = some id
  stored : ∀ e ∈ ds, e.storable = true → ∀ id, e.id = some id → s.received id = true
  among : ∀ d, P d → d ∈ ds
  applied : ∀ d ∈ ds, d.isReport = true → d.storable = true → P d
  reports : ∀ x, x ∈ s.reports ws ↔ ∃ e, P e ∧ e.reported = some x
  refused : ∀ d, P d → d.storable = false → ∀ x, d.reported = some x →
    ∃ z, P z ∧ z.storable = true ∧ ∃ y, z.reported = some y ∧ x.1 < y.1
  settled : s.reports ws ≠ [] → s.Settled ws
  quiet : s.reports ws = [] → s.billing ws = s₀.billing ws

variable {ds : List StripeEvent} {P Q : StripeEvent → Prop}

theorem StripeEvent.key_eq (hkey : e.key = some (eventId, type)) :
    e.id = some eventId ∧ e.type = some type := by
  unfold StripeEvent.key at hkey
  split at hkey
  · split at hkey
    · cases hkey
    · rename_i hid htype _
      cases hkey
      exact ⟨hid, htype⟩
  · cases hkey

theorem StripeEvent.isReport_of_key (hkey : e.key = some (eventId, type)) :
    e.isReport = type.isSubscription := by
  unfold StripeEvent.isReport
  rw [(StripeEvent.key_eq hkey).2]
  rfl

theorem Heard.init (hs : s₀.Valid) (hreports : s₀.reports ws = []) :
    Heard s₀ ws [] (fun _ => False) s₀ where
  valid := hs
  workspaces := rfl
  others _ _ := rfl
  received id := Or.inl
  stored := by simp
  among := by simp
  applied := by simp
  reports x := by simp [hreports]
  refused := by simp
  settled h := absurd hreports h
  quiet _ := rfl

/-- Without reports the row is the old one, which is not entitled. -/
theorem Heard.entitled_iff (h : Heard s₀ ws ds P s)
    (hrow : isEntitled (s₀.billing ws) true = false) :
    isEntitled (s.billing ws) true = true ↔ Register.Holds (s.reports ws) := by
  by_cases hreports : s.reports ws = []
  · rw [h.quiet hreports, hrow, hreports]
    simp [Register.not_holds_nil]
  · exact h.settled hreports

theorem received_append {billing : WorkspaceId → Option WorkspaceBilling} {r : BillingWebhookEvent}
    {id : String} :
    BillingDb.received { s with billing := billing, receipts := s.receipts ++ [r] } id = true
      ↔ s.received id = true ∨ r.stripeEventId = id := by
  simp [BillingDb.received]

/-- A delivery that changes nothing: the event was received before, or it is refused. -/
theorem Heard.ignored (h : Heard s₀ ws ds P s) (hkey : e.key = some (eventId, type))
    (hstored : e.storable = true → s.received eventId = true ∧ e ∈ ds) :
    Heard s₀ ws (ds ++ [e]) P s := by
  have hsplit : ∀ d ∈ ds ++ [e], d ∈ ds ∨ d = e := by
    intro d hd
    simpa using hd
  refine { h with
    received := fun id hid => ?_
    stored := fun d hd hok id hid => ?_
    among := fun d hd => List.mem_append_left _ (h.among d hd)
    applied := fun d hd hreport hok => ?_ }
  · rcases h.received id hid with hbefore | ⟨d, hd, hid⟩
    · exact Or.inl hbefore
    · exact Or.inr ⟨d, List.mem_append_left _ hd, hid⟩
  · rcases hsplit d hd with hd | rfl
    · exact h.stored d hd hok id hid
    · rw [(StripeEvent.key_eq hkey).1] at hid
      cases hid
      exact (hstored hok).1
  · rcases hsplit d hd with hd | rfl
    · exact h.applied d hd hreport hok
    · exact h.applied d (hstored hok).2 hreport hok

/-- The receipt of a new event, whatever it does to the row of the workspace. -/
theorem Heard.receipt (h : Heard s₀ ws ds P s) (hkey : e.key = some (eventId, type))
    (billing : WorkspaceId → Option WorkspaceBilling) {r : BillingWebhookEvent}
    (hr : r.stripeEventId = eventId) :
    (∀ id, BillingDb.received { s with billing := billing, receipts := s.receipts ++ [r] } id
      = true →
      s₀.received id = true ∨ ∃ d ∈ ds ++ [e], d.id = some id) ∧
    ∀ d ∈ ds ++ [e], d.storable = true → ∀ id, d.id = some id →
      BillingDb.received { s with billing := billing, receipts := s.receipts ++ [r] } id
        = true := by
  constructor
  · intro id hid
    rcases received_append.mp hid with hold | hown
    · rcases h.received id hold with hbefore | ⟨d, hd, hid⟩
      · exact Or.inl hbefore
      · exact Or.inr ⟨d, List.mem_append_left _ hd, hid⟩
    · refine Or.inr ⟨e, List.mem_append_right _ (List.mem_singleton_self e), ?_⟩
      rw [(StripeEvent.key_eq hkey).1, ← hown, hr]
  · intro d hd hok id hid
    rcases List.mem_append.mp hd with hd | hd
    · exact received_append.mpr (Or.inl (h.stored d hd hok id hid))
    · rw [List.mem_singleton.mp hd, (StripeEvent.key_eq hkey).1] at hid
      cases hid
      exact received_append.mpr (Or.inr hr)

/-- A new event that is mapped to the workspace and stored. -/
theorem Heard.receive (h : Heard s₀ ws ds P s) (hkey : e.key = some (eventId, type))
    {r : BillingWebhookEvent} (hr : r = ⟨eventId, type, some ws, e⟩)
    (htype : type.affectsEntitlement = true) {x : Int × Bool} (hx : e.report type = some x)
    (hlate : e.storable = false → ∃ y ∈ s.reports ws, x.1 < y.1)
    (hrow : isEntitled (some row) true = true ↔ Register.Holds (s.reports ws ++ [x]))
    (hvalid : BillingDb.Valid
      { s with
        billing := Function.update s.billing ws (some row)
        receipts := s.receipts ++ [r] }) :
    Heard s₀ ws (ds ++ [e]) (fun d => P d ∨ d = e)
      { s with
        billing := Function.update s.billing ws (some row)
        receipts := s.receipts ++ [r] } := by
  have hreports : BillingDb.reports
      { s with
        billing := Function.update s.billing ws (some row)
        receipts := s.receipts ++ [r] } ws = s.reports ws ++ [x] := by
    rw [reports_append, hr, if_pos (by simp [BillingWebhookEvent.concerns, htype]), hx]
    rfl
  have hreported : e.reported = some x := by
    unfold StripeEvent.reported
    rw [(StripeEvent.key_eq hkey).2]
    exact hx
  obtain ⟨hreceived, hstored⟩ := h.receipt hkey (Function.update s.billing ws (some row))
    (r := r) (by rw [hr])
  refine ⟨hvalid, h.workspaces, fun ws' hne => ?_, hreceived, hstored, ?_,
    fun d hd hreport hok => ?_,
    fun y => ?_, fun d hd hno y hy => ?_, fun _ => ?_, fun hnil => ?_⟩
  · rw [← h.others ws' hne]
    exact Function.update_of_ne hne _ _
  · rintro d (hd | rfl)
    · exact List.mem_append_left _ (h.among d hd)
    · exact List.mem_append_right _ (List.mem_singleton_self d)
  · rcases List.mem_append.mp hd with hd | hd
    · exact Or.inl (h.applied d hd hreport hok)
    · exact Or.inr (List.mem_singleton.mp hd)
  · rw [hreports, List.mem_append, List.mem_singleton, h.reports y]
    constructor
    · rintro (⟨d, hd, hy⟩ | rfl)
      · exact ⟨d, Or.inl hd, hy⟩
      · exact ⟨e, Or.inr rfl, hreported⟩
    · rintro ⟨d, hd | rfl, hy⟩
      · exact Or.inl ⟨d, hd, hy⟩
      · rw [hreported] at hy
        exact Or.inr (Option.some.inj hy).symm
  · rcases hd with hd | rfl
    · obtain ⟨z, hz, hzok, hzy⟩ := h.refused d hd hno y hy
      exact ⟨z, Or.inl hz, hzok, hzy⟩
    · -- the event is older than a report, which is stored or older than one that is
      rw [hreported] at hy
      cases hy
      obtain ⟨y, hy, hlt⟩ := hlate hno
      obtain ⟨z, hz, hzy⟩ := (h.reports y).mp hy
      by_cases hzok : z.storable = true
      · exact ⟨z, Or.inl hz, hzok, y, hzy, hlt⟩
      · obtain ⟨w, hw, hwok, y', hwy', hlt'⟩ := h.refused z hz (Bool.eq_false_iff.mpr hzok) y hzy
        exact ⟨w, Or.inl hw, hwok, y', hwy', hlt.trans hlt'⟩
  · unfold BillingDb.Settled
    rw [hreports]
    simp only [Function.update_self]
    exact hrow
  · rw [hreports] at hnil
    exact absurd hnil (by simp)

/-- Ids that no other workspace had are still private. -/
theorem Heard.keeps_private (h : Heard s₀ ws ds P s) {o : StripeObject} (ho : s₀.Private ws o) :
    s.Private ws o where
  subscription ws' row hne hrow := ho.subscription ws' row hne ((h.others ws' hne).symm.trans hrow)
  customer ws' row hne hrow := ho.customer ws' row hne ((h.others ws' hne).symm.trans hrow)

theorem rowOf_update (s : BillingDb) {receipts : List BillingWebhookEvent} :
    BillingDb.rowOf
      { s with
        billing := Function.update s.billing ws (some row)
        receipts := receipts } ws = row := by
  simp [BillingDb.rowOf]

/-- What a new subscription event does in a run: it is outdated and only stored, or applied, or
refused. -/
inductive ReportOutcome (s₀ : BillingDb) (ws : WorkspaceId) (ds : List StripeEvent)
    (P : StripeEvent → Prop) (s : BillingDb) (e : StripeEvent) (eventId : String) : Prop where
  | outdated (hold : s.outdates ws e eventId = true)
      (hheard : Heard s₀ ws (ds ++ [e]) (fun d => P d ∨ d = e) (stripeWebhook s e))
      (hrow : (stripeWebhook s e).rowOf ws = s.rowOf ws)
  | applied (hold : s.outdates ws e eventId = false) (hok : e.storable = true)
      (hheard : Heard s₀ ws (ds ++ [e]) (fun d => P d ∨ d = e) (stripeWebhook s e))
      (hrow : (stripeWebhook s e).rowOf ws = (s.rowOf ws).mirror e.object)
  | refused (hold : s.outdates ws e eventId = false) (hno : e.storable = false)
      (hheard : Heard s₀ ws (ds ++ [e]) P (stripeWebhook s e)) (hsame : stripeWebhook s e = s)

/-- The table takes the active statuses. -/
theorem hasStatus_of_active {o : StripeObject} (h : isActive o.statusText = true) :
    o.hasStatus = true := by
  unfold isActive activeStatuses at h
  unfold StripeObject.hasStatus billingStatuses
  simp only [List.contains_eq_mem, List.mem_cons, List.not_mem_nil, or_false, decide_eq_true_eq]
    at h ⊢
  tauto

/-- **A subscription event** with a time, in a run. -/
theorem Heard.subscription (h : Heard s₀ ws ds P s) (hws : ws ∈ s₀.workspaces)
    (hkey : e.key = some (eventId, type)) (htype : type.isSubscription = true)
    (hname : e.object.workspaceId = some ws) {created : Int} (hcreated : e.created = some created)
    (hpriv : s₀.Private ws e.object) (hnew : s.received eventId = false) :
    ReportOutcome s₀ ws ds P s e eventId := by
  have hws' : ws ∈ s.workspaces := by
    rw [h.workspaces]
    exact hws
  have hpriv' := h.keeps_private hpriv
  have hstorable : e.storable = e.object.hasStatus := by
    unfold StripeEvent.storable
    rw [StripeEvent.isReport_of_key hkey, htype]
    rfl
  by_cases hok : (s.outdates ws e eventId || e.object.hasStatus) = true
  · have hafter := stripeWebhook_subscription h.valid hws' hkey htype hname hnew hpriv' hok
    have hheard : Heard s₀ ws (ds ++ [e]) (fun d => P d ∨ d = e) (stripeWebhook s e) := by
      rw [hafter]
      refine h.receive (x := (created, isActive e.object.statusText)) hkey ?_ ?_ ?_ ?_
        (entitled_rowAfter hnew hcreated h.settled) ?_
      · unfold StripeEvent.receipt
        rw [hname]
      · cases type <;> first | rfl | cases htype
      · simp [StripeEvent.report, hcreated, htype]
      · -- not stored for its status, so it is older than another
        intro hno
        rw [hstorable] at hno
        rw [hno, Bool.or_false] at hok
        unfold BillingDb.outdates at hok
        rw [latest_eq hnew, hcreated] at hok
        obtain ⟨y, hy, hlt | ⟨_, hactive⟩⟩ := isStale_iff.mp hok
        · exact ⟨y, hy, hlt⟩
        · rw [hasStatus_of_active hactive] at hno
          cases hno
      · refine h.valid.setBilling hws' ?_ fun ws' row' hne hrow' => ?_
        · unfold rowAfter
          split
          · exact h.valid.row_status ws
          · rename_i hold
            have hstatus : e.object.hasStatus = true := by
              simpa [hold] using hok
            exact hstatus
        · unfold rowAfter
          split
          · exact h.valid.row_unique hne hrow'
          · exact h.valid.mirror_unique hpriv' hne hrow'
    by_cases hold : s.outdates ws e eventId = true
    · refine .outdated hold hheard ?_
      rw [hafter, rowOf_update]
      unfold rowAfter
      rw [if_pos hold]
    · have hstatus : e.object.hasStatus = true := by
        simpa [hold] using hok
      refine .applied (Bool.eq_false_iff.mpr hold) (hstorable.trans hstatus) hheard ?_
      rw [hafter, rowOf_update]
      unfold rowAfter
      rw [if_neg hold]
  · have hno := Bool.eq_false_iff.mpr hok
    obtain ⟨hold, hstatus⟩ := Bool.or_eq_false_iff.mp hno
    have hsame := stripeWebhook_refused h.valid hws' hkey htype hname hnew hpriv' hno
    refine .refused hold (hstorable.trans hstatus) ?_ hsame
    rw [hsame]
    refine h.ignored hkey fun hok' => ?_
    rw [hstorable, hstatus] at hok'
    cases hok'

/-! ## Convergence -/

/-- An event of the subscriptions of a workspace, as Stripe sends it for the workspace: it names
the workspace and has a time, and its ids belong to no other workspace. -/
structure StripeEvent.About (e : StripeEvent) (s : BillingDb) (ws : WorkspaceId) (created : Int) :
    Prop where
  key : ∃ eventId type, e.key = some (eventId, type) ∧ type.isSubscription = true
  named : e.object.workspaceId = some ws
  timed : e.created = some created
  ids : s.Private ws e.object

theorem StripeEvent.About.reported {created : Int} (he : e.About s ws created) :
    e.reported = some (created, isActive e.object.statusText) := by
  obtain ⟨eventId, type, hkey, htype⟩ := he.key
  unfold StripeEvent.reported StripeEvent.report
  simp [(StripeEvent.key_eq hkey).2, he.timed, htype]

theorem StripeEvent.About.isReport {created : Int} (he : e.About s ws created) :
    e.isReport = true := by
  obtain ⟨eventId, type, hkey, htype⟩ := he.key
  rw [StripeEvent.isReport_of_key hkey, htype]

theorem StripeEvent.About.storable_eq {created : Int} (he : e.About s ws created) :
    e.storable = e.object.hasStatus := by
  unfold StripeEvent.storable
  rw [he.isReport]
  rfl

/-- The newest of a set of subscription events are all active. -/
def NewestActive (E : Finset StripeEvent) (created : StripeEvent → Int) : Prop :=
  ∀ e ∈ E, (∀ e' ∈ E, created e' ≤ created e) → isActive e.object.statusText = true

/-- The events whose status the table takes. -/
def taken (E : Finset StripeEvent) : Finset StripeEvent := E.filter fun e => e.object.hasStatus

variable {E : Finset StripeEvent} {created : StripeEvent → Int}

/-- If only events of the set were mapped, then those with a status decide. -/
theorem Heard.holds_iff (h : Heard s₀ ws ds P s) (hE : ∀ e ∈ E, e.About s₀ ws (created e))
    (hP : ∀ d, P d → d ∈ E) (hds : ∀ e ∈ E, e ∈ ds) :
    Register.Holds (s.reports ws) ↔ (taken E).Nonempty ∧ NewestActive (taken E) created := by
  have hmem : ∀ e ∈ taken E, (created e, isActive e.object.statusText) ∈ s.reports ws := by
    intro e he
    obtain ⟨he, hok⟩ := Finset.mem_filter.mp he
    refine (h.reports _).mpr ⟨e, h.applied e (hds e he) (hE e he).isReport ?_, (hE e he).reported⟩
    rw [(hE e he).storable_eq, hok]
  have hof : ∀ x ∈ s.reports ws, (∀ y ∈ s.reports ws, y.1 ≤ x.1) →
      ∃ e ∈ taken E, x = (created e, isActive e.object.statusText) := by
    intro x hx hnewest
    obtain ⟨d, hd, hdx⟩ := (h.reports x).mp hx
    have hdE := hE d (hP d hd)
    by_cases hok : d.storable = true
    · refine ⟨d, Finset.mem_filter.mpr ⟨hP d hd, by rw [← hdE.storable_eq, hok]⟩, ?_⟩
      rw [hdE.reported] at hdx
      exact (Option.some.inj hdx).symm
    · obtain ⟨z, hz, _, y, hzy, hlt⟩ := h.refused d hd (Bool.eq_false_iff.mpr hok) x hdx
      exact absurd (hnewest y ((h.reports y).mpr ⟨z, hz, hzy⟩)) (not_le.mpr hlt)
  constructor
  · rintro ⟨hne, hall⟩
    refine ⟨?_, fun e he hnewest => hall _ (hmem e he) fun y hy => ?_⟩
    · obtain ⟨x, hx, hmax⟩ := Register.exists_newest_report hne
      obtain ⟨e, he, _⟩ := hof x hx hmax
      exact ⟨e, he⟩
    · obtain ⟨x, hx, hmax⟩ := Register.exists_newest_report hne
      obtain ⟨e', he', rfl⟩ := hof x hx hmax
      exact (hmax y hy).trans (hnewest e' he')
  · rintro ⟨⟨e, he⟩, hall⟩
    refine ⟨List.ne_nil_of_mem (hmem e he), fun x hx hnewest => ?_⟩
    obtain ⟨e, he, rfl⟩ := hof x hx hnewest
    exact hall e he fun e' he' => hnewest _ (hmem e' he')

/-- What one more delivery of an event of the set does. -/
theorem Heard.deliver (h : Heard s₀ ws ds P s) (hws : ws ∈ s₀.workspaces)
    (he : e.About s₀ ws (created e)) (hkey : e.key = some (eventId, type))
    (hold : s.received eventId = true → e ∈ ds) :
    ∃ Q, Heard s₀ ws (ds ++ [e]) Q (stripeWebhook s e) := by
  by_cases hreceived : s.received eventId = true
  · rw [stripeWebhook_duplicate hkey hreceived]
    exact ⟨P, h.ignored hkey fun _ => ⟨hreceived, hold hreceived⟩⟩
  · have htype : type.isSubscription = true := by
      rw [← StripeEvent.isReport_of_key hkey, he.isReport]
    rcases h.subscription hws hkey htype he.named he.timed he.ids (Bool.eq_false_iff.mpr hreceived)
      with ⟨_, hheard, _⟩ | ⟨_, _, hheard, _⟩ | ⟨_, _, hheard, _⟩
    · exact ⟨_, hheard⟩
    · exact ⟨_, hheard⟩
    · exact ⟨_, hheard⟩

/-- The id of a delivery was received with the same event. -/
theorem Heard.mem_of_received (h : Heard s₀ ws ds P s)
    (hnew : ∀ id, e.id = some id → s₀.received id = false)
    (hdistinct : ∀ d ∈ ds, d.id = e.id → d = e) (hkey : e.key = some (eventId, type))
    (hreceived : s.received eventId = true) : e ∈ ds := by
  have hid := (StripeEvent.key_eq hkey).1
  rcases h.received eventId hreceived with hbefore | ⟨d, hd, hd'⟩
  · rw [hnew eventId hid] at hbefore
    cases hbefore
  · rwa [← hdistinct d hd (hd'.trans hid.symm)]

theorem heard_events (hs : s₀.Valid) (hws : ws ∈ s₀.workspaces) (hreports : s₀.reports ws = [])
    (hE : ∀ e ∈ E, e.About s₀ ws (created e))
    (hnew : ∀ e ∈ E, ∀ id, e.id = some id → s₀.received id = false)
    (hdistinct : ∀ e ∈ E, ∀ e' ∈ E, e.id = e'.id → e = e') (hds : ∀ e ∈ ds, e ∈ E) :
    ∃ P, Heard s₀ ws ds P (ds.foldl stripeWebhook s₀) := by
  induction ds using List.reverseRecOn with
  | nil => exact ⟨_, Heard.init hs hreports⟩
  | append_singleton ds e ih =>
      obtain ⟨P, hheard⟩ := ih fun d hd => hds d (List.mem_append_left _ hd)
      have he : e ∈ E := hds e (List.mem_append_right _ (List.mem_singleton_self e))
      obtain ⟨eventId, type, hkey, _⟩ := (hE e he).key
      rw [List.foldl_concat]
      refine hheard.deliver hws (hE e he) hkey (hheard.mem_of_received (hnew e he) ?_ hkey)
      intro d hd
      exact hdistinct d (hds d (List.mem_append_left _ hd)) e he

/-- No receipt counts for the workspace yet. -/
def BillingDb.Quiet (s : BillingDb) (ws : WorkspaceId) : Prop :=
  ∀ r ∈ s.receipts, r.concerns ws = false

theorem BillingDb.Quiet.reports (hquiet : s.Quiet ws) : s.reports ws = [] := by
  have hnone : s.receipts.filter (BillingWebhookEvent.concerns ws) = [] := by
    refine List.filter_eq_nil_iff.mpr fun r hr => ?_
    simp [hquiet r hr]
  unfold BillingDb.reports
  rw [hnone]
  rfl

/-- **Convergence.** Whatever the order of the deliveries and however often each is repeated, the
events with a status that the table takes decide: the workspace ends up entitled if there is one and
the newest of them are active. -/
theorem entitled_deliveries (hs : s.Valid) (hrow : s.billing ws = some row)
    (hbefore : taken E = ∅ → isEntitled (some row) true = false) (hquiet : s.Quiet ws)
    (hE : ∀ e ∈ E, e.About s ws (created e))
    (hnew : ∀ e ∈ E, ∀ id, e.id = some id → s.received id = false)
    (hdistinct : ∀ e ∈ E, ∀ e' ∈ E, e.id = e'.id → e = e') (hds : ∀ e, e ∈ ds ↔ e ∈ E) :
    isEntitled ((ds.foldl stripeWebhook s).billing ws) true = true
      ↔ (taken E).Nonempty ∧ NewestActive (taken E) created := by
  obtain ⟨P, h⟩ := heard_events hs
      (hs.exists_workspace ws row hrow) hquiet.reports hE hnew hdistinct
    fun e he => (hds e).mp he
  rw [← h.holds_iff hE (fun d hd => (hds d).mp (h.among d hd)) fun e he => (hds e).mpr he]
  by_cases htaken : taken E = ∅
  · refine h.entitled_iff ?_
    rw [hrow]
    exact hbefore htaken
  · obtain ⟨e, he⟩ := Finset.nonempty_iff_ne_empty.mpr htaken
    obtain ⟨he, hok⟩ := Finset.mem_filter.mp he
    have hmem := (h.reports _).mpr
      ⟨e, h.applied e ((hds e).mpr he) (hE e he).isReport (by rw [(hE e he).storable_eq, hok]),
        (hE e he).reported⟩
    exact h.settled (List.ne_nil_of_mem hmem)

/-- Active events are taken, so if the newest are active, they are the newest that are taken. -/
theorem taken_of_newestActive (hne : E.Nonempty) (h : NewestActive E created) :
    (taken E).Nonempty ∧ NewestActive (taken E) created := by
  obtain ⟨m, hm, hmax⟩ := Finset.exists_max_image E created hne
  have htaken : m ∈ taken E :=
    Finset.mem_filter.mpr ⟨hm, hasStatus_of_active (h m hm fun e' he' => hmax e' he')⟩
  refine ⟨⟨m, htaken⟩, fun e he hnewest => ?_⟩
  exact h e (Finset.mem_filter.mp he).1 fun e' he' => (hmax e' he').trans (hnewest m htaken)

/-- **When the newest events decide**: exactly if the table takes the status of every newest event,
or the events that it takes do not entitle. -/
theorem stripeWebhook_converges_iff (hs : s.Valid) (hrow : s.billing ws = some row)
    (hbefore : taken E = ∅ → isEntitled (some row) true = false) (hquiet : s.Quiet ws)
    (hE : ∀ e ∈ E, e.About s ws (created e))
    (hnew : ∀ e ∈ E, ∀ id, e.id = some id → s.received id = false)
    (hdistinct : ∀ e ∈ E, ∀ e' ∈ E, e.id = e'.id → e = e')
    (ds : List StripeEvent) (hds : ∀ e, e ∈ ds ↔ e ∈ E) :
    (isEntitled ((ds.foldl stripeWebhook s).billing ws) true = true
        ↔ E.Nonempty ∧ NewestActive E created)
      ↔ (∀ e ∈ E, (∀ e' ∈ E, created e' ≤ created e) → e.object.hasStatus = true)
        ∨ ¬ ((taken E).Nonempty ∧ NewestActive (taken E) created) := by
  -- in whatever order they came, the events that can be stored decide
  rw [entitled_deliveries hs hrow hbefore hquiet hE hnew hdistinct hds]
  constructor
  · intro hiff
    by_cases htaken : (taken E).Nonempty ∧ NewestActive (taken E) created
    · refine Or.inl fun e he hnewest => ?_
      exact hasStatus_of_active ((hiff.mp htaken).2 e he hnewest)
    · exact Or.inr htaken
  · rintro (hall | hno)
    · refine ⟨fun ⟨⟨e, he⟩, hactive⟩ => ⟨⟨e, (Finset.mem_filter.mp he).1⟩, fun d hd hnewest => ?_⟩,
        fun ⟨hne, hactive⟩ => taken_of_newestActive hne hactive⟩
      refine hactive d (Finset.mem_filter.mpr ⟨hd, hall d hd hnewest⟩) fun e' he' => ?_
      exact hnewest e' (Finset.mem_filter.mp he').1
    · exact iff_of_false hno fun ⟨hne, hactive⟩ => hno (taken_of_newestActive hne hactive)

/-! ## A workspace with a subscription -/

/-- A database with one workspace, which has a billing row but no subscription. -/
def oneWorkspaceDb : BillingDb where
  workspaces := [1]
  billing ws := if ws = 1 then some {} else none
  receipts := []

/-- An event of subscription `sub` of workspace 1. -/
def subscriptionEvent (id : String) (type : StripeEventType) (created : Int) (sub status : String) :
    StripeEvent where
  id := some id
  type := some type
  created := some created
  object := {
    id := some sub
    status := some status
    metadataWorkspaceId := some (.id 1) }

theorem oneWorkspaceDb_valid : oneWorkspaceDb.Valid where
  exists_workspace ws row h := by
    by_cases hws : ws = 1
    · simp [oneWorkspaceDb, hws]
    · simp [oneWorkspaceDb, hws] at h
  status ws row h := by
    by_cases hws : ws = 1
    · simp only [oneWorkspaceDb, hws, if_true, Option.some.injEq] at h
      subst h
      rfl
    · simp [oneWorkspaceDb, hws] at h
  unique ws ws' row row' hne h h' := by
    by_cases hws : ws = 1
    · have hws' : ws' ≠ 1 := fun heq => hne (hws.trans heq.symm)
      simp [oneWorkspaceDb, hws'] at h'
    · simp [oneWorkspaceDb, hws] at h

theorem oneWorkspaceDb_private (o : StripeObject) : oneWorkspaceDb.Private 1 o where
  subscription ws' row hne h := by simp [oneWorkspaceDb, hne] at h
  customer ws' row hne h := by simp [oneWorkspaceDb, hne] at h


/-- A subscription that is activated, and then has another status. -/
def activatedThen (status : String) : Finset StripeEvent :=
  {subscriptionEvent "evt_1" .subscriptionCreated 1 "sub_1" "active",
    subscriptionEvent "evt_2" .subscriptionUpdated 2 "sub_1" status}

/-- The time of an event that has one. -/
def StripeEvent.time (e : StripeEvent) : Int := e.created.getD 0

theorem activatedThen_about (status : String) :
    ∀ e ∈ activatedThen status, e.About oneWorkspaceDb 1 e.time := by
  intro e he
  rw [activatedThen, Finset.mem_insert, Finset.mem_singleton] at he
  rcases he with rfl | rfl
  · exact ⟨⟨"evt_1", _, rfl, rfl⟩, rfl, rfl, oneWorkspaceDb_private _⟩
  · exact ⟨⟨"evt_2", _, rfl, rfl⟩, rfl, rfl, oneWorkspaceDb_private _⟩

theorem activatedThen_distinct (status : String) :
    ∀ e ∈ activatedThen status, ∀ e' ∈ activatedThen status, e.id = e'.id → e = e' := by
  intro e he e' he' hid
  rw [activatedThen, Finset.mem_insert, Finset.mem_singleton] at he he'
  rcases he with rfl | rfl <;> rcases he' with rfl | rfl <;>
    first | rfl | simp [subscriptionEvent] at hid

theorem oneWorkspaceDb_quiet : oneWorkspaceDb.Quiet 1 := by
  simp [BillingDb.Quiet, oneWorkspaceDb]

/-- A cancellation that arrives before the activation, and again after it. -/
theorem stripeWebhook_canceled_first :
    isEntitled ((List.foldl stripeWebhook oneWorkspaceDb
      [subscriptionEvent "evt_2" .subscriptionUpdated 2 "sub_1" "canceled",
        subscriptionEvent "evt_1" .subscriptionCreated 1 "sub_1" "active",
        subscriptionEvent "evt_2" .subscriptionUpdated 2 "sub_1" "canceled"]).billing 1) true = true
      ↔ (activatedThen "canceled").Nonempty ∧
        NewestActive (activatedThen "canceled") StripeEvent.time := by
  refine (stripeWebhook_converges_iff oneWorkspaceDb_valid rfl (fun _ => rfl) oneWorkspaceDb_quiet
    (activatedThen_about "canceled") (fun _ _ _ _ => rfl) (activatedThen_distinct "canceled") _
    fun e => ?_).mpr (Or.inl fun e he _ => ?_)
  · simp only [activatedThen, List.mem_cons, List.not_mem_nil, or_false, Finset.mem_insert,
      Finset.mem_singleton]
    tauto
  · rw [activatedThen, Finset.mem_insert, Finset.mem_singleton] at he
    rcases he with rfl | rfl
    · rfl
    · rfl

/-- The newest event says that the subscription is paused, a status that the table does not take:
the event is lost and the workspace stays entitled. -/
theorem stripeWebhook_paused_lost :
    (∀ e ∈ activatedThen "paused", e.About oneWorkspaceDb 1 e.time) ∧
    (∀ e ∈ activatedThen "paused", ∀ e' ∈ activatedThen "paused", e.id = e'.id → e = e') ∧
    isEntitled ((List.foldl stripeWebhook oneWorkspaceDb
      [subscriptionEvent "evt_1" .subscriptionCreated 1 "sub_1" "active",
        subscriptionEvent "evt_2" .subscriptionUpdated 2 "sub_1" "paused"]).billing 1) true = true ∧
    ¬ NewestActive (activatedThen "paused") StripeEvent.time := by
  refine ⟨activatedThen_about "paused", activatedThen_distinct "paused", by decide +kernel,
    fun hactive => ?_⟩
  have h := hactive (subscriptionEvent "evt_2" .subscriptionUpdated 2 "sub_1" "paused")
    (Finset.mem_insert_of_mem (Finset.mem_singleton_self _)) (by decide)
  exact absurd h (by decide)

end HumanGate
