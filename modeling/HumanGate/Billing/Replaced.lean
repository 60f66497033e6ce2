import HumanGate.Billing.Failures

set_option autoImplicit false

/-! # Replaced subscriptions

A workspace that subscribes again has events of several subscriptions. They are all compared with
each other, so that a late event of a subscription that was replaced, for instance its deletion, may
be the newest of all and revoke the entitlement of the current one (`replaced_deletion_revokes`). As
long as the events of other subscriptions come late (`Replaced`), the workspace follows the events
of the current one (`current_subscription`).
-/

namespace HumanGate

open Lib

variable {s s₀ : BillingDb} {ws : WorkspaceId} {e f : StripeEvent} {eventId sub : String}
  {type : StripeEventType} {ds : List StripeEvent} {created : StripeEvent → Int}

/-! ## Events of subscriptions -/

/-- The event reports the state of subscription `sub`. -/
structure StripeEvent.Reports (e : StripeEvent) (s : BillingDb) (ws : WorkspaceId) (sub : String)
    (created : Int) : Prop where
  about : e.About s ws created
  id : e.object.id = some sub
  sub_ne : sub ≠ ""

/-- The event is about subscription `sub` of the workspace: a report or a failed payment. -/
def StripeEvent.Concerns (e : StripeEvent) (s : BillingDb) (ws : WorkspaceId) (sub : String)
    (created : Int) : Prop :=
  e.Reports s ws sub created ∨ (e.FailureOf sub created ∧ s.Owned ws sub)

theorem StripeEvent.Reports.not_failure {sub' : String} {c c' : Int} (h : e.Reports s ws sub c) :
    ¬ e.FailureOf sub' c' := by
  intro hf
  have hname := h.about.named
  rw [hf.unnamed] at hname
  cases hname

theorem StripeEvent.Concerns.unique {sub' : String} {c c' : Int} (h : e.Concerns s ws sub c)
    (h' : e.Concerns s ws sub' c') : sub = sub' := by
  rcases h with h | ⟨h, _⟩ <;> rcases h' with h' | ⟨h', _⟩
  · exact Option.some.inj (h.id.symm.trans h'.id)
  · exact absurd h' h.not_failure
  · exact absurd h h'.not_failure
  · exact Option.some.inj (h.subscription.symm.trans h'.subscription)

/-- The event says that the workspace is to be entitled. -/
def StripeEvent.grants (e : StripeEvent) : Bool :=
  e.type.any StripeEventType.isSubscription && isActive e.object.statusText

theorem StripeEvent.Reports.grants_eq {c : Int} (h : e.Reports s ws sub c) :
    e.grants = isActive e.object.statusText := by
  obtain ⟨_, _, hkey, htype⟩ := h.about.key
  unfold StripeEvent.grants
  simp [(StripeEvent.key_eq hkey).2, htype]

theorem StripeEvent.Concerns.reported {c : Int} (h : e.Concerns s ws sub c) :
    e.reported = some (c, e.grants) := by
  rcases h with h | ⟨h, _⟩
  · rw [h.about.reported, h.grants_eq]
  · obtain ⟨_, hkey⟩ := h.key
    rw [h.reported]
    unfold StripeEvent.grants
    simp [(StripeEvent.key_eq hkey).2, StripeEventType.isSubscription]

theorem StripeEvent.Concerns.key {c : Int} (h : e.Concerns s ws sub c) :
    ∃ eventId type, e.key = some (eventId, type) := by
  rcases h with h | ⟨h, _⟩
  · obtain ⟨eventId, type, hkey, _⟩ := h.about.key
    exact ⟨eventId, type, hkey⟩
  · obtain ⟨eventId, hkey⟩ := h.key
    exact ⟨eventId, _, hkey⟩

/-! ## Following one subscription -/

/-- A report of the subscription was delivered, with a status that the table takes. -/
def Started (s₀ : BillingDb) (ws : WorkspaceId) (sub : String) (created : StripeEvent → Int)
    (ds : List StripeEvent) : Prop :=
  ∃ d ∈ ds, d.Reports s₀ ws sub (created d) ∧ d.storable = true

/-- What holds after the deliveries `ds`, those of `P` being mapped to the workspace: once the
subscription has started, the row has it, and every event of another subscription is older than one
of this, or as old and active. -/
structure Tracking (s₀ : BillingDb) (ws : WorkspaceId) (sub : String) (created : StripeEvent → Int)
    (ds : List StripeEvent) (P : StripeEvent → Prop) (s : BillingDb) : Prop where
  heard : Heard s₀ ws ds P s
  waiting : ∀ x, P x → x.Concerns s₀ ws sub (created x) →
    (∀ y, P y → ¬ y.Concerns s₀ ws sub (created y) → created y < created x) → s.Linked ws sub
  linked : Started s₀ ws sub created ds → s.Linked ws sub
  behind : Started s₀ ws sub created ds → ∀ y, P y → ¬ y.Concerns s₀ ws sub (created y) →
    ∃ x, P x ∧ x.Concerns s₀ ws sub (created x) ∧
      (created y < created x ∨ (created y = created x ∧ y.grants = true))

/-- The events of the deliveries: each is about a subscription of the workspace, none was received
before, and no two share an id. -/
structure Deliveries (s₀ : BillingDb) (ws : WorkspaceId) (created : StripeEvent → Int)
    (ds : List StripeEvent) : Prop where
  concern : ∀ d ∈ ds, ∃ sub, d.Concerns s₀ ws sub (created d)
  new : ∀ d ∈ ds, ∀ id, d.id = some id → s₀.received id = false
  distinct : ∀ d ∈ ds, ∀ d' ∈ ds, d.id = d'.id → d = d'

variable {P : StripeEvent → Prop} {sub' : String}

/-- Which reports come too late. -/
theorem Tracking.outdates_iff (h : Tracking s₀ ws sub created ds P s)
    (hds : Deliveries s₀ ws created ds) (he : e.Reports s₀ ws sub' (created e))
    (hnew : s.received eventId = false) :
    s.outdates ws e eventId = true
      ↔ ∃ z, P z ∧ (created e < created z ∨ (created e = created z ∧ e.grants = true)) := by
  have hreported : ∀ d, P d → d.reported = some (created d, d.grants) := by
    intro d hd
    obtain ⟨_, hconcern⟩ := hds.concern d (h.heard.among d hd)
    exact hconcern.reported
  unfold BillingDb.outdates
  rw [latest_eq hnew, he.about.timed, isStale_iff, he.grants_eq]
  constructor
  · rintro ⟨y, hy, hlate⟩
    obtain ⟨d, hd, hdy⟩ := (h.heard.reports y).mp hy
    rw [hreported d hd] at hdy
    cases hdy
    exact ⟨d, hd, hlate⟩
  · rintro ⟨d, hd, hlate⟩
    exact ⟨_, (h.heard.reports _).mpr ⟨d, hd, hreported d hd⟩, hlate⟩

theorem started_append : Started s₀ ws sub created (ds ++ [e])
    ↔ Started s₀ ws sub created ds ∨ (e.Reports s₀ ws sub (created e) ∧ e.storable = true) := by
  unfold Started
  simp only [List.mem_append, List.mem_singleton, or_and_right, exists_or, exists_eq_left]

/-- A delivery that changes nothing, and starts nothing. -/
theorem Tracking.ignored (h : Tracking s₀ ws sub created ds P s)
    (hheard : Heard s₀ ws (ds ++ [e]) P s)
    (hstart : e.storable = true → e ∈ ds) : Tracking s₀ ws sub created (ds ++ [e]) P s := by
  have hstarted : Started s₀ ws sub created (ds ++ [e]) → Started s₀ ws sub created ds := by
    intro hnow
    rcases started_append.mp hnow with hbefore | ⟨hreports, hok⟩
    · exact hbefore
    · exact ⟨e, hstart hok, hreports, hok⟩
  exact ⟨hheard, h.waiting, fun hnow => h.linked (hstarted hnow),
    fun hnow => h.behind (hstarted hnow)⟩

/-- A report of the subscription. Its first one is newer than all events of other subscriptions. -/
theorem Tracking.ownReport (h : Tracking s₀ ws sub created ds P s)
    (hds : Deliveries s₀ ws created ds) (hws : ws ∈ s₀.workspaces)
    (he : e.Reports s₀ ws sub (created e)) (hkey : e.key = some (eventId, type))
    (hnew : s.received eventId = false)
    (hfirst : e.storable = true → ¬ Started s₀ ws sub created ds →
      ∀ d ∈ ds, ¬ d.Concerns s₀ ws sub (created d) → created d < created e) :
    ∃ Q, Tracking s₀ ws sub created (ds ++ [e]) Q (stripeWebhook s e) := by
  have htype : type.isSubscription = true := by
    rw [← StripeEvent.isReport_of_key hkey, he.about.isReport]
  have hbehind : Started s₀ ws sub created (ds ++ [e]) → ∀ y, P y ∨ y = e →
      ¬ y.Concerns s₀ ws sub (created y) → ∃ x, (P x ∨ x = e) ∧ x.Concerns s₀ ws sub (created x) ∧
        (created y < created x ∨ (created y = created x ∧ y.grants = true)) := by
    rintro hnow y (hy | rfl) hother
    · by_cases hbefore : Started s₀ ws sub created ds
      · obtain ⟨x, hx, hown, hlate⟩ := h.behind hbefore y hy hother
        exact ⟨x, Or.inl hx, hown, hlate⟩
      · have hok := ((started_append.mp hnow).resolve_left hbefore).2
        exact ⟨e, Or.inr rfl, Or.inl he,
          Or.inl (hfirst hok hbefore y (h.heard.among y hy) hother)⟩
    · exact absurd (Or.inl he) hother
  rcases h.heard.subscription hws hkey htype he.about.named he.about.timed he.about.ids hnew
    with ⟨hold, hheard, hrow⟩ | ⟨_, _, hheard, hrow⟩ | ⟨_, hno, hheard, hsame⟩
  · have hsame : (stripeWebhook s e).Linked ws sub ↔ s.Linked ws sub := by
      unfold BillingDb.Linked
      rw [hrow]
    -- what is newer than the report and than all other subscriptions is of this one
    have hnewer : (∀ y, P y → ¬ y.Concerns s₀ ws sub (created y) → created y < created e) →
        s.Linked ws sub := by
      intro hall
      obtain ⟨z, hz, hlate⟩ := (h.outdates_iff hds he hnew).mp hold
      have hle : created e ≤ created z := by
        rcases hlate with hlt | ⟨heq, _⟩
        · exact hlt.le
        · exact heq.le
      have hown : z.Concerns s₀ ws sub (created z) := by
        by_contra hother
        exact absurd (hall z hz hother) (not_lt.mpr hle)
      exact h.waiting z hz hown fun y hy hother => (hall y hy hother).trans_le hle
    refine ⟨_, hheard, ?_, fun hnow => hsame.mpr ?_, hbehind⟩
    · rintro x (hx | rfl) hown hall
      · exact hsame.mpr (h.waiting x hx hown fun y hy => hall y (Or.inl hy))
      · exact hsame.mpr (hnewer fun y hy => hall y (Or.inl hy))
    · by_cases hbefore : Started s₀ ws sub created ds
      · exact h.linked hbefore
      · have hok := ((started_append.mp hnow).resolve_left hbefore).2
        exact hnewer fun y hy => hfirst hok hbefore y (h.heard.among y hy)
  · have hlinked : (stripeWebhook s e).Linked ws sub := by
      unfold BillingDb.Linked
      rw [hrow]
      simp [WorkspaceBilling.mirror, he.id, he.sub_ne]
    exact ⟨_, hheard, fun _ _ _ _ => hlinked, fun _ => hlinked, hbehind⟩
  · rw [hsame] at hheard ⊢
    refine ⟨P, h.ignored hheard fun hok => ?_⟩
    rw [hno] at hok
    cases hok

/-- A report of another subscription. Once the subscription has started, it has to be late. -/
theorem Tracking.otherReport (h : Tracking s₀ ws sub created ds P s)
    (hds : Deliveries s₀ ws created ds) (hws : ws ∈ s₀.workspaces)
    (he : e.Reports s₀ ws sub' (created e)) (hne : sub' ≠ sub)
    (hkey : e.key = some (eventId, type)) (hnew : s.received eventId = false)
    (hlate : Started s₀ ws sub created ds → e.storable = true → s.outdates ws e eventId = true) :
    ∃ Q, Tracking s₀ ws sub created (ds ++ [e]) Q (stripeWebhook s e) := by
  have htype : type.isSubscription = true := by
    rw [← StripeEvent.isReport_of_key hkey, he.about.isReport]
  have hconcern : e.Concerns s₀ ws sub' (created e) := Or.inl he
  have hother : ¬ e.Concerns s₀ ws sub (created e) := fun hown => hne (hconcern.unique hown)
  have hstarted : Started s₀ ws sub created (ds ++ [e]) → Started s₀ ws sub created ds := by
    intro hnow
    exact (started_append.mp hnow).resolve_right fun hreports => hother (Or.inl hreports.1)
  rcases h.heard.subscription hws hkey htype he.about.named he.about.timed he.about.ids hnew
    with ⟨hold, hheard, hrow⟩ | ⟨hold, hok, hheard, _⟩ | ⟨_, hno, hheard, hsame⟩
  · have hsame : (stripeWebhook s e).Linked ws sub ↔ s.Linked ws sub := by
      unfold BillingDb.Linked
      rw [hrow]
    refine ⟨_, hheard, ?_, fun hnow => hsame.mpr (h.linked (hstarted hnow)), ?_⟩
    · rintro x (hx | rfl) hown hall
      · exact hsame.mpr (h.waiting x hx hown fun y hy => hall y (Or.inl hy))
      · exact absurd hown hother
    · rintro hnow y (hy | rfl) hyother
      · obtain ⟨x, hx, hown, hbehind⟩ := h.behind (hstarted hnow) y hy hyother
        exact ⟨x, Or.inl hx, hown, hbehind⟩
      · obtain ⟨z, hz, hyz⟩ := (h.outdates_iff hds he hnew).mp hold
        by_cases hzown : z.Concerns s₀ ws sub (created z)
        · exact ⟨z, Or.inl hz, hzown, hyz⟩
        · obtain ⟨x, hx, hown, hzx⟩ := h.behind (hstarted hnow) z hz hzown
          refine ⟨x, Or.inl hx, hown, ?_⟩
          rcases hyz with hyz | ⟨hyz, hgrants⟩
          · rcases hzx with hzx | ⟨hzx, _⟩ <;> omega
          · rcases hzx with hzx | ⟨hzx, _⟩
            · exact Or.inl (by omega)
            · exact Or.inr ⟨by omega, hgrants⟩
  · have hbefore : ¬ Started s₀ ws sub created ds := by
      intro hbefore
      rw [hlate hbefore hok] at hold
      cases hold
    refine ⟨_, hheard, ?_, fun hnow => absurd (hstarted hnow) hbefore,
      fun hnow => absurd (hstarted hnow) hbefore⟩
    rintro x (hx | rfl) hown hall
    · -- a report that is applied is not older than an event of the subscription
      have hlt := hall e (Or.inr rfl) hother
      rw [(h.outdates_iff hds he hnew).mpr ⟨x, hx, Or.inl hlt⟩] at hold
      cases hold
    · exact absurd hown hother
  · rw [hsame] at hheard ⊢
    refine ⟨P, h.ignored hheard fun hok => ?_⟩
    rw [hno] at hok
    cases hok

/-- A failed payment, of this subscription or another. It is mapped only by the row. -/
theorem Tracking.failure (h : Tracking s₀ ws sub created ds P s) (hws : ws ∈ s₀.workspaces)
    (hf : f.FailureOf sub' (created f)) (howned : s₀.Owned ws sub')
    (hkey : f.key = some (eventId, .paymentFailed)) (hnew : s.received eventId = false) :
    ∃ Q, Tracking s₀ ws sub created (ds ++ [f]) Q (stripeWebhook s f) := by
  have hconcern : f.Concerns s₀ ws sub' (created f) := Or.inr ⟨hf, howned⟩
  have hstarted : Started s₀ ws sub created (ds ++ [f]) → Started s₀ ws sub created ds := by
    intro hnow
    exact (started_append.mp hnow).resolve_right fun hreports => hreports.1.not_failure hf
  by_cases hlinked : s.Linked ws sub'
  · obtain ⟨hheard, hrow⟩ := h.heard.failure hws howned hlinked hf hkey hnew
    have hsame : (stripeWebhook s f).Linked ws sub ↔ s.Linked ws sub := by
      unfold BillingDb.Linked
      rw [hrow]
    refine ⟨_, hheard, ?_, fun hnow => hsame.mpr (h.linked (hstarted hnow)), ?_⟩
    · rintro x (hx | rfl) hxown hall
      · exact hsame.mpr (h.waiting x hx hxown fun y hy => hall y (Or.inl hy))
      · rw [hconcern.unique hxown] at hlinked
        exact hsame.mpr hlinked
    · rintro hnow y (hy | rfl) hother
      · obtain ⟨x, hx, hxown, hbehind⟩ := h.behind (hstarted hnow) y hy hother
        exact ⟨x, Or.inl hx, hxown, hbehind⟩
      · have heq : sub' = sub :=
          Option.some.inj (hlinked.symm.trans (h.linked (hstarted hnow)))
        rw [heq] at hconcern
        exact absurd hconcern hother
  · obtain ⟨hheard, hbilling⟩ := h.heard.unmapped howned hlinked hf hkey hnew
    have hsame : (stripeWebhook s f).Linked ws sub ↔ s.Linked ws sub := by
      unfold BillingDb.Linked BillingDb.rowOf
      rw [hbilling]
    exact ⟨P, hheard, fun x hx hxown hall => hsame.mpr (h.waiting x hx hxown hall),
      fun hnow => hsame.mpr (h.linked (hstarted hnow)), fun hnow => h.behind (hstarted hnow)⟩

/-! ## Runs -/

/-- The event would not be applied: it was received, or it is older than a receipt that counts, or
as old and active. -/
def Late (s : BillingDb) (ws : WorkspaceId) (e : StripeEvent) : Prop :=
  ∀ eventId type, e.key = some (eventId, type) →
    s.received eventId = true ∨ s.outdates ws e eventId = true

/-- In the run `ds`, subscription `sub` replaces all others: its first report is newer than the
events of others before it, and their reports after it come late. Reports with a status that the
table does not take are left out. -/
structure Replaces (s₀ : BillingDb) (ws : WorkspaceId) (sub : String) (created : StripeEvent → Int)
    (ds : List StripeEvent) : Prop where
  starts : ∀ pre e post, ds = pre ++ e :: post → e.Reports s₀ ws sub (created e) →
    e.storable = true → ¬ Started s₀ ws sub created pre →
    ∀ d ∈ pre, ¬ d.Concerns s₀ ws sub (created d) → created d < created e
  late : ∀ pre e post, ds = pre ++ e :: post → Started s₀ ws sub created pre →
    ∀ sub', sub' ≠ sub → e.Reports s₀ ws sub' (created e) → e.storable = true →
    Late (pre.foldl stripeWebhook s₀) ws e

theorem Deliveries.left {post : List StripeEvent} (h : Deliveries s₀ ws created (ds ++ post)) :
    Deliveries s₀ ws created ds where
  concern d hd := h.concern d (List.mem_append_left _ hd)
  new d hd := h.new d (List.mem_append_left _ hd)
  distinct d hd d' hd' := h.distinct d (List.mem_append_left _ hd) d' (List.mem_append_left _ hd')

theorem Replaces.left {post : List StripeEvent} (h : Replaces s₀ ws sub created (ds ++ post)) :
    Replaces s₀ ws sub created ds where
  starts pre e rest heq := h.starts pre e (rest ++ post) (by rw [heq]; simp)
  late pre e rest heq := h.late pre e (rest ++ post) (by rw [heq]; simp)

theorem tracking_run (hs : s₀.Valid) (hws : ws ∈ s₀.workspaces) (hquiet : s₀.Quiet ws)
    (hds : Deliveries s₀ ws created ds) (hreplaces : Replaces s₀ ws sub created ds) :
    ∃ P, Tracking s₀ ws sub created ds P (ds.foldl stripeWebhook s₀) := by
  induction ds using List.reverseRecOn with
  | nil => exact ⟨_, Heard.init hs hquiet.reports, by simp, by simp [Started], by simp⟩
  | append_singleton ds e ih =>
      obtain ⟨P, hheard⟩ := ih hds.left hreplaces.left
      have he := List.mem_append_right ds (List.mem_singleton_self e)
      obtain ⟨sub', hconcern⟩ := hds.concern e he
      obtain ⟨eventId, type, hkey⟩ := hconcern.key
      rw [List.foldl_concat]
      by_cases hold : (ds.foldl stripeWebhook s₀).received eventId = true
      · have hmem := hheard.heard.mem_of_received (hds.new e he)
          (fun d hd => hds.distinct d (List.mem_append_left _ hd) e he) hkey hold
        rw [stripeWebhook_duplicate hkey hold]
        exact ⟨P, hheard.ignored (hheard.heard.ignored hkey fun _ => ⟨hold, hmem⟩) fun _ => hmem⟩
      · have hnew := Bool.eq_false_iff.mpr hold
        rcases hconcern with hreports | ⟨hfails, howned⟩
        · by_cases hsub : sub' = sub
          · subst hsub
            exact hheard.ownReport hds.left hws hreports hkey hnew
              (hreplaces.starts ds e [] rfl hreports)
          · refine hheard.otherReport hds.left hws hreports hsub hkey hnew fun hnow hok => ?_
            exact (hreplaces.late ds e [] rfl hnow sub' hsub hreports hok eventId type
              hkey).resolve_left hold
        · have htype : type = .paymentFailed := by
            obtain ⟨_, hkey'⟩ := hfails.key
            rw [hkey] at hkey'
            cases hkey'
            rfl
          subst htype
          exact hheard.failure hws hfails howned hkey hnew

theorem StripeEvent.Concerns.reports_of_grants {c : Int} (h : e.Concerns s ws sub c)
    (hgrants : e.grants = true) : e.Reports s ws sub c := by
  rcases h with h | ⟨h, _⟩
  · exact h
  · obtain ⟨_, hkey⟩ := h.key
    unfold StripeEvent.grants at hgrants
    simp [(StripeEvent.key_eq hkey).2, StripeEventType.isSubscription] at hgrants

theorem exists_newest_event (h : ∃ d ∈ ds, d.Concerns s ws sub (created d)) :
    ∃ m ∈ ds, m.Concerns s ws sub (created m) ∧
      ∀ d ∈ ds, d.Concerns s ws sub (created d) → created d ≤ created m := by
  classical
  obtain ⟨d, hd, hconcern⟩ := h
  obtain ⟨m, hm, hmax⟩ := Finset.exists_max_image
    (ds.toFinset.filter fun d => d.Concerns s ws sub (created d)) created
    ⟨d, by simpa using ⟨hd, hconcern⟩⟩
  simp only [Finset.mem_filter, List.mem_toFinset] at hm hmax
  exact ⟨m, hm.1, hm.2, fun d hd hconcern => hmax d ⟨hd, hconcern⟩⟩

/-- **The current subscription.** In every state of a run in which `sub` replaces the others: once
an event about it came, and as long as its newest events are active, the workspace is entitled and
has that subscription. -/
theorem current_subscription (hs : s.Valid) (hws : ws ∈ s.workspaces) (hquiet : s.Quiet ws)
    (hds : Deliveries s ws created ds) (hreplaces : Replaces s ws sub created ds)
    (pre post : List StripeEvent) (hpre : ds = pre ++ post)
    (hfirst : ∃ d ∈ pre, d.Concerns s ws sub (created d))
    (hactive : ∀ d ∈ pre, d.Concerns s ws sub (created d) →
      (∀ d' ∈ pre, d'.Concerns s ws sub (created d') → created d' ≤ created d) → d.grants = true) :
    isEntitled ((pre.foldl stripeWebhook s).billing ws) true = true ∧
      (pre.foldl stripeWebhook s).Linked ws sub := by
  subst hpre
  obtain ⟨P, h⟩ := tracking_run hs hws hquiet hds.left hreplaces.left
  -- the newest event of the subscription grants, so it is a report and was applied
  obtain ⟨m, hm, hown, hmax⟩ := exists_newest_event hfirst
  have hgrants := hactive m hm hown hmax
  have hreports := hown.reports_of_grants hgrants
  have hok : m.storable = true := by
    rw [hreports.about.storable_eq]
    rw [hreports.grants_eq] at hgrants
    exact hasStatus_of_active hgrants
  have hstarted : Started s ws sub created pre := ⟨m, hm, hreports, hok⟩
  refine ⟨?_, h.linked hstarted⟩
  have hreport : ∀ z, P z → (created z, z.grants) ∈ (pre.foldl stripeWebhook s).reports ws := by
    intro z hz
    obtain ⟨_, hconcern⟩ := hds.left.concern z (h.heard.among z hz)
    exact (h.heard.reports _).mpr ⟨z, hz, hconcern.reported⟩
  have hPm : P m := h.heard.applied m hm hreports.about.isReport hok
  have hne := List.ne_nil_of_mem (hreport m hPm)
  refine (h.heard.settled hne).mpr ⟨hne, fun x hx hnewest => ?_⟩
  obtain ⟨z, hz, hzx⟩ := (h.heard.reports x).mp hx
  have hx' : x = (created z, z.grants) := by
    obtain ⟨_, hconcern⟩ := hds.left.concern z (h.heard.among z hz)
    rw [hconcern.reported] at hzx
    exact (Option.some.inj hzx).symm
  subst hx'
  by_cases hzown : z.Concerns s ws sub (created z)
  · -- a newest event of the subscription itself
    refine hactive z (h.heard.among z hz) hzown fun d' hd' hd'own => ?_
    exact (hmax d' hd' hd'own).trans (hnewest _ (hreport m hPm))
  · -- an event of another subscription is behind one of this, or grants as well
    obtain ⟨y, hy, _, hbehind⟩ := h.behind hstarted z hz hzown
    rcases hbehind with hlt | ⟨_, hzgrants⟩
    · exact absurd (hnewest _ (hreport y hy)) (not_le.mpr hlt)
    · exact hzgrants

/-! ## A late deletion -/

theorem subscriptionEvent_reports (id : String) (type : StripeEventType) (c : Int)
    (sub status : String) (hid : id ≠ "") (htype : type.isSubscription = true) (hsub : sub ≠ "") :
    (subscriptionEvent id type c sub status).Reports oneWorkspaceDb 1 sub c where
  about := {
    key := ⟨id, type, by simp [StripeEvent.key, subscriptionEvent, hid], htype⟩
    named := rfl
    timed := rfl
    ids := oneWorkspaceDb_private _ }
  id := rfl
  sub_ne := hsub

/-- The workspace subscribes, and subscribes again. -/
def resubscribed : List StripeEvent :=
  [subscriptionEvent "evt_1" .subscriptionCreated 1 "sub_1" "active",
    subscriptionEvent "evt_2" .subscriptionCreated 5 "sub_2" "active"]

/-- The first subscription is deleted. -/
def deletion (c : Int) : StripeEvent :=
  subscriptionEvent "evt_3" .subscriptionDeleted c "sub_1" "canceled"

theorem resubscribed_deliveries (c : Int) :
    Deliveries oneWorkspaceDb 1 StripeEvent.time (resubscribed ++ [deletion c]) where
  concern d hd := by
    simp only [resubscribed, List.cons_append, List.nil_append, List.mem_cons, List.not_mem_nil,
      or_false] at hd
    rcases hd with rfl | rfl | rfl
    · exact ⟨"sub_1", Or.inl (subscriptionEvent_reports _ _ _ _ _ (by decide) rfl (by decide))⟩
    · exact ⟨"sub_2", Or.inl (subscriptionEvent_reports _ _ _ _ _ (by decide) rfl (by decide))⟩
    · exact ⟨"sub_1", Or.inl (subscriptionEvent_reports _ _ _ _ _ (by decide) rfl (by decide))⟩
  new _ _ _ _ := rfl
  distinct d hd d' hd' hid := by
    simp only [resubscribed, List.cons_append, List.nil_append, List.mem_cons, List.not_mem_nil,
      or_false] at hd hd'
    rcases hd with rfl | rfl | rfl <;> rcases hd' with rfl | rfl | rfl <;>
      first | rfl | simp [subscriptionEvent, deletion] at hid

/-- The events of the second subscription are active. -/
theorem resubscribed_active (c : Int) : ∀ d ∈ resubscribed ++ [deletion c],
    d.Concerns oneWorkspaceDb 1 "sub_2" d.time → d.grants = true := by
  intro d hd hconcern
  simp only [resubscribed, List.cons_append, List.nil_append, List.mem_cons, List.not_mem_nil,
    or_false] at hd
  rcases hd with rfl | rfl | rfl
  · rfl
  · rfl
  · have hreports : (deletion c).Concerns oneWorkspaceDb 1 "sub_1" (deletion c).time :=
      Or.inl (subscriptionEvent_reports _ _ _ _ _ (by decide) rfl (by decide))
    exact absurd (hreports.unique hconcern) (by decide)

/-- The deletion of the old subscription is newer than everything else: the workspace loses its
entitlement and the current subscription. -/
theorem replaced_deletion_revokes :
    Deliveries oneWorkspaceDb 1 StripeEvent.time (resubscribed ++ [deletion 6]) ∧
    (∀ d ∈ resubscribed ++ [deletion 6], d.Concerns oneWorkspaceDb 1 "sub_2" d.time →
      d.grants = true) ∧
    isEntitled ((resubscribed.foldl stripeWebhook oneWorkspaceDb).billing 1) true = true ∧
    (resubscribed.foldl stripeWebhook oneWorkspaceDb).Linked 1 "sub_2" ∧
    isEntitled (((resubscribed ++ [deletion 6]).foldl stripeWebhook oneWorkspaceDb).billing 1) true
      = false ∧
    ((resubscribed ++ [deletion 6]).foldl stripeWebhook oneWorkspaceDb).Linked 1 "sub_1" :=
  ⟨resubscribed_deliveries 6, resubscribed_active 6, by decide +kernel, by decide +kernel,
    by decide +kernel, by decide +kernel⟩

/-- A deletion that is late. -/
theorem resubscribed_replaces :
    Replaces oneWorkspaceDb 1 "sub_2" StripeEvent.time (resubscribed ++ [deletion 3]) where
  starts pre e post heq he _ hfirst d hd hother := by
    rcases pre with _ | ⟨a, _ | ⟨b, rest⟩⟩
    · cases hd
    · simp only [resubscribed, List.cons_append, List.nil_append, List.cons.injEq] at heq
      obtain ⟨rfl, rfl, _⟩ := heq
      rw [List.mem_singleton.mp hd]
      decide
    · simp only [resubscribed, List.cons_append, List.nil_append, List.cons.injEq] at heq
      obtain ⟨rfl, rfl, _⟩ := heq
      refine absurd ⟨_, List.mem_cons_of_mem _ List.mem_cons_self, ?_, rfl⟩ hfirst
      exact subscriptionEvent_reports _ _ _ _ _ (by decide) rfl (by decide)
  late pre e post heq hfirst sub' hne he _ := by
    rcases pre with _ | ⟨a, _ | ⟨b, _ | ⟨c, rest⟩⟩⟩
    · obtain ⟨_, hd, _⟩ := hfirst
      cases hd
    · simp only [resubscribed, List.cons_append, List.nil_append, List.cons.injEq] at heq
      obtain ⟨_, rfl, _⟩ := heq
      exact absurd (Option.some.inj he.id).symm hne
    · simp only [resubscribed, List.cons_append, List.nil_append, List.cons.injEq] at heq
      obtain ⟨rfl, rfl, rfl, _⟩ := heq
      rintro eventId type hkey
      cases hkey
      exact Or.inr (by decide +kernel)
    · simp [resubscribed] at heq

theorem resubscribed_current :
    isEntitled (((resubscribed ++ [deletion 3]).foldl stripeWebhook oneWorkspaceDb).billing 1) true
      = true ∧
    ((resubscribed ++ [deletion 3]).foldl stripeWebhook oneWorkspaceDb).Linked 1 "sub_2" := by
  refine current_subscription oneWorkspaceDb_valid (by decide)
    oneWorkspaceDb_quiet (resubscribed_deliveries 3) resubscribed_replaces _ []
    (List.append_nil _).symm ⟨_, List.mem_cons_of_mem _ List.mem_cons_self,
      Or.inl (subscriptionEvent_reports _ _ _ _ _ (by decide) rfl (by decide))⟩
    fun d hd hconcern _ => resubscribed_active 3 d hd hconcern

end HumanGate
