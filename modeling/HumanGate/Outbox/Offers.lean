import HumanGate.Model.Registry

set_option autoImplicit false

/-! # One tick of an event

What a tick does to an event that several consumers share (`tick_ticked`): the attempts grow by the
number of consumers that fail, the event is poisoned if one of them fails for the last time
(`Exhausted`), and what becomes of a consumer depends on the others only through the attempts that
are spent before its turn.
-/

namespace HumanGate

open Lib Lib.Calendar

variable {eid : EventId} {now : Instant}

/-! ## The offer to one consumer -/

/-- The consumer's handler is called and raises. -/
def Delivery.fails (d : Delivery) (raises : Handlers) (c : RegisteredConsumer) : Bool :=
  d.owed c && (raises c.name).isSome

/-- One of the consumers fails for the last time, with `attempts` spent before the first one. -/
def Exhausted (attempts : Nat) (fails : RegisteredConsumer → Bool)
    (cs : List RegisteredConsumer) : Prop :=
  ∃ pre c post, cs = pre ++ c :: post ∧ fails c = true ∧
    c.maxDeliveryAttempts ≤ attempts + pre.countP fails + 1

theorem exhausted_cons {attempts : Nat} {fails : RegisteredConsumer → Bool}
    {c : RegisteredConsumer} {cs : List RegisteredConsumer} :
    Exhausted attempts fails (c :: cs) ↔
      (fails c = true ∧ c.maxDeliveryAttempts ≤ attempts + 1) ∨
        Exhausted (attempts + if fails c then 1 else 0) fails cs := by
  constructor
  · rintro ⟨pre, c', post, heq, hfail, hmax⟩
    cases pre with
    | nil =>
        cases heq
        exact .inl ⟨hfail, by simpa using hmax⟩
    | cons x pre =>
        cases heq
        refine .inr ⟨pre, c', post, rfl, hfail, ?_⟩
        rw [List.countP_cons] at hmax
        omega
  · rintro (⟨hfail, hmax⟩ | ⟨pre, c', post, rfl, hfail, hmax⟩)
    · exact ⟨[], c, cs, rfl, hfail, by simpa using hmax⟩
    · refine ⟨c :: pre, c', post, rfl, hfail, ?_⟩
      rw [List.countP_cons]
      omega

theorem Exhausted.congr {attempts : Nat} {fails fails' : RegisteredConsumer → Bool}
    {cs : List RegisteredConsumer} (h : Exhausted attempts fails cs)
    (heq : ∀ c ∈ cs, fails' c = fails c) : Exhausted attempts fails' cs := by
  obtain ⟨pre, c, post, rfl, hfail, hmax⟩ := h
  refine ⟨pre, c, post, rfl, (heq c (by simp)).trans hfail, ?_⟩
  rwa [List.countP_congr fun k hk => by rw [heq k (by simp [hk])]]

/-- What the offer to one consumer does: nothing, or a call. -/
inductive Offered (eid : EventId) (now : Instant) (raises : Handlers) (c : RegisteredConsumer)
    (p : Delivery × Bool) : Delivery × Bool → Prop
  | skipped : p.1.owed c = false → Offered eid now raises c p p
  | applied : p.1.owed c = true → raises c.name = none →
      Offered eid now raises c p (p.1.apply c, p.2)
  | poisoned (text : String) : p.1.owed c = true → raises c.name = some text →
      c.maxDeliveryAttempts ≤ p.1.event.deliveryAttempts + 1 →
      Offered eid now raises c p (p.1.poison eid now c text, p.2)
  | retried (text : String) : p.1.owed c = true → raises c.name = some text →
      p.1.event.deliveryAttempts + 1 < c.maxDeliveryAttempts →
      Offered eid now raises c p (p.1.retry c text, true)

variable (eid now) in
theorem offer_offered (raises : Handlers) (p : Delivery × Bool) (c : RegisteredConsumer) :
    Offered eid now raises c p (Delivery.offer eid now raises p c) := by
  unfold Delivery.offer
  split
  · rename_i howed
    exact .skipped howed
  · rename_i howed
    rw [Bool.not_eq_false] at howed
    split
    · rename_i hnone
      exact .applied howed hnone
    · rename_i text hsome
      split
      · rename_i hmax
        exact .poisoned text howed hsome hmax
      · rename_i hmax
        exact .retried text howed hsome (Nat.lt_of_not_le hmax)

variable {raises : Handlers} {c : RegisteredConsumer} {p p' : Delivery × Bool}

/-- What another consumer sees of a call. -/
theorem Offered.frame (h : Offered eid now raises c p p') {k : RegisteredConsumer}
    (hne : k.name ≠ c.name) : p'.1.outcome k = p.1.outcome k ∧ p'.1.owed k = p.1.owed k := by
  have hletter : ("event_consumer:" ++ c.name == "event_consumer:" ++ k.name) = false := by
    rw [beq_eq_false_iff_ne, ne_eq, String.append_right_inj]
    exact Ne.symm hne
  have hcall : (c.name == k.name) = false := beq_eq_false_iff_ne.mpr (Ne.symm hne)
  cases h with
  | skipped => exact ⟨rfl, rfl⟩
  | applied => simp [Delivery.outcome, Delivery.owed, Delivery.apply, hcall,
    Function.update_of_ne hne]
  | poisoned text =>
      refine ⟨?_, rfl⟩
      simp only [Delivery.outcome, Delivery.poison, List.countP_append, List.filter_append]
      simp [poisonLetter, hcall, hletter]
      rfl
  | retried text =>
      refine ⟨?_, rfl⟩
      simp only [Delivery.outcome, Delivery.retry, List.countP_append]
      simp [hcall]
      rfl

/-- The attempts after a call. -/
theorem Offered.attempts (h : Offered eid now raises c p p') :
    p'.1.event.deliveryAttempts
      = p.1.event.deliveryAttempts + if p.1.fails raises c then 1 else 0 := by
  cases h with
  | skipped howed => simp [Delivery.fails, howed]
  | applied howed hnone => simp [Delivery.fails, howed, hnone, Delivery.apply]
  | poisoned text howed hsome _ => simp [Delivery.fails, howed, hsome, Delivery.poison]
  | retried text howed hsome _ => simp [Delivery.fails, howed, hsome, Delivery.retry]

/-- The event keeps its type and its number. -/
theorem Offered.event (h : Offered eid now raises c p p') :
    p'.1.event.eventType = p.1.event.eventType ∧ p'.1.event.sequence = p.1.event.sequence := by
  cases h <;> exact ⟨rfl, rfl⟩

/-- The status after a call: poison if it was the last one, and as before otherwise. -/
theorem Offered.status (h : Offered eid now raises c p p') :
    (p.1.fails raises c = true ∧ c.maxDeliveryAttempts ≤ p.1.event.deliveryAttempts + 1 ∧
        p'.1.event.status = .poison) ∨
      (¬ (p.1.fails raises c = true ∧ c.maxDeliveryAttempts ≤ p.1.event.deliveryAttempts + 1) ∧
        p'.1.event.status = p.1.event.status ∧ p'.2 = (p.2 || p.1.fails raises c)) := by
  cases h with
  | skipped howed => exact .inr (by simp [Delivery.fails, howed])
  | applied howed hnone => exact .inr (by simp [Delivery.fails, howed, hnone, Delivery.apply])
  | poisoned text howed hsome hmax => exact .inl ⟨by simp [Delivery.fails, howed, hsome], hmax, rfl⟩
  | retried text howed hsome hmax =>
      refine .inr ⟨fun hlast => absurd hlast.2 (Nat.not_le.mpr hmax), rfl, ?_⟩
      simp [Delivery.fails, howed, hsome]

/-- The consumer after the offer to it. -/
theorem Offered.owed (h : Offered eid now raises c p p') : p'.1.owed c = p.1.fails raises c := by
  cases h with
  | skipped howed => simp [Delivery.fails, howed]
  | applied howed hnone =>
      simp [Delivery.fails, Delivery.owed, Delivery.apply, hnone]
  | poisoned text howed hsome _ =>
      have hsame : (p.1.poison eid now c text).owed c = p.1.owed c := rfl
      rw [hsame]
      simp [Delivery.fails, hsome]
  | retried text howed hsome _ =>
      have hsame : (p.1.retry c text).owed c = p.1.owed c := rfl
      rw [hsame]
      simp [Delivery.fails, hsome]

/-! ## The loop over the registry -/

/-- What the offers to a part of the registry do. -/
structure OfferedAll (raises : Handlers) (cs : List RegisteredConsumer) (p p' : Delivery × Bool) :
    Prop where
  event : p'.1.event.eventType = p.1.event.eventType ∧ p'.1.event.sequence = p.1.event.sequence
  attempts : p'.1.event.deliveryAttempts
    = p.1.event.deliveryAttempts + cs.countP (p.1.fails raises)
  frame : ∀ k : RegisteredConsumer, (∀ c ∈ cs, k.name ≠ c.name) →
    p'.1.outcome k = p.1.outcome k ∧ p'.1.owed k = p.1.owed k
  owed : ∀ c ∈ cs, p'.1.owed c = p.1.fails raises c
  poisoned : p.1.event.status = .poison ∨
    Exhausted p.1.event.deliveryAttempts (p.1.fails raises) cs → p'.1.event.status = .poison
  spared : ¬ Exhausted p.1.event.deliveryAttempts (p.1.fails raises) cs →
    p'.1.event.status = p.1.event.status ∧ p'.2 = (p.2 || cs.any (p.1.fails raises))

variable (eid now) in
/-- **The loop over the registry.** -/
theorem foldl_offeredAll (raises : Handlers) (cs : List RegisteredConsumer) :
    (cs.map fun c => c.name).Nodup → ∀ p : Delivery × Bool,
      OfferedAll raises cs p (cs.foldl (Delivery.offer eid now raises) p) := by
  induction cs with
  | nil =>
      intro _ p
      refine ⟨⟨rfl, rfl⟩, rfl, fun _ _ => ⟨rfl, rfl⟩, by simp, fun h => ?_, by simp⟩
      rcases h with hpoison | ⟨pre, c, post, heq, _⟩
      · exact hpoison
      · cases pre <;> cases heq
  | cons c rest ih =>
      intro hnodup p
      rw [List.map_cons, List.nodup_cons] at hnodup
      have hoff := offer_offered eid now raises p c
      have hall := ih hnodup.2 (Delivery.offer eid now raises p c)
      -- the others are as they were before the first offer
      have hother : ∀ k ∈ rest, k.name ≠ c.name := by
        intro k hk hname
        exact hnodup.1 (List.mem_map.mpr ⟨k, hk, hname⟩)
      have hfails : ∀ k ∈ rest, (Delivery.offer eid now raises p c).1.fails raises k
          = p.1.fails raises k := by
        intro k hk
        unfold Delivery.fails
        rw [(hoff.frame (hother k hk)).2]
      have hcount : rest.countP ((Delivery.offer eid now raises p c).1.fails raises)
          = rest.countP (p.1.fails raises) :=
        List.countP_congr fun k hk => by rw [hfails k hk]
      have hany : rest.any ((Delivery.offer eid now raises p c).1.fails raises)
          = rest.any (p.1.fails raises) := by
        rw [Bool.eq_iff_iff, List.any_eq_true, List.any_eq_true]
        exact exists_congr fun k => and_congr_right fun hk => by rw [hfails k hk]
      have hexhausted : Exhausted p.1.event.deliveryAttempts (p.1.fails raises) (c :: rest) ↔
          (p.1.fails raises c = true ∧ c.maxDeliveryAttempts ≤ p.1.event.deliveryAttempts + 1) ∨
            Exhausted (Delivery.offer eid now raises p c).1.event.deliveryAttempts
              ((Delivery.offer eid now raises p c).1.fails raises) rest := by
        rw [exhausted_cons, hoff.attempts]
        refine or_congr_right ⟨fun h => h.congr hfails, fun h => h.congr fun k hk => ?_⟩
        exact (hfails k hk).symm
      refine ⟨?_, ?_, fun k hk => ?_, fun k hk => ?_, fun h => ?_, fun h => ?_⟩
      · exact ⟨hall.event.1.trans hoff.event.1, hall.event.2.trans hoff.event.2⟩
      · rw [List.foldl_cons, hall.attempts, hoff.attempts, hcount, List.countP_cons]
        omega
      · have hfirst := hoff.frame (hk c List.mem_cons_self)
        have hrest := hall.frame k fun c' hc' => hk c' (List.mem_cons_of_mem _ hc')
        exact ⟨hrest.1.trans hfirst.1, hrest.2.trans hfirst.2⟩
      · rcases List.mem_cons.mp hk with rfl | hk
        · have hrest := hall.frame k fun c' hc' => (hother c' hc').symm
          exact hrest.2.trans hoff.owed
        · exact (hall.owed k hk).trans (hfails k hk)
      · refine hall.poisoned ?_
        rw [hexhausted] at h
        rcases hoff.status with ⟨_, _, hpoison⟩ | ⟨hnot, hsame, _⟩
        · exact .inl hpoison
        · rcases h with hpoison | hlast | hrest
          · exact .inl (hsame.trans hpoison)
          · exact absurd hlast hnot
          · exact .inr hrest
      · rw [hexhausted, not_or] at h
        rcases hoff.status with ⟨hfail, hmax, _⟩ | ⟨_, hsame, hflag⟩
        · exact absurd ⟨hfail, hmax⟩ h.1
        · obtain ⟨hstatus, hpending⟩ := hall.spared h.2
          refine ⟨hstatus.trans hsame, ?_⟩
          rw [List.foldl_cons, hpending, hflag, hany, List.any_cons, Bool.or_assoc]

/-! ## The fate of one consumer in a tick -/

/-- The outcome after a call that raised, with `attempts` spent on the event before it. -/
def ConsumerOutcome.failed (o : ConsumerOutcome) (max attempts : Nat) : ConsumerOutcome :=
  { o with
    failedCalls := o.failedCalls + 1
    recorded := o.recorded ++ if max ≤ attempts + 1 then [attempts + 1] else [] }

theorem Offered.failed (h : Offered eid now raises c p p') (hfail : p.1.fails raises c = true) :
    p'.1.outcome c = (p.1.outcome c).failed c.maxDeliveryAttempts p.1.event.deliveryAttempts := by
  rw [Delivery.fails, Bool.and_eq_true] at hfail
  obtain ⟨howed', hsome'⟩ := hfail
  cases h with
  | skipped howed =>
      rw [howed] at howed'
      cases howed'
  | applied howed hnone =>
      rw [hnone] at hsome'
      cases hsome'
  | poisoned text howed hsome hmax =>
      simp only [Delivery.outcome, ConsumerOutcome.failed, Delivery.poison, List.countP_append,
        List.filter_append, List.map_append, if_pos hmax]
      simp [poisonLetter]
      rfl
  | retried text howed hsome hmax =>
      simp only [Delivery.outcome, ConsumerOutcome.failed, Delivery.retry, List.countP_append,
        if_neg (Nat.not_le.mpr hmax)]
      simp
      rfl

theorem Offered.returned (h : Offered eid now raises c p p') (howed : p.1.owed c = true)
    (hok : p.1.fails raises c = false) :
    p'.1.outcome c = { p.1.outcome c with applied := true } := by
  cases h with
  | skipped hnot =>
      rw [hnot] at howed
      cases howed
  | applied _ hnone =>
      simp [Delivery.outcome, Delivery.apply]
  | poisoned text _ hsome _ => simp [Delivery.fails, howed, hsome] at hok
  | retried text _ hsome _ => simp [Delivery.fails, howed, hsome] at hok

theorem Offered.skipped_outcome (h : Offered eid now raises c p p') (hnot : p.1.owed c = false) :
    p'.1.outcome c = p.1.outcome c := by
  cases h with
  | skipped => rfl
  | applied howed _ | poisoned _ howed _ _ | retried _ howed _ _ =>
      rw [hnot] at howed
      cases howed

variable {r : Registry} {pre post : List RegisteredConsumer}

/-- The others in the registry have other names. -/
theorem Registry.name_ne (hsplit : r.entries = pre ++ c :: post) :
    (∀ k ∈ pre, c.name ≠ k.name) ∧ ∀ k ∈ post, c.name ≠ k.name := by
  have hnodup := r.nodup
  rw [hsplit, List.map_append, List.map_cons, List.nodup_append] at hnodup
  obtain ⟨_, hpost, hdisj⟩ := hnodup
  rw [List.nodup_cons] at hpost
  refine ⟨fun k hk hname => ?_, fun k hk hname => ?_⟩
  · exact hdisj k.name (List.mem_map.mpr ⟨k, hk, rfl⟩) c.name (by simp) hname.symm
  · exact hpost.1 (List.mem_map.mpr ⟨k, hk, hname.symm⟩)

/-- What a tick does to a pending event, and to one consumer of it. -/
structure Ticked (raises : Handlers) (r : Registry) (d d' : Delivery) : Prop where
  event : d'.event.eventType = d.event.eventType ∧ d'.event.sequence = d.event.sequence
  owed : ∀ k ∈ r.entries, d'.owed k = d.fails raises k
  poisoned : Exhausted d.event.deliveryAttempts (d.fails raises) r.entries →
    d'.event.status = .poison
  pending : ¬ Exhausted d.event.deliveryAttempts (d.fails raises) r.entries →
    r.entries.any (d.fails raises) = true → d'.event.status = .pending ∧
      d'.event.deliveryAttempts = d.event.deliveryAttempts + r.entries.countP (d.fails raises)
  dispatched : r.entries.any (d.fails raises) = false → d'.event.status = .dispatched
  failed : ∀ pre c post, r.entries = pre ++ c :: post → d.fails raises c = true →
    d'.outcome c = (d.outcome c).failed c.maxDeliveryAttempts
      (d.event.deliveryAttempts + pre.countP (d.fails raises))
  returned : ∀ c ∈ r.entries, d.owed c = true → d.fails raises c = false →
    d'.outcome c = { d.outcome c with applied := true }
  skipped : ∀ c ∈ r.entries, d.owed c = false → d'.outcome c = d.outcome c

theorem exhausted_any {attempts : Nat} {fails : RegisteredConsumer → Bool}
    {cs : List RegisteredConsumer} (h : Exhausted attempts fails cs) : cs.any fails = true := by
  obtain ⟨pre, c, post, rfl, hfail, _⟩ := h
  exact List.any_eq_true.mpr ⟨c, by simp, hfail⟩

variable (eid now raises) in
/-- The offer to one consumer in its place. -/
theorem foldl_outcome (d : Delivery) (hsplit : r.entries = pre ++ c :: post) :
    ∃ p p' : Delivery × Bool, OfferedAll raises pre (d, false) p ∧ Offered eid now raises c p p' ∧
      (r.entries.foldl (Delivery.offer eid now raises) (d, false)).1.outcome c = p'.1.outcome c ∧
      p.1.outcome c = d.outcome c ∧ p.1.owed c = d.owed c := by
  obtain ⟨hpre, hpost⟩ := Registry.name_ne hsplit
  have hnodup := r.nodup
  rw [hsplit, List.map_append, List.map_cons, List.nodup_append] at hnodup
  have hfirst := foldl_offeredAll eid now raises pre hnodup.1 (d, false)
  have hsame := hfirst.frame c hpre
  refine ⟨_, _, hfirst, offer_offered eid now raises _ c, ?_, hsame.1, hsame.2⟩
  rw [hsplit, List.foldl_append, List.foldl_cons]
  exact ((foldl_offeredAll eid now raises post (List.nodup_cons.mp hnodup.2.1).2 _).frame c hpost).1

variable (eid now raises r) in
theorem tick_ticked {d : Delivery} (hpending : d.event.status = .pending) :
    Ticked raises r d (d.tick eid now raises r) := by
  have hall := foldl_offeredAll eid now raises r.entries r.nodup (d, false)
  have htick : d.tick eid now raises r = d.dispatchOne eid now raises r := if_pos hpending
  -- the last statement touches the status only
  have hlast : ∃ status, d.tick eid now raises r =
      { (r.entries.foldl (Delivery.offer eid now raises) (d, false)).1 with
        event := { (r.entries.foldl (Delivery.offer eid now raises) (d, false)).1.event with
          status := status } } := by
    rw [htick]
    unfold Delivery.dispatchOne
    simp only
    split
    · exact ⟨_, rfl⟩
    · exact ⟨_, rfl⟩
  obtain ⟨status, hlast⟩ := hlast
  have houtcome : ∀ k, (d.tick eid now raises r).outcome k
      = (r.entries.foldl (Delivery.offer eid now raises) (d, false)).1.outcome k := by
    intro k
    rw [hlast]
    rfl
  have hsplits : ∀ c ∈ r.entries, ∃ pre post, r.entries = pre ++ c :: post :=
    fun c hc => List.append_of_mem hc
  refine ⟨?_, fun k hk => ?_, fun hex => ?_, fun hex hany => ?_, fun hany => ?_, ?_, ?_, ?_⟩
  · rw [hlast]
    exact hall.event
  · rw [hlast]
    exact hall.owed k hk
  · have hpoison := hall.poisoned (.inr hex)
    rw [htick]
    unfold Delivery.dispatchOne
    simp [hpoison]
  · obtain ⟨hstatus, hflag⟩ := hall.spared hex
    have hflag : (r.entries.foldl (Delivery.offer eid now raises) (d, false)).2 = true := by
      rw [hflag]
      exact hany
    have heq : d.tick eid now raises r
        = (r.entries.foldl (Delivery.offer eid now raises) (d, false)).1 := by
      rw [htick]
      unfold Delivery.dispatchOne
      simp [hflag]
    rw [heq]
    exact ⟨hstatus.trans hpending, hall.attempts⟩
  · have hex : ¬ Exhausted d.event.deliveryAttempts (d.fails raises) r.entries := by
      intro hex
      rw [exhausted_any hex] at hany
      cases hany
    obtain ⟨hstatus, hflag⟩ := hall.spared hex
    have hflag : (r.entries.foldl (Delivery.offer eid now raises) (d, false)).2 = false := by
      rw [hflag]
      exact hany
    have hne : (r.entries.foldl (Delivery.offer eid now raises) (d, false)).1.event.status
        ≠ .poison := by
      rw [hstatus]
      show d.event.status ≠ .poison
      rw [hpending]
      decide
    rw [htick]
    unfold Delivery.dispatchOne
    simp [hflag, hne, RelayEvent.dispatched]
  · intro pre c post hsplit hfail
    obtain ⟨p, p', hfirst, hoff, heq, hsame, howed⟩ :=
      foldl_outcome eid now raises d hsplit
    have hfail' : p.1.fails raises c = true := by
      unfold Delivery.fails at hfail ⊢
      rw [howed]
      exact hfail
    rw [houtcome, heq, hoff.failed hfail', hsame, hfirst.attempts]
  · intro c hc howed' hok
    obtain ⟨pre, post, hsplit⟩ := hsplits c hc
    obtain ⟨p, p', _, hoff, heq, hsame, howed⟩ :=
      foldl_outcome eid now raises d hsplit
    have hok' : p.1.fails raises c = false := by
      unfold Delivery.fails at hok ⊢
      rw [howed]
      exact hok
    rw [houtcome, heq, hoff.returned (howed.trans howed') hok', hsame]
  · intro c hc hnot
    obtain ⟨pre, post, hsplit⟩ := hsplits c hc
    obtain ⟨p, p', _, hoff, heq, hsame, howed⟩ :=
      foldl_outcome eid now raises d hsplit
    rw [houtcome, heq, hoff.skipped_outcome (howed.trans hnot), hsame]

end HumanGate
