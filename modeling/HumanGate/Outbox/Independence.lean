import HumanGate.Outbox.Offers

set_option autoImplicit false

/-! # Consumers that share an event

The attempts of an event are counted for all its consumers together, and the event is over for all
of them once one has used them up. So what becomes of a consumer `c` depends on how often another
one fails.

While nobody has used the attempts up, a consumer is *stuck* at a tick if its handler has failed in
every tick so far, and the attempts are the number of the stuck consumers over all ticks
(`Delivery.spent`). `EndsAt` is the tick at which the fate of a consumer is decided: its handler
returns, or the attempts are used up. `independent_iff` compares that tick for another consumer
that always fails and for one that never does: everything else lies between the two.
-/

namespace HumanGate

open Lib Lib.Calendar

variable {eid : EventId} {c : RegisteredConsumer} {r : Registry}
    {pre post : List RegisteredConsumer}

/-! ## Ticks -/

section Ticks

variable (r : Registry) (d : Delivery) (raises : Nat → Handlers)

/-- The handler of the consumer has failed in every tick up to `t`. -/
def Delivery.stuck (t : Nat) (c : RegisteredConsumer) : Bool :=
  d.owed c && (List.range (t + 1)).all fun t' => (raises t' c.name).isSome

/-- The attempts before tick `t`, while nobody has used them up. -/
def Delivery.spent : Nat → Nat
  | 0 => d.event.deliveryAttempts
  | t + 1 => Delivery.spent t + r.entries.countP (d.stuck raises t)

/-- Somebody uses the attempts up in tick `t`. -/
def Delivery.UsedUp (t : Nat) : Prop :=
  Exhausted (d.spent r raises t) (d.stuck raises t) r.entries

/-- The tick at which the fate of the consumer is decided. -/
structure EndsAt (c : RegisteredConsumer) (t : Nat) : Prop where
  ends : d.stuck raises t c = false ∨ d.UsedUp r raises t
  first : ∀ t' < t, d.stuck raises t' c = true ∧ ¬ d.UsedUp r raises t'

/-- The event is pending after `t` ticks. -/
structure Underway (t : Nat) (s : Delivery) : Prop where
  event : s.event.eventType = d.event.eventType ∧ s.event.sequence = d.event.sequence
  status : s.event.status = .pending
  attempts : s.event.deliveryAttempts = d.spent r raises t
  owed : ∀ k ∈ r.entries,
    s.owed k = (d.owed k && (List.range t).all fun t' => (raises t' k.name).isSome)

end Ticks

theorem stuck_iff {d : Delivery} {raises : Nat → Handlers} {t : Nat} {c : RegisteredConsumer} :
    d.stuck raises t c = true ↔ d.owed c = true ∧ ∀ t' ≤ t, (raises t' c.name).isSome = true := by
  unfold Delivery.stuck
  rw [Bool.and_eq_true, List.all_eq_true]
  exact and_congr_right fun _ => forall_congr' fun t' => by rw [List.mem_range, Nat.lt_succ_iff]

variable {d s : Delivery} {raises : Nat → Handlers} {t : Nat} {now : Nat → Instant}

theorem Underway.fails (h : Underway r d raises t s) {k : RegisteredConsumer} (hk : k ∈ r.entries) :
    s.fails (raises t) k = d.stuck raises t k := by
  unfold Delivery.fails Delivery.stuck
  rw [h.owed k hk, List.range_succ, List.all_append, Bool.and_assoc]
  simp

theorem Underway.exhausted (h : Underway r d raises t s) :
    Exhausted s.event.deliveryAttempts (s.fails (raises t)) r.entries ↔ d.UsedUp r raises t := by
  unfold Delivery.UsedUp
  rw [h.attempts]
  exact ⟨fun hex => hex.congr fun k hk => (h.fails hk).symm,
    fun hex => hex.congr fun k hk => h.fails hk⟩

theorem Underway.countP (h : Underway r d raises t s) {cs : List RegisteredConsumer}
    (hcs : ∀ k ∈ cs, k ∈ r.entries) :
    cs.countP (s.fails (raises t)) = cs.countP (d.stuck raises t) :=
  List.countP_congr fun k hk => by rw [h.fails (hcs k hk)]

variable (eid now) in
/-- As long as somebody is stuck and nobody has used the attempts up, the event is pending. -/
theorem ticks_underway (hpending : d.event.status = .pending) :
    ∀ t, (∀ t' < t, ¬ d.UsedUp r raises t' ∧ r.entries.any (d.stuck raises t') = true) →
      Underway r d raises t (d.ticks r eid now raises t) := by
  intro t
  induction t with
  | zero => exact fun _ => ⟨⟨rfl, rfl⟩, hpending, rfl, fun k _ => by simp [Delivery.ticks]⟩
  | succ t ih =>
      intro hall
      have hbefore := ih fun t' ht' => hall t' (Nat.lt_succ_of_lt ht')
      obtain ⟨hused, hany⟩ := hall t (Nat.lt_succ_self t)
      have htick := tick_ticked eid (now t) (raises t) r hbefore.status
      have hany' : r.entries.any ((d.ticks r eid now raises t).fails (raises t)) = true := by
        obtain ⟨k, hk, hstuck⟩ := List.any_eq_true.mp hany
        exact List.any_eq_true.mpr ⟨k, hk, (hbefore.fails hk).trans hstuck⟩
      obtain ⟨hstatus, hattempts⟩ :=
        htick.pending (fun hex => hused (hbefore.exhausted.mp hex)) hany'
      refine ⟨⟨htick.event.1.trans hbefore.event.1, htick.event.2.trans hbefore.event.2⟩, hstatus,
        ?_, fun k hk => (htick.owed k hk).trans (hbefore.fails hk)⟩
      rw [Delivery.ticks, hattempts, hbefore.attempts, hbefore.countP fun k hk => hk]
      rfl

variable (eid now) in
theorem EndsAt.underway (h : EndsAt r d raises c t) (hc : c ∈ r.entries)
    (hpending : d.event.status = .pending) {n : Nat} (hn : n ≤ t) :
    Underway r d raises n (d.ticks r eid now raises n) := by
  refine ticks_underway eid now hpending n fun t' ht' => ?_
  obtain ⟨hstuck, hused⟩ := h.first t' (ht'.trans_le hn)
  exact ⟨hused, List.any_eq_true.mpr ⟨c, hc, hstuck⟩⟩

/-- The outcome after `n` failed calls that were not the last one. -/
def ConsumerOutcome.after (o : ConsumerOutcome) (n : Nat) : ConsumerOutcome :=
  { o with failedCalls := o.failedCalls + n }

variable (eid now) in
theorem EndsAt.outcome_before (h : EndsAt r d raises c t) (hsplit : r.entries = pre ++ c :: post)
    (hpending : d.event.status = .pending) :
    ∀ n ≤ t, (d.ticks r eid now raises n).outcome c = (d.outcome c).after n := by
  have hc : c ∈ r.entries := by rw [hsplit]; simp
  have hpre : ∀ k ∈ pre, k ∈ r.entries := fun k hk => by rw [hsplit]; simp [hk]
  intro n
  induction n with
  | zero => exact fun _ => rfl
  | succ n ih =>
      intro hn
      have hbefore := h.underway eid now hc hpending (Nat.le_of_succ_le hn)
      obtain ⟨hstuck, hused⟩ := h.first n hn
      have htick := tick_ticked eid (now n) (raises n) r hbefore.status
      have hfailed := htick.failed pre c post hsplit ((hbefore.fails hc).trans hstuck)
      have hlow : ¬ c.maxDeliveryAttempts
          ≤ d.spent r raises n + pre.countP (d.stuck raises n) + 1 :=
        fun hmax => hused ⟨pre, c, post, hsplit, hstuck, hmax⟩
      rw [hbefore.attempts, hbefore.countP hpre, ih (Nat.le_of_succ_le hn)] at hfailed
      rw [Delivery.ticks, hfailed]
      unfold ConsumerOutcome.failed
      rw [if_neg hlow, List.append_nil]
      rfl

/-- What becomes of the consumer. -/
def finalOutcome (r : Registry) (d : Delivery) (raises : Nat → Handlers) (c : RegisteredConsumer)
    (pre : List RegisteredConsumer) (t : Nat) : ConsumerOutcome :=
  if d.stuck raises t c then
    ((d.outcome c).after t).failed c.maxDeliveryAttempts
      (d.spent r raises t + pre.countP (d.stuck raises t))
  else { (d.outcome c).after t with applied := true }

variable (eid now raises d) in
/-- A consumer that is owed nothing stays as it is. -/
theorem ticks_skipped (hc : c ∈ r.entries) {n : Nat}
    (howed : (d.ticks r eid now raises n).owed c = false) : ∀ m,
    (d.ticks r eid now raises (n + m)).owed c = false ∧
      (d.ticks r eid now raises (n + m)).outcome c = (d.ticks r eid now raises n).outcome c := by
  intro m
  induction m with
  | zero => exact ⟨howed, rfl⟩
  | succ m ih =>
      obtain ⟨hnot, hsame⟩ := ih
      show ((d.ticks r eid now raises (n + m)).tick eid (now (n + m)) (raises (n + m)) r).owed c
          = false ∧
        ((d.ticks r eid now raises (n + m)).tick eid (now (n + m)) (raises (n + m)) r).outcome c
          = _
      by_cases hpending : (d.ticks r eid now raises (n + m)).event.status = .pending
      · have htick := tick_ticked eid (now (n + m)) (raises (n + m)) r hpending
        refine ⟨(htick.owed c hc).trans ?_, (htick.skipped c hc hnot).trans hsame⟩
        simp [Delivery.fails, hnot]
      · have hidle : (d.ticks r eid now raises (n + m)).tick eid (now (n + m)) (raises (n + m)) r
            = d.ticks r eid now raises (n + m) := if_neg hpending
        rw [hidle]
        exact ⟨hnot, hsame⟩

/-- An event that is over stays as it is. -/
theorem ticks_settled {n : Nat} (h : (d.ticks r eid now raises n).event.status ≠ .pending) : ∀ m,
    d.ticks r eid now raises (n + m) = d.ticks r eid now raises n := by
  intro m
  induction m with
  | zero => rfl
  | succ m ih =>
      show (d.ticks r eid now raises (n + m)).tick eid (now (n + m)) (raises (n + m)) r = _
      rw [ih]
      exact if_neg h

/-- **The fate of a consumer.** -/
theorem EndsAt.outcome (h : EndsAt r d raises c t) (hsplit : r.entries = pre ++ c :: post)
    (hpending : d.event.status = .pending) (howed : d.owed c = true) {n : Nat} (hn : t < n) :
    (d.ticks r eid now raises n).outcome c = finalOutcome r d raises c pre t := by
  have hc : c ∈ r.entries := by rw [hsplit]; simp
  have hpre : ∀ k ∈ pre, k ∈ r.entries := fun k hk => by rw [hsplit]; simp [hk]
  have hbefore := h.underway eid now hc hpending le_rfl
  have htick := tick_ticked eid (now t) (raises t) r hbefore.status
  have houtcome := h.outcome_before eid now hsplit hpending t le_rfl
  obtain ⟨m, rfl⟩ := Nat.exists_eq_add_of_lt hn
  rw [Nat.add_right_comm]
  unfold finalOutcome
  by_cases hstuck : d.stuck raises t c = true
  · -- it fails again, and the attempts are used up
    have hused := h.ends.resolve_left (by rw [hstuck]; decide)
    have hpoison := htick.poisoned (hbefore.exhausted.mpr hused)
    rw [ticks_settled (n := t + 1) (by show _ ≠ _; rw [Delivery.ticks, hpoison]; decide) m,
      if_pos hstuck,
      Delivery.ticks, htick.failed pre c post hsplit ((hbefore.fails hc).trans hstuck), houtcome,
      hbefore.attempts, hbefore.countP hpre]
  · have hok : (d.ticks r eid now raises t).fails (raises t) c = false :=
      (hbefore.fails hc).trans (Bool.eq_false_iff.mpr hstuck)
    have howed' : (d.ticks r eid now raises t).owed c = true := by
      rw [hbefore.owed c hc, howed, Bool.true_and, List.all_eq_true]
      intro t' ht'
      exact (stuck_iff.mp (h.first t' (List.mem_range.mp ht')).1).2 t' le_rfl
    have hdone : (d.ticks r eid now raises (t + 1)).owed c = false := (htick.owed c hc).trans hok
    rw [(ticks_skipped eid d raises now hc hdone m).2, if_neg hstuck, Delivery.ticks,
      htick.returned c hc howed' hok,
      houtcome]

/-- The attempts grow with every tick in which a consumer fails. -/
theorem le_spent : ∀ t, (∀ t' < t, r.entries.any (d.stuck raises t') = true) →
    t ≤ d.spent r raises t := by
  intro t
  induction t with
  | zero => exact fun _ => Nat.zero_le _
  | succ t ih =>
      intro hall
      have hle := ih fun t' ht' => hall t' (Nat.lt_succ_of_lt ht')
      have hone : 0 < r.entries.countP (d.stuck raises t) :=
        List.countP_pos_iff.mpr (List.any_eq_true.mp (hall t (Nat.lt_succ_self t)))
      unfold Delivery.spent
      omega

variable (d raises) in
theorem exists_endsAt (hsplit : r.entries = pre ++ c :: post) : ∃ t, EndsAt r d raises c t := by
  classical
  have hc : c ∈ r.entries := by rw [hsplit]; simp
  have hex : ∃ t, d.stuck raises t c = false ∨ d.UsedUp r raises t := by
    by_contra hnone
    push Not at hnone
    have hstuck : ∀ t, d.stuck raises t c = true := fun t => by simpa using (hnone t).1
    have hle := le_spent (r := r) c.maxDeliveryAttempts fun t' _ =>
      List.any_eq_true.mpr ⟨c, hc, hstuck t'⟩
    exact (hnone c.maxDeliveryAttempts).2 ⟨pre, c, post, hsplit, hstuck _, by omega⟩
  refine ⟨Nat.find hex, Nat.find_spec hex, fun t' ht' => ?_⟩
  have hnot := Nat.find_min hex ht'
  push Not at hnot
  exact ⟨by simpa using hnot.1, hnot.2⟩

/-! ## Two patterns -/

/-- The handlers of `raises` fail only where those of `raises'` do. -/
def FailsLess (raises raises' : Nat → Handlers) : Prop :=
  ∀ t name, (raises t name).isSome = true → (raises' t name).isSome = true

variable {raises' : Nat → Handlers}

theorem FailsLess.stuck (h : FailsLess raises raises') {k : RegisteredConsumer}
    (hstuck : d.stuck raises t k = true) : d.stuck raises' t k = true := by
  rw [stuck_iff] at hstuck ⊢
  exact ⟨hstuck.1, fun t' ht' => h t' k.name (hstuck.2 t' ht')⟩

theorem FailsLess.countP (h : FailsLess raises raises') (d : Delivery) (t : Nat)
    (cs : List RegisteredConsumer) : cs.countP (d.stuck raises t) ≤ cs.countP (d.stuck raises' t) :=
  List.countP_mono_left fun _ _ hstuck => h.stuck hstuck

theorem FailsLess.spent (h : FailsLess raises raises') (r : Registry) (d : Delivery) (t : Nat) :
    d.spent r raises t ≤ d.spent r raises' t := by
  induction t with
  | zero => exact le_rfl
  | succ t ih => exact Nat.add_le_add ih (h.countP d t r.entries)

theorem FailsLess.usedUp (h : FailsLess raises raises') (hused : d.UsedUp r raises t) :
    d.UsedUp r raises' t := by
  obtain ⟨pre, c, post, hsplit, hstuck, hmax⟩ := hused
  refine ⟨pre, c, post, hsplit, h.stuck hstuck, hmax.trans ?_⟩
  have hspent := h.spent r d t
  have hcount := h.countP d t pre
  omega

/-- One more fails. -/
theorem countP_lt (p q : RegisteredConsumer → Bool) {cs : List RegisteredConsumer}
    (hle : ∀ k, p k = true → q k = true) {k : RegisteredConsumer} (hk : k ∈ cs) (hp : p k = false)
    (hq : q k = true) : cs.countP p < cs.countP q := by
  obtain ⟨pre, post, rfl⟩ := List.append_of_mem hk
  have hpre : pre.countP p ≤ pre.countP q := List.countP_mono_left fun k _ => hle k
  have hpost : post.countP p ≤ post.countP q := List.countP_mono_left fun k _ => hle k
  rw [List.countP_append, List.countP_append, List.countP_cons, List.countP_cons, hp, hq]
  simp only [Bool.false_eq_true, if_false, if_true]
  omega

/-- A handler that always raises. -/
def always : Nat → Option String := fun _ => some "error"

/-- A handler that never raises. -/
def never : Nat → Option String := fun _ => none

variable {e : RegisteredConsumer}

theorem failsLess_never (raises : Nat → Handlers) (name : String) (pattern : Nat → Option String) :
    FailsLess (withHandler raises name never) (withHandler raises name pattern) := by
  intro t n h
  unfold withHandler at h ⊢
  by_cases hn : n = name
  · subst hn
    rw [Function.update_self] at h
    cases h
  · rw [Function.update_of_ne hn] at h ⊢
    exact h

theorem failsLess_always (raises : Nat → Handlers) (name : String) (pattern : Nat → Option String) :
    FailsLess (withHandler raises name pattern) (withHandler raises name always) := by
  intro t n h
  unfold withHandler at h ⊢
  by_cases hn : n = name
  · subst hn
    rw [Function.update_self]
    rfl
  · rw [Function.update_of_ne hn] at h ⊢
    exact h

/-- The other consumers do not notice. -/
theorem stuck_withHandler (raises : Nat → Handlers) (pattern : Nat → Option String)
    (hne : c.name ≠ e.name) (d : Delivery) (t : Nat) :
    d.stuck (withHandler raises e.name pattern) t c = d.stuck raises t c := by
  unfold Delivery.stuck withHandler
  simp only [Function.update_of_ne hne]

/-- **The condition.** If `e` fails in every tick, `c` fails up to tick `t`, and the attempts are
used up there for the first time, then they are used up there also if `e` never fails; and `c` is
not the one who has used them up, or it is the first tick and `c` comes before `e`. -/
def Insulated (r : Registry) (d : Delivery) (raises : Nat → Handlers) (c e : RegisteredConsumer) :
    Prop :=
  d.owed c = true → d.owed e = true → ∀ pre post t, r.entries = pre ++ c :: post →
    d.stuck raises t c = true →
    (∀ t' < t, ¬ d.UsedUp r (withHandler raises e.name always) t') →
    d.UsedUp r (withHandler raises e.name always) t →
    d.UsedUp r (withHandler raises e.name never) t ∧
      (d.spent r (withHandler raises e.name always) t
          + pre.countP (d.stuck (withHandler raises e.name always) t) + 1 < c.maxDeliveryAttempts ∨
        t = 0 ∧ e ∉ pre)

/-- What becomes of `c` is the same for all patterns of `e`. -/
def Independent (r : Registry) (eid : EventId) (now : Nat → Instant) (d : Delivery)
    (raises : Nat → Handlers) (c e : RegisteredConsumer) : Prop :=
  ∀ pattern pattern' n n',
    (d.ticks r eid now (withHandler raises e.name pattern) n).event.status ≠ .pending →
    (d.ticks r eid now (withHandler raises e.name pattern') n').event.status ≠ .pending →
    (d.ticks r eid now (withHandler raises e.name pattern) n).outcome c
      = (d.ticks r eid now (withHandler raises e.name pattern') n').outcome c

theorem EndsAt.lt_settled (h : EndsAt r d raises c t) (hc : c ∈ r.entries)
    (hpending : d.event.status = .pending) {n : Nat}
    (hn : (d.ticks r eid now raises n).event.status ≠ .pending) : t < n := by
  by_contra hle
  exact hn (h.underway eid now hc hpending (Nat.le_of_not_lt hle)).status

variable (r eid now raises) in
/-- **Every event is settled in the end.** -/
theorem exists_settled (hpending : d.event.status = .pending) :
    ∃ n, (d.ticks r eid now raises n).event.status ≠ .pending := by
  by_contra hnone
  push Not at hnone
  have hall : ∀ t, ∀ t' < t, ¬ d.UsedUp r raises t' ∧ r.entries.any (d.stuck raises t') = true := by
    intro t
    induction t with
    | zero => exact fun t' ht' => absurd ht' (Nat.not_lt_zero t')
    | succ t ih =>
        intro t' ht'
        rcases Nat.lt_succ_iff_lt_or_eq.mp ht' with hlt | rfl
        · exact ih t' hlt
        · have hbefore := ticks_underway eid now hpending t' ih
          have htick := tick_ticked eid (now t') (raises t') r hbefore.status
          have hnext : ((d.ticks r eid now raises t').tick eid (now t') (raises t') r).event.status
              = .pending := hnone (t' + 1)
          refine ⟨fun hused => ?_, ?_⟩
          · rw [htick.poisoned (hbefore.exhausted.mpr hused)] at hnext
            cases hnext
          · by_contra hany
            have hidle : r.entries.any ((d.ticks r eid now raises t').fails (raises t'))
                = false := by
              rw [Bool.eq_false_iff]
              intro hfails
              obtain ⟨k, hk, hfail⟩ := List.any_eq_true.mp hfails
              exact hany (List.any_eq_true.mpr ⟨k, hk, (hbefore.fails hk).symm.trans hfail⟩)
            rw [htick.dispatched hidle] at hnext
            cases hnext
  -- after more ticks than anybody has attempts, somebody is stuck with all attempts used up
  have hmax : ∀ k ∈ r.entries,
      k.maxDeliveryAttempts ≤ (r.entries.map fun k => k.maxDeliveryAttempts).sum :=
    fun k hk => List.le_sum_of_mem (List.mem_map.mpr ⟨k, hk, rfl⟩)
  obtain ⟨hused, hany⟩ := hall _ (r.entries.map fun k => k.maxDeliveryAttempts).sum
      (Nat.lt_succ_self _)
  obtain ⟨k, hk, hstuck⟩ := List.any_eq_true.mp hany
  obtain ⟨pre, post, hsplit⟩ := List.append_of_mem hk
  refine hused ⟨pre, k, post, hsplit, hstuck, ?_⟩
  have hspent := le_spent (r := r) _ fun t' ht' =>
    (hall (r.entries.map fun k => k.maxDeliveryAttempts).sum t' ht').2
  have hk' := hmax k hk
  omega

theorem Registry.eq_of_name {k : RegisteredConsumer} (hk : k ∈ r.entries) (he : e ∈ r.entries)
    (hname : k.name = e.name) : k = e :=
  List.inj_on_of_nodup_map r.nodup hk he hname

/-- Handlers that leave the same consumers stuck. -/
theorem spent_congr (h : ∀ t, ∀ k ∈ r.entries, d.stuck raises t k = d.stuck raises' t k) (t : Nat) :
    d.spent r raises t = d.spent r raises' t := by
  induction t with
  | zero => rfl
  | succ t ih =>
      unfold Delivery.spent
      rw [ih, List.countP_congr fun k hk => by rw [h t k hk]]

theorem EndsAt.congr (h : EndsAt r d raises c t) (hc : c ∈ r.entries)
    (heq : ∀ t, ∀ k ∈ r.entries, d.stuck raises t k = d.stuck raises' t k) :
    EndsAt r d raises' c t := by
  have hused : ∀ t, d.UsedUp r raises t ↔ d.UsedUp r raises' t := by
    intro t
    unfold Delivery.UsedUp
    rw [spent_congr heq t]
    exact ⟨fun hex => hex.congr fun k hk => (heq t k hk).symm,
      fun hex => hex.congr fun k hk => heq t k hk⟩
  refine ⟨?_, fun t' ht' => ?_⟩
  · rw [← heq t c hc, ← hused]
    exact h.ends
  · rw [← heq t' c hc, ← hused]
    exact h.first t' ht'

theorem stuck_of_le {t' : Nat} (h : d.stuck raises t c = true) (hle : t' ≤ t) :
    d.stuck raises t' c = true := by
  rw [stuck_iff] at h ⊢
  exact ⟨h.1, fun t'' ht'' => h.2 t'' (ht''.trans hle)⟩

/-- An event that is owed to a consumer has not been applied by it. -/
theorem outcome_applied (h : d.owed c = true) : (d.outcome c).applied = false := by
  unfold Delivery.owed at h
  rw [Bool.and_eq_true, decide_eq_true_eq] at h
  simp [Delivery.outcome, h.2]

section Independent

variable (hsplit : r.entries = pre ++ c :: post) (he : e ∈ r.entries) (hne : c.name ≠ e.name)

include hsplit he hne

/-- If `c` is insulated from `e`, its fate is decided at the same tick, in the same way. -/
theorem Insulated.endsAt (h : Insulated r d raises c e) (hc : d.owed c = true)
    (howed : d.owed e = true) (hend : EndsAt r d (withHandler raises e.name always) c t)
    (pattern : Nat → Option String) :
    EndsAt r d (withHandler raises e.name pattern) c t ∧
      finalOutcome r d (withHandler raises e.name pattern) c pre t
        = finalOutcome r d (withHandler raises e.name always) c pre t := by
  have hstuck := fun t => stuck_withHandler raises pattern hne d t
  have hstuck' := fun t => stuck_withHandler raises always hne d t
  have hless := failsLess_always raises e.name pattern
  have hfirst : ∀ t' < t, d.stuck (withHandler raises e.name pattern) t' c = true ∧
      ¬ d.UsedUp r (withHandler raises e.name pattern) t' := by
    intro t' ht'
    obtain ⟨hst, hused⟩ := hend.first t' ht'
    rw [hstuck'] at hst
    exact ⟨by rw [hstuck]; exact hst, fun hu => hused (hless.usedUp hu)⟩
  by_cases hst : d.stuck raises t c = true
  · have hused := hend.ends.resolve_left (by rw [hstuck', hst]; decide)
    obtain ⟨hnever, hlow⟩ := h hc howed pre post t hsplit hst (fun t' ht' => (hend.first t' ht').2)
      hused
    refine ⟨⟨.inr ((failsLess_never raises e.name pattern).usedUp hnever), hfirst⟩, ?_⟩
    unfold finalOutcome
    rw [hstuck, hstuck', if_pos hst, if_pos hst]
    rcases hlow with hlow | ⟨rfl, hpre⟩
    · -- `c` is not the one who has used the attempts up
      have hspent := hless.spent r d t
      have hcount := hless.countP d t pre
      unfold ConsumerOutcome.failed
      rw [if_neg (by omega), if_neg (by omega)]
    · -- nothing has been spent because of `e` when `c` fails
      have hsame : pre.countP (d.stuck (withHandler raises e.name pattern) 0)
          = pre.countP (d.stuck (withHandler raises e.name always) 0) := by
        refine List.countP_congr fun k hk => ?_
        have hke : k.name ≠ e.name := fun hname => hpre
          (Registry.eq_of_name (by rw [hsplit]; simp [hk]) he hname ▸ hk)
        rw [stuck_withHandler raises pattern hke, stuck_withHandler raises always hke]
      rw [hsame]
      rfl
  · rw [Bool.not_eq_true] at hst
    refine ⟨⟨.inl (by rw [hstuck]; exact hst), hfirst⟩, ?_⟩
    unfold finalOutcome
    rw [hstuck, hstuck', hst]
    rfl

/-- Otherwise the two extremes tell the patterns apart. -/
theorem Independent.insulated (hpending : d.event.status = .pending)
    (h : Independent r eid now d raises c e) : Insulated r d raises c e := by
  intro hc howed pre' post' t hsplit' hst hfirst hused
  have hmem : c ∈ r.entries := by rw [hsplit]; simp
  have hstuck := fun pattern t => stuck_withHandler raises pattern hne d t
  have hend : EndsAt r d (withHandler raises e.name always) c t := by
    refine ⟨.inr hused, fun t' ht' => ⟨?_, hfirst t' ht'⟩⟩
    rw [hstuck]
    exact stuck_of_le hst ht'.le
  obtain ⟨t', hend'⟩ := exists_endsAt d (withHandler raises e.name never) hsplit'
  obtain ⟨n, hn⟩ := exists_settled eid r (withHandler raises e.name always) now hpending
  obtain ⟨n', hn'⟩ := exists_settled eid r (withHandler raises e.name never) now hpending
  have heq := h always never n n' hn hn'
  rw [hend.outcome hsplit' hpending hc (hend.lt_settled hmem hpending hn),
    hend'.outcome hsplit' hpending hc (hend'.lt_settled hmem hpending hn')] at heq
  unfold finalOutcome at heq
  rw [hstuck, hstuck, if_pos hst] at heq
  -- not applied with `always`, so not with `never`
  have hst' : d.stuck raises t' c = true := by
    by_contra hfree
    rw [if_neg hfree] at heq
    have happlied := congrArg ConsumerOutcome.applied heq
    have hfalse : ((d.outcome c).after t).applied = false := outcome_applied hc
    exact absurd (hfalse.symm.trans happlied) (by simp)
  rw [if_pos hst'] at heq
  have hcalls := congrArg ConsumerOutcome.failedCalls heq
  have htt' : t' = t := by
    simp only [ConsumerOutcome.failed, ConsumerOutcome.after] at hcalls
    omega
  subst htt'
  refine ⟨hend'.ends.resolve_left (by rw [hstuck, hst]; decide), ?_⟩
  by_contra hnot
  push Not at hnot
  obtain ⟨hmax, hplace⟩ := hnot
  have hrecorded := List.append_cancel_left (congrArg ConsumerOutcome.recorded heq)
  rw [if_pos hmax] at hrecorded
  -- what `e` has spent is missing with `never`
  have hless := failsLess_never raises e.name always
  have hspent := hless.spent r d t'
  have hcount := hless.countP d t' pre'
  have he0 : ∀ t, d.stuck (withHandler raises e.name never) t e = false := by
    intro t
    rw [Bool.eq_false_iff]
    intro hbad
    have hsome := (stuck_iff.mp hbad).2 0 (Nat.zero_le t)
    simp [withHandler, never] at hsome
  have he1 : ∀ t, d.stuck (withHandler raises e.name always) t e = true := by
    intro t
    exact stuck_iff.mpr ⟨howed, fun t' _ => by simp [withHandler, always]⟩
  have hlt : d.spent r (withHandler raises e.name never) t'
        + pre'.countP (d.stuck (withHandler raises e.name never) t')
      < d.spent r (withHandler raises e.name always) t'
        + pre'.countP (d.stuck (withHandler raises e.name always) t') := by
    cases t' with
    | zero =>
        have hin : e ∈ pre' := hplace rfl
        have hmore := countP_lt (d.stuck _ 0) (d.stuck _ 0) (fun k hk => hless.stuck hk) hin
            (he0 0) (he1 0)
        omega
    | succ t' =>
        have hmore := countP_lt (d.stuck _ t') (d.stuck _ t')
            (fun k hk => hless.stuck hk) he (he0 t')
          (he1 t')
        have hbefore := hless.spent r d t'
        show d.spent r (withHandler raises e.name never) t' + r.entries.countP _ + _
          < d.spent r (withHandler raises e.name always) t' + r.entries.countP _ + _
        omega
  split at hrecorded
  · have hsame := (List.cons.inj hrecorded).1
    omega
  · cases hrecorded

end Independent

/-- **Consumers are independent** exactly if they are insulated. An event is settled for every
pattern. -/
theorem independent_iff (r : Registry) (eid : EventId) (now : Nat → Instant) (d : Delivery)
    (raises : Nat → Handlers) {c e : RegisteredConsumer} (hpending : d.event.status = .pending)
    (hc : c ∈ r.entries) (he : e ∈ r.entries) (hne : c.name ≠ e.name) :
    (∀ pattern, ∃ n,
      (d.ticks r eid now (withHandler raises e.name pattern) n).event.status ≠ .pending) ∧
    (Independent r eid now d raises c e ↔ Insulated r d raises c e) := by
  obtain ⟨pre, post, hsplit⟩ := List.append_of_mem hc
  refine ⟨fun pattern => exists_settled eid r _ now hpending,
    fun h => Independent.insulated hsplit he hne hpending h, fun h => ?_⟩
  intro pattern pattern' n n' hn hn'
  by_cases howed : d.owed c = true
  · -- next to a handler that always fails, its fate is settled at some tick
    obtain ⟨t, hend⟩ := exists_endsAt d (withHandler raises e.name always) hsplit
    -- and it is the same whatever that handler does
    have hfate : ∀ pattern n,
        (d.ticks r eid now (withHandler raises e.name pattern) n).event.status ≠ .pending →
        (d.ticks r eid now (withHandler raises e.name pattern) n).outcome c
          = finalOutcome r d (withHandler raises e.name always) c pre t := by
      intro pattern n hn
      by_cases howed' : d.owed e = true
      · obtain ⟨hend', hfinal⟩ := h.endsAt hsplit he hne howed howed' hend pattern
        rw [hend'.outcome hsplit hpending howed (hend'.lt_settled hc hpending hn), hfinal]
      · -- the handler of `e` is not called
        have heq : ∀ t, ∀ k ∈ r.entries, d.stuck (withHandler raises e.name always) t k
            = d.stuck (withHandler raises e.name pattern) t k := by
          intro t k hk
          by_cases hname : k.name = e.name
          · cases Registry.eq_of_name hk he hname
            simp [Delivery.stuck, howed']
          · rw [stuck_withHandler raises pattern hname, stuck_withHandler raises always hname]
        have hend' := hend.congr hc heq
        rw [hend'.outcome hsplit hpending howed (hend'.lt_settled hc hpending hn)]
        have hcount : pre.countP (d.stuck (withHandler raises e.name always) t)
            = pre.countP (d.stuck (withHandler raises e.name pattern) t) :=
          List.countP_congr fun k hk => by rw [heq t k (by rw [hsplit]; simp [hk])]
        unfold finalOutcome
        rw [← heq t c hc, spent_congr heq t, hcount]
    rw [hfate pattern n hn, hfate pattern' n' hn']
  · rw [Bool.not_eq_true] at howed
    -- what is not owed is skipped at every tick
    have hidle : ∀ pattern n, (d.ticks r eid now (withHandler raises e.name pattern) n).outcome c
        = d.outcome c := by
      intro pattern n
      have hskip := ticks_skipped eid d (withHandler raises e.name pattern) now (n := 0) hc howed n
      rw [Nat.zero_add] at hskip
      exact hskip.2
    rw [hidle, hidle]

/-! ## Two consumers -/

/-- Two consumers of everything, with ten attempts each. -/
def controllerConsumer : RegisteredConsumer where
  name := "pipeline-controller"
  handles := fun _ => true

def notifierConsumer : RegisteredConsumer where
  name := "notifier"
  handles := fun _ => true

def twoConsumers : Registry :=
  ⟨[controllerConsumer, notifierConsumer], by decide⟩

/-- A new event. -/
def newDelivery : Delivery where
  event :=
    { workspaceId := 0
      eventType := "review.approved"
      aggregate := ⟨"pipeline_run", 0⟩
      sequence := 1
      occurredAt := 0 }

/-- The first consumer fails in the first `n` ticks. -/
def failsFirst (n : Nat) : Nat → Handlers :=
  fun t name => if name = controllerConsumer.name ∧ t < n then some "error" else none

/-- The ticks of the new event, with a pattern for the second consumer. -/
def sharedTicks (n : Nat) (pattern : Nat → Option String) : Nat → Delivery :=
  newDelivery.ticks twoConsumers 0 (fun _ => 0)
    (withHandler (failsFirst n) notifierConsumer.name pattern)

/-- A handler that fails five times is called a sixth time and returns, unless the other consumer
keeps failing: then the event is over after five ticks, for both. -/
theorem failing_consumer_starves_other :
    ((sharedTicks 5 never 6).event.status = .dispatched ∧
      (sharedTicks 5 never 6).outcome controllerConsumer = ⟨true, 5, []⟩) ∧
    ((sharedTicks 5 always 5).event.status = .poison ∧
      (sharedTicks 5 always 5).outcome controllerConsumer = ⟨false, 5, []⟩) ∧
    ¬ Independent twoConsumers 0 (fun _ => 0) newDelivery (failsFirst 5) controllerConsumer
      notifierConsumer := by
  have hnever : (sharedTicks 5 never 6).event.status = .dispatched ∧
      (sharedTicks 5 never 6).outcome controllerConsumer = ⟨true, 5, []⟩ := by decide +kernel
  have halways : (sharedTicks 5 always 5).event.status = .poison ∧
      (sharedTicks 5 always 5).outcome controllerConsumer = ⟨false, 5, []⟩ := by decide +kernel
  refine ⟨hnever, halways, fun h => ?_⟩
  have hsame : (sharedTicks 5 never 6).outcome controllerConsumer
      = (sharedTicks 5 always 5).outcome controllerConsumer :=
    h never always 6 5 (by rw [← sharedTicks, hnever.1]; decide)
      (by rw [← sharedTicks, halways.1]; decide)
  rw [hnever.2, halways.2] at hsame
  exact absurd hsame (by decide)

/-- A handler that does not fail is not affected. -/
theorem working_consumer_independent :
    Independent twoConsumers 0 (fun _ => 0) newDelivery (failsFirst 0) controllerConsumer
      notifierConsumer := by
  refine (independent_iff twoConsumers 0 (fun _ => 0) newDelivery (failsFirst 0) rfl
    List.mem_cons_self (List.mem_cons_of_mem _ List.mem_cons_self) (by decide)).2.mpr ?_
  intro _ _ pre post t _ hstuck
  have hsome := (stuck_iff.mp hstuck).2 0 (Nat.zero_le t)
  simp [failsFirst] at hsome

end HumanGate
