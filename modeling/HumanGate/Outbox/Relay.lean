import HumanGate.Model.Relay

set_option autoImplicit false

/-! # What the relay delivers

The relay's memory of what a consumer has applied is one number for each aggregate, while every
event is retried on its own. When a call succeeds on an event, the number passes every earlier
event of the aggregate, and one that is still pending there counts as applied from then on: it is
marked as dispatched without a call (`failed_event_passed_over`).

As long as no call succeeds ahead of an earlier pending event (`InOrder`), no event is passed over:
the number is below every pending event that the consumer handles, in the tables and in every
session (`RelayTick.Fits`). Then every handler call is accounted for by the event.
-/

namespace HumanGate

open Lib Lib.Calendar

/-! ## The property -/

/-- The calls for one event. -/
def callsOf (calls : List HandlerCall) (eid : EventId) : List HandlerCall :=
  calls.filter fun c => c.eventId == eid

/-- The entries of the consumer for one event. -/
def lettersOf (consumer : EventConsumer) (letters : List DeadLetterJob) (eid : EventId) :
    List DeadLetterJob :=
  letters.filter fun l =>
    l.relatedId == .outboxEvent eid && l.jobType == "event_consumer:" ++ consumer.name

def successes (calls : List HandlerCall) : Nat := calls.countP fun c => c.raised.isNone

def failures (calls : List HandlerCall) : Nat := calls.countP fun c => c.raised.isSome

/-- The handler completed exactly once. -/
def RelayDb.HandledOnce (db : RelayDb) (eid : EventId) : Prop :=
  successes (callsOf db.calls eid) = 1

/-- The consumer has an entry for the event, after all the calls it may have failed. -/
def RelayDb.GivenUp (consumer : EventConsumer) (db : RelayDb) (eid : EventId) : Prop :=
  failures (callsOf db.calls eid) = maxDeliveryAttempts ∧
    ∃ l ∈ lettersOf consumer db.deadLetters eid, l.attemptCount = maxDeliveryAttempts

instance (db : RelayDb) (eid : EventId) : Decidable (db.HandledOnce eid) :=
  inferInstanceAs (Decidable (_ = _))

instance (consumer : EventConsumer) (db : RelayDb) (eid : EventId) :
    Decidable (db.GivenUp consumer eid) :=
  inferInstanceAs (Decidable (_ ∧ ∃ l ∈ lettersOf consumer db.deadLetters eid, _))

/-- A handled event that is no longer pending was handled once or given up. -/
def RelayDb.Delivers (consumer : EventConsumer) (db : RelayDb) : Prop :=
  ∀ eid e, db.events[eid]? = some e → consumer.handles e.eventType = true → e.status ≠ .pending →
    db.HandledOnce eid ∨ db.GivenUp consumer eid

/-! ## The condition -/

/-- No call succeeds on an event while an earlier event of the aggregate that the consumer handles
is pending, as the tick sees it. -/
def InOrder (consumer : EventConsumer) (s : Relay) : RelayAction → Prop
  | .dispatch i _ none => ∀ t ∈ s.ticks[i]?, ∀ eid ∈ t.todo.head?, ∀ e ∈ s.db.events[eid]?,
      consumer.handles e.eventType = true → t.applied s.db e = false →
        ∀ eid' ∈ List.range s.db.events.length, ∀ e' ∈ t.view s.db eid',
          consumer.handles e'.eventType = true → e'.aggregate = e.aggregate →
            e'.sequence < e.sequence → e'.status ≠ .pending
  | _ => True

/-! ## Accounts -/

/-- The calls and the entries of an event that the consumer handles. -/
structure RelayEvent.Accounted (e : RelayEvent) (calls : List HandlerCall)
    (letters : List DeadLetterJob) : Prop where
  successes : successes calls = if e.status = .dispatched then 1 else 0
  failures : failures calls = e.deliveryAttempts
  pending : e.status = .pending → e.deliveryAttempts < maxDeliveryAttempts
  poison : e.status = .poison → e.deliveryAttempts = maxDeliveryAttempts ∧
    ∃ l ∈ letters, l.attemptCount = maxDeliveryAttempts

@[simp] theorem callsOf_append (calls calls' : List HandlerCall) (eid : EventId) :
    callsOf (calls ++ calls') eid = callsOf calls eid ++ callsOf calls' eid :=
  List.filter_append ..

@[simp] theorem lettersOf_append (consumer : EventConsumer) (letters letters' : List DeadLetterJob)
    (eid : EventId) : lettersOf consumer (letters ++ letters') eid
      = lettersOf consumer letters eid ++ lettersOf consumer letters' eid :=
  List.filter_append ..

theorem callsOf_one (eid eid' : EventId) (raised : Option String) :
    callsOf [⟨eid', raised⟩] eid = if eid' = eid then [⟨eid', raised⟩] else [] := by
  by_cases h : eid' = eid <;> simp [callsOf, h]

theorem lettersOf_poison (consumer : EventConsumer) (now : Instant) (eid eid' : EventId)
    (e : RelayEvent) (text : String) :
    lettersOf consumer [poisonLetter consumer now eid' e text] eid
      = if eid' = eid then [poisonLetter consumer now eid' e text] else [] := by
  by_cases h : eid' = eid <;> simp [lettersOf, poisonLetter, h]

theorem callsOf_eq_nil {calls : List HandlerCall} {eid : EventId}
    (h : ∀ c ∈ calls, c.eventId ≠ eid) : callsOf calls eid = [] := by
  unfold callsOf
  rw [List.filter_eq_nil_iff]
  intro c hc
  simpa using h c hc

theorem lettersOf_eq_nil {consumer : EventConsumer} {letters : List DeadLetterJob} {eid : EventId}
    (h : ∀ l ∈ letters, l.relatedId ≠ .outboxEvent eid) : lettersOf consumer letters eid = [] := by
  unfold lettersOf
  rw [List.filter_eq_nil_iff]
  intro l hl
  simp [h l hl]

/-- After a call that returned. -/
theorem RelayEvent.Accounted.dispatch {e : RelayEvent} {calls : List HandlerCall}
    {letters : List DeadLetterJob} (h : e.Accounted calls letters) (hp : e.status = .pending)
    (eid : EventId) : e.dispatched.Accounted (calls ++ [⟨eid, none⟩]) letters := by
  have hs := h.successes
  rw [hp, if_neg (by decide)] at hs
  refine ⟨?_, ?_, ?_, ?_⟩
  · show HumanGate.successes (calls ++ [⟨eid, none⟩]) = 1
    unfold HumanGate.successes at hs ⊢
    rw [List.countP_append, hs]
    rfl
  · show HumanGate.failures (calls ++ [⟨eid, none⟩]) = e.deliveryAttempts
    unfold HumanGate.failures
    rw [List.countP_append]
    exact h.failures
  · intro hpend
    cases hpend
  · intro hpoison
    cases hpoison

/-- After a call that raised. -/
theorem RelayEvent.Accounted.fail {e : RelayEvent} {calls : List HandlerCall}
    {letters : List DeadLetterJob} (h : e.Accounted calls letters) (hp : e.status = .pending)
    (consumer : EventConsumer) (now : Instant) (eid : EventId) (text : String) :
    e.fail.Accounted (calls ++ [⟨eid, some text⟩])
      (if maxDeliveryAttempts ≤ e.deliveryAttempts + 1 then
        letters ++ [poisonLetter consumer now eid e text] else letters) := by
  have hs := h.successes
  rw [hp, if_neg (by decide)] at hs
  have hbound := h.pending hp
  have hsucc : HumanGate.successes (calls ++ [⟨eid, some text⟩]) = 0 := by
    unfold HumanGate.successes at hs ⊢
    rw [List.countP_append, hs]
    rfl
  have hfail : HumanGate.failures (calls ++ [⟨eid, some text⟩]) = e.deliveryAttempts + 1 := by
    have hf := h.failures
    unfold HumanGate.failures at hf ⊢
    rw [List.countP_append, hf]
    rfl
  by_cases hmax : maxDeliveryAttempts ≤ e.deliveryAttempts + 1
  · have hst : e.fail.status = .poison := by simp [RelayEvent.fail, hmax]
    have heq : e.deliveryAttempts + 1 = maxDeliveryAttempts := by omega
    refine ⟨by rw [hsucc, hst]; rfl, hfail, ?_, fun _ => ⟨heq, ?_⟩⟩
    · rw [hst]
      intro h
      cases h
    · rw [if_pos hmax]
      exact ⟨_, List.mem_append_right _ (List.mem_singleton_self _), heq⟩
  · have hst : e.fail.status = .pending := by simp [RelayEvent.fail, hmax, hp]
    refine ⟨by rw [hsucc, hst]; rfl, hfail, fun _ => ?_, ?_⟩
    · show e.deliveryAttempts + 1 < maxDeliveryAttempts
      omega
    · rw [hst]
      intro h
      cases h

/-! ## What a tick sees -/

section View

variable {db : RelayDb} {t : RelayTick}

theorem RelayTick.view_write (eid eid' : EventId) (e : RelayEvent) :
    (t.write eid e).view db eid' = if eid' = eid then some e else t.view db eid' := by
  unfold RelayTick.view RelayTick.write
  by_cases h : eid' = eid
  · subst h; simp
  · simp [h]

/-- The columns that no write changes. -/
def RelayEvent.SameKey (e' e : RelayEvent) : Prop :=
  e'.eventType = e.eventType ∧ e'.aggregate = e.aggregate ∧ e'.sequence = e.sequence

theorem RelayEvent.sameKey_refl (e : RelayEvent) : e.SameKey e := ⟨rfl, rfl, rfl⟩

theorem RelayEvent.sameKey_dispatched (e : RelayEvent) : e.dispatched.SameKey e := ⟨rfl, rfl, rfl⟩

theorem RelayEvent.sameKey_fail (e : RelayEvent) : e.fail.SameKey e := ⟨rfl, rfl, rfl⟩

/-- A checkpoint that is below every handled event of the aggregate that is seen as pending. -/
def MarkBelow (consumer : EventConsumer) (view : EventId → Option RelayEvent) (agg : Aggregate)
    (last : Nat) : Prop :=
  ∀ eid e, view eid = some e → consumer.handles e.eventType = true → e.aggregate = agg →
    e.status = .pending → last < e.sequence

/-- The invariant of a tick. `mark` is the point: the checkpoint in the session is below every
handled event that the tick sees as pending. -/
structure RelayTick.Fits (consumer : EventConsumer) (db : RelayDb) (t : RelayTick) : Prop where
  todo : t.todo <:+ t.batch
  nodup : t.batch.Nodup
  pending : ∀ eid ∈ t.batch, ∃ e, db.events[eid]? = some e ∧ e.status = .pending
  written : ∀ eid e', t.written eid = some e' → eid ∈ t.batch ∧ eid ∉ t.todo ∧
    ∃ e, db.events[eid]? = some e ∧ e'.SameKey e
  calls : ∀ c ∈ t.calls, c.eventId ∈ t.batch
  letters : ∀ l ∈ t.deadLetters, ∃ eid ∈ t.batch, l.relatedId = .outboxEvent eid
  account : ∀ eid e, t.view db eid = some e → consumer.handles e.eventType = true →
    e.Accounted (callsOf (db.calls ++ t.calls) eid)
      (lettersOf consumer (db.deadLetters ++ t.deadLetters) eid)
  mark : ∀ agg last, t.lastSequence agg = some last → MarkBelow consumer (t.view db) agg last

/-- The invariant of the relay. What holds of the tables is what holds of a tick that has done
nothing yet. -/
structure RelayInv (consumer : EventConsumer) (s : Relay) : Prop where
  numbered : ∀ (eid eid' : EventId) (e e' : RelayEvent), s.db.events[eid]? = some e →
    s.db.events[eid']? = some e' → e.aggregate = e'.aggregate →
      e.sequence = e'.sequence → eid = eid'
  positive : ∀ e ∈ s.db.events, 0 < e.sequence
  idle : ({} : RelayTick).Fits consumer s.db
  mark : ∀ agg last, s.db.lastSequence agg = some last →
    MarkBelow consumer (fun eid => s.db.events[eid]?) agg last
  ticks : ∀ t ∈ s.ticks, t.Fits consumer s.db
  apart : ∀ (i j : Nat) (t u : RelayTick), s.ticks[i]? = some t → s.ticks[j]? = some u → i ≠ j →
    ∀ eid ∈ t.batch, eid ∉ u.batch

variable {consumer : EventConsumer}

/-- What the tick sees of an event that is there. -/
theorem RelayTick.Fits.seen (h : t.Fits consumer db) {eid : EventId} {e' : RelayEvent}
    (hv : t.view db eid = some e') :
    ∃ e, db.events[eid]? = some e ∧ e'.SameKey e ∧
      (e'.status = .pending → e.status = .pending) := by
  unfold RelayTick.view at hv
  cases hw : t.written eid with
  | none =>
      rw [hw] at hv
      exact ⟨e', hv, e'.sameKey_refl, id⟩
  | some e₀ =>
      obtain ⟨hb, _, e, he, hkey⟩ := h.written eid e₀ hw
      rw [hw] at hv
      cases hv
      obtain ⟨e₁, he₁, hp⟩ := h.pending eid hb
      rw [he] at he₁
      cases he₁
      exact ⟨e, he, hkey, fun _ => hp⟩

/-- The next event of the batch is as it was locked. -/
theorem RelayTick.Fits.view_next (h : t.Fits consumer db) {eid : EventId} (hm : eid ∈ t.todo) :
    t.view db eid = db.events[eid]? := by
  unfold RelayTick.view
  cases hw : t.written eid with
  | none => rfl
  | some e => exact absurd hm (h.written eid e hw).2.1

/-! ## Dispatching one event -/

theorem RelayTick.loadCheckpoint_eq (t : RelayTick) (db : RelayDb) (agg : Aggregate) :
    t.loadCheckpoint db agg = { t with
      lastSequence := (t.loadCheckpoint db agg).lastSequence
      inserted := (t.loadCheckpoint db agg).inserted } := by
  unfold RelayTick.loadCheckpoint
  split <;> rfl

theorem RelayTick.loadCheckpoint_last (t : RelayTick) (db : RelayDb) (agg agg' : Aggregate) :
    (t.loadCheckpoint db agg).lastSequence agg'
      = if agg' = agg then (t.lastSequence agg).or (some ((db.lastSequence agg).getD 0))
        else t.lastSequence agg' := by
  unfold RelayTick.loadCheckpoint
  by_cases hne : agg' = agg
  · subst hne
    split <;> simp [*]
  · split <;> simp [hne]

/-- A checkpoint that is loaded or inserted is below the pending events too. -/
theorem RelayTick.Fits.loadCheckpoint (h : t.Fits consumer db) (agg : Aggregate)
    (hpos : ∀ e ∈ db.events, 0 < e.sequence)
    (hmark : ∀ last, db.lastSequence agg = some last →
      MarkBelow consumer (fun eid => db.events[eid]?) agg last) :
    (t.loadCheckpoint db agg).Fits consumer db := by
  have heq := t.loadCheckpoint_eq db agg
  have hsame : (t.loadCheckpoint db agg).view db = t.view db := by
    rw [heq]
    rfl
  refine ⟨by rw [heq]; exact h.todo, by rw [heq]; exact h.nodup, by rw [heq]; exact h.pending,
    by rw [heq]; exact h.written, by rw [heq]; exact h.calls, by rw [heq]; exact h.letters,
    by rw [heq]; exact h.account, ?_⟩
  intro agg' last hlast
  rw [RelayTick.loadCheckpoint_last] at hlast
  rw [hsame]
  by_cases hne : agg' = agg
  · subst hne
    rw [if_pos rfl] at hlast
    cases hold : t.lastSequence agg' with
    | some last₀ =>
        rw [hold] at hlast
        cases hlast
        exact h.mark agg' last hold
    | none =>
        rw [hold] at hlast
        intro eid e hv hh hagg hp
        -- what is pending for the tick is pending in the tables
        obtain ⟨e₀, he₀, ⟨htype, hag, hseq⟩, hpend⟩ := h.seen hv
        rw [hseq]
        cases hdb : db.lastSequence agg' with
        | none =>
            rw [hdb] at hlast
            cases hlast
            exact hpos e₀ (Table.mem_of_get he₀)
        | some last₀ =>
            rw [hdb] at hlast
            cases hlast
            exact hmark _ hdb eid e₀ he₀ (htype ▸ hh) (hag ▸ hagg) (hpend hp)
  · rw [if_neg hne] at hlast
    exact h.mark agg' last hlast

/-- The tick after it has written the next event of its batch, with the calls and the entries for
it. -/
theorem RelayTick.Fits.advance (h : t.Fits consumer db) {eid : EventId} {rest : List EventId}
    {e e' : RelayEvent} {marks : Aggregate → Option Nat} {inserted advanced : List Aggregate}
    {cs calls : List HandlerCall} {ls letters : List DeadLetterJob} (htodo : t.todo = eid :: rest)
    (he : db.events[eid]? = some e) (hkey : e'.SameKey e) (hcs : ∀ c ∈ cs, c.eventId = eid)
    (hls : ∀ l ∈ ls, l.relatedId = .outboxEvent eid) (hcalls : calls = t.calls ++ cs)
    (hletters : letters = t.deadLetters ++ ls)
    (haccount : consumer.handles e.eventType = true →
      e'.Accounted (callsOf (db.calls ++ t.calls) eid ++ callsOf cs eid)
        (lettersOf consumer (db.deadLetters ++ t.deadLetters) eid ++ lettersOf consumer ls eid))
    (hmark : ∀ agg last, marks agg = some last →
      MarkBelow consumer ((t.write eid e').view db) agg last) :
    ({ t with
      todo := rest
      written := Function.update t.written eid (some e')
      lastSequence := marks
      inserted := inserted
      advanced := advanced
      calls := calls
      deadLetters := letters } : RelayTick).Fits consumer db := by
  subst hcalls hletters
  have hsuffix : rest <:+ t.batch := ((List.suffix_cons eid rest).trans (htodo ▸ h.todo))
  have hmem : eid ∈ t.batch := h.todo.subset (by rw [htodo]; exact List.mem_cons_self)
  -- an event is in the batch once
  have hnot : eid ∉ rest := by
    have hnodup := h.todo.sublist.nodup h.nodup
    rw [htodo] at hnodup
    exact (List.nodup_cons.mp hnodup).1
  refine ⟨hsuffix, h.nodup, h.pending, ?_, ?_, ?_, ?_, hmark⟩
  · intro eid' e₁ hw
    by_cases hne : eid' = eid
    · subst hne
      have heq : e' = e₁ := by simpa using hw
      subst heq
      exact ⟨hmem, hnot, e, he, hkey⟩
    · have hold : t.written eid' = some e₁ := by simpa [hne] using hw
      obtain ⟨hb, hn, hrest⟩ := h.written eid' e₁ hold
      refine ⟨hb, fun hin => hn ?_, hrest⟩
      rw [htodo]
      exact List.mem_cons_of_mem _ hin
  · intro c hc
    rcases List.mem_append.mp hc with hc | hc
    · exact h.calls c hc
    · rw [hcs c hc]
      exact hmem
  · intro l hl
    rcases List.mem_append.mp hl with hl | hl
    · exact h.letters l hl
    · exact ⟨eid, hmem, hls l hl⟩
  · intro eid' e₁ hv hh
    have hview : (t.write eid e').view db eid' = some e₁ := hv
    rw [RelayTick.view_write] at hview
    show e₁.Accounted (callsOf (db.calls ++ (t.calls ++ cs)) eid')
      (lettersOf consumer (db.deadLetters ++ (t.deadLetters ++ ls)) eid')
    rw [← List.append_assoc, ← List.append_assoc, callsOf_append, lettersOf_append]
    by_cases hne : eid' = eid
    · subst hne
      rw [if_pos rfl] at hview
      cases hview
      exact haccount (hkey.1 ▸ hh)
    · -- of other events nothing is written in this step
      rw [if_neg hne] at hview
      have hcs' : callsOf cs eid' = [] :=
        callsOf_eq_nil fun c hc => by rw [hcs c hc]; exact fun h => hne h.symm
      have hls' : lettersOf consumer ls eid' = [] :=
        lettersOf_eq_nil fun l hl => by
          rw [hls l hl]
          exact fun h => hne (RelatedId.outboxEvent.inj h).symm
      rw [hcs', hls', List.append_nil, List.append_nil]
      exact h.account eid' e₁ hview hh

/-- What is pending after a write was pending before, unless it is the written event. -/
theorem MarkBelow.write {agg : Aggregate} {last : Nat} {eid : EventId} {e' : RelayEvent}
    (h : MarkBelow consumer (t.view db) agg last)
    (heid : e'.aggregate = agg → consumer.handles e'.eventType = true → e'.status = .pending →
      last < e'.sequence) : MarkBelow consumer ((t.write eid e').view db) agg last := by
  intro eid' e₁ hv hh hagg hp
  rw [RelayTick.view_write] at hv
  by_cases hne : eid' = eid
  · rw [if_pos hne] at hv
    cases hv
    exact heid hagg hh hp
  · rw [if_neg hne] at hv
    exact h eid' e₁ hv hh hagg hp

theorem RelayTick.dispatchOne_batch (t : RelayTick) (db : RelayDb) (consumer : EventConsumer)
    (now : Instant) (eid : EventId) (e : RelayEvent) (raised : Option String) :
    (t.dispatchOne db consumer now eid e raised).batch = t.batch := by
  unfold RelayTick.dispatchOne
  rw [t.loadCheckpoint_eq db e.aggregate]
  split
  · rfl
  · split
    · rfl
    · cases raised <;> rfl

/-- A handled event of the batch is never passed over, and the tick goes on. -/
theorem RelayTick.Fits.dispatchOne (h : t.Fits consumer db)
    (hpos : ∀ e ∈ db.events, 0 < e.sequence)
    (hmark : ∀ agg last, db.lastSequence agg = some last →
      MarkBelow consumer (fun eid => db.events[eid]?) agg last)
    (hnum : ∀ (eid eid' : EventId) (e e' : RelayEvent), db.events[eid]? = some e →
      db.events[eid']? = some e' → e.aggregate = e'.aggregate → e.sequence = e'.sequence →
        eid = eid')
    {eid : EventId} {rest : List EventId} {e : RelayEvent} (htodo : t.todo = eid :: rest)
    (he : db.events[eid]? = some e) (now : Instant) (raised : Option String)
    (horder : raised = none → consumer.handles e.eventType = true → t.applied db e = false →
      ∀ eid' e', t.view db eid' = some e' → consumer.handles e'.eventType = true →
        e'.aggregate = e.aggregate → e'.sequence < e.sequence → e'.status ≠ .pending) :
    ({ t.dispatchOne db consumer now eid e raised with todo := rest } : RelayTick).Fits
      consumer db := by
  unfold RelayTick.dispatchOne
  by_cases hh : consumer.handles e.eventType = false
  · rw [if_pos hh]
    have hnone : ¬ consumer.handles e.eventType = true := by rw [hh]; decide
    refine h.advance htodo he e.sameKey_dispatched (by simp) (by simp) (List.append_nil _).symm
      (List.append_nil _).symm (fun hyes => absurd hyes hnone) fun agg last hlast => ?_
    exact (h.mark agg last hlast).write fun _ hyes => absurd hyes hnone
  · rw [if_neg hh]
    have hyes : consumer.handles e.eventType = true := by simpa using hh
    have h1 := h.loadCheckpoint e.aggregate hpos (hmark e.aggregate)
    have hview : (t.loadCheckpoint db e.aggregate).view db = t.view db := by
      rw [t.loadCheckpoint_eq db e.aggregate]
      rfl
    have htodo1 : (t.loadCheckpoint db e.aggregate).todo = eid :: rest := by
      rw [t.loadCheckpoint_eq db e.aggregate]
      exact htodo
    have hmem : eid ∈ t.todo := by rw [htodo]; exact List.mem_cons_self
    have hseen : (t.loadCheckpoint db e.aggregate).view db eid = some e := by
      rw [hview, h.view_next hmem, he]
    have hp : e.status = .pending := by
      obtain ⟨e₀, he₀, hp⟩ := h.pending eid (h.todo.subset hmem)
      rw [he] at he₀
      cases he₀
      exact hp
    -- the checkpoint in the session is below the event
    have hbelow : t.applied db e = false := by
      unfold RelayTick.applied
      have hlast := t.loadCheckpoint_last db e.aggregate e.aggregate
      rw [if_pos rfl] at hlast
      cases hl : (t.loadCheckpoint db e.aggregate).lastSequence e.aggregate with
      | none =>
          rw [hl] at hlast
          cases ht : t.lastSequence e.aggregate <;> rw [ht] at hlast <;> cases hlast
      | some last =>
          have hlt := h1.mark e.aggregate last hl eid e hseen hyes rfl hp
          simpa using hlt
    have horder' := fun hr => horder hr hyes hbelow
    rw [hbelow]
    simp only [Bool.false_eq_true, if_false]
    rw [← hview] at horder'
    generalize t.loadCheckpoint db e.aggregate = t1 at h1 htodo1 hseen horder'
    cases raised with
    | none =>
        refine h1.advance htodo1 he e.sameKey_dispatched ?_ (by simp) rfl (List.append_nil _).symm
          ?_ ?_
        · intro c hc
          rw [List.mem_singleton.mp hc]
        · intro _
          have hacc := (h1.account eid e hseen hyes).dispatch hp eid
          simpa [callsOf_one, lettersOf] using hacc
        · intro agg last hlast
          change Function.update t1.lastSequence e.aggregate (some e.sequence) agg = some last
            at hlast
          by_cases hne : agg = e.aggregate
          · subst hne
            have hl : e.sequence = last := by simpa using hlast
            subst hl
            intro eid' e' hv hh' hagg hp'
            rw [RelayTick.view_write] at hv
            by_cases heq : eid' = eid
            · rw [if_pos heq] at hv
              cases hv
              cases hp'
            · rw [if_neg heq] at hv
              obtain ⟨e₀, he₀, ⟨_, hag, hseq⟩, _⟩ := h1.seen hv
              have hnlt : ¬ e'.sequence < e.sequence := fun hlt =>
                horder' rfl eid' e' hv hh' hagg hlt hp'
              have hneq : e'.sequence ≠ e.sequence := by
                intro hs
                refine heq (hnum eid' eid e₀ e he₀ he ?_ ?_)
                · rw [← hag, hagg]
                · rw [← hseq, hs]
              omega
          · have hold : t1.lastSequence agg = some last := by simpa [hne] using hlast
            exact (h1.mark agg last hold).write fun _ _ hp' => by cases hp'
    | some text =>
        have hmarks : ∀ agg last, t1.lastSequence agg = some last →
            MarkBelow consumer ((t1.write eid e.fail).view db) agg last := by
          intro agg last hlast
          exact (h1.mark agg last hlast).write fun hagg _ _ =>
            h1.mark agg last hlast eid e hseen hyes hagg hp
        have hacc := (h1.account eid e hseen hyes).fail hp consumer now eid text
        have hone : ∀ c ∈ [(⟨eid, some text⟩ : HandlerCall)], c.eventId = eid := by
          intro c hc
          rw [List.mem_singleton.mp hc]
        by_cases hmax : maxDeliveryAttempts ≤ e.deliveryAttempts + 1
        · refine h1.advance htodo1 he e.sameKey_fail hone ?_ rfl (if_pos hmax) ?_ hmarks
          · intro l hl
            rw [List.mem_singleton.mp hl]
            rfl
          · intro _
            rw [if_pos hmax] at hacc
            rw [callsOf_one, lettersOf_poison, if_pos rfl, if_pos rfl]
            exact hacc
        · refine h1.advance htodo1 he e.sameKey_fail hone (by simp) rfl
            ((if_neg hmax).trans (List.append_nil _).symm) ?_ hmarks
          intro _
          rw [if_neg hmax] at hacc
          rw [callsOf_one, if_pos rfl]
          simpa [lettersOf] using hacc

end View

/-! ## Committing -/

section Commit

variable {consumer : EventConsumer} {db : RelayDb} {t u : RelayTick}

/-- An event in the tables is then as the tick saw it. -/
theorem RelayTick.commit_events (h : t.Fits consumer db) (eid : EventId) :
    (t.commit db).events[eid]? = t.view db eid := by
  show (db.events.mapIdx fun eid e => (t.written eid).getD e)[eid]? = _
  rw [List.getElem?_mapIdx]
  unfold RelayTick.view
  cases hw : t.written eid with
  | none => simp
  | some e' =>
      obtain ⟨_, _, e, he, _⟩ := h.written eid e' hw
      simp [he]

/-- The tables after a commit hold what the tick saw. -/
theorem RelayTick.Fits.idle_commit (h : t.Fits consumer db) :
    ({} : RelayTick).Fits consumer (t.commit db) := by
  refine ⟨List.suffix_refl _, List.nodup_nil, by simp, by simp, by simp, by simp, ?_, by simp⟩
  intro eid e hv hh
  have hview : t.view db eid = some e := by
    rw [← RelayTick.commit_events h]
    exact hv
  simpa [RelayTick.commit] using h.account eid e hview hh

/-- The session of another tick, which has locked other events. -/
theorem RelayTick.Fits.commit (hu : u.Fits consumer db) (ht : t.Fits consumer db)
    (hapart : ∀ eid ∈ u.batch, eid ∉ t.batch) : u.Fits consumer (t.commit db) := by
  have hevents := RelayTick.commit_events ht
  -- the events of `u` are as they were
  have hown : ∀ eid ∈ u.batch, (t.commit db).events[eid]? = db.events[eid]? := by
    intro eid hm
    rw [hevents]
    unfold RelayTick.view
    cases hw : t.written eid with
    | none => rfl
    | some e' => exact absurd (ht.written eid e' hw).1 (hapart eid hm)
  have hviews : ∀ eid e, u.view (t.commit db) eid = some e →
      u.view db eid = some e ∧ eid ∈ u.batch ∨ t.view db eid = some e ∧ eid ∉ u.batch := by
    intro eid e hv
    unfold RelayTick.view at hv ⊢
    by_cases hm : eid ∈ u.batch
    · rw [hown eid hm] at hv
      exact .inl ⟨hv, hm⟩
    · cases hw : u.written eid with
      | some e' => exact absurd (hu.written eid e' hw).1 hm
      | none =>
          rw [hw] at hv
          have hv' : (t.commit db).events[eid]? = some e := hv
          rw [hevents] at hv'
          exact .inr ⟨hv', hm⟩
  refine ⟨hu.todo, hu.nodup, ?_, ?_, hu.calls, hu.letters, ?_, ?_⟩
  · intro eid hm
    rw [hown eid hm]
    exact hu.pending eid hm
  · intro eid e' hw
    obtain ⟨hm, hn, hrest⟩ := hu.written eid e' hw
    rw [hown eid hm]
    exact ⟨hm, hn, hrest⟩
  · intro eid e hv hh
    show e.Accounted (callsOf (db.calls ++ t.calls ++ u.calls) eid)
      (lettersOf consumer (db.deadLetters ++ t.deadLetters ++ u.deadLetters) eid)
    rcases hviews eid e hv with ⟨hview, hm⟩ | ⟨hview, hm⟩
    · -- nothing of `t` is about an event of `u`
      have hc : callsOf t.calls eid = [] := callsOf_eq_nil fun c hc heq =>
        hapart eid hm (heq ▸ ht.calls c hc)
      have hl : lettersOf consumer t.deadLetters eid = [] := lettersOf_eq_nil fun l hl heq => by
        obtain ⟨eid', hm', hrel⟩ := ht.letters l hl
        rw [heq] at hrel
        exact hapart eid hm (RelatedId.outboxEvent.inj hrel ▸ hm')
      have hacc := hu.account eid e hview hh
      rw [callsOf_append, lettersOf_append] at hacc
      rw [callsOf_append, callsOf_append, lettersOf_append, lettersOf_append, hc, hl,
        List.append_nil, List.append_nil]
      exact hacc
    · have hc : callsOf u.calls eid = [] := callsOf_eq_nil fun c hc heq =>
        hm (heq ▸ hu.calls c hc)
      have hl : lettersOf consumer u.deadLetters eid = [] := lettersOf_eq_nil fun l hl heq => by
        obtain ⟨eid', hm', hrel⟩ := hu.letters l hl
        rw [heq] at hrel
        exact hm (RelatedId.outboxEvent.inj hrel ▸ hm')
      rw [callsOf_append, lettersOf_append, hc, hl, List.append_nil, List.append_nil]
      exact ht.account eid e hview hh
  · intro agg last hlast eid e hv hh hagg hp
    rcases hviews eid e hv with ⟨hview, _⟩ | ⟨hview, hm⟩
    · exact hu.mark agg last hlast eid e hview hh hagg hp
    · -- what `t` leaves pending was pending before
      obtain ⟨e₀, he₀, ⟨htype, hag, hseq⟩, hpend⟩ := ht.seen hview
      have hw : u.written eid = none := by
        cases hw : u.written eid with
        | none => rfl
        | some e' => exact absurd (hu.written eid e' hw).1 hm
      have hview' : u.view db eid = some e₀ := by
        unfold RelayTick.view
        rw [hw]
        exact he₀
      rw [hseq]
      exact hu.mark agg last hlast eid e₀ hview' (htype ▸ hh) (hag ▸ hagg) (hpend hp)

end Commit

/-! ## One step -/

section Step

variable {consumer : EventConsumer} {s : Relay}

theorem mem_pollBatch {batchSize : Nat} {rows : List EventId} {eid : EventId}
    (h : eid ∈ s.pollBatch batchSize rows) :
    (∃ e, s.db.events[eid]? = some e ∧ e.status = .pending) ∧ ∀ t ∈ s.ticks, eid ∉ t.batch := by
  unfold Relay.pollBatch at h
  have hm := List.mem_of_mem_take h
  rw [List.mem_insertionSort, List.mem_filter, Bool.and_eq_true] at hm
  obtain ⟨_, hp, hfree⟩ := hm
  rw [Option.any_eq_true] at hp
  obtain ⟨e, he, hst⟩ := hp
  refine ⟨⟨e, he, by simpa using hst⟩, fun t ht hin => ?_⟩
  simp only [Bool.not_eq_true', List.any_eq_false] at hfree
  exact hfree t ht (by simpa using hin)

theorem pollBatch_nodup {batchSize : Nat} {rows : List EventId} (h : rows.Nodup) :
    (s.pollBatch batchSize rows).Nodup := by
  unfold Relay.pollBatch
  refine List.Nodup.sublist (List.take_sublist ..) ?_
  exact (List.perm_insertionSort ..).nodup_iff.mpr (h.filter _)

/-- Another session in the place of one that held at least its locks. -/
theorem RelayInv.replace (h : RelayInv consumer s) {i : Nat} {t t' : RelayTick}
    (hi : s.ticks[i]? = some t) (ht' : t'.Fits consumer s.db) (hbatch : t'.batch ⊆ t.batch) :
    RelayInv consumer { s with ticks := s.ticks.modify i fun _ => t' } := by
  refine { h with ticks := ?_, apart := ?_ }
  · exact Table.forall_modify h.ticks fun _ _ => ht'
  · intro j k v w hj hk hjk eid hv hw
    obtain ⟨v₀, hv₀, hvcase⟩ := Table.get_modify hj
    obtain ⟨w₀, hw₀, hwcase⟩ := Table.get_modify hk
    -- each of the two holds at most the locks that stood there before
    have hvin : eid ∈ v₀.batch := by
      rcases hvcase with ⟨rfl, rfl⟩ | ⟨_, rfl⟩
      · rw [hi] at hv₀
        cases hv₀
        exact hbatch hv
      · exact hv
    have hwin : eid ∈ w₀.batch := by
      rcases hwcase with ⟨rfl, rfl⟩ | ⟨_, rfl⟩
      · rw [hi] at hw₀
        cases hw₀
        exact hbatch hw
      · exact hw
    exact h.apart j k v₀ w₀ hv₀ hw₀ hjk eid hvin hwin

theorem RelayInv.close (h : RelayInv consumer s) (i : Nat) :
    RelayInv consumer { s with ticks := s.ticks.modify i fun _ => {} } := by
  cases hi : s.ticks[i]? with
  | none =>
      rw [List.modify_eq_self (List.getElem?_eq_none_iff.mp hi)]
      exact h
  | some t => exact h.replace hi h.idle (List.nil_subset _)

theorem RelayInv.begin (h : RelayInv consumer s) (batchSize : Nat) {rows : List EventId}
    (hrows : rows.Nodup) : RelayInv consumer (relayExec consumer s (.begin batchSize rows)) := by
  refine { h with ticks := ?_, apart := ?_ }
  · refine Table.forall_push h.ticks ?_
    refine ⟨List.suffix_refl _, pollBatch_nodup hrows, fun eid hm => (mem_pollBatch hm).1, by simp,
      by simp, by simp, h.idle.account, by simp⟩
  · intro i j t u hi hj hij eid ht hu
    rcases Table.get_push hi with hi | ⟨hil, rfl⟩ <;> rcases Table.get_push hj with hj | ⟨hjl, rfl⟩
    · exact h.apart i j t u hi hj hij eid ht hu
    · exact (mem_pollBatch hu).2 t (Table.mem_of_get hi) ht
    · exact (mem_pollBatch ht).2 u (Table.mem_of_get hj) hu
    · exact hij (hil.trans hjl.symm)

theorem RelayInv.commit (h : RelayInv consumer s) {i : Nat} {t : RelayTick}
    (hi : s.ticks[i]? = some t) :
    RelayInv consumer { db := t.commit s.db, ticks := s.ticks.modify i fun _ => {} } := by
  have ht := h.ticks t (Table.mem_of_get hi)
  have hevents := RelayTick.commit_events ht
  have hclosed := h.close i
  refine ⟨?_, ?_, ht.idle_commit, ?_, ?_, hclosed.apart⟩
  · intro eid eid' e e' he he' hagg hseq
    rw [hevents] at he he'
    obtain ⟨e₀, he₀, hkey, _⟩ := ht.seen he
    obtain ⟨e₀', he₀', hkey', _⟩ := ht.seen he'
    refine h.numbered eid eid' e₀ e₀' he₀ he₀' ?_ ?_
    · rw [← hkey.2.1, ← hkey'.2.1, hagg]
    · rw [← hkey.2.2, ← hkey'.2.2, hseq]
  · intro e he
    obtain ⟨eid, hget⟩ := List.getElem?_of_mem he
    rw [hevents] at hget
    obtain ⟨e₀, he₀, hkey, _⟩ := ht.seen hget
    rw [hkey.2.2]
    exact h.positive e₀ (Table.mem_of_get he₀)
  · intro agg last hlast eid e he hh hagg hp
    change (t.commit s.db).events[eid]? = some e at he
    rw [hevents] at he
    change (if agg ∈ t.inserted ∨ agg ∈ t.advanced then t.lastSequence agg
      else s.db.lastSequence agg) = some last at hlast
    split at hlast
    · exact ht.mark agg last hlast eid e he hh hagg hp
    · obtain ⟨e₀, he₀, hkey, hpend⟩ := ht.seen he
      rw [hkey.2.2]
      exact h.mark agg last hlast eid e₀ he₀ (hkey.1 ▸ hh) (hkey.2.1 ▸ hagg) (hpend hp)
  · intro u hu
    obtain ⟨j, hj⟩ := List.getElem?_of_mem hu
    obtain ⟨u₀, hu₀, ⟨_, rfl⟩ | ⟨hij, rfl⟩⟩ := Table.get_modify hj
    · exact ht.idle_commit
    · refine (h.ticks u (Table.mem_of_get hu₀)).commit ht fun eid hm => ?_
      exact h.apart j i u t hu₀ hi hij.symm eid hm

/-- **One step** keeps the invariant if it is in order. -/
theorem RelayInv.step (h : RelayInv consumer s) {a : RelayAction} (hscan : a.scansOnce)
    (horder : InOrder consumer s a) : RelayInv consumer (relayExec consumer s a) := by
  cases a with
  | begin batchSize rows => exact h.begin batchSize hscan
  | rollback i => exact h.close i
  | commit i =>
      simp only [relayExec]
      split
      · exact h
      · rename_i t hi
        split
        · exact h
        · split
          · exact h.close i
          · exact h.commit hi
  | dispatch i now raised =>
      simp only [relayExec]
      split
      · exact h
      · rename_i t hi
        split
        · exact h
        · rename_i eid rest htodo
          split
          · exact h
          · rename_i e he
            have ht := h.ticks t (Table.mem_of_get hi)
            refine h.replace hi (ht.dispatchOne h.positive h.mark h.numbered htodo he now raised
              ?_) ?_
            · rintro rfl hh happ eid' e' hv
              have hlt : eid' < s.db.events.length := by
                obtain ⟨e₀, he₀, _⟩ := ht.seen hv
                exact (List.getElem?_eq_some_iff.mp he₀).1
              exact horder t hi eid (by rw [htodo]; rfl) e he hh happ eid'
                (List.mem_range.mpr hlt) e' hv
            · show (t.dispatchOne s.db consumer now eid e raised).batch ⊆ t.batch
              rw [RelayTick.dispatchOne_batch]
              exact List.Subset.refl _

theorem RelayFresh.inv (h : RelayFresh s) : RelayInv consumer s := by
  have hnone : ∀ e ∈ s.db.events, e.Accounted [] [] := by
    intro e he
    obtain ⟨hst, hatt⟩ := h.events e he
    refine ⟨by rw [hst]; rfl, hatt.symm, fun _ => ?_, ?_⟩
    · rw [hatt]
      decide
    · rw [hst]
      intro hp
      cases hp
  refine ⟨?_, ?_, ?_, ?_, ?_, ?_⟩
  · intro eid eid' e e' he he' hagg hseq
    -- numbers from one on do not repeat
    have hnodup : (relaySequences s.db.events e.aggregate).Nodup :=
      (h.dense e.aggregate).nodup_iff.mpr List.nodup_range'
    exact Table.eq_of_nodup hnodup he he' (by simp) (by simp [hagg]) hseq
  · intro e he
    have hm : e.sequence ∈ relaySequences s.db.events e.aggregate := by
      unfold relaySequences
      exact List.mem_map_of_mem (List.mem_filter.mpr ⟨he, by simp⟩)
    rw [(h.dense e.aggregate).mem_iff, List.mem_range'_1] at hm
    omega
  · refine ⟨List.suffix_refl _, List.nodup_nil, by simp, by simp, by simp, by simp, ?_, by simp⟩
    intro eid e hv _
    have he : s.db.events[eid]? = some e := hv
    rw [h.calls, h.deadLetters]
    exact hnone e (Table.mem_of_get he)
  · intro agg last hlast
    rw [h.lastSequence] at hlast
    cases hlast
  · intro t ht
    rw [h.ticks] at ht
    cases ht
  · intro i j t u hi
    rw [h.ticks] at hi
    simp at hi

end Step

/-! ## Every run -/

/-- **A handled event is delivered once or given up**, in every run in which no call succeeds on an
event while an earlier one of its aggregate that the consumer handles is pending. -/
theorem relay_delivers_in_order (consumer : EventConsumer) (s : Relay)
    (h : ((relays consumer).restrict (InOrder consumer)).Reachable s) : s.db.Delivers consumer := by
  have hinv : RelayInv consumer s := by
    refine h.invariant (I := RelayInv consumer) (fun s hs => RelayFresh.inv hs) ?_
    rintro s a hs ⟨hscan, horder⟩
    exact hs.step hscan horder
  intro eid e he hh hst
  have hacc := hinv.idle.account eid e he hh
  rw [List.append_nil, List.append_nil] at hacc
  -- who has left the queue was applied once, or has failed until it was poisoned
  cases hcase : e.status with
  | pending => exact absurd hcase hst
  | dispatched =>
      left
      have hs := hacc.successes
      rw [hcase] at hs
      exact hs
  | poison =>
      right
      obtain ⟨hatt, hletter⟩ := hacc.poison hcase
      exact ⟨hacc.failures.trans hatt, hletter⟩

/-! ## Two events of a run -/

instance (a : RelayAction) : Decidable a.scansOnce :=
  match a with
  | .begin _ rows => inferInstanceAs (Decidable rows.Nodup)
  | .dispatch .. | .commit _ | .rollback _ => isTrue trivial

instance (consumer : EventConsumer) (s : Relay) (a : RelayAction) :
    Decidable (InOrder consumer s a) :=
  match a with
  | .dispatch i _ none => inferInstanceAs (Decidable (∀ t ∈ s.ticks[i]?, ∀ eid ∈ t.todo.head?,
      ∀ e ∈ s.db.events[eid]?, consumer.handles e.eventType = true → t.applied s.db e = false →
        ∀ eid' ∈ List.range s.db.events.length, ∀ e' ∈ t.view s.db eid',
          consumer.handles e'.eventType = true → e'.aggregate = e.aggregate →
            e'.sequence < e.sequence → e'.status ≠ .pending))
  | .dispatch _ _ (some _) | .begin .. | .commit _ | .rollback _ => isTrue trivial

instance (consumer : EventConsumer) (s : Relay) (a : RelayAction) :
    Decidable ((relays consumer).allowed s a) :=
  inferInstanceAs (Decidable a.scansOnce)

/-- The consumer of `consumers.py`. -/
def pipelineController : EventConsumer where
  name := "pipeline-controller"
  handles text := text == "review.approved" || text == "review.rejected"

/-- Two decisions about one run that nobody has delivered yet. -/
def twoDecisions : Relay where
  db := { events := [⟨0, "review.approved", runAggregate 0, 1, 1, .pending, 0⟩,
    ⟨0, "review.rejected", runAggregate 0, 2, 2, .pending, 0⟩] }

theorem twoDecisions_fresh : RelayFresh twoDecisions := by
  refine ⟨rfl, rfl, rfl, rfl, by decide, fun agg => ?_⟩
  by_cases h : runAggregate 0 = agg
  · subst h
    decide
  · have hnone : relaySequences twoDecisions.db.events agg = [] := by
      simp [relaySequences, twoDecisions, h]
    rw [hnone]
    exact .refl _

/-- Both handlers fail in the first tick and return in the second one. -/
def bothRetried : List RelayAction :=
  [.begin 50 [0, 1], .dispatch 0 3 (some "timeout"), .dispatch 0 3 (some "timeout"), .commit 0,
   .begin 50 [0, 1], .dispatch 1 4 none, .dispatch 1 4 none, .commit 1]

theorem retried_decisions_delivered :
    (bothRetried.foldl (relayExec pipelineController) twoDecisions).db.events.map
      RelayEvent.status = [.dispatched, .dispatched] ∧
    (bothRetried.foldl (relayExec pipelineController) twoDecisions).db.Delivers
      pipelineController := by
  refine ⟨by decide +kernel, relay_delivers_in_order pipelineController _ ?_⟩
  refine .of_legal bothRetried (.init twoDecisions_fresh) ?_
  decide +kernel

/-- The first handler fails and the second one returns; then the next tick comes. -/
def firstFailed : List RelayAction :=
  [.begin 50 [0, 1], .dispatch 0 3 (some "timeout"), .dispatch 0 3 none, .commit 0,
   .begin 50 [0, 1], .dispatch 1 4 none, .commit 1]

/-- The first event is dispatched although its one call failed, and nothing is pending. -/
theorem failed_event_passed_over :
    (relays pipelineController).Reachable
      (firstFailed.foldl (relayExec pipelineController) twoDecisions) ∧
    (firstFailed.foldl (relayExec pipelineController) twoDecisions).db.events.map
      RelayEvent.status = [.dispatched, .dispatched] ∧
    ¬ (firstFailed.foldl (relayExec pipelineController) twoDecisions).db.Delivers
      pipelineController := by
  refine ⟨.of_legal firstFailed (.init twoDecisions_fresh) (by decide +kernel), by decide +kernel,
    fun hall => ?_⟩
  have hfirst : ∃ e, (firstFailed.foldl (relayExec pipelineController) twoDecisions).db.events[0]?
      = some e ∧ pipelineController.handles e.eventType = true ∧ e.status ≠ .pending :=
    ⟨_, rfl, by decide +kernel, by decide +kernel⟩
  obtain ⟨e, he, hh, hst⟩ := hfirst
  rcases hall 0 e he hh hst with honce | hgiven
  · revert honce
    decide +kernel
  · revert hgiven
    decide +kernel

end HumanGate
