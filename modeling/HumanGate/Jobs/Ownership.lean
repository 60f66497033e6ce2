import Mathlib
import HumanGate.Lib.Tenures
import HumanGate.Model.AutomationLease

set_option autoImplicit false

/-! # Who runs a loop

The ledger of a loop is written from the calls and their answers alone: a claim that is granted
begins a tenure or prolongs it, a renewal or a record inside the tenure moves its end, and a release
ends it. The row of the loop says at every time who is inside its tenure, although each call states
the test in its own words; so tenures do not overlap, and a call from outside does nothing
(`loop_ownership_exclusive`).
-/

namespace HumanGate

open Lib Lib.Calendar Lib.Tenures

/-! ## The history of a loop -/

/-- The tenures of a loop, and the successes recorded inside them. -/
structure LoopHistory where
  ledger : Ledger OwnerId Instant := {}
  ticks : Nat := 0

/-- What a call for the loop adds to its history. -/
def LoopHistory.note (h : LoopHistory) (c : LoopCall) (answer : Bool) : LoopHistory :=
  match c.action with
  | .tryClaim _ leaseSeconds =>
      if answer then
        { h with ledger := h.ledger.grant c.owner c.now (c.now + seconds leaseSeconds) }
      else h
  | .renew _ leaseSeconds | .recordError _ leaseSeconds _ =>
      { h with ledger := h.ledger.extend c.owner c.now (c.now + seconds leaseSeconds) }
  | .release => { h with ledger := h.ledger.quit c.owner c.now }
  | .recordSuccess _ leaseSeconds _ =>
      { ledger := h.ledger.extend c.owner c.now (c.now + seconds leaseSeconds)
        ticks := if h.ledger.Covers c.owner c.now then h.ticks + 1 else h.ticks }

/-- A release is for every loop. -/
def LoopCall.Concerns (c : LoopCall) (name : String) : Prop :=
  c.action.loopName = none ∨ c.action.loopName = some name

instance (c : LoopCall) (name : String) : Decidable (c.Concerns name) :=
  inferInstanceAs (Decidable (_ ∨ _))

/-- The table and the history of a loop after some calls. -/
def observe (name : String) :
    AutomationLeases × LoopHistory → List LoopCall → AutomationLeases × LoopHistory
  | s, [] => s
  | (table, h), c :: rest =>
      observe name ((c.run table).1, if c.Concerns name then h.note c (c.run table).2 else h) rest

/-- At the start, whoever the row says has the loop is inside its tenure. -/
def inherited (start : Instant) (row : Option AutomationLease) : LoopHistory :=
  match row.bind AutomationLease.ownerId, row.bind AutomationLease.leaseExpiresAt with
  | some owner, some expires => { ledger := ⟨[], some ⟨owner, start, expires⟩⟩ }
  | _, _ => {}

/-! ## What the calls do to a row -/

namespace AutomationLease

/-- The row says that the owner has the loop. -/
def HeldBy (row : AutomationLease) (owner : OwnerId) (now : Instant) : Prop :=
  row.ownerId = some owner ∧ row.isLive now = true

instance (row : AutomationLease) (owner : OwnerId) (now : Instant) :
    Decidable (row.HeldBy owner now) := inferInstanceAs (Decidable (_ ∧ _))

variable {row : AutomationLease} {owner : OwnerId} {now : Instant}

theorem isLive_iff : row.isLive now = true ↔ ∃ e ∈ row.leaseExpiresAt, now < e := by
  unfold isLive
  cases row.leaseExpiresAt with
  | none => exact ⟨fun h => (nomatch h), fun ⟨e, he, _⟩ => (nomatch he)⟩
  | some e =>
      rw [decide_eq_true_iff]
      constructor
      · intro h
        exact ⟨e, rfl, h⟩
      · rintro ⟨e', he', hlt⟩
        cases he'
        exact hlt

/-- A row with another owner and another end of the lease. -/
theorem heldBy_written {row' : AutomationLease} {o : OwnerId} {t stop : Instant}
    (howner : row'.ownerId = some owner) (hstop : row'.leaseExpiresAt = some stop) :
    row'.HeldBy o t ↔ owner = o ∧ t < stop := by
  unfold HeldBy
  rw [isLive_iff, howner, hstop]
  constructor
  · rintro ⟨ho, e, he, hlt⟩
    cases ho
    cases he
    exact ⟨rfl, hlt⟩
  · rintro ⟨rfl, hlt⟩
    exact ⟨rfl, stop, rfl, hlt⟩

/-- A claim is granted unless the row says that somebody else has the loop. -/
theorem tryClaim_spec (leaseSeconds : Nat) :
    (row.tryClaim owner now leaseSeconds = (row, false)) ∨
      ∃ row', row.tryClaim owner now leaseSeconds = (row', true) ∧ row'.ownerId = some owner ∧
        row'.leaseExpiresAt = some (now + seconds leaseSeconds) ∧
        row'.tickCount = row.tickCount ∧ ∀ o, row.HeldBy o now → o = owner := by
  unfold tryClaim
  split
  · exact .inl rfl
  · rename_i hfree
    refine .inr ⟨_, rfl, rfl, rfl, rfl, fun o ho => ?_⟩
    by_contra hne
    refine hfree ⟨by rw [ho.1]; exact Option.some_ne_none o, ?_, ho.2⟩
    rw [ho.1]
    exact fun heq => hne (Option.some.inj heq)

/-- The test of a renewal is the others' test, negated. -/
theorem renew_spec (leaseSeconds : Nat) :
    (¬ row.HeldBy owner now ∧ row.renew owner now leaseSeconds = (row, false)) ∨
      (row.HeldBy owner now ∧ row.renew owner now leaseSeconds
        = ({ row with
              lastHeartbeatAt := some now
              leaseExpiresAt := some (now + seconds leaseSeconds) }, true)) := by
  unfold renew HeldBy isLive
  cases hlease : row.leaseExpiresAt with
  | none => exact .inl ⟨fun h => (nomatch h.2), rfl⟩
  | some e =>
      dsimp only
      split
      · rename_i hout
        refine .inl ⟨fun h => ?_, rfl⟩
        have hlt : now < e := of_decide_eq_true h.2
        rcases hout with hne | hle
        · exact hne h.1
        · exact absurd hlt (not_lt.mpr hle)
      · rename_i hin
        rw [not_or, not_not, not_le] at hin
        exact .inr ⟨⟨hin.1, decide_eq_true hin.2⟩, rfl⟩

end AutomationLease

open AutomationLease

/-! ## One call -/

/-- The history and the row agree on who is inside its tenure from `now` on, and on the ticks. -/
structure RowAgrees (row : AutomationLease) (h : LoopHistory) (base : Nat) (now : Instant) :
    Prop where
  sound : Sound h.ledger now
  held : ∀ o t, now ≤ t → (h.ledger.Covers o t ↔ row.HeldBy o t)
  ticks : row.tickCount = base + h.ticks

variable {row : AutomationLease} {h : LoopHistory} {base : Nat} {now : Instant} {c : LoopCall}

theorem RowAgrees.mono {t : Instant} (hagrees : RowAgrees row h base now) (hle : now ≤ t) :
    RowAgrees row h base t :=
  ⟨hagrees.sound.mono hle, fun o t' ht' => hagrees.held o t' (hle.trans ht'), hagrees.ticks⟩

/-- A call inside the tenure of its owner that moves the end of the lease. -/
theorem RowAgrees.moved {row' : AutomationLease} {ticks stop : Nat}
    (hagrees : RowAgrees row h base c.now) (hheld : row.HeldBy c.owner c.now)
    (howner : row'.ownerId = some c.owner) (hstop : row'.leaseExpiresAt = some stop)
    (hticks : row'.tickCount = base + ticks) :
    RowAgrees row' ⟨h.ledger.extend c.owner c.now stop, ticks⟩ base c.now := by
  have hcovers : h.ledger.Covers c.owner c.now := (hagrees.held c.owner c.now le_rfl).mpr hheld
  refine ⟨hagrees.sound.extend c.owner stop, fun o t _ => ?_, hticks⟩
  rw [covers_extend hcovers, heldBy_written howner hstop]

/-- A call outside leaves the ledger. -/
theorem RowAgrees.outside (hagrees : RowAgrees row h base c.now) (stop : Nat)
    (hheld : ¬ row.HeldBy c.owner c.now) : h.ledger.extend c.owner c.now stop = h.ledger :=
  extend_outside fun hcovers => hheld ((hagrees.held c.owner c.now le_rfl).mp hcovers)

/-- **Every call** keeps the agreement. -/
theorem onRow_agrees (hagrees : RowAgrees row h base c.now) :
    RowAgrees (c.onRow row).1 (h.note c (c.onRow row).2) base c.now := by
  obtain ⟨now, owner, action⟩ := c
  -- a call from outside does nothing to the ledger either
  have houtside := fun stop => hagrees.outside stop
  cases action with
  | tryClaim name leaseSeconds =>
      show RowAgrees (row.tryClaim owner now leaseSeconds).1
        (if (row.tryClaim owner now leaseSeconds).2 then _ else h) base now
      rcases row.tryClaim_spec leaseSeconds with
        hrefused | ⟨row', hgranted, howner, hstop, hticks, hothers⟩
      · rw [hrefused]
        exact hagrees
      · rw [hgranted]
        refine ⟨hagrees.sound.grant (fun o ho => ?_) _, fun o t _ => ?_, ?_⟩
        · exact hothers o ((hagrees.held o now le_rfl).mp ho)
        · exact covers_grant.trans (heldBy_written howner hstop).symm
        · exact hticks.trans hagrees.ticks
  | renew name leaseSeconds =>
      show RowAgrees (row.renew owner now leaseSeconds).1 _ base now
      rcases row.renew_spec leaseSeconds with ⟨hout, hrenew⟩ | ⟨hheld, hrenew⟩
      · rw [hrenew]
        unfold LoopHistory.note
        dsimp only
        rw [houtside _ hout]
        exact hagrees
      · rw [hrenew]
        exact hagrees.moved hheld hheld.1 rfl hagrees.ticks
  | release =>
      show RowAgrees (row.release owner now) ⟨h.ledger.quit owner now, h.ticks⟩ base now
      unfold AutomationLease.release Ledger.quit
      split
      · rename_i hheld
        have hcovers : h.ledger.Covers owner now := (hagrees.held owner now le_rfl).mpr hheld
        refine ⟨hagrees.sound.quit owner, fun o t hle => ?_, hagrees.ticks⟩
        rw [covers_extend hcovers]
        constructor
        · -- a tenure that is quit covers no later time
          intro ⟨_, hlt⟩
          exact absurd hle (not_le.mpr hlt)
        · intro hheld'
          exact nomatch hheld'.1
      · rename_i hout
        rw [houtside _ hout]
        exact hagrees
  | recordSuccess name leaseSeconds workCount =>
      show RowAgrees (row.recordSuccess owner now leaseSeconds workCount) _ base now
      unfold AutomationLease.recordSuccess LoopHistory.note
      dsimp only
      split
      · rename_i hheld
        have hcovers : h.ledger.Covers owner now := (hagrees.held owner now le_rfl).mpr hheld
        rw [if_pos hcovers]
        refine hagrees.moved hheld hheld.1 rfl ?_
        show row.tickCount + 1 = base + (h.ticks + 1)
        rw [hagrees.ticks]
        omega
      · rename_i hout
        have hcovers : ¬ h.ledger.Covers owner now := fun hcovers =>
          hout ((hagrees.held owner now le_rfl).mp hcovers)
        rw [if_neg hcovers, houtside _ hout]
        exact hagrees
  | recordError name leaseSeconds error =>
      show RowAgrees (row.recordError owner now leaseSeconds error) _ base now
      unfold AutomationLease.recordError LoopHistory.note
      dsimp only
      split
      · rename_i hheld
        exact hagrees.moved hheld hheld.1 rfl hagrees.ticks
      · rename_i hout
        rw [houtside _ hout]
        exact hagrees

/-- A call of somebody who does not have the loop, other than a claim. -/
theorem onRow_outside (hclaim : ∀ name leaseSeconds, c.action ≠ .tryClaim name leaseSeconds)
    (hout : ¬ row.HeldBy c.owner c.now) :
    (c.onRow row).1 = row ∧
      ((∃ name leaseSeconds, c.action = .renew name leaseSeconds) → (c.onRow row).2 = false) := by
  obtain ⟨now, owner, action⟩ := c
  cases action with
  | tryClaim name leaseSeconds => exact absurd rfl (hclaim name leaseSeconds)
  | renew name leaseSeconds =>
      rcases row.renew_spec leaseSeconds with ⟨_, hrenew⟩ | ⟨hheld, _⟩
      · exact ⟨congrArg Prod.fst hrenew, fun _ => congrArg Prod.snd hrenew⟩
      · exact absurd hheld hout
  | release => exact ⟨if_neg hout, fun ⟨_, _, h⟩ => nomatch h⟩
  | recordSuccess name leaseSeconds workCount => exact ⟨if_neg hout, fun ⟨_, _, h⟩ => nomatch h⟩
  | recordError name leaseSeconds error => exact ⟨if_neg hout, fun ⟨_, _, h⟩ => nomatch h⟩

/-! ## The table -/

/-- What a call does to the row of a loop that it concerns. -/
theorem run_row {name : String} (hc : c.Concerns name) (table : AutomationLeases) :
    (c.run table).1 name = (table name).map fun row => (c.onRow row).1 := by
  unfold LoopCall.run
  rcases hc with hname | hname
  · rw [hname]
  · rw [hname]
    dsimp only
    cases hrow : table name with
    | none => exact hrow
    | some row => exact Function.update_self ..

/-- A call for another loop. -/
theorem run_other {name : String} (hc : ¬ c.Concerns name) (table : AutomationLeases) :
    (c.run table).1 name = table name := by
  unfold LoopCall.run
  cases hname : c.action.loopName with
  | none => exact absurd (Or.inl hname) hc
  | some name' =>
      have hne : name ≠ name' := fun heq => hc (Or.inr (heq ▸ hname))
      dsimp only
      cases table name' with
      | none => rfl
      | some row => exact Function.update_of_ne hne _ _

/-- The answer of a call for the loop is the answer for its row. -/
theorem run_answer {table : AutomationLeases} {name : String} (hc : c.Concerns name)
    (hrow : table name = some row) : (c.run table).2 = (c.onRow row).2 := by
  unfold LoopCall.run
  obtain ⟨now, owner, action⟩ := c
  cases action with
  | release => rfl
  | tryClaim name' _ | renew name' _ | recordSuccess name' _ _ | recordError name' _ _ =>
      obtain rfl : name' = name := by
        rcases hc with h | h
        · exact nomatch h
        · exact Option.some.inj h
      simp only [LoopAction.loopName, hrow]

/-- A renewal of a loop without a row is refused. -/
theorem run_renew_missing {table : AutomationLeases} {name : String} (hc : c.Concerns name)
    (hrow : table name = none) (hrenew : ∃ name leaseSeconds, c.action = .renew name leaseSeconds) :
    (c.run table).2 = false := by
  obtain ⟨name', leaseSeconds, haction⟩ := hrenew
  unfold LoopCall.Concerns at hc
  rw [haction] at hc
  obtain rfl : name' = name := by
    rcases hc with h | h
    · exact nomatch h
    · exact Option.some.inj h
  unfold LoopCall.run
  simp only [haction, LoopAction.loopName, hrow]

/-- A loop without a row has no history. -/
theorem note_missing {table : AutomationLeases} {name : String} (hc : c.Concerns name)
    (hrow : table name = none) : LoopHistory.note {} c (c.run table).2 = {} := by
  obtain ⟨now, owner, action⟩ := c
  cases action with
  | tryClaim name' leaseSeconds =>
      obtain rfl : name' = name := by
        rcases hc with h | h
        · exact nomatch h
        · exact Option.some.inj h
      have hrefused : (LoopCall.run ⟨now, owner, .tryClaim name' leaseSeconds⟩ table).2
          = false := by
        unfold LoopCall.run
        simp only [LoopAction.loopName, hrow]
      unfold LoopHistory.note
      simp only [hrefused, Bool.false_eq_true, if_false]
  | renew _ _ | release | recordSuccess _ _ _ | recordError _ _ _ => rfl

/-- The history of a loop agrees with the table. -/
def Agrees (name : String) (base : Nat) (s : AutomationLeases × LoopHistory)
    (now : Instant) : Prop :=
  match s.1 name with
  | none => s.2 = {}
  | some row => RowAgrees row s.2 base now

theorem Agrees.mono {name : String} {s : AutomationLeases × LoopHistory} {t : Instant}
    (hagrees : Agrees name base s now) (hle : now ≤ t) : Agrees name base s t := by
  unfold Agrees at hagrees ⊢
  split at hagrees
  · exact hagrees
  · exact hagrees.mono hle

/-- **The step.** -/
theorem run_agrees {name : String} {s : AutomationLeases × LoopHistory}
    (hagrees : Agrees name base s now) (hle : now ≤ c.now) :
    Agrees name base
      ((c.run s.1).1, if c.Concerns name then s.2.note c (c.run s.1).2 else s.2) c.now := by
  have hagrees := hagrees.mono hle
  unfold Agrees at hagrees ⊢
  dsimp only
  by_cases hc : c.Concerns name
  · rw [run_row hc, if_pos hc]
    split at hagrees
    · rename_i hrow
      rw [hrow, hagrees]
      exact note_missing hc hrow
    · rename_i row hrow
      rw [hrow, run_answer hc hrow]
      exact onRow_agrees hagrees
  · rw [run_other hc, if_neg hc]
    exact hagrees

/-- **The run**, as seen at any time that is not earlier. -/
theorem observe_agrees {name : String} {calls : List LoopCall} :
    ∀ {s : AutomationLeases × LoopHistory} {start : Instant}, Agrees name base s start →
      (start :: calls.map LoopCall.now).Pairwise (· ≤ ·) →
      ∀ t, (∀ x ∈ start :: calls.map LoopCall.now, x ≤ t) →
        Agrees name base (observe name s calls) t := by
  induction calls with
  | nil => exact fun hagrees _ t ht => hagrees.mono (ht _ List.mem_cons_self)
  | cons c rest ih =>
      intro s start hagrees hchrono t ht
      obtain ⟨hstart, hrest⟩ := List.pairwise_cons.mp hchrono
      have hstep := run_agrees hagrees (hstart c.now List.mem_cons_self)
      exact ih hstep hrest t fun x hx => ht x (List.mem_cons_of_mem _ hx)

/-- Rows stay. -/
theorem observe_row {name : String} {calls : List LoopCall} :
    ∀ {s : AutomationLeases × LoopHistory}, s.1 name ≠ none →
      (observe name s calls).1 name ≠ none := by
  induction calls with
  | nil => exact id
  | cons c rest ih =>
      intro s hs
      apply ih
      show (c.run s.1).1 name ≠ none
      by_cases hc : c.Concerns name
      · rw [run_row hc, ne_eq, Option.map_eq_none_iff]
        exact hs
      · rw [run_other hc]
        exact hs

/-- What is inherited agrees with the row. -/
theorem inherited_agrees (table : AutomationLeases) (name : String) (start : Instant) :
    Agrees name ((table name).elim 0 AutomationLease.tickCount)
      (table, inherited start (table name)) start := by
  unfold Agrees
  dsimp only
  cases table name with
  | none => rfl
  | some row =>
      unfold inherited
      show RowAgrees row (match row.ownerId, row.leaseExpiresAt with
        | some owner, some expires => _
        | _, _ => {}) row.tickCount start
      have hnobody : (∀ o t, ¬ row.HeldBy o t) → RowAgrees row {} row.tickCount start := fun hrow =>
        ⟨.empty start, fun o t _ => ⟨fun ⟨_, h, _⟩ => (nomatch h), fun h => absurd h (hrow o t)⟩,
          rfl⟩
      cases howner : row.ownerId with
      | none => exact hnobody fun o t h => nomatch howner.symm.trans h.1
      | some owner =>
          cases hlease : row.leaseExpiresAt with
          | none =>
              refine hnobody fun o t h => ?_
              obtain ⟨e, he, _⟩ := isLive_iff.mp h.2
              rw [hlease] at he
              exact nomatch he
          | some expires =>
              refine ⟨.singleton owner start expires, fun o t _ => ?_, rfl⟩
              rw [heldBy_written howner hlease]
              constructor
              · rintro ⟨tenure, htenure, ho, hlt⟩
                cases htenure
                exact ⟨ho, hlt⟩
              · rintro ⟨rfl, hlt⟩
                exact ⟨_, rfl, rfl, hlt⟩

/-- **Ownership of a loop is exclusive.** For every table, every loop of it and every sequence of
calls whose times do not decrease: the tenures of different owners do not overlap; a renewal, a
release or a record from outside the tenure of its owner leaves the row, and the renewal answers no;
and the tick count has grown by the successes recorded inside a tenure. -/
theorem loop_ownership_exclusive (table : AutomationLeases) (name : String) (start : Instant)
    (calls : List LoopCall) (hchrono : (start :: calls.map LoopCall.now).Pairwise (· ≤ ·)) :
    let seen := observe name (table, inherited start (table name))
    (∀ a ∈ (seen calls).2.ledger.tenures, ∀ b ∈ (seen calls).2.ledger.tenures, a.owner ≠ b.owner →
      Disjoint (Set.Ico a.start a.stop) (Set.Ico b.start b.stop)) ∧
    (∀ before c after, calls = before ++ c :: after →
      (∀ name leaseSeconds, c.action ≠ .tryClaim name leaseSeconds) → c.Concerns name →
      ¬ (seen before).2.ledger.Covers c.owner c.now →
      (c.run (seen before).1).1 name = (seen before).1 name ∧
        ((∃ name leaseSeconds, c.action = .renew name leaseSeconds) →
          (c.run (seen before).1).2 = false)) ∧
    ∀ row ∈ table name, ∃ row' ∈ (seen calls).1 name,
      row'.tickCount = row.tickCount + (seen calls).2.ticks := by
  intro seen
  have hstart := inherited_agrees table name start
  -- the state after a part of the calls agrees at every time that is not earlier
  have hseen : ∀ part t, (start :: part.map LoopCall.now).Pairwise (· ≤ ·) →
      (∀ x ∈ start :: part.map LoopCall.now, x ≤ t) →
      Agrees name ((table name).elim 0 AutomationLease.tickCount) (seen part) t :=
    fun part t hpart ht => observe_agrees hstart hpart t ht
  obtain ⟨t, ht⟩ : ∃ t, ∀ x ∈ start :: calls.map LoopCall.now, x ≤ t :=
    ⟨(start :: calls.map LoopCall.now).sum, fun x hx => List.single_le_sum (by simp) x hx⟩
  have hend := hseen calls t hchrono ht
  refine ⟨?_, ?_, ?_⟩
  · intro a ha b hb hne
    unfold Agrees at hend
    split at hend
    · rw [hend] at ha
      exact nomatch ha
    · exact hend.sound.exclusive ha hb hne
  · rintro before c after rfl hclaim hc hout
    -- the state that the call finds is that after the calls before it
    have hsplit : (start :: (before ++ c :: after).map LoopCall.now)
        = (start :: before.map LoopCall.now) ++ c.now :: after.map LoopCall.now := by
      rw [List.map_append]
      rfl
    rw [hsplit] at hchrono
    obtain ⟨hbefore, _, hle⟩ := List.pairwise_append.mp hchrono
    have hnow := hseen before c.now hbefore fun x hx => hle x hx _ List.mem_cons_self
    unfold Agrees at hnow
    split at hnow
    · rename_i hrow
      rw [run_row hc, hrow]
      exact ⟨rfl, run_renew_missing hc hrow⟩
    · rename_i row hrow
      rw [run_row hc, run_answer hc hrow, hrow]
      have hheld : ¬ row.HeldBy c.owner c.now := fun hheld =>
        hout ((hnow.held c.owner c.now le_rfl).mpr hheld)
      obtain ⟨hsame, hno⟩ := onRow_outside hclaim hheld
      exact ⟨congrArg some hsame, hno⟩
  · intro row hrow
    -- a row is never deleted
    have hkept : (seen calls).1 name ≠ none :=
      observe_row (s := (table, inherited start (table name)))
        (Option.ne_none_iff_exists'.mpr ⟨row, hrow⟩)
    obtain ⟨row', hrow'⟩ := Option.ne_none_iff_exists'.mp hkept
    unfold Agrees at hend
    rw [hrow', show table name = some row from hrow] at hend
    exact ⟨row', hrow', hend.ticks⟩

/-! ## A takeover -/

def firstOwner : OwnerId := ⟨"a@host:1", by decide⟩

def secondOwner : OwnerId := ⟨"b@host:2", by decide⟩

/-- One loop that nobody has had yet. -/
def idleLoops : AutomationLeases := fun name => if name = "scheduler" then some {} else none

/-- The first owner lets its lease run out, the second takes over, and the first comes back too
late. -/
def takeover : List LoopCall :=
  [⟨seconds 0, firstOwner, .tryClaim "scheduler" 5⟩,
   ⟨seconds 1, firstOwner, .recordSuccess "scheduler" 5 3⟩,
   ⟨seconds 2, secondOwner, .tryClaim "scheduler" 5⟩,
   ⟨seconds 6, secondOwner, .tryClaim "scheduler" 5⟩,
   ⟨seconds 7, firstOwner, .recordSuccess "scheduler" 5 1⟩,
   ⟨seconds 8, secondOwner, .recordSuccess "scheduler" 5 1⟩]

/-- Two ticks are counted, and the tenures meet at the sixth second. -/
theorem takeover_ticks :
    (∃ row ∈ (observe "scheduler" (idleLoops, {}) takeover).1 "scheduler", row.tickCount = 2) ∧
      (observe "scheduler" (idleLoops, {}) takeover).2.ledger.tenures.map
          (fun t => (t.owner, t.start, t.stop))
        = [(firstOwner, seconds 0, seconds 6), (secondOwner, seconds 6, seconds 13)] := by
  have hexclusive := loop_ownership_exclusive idleLoops "scheduler" 0 takeover (by decide)
  obtain ⟨row, hrow, hticks⟩ := hexclusive.2.2 {} rfl
  refine ⟨⟨row, hrow, hticks.trans ?_⟩, by decide +kernel⟩
  decide +kernel

end HumanGate
