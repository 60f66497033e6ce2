import Mathlib

set_option autoImplicit false

/-! # Tenures

A ledger of who held something when. A tenure is the half-open interval of time from the moment it
is granted to the moment it stops; a grant to the owner of a tenure that has not stopped moves its
end, and any other grant begins a tenure. If nothing is granted while another owner's tenure lasts,
and time does not go back, then no two tenures overlap (`Sound.disjoint`).
-/

namespace Lib.Tenures

universe u v

structure Tenure (ω : Type u) (τ : Type v) where
  owner : ω
  start : τ
  stop : τ

/-- The tenures up to now, the last one apart. -/
structure Ledger (ω : Type u) (τ : Type v) where
  earlier : List (Tenure ω τ) := []
  last : Option (Tenure ω τ) := none

variable {ω : Type u} {τ : Type v} [LinearOrder τ]

namespace Ledger

variable (l : Ledger ω τ) (owner : ω) (now stop : τ)

def tenures : List (Tenure ω τ) := l.earlier ++ l.last.toList

/-- The owner is inside its own tenure. -/
def Covers : Prop := ∃ t ∈ l.last, t.owner = owner ∧ now < t.stop

/-- The last tenure stops at another time. -/
def restop : Ledger ω τ := { l with last := l.last.map fun t => { t with stop := stop } }

/-- A tenure begins. -/
def start : Ledger ω τ := ⟨l.tenures, some ⟨owner, now, stop⟩⟩

end Ledger

/-- What holds of a ledger at `now`: the tenures follow each other, only the last may be running. -/
structure Sound (l : Ledger ω τ) (now : τ) : Prop where
  ordered : l.tenures.Pairwise fun a b => a.stop ≤ b.start
  ended : ∀ t ∈ l.earlier, t.stop ≤ now
  begun : ∀ t ∈ l.last, t.start ≤ now

variable {l : Ledger ω τ} {owner : ω} {now next stop : τ}

theorem Sound.empty (now : τ) : Sound (⟨[], none⟩ : Ledger ω τ) now :=
  ⟨List.Pairwise.nil, fun _ h => (nomatch h), fun _ h => (nomatch h)⟩

/-- A tenure that was running at the beginning. -/
theorem Sound.singleton (owner : ω) (now stop : τ) : Sound ⟨[], some ⟨owner, now, stop⟩⟩ now := by
  refine ⟨List.pairwise_singleton _ _, fun _ h => (nomatch h), ?_⟩
  intro t ht
  cases ht
  exact le_rfl

theorem Sound.mono (h : Sound l now) (hle : now ≤ next) : Sound l next :=
  ⟨h.ordered, fun t ht => (h.ended t ht).trans hle, fun t ht => (h.begun t ht).trans hle⟩

/-- Moving the end of the last tenure. -/
theorem Sound.restop (h : Sound l now) (stop : τ) : Sound (l.restop stop) now := by
  have hordered := h.ordered
  unfold Ledger.restop
  refine ⟨?_, h.ended, ?_⟩
  · show (l.earlier ++ (l.last.map _).toList).Pairwise _
    unfold Ledger.tenures at hordered
    cases hlast : l.last with
    | none =>
        rw [hlast] at hordered
        exact hordered
    | some t =>
        -- what comes before it stops before it starts
        rw [hlast] at hordered
        obtain ⟨hearlier, _, hbefore⟩ := List.pairwise_append.mp hordered
        refine List.pairwise_append.mpr ⟨hearlier, List.pairwise_singleton _ _, ?_⟩
        intro a ha b hb
        have hstart : b.start = t.start := by rw [List.mem_singleton.mp hb]
        rw [hstart]
        exact hbefore a ha t (List.mem_singleton_self t)
  · intro t ht
    obtain ⟨t', ht', rfl⟩ := Option.map_eq_some_iff.mp ht
    exact h.begun t' ht'

/-- Where no tenure lasts, one may begin. -/
theorem Sound.start (h : Sound l now) (hfree : ∀ t ∈ l.last, t.stop ≤ now) (owner : ω) (stop : τ) :
    Sound (l.start owner now stop) now := by
  have hended : ∀ t ∈ l.tenures, t.stop ≤ now := by
    intro t ht
    rcases List.mem_append.mp ht with hearlier | hlast
    · exact h.ended t hearlier
    · exact hfree t (Option.mem_toList.mp hlast)
  refine ⟨List.pairwise_append.mpr ⟨h.ordered, List.pairwise_singleton _ _, ?_⟩, hended, ?_⟩
  · intro a ha b hb
    rw [List.mem_singleton.mp hb]
    exact hended a ha
  · intro t ht
    cases ht
    exact le_rfl

/-- **Tenures do not overlap.** -/
theorem Sound.disjoint (h : Sound l now) :
    l.tenures.Pairwise fun a b => Disjoint (Set.Ico a.start a.stop) (Set.Ico b.start b.stop) := by
  refine h.ordered.imp fun {a b} hle => ?_
  rw [Set.disjoint_left]
  intro x ha hb
  exact absurd (hle.trans hb.1) (not_le.mpr ha.2)

/-- In particular those of different owners. -/
theorem Sound.exclusive (h : Sound l now) {a b : Tenure ω τ} (ha : a ∈ l.tenures)
    (hb : b ∈ l.tenures) (hne : a.owner ≠ b.owner) :
    Disjoint (Set.Ico a.start a.stop) (Set.Ico b.start b.stop) := by
  have : Std.Symm fun a b : Tenure ω τ =>
      Disjoint (Set.Ico a.start a.stop) (Set.Ico b.start b.stop) := ⟨fun _ _ h => h.symm⟩
  exact h.disjoint.forall ha hb fun heq => hne (congrArg Tenure.owner heq)

theorem covers_restop {o : ω} {t : τ} (h : l.Covers owner now) :
    (l.restop stop).Covers o t ↔ owner = o ∧ t < stop := by
  obtain ⟨last, hlast, rfl, _⟩ := h
  unfold Ledger.Covers Ledger.restop
  rw [show l.last = some last from hlast]
  constructor
  · rintro ⟨moved, hmoved, howner, hlt⟩
    cases hmoved
    exact ⟨howner, hlt⟩
  · rintro ⟨rfl, hlt⟩
    exact ⟨_, rfl, rfl, hlt⟩

/-! ## What owners do -/

section Owners

variable [DecidableEq ω]

instance (l : Ledger ω τ) (owner : ω) (now : τ) : Decidable (l.Covers owner now) :=
  inferInstanceAs (Decidable (∃ t ∈ l.last, t.owner = owner ∧ now < t.stop))

/-- The tenure of the owner goes on until `stop`, or one begins. -/
def Ledger.grant (l : Ledger ω τ) (owner : ω) (now stop : τ) : Ledger ω τ :=
  if l.Covers owner now then l.restop stop else l.start owner now stop

/-- The owner moves the end of its tenure. Outside of it nothing changes. -/
def Ledger.extend (l : Ledger ω τ) (owner : ω) (now stop : τ) : Ledger ω τ :=
  if l.Covers owner now then l.restop stop else l

/-- The owner ends its tenure. -/
def Ledger.quit (l : Ledger ω τ) (owner : ω) (now : τ) : Ledger ω τ := l.extend owner now now

/-- After a grant its owner is inside its tenure, and nobody else. -/
theorem covers_grant {o : ω} {t : τ} :
    (l.grant owner now stop).Covers o t ↔ owner = o ∧ t < stop := by
  unfold Ledger.grant
  split
  · rename_i hcovers
    exact covers_restop hcovers
  · constructor
    · rintro ⟨new, hnew, howner, hlt⟩
      cases hnew
      exact ⟨howner, hlt⟩
    · rintro ⟨rfl, hlt⟩
      exact ⟨_, rfl, rfl, hlt⟩

theorem covers_extend {o : ω} {t : τ} (h : l.Covers owner now) :
    (l.extend owner now stop).Covers o t ↔ owner = o ∧ t < stop := by
  unfold Ledger.extend
  rw [if_pos h]
  exact covers_restop h

theorem extend_outside (h : ¬ l.Covers owner now) : l.extend owner now stop = l := if_neg h

/-- **A grant** while no other owner's tenure lasts. -/
theorem Sound.grant (h : Sound l now) (hothers : ∀ o, l.Covers o now → o = owner) (stop : τ) :
    Sound (l.grant owner now stop) now := by
  unfold Ledger.grant
  split
  · exact h.restop stop
  · rename_i hcovers
    refine h.start (fun t ht => not_lt.mp fun hlt => ?_) owner stop
    have howner : t.owner = owner := hothers t.owner ⟨t, ht, rfl, hlt⟩
    exact hcovers ⟨t, ht, howner, hlt⟩

theorem Sound.extend (h : Sound l now) (owner : ω) (stop : τ) :
    Sound (l.extend owner now stop) now := by
  unfold Ledger.extend
  split
  · exact h.restop stop
  · exact h

theorem Sound.quit (h : Sound l now) (owner : ω) : Sound (l.quit owner now) now :=
  h.extend owner now

end Owners

end Lib.Tenures
