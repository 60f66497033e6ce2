import Mathlib.Tactic

set_option autoImplicit false

/-! # Fixed windows

A fixed-window limiter: the first request of a key starts a window, a window allows a number of
requests, and it ends when its length has passed. The ideal limiter keeps the window of every key
for ever. An implementation may forget the windows that have ended (`hit_of_expired`), and it may
count on after the limit (`Policy.hit` saturates).
-/

namespace Lib.FixedWindow

universe u v

variable {κ : Type u} {τ : Type v}

/-- When a window was started, and how many requests it has allowed. -/
structure Window (τ : Type v) where
  start : τ
  count : Nat
  deriving DecidableEq

/-- How many requests a window allows, and how long it is. -/
structure Policy (τ : Type v) [Zero τ] [LT τ] where
  limit : Nat
  length : τ
  limit_pos : 1 ≤ limit
  length_pos : 0 < length

/-- A request is answered by whether it is allowed, and else how long its window goes on. -/
abbrev Answer (τ : Type v) := Bool × τ

structure Request (κ : Type u) (τ : Type v) where
  key : κ
  now : τ

variable [AddCommGroup τ] [LinearOrder τ]

namespace Policy

variable (p : Policy τ)

def expired (now : τ) (w : Window τ) : Bool := decide (p.length ≤ now - w.start)

/-- A request of a key: the window of the key after it, and the answer. -/
def hit (now : τ) : Option (Window τ) → Window τ × Answer τ
  | none => (⟨now, 1⟩, true, 0)
  | some w =>
      if p.expired now w then (⟨now, 1⟩, true, 0)
      else if w.count < p.limit then (⟨w.start, w.count + 1⟩, true, 0)
      else (w, false, p.length - (now - w.start))

variable {p} {now : τ} {w : Window τ}

/-- A window that has ended may as well be forgotten. -/
theorem hit_of_expired (h : p.expired now w = true) : p.hit now (some w) = p.hit now none :=
  if_pos h

theorem hit_open (h : p.expired now w = false) (hcount : w.count < p.limit) :
    p.hit now (some w) = (⟨w.start, w.count + 1⟩, true, 0) :=
  (if_neg (by rw [h]; exact Bool.false_ne_true)).trans (if_pos hcount)

theorem hit_full (h : p.expired now w = false) (hcount : ¬ w.count < p.limit) :
    p.hit now (some w) = (w, false, p.length - (now - w.start)) :=
  (if_neg (by rw [h]; exact Bool.false_ne_true)).trans (if_neg hcount)

/-- The window of a key is open when it has been asked for. -/
theorem not_expired_hit (previous : Option (Window τ)) :
    p.expired now (p.hit now previous).1 = false := by
  have hnew : p.expired now ⟨now, 1⟩ = false := by
    refine decide_eq_false (not_le_of_gt ?_)
    rw [sub_self]
    exact p.length_pos
  cases previous with
  | none => exact hnew
  | some w =>
      cases hw : p.expired now w with
      | true =>
          rw [hit_of_expired hw]
          exact hnew
      | false =>
          by_cases hcount : w.count < p.limit
          · rw [hit_open hw hcount]
            exact hw
          · rw [hit_full hw hcount]
            exact hw

variable [IsOrderedAddMonoid τ]

/-- An ended window stays ended. -/
theorem expired_later {now' : τ} (hle : now ≤ now') (h : p.expired now w = true) :
    p.expired now' w = true := by
  have h : p.length ≤ now - w.start := of_decide_eq_true h
  exact decide_eq_true (h.trans (sub_le_sub_right hle _))

/-- Windows end in the order in which they were started. -/
theorem expired_older {w' : Window τ} (hle : w'.start ≤ w.start) (h : p.expired now w = true) :
    p.expired now w' = true := by
  have h : p.length ≤ now - w.start := of_decide_eq_true h
  exact decide_eq_true (h.trans (sub_le_sub_left hle _))

/-- What is left of an open window. -/
theorem left_pos (h : p.expired now w = false) : 0 < p.length - (now - w.start) :=
  sub_pos.mpr (lt_of_not_ge (of_decide_eq_false h))

end Policy

/-! ## The ideal limiter -/

/-- The window of every key that was ever asked for. -/
abbrev Windows (κ : Type u) (τ : Type v) := κ → Option (Window τ)

variable [DecidableEq κ] (p : Policy τ)

def check (ws : Windows κ τ) (r : Request κ τ) : Windows κ τ × Answer τ :=
  let (w, answer) := p.hit r.now (ws r.key)
  (Function.update ws r.key (some w), answer)

/-- The answers to a sequence of requests. -/
def answers : Windows κ τ → List (Request κ τ) → List (Answer τ)
  | _, [] => []
  | ws, r :: rest => (check p ws r).2 :: answers (check p ws r).1 rest

/-- The key has an open window. -/
def Live (ws : Windows κ τ) (now : τ) (k : κ) : Prop := ∃ w ∈ ws k, p.expired now w = false

instance (ws : Windows κ τ) (now : τ) (k : κ) : Decidable (Live p ws now k) :=
  decidable_of_iff ((ws k).any fun w => !p.expired now w) (by
    unfold Live
    cases ws k <;> simp)

/-- At most `cap` keys have an open window. -/
def LiveAtMost (cap : Nat) (ws : Windows κ τ) (now : τ) : Prop :=
  ∀ ks : Finset κ, (∀ k ∈ ks, Live p ws now k) → ks.card ≤ cap

/-- After every request, at most `cap` keys have an open window. -/
def Crowd (cap : Nat) : Windows κ τ → List (Request κ τ) → Prop
  | _, [] => True
  | ws, r :: rest => LiveAtMost p cap (check p ws r).1 r.now ∧ Crowd cap (check p ws r).1 rest

instance decCrowd [Fintype κ] (cap : Nat) : (ws : Windows κ τ) → (rs : List (Request κ τ)) →
    Decidable (Crowd p cap ws rs)
  | _, [] => isTrue trivial
  | ws, r :: rest =>
      have := decCrowd cap (check p ws r).1 rest
      have : Decidable (LiveAtMost p cap (check p ws r).1 r.now) :=
        inferInstanceAs (Decidable (∀ ks : Finset κ, _ → ks.card ≤ cap))
      inferInstanceAs (Decidable (_ ∧ _))

/-- Times never go back. -/
def Ordered (rs : List (Request κ τ)) : Prop := rs.Pairwise fun a b => a.now ≤ b.now

instance (rs : List (Request κ τ)) : Decidable (Ordered rs) :=
  inferInstanceAs (Decidable (rs.Pairwise _))

end Lib.FixedWindow
