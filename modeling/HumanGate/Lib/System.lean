import Mathlib.Tactic

set_option autoImplicit false

/-! # Systems that take one operation at a time

A system is a set of initial states, a guard that says which operation may be issued in
which state, and the effect of an operation. Everything the environment chooses (the time,
the order in which a query returns ties, a random delay) is part of the operation, so the
effect is a function. A property of *every finite sequence of operations, in every order* is
then a property of every reachable state, and is proved by `System.Reachable.invariant`:
it holds initially and every issued operation keeps it.

`System.restrict` adds a condition on the steps. It is how "in every run whose steps all
meet the condition" is written.
-/

namespace Lib

universe u v w

/-- Initial states, the guard of an operation, and its effect. -/
structure System (σ : Type u) (ο : Type v) where
  init : σ → Prop
  allowed : σ → ο → Prop
  exec : σ → ο → σ

namespace System

variable {σ : Type u} {ο : Type v} (S : System σ ο)

/-- The states reached from an initial state by finitely many issued operations. -/
inductive Reachable : σ → Prop
  | init {s : σ} : S.init s → Reachable s
  | step {s : σ} {o : ο} : Reachable s → S.allowed s o → Reachable (S.exec s o)

/-- The states reached from `s` by finitely many issued operations. -/
inductive Steps (s : σ) : σ → Prop
  | refl : Steps s s
  | step {t : σ} {o : ο} : Steps s t → S.allowed t o → Steps s (S.exec t o)

/-- The system whose operations are issued only where `cond` holds too. -/
def restrict (cond : σ → ο → Prop) : System σ ο :=
  { S with allowed := fun s o => S.allowed s o ∧ cond s o }

/-- The system with a log: `f` says what an operation adds to it. -/
def logged {α : Type w} (f : σ → ο → List α) : System (σ × List α) ο where
  init p := S.init p.1 ∧ p.2 = []
  allowed p o := S.allowed p.1 o
  exec p o := (S.exec p.1 o, p.2 ++ f p.1 o)

/-- The operations of `ops` may be issued one after the other, starting in `s`. -/
def Legal : σ → List ο → Prop
  | _, [] => True
  | s, o :: ops => S.allowed s o ∧ Legal (S.exec s o) ops

/-- Legality of a concrete sequence is decided by running it. -/
instance decLegal [∀ s o, Decidable (S.allowed s o)] : (s : σ) → (ops : List ο) →
    Decidable (S.Legal s ops)
  | _, [] => isTrue trivial
  | s, o :: ops =>
      have := decLegal (S.exec s o) ops
      inferInstanceAs (Decidable (S.allowed s o ∧ S.Legal (S.exec s o) ops))

instance decRestrict (cond : σ → ο → Prop) [∀ s o, Decidable (S.allowed s o)]
    [∀ s o, Decidable (cond s o)] (s : σ) (o : ο) : Decidable ((S.restrict cond).allowed s o) :=
  inferInstanceAs (Decidable (S.allowed s o ∧ cond s o))

instance decLogged {α : Type w} (f : σ → ο → List α) [∀ s o, Decidable (S.allowed s o)]
    (p : σ × List α) (o : ο) : Decidable ((S.logged f).allowed p o) :=
  inferInstanceAs (Decidable (S.allowed p.1 o))

variable {S}

/-- **The invariant rule.** What holds initially and is kept by every issued operation
holds in every reachable state. -/
theorem Reachable.invariant {I : σ → Prop} (h0 : ∀ s, S.init s → I s)
    (hstep : ∀ s o, I s → S.allowed s o → I (S.exec s o)) {s : σ} (h : S.Reachable s) : I s := by
  induction h with
  | init hs => exact h0 _ hs
  | step _ ha ih => exact hstep _ _ ih ha

/-- The rule for "once it holds, it holds from then on". -/
theorem Steps.preserves {I : σ → Prop} (hstep : ∀ s o, I s → S.allowed s o → I (S.exec s o))
    {s t : σ} (h : S.Steps s t) (hs : I s) : I t := by
  induction h with
  | refl => exact hs
  | step _ ha ih => exact hstep _ _ ih ha

theorem Steps.trans {s t u : σ} (h : S.Steps s t) (h' : S.Steps t u) : S.Steps s u := by
  induction h' with
  | refl => exact h
  | step _ ha ih => exact ih.step ha

/-- A legal sequence of operations is a run. -/
theorem Steps.of_legal (ops : List ο) : ∀ {s : σ}, S.Legal s ops →
    S.Steps s (ops.foldl S.exec s) := by
  induction ops with
  | nil => intro s _; exact .refl
  | cons o ops ih =>
      intro s hl
      exact (Steps.step .refl hl.1).trans (ih hl.2)

theorem Reachable.of_steps {s t : σ} (hs : S.Reachable s) (h : S.Steps s t) : S.Reachable t := by
  induction h with
  | refl => exact hs
  | step _ ha ih => exact ih.step ha

/-- A legal sequence of operations ends in a reachable state. -/
theorem Reachable.of_legal (ops : List ο) {s : σ} (hs : S.Reachable s) (hl : S.Legal s ops) :
    S.Reachable (ops.foldl S.exec s) :=
  hs.of_steps (.of_legal ops hl)

/-- A run that meets a condition is a run. -/
theorem Reachable.of_restrict {cond : σ → ο → Prop} {s : σ}
    (h : (S.restrict cond).Reachable s) : S.Reachable s := by
  induction h with
  | init hs => exact .init hs
  | step _ ha ih => exact ih.step ha.1

/-- A run with a log is a run. -/
theorem Reachable.of_logged {α : Type w} {f : σ → ο → List α} {p : σ × List α}
    (h : (S.logged f).Reachable p) : S.Reachable p.1 := by
  induction h with
  | init hp => exact .init hp.1
  | step _ ha ih => exact ih.step ha

end System

end Lib
