import Mathlib.Logic.Function.Basic
import Mathlib.Logic.Relation

set_option autoImplicit false

/-! # Families of state machines

A family of machines, one for each index, of which one takes a step at a time. A run of the family
is a run of each member (`Steps.member`), and what every step of a member keeps, the family keeps
for all members (`Steps.invariant`).
-/

namespace Lib.Family

open Relation

universe u v

variable {ι : Type u} [DecidableEq ι] {σ : Type v}

/-- One member takes a step of its relation. -/
inductive Step (R : ι → σ → σ → Prop) (D : ι → σ) : (ι → σ) → Prop
  | mk {i : ι} {x : σ} : R i (D i) x → Step R D (Function.update D i x)

abbrev Steps (R : ι → σ → σ → Prop) : (ι → σ) → (ι → σ) → Prop := ReflTransGen (Step R)

variable {R : ι → σ → σ → Prop} {D D' : ι → σ}

theorem Step.of_eq {i : ι} {x : σ} (h : R i (D i) x) (heq : D' = Function.update D i x) :
    Step R D D' := by
  rw [heq]
  exact .mk h

theorem Steps.of_eq (heq : D' = D) : Steps R D D' := by
  rw [heq]

theorem Step.member (h : Step R D D') (i : ι) : D' i = D i ∨ R i (D i) (D' i) := by
  cases h with
  | @mk j x h =>
      by_cases hij : i = j
      · subst hij
        rw [Function.update_self]
        exact .inr h
      · rw [Function.update_of_ne hij]
        exact .inl rfl

/-- A run of the family is a run of each member. -/
theorem Steps.member (h : Steps R D D') (i : ι) : ReflTransGen (R i) (D i) (D' i) := by
  induction h with
  | refl => exact .refl
  | tail _ hstep ih =>
      rcases hstep.member i with hsame | hmove
      · rw [hsame]
        exact ih
      · exact ih.tail hmove

/-- What every step of a member keeps. -/
theorem Steps.invariant {I : ι → σ → Prop} (hstep : ∀ i x y, R i x y → I i x → I i y)
    (h : Steps R D D') (hD : ∀ i, I i (D i)) (i : ι) : I i (D' i) := by
  have hrun := h.member i
  generalize D' i = y at hrun ⊢
  induction hrun with
  | refl => exact hD i
  | tail _ hmove ih => exact hstep i _ _ hmove ih

end Lib.Family
