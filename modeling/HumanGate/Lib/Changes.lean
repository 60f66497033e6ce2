import Mathlib.Tactic

set_option autoImplicit false

/-! # The changes in a sequence of observations

A value is observed from time to time. `changes a l` are the pairs of different neighbours in the
sequence that starts with `a` and goes on with `l`: what has to be reported so that a listener
knows every observed value.
-/

namespace Lib

universe u

variable {α : Type u} [DecidableEq α]

def changes : α → List α → List (α × α)
  | _, [] => []
  | a, b :: l => if a = b then changes b l else (a, b) :: changes b l

/-- A further observation adds a change if it differs from the last one. -/
theorem changes_concat (a : α) (l : List α) (b : α) :
    changes a (l ++ [b])
      = changes a l ++ (if l.getLastD a = b then [] else [(l.getLastD a, b)]) := by
  induction l generalizing a with
  | nil => simp [changes]
  | cons c l ih =>
      rw [List.getLastD_cons, List.cons_append, changes, changes, ih c]
      by_cases hac : a = c
      · rw [if_pos hac, if_pos hac]
      · rw [if_neg hac, if_neg hac, List.cons_append]

end Lib
