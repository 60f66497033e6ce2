import Mathlib.Tactic

set_option autoImplicit false

/-! # Conditions of a query

A condition of SQL is true, false or NULL. A comparison with NULL is NULL, and a query keeps the
rows for which its condition is true. The lemmas say when a condition is true or false; so a
condition that is never NULL is an ordinary predicate (`Truth.of_bool`).
-/

namespace Lib.Sql

universe u

/-- True, false, or NULL. -/
abbrev Truth := Option Bool

/-- `AND`. A false part makes it false, whatever the other is. -/
def both : Truth → Truth → Truth
  | some false, _ => some false
  | some true, b => b
  | none, some false => some false
  | none, _ => none

/-- `NOT`. -/
def negate (t : Truth) : Truth := t.map not

variable {α : Type u}

/-- A comparison of two columns. -/
def compare (p : α → α → Bool) : Option α → Option α → Truth
  | some a, some b => some (p a b)
  | _, _ => none

/-- `IS NOT NULL`. -/
def isNotNull (x : Option α) : Truth := some x.isSome

/-- `WHERE`. -/
def keep (cond : α → Truth) (rows : List α) : List α := rows.filter fun r => cond r == some true

/-- `EXISTS`. -/
def anyRow (cond : α → Truth) (rows : List α) : Truth := some (!(keep cond rows).isEmpty)

@[simp] theorem both_true (b : Truth) : both (some true) b = b := rfl

@[simp] theorem both_false (b : Truth) : both (some false) b = some false := rfl

theorem both_bool (a b : Bool) : both (some a) (some b) = some (a && b) := by
  cases a <;> rfl

theorem negate_bool (a : Bool) : negate (some a) = some (!a) := rfl

@[simp] theorem compare_some (p : α → α → Bool) (a b : α) :
    compare p (some a) (some b) = some (p a b) := rfl

@[simp] theorem compare_none (p : α → α → Bool) (b : Option α) : compare p none b = none := rfl

/-! What is true: -/

@[simp] theorem bool_isTrue (a : Bool) : (some a == some true) = a := by
  cases a <;> rfl

@[simp] theorem both_isTrue (a b : Truth) :
    (both a b == some true) = (a == some true && b == some true) := by
  rcases a with _ | _ | _ <;> rcases b with _ | _ | _ <;> rfl

/-- Equality with a value that is not NULL. -/
@[simp] theorem compare_beq_isTrue [BEq α] (a : Option α) (b : α) :
    (compare (fun p q => p == q) a (some b) == some true) = (a == some b) := by
  cases a with
  | none => rfl
  | some a => exact bool_isTrue _

/-- A condition that is true or false. -/
theorem keep_bool {cond : α → Truth} {p : α → Bool} {rows : List α}
    (h : ∀ r ∈ rows, cond r = some (p r)) : keep cond rows = rows.filter p := by
  refine List.filter_congr fun r hr => ?_
  rw [h r hr]
  cases p r <;> rfl

theorem anyRow_eq (cond : α → Truth) (rows : List α) :
    anyRow cond rows = some (rows.any fun r => cond r == some true) := by
  unfold anyRow keep
  induction rows with
  | nil => rfl
  | cons r rest ih =>
      rw [List.filter_cons, List.any_cons]
      cases hr : cond r == some true with
      | true => simp
      | false => simpa using ih

end Lib.Sql
