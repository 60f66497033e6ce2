import Mathlib.Tactic

set_option autoImplicit false

/-! # The first of a ranking

A query that orders its rows and returns one returns the head of the sorted rows: one that nothing
ranks before, and one exactly if there are rows. Ties are broken by the order of the rows.
-/

namespace Lib.Ranking

universe u

variable {α : Type u} (r : α → α → Prop) [DecidableRel r]

/-- There is a first row exactly if there is a row. -/
theorem head_none {l : List α} : (l.insertionSort r).head? = none ↔ l = [] := by
  rw [List.head?_eq_none_iff, ← List.length_eq_zero_iff, List.length_insertionSort,
    List.length_eq_zero_iff]

theorem head_mem {l : List α} {a : α} (h : (l.insertionSort r).head? = some a) : a ∈ l :=
  (List.mem_insertionSort r).mp (List.mem_of_mem_head? h)

/-- The first of the unsorted rows stays first if it ranks before all. -/
theorem head_of_first {l : List α} {a : α} (h : ∀ b ∈ l, r a b) :
    ((a :: l).insertionSort r).head? = some a := by
  rw [List.insertionSort_cons]
  cases hsorted : l.insertionSort r with
  | nil => rfl
  | cons b rest =>
      have hb : b ∈ l.insertionSort r := hsorted ▸ List.mem_cons_self
      have hle : r a b := h b ((List.mem_insertionSort r).mp hb)
      rw [List.orderedInsert, if_pos hle]
      rfl

variable [Std.Total r] [IsTrans α r]

/-- **The first row** ranks before all rows. -/
theorem head_first {l : List α} {a : α} (h : (l.insertionSort r).head? = some a) :
    a ∈ l ∧ ∀ b ∈ l, r a b := by
  refine ⟨head_mem r h, fun b hb => ?_⟩
  have hsorted := List.pairwise_insertionSort r l
  have hmem := (List.mem_insertionSort r).mpr hb
  cases hlist : l.insertionSort r with
  | nil =>
      rw [hlist] at h
      cases h
  | cons first rest =>
      rw [hlist] at h hsorted hmem
      cases h
      rcases List.mem_cons.mp hmem with rfl | hmem
      · rcases Std.Total.total (r := r) b b with h | h <;> exact h
      · exact (List.pairwise_cons.mp hsorted).1 b hmem

end Lib.Ranking
