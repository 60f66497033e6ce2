import HumanGate.Lib.Table

set_option autoImplicit false

/-! # Archives

A table that is never cut: rows are added behind those that are there, and no update writes the
columns `g`. What was recorded once is found at its position for ever, so a fact that names rows by
their positions and speaks of these columns stays true.
-/

namespace Lib

universe u v

variable {ρ : Type u} {κ : Type v} {g : ρ → κ} {rows rows' rows'' : List ρ}

/-- The columns `g` of the first table are a first part of those of the second. -/
def Archived (g : ρ → κ) (rows rows' : List ρ) : Prop := rows.map g <+: rows'.map g

namespace Archived

theorem refl (g : ρ → κ) (rows : List ρ) : Archived g rows rows := List.prefix_refl _

theorem trans (h : Archived g rows rows') (h' : Archived g rows' rows'') : Archived g rows rows'' :=
  List.IsPrefix.trans h h'

theorem append (g : ρ → κ) (rows more : List ρ) : Archived g rows (rows ++ more) := by
  unfold Archived
  rw [List.map_append]
  exact List.prefix_append _ _

/-- An update of other columns of one row. -/
theorem modify {f : ρ → ρ} (hf : ∀ row, g (f row) = g row) (rows : List ρ) (i : Nat) :
    Archived g rows (rows.modify i f) := by
  have hsame : (rows.modify i f).map g = rows.map g := by
    refine List.ext_getElem? fun j => ?_
    rw [List.getElem?_map, List.getElem?_map, List.getElem?_modify]
    cases rows[j]? with
    | none => rfl
    | some row =>
        by_cases hij : i = j
        · simp [hij, hf]
        · simp [hij]
  unfold Archived
  rw [hsame]

theorem length_le (h : Archived g rows rows') : rows.length ≤ rows'.length := by
  have hle := List.IsPrefix.length_le h
  rwa [List.length_map, List.length_map] at hle

/-- **A recorded row is still there**, with the columns it had. -/
theorem get (h : Archived g rows rows') {i : Nat} {row : ρ} (hrow : rows[i]? = some row) :
    ∃ row', rows'[i]? = some row' ∧ g row' = g row := by
  obtain ⟨more, hmore⟩ := h
  have hmap : (rows.map g)[i]? = some (g row) := by
    rw [List.getElem?_map, hrow]
    rfl
  have hlater : (rows'.map g)[i]? = some (g row) := by
    rw [← hmore]
    exact Table.get_append_of_some hmap
  rw [List.getElem?_map, Option.map_eq_some_iff] at hlater
  exact hlater

/-- A row of a table of which nothing is ever written again. -/
theorem get_self {rows rows' : List ρ} (h : Archived id rows rows') {i : Nat} {row : ρ}
    (hrow : rows[i]? = some row) : rows'[i]? = some row := by
  obtain ⟨row', hrow', hsame⟩ := h.get hrow
  rw [hrow']
  exact congrArg some hsame

theorem mem {rows rows' : List ρ} (h : Archived id rows rows') {row : ρ} (hrow : row ∈ rows) :
    row ∈ rows' := by
  obtain ⟨i, hi⟩ := List.mem_iff_getElem?.mp hrow
  exact Table.mem_of_get (h.get_self hi)

end Archived

end Lib
