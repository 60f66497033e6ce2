import Mathlib.Data.List.Basic
import Mathlib.Tactic

set_option autoImplicit false

/-! # Row level security

A table with forced row level security, as the commands of one user meet it. A policy says of every
row whether this user may select, insert, update or delete it. A row that the policy hides is not
there for a command, and no error says so; a row that would be written against the policy makes the
whole command fail. A command with a condition reads columns: it meets only rows that may be
selected, and an `UPDATE` with a condition leaves only such rows.
-/

namespace Lib.RowSecurity

universe u

variable {ρ : Type u}

/-- What one user may do to the rows of a table. -/
structure Policy (ρ : Type u) where
  select : ρ → Bool
  insert : ρ → Bool
  update : ρ → Bool
  delete : ρ → Bool

/-- A command, with its condition if it has one. -/
inductive Command (ρ : Type u) where
  | select (cond : ρ → Bool)
  | insert (row : ρ)
  | update (cond : Option (ρ → Bool)) (set : ρ → ρ)
  | delete (cond : Option (ρ → Bool))

def Command.isSelect : Command ρ → Bool
  | .select _ => true
  | _ => false

/-- The table after a command, and the rows that the command has read or written. -/
structure Effect (ρ : Type u) where
  rows : List ρ
  touched : List ρ

namespace Policy

variable (p : Policy ρ)

/-- A row that a command with this condition finds. -/
def finds (cond : Option (ρ → Bool)) (row : ρ) : Bool :=
  match cond with
  | none => true
  | some cond => p.select row && cond row

/-- A row that an `UPDATE` with this condition may leave. -/
def accepts (cond : Option (ρ → Bool)) (row : ρ) : Bool :=
  p.update row && (cond.isNone || p.select row)

/-- The command is executed; `none` where it violates the policy. -/
def run (rows : List ρ) : Command ρ → Option (Effect ρ)
  | .select cond =>
      some { rows := rows, touched := rows.filter fun row => p.select row && cond row }
  | .insert row => if p.insert row then some { rows := rows ++ [row], touched := [row] } else none
  | .update cond set =>
      let hit := fun row => p.update row && p.finds cond row
      if rows.all fun row => !hit row || p.accepts cond (set row) then
        some { rows := rows.map fun row => if hit row then set row else row,
               touched := (rows.filter hit).map set }
      else none
  | .delete cond =>
      let hit := fun row => p.delete row && p.finds cond row
      some { rows := rows.filter fun row => !hit row, touched := rows.filter hit }

/-! ## Rows that a user is kept off -/

/-- The policy gives no access to the rows `own`: none that is there may be selected or deleted, and
none may be updated or left by an update. -/
structure KeepsOff (own : ρ → Bool) (rows : List ρ) : Prop where
  select : ∀ row ∈ rows, own row = true → p.select row = false
  delete : ∀ row ∈ rows, own row = true → p.delete row = false
  update : ∀ row, own row = true → p.update row = false

variable {p} {own : ρ → Bool} {rows : List ρ} {e : Effect ρ}

theorem KeepsOff.run_select (h : p.KeepsOff own rows) {cond : ρ → Bool}
    (he : p.run rows (.select cond) = some e) :
    e.rows.filter own = rows.filter own ∧ ∀ row ∈ e.touched, own row = false := by
  obtain rfl := Option.some.inj he
  refine ⟨rfl, fun row hrow => ?_⟩
  simp only [List.mem_filter, Bool.and_eq_true] at hrow
  by_contra hown
  rw [Bool.not_eq_false] at hown
  rw [h.select row hrow.1 hown] at hrow
  exact absurd hrow.2.1 (by simp)

theorem run_insert_own {row : ρ} (hins : own row = true → p.insert row = false)
    (he : p.run rows (.insert row) = some e) :
    e.rows.filter own = rows.filter own ∧ ∀ row ∈ e.touched, own row = false := by
  simp only [run, Option.ite_none_right_eq_some, Option.some.injEq] at he
  obtain ⟨hpass, rfl⟩ := he
  have hown : own row = false := by
    by_contra hown
    rw [hins (by simpa using hown)] at hpass
    cases hpass
  constructor
  · simp [List.filter_append, hown]
  · intro row' hrow'
    rw [List.mem_singleton] at hrow'
    rwa [hrow']

/-- What a command does to the rows one by one, each of `own` left as it is. -/
theorem filter_map_own {f : ρ → ρ} (h : ∀ row ∈ rows, own row = true → f row = row)
    (h' : ∀ row ∈ rows, own row = false → own (f row) = false) :
    (rows.map f).filter own = rows.filter own := by
  induction rows with
  | nil => rfl
  | cons row rows ih =>
      have ih := ih (fun r hr => h r (List.mem_cons_of_mem row hr))
        (fun r hr => h' r (List.mem_cons_of_mem row hr))
      rw [List.map_cons, List.filter_cons, List.filter_cons, ih]
      cases hown : own row with
      | true => rw [h row List.mem_cons_self hown, hown]
      | false => simp [h' row List.mem_cons_self hown]

/-- An update changes no row of `own`, takes none away and leaves none. -/
theorem KeepsOff.run_update (h : p.KeepsOff own rows) {cond : Option (ρ → Bool)} {set : ρ → ρ}
    (he : p.run rows (.update cond set) = some e) :
    e.rows.filter own = rows.filter own ∧ ∀ row ∈ e.touched, own row = false := by
  simp only [run, Option.ite_none_right_eq_some, Option.some.injEq, List.all_eq_true] at he
  obtain ⟨hcheck, rfl⟩ := he
  have hset : ∀ row ∈ rows, (p.update row && p.finds cond row) = true → own (set row) = false := by
    intro row hrow hhit
    have hpass := hcheck row hrow
    rw [hhit, accepts] at hpass
    by_contra hown
    rw [h.update (set row) (by simpa using hown)] at hpass
    cases hpass
  constructor
  · apply filter_map_own
    · intro row _ hown
      simp only [h.update row hown, Bool.false_and, Bool.false_eq_true, ↓reduceIte]
    · intro row hrow hown
      split
      case isTrue hhit => exact hset row hrow hhit
      case isFalse => exact hown
  · intro row hrow
    obtain ⟨old, hold, rfl⟩ := List.mem_map.mp hrow
    obtain ⟨hmem, hhit⟩ := List.mem_filter.mp hold
    exact hset old hmem hhit

theorem KeepsOff.run_delete (h : p.KeepsOff own rows) {cond : Option (ρ → Bool)}
    (he : p.run rows (.delete cond) = some e) :
    e.rows.filter own = rows.filter own ∧ ∀ row ∈ e.touched, own row = false := by
  obtain rfl := Option.some.inj he
  constructor
  · rw [List.filter_filter]
    refine List.filter_congr fun row hrow => ?_
    cases hown : own row with
    | true => simp [h.delete row hrow hown]
    | false => rfl
  · intro row hrow
    obtain ⟨hmem, hhit⟩ := List.mem_filter.mp hrow
    by_contra hown
    rw [h.delete row hmem (by simpa using hown)] at hhit
    cases hhit

/-- **Whoever is kept off the rows and inserts none neither reads nor changes any of them.** -/
theorem KeepsOff.run (h : p.KeepsOff own rows) {c : Command ρ}
    (hins : ∀ row, c = .insert row → own row = true → p.insert row = false)
    (he : p.run rows c = some e) :
    e.rows.filter own = rows.filter own ∧ ∀ row ∈ e.touched, own row = false := by
  cases c with
  | select cond => exact h.run_select he
  | insert row => exact run_insert_own (hins row rfl) he
  | update cond set => exact h.run_update he
  | delete cond => exact h.run_delete he

/-- Rows of `own` that may not be updated: a command of the user adds none but by `INSERT`. -/
theorem mem_run_own (hupd : ∀ row, own row = true → p.update row = false) {c : Command ρ}
    (he : p.run rows c = some e) {row : ρ} (hrow : row ∈ e.rows) (hown : own row = true) :
    row ∈ rows ∨ c = .insert row ∧ p.insert row = true := by
  cases c with
  | select cond =>
      obtain rfl := Option.some.inj he
      exact Or.inl hrow
  | insert new =>
      simp only [run, Option.ite_none_right_eq_some, Option.some.injEq] at he
      obtain ⟨hpass, rfl⟩ := he
      rcases List.mem_append.mp hrow with hold | hnew
      · exact Or.inl hold
      · obtain rfl := List.mem_singleton.mp hnew
        exact Or.inr ⟨rfl, hpass⟩
  | update cond set =>
      simp only [run, Option.ite_none_right_eq_some, Option.some.injEq, List.all_eq_true] at he
      obtain ⟨hcheck, rfl⟩ := he
      obtain ⟨old, hold, rfl⟩ := List.mem_map.mp hrow
      split at hown
      case isTrue hhit =>
        have hpass := hcheck old hold
        rw [hhit, accepts, hupd _ hown] at hpass
        cases hpass
      case isFalse hmiss =>
        rw [if_neg hmiss]
        exact Or.inl hold
  | delete cond =>
      obtain rfl := Option.some.inj he
      exact Or.inl (List.mem_of_mem_filter hrow)

/-! ## Commands of a user with full access to the rows they are about -/

/-- An `UPDATE` by a user who may update and select every row it finds and every row it leaves. -/
theorem run_update {cond : ρ → Bool} {set : ρ → ρ}
    (h : ∀ row ∈ rows, cond row = true → p.update row = true ∧ p.select row = true ∧
      p.update (set row) = true ∧ p.select (set row) = true) :
    p.run rows (.update (some cond) set) = some
      { rows := rows.map fun row => if cond row then set row else row,
        touched := (rows.filter cond).map set } := by
  have hhit : ∀ row ∈ rows, (p.update row && p.finds (some cond) row) = cond row := by
    intro row hrow
    show (p.update row && (p.select row && cond row)) = cond row
    cases hcond : cond row with
    | true =>
        obtain ⟨hupd, hsel, -⟩ := h row hrow hcond
        rw [hupd, hsel]
        rfl
    | false => simp
  have hcheck : (rows.all fun row =>
      !(p.update row && p.finds (some cond) row) || p.accepts (some cond) (set row)) = true := by
    rw [List.all_eq_true]
    intro row hrow
    rw [hhit row hrow]
    cases hcond : cond row with
    | true =>
        obtain ⟨-, -, hupd, hsel⟩ := h row hrow hcond
        simp [accepts, hupd, hsel]
    | false => rfl
  simp only [run, hcheck, ↓reduceIte, Option.some.injEq, Effect.mk.injEq]
  constructor
  · exact List.map_congr_left fun row hrow => by simp only [hhit row hrow]
  · rw [List.filter_congr hhit]

/-- A `DELETE` by a user who may delete and select every row it finds. -/
theorem run_delete {cond : ρ → Bool}
    (h : ∀ row ∈ rows, cond row = true → p.delete row = true ∧ p.select row = true) :
    p.run rows (.delete (some cond)) = some
      { rows := rows.filter fun row => !cond row, touched := rows.filter cond } := by
  have hhit : ∀ row ∈ rows, (p.delete row && p.finds (some cond) row) = cond row := by
    intro row hrow
    show (p.delete row && (p.select row && cond row)) = cond row
    cases hcond : cond row with
    | true =>
        obtain ⟨hdel, hsel⟩ := h row hrow hcond
        rw [hdel, hsel]
        rfl
    | false => simp
  simp only [run, Option.some.injEq, Effect.mk.injEq]
  constructor
  · exact List.filter_congr fun row hrow => by rw [hhit row hrow]
  · exact List.filter_congr hhit

end Policy

end Lib.RowSecurity
