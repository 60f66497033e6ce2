import Mathlib.Tactic
import Mathlib.Data.Nat.Find

set_option autoImplicit false

/-! # UTC days and months

Instants are microseconds since 1970-01-01T00:00:00Z. `dayStart` and `monthStart` are the
midnight of the instant's day and of the first day of its month in the Gregorian calendar.
What a budget over such windows needs of them is that they never lie in the future and that
they are monotone: a later instant never has an earlier day or month.
-/

namespace Lib.Calendar

/-- Microseconds since 1970-01-01T00:00:00Z. -/
abbrev Instant := Nat

def microsPerSecond : Nat := 1000000

/-- A duration in seconds, in the unit of instants. -/
def seconds (n : Nat) : Nat := n * microsPerSecond

def microsPerDay : Nat := 86400 * microsPerSecond

/-- Midnight (UTC) of the day of `t`. -/
def dayStart (t : Instant) : Instant := t / microsPerDay * microsPerDay

/-! ## The Gregorian calendar -/

/-- Leap years up to and including year `y`. -/
def leapsThrough (y : Nat) : Nat := y / 4 - y / 100 + y / 400

def isLeap (y : Nat) : Bool := y % 4 == 0 && (y % 100 != 0 || y % 400 == 0)

/-- Days from 1970-01-01 to the first of January, `k` years later. -/
def daysBeforeYear (k : Nat) : Nat := 365 * k + (leapsThrough (1969 + k) - leapsThrough 1969)

/-- Days from the first of January to the first of the month with index `r` (January is 0). -/
def daysBeforeMonth (leap : Bool) (r : Nat) : Nat :=
  [0, 31, 59, 90, 120, 151, 181, 212, 243, 273, 304, 334].getD r 0
    + (if leap && decide (2 ≤ r) then 1 else 0)

/-- The day on which the month begins that is `m` months after January 1970. -/
def monthFirstDay (m : Nat) : Nat :=
  daysBeforeYear (m / 12) + daysBeforeMonth (isLeap (1970 + m / 12)) (m % 12)

/-- The first day of the month that contains day `d`. -/
def monthStartDay (d : Nat) : Nat :=
  monthFirstDay (Nat.findGreatest (fun m => monthFirstDay m ≤ d) d)

/-- Midnight (UTC) of the first day of the month of `t`. -/
def monthStart (t : Instant) : Instant := monthStartDay (t / microsPerDay) * microsPerDay

/-! ## Monotonicity -/

theorem daysBeforeMonth_lt (leap : Bool) {r : Nat} (hr : r < 11) :
    daysBeforeMonth leap r < daysBeforeMonth leap (r + 1) := by
  interval_cases r <;> cases leap <;> decide

theorem daysBeforeMonth_le_december (leap : Bool) {r : Nat} (hr : r < 12) :
    daysBeforeMonth leap r ≤ 335 := by
  interval_cases r <;> cases leap <;> decide

theorem daysBeforeYear_succ (k : Nat) : daysBeforeYear k + 365 ≤ daysBeforeYear (k + 1) := by
  unfold daysBeforeYear leapsThrough
  omega

theorem monthFirstDay_lt_succ (m : Nat) : monthFirstDay m < monthFirstDay (m + 1) := by
  unfold monthFirstDay
  by_cases hr : m % 12 < 11
  · -- the same year
    have hy : (m + 1) / 12 = m / 12 := by omega
    have hm : (m + 1) % 12 = m % 12 + 1 := by omega
    rw [hy, hm]
    have := daysBeforeMonth_lt (isLeap (1970 + m / 12)) hr
    omega
  · -- December to January
    have hy : (m + 1) / 12 = m / 12 + 1 := by omega
    have hm : (m + 1) % 12 = 0 := by omega
    rw [hy, hm]
    have h1 := daysBeforeYear_succ (m / 12)
    have h2 := daysBeforeMonth_le_december (isLeap (1970 + m / 12)) (Nat.mod_lt m (by omega))
    omega

theorem monthFirstDay_strictMono : StrictMono monthFirstDay :=
  strictMono_nat_of_lt_succ monthFirstDay_lt_succ

theorem monthStartDay_mono : Monotone monthStartDay := by
  intro d d' h
  refine monthFirstDay_strictMono.monotone (Nat.findGreatest_mono ?_ h)
  intro m hm
  exact Nat.le_trans hm h

theorem dayStart_mono : Monotone dayStart :=
  fun _ _ h => Nat.mul_le_mul_right _ (Nat.div_le_div_right h)

theorem monthStart_mono : Monotone monthStart :=
  fun _ _ h => Nat.mul_le_mul_right _ (monthStartDay_mono (Nat.div_le_div_right h))

/-- Days 58 and 59 are 1970-02-28 and 1970-03-01; days 789 and 790 are 1972-02-29 and
1972-03-01. -/
example : monthStartDay 58 = 31 ∧ monthStartDay 59 = 59 ∧
    monthStartDay 789 = 761 ∧ monthStartDay 790 = 790 := by decide +kernel

end Lib.Calendar
