import Mathlib.Data.Int.Log
import Mathlib.Data.Rat.Floor
import Mathlib.Tactic

set_option autoImplicit false

/-! # Rounding to digits

Decimal arithmetic of a limited precision, on its values: `toPrecision` rounds a number to so many
significant digits and `quantize` to so many places after the point, both to the nearest value and
to the even one of two. A number of more digits than the precision has room for is not quantized;
`quantize_isSome` says exactly which.
-/

namespace Lib.Rounding

/-! ## The nearest integer -/

/-- The nearest integer, the even one of two. -/
def nearest (x : ℚ) : ℤ :=
  if x - ⌊x⌋ < 1 / 2 then ⌊x⌋
  else if 1 / 2 < x - ⌊x⌋ then ⌊x⌋ + 1
  else if ⌊x⌋ % 2 = 0 then ⌊x⌋ else ⌊x⌋ + 1

variable {x : ℚ} {n : ℤ}

/-- The cases of a rounding: down by at most a half, or up by at most a half; a tie goes to the even
side. -/
theorem nearest_cases (x : ℚ) :
    (nearest x = ⌊x⌋ ∧ (x - ⌊x⌋ < 1 / 2 ∨ (x - ⌊x⌋ = 1 / 2 ∧ ⌊x⌋ % 2 = 0))) ∨
      (nearest x = ⌊x⌋ + 1 ∧ (1 / 2 < x - ⌊x⌋ ∨ (x - ⌊x⌋ = 1 / 2 ∧ ⌊x⌋ % 2 = 1))) := by
  unfold nearest
  split
  · rename_i hlow
    exact .inl ⟨rfl, .inl hlow⟩
  · rename_i hlow
    split
    · rename_i hhigh
      exact .inr ⟨rfl, .inl hhigh⟩
    · rename_i hhigh
      have htie : x - ⌊x⌋ = 1 / 2 := le_antisymm (not_lt.mp hhigh) (not_lt.mp hlow)
      split
      · rename_i heven
        exact .inl ⟨rfl, .inr ⟨htie, heven⟩⟩
      · rename_i hodd
        exact .inr ⟨rfl, .inr ⟨htie, by omega⟩⟩

theorem nearest_intCast (n : ℤ) : nearest (n : ℚ) = n := by
  unfold nearest
  rw [Int.floor_intCast, sub_self, if_pos (by norm_num)]

/-- Rounding does not pass an integer. -/
theorem le_nearest (h : (n : ℚ) ≤ x) : n ≤ nearest x := by
  have hfloor : n ≤ ⌊x⌋ := Int.le_floor.mpr h
  rcases nearest_cases x with ⟨heq, _⟩ | ⟨heq, _⟩ <;> omega

theorem nearest_le (h : x ≤ n) : nearest x ≤ n := by
  have hfloor : ⌊x⌋ ≤ n := by
    have hle : (⌊x⌋ : ℚ) ≤ n := (Int.floor_le x).trans h
    exact_mod_cast hle
  rcases nearest_cases x with ⟨heq, _⟩ | ⟨heq, hfrac⟩
  · omega
  · -- what is rounded up lies above the floor
    have hlt : (⌊x⌋ : ℚ) < n := by
      have hhalf : (1 : ℚ) / 2 ≤ x - ⌊x⌋ := by
        rcases hfrac with hlt | ⟨htie, _⟩
        · exact hlt.le
        · exact htie.ge
      linarith
    have hlt : ⌊x⌋ < n := by exact_mod_cast hlt
    omega

/-- An even integer is reached from half a unit below it on. -/
theorem le_nearest_iff (hn : n % 2 = 0) : n ≤ nearest x ↔ (n : ℚ) - 1 / 2 ≤ x := by
  have hfloor := Int.floor_le x
  have hceil := Int.lt_floor_add_one x
  rcases nearest_cases x with ⟨heq, hfrac⟩ | ⟨heq, hfrac⟩
  · rw [heq]
    constructor
    · intro h
      have hle : (n : ℚ) ≤ ⌊x⌋ := by exact_mod_cast h
      linarith
    · intro h
      rcases hfrac with hlt | ⟨htie, heven⟩
      · have hlt : (n : ℚ) < ⌊x⌋ + 1 := by linarith
        have hlt : n < ⌊x⌋ + 1 := by exact_mod_cast hlt
        omega
      · have hle : (n : ℚ) ≤ ⌊x⌋ + 1 := by linarith
        have hle : n ≤ ⌊x⌋ + 1 := by exact_mod_cast hle
        omega
  · rw [heq]
    constructor
    · intro h
      have hle : (n : ℚ) ≤ ⌊x⌋ + 1 := by exact_mod_cast h
      have hhalf : (1 : ℚ) / 2 ≤ x - ⌊x⌋ := by
        rcases hfrac with hlt | ⟨htie, _⟩
        · exact hlt.le
        · exact htie.ge
      linarith
    · intro h
      have hlt : (n : ℚ) < ⌊x⌋ + 2 := by linarith
      have hlt : n < ⌊x⌋ + 2 := by exact_mod_cast hlt
      omega

theorem nearest_le_iff (hn : n % 2 = 0) : nearest x ≤ n ↔ x ≤ (n : ℚ) + 1 / 2 := by
  have hfloor := Int.floor_le x
  have hceil := Int.lt_floor_add_one x
  rcases nearest_cases x with ⟨heq, hfrac⟩ | ⟨heq, hfrac⟩
  · rw [heq]
    constructor
    · intro h
      have hle : (⌊x⌋ : ℚ) ≤ n := by exact_mod_cast h
      rcases hfrac with hlt | ⟨htie, _⟩ <;> linarith
    · intro h
      have hlt : (⌊x⌋ : ℚ) < n + 1 := by linarith
      have hlt : ⌊x⌋ < n + 1 := by exact_mod_cast hlt
      omega
  · rw [heq]
    constructor
    · intro h
      have hle : (⌊x⌋ : ℚ) + 1 ≤ n := by exact_mod_cast h
      linarith
    · intro h
      rcases hfrac with hlt | ⟨htie, hodd⟩
      · have hlt : (⌊x⌋ : ℚ) < n := by linarith
        have hlt : ⌊x⌋ < n := by exact_mod_cast hlt
        omega
      · have hle : (⌊x⌋ : ℚ) ≤ n := by linarith
        have hle : ⌊x⌋ ≤ n := by exact_mod_cast hle
        omega

/-- Rounding moves a number by at most a half. -/
theorem abs_nearest_sub (x : ℚ) : |(nearest x : ℚ) - x| ≤ 1 / 2 := by
  have hfloor := Int.floor_le x
  have hceil := Int.lt_floor_add_one x
  rw [abs_le]
  rcases nearest_cases x with ⟨heq, hfrac⟩ | ⟨heq, hfrac⟩
  · rw [heq]
    rcases hfrac with hlt | ⟨htie, _⟩ <;> constructor <;> linarith
  · rw [heq]
    push_cast
    rcases hfrac with hlt | ⟨htie, _⟩ <;> constructor <;> linarith

/-! ## Digits -/

/-- Rounded to `digits` significant digits. -/
def toPrecision (digits : ℕ) (x : ℚ) : ℚ :=
  if x = 0 then 0
  else nearest (x / 10 ^ (Int.log 10 |x| + 1 - digits)) * 10 ^ (Int.log 10 |x| + 1 - digits)

/-- Rounded to `places` places, if the result has at most `digits` digits. -/
def quantize (digits places : ℕ) (x : ℚ) : Option ℚ :=
  if |nearest (x * 10 ^ places)| < 10 ^ digits then some (nearest (x * 10 ^ places) / 10 ^ places)
  else none

variable {digits places : ℕ}

theorem toPrecision_zero : toPrecision digits 0 = 0 := if_pos rfl

theorem toPrecision_nonneg (h : 0 ≤ x) : 0 ≤ toPrecision digits x := by
  unfold toPrecision
  split
  · exact le_rfl
  · have hunit : (0 : ℚ) < 10 ^ (Int.log 10 |x| + 1 - digits) := zpow_pos (by norm_num) _
    have hcoefficient : 0 ≤ nearest (x / 10 ^ (Int.log 10 |x| + 1 - digits)) :=
      le_nearest (by exact_mod_cast div_nonneg h hunit.le)
    exact mul_nonneg (by exact_mod_cast hcoefficient) hunit.le

/-- The number in units of its last digit. -/
theorem unit_bounds (hx : x ≠ 0) (digits : ℕ) :
    |x| < 10 ^ digits * 10 ^ (Int.log 10 |x| + 1 - digits) ∧
      (10 : ℚ) ^ digits * 10 ^ (Int.log 10 |x| + 1 - digits) ≤ 10 * |x| := by
  have hlow := Int.zpow_log_le_self (b := 10) (by norm_num) (abs_pos.mpr hx)
  have hhigh := Int.lt_zpow_succ_log_self (b := 10) (by norm_num) |x|
  push_cast at hlow hhigh
  have hsplit : (10 : ℚ) ^ digits * 10 ^ (Int.log 10 |x| + 1 - digits)
      = 10 ^ (Int.log 10 |x| + 1) := by
    rw [← zpow_natCast, ← zpow_add₀ (by norm_num)]
    congr 1
    omega
  rw [hsplit]
  refine ⟨hhigh, ?_⟩
  rw [zpow_add_one₀ (by norm_num), mul_comm]
  gcongr

/-- Rounding to digits does not reach the next order of magnitude. -/
theorem toPrecision_le (h : 0 ≤ x) : toPrecision digits x ≤ 10 * x := by
  by_cases hx : x = 0
  · rw [hx, toPrecision_zero, mul_zero]
  obtain ⟨hhigh, hlow⟩ := unit_bounds hx digits
  rw [toPrecision, if_neg hx]
  have hunit : (0 : ℚ) < 10 ^ (Int.log 10 |x| + 1 - digits) := zpow_pos (by norm_num) _
  generalize (10 : ℚ) ^ (Int.log 10 |x| + 1 - digits) = unit at hhigh hlow hunit ⊢
  rw [abs_of_nonneg h] at hhigh hlow
  have hcoefficient : nearest (x / unit) ≤ 10 ^ digits := by
    apply nearest_le
    push_cast
    rw [div_le_iff₀ hunit]
    exact hhigh.le
  have hcoefficient : (nearest (x / unit) : ℚ) ≤ 10 ^ digits := by exact_mod_cast hcoefficient
  calc (nearest (x / unit) : ℚ) * unit ≤ 10 ^ digits * unit := by gcongr
    _ ≤ 10 * x := hlow

/-- An even bound on a rounded number. -/
theorem abs_nearest_lt_iff (hn : n % 2 = 0) : |nearest x| < n ↔ |x| < (n : ℚ) - 1 / 2 := by
  rw [abs_lt, abs_lt, ← not_le, ← not_le, ← not_le, ← not_le]
  have hup := le_nearest_iff (x := x) hn
  have hdown := nearest_le_iff (x := x) (n := -n) (by omega)
  push_cast at hdown
  rw [hup, hdown]
  constructor
  · rintro ⟨hlow, hhigh⟩
    exact ⟨fun h => hlow (by linarith), hhigh⟩
  · rintro ⟨hlow, hhigh⟩
    exact ⟨fun h => hlow (by linarith), hhigh⟩

theorem abs_nearest_le {b : ℤ} (h : |x| ≤ b) : |nearest x| ≤ b := by
  obtain ⟨hlow, hhigh⟩ := abs_le.mp h
  exact abs_le.mpr ⟨le_nearest (by exact_mod_cast hlow), nearest_le hhigh⟩

theorem le_abs_nearest {b : ℤ} (h : (b : ℚ) ≤ |x|) : b ≤ |nearest x| := by
  rcases le_abs.mp h with hpos | hneg
  · exact (le_nearest hpos).trans (le_abs_self _)
  · have hle : nearest x ≤ -b := nearest_le (by push_cast; linarith)
    exact le_trans (by omega) (neg_le_abs _)

theorem quantize_isSome_iff :
    (quantize digits places x).isSome ↔ |nearest (x * 10 ^ places)| < 10 ^ digits := by
  unfold quantize
  split
  · rename_i h
    exact ⟨fun _ => h, fun _ => rfl⟩
  · rename_i h
    exact ⟨fun hnone => (nomatch hnone), fun h' => absurd h' h⟩

/-- **What has room.** A number that is rounded to `digits` digits can be quantized exactly if it is
more than half a unit of the last place below the first number of too many digits. -/
theorem quantize_isSome (hdigits : 0 < digits) :
    (quantize digits places (toPrecision digits x)).isSome ↔
      |x| < (10 ^ digits - 1 / 2) / 10 ^ places := by
  rw [quantize_isSome_iff]
  have hten : (0 : ℚ) < 10 ^ places := by positivity
  have hroom : (1 : ℚ) ≤ 10 ^ digits := one_le_pow₀ (by norm_num)
  have hroom' : ((10 ^ digits : ℤ) : ℚ) = 10 ^ digits := by push_cast; rfl
  by_cases hx : x = 0
  · rw [hx, toPrecision_zero, zero_mul, abs_zero]
    have hnearest : nearest 0 = 0 := nearest_intCast 0
    rw [hnearest, abs_zero]
    exact ⟨fun _ => div_pos (by linarith) hten, fun _ => by positivity⟩
  -- `unit` is the last of the digits of `x`, and `c` the coefficient
  have hpos : 0 < |x| := abs_pos.mpr hx
  have hlow := Int.zpow_log_le_self (b := 10) (by norm_num) hpos
  have hhigh := Int.lt_zpow_succ_log_self (b := 10) (by norm_num) |x|
  push_cast at hlow hhigh
  rw [toPrecision, if_neg hx]
  generalize Int.log 10 |x| = e at hlow hhigh ⊢
  have hunit : (0 : ℚ) < 10 ^ (e + 1 - digits) := zpow_pos (by norm_num) _
  have hsplit : (10 : ℚ) ^ digits * 10 ^ (e + 1 - digits) = 10 ^ (e + 1) := by
    rw [← zpow_natCast, ← zpow_add₀ (by norm_num)]
    congr 1
    omega
  have hshift : (10 : ℚ) ^ (e + 1 - digits) * 10 ^ places = 10 ^ (e + 1 - digits + places) := by
    rw [← zpow_natCast, ← zpow_add₀ (by norm_num)]
  set unit : ℚ := 10 ^ (e + 1 - digits) with hunitdef
  have hcoefficient : |x / unit| = |x| / unit := by rw [abs_div, abs_of_pos hunit]
  have hmul : ∀ c : ℤ, |(c : ℚ) * unit * 10 ^ places| = |(c : ℚ)| * (unit * 10 ^ places) := by
    intro c
    rw [mul_assoc, abs_mul, abs_of_pos (mul_pos hunit hten)]
  have hpow : ∀ {a b : ℤ}, a ≤ b → (10 : ℚ) ^ a ≤ 10 ^ b := fun h =>
    zpow_le_zpow_right₀ (by norm_num) h
  rcases lt_trichotomy (e + 1) (digits - places) with hless | hsame | hmore
  · -- there is room for one more digit
    have hsmall : |x| * 10 ^ places < 10 ^ digits / 10 := by
      calc |x| * 10 ^ places < 10 ^ (e + 1) * 10 ^ places := by gcongr
        _ = 10 ^ (e + 1 + places) := by rw [← zpow_natCast, ← zpow_add₀ (by norm_num)]
        _ ≤ 10 ^ ((digits : ℤ) - 1) := hpow (by omega)
        _ = 10 ^ digits / 10 := by rw [zpow_sub_one₀ (by norm_num), zpow_natCast]; ring
    have hbound : |nearest (x / unit)| ≤ 10 ^ digits := by
      apply abs_nearest_le
      rw [hcoefficient, hroom', div_le_iff₀ hunit, hsplit]
      exact hhigh.le
    have hquantized : |(nearest (x / unit) : ℚ) * unit * 10 ^ places| ≤ 10 ^ digits / 10 := by
      have hbound' : |(nearest (x / unit) : ℚ)| ≤ 10 ^ digits := by exact_mod_cast hbound
      calc |(nearest (x / unit) : ℚ) * unit * 10 ^ places|
          = |(nearest (x / unit) : ℚ)| * (unit * 10 ^ places) := hmul _
        _ ≤ 10 ^ digits * (unit * 10 ^ places) := by gcongr
        _ = 10 ^ (e + 1 + places) := by
            rw [← mul_assoc, hsplit, ← zpow_natCast, ← zpow_add₀ (by norm_num)]
        _ ≤ 10 ^ ((digits : ℤ) - 1) := hpow (by omega)
        _ = 10 ^ digits / 10 := by rw [zpow_sub_one₀ (by norm_num), zpow_natCast]; ring
    constructor
    · intro _
      rw [lt_div_iff₀ hten]
      linarith
    · intro _
      have hnearest : |(nearest ((nearest (x / unit) : ℚ) * unit * 10 ^ places) : ℚ)|
          ≤ 10 ^ digits / 10 + 1 / 2 := by
        have hmoved := abs_nearest_sub ((nearest (x / unit) : ℚ) * unit * 10 ^ places)
        have htriangle := abs_sub_abs_le_abs_sub
          (nearest ((nearest (x / unit) : ℚ) * unit * 10 ^ places) : ℚ)
          ((nearest (x / unit) : ℚ) * unit * 10 ^ places)
        linarith
      have hten' : (10 : ℚ) ≤ 10 ^ digits := by
        calc (10 : ℚ) = 10 ^ 1 := by norm_num
          _ ≤ 10 ^ digits := pow_le_pow_right₀ (by norm_num) hdigits
      have hlt : |(nearest ((nearest (x / unit) : ℚ) * unit * 10 ^ places) : ℚ)|
          < 10 ^ digits := by linarith
      exact_mod_cast hlt
  · -- the last digit is the last place
    have hone : unit * 10 ^ places = 1 := by
      rw [hshift, show e + 1 - digits + places = 0 by omega, zpow_zero]
    have hinverse : |x| / unit = |x| * 10 ^ places := by
      rw [div_eq_iff hunit.ne', mul_assoc, mul_comm (10 ^ places : ℚ), hone, mul_one]
    have heven : (10 ^ digits : ℤ) % 2 = 0 := by
      obtain ⟨d, rfl⟩ := Nat.exists_eq_succ_of_ne_zero hdigits.ne'
      rw [pow_succ]
      omega
    rw [mul_assoc, hone, mul_one, nearest_intCast, abs_nearest_lt_iff heven, hcoefficient, hinverse,
      lt_div_iff₀ hten, hroom']
  · -- there are too many digits
    have hlarge : (10 : ℚ) ^ digits ≤ 10 ^ e * 10 ^ places := by
      calc (10 : ℚ) ^ digits = 10 ^ (digits : ℤ) := (zpow_natCast _ _).symm
        _ ≤ 10 ^ (e + places) := hpow (by omega)
        _ = 10 ^ e * 10 ^ places := by rw [zpow_add₀ (by norm_num), zpow_natCast]
    have hleading : (10 : ℚ) ^ digits / 10 * unit = 10 ^ e := by
      rw [div_mul_eq_mul_div, hsplit, zpow_add₀ (by norm_num)]
      norm_num
    have hbound : (10 ^ (digits - 1) : ℤ) ≤ |nearest (x / unit)| := by
      apply le_abs_nearest
      rw [hcoefficient, le_div_iff₀ hunit]
      calc ((10 ^ (digits - 1) : ℤ) : ℚ) * unit = 10 ^ digits / 10 * unit := by
            obtain ⟨d, rfl⟩ := Nat.exists_eq_succ_of_ne_zero hdigits.ne'
            push_cast
            rw [Nat.succ_eq_add_one, pow_succ]
            ring
        _ = 10 ^ e := hleading
        _ ≤ |x| := hlow
    have hquantized : ((10 ^ digits : ℤ) : ℚ)
        ≤ |(nearest (x / unit) : ℚ) * unit * 10 ^ places| := by
      have hbound' : (10 : ℚ) ^ digits / 10 ≤ |(nearest (x / unit) : ℚ)| := by
        obtain ⟨d, rfl⟩ := Nat.exists_eq_succ_of_ne_zero hdigits.ne'
        calc (10 : ℚ) ^ d.succ / 10 = ((10 ^ d : ℤ) : ℚ) := by
              push_cast
              rw [Nat.succ_eq_add_one, pow_succ]
              ring
          _ ≤ |(nearest (x / unit) : ℚ)| := by exact_mod_cast hbound
      calc ((10 ^ digits : ℤ) : ℚ) = 10 ^ digits := hroom'
        _ ≤ 10 ^ e * 10 ^ places := hlarge
        _ = 10 ^ digits / 10 * (unit * 10 ^ places) := by rw [← mul_assoc, hleading]
        _ ≤ |(nearest (x / unit) : ℚ)| * (unit * 10 ^ places) := by gcongr
        _ = |(nearest (x / unit) : ℚ) * unit * 10 ^ places| := (hmul _).symm
    constructor
    · intro h
      exact absurd (le_abs_nearest hquantized) (not_le.mpr h)
    · intro h
      rw [lt_div_iff₀ hten] at h
      have hle : (10 : ℚ) ^ digits ≤ |x| * 10 ^ places := by
        calc (10 : ℚ) ^ digits ≤ 10 ^ e * 10 ^ places := hlarge
          _ ≤ |x| * 10 ^ places := by gcongr
      linarith

end Lib.Rounding
