/-
**Binary floating point.**

A format has a precision of `p` binary places and a least exponent.  Every real operation of a
machine gives the number of the format that is nearest to the exact result, and of two equally near
ones the one with an even last place.  Over the rationals rounding is a computable function, and
what a program of additions, multiplications and comparisons does can be evaluated and proved.

There is no greatest exponent here and no `NaN`: the numbers below stand for the finite ones, and
division by zero gives zero as it does in `ℚ`.

Main definitions:

* `FloatingPoint.nearestEven` — the nearest integer, the even one of two;
* `FloatingPoint.Format`, `FloatingPoint.Format.round` — a format, and rounding to it;
* `FloatingPoint.Value` — the numbers of a format, with the rounded operations;
* `FloatingPoint.binary64` — double precision.

Main results:

* `FloatingPoint.Format.round_mono` — rounding is monotone;
* `FloatingPoint.Format.round_round` — and idempotent;
* `FloatingPoint.Format.abs_round_sub_le` — it moves a number by half its last place at most;
* `FloatingPoint.Format.round_eq_natCast` — what is near enough to a natural number is rounded to
  it;
* `FloatingPoint.Format.floor_round` — **a rounded number has the floor of the number that was
  meant**, if it is near enough to it.
-/

import Mathlib.Algebra.Order.Field.Power
import Mathlib.Data.Int.Log
import Mathlib.Data.Rat.Floor
import Mathlib.Tactic.Linarith
import Mathlib.Tactic.Positivity
import Mathlib.Tactic.Ring

set_option relaxedAutoImplicit false
set_option autoImplicit false

namespace FloatingPoint

/-! ### The nearest integer -/

/-- The nearest integer, and of two equally near ones the even one. -/
def nearestEven (q : ℚ) : ℤ :=
  if q - ⌊q⌋ < 1 / 2 then ⌊q⌋
  else if 1 / 2 < q - ⌊q⌋ then ⌊q⌋ + 1
  else if ⌊q⌋ % 2 = 0 then ⌊q⌋
  else ⌊q⌋ + 1

theorem nearestEven_eq_or (q : ℚ) : nearestEven q = ⌊q⌋ ∨ nearestEven q = ⌊q⌋ + 1 := by
  unfold nearestEven
  split_ifs
  · exact .inl rfl
  · exact .inr rfl
  · exact .inl rfl
  · exact .inr rfl

@[simp] theorem nearestEven_intCast (n : ℤ) : nearestEven (n : ℚ) = n := by
  simp [nearestEven]

theorem nearestEven_mono {x y : ℚ} (hxy : x ≤ y) : nearestEven x ≤ nearestEven y := by
  have hfloor : ⌊x⌋ ≤ ⌊y⌋ := Int.floor_le_floor hxy
  rcases hfloor.lt_or_eq with hlt | heq
  · -- Between different floors there is room for the one step upwards.
    have hx : nearestEven x ≤ ⌊x⌋ + 1 := by
      rcases nearestEven_eq_or x with h | h <;> omega
    have hy : ⌊y⌋ ≤ nearestEven y := by
      rcases nearestEven_eq_or y with h | h <;> omega
    omega
  · have hfrac : x - ⌊y⌋ ≤ y - ⌊y⌋ := by linarith
    unfold nearestEven
    rw [heq]
    split_ifs
    any_goals omega
    all_goals exfalso; linarith

theorem nearestEven_neg (q : ℚ) : nearestEven (-q) = -nearestEven q := by
  by_cases hint : q = ⌊q⌋
  · rw [hint, ← Int.cast_neg, nearestEven_intCast, nearestEven_intCast]
  · have hle : (⌊q⌋ : ℚ) < q := lt_of_le_of_ne (Int.floor_le q) (Ne.symm hint)
    have hlt : q < ⌊q⌋ + 1 := Int.lt_floor_add_one q
    have hfloor : ⌊-q⌋ = -⌊q⌋ - 1 := by
      rw [Int.floor_eq_iff]
      push_cast
      constructor <;> linarith
    have hfrac : -q - ((-⌊q⌋ - 1 : ℤ) : ℚ) = 1 - (q - ⌊q⌋) := by
      push_cast
      ring
    unfold nearestEven
    rw [hfloor, hfrac]
    split_ifs
    any_goals omega
    all_goals exfalso; linarith

theorem abs_nearestEven_sub_le (q : ℚ) : |(nearestEven q : ℚ) - q| ≤ 1 / 2 := by
  have hle : (⌊q⌋ : ℚ) ≤ q := Int.floor_le q
  have hlt : q < ⌊q⌋ + 1 := Int.lt_floor_add_one q
  unfold nearestEven
  split_ifs
  all_goals
    push_cast
    rw [abs_le]
    constructor <;> linarith

/-! ### Formats -/

/-- How many binary places a number has, and the least place a number may end at. -/
structure Format where
  precision : ℕ
  minExponent : ℤ
  precision_pos : 0 < precision

namespace Format

variable (F : Format)

/-- The place at which a number ends. -/
def exponent (q : ℚ) : ℤ :=
  if q = 0 then F.minExponent
  else max (Int.log 2 |q| - (F.precision - 1)) F.minExponent

/-- The number of the format that is nearest. -/
def round (q : ℚ) : ℚ := nearestEven (q / 2 ^ F.exponent q) * 2 ^ F.exponent q

@[simp] theorem round_zero : F.round 0 = 0 := by
  have h : nearestEven 0 = 0 := nearestEven_intCast 0
  simp [round, h]

theorem round_neg (q : ℚ) : F.round (-q) = -F.round q := by
  have hexp : F.exponent (-q) = F.exponent q := by simp [exponent]
  rw [round, round, hexp, neg_div, nearestEven_neg]
  push_cast
  ring

theorem minExponent_le (q : ℚ) : F.minExponent ≤ F.exponent q := by
  unfold exponent
  split_ifs
  · exact le_rfl
  · exact le_max_right _ _

/-- A number has no more than `precision` places before the one it ends at. -/
theorem abs_lt_zpow (q : ℚ) : |q| < 2 ^ (F.exponent q + F.precision) := by
  by_cases hq : q = 0
  · subst hq
    rw [abs_zero]
    positivity
  · have hlog : |q| < (2 : ℚ) ^ (Int.log 2 |q| + 1) := Int.lt_zpow_succ_log_self (by norm_num) |q|
    refine hlog.trans_le (zpow_le_zpow_right₀ (by norm_num) ?_)
    have hle : Int.log 2 |q| - (F.precision - 1) ≤ F.exponent q := by
      rw [exponent, if_neg hq]
      exact le_max_left _ _
    omega

/-- And it has all of them, unless it ends at the least place there is. -/
theorem zpow_le_abs {q : ℚ} (h : F.minExponent < F.exponent q) :
    2 ^ (F.exponent q + F.precision - 1) ≤ |q| := by
  have hq : q ≠ 0 := by
    rintro rfl
    simp [exponent] at h
  have hexp : F.exponent q = Int.log 2 |q| - (F.precision - 1) := by
    rw [exponent, if_neg hq] at h ⊢
    omega
  have hlog : (2 : ℚ) ^ Int.log 2 |q| ≤ |q| :=
    Int.zpow_log_le_self (by norm_num) (abs_pos.2 hq)
  rw [hexp]
  convert hlog using 2
  omega

/-! ### Multiples of the last place -/

/-- A multiple of a place is a multiple of every later one. -/
theorem exists_mul_zpow {d e : ℤ} (h : d ≤ e) (m : ℤ) :
    ∃ k : ℤ, (m : ℚ) * 2 ^ e = k * 2 ^ d := by
  refine ⟨m * 2 ^ (e - d).toNat, ?_⟩
  have hcast : (2 : ℚ) ^ e = 2 ^ (e - d).toNat * 2 ^ d := by
    rw [← zpow_natCast, ← zpow_add₀ (by norm_num), Int.toNat_of_nonneg (by omega)]
    congr 1
    omega
  push_cast
  rw [hcast]
  ring

/-- What is not above a multiple of its last place is not rounded above it. -/
theorem round_le_mul {q : ℚ} {m e : ℤ} (he : F.exponent q ≤ e) (h : q ≤ m * 2 ^ e) :
    F.round q ≤ m * 2 ^ e := by
  obtain ⟨k, hk⟩ := exists_mul_zpow he m
  rw [hk] at h ⊢
  have hpos : (0 : ℚ) < 2 ^ F.exponent q := by positivity
  have hle : nearestEven (q / 2 ^ F.exponent q) ≤ k := by
    have := nearestEven_mono ((div_le_iff₀ hpos).2 h)
    rwa [nearestEven_intCast] at this
  exact mul_le_mul_of_nonneg_right (by exact_mod_cast hle) hpos.le

/-- What is not below a multiple of its last place is not rounded below it. -/
theorem mul_le_round {q : ℚ} {m e : ℤ} (he : F.exponent q ≤ e) (h : m * 2 ^ e ≤ q) :
    m * 2 ^ e ≤ F.round q := by
  obtain ⟨k, hk⟩ := exists_mul_zpow he m
  rw [hk] at h ⊢
  have hpos : (0 : ℚ) < 2 ^ F.exponent q := by positivity
  have hle : k ≤ nearestEven (q / 2 ^ F.exponent q) := by
    have := nearestEven_mono ((le_div_iff₀ hpos).2 h)
    rwa [nearestEven_intCast] at this
  exact mul_le_mul_of_nonneg_right (by exact_mod_cast hle) hpos.le

/-- A multiple of the place at which it ends is a number of the format. -/
theorem round_mul {m e : ℤ} (he : F.exponent (m * 2 ^ e) ≤ e) :
    F.round (m * 2 ^ e) = m * 2 ^ e :=
  le_antisymm (F.round_le_mul he le_rfl) (F.mul_le_round he le_rfl)

/-- With few enough places, a multiple of a place ends there or later. -/
theorem exponent_mul_le {m e : ℤ} (hm : |m| < 2 ^ F.precision) (he : F.minExponent ≤ e) :
    F.exponent (m * 2 ^ e) ≤ e := by
  by_cases hzero : (m : ℚ) * 2 ^ e = 0
  · rw [hzero, exponent, if_pos rfl]
    exact he
  · by_contra hlt
    have hlow := F.zpow_le_abs (he.trans_lt (not_le.1 hlt))
    have hcast : |(m : ℚ)| < 2 ^ (F.precision : ℤ) := by
      rw [zpow_natCast]
      exact_mod_cast hm
    have habs : |(m : ℚ) * 2 ^ e| < 2 ^ (F.precision + e : ℤ) := by
      rw [abs_mul, abs_of_pos (by positivity : (0 : ℚ) < 2 ^ e), zpow_add₀ (by norm_num)]
      exact mul_lt_mul_of_pos_right hcast (by positivity)
    have := (zpow_lt_zpow_iff_right₀ (by norm_num : (1 : ℚ) < 2)).1 (hlow.trans_lt habs)
    omega

/-- A power of two is a number of the format. -/
theorem round_zpow {e : ℤ} (he : F.minExponent ≤ e) (s : ℤ) (hs : |s| = 1) :
    F.round (s * 2 ^ e) = s * 2 ^ e := by
  refine F.round_mul (F.exponent_mul_le ?_ he)
  rw [hs]
  exact one_lt_pow₀ (by norm_num) F.precision_pos.ne'

/-! ### Rounding is monotone -/

theorem round_mono : Monotone F.round := by
  intro x y hxy
  rcases lt_trichotomy (F.exponent x) (F.exponent y) with hlt | heq | hgt
  · -- A power of two separates the two.
    have hlow := F.zpow_le_abs ((F.minExponent_le x).trans_lt hlt)
    have hx : |x| < 2 ^ (F.exponent y + F.precision - 1) :=
      (F.abs_lt_zpow x).trans_le (zpow_le_zpow_right₀ (by norm_num) (by omega))
    have hy : 0 < y := by
      by_contra hneg
      have habs : |y| ≤ |x| := by
        rw [abs_of_nonpos (not_lt.1 hneg), abs_of_nonpos (hxy.trans (not_lt.1 hneg))]
        linarith
      linarith
    have hsep : F.round x ≤ (1 : ℤ) * 2 ^ (F.exponent y + F.precision - 1) := by
      refine F.round_le_mul (by have := F.precision_pos; omega) ?_
      rw [Int.cast_one, one_mul]
      exact (le_abs_self x).trans hx.le
    refine hsep.trans (F.mul_le_round (by have := F.precision_pos; omega) ?_)
    rw [Int.cast_one, one_mul]
    rwa [abs_of_pos hy] at hlow
  · unfold round
    rw [heq]
    have hpos : (0 : ℚ) < 2 ^ F.exponent y := by positivity
    refine mul_le_mul_of_nonneg_right ?_ hpos.le
    exact_mod_cast nearestEven_mono ((div_le_div_iff_of_pos_right hpos).2 hxy)
  · have hlow := F.zpow_le_abs ((F.minExponent_le y).trans_lt hgt)
    have hy : |y| < 2 ^ (F.exponent x + F.precision - 1) :=
      (F.abs_lt_zpow y).trans_le (zpow_le_zpow_right₀ (by norm_num) (by omega))
    have hx : x < 0 := by
      by_contra hnonneg
      have habs : |x| ≤ |y| := by
        rw [abs_of_nonneg (not_lt.1 hnonneg), abs_of_nonneg ((not_lt.1 hnonneg).trans hxy)]
        exact hxy
      linarith
    have hsep : F.round x ≤ (-1 : ℤ) * 2 ^ (F.exponent x + F.precision - 1) := by
      refine F.round_le_mul (by have := F.precision_pos; omega) ?_
      rw [abs_of_neg hx] at hlow
      push_cast
      linarith
    refine hsep.trans (F.mul_le_round (by have := F.precision_pos; omega) ?_)
    have := neg_abs_le y
    push_cast
    linarith

/-! ### How far rounding moves a number -/

/-- Half a last place at most. -/
theorem abs_round_sub_le (q : ℚ) : |F.round q - q| ≤ 2 ^ F.exponent q / 2 := by
  have hpos : (0 : ℚ) < 2 ^ F.exponent q := by positivity
  have hnear := abs_nearestEven_sub_le (q / 2 ^ F.exponent q)
  have hfactor : F.round q - q =
      (nearestEven (q / 2 ^ F.exponent q) - q / 2 ^ F.exponent q) * 2 ^ F.exponent q := by
    rw [round, sub_mul, div_mul_cancel₀ _ hpos.ne']
  rw [hfactor, abs_mul, abs_of_pos hpos]
  calc |(nearestEven (q / 2 ^ F.exponent q) : ℚ) - q / 2 ^ F.exponent q| * 2 ^ F.exponent q
      ≤ 1 / 2 * 2 ^ F.exponent q := mul_le_mul_of_nonneg_right hnear hpos.le
    _ = 2 ^ F.exponent q / 2 := by ring

/-- One part in `2 ^ precision` of the number, and of the least number that has all its places. -/
theorem abs_round_sub_mul_le (q : ℚ) :
    |F.round q - q| * 2 ^ F.precision ≤ |q| + 2 ^ (F.minExponent + F.precision) := by
  have hhalf : |F.round q - q| * 2 ^ F.precision ≤ 2 ^ (F.exponent q + F.precision - 1) := by
    rw [zpow_sub₀ (by norm_num), zpow_add₀ (by norm_num), zpow_natCast, zpow_one]
    calc |F.round q - q| * 2 ^ F.precision
        ≤ 2 ^ F.exponent q / 2 * 2 ^ F.precision :=
          mul_le_mul_of_nonneg_right (F.abs_round_sub_le q) (by positivity)
      _ = 2 ^ F.exponent q * 2 ^ F.precision / 2 := by ring
  have hmin : (0 : ℚ) < 2 ^ (F.minExponent + F.precision) := by positivity
  rcases (F.minExponent_le q).lt_or_eq with hlt | heq
  · have := F.zpow_le_abs hlt
    linarith
  · have hle : (2 : ℚ) ^ (F.exponent q + F.precision - 1) ≤ 2 ^ (F.minExponent + F.precision) :=
      zpow_le_zpow_right₀ (by norm_num) (by omega)
    have := abs_nonneg q
    linarith

/-- Rounding a number of the format changes nothing. -/
theorem round_round (q : ℚ) : F.round (F.round q) = F.round q := by
  have hpos : (0 : ℚ) < 2 ^ F.exponent q := by positivity
  have hlt := F.abs_lt_zpow q
  -- The rounded mantissa has `precision` places, or is the power of two after them.
  have hmono : |nearestEven (q / 2 ^ F.exponent q)| ≤ 2 ^ F.precision := by
    have hbound : |q / 2 ^ F.exponent q| < 2 ^ F.precision := by
      rw [abs_div, abs_of_pos hpos, div_lt_iff₀ hpos, ← zpow_natCast, ← zpow_add₀ (by norm_num)]
      rwa [add_comm]
    rw [abs_lt] at hbound
    rw [abs_le]
    constructor
    · have h := nearestEven_mono hbound.1.le
      have hcast : (-(2 : ℚ) ^ F.precision) = ((-2 ^ F.precision : ℤ) : ℚ) := by push_cast; rfl
      rwa [hcast, nearestEven_intCast] at h
    · have h := nearestEven_mono hbound.2.le
      have hcast : ((2 : ℚ) ^ F.precision) = ((2 ^ F.precision : ℤ) : ℚ) := by push_cast; rfl
      rwa [hcast, nearestEven_intCast] at h
  rcases hmono.lt_or_eq with hfew | hfull
  · exact F.round_mul (F.exponent_mul_le hfew (F.minExponent_le q))
  · obtain ⟨s, hs, heq⟩ : ∃ s : ℤ, |s| = 1 ∧
        nearestEven (q / 2 ^ F.exponent q) = s * 2 ^ F.precision := by
      rcases abs_choice (nearestEven (q / 2 ^ F.exponent q)) with h | h
      · exact ⟨1, rfl, by omega⟩
      · exact ⟨-1, rfl, by omega⟩
    have hvalue : F.round q = s * 2 ^ (F.precision + F.exponent q) := by
      rw [round, heq, zpow_add₀ (by norm_num), zpow_natCast]
      push_cast
      ring
    rw [hvalue]
    exact F.round_zpow (by have := F.minExponent_le q; omega) s hs

/-- Natural numbers of few enough places are numbers of the format. -/
theorem round_natCast (hF : F.minExponent ≤ 0) {n : ℕ} (hn : n < 2 ^ F.precision) :
    F.round n = n := by
  have h := F.round_mul (m := n) (e := 0)
    (F.exponent_mul_le (by rw [Nat.abs_cast]; exact_mod_cast hn) hF)
  simpa using h

/-- And so are the fractions of them whose denominator is a power of two. -/
theorem round_natCast_div {n k : ℕ} (hk : F.minExponent ≤ -k) (hn : n < 2 ^ F.precision) :
    F.round (n / 2 ^ k) = n / 2 ^ k := by
  have hcast : (n : ℚ) / 2 ^ k = (n : ℤ) * 2 ^ (-k : ℤ) := by
    rw [zpow_neg, zpow_natCast, Int.cast_natCast, div_eq_mul_inv]
  rw [hcast]
  refine F.round_mul (F.exponent_mul_le ?_ hk)
  rw [Nat.abs_cast]
  exact_mod_cast hn

theorem round_nonneg {q : ℚ} (h : 0 ≤ q) : 0 ≤ F.round q := by
  have := F.round_mono h
  rwa [round_zero] at this

/-- What differs from a number of the format by less than half a place of it is rounded to it. -/
theorem round_eq_of_near {q r : ℚ} {n k : ℕ} (hk : F.minExponent ≤ -k) (hn : n < 2 ^ F.precision)
    (hr : r = n / 2 ^ k) (h : |q - r| * 2 ^ (F.precision + 1) < r) : F.round q = r := by
  have hP : (2 : ℚ) ≤ 2 ^ F.precision := by
    calc (2 : ℚ) = 2 ^ 1 := by norm_num
      _ ≤ 2 ^ F.precision := pow_le_pow_right₀ (by norm_num) F.precision_pos
  have hcast : r = (n : ℤ) * 2 ^ (-k : ℤ) := by
    rw [hr, zpow_neg, zpow_natCast, Int.cast_natCast, div_eq_mul_inv]
  have hunit : (0 : ℚ) < 2 ^ (-k : ℤ) := by positivity
  have hnP : r + 2 ^ (-k : ℤ) ≤ 2 ^ F.precision * 2 ^ (-k : ℤ) := by
    have : (n : ℚ) + 1 ≤ 2 ^ F.precision := by exact_mod_cast hn
    rw [hcast, Int.cast_natCast]
    nlinarith
  rw [pow_succ] at h
  have hnear : |q - r| < 2 ^ (-k : ℤ) := by nlinarith [abs_nonneg (q - r)]
  have hr0 : 0 ≤ r := by
    rw [hr]
    positivity
  -- All multiples of the place at which `r` ends are multiples of the last place of `q`.
  have hexp : F.exponent q ≤ -k := by
    by_contra hlater
    have hlow := F.zpow_le_abs (q := q) (by omega)
    have hle : (2 : ℚ) ^ (F.precision + -k : ℤ) ≤ 2 ^ (F.exponent q + F.precision - 1) :=
      zpow_le_zpow_right₀ (by norm_num) (by omega)
    rw [zpow_add₀ (by norm_num), zpow_natCast] at hle
    have : |q| < r + 2 ^ (-k : ℤ) := by
      obtain ⟨hlo, hhi⟩ := abs_lt.1 hnear
      rw [abs_lt]
      constructor <;> linarith
    linarith
  have hpos : (0 : ℚ) < 2 ^ F.exponent q := by positivity
  obtain ⟨j, hj⟩ := exists_mul_zpow hexp n
  rw [← hcast] at hj
  by_contra hne
  -- Otherwise the two multiples are a place apart, and `q` is half a place from `r`.
  have hfar : 2 ^ F.exponent q ≤ |F.round q - r| := by
    have hround : F.round q - r = ((nearestEven (q / 2 ^ F.exponent q) - j : ℤ) : ℚ) *
        2 ^ F.exponent q := by
      rw [hj, round]
      push_cast
      ring
    rw [hround, abs_mul, abs_of_pos hpos]
    refine le_mul_of_one_le_left hpos.le ?_
    have hj0 : nearestEven (q / 2 ^ F.exponent q) - j ≠ 0 := by
      intro hzero
      rw [hzero, Int.cast_zero, zero_mul] at hround
      exact hne (by linarith)
    exact_mod_cast Int.one_le_abs hj0
  have hhalf : 2 ^ F.exponent q / 2 ≤ |q - r| := by
    have htri := abs_sub_le (F.round q) q r
    have := F.abs_round_sub_le q
    linarith
  have hlt := F.abs_lt_zpow q
  rw [zpow_add₀ (by norm_num), zpow_natCast] at hlt
  -- So `r` lies above the power of two above `q`, and then it is far above it.
  have hq : q < 2 ^ F.exponent q * 2 ^ F.precision := (le_abs_self q).trans_lt hlt
  have hr_gt : 2 ^ F.exponent q * 2 ^ F.precision < r := by nlinarith
  have hstep : 2 ^ F.exponent q * 2 ^ F.precision + 2 ^ F.exponent q ≤ r := by
    have hlt' : (2 : ℚ) ^ F.precision < j := by
      rw [hj, mul_comm] at hr_gt
      exact lt_of_mul_lt_mul_right hr_gt hpos.le
    have hle : (2 : ℚ) ^ F.precision + 1 ≤ j := by exact_mod_cast hlt'
    rw [hj]
    nlinarith
  have hdiff : r - q ≤ |q - r| := by
    rw [abs_sub_comm]
    exact le_abs_self _
  nlinarith

/-- What differs from a natural number by less than half a place of it is rounded to it. -/
theorem round_eq_natCast (hF : F.minExponent ≤ 0) {q : ℚ} {n : ℕ} (hn : n < 2 ^ F.precision)
    (h : |q - n| * 2 ^ (F.precision + 1) < n) : F.round q = n :=
  F.round_eq_of_near (k := 0) (by simpa using hF) hn (by simp) h

/-- Rounding does not double a number, unless it is too small for all places. -/
theorem round_le_two_mul {q : ℚ} (h : 2 ^ (F.minExponent + F.precision) ≤ q) :
    F.round q ≤ 2 * q := by
  have hpos : (0 : ℚ) < 2 ^ (F.minExponent + F.precision) := by positivity
  have hP : (2 : ℚ) ≤ 2 ^ F.precision := by
    calc (2 : ℚ) = 2 ^ 1 := by norm_num
      _ ≤ 2 ^ F.precision := pow_le_pow_right₀ (by norm_num) F.precision_pos
  have herr := F.abs_round_sub_mul_le q
  rw [abs_of_nonneg (hpos.le.trans h)] at herr
  have := le_abs_self (F.round q - q)
  nlinarith [abs_nonneg (F.round q - q)]

/-! ### The floor of a rounded number -/

/-- The rounded number stays below the next natural number, if the number before rounding is not too
far above the fraction that was meant. -/
theorem round_lt_succ {q : ℚ} {a b : ℕ} (hb : 0 < b) (hq0 : 0 ≤ q)
    (hq : (q * b - a) * 2 ^ F.precision + q * b + 1 < 2 ^ F.precision)
    (hsmall : (b : ℚ) * 2 ^ (F.minExponent + F.precision) ≤ 1) :
    F.round q < (a / b : ℕ) + 1 := by
  have hb' : (0 : ℚ) < b := by exact_mod_cast hb
  have hround := F.abs_round_sub_mul_le q
  rw [abs_of_nonneg hq0] at hround
  have hup : (F.round q - q) * 2 ^ F.precision ≤ q + 2 ^ (F.minExponent + F.precision) :=
    (mul_le_mul_of_nonneg_right (le_abs_self _) (by positivity)).trans hround
  have hscaled : (F.round q * b - a) * 2 ^ F.precision < 2 ^ F.precision := by
    calc (F.round q * b - a) * 2 ^ F.precision
        = (F.round q - q) * 2 ^ F.precision * b + (q * b - a) * 2 ^ F.precision := by ring
      _ ≤ (q + 2 ^ (F.minExponent + F.precision)) * b + (q * b - a) * 2 ^ F.precision :=
          add_le_add_left (mul_le_mul_of_nonneg_right hup hb'.le) _
      _ = (q * b - a) * 2 ^ F.precision + q * b + b * 2 ^ (F.minExponent + F.precision) := by ring
      _ < 2 ^ F.precision := by linarith
  have hlt : F.round q * b < a + 1 := by
    by_contra hge
    have : (2 : ℚ) ^ F.precision ≤ (F.round q * b - a) * 2 ^ F.precision :=
      le_mul_of_one_le_left (by positivity) (by linarith)
    linarith
  have hdiv : (a : ℚ) + 1 ≤ ((a / b : ℕ) + 1) * b := by
    have hnat : a + 1 ≤ (a / b + 1) * b := by
      rw [Nat.add_mul, Nat.one_mul]
      exact Nat.lt_div_mul_add hb
    exact_mod_cast hnat
  exact lt_of_mul_lt_mul_right (hlt.trans_le hdiv) hb'.le

/-- The rounded number does not fall below the natural number that it should be. -/
theorem le_round_of_near (hF : F.minExponent ≤ 0) {q : ℚ} {a b : ℕ} (hb : 0 < b)
    (hq : |q * b - a| * 2 ^ (F.precision + 1) < a) (ha : 7 * a + 1 < 2 ^ F.precision) :
    ((a / b : ℕ) : ℚ) ≤ F.round q := by
  have hb' : (0 : ℚ) < b := by exact_mod_cast hb
  have hk : a / b < 2 ^ F.precision := by
    have := Nat.div_le_self a b
    omega
  rcases Nat.eq_or_lt_of_le (Nat.div_mul_le_self a b) with hdvd | hrest
  · refine (F.round_eq_natCast hF hk ?_).ge
    have hcast : ((a / b : ℕ) : ℚ) * b = a := by exact_mod_cast hdvd
    have hfactor : |q * b - a| = |q - (a / b : ℕ)| * b := by
      rw [← hcast, ← sub_mul, abs_mul, abs_of_pos hb']
    rw [hfactor, ← hcast] at hq
    refine lt_of_mul_lt_mul_right ?_ hb'.le
    linarith
  · rw [← F.round_natCast hF hk]
    refine F.round_mono (le_of_mul_le_mul_right ?_ hb')
    have hcast : ((a / b : ℕ) : ℚ) * b + 1 ≤ a := by exact_mod_cast hrest
    have hone : |q * b - a| ≤ 1 := by
      by_contra hgt
      have : (2 : ℚ) ^ (F.precision + 1) ≤ |q * b - a| * 2 ^ (F.precision + 1) :=
        le_mul_of_one_le_left (by positivity) (not_le.1 hgt).le
      have hP : 7 * (a : ℚ) + 1 < 2 ^ F.precision := by exact_mod_cast ha
      rw [pow_succ] at this hq
      have : (0 : ℚ) ≤ a := by positivity
      linarith
    have := (abs_le.1 hone).1
    linarith

/-- **The floor is right.**  If the number before rounding is within half a place of the fraction
that was meant, then the floor after rounding is that of the fraction. -/
theorem floor_round (hF : F.minExponent ≤ 0) {q : ℚ} {a b : ℕ} (hb : 0 < b) (hq0 : 0 ≤ q)
    (hq : |q * b - a| * 2 ^ (F.precision + 1) < a) (ha : 7 * a + 1 < 2 ^ F.precision)
    (hsmall : (b : ℚ) * 2 ^ (F.minExponent + F.precision) ≤ 1) :
    ⌊F.round q⌋₊ = a / b := by
  have hup : (q * b - a) * 2 ^ F.precision + q * b + 1 < 2 ^ F.precision := by
    have hle : q * b - a ≤ |q * b - a| := le_abs_self _
    have hP : (1 : ℚ) ≤ 2 ^ F.precision := one_le_pow₀ (by norm_num)
    have ha' : 7 * (a : ℚ) + 1 < 2 ^ F.precision := by exact_mod_cast ha
    rw [pow_succ] at hq
    nlinarith [abs_nonneg (q * b - a)]
  rw [Nat.floor_eq_iff (F.round_nonneg hq0)]
  exact ⟨F.le_round_of_near hF hb hq ha, F.round_lt_succ hb hq0 hup hsmall⟩

end Format

/-! ### The numbers of a format -/

/-- A number of the format. -/
structure Value (F : Format) where
  toRat : ℚ
  round_toRat : F.round toRat = toRat

namespace Value

variable {F : Format}

@[ext] theorem ext {x y : Value F} (h : x.toRat = y.toRat) : x = y := by
  cases x
  cases y
  cases h
  rfl

/-- The number nearest to a rational. -/
def ofRat (q : ℚ) : Value F := ⟨F.round q, F.round_round q⟩

instance : Add (Value F) := ⟨fun x y => ofRat (x.toRat + y.toRat)⟩
instance : Sub (Value F) := ⟨fun x y => ofRat (x.toRat - y.toRat)⟩
instance : Mul (Value F) := ⟨fun x y => ofRat (x.toRat * y.toRat)⟩
instance : Div (Value F) := ⟨fun x y => ofRat (x.toRat / y.toRat)⟩
instance : NatCast (Value F) := ⟨fun n => ofRat n⟩
instance (n : ℕ) : OfNat (Value F) n := ⟨(n : Value F)⟩
instance : OfScientific (Value F) := ⟨fun m s e => ofRat (OfScientific.ofScientific m s e)⟩
instance : LE (Value F) := ⟨fun x y => x.toRat ≤ y.toRat⟩
instance : LT (Value F) := ⟨fun x y => x.toRat < y.toRat⟩
instance (x y : Value F) : Decidable (x ≤ y) := inferInstanceAs (Decidable (x.toRat ≤ y.toRat))
instance (x y : Value F) : Decidable (x < y) := inferInstanceAs (Decidable (x.toRat < y.toRat))

instance : Max (Value F) := ⟨fun x y => if x ≤ y then y else x⟩

/-- The absolute value. -/
def abs (x : Value F) : Value F := ofRat |x.toRat|

/-- The integer nearest to the number, and of two equally near ones the one farther from zero. -/
def roundAway (x : Value F) : ℤ :=
  if 0 ≤ x.toRat then ⌊x.toRat + 1 / 2⌋ else -⌊-x.toRat + 1 / 2⌋

/-- The whole part, as a number of `w` bits that saturates at both ends. -/
def toBits (w : ℕ) (x : Value F) : ℕ := min ⌊x.toRat⌋₊ (2 ^ w - 1)

/-- The nearest integer, as a number of `w` bits that saturates at both ends. -/
def roundToBits (w : ℕ) (x : Value F) : ℕ := min x.roundAway.toNat (2 ^ w - 1)

@[simp] theorem toRat_ofRat (q : ℚ) : (ofRat q : Value F).toRat = F.round q := rfl

@[simp] theorem toRat_add (x y : Value F) : (x + y).toRat = F.round (x.toRat + y.toRat) := rfl

@[simp] theorem toRat_sub (x y : Value F) : (x - y).toRat = F.round (x.toRat - y.toRat) := rfl

@[simp] theorem toRat_mul (x y : Value F) : (x * y).toRat = F.round (x.toRat * y.toRat) := rfl

@[simp] theorem toRat_div (x y : Value F) : (x / y).toRat = F.round (x.toRat / y.toRat) := rfl

theorem toRat_natCast (n : ℕ) : (n : Value F).toRat = F.round n := rfl

theorem le_def {x y : Value F} : x ≤ y ↔ x.toRat ≤ y.toRat := Iff.rfl

theorem lt_def {x y : Value F} : x < y ↔ x.toRat < y.toRat := Iff.rfl

@[simp] theorem toRat_max (x y : Value F) : (max x y).toRat = max x.toRat y.toRat := by
  change (if x ≤ y then y else x).toRat = _
  split_ifs with h
  · exact (max_eq_right h).symm
  · exact (max_eq_left (not_le.1 h).le).symm

theorem natCast_le_roundAway {x : Value F} {n : ℕ} (h : (n : ℚ) ≤ x.toRat) :
    (n : ℤ) ≤ x.roundAway := by
  have hnonneg : 0 ≤ x.toRat := le_trans (by positivity) h
  rw [roundAway, if_pos hnonneg, Int.le_floor]
  push_cast
  linarith

theorem roundAway_le_natCast {x : Value F} {n : ℕ} (h0 : 0 ≤ x.toRat) (h : x.toRat ≤ n) :
    x.roundAway ≤ n := by
  rw [roundAway, if_pos h0, ← Int.lt_add_one_iff, Int.floor_lt]
  push_cast
  linarith

/-- Between two natural numbers the nearest integer stays. -/
theorem roundToBits_mem {x : Value F} {w m n : ℕ} (hm : (m : ℚ) ≤ x.toRat) (hn : x.toRat ≤ n)
    (hw : n < 2 ^ w) : m ≤ x.roundToBits w ∧ x.roundToBits w ≤ n := by
  have hlow := natCast_le_roundAway hm
  have hup := roundAway_le_natCast (le_trans (by positivity) hm) hn
  unfold roundToBits
  omega

/-- Less than a half from a natural number, that is the nearest integer. -/
theorem roundToBits_eq {x : Value F} {w n : ℕ} (h0 : 0 ≤ x.toRat) (h : |x.toRat - n| < 1 / 2)
    (hw : n < 2 ^ w) : x.roundToBits w = n := by
  obtain ⟨hlow, hup⟩ := abs_lt.1 h
  have hround : x.roundAway = n := by
    rw [roundAway, if_pos h0, Int.floor_eq_iff]
    push_cast
    constructor <;> linarith
  unfold roundToBits
  omega

/-- To exceed the value that a growing quantity has at `n` is to be measured by more than `n`, if
the quantity grows right after `n`. -/
theorem lt_iff_of_mono {f : ℕ → Value F} (hf : Monotone fun i => (f i).toRat) {n : ℕ}
    (hn : f n < f (n + 1)) (i : ℕ) : f n < f i ↔ n < i :=
  ⟨fun h => hf.reflect_lt h, fun h => lt_of_lt_of_le (lt_def.1 hn) (hf h)⟩

/-- To stay below the value that it has at `n` is to be measured by less than `n`, if it grows right
before `n`. -/
theorem lt_iff_of_mono' {f : ℕ → Value F} (hf : Monotone fun i => (f i).toRat) {n : ℕ}
    (hn : f n < f (n + 1)) (i : ℕ) : f i < f (n + 1) ↔ i < n + 1 :=
  ⟨fun h => hf.reflect_lt h, fun h => lt_of_le_of_lt (hf (Nat.le_of_lt_succ h)) (lt_def.1 hn)⟩

end Value

/-- Double precision. -/
def binary64 : Format := ⟨53, -1074, by decide⟩

/-- A double. -/
abbrev F64 : Type := Value binary64

/-! ### Doubles -/

/-- A double up to a bound is off by no more than this when it is rounded. -/
theorem abs_round_sub_le_of_le {q b : ℚ} (hq : |q| ≤ b) :
    |binary64.round q - q| ≤ (b + 1) / 2 ^ 53 := by
  have herr := binary64.abs_round_sub_mul_le q
  have hsmall : (2 : ℚ) ^ (binary64.minExponent + binary64.precision) ≤ 1 :=
    zpow_le_one_of_nonpos₀ (by norm_num) (by norm_num [binary64])
  have hprec : (2 : ℚ) ^ binary64.precision = 2 ^ 53 := rfl
  rw [hprec] at herr
  rw [le_div_iff₀ (by norm_num)]
  linarith

/-- A whole number is itself. -/
theorem toRat_ofNat {n : ℕ} (hn : n < 2 ^ 53) : (OfNat.ofNat n : F64).toRat = n :=
  binary64.round_natCast (by norm_num [binary64]) hn

/-- A decimal fraction is the double that is near enough to it. -/
theorem toRat_decimal {m e n k : ℕ} {r : ℚ} (hk : k ≤ 1074) (hn : n < 2 ^ 53) (hr : r = n / 2 ^ k)
    (h : |OfScientific.ofScientific m true e - r| * 2 ^ 54 < r) :
    (OfScientific.ofScientific m true e : F64).toRat = r :=
  binary64.round_eq_of_near (by simp only [binary64]; omega) hn hr h

end FloatingPoint
