/-
**The send-rate estimator.**

The sender has no bandwidth estimate but what the receiver tells it of losses.  The estimator is the
loss-based half of a published congestion control: below two percent of loss the rate rises by a
twentieth, above ten percent it falls by half the loss, in between it holds.  All of it is computed
in double precision and cut to whole bits per second.

What comes out is what the rules say in integers.  A rise and a hold are exact; a cut may lose one
bit per second, and does so only where the rule leaves no remainder.

Main definitions:

* `Rda.BitrateEstimator` — the estimator;
* `Rda.BitrateEstimator.planned` — the three rules, in integers.

Main results:

* `Rda.BitrateEstimator.nextBps_follows` — **an update follows the rules**;
* `Rda.BitrateEstimator.rise_reaches` — ninety rises lead to the highest rate.
-/

import Rda.Telemetry

set_option relaxedAutoImplicit false
set_option autoImplicit false

namespace Rda

open FloatingPoint

/-- Loss over the sliding window as a fraction. -/
def LossEstimator.fraction (e : LossEstimator) : F64 := (e.permille.toNat : F64) / 1000

/-- Loss-based send-rate estimator. -/
structure BitrateEstimator where
  estimateBps : ℕ
  lastUpdateMs : Option ℕ
  /-- The receiver's buffer is growing, so that the rate does not rise. -/
  delayPressure : Bool
  lastPlayoutMs : Option ℕ

namespace BitrateEstimator

/-- Lowest rate the estimator will propose. -/
def MIN_BITRATE_BPS : ℕ := 150000

/-- Highest rate the estimator will propose. -/
def MAX_BITRATE_BPS : ℕ := 12000000

/-- How often the estimate may change. -/
def BITRATE_UPDATE_INTERVAL_MS : ℕ := 250

/-- A rate within the bounds. -/
def clampBps (bps : ℕ) : ℕ := max MIN_BITRATE_BPS (min bps MAX_BITRATE_BPS)

/-- Starts at a rate. -/
def new (initialBps : ℕ) : BitrateEstimator := ⟨clampBps initialBps, none, false, none⟩

/-- Feeds in the receiver's playout delay, which stands in for a delay-based overuse signal: growth
by a fifth, and by 20 ms at least. -/
def observeDelay (e : BitrateEstimator) (playoutDelayMs : ℕ) : BitrateEstimator :=
  { e with
    delayPressure := match e.lastPlayoutMs with
      | some previous =>
          decide (playoutDelayMs > previous + 20 ∧ playoutDelayMs * 5 > previous * 6)
      | none => e.delayPressure
    lastPlayoutMs := some playoutDelayMs }

/-- The last update is too recent for another one. -/
def limited (e : BitrateEstimator) (nowMs : ℕ) : Bool :=
  match e.lastUpdateMs with
  | some last => nowMs - last < BITRATE_UPDATE_INTERVAL_MS
  | none => false

/-- The next estimate. -/
def nextBps (e : BitrateEstimator) (lossFraction : F64) : ℕ :=
  let current : F64 := (e.estimateBps : F64)
  let next : F64 :=
    if lossFraction > 0.10 then current * max (1.0 - 0.5 * lossFraction) 0.5
    else if lossFraction < 0.02 ∧ e.delayPressure = false then current * 1.05
    else current
  clampBps (next.toBits 32)

/-- Folds in a loss measurement and gives the updated estimate. -/
def update (e : BitrateEstimator) (lossFraction : F64) (nowMs : ℕ) : ℕ × BitrateEstimator :=
  if e.limited nowMs then (e.estimateBps, e)
  else
    let next := e.nextBps lossFraction
    (next, { e with estimateBps := next, lastUpdateMs := some nowMs })

/-- An update changes nothing, or it is the time of the last update. -/
theorem update_cases (e : BitrateEstimator) (lossFraction : F64) (nowMs : ℕ) :
    (e.limited nowMs = true ∧ e.update lossFraction nowMs = (e.estimateBps, e)) ∨
    (e.limited nowMs = false ∧ e.update lossFraction nowMs = (e.nextBps lossFraction,
      { e with estimateBps := e.nextBps lossFraction, lastUpdateMs := some nowMs })) := by
  unfold update
  cases e.limited nowMs with
  | true => exact .inl ⟨rfl, rfl⟩
  | false => exact .inr ⟨rfl, rfl⟩

theorem limited_eq_false_iff {e : BitrateEstimator} {last : ℕ} (h : e.lastUpdateMs = some last)
    (nowMs : ℕ) : e.limited nowMs = false ↔ last + BITRATE_UPDATE_INTERVAL_MS ≤ nowMs := by
  have hpos : 0 < BITRATE_UPDATE_INTERVAL_MS := by decide
  simp only [limited, h, decide_eq_false_iff_not]
  omega

/-! ### The rules in integers -/

/-- What the rules make of an estimate at a loss in parts per thousand. -/
def planned (estimateBps : ℕ) (pressure : Bool) (permille : ℕ) : ℕ :=
  if 100 < permille then estimateBps * (2000 - permille) / 2000
  else if permille < 20 ∧ pressure = false then 21 * estimateBps / 20
  else estimateBps

/-- An estimate follows another one by the rules: it is the planned one within the bounds, or, if a
cut leaves no remainder, it may be one bit per second less. -/
def Follows (pressure : Bool) (permille bps next : ℕ) : Prop :=
  ∃ n, next = clampBps n ∧ (n = planned bps pressure permille ∨
    100 < permille ∧ 2000 ∣ bps * (2000 - permille) ∧ n + 1 = planned bps pressure permille)

theorem clampBps_bounds (n : ℕ) : MIN_BITRATE_BPS ≤ clampBps n ∧ clampBps n ≤ MAX_BITRATE_BPS := by
  unfold clampBps MIN_BITRATE_BPS MAX_BITRATE_BPS
  omega

theorem clampBps_eq {n : ℕ} (h : MIN_BITRATE_BPS ≤ n ∧ n ≤ MAX_BITRATE_BPS) : clampBps n = n := by
  unfold clampBps
  omega

end BitrateEstimator

/-! ### A loss in double precision -/

/-- A loss in parts per thousand, as a fraction. -/
def fractionOf (permille : ℕ) : F64 := (permille : F64) / 1000

theorem LossEstimator.fraction_eq (e : LossEstimator) :
    e.fraction = fractionOf e.permille.toNat := rfl

theorem toRat_thousand : (1000 : F64).toRat = 1000 := toRat_ofNat (by norm_num)

theorem fractionOf_mono : Monotone fun p => (fractionOf p).toRat := by
  intro p q h
  simp only [fractionOf, Value.toRat_div, Value.toRat_natCast, toRat_thousand]
  refine binary64.round_mono (div_le_div_of_nonneg_right (binary64.round_mono ?_) (by norm_num))
  exact_mod_cast h

theorem toRat_fractionOf {p : ℕ} (hp : p < 2 ^ 32) :
    (fractionOf p).toRat = binary64.round (p / 1000) := by
  rw [fractionOf, Value.toRat_div, toRat_thousand, toRat_u32 hp]

/-- The fraction is as near to the loss as double precision goes. -/
theorem abs_fractionOf_sub_le {p : ℕ} (hp : p ≤ 1000) :
    |(fractionOf p).toRat - p / 1000| ≤ 1 / 2 ^ 52 := by
  have hp' : (p : ℚ) ≤ 1000 := by exact_mod_cast hp
  have hone : |(p : ℚ) / 1000| ≤ 1 := by
    rw [abs_of_nonneg (by positivity)]
    linarith
  rw [toRat_fractionOf (by omega)]
  exact (abs_round_sub_le_of_le hone).trans (by norm_num)

/-- A thousandth more of loss is a greater fraction. -/
theorem fractionOf_lt_succ {p : ℕ} (hp : p < 1000) : fractionOf p < fractionOf (p + 1) := by
  have hlow := abs_le.1 (abs_fractionOf_sub_le hp.le)
  have hup := abs_le.1 (abs_fractionOf_sub_le (show p + 1 ≤ 1000 from hp))
  rw [Value.lt_def]
  push_cast at hup
  linarith

/-- A loss is above a bound when its parts per thousand are. -/
theorem lt_fractionOf {n : ℕ} {q : ℚ} {bound : F64} (hbound : bound = Value.ofRat q)
    (hq : q = n / 1000) (hn : n < 1000) (p : ℕ) : bound < fractionOf p ↔ n < p := by
  have heq : bound = fractionOf n := by
    refine Value.ext ?_
    rw [hbound, hq, toRat_fractionOf (by omega), Value.toRat_ofRat]
  rw [heq]
  exact Value.lt_iff_of_mono fractionOf_mono (fractionOf_lt_succ hn) p

/-- A loss is below a bound when its parts per thousand are. -/
theorem fractionOf_lt {n : ℕ} {q : ℚ} {bound : F64} (hbound : bound = Value.ofRat q)
    (hq : q = (n + 1 : ℕ) / 1000) (hn : n < 1000) (p : ℕ) :
    fractionOf p < bound ↔ p < n + 1 := by
  have heq : bound = fractionOf (n + 1) := by
    refine Value.ext ?_
    rw [hbound, hq, toRat_fractionOf (by omega), Value.toRat_ofRat]
  rw [heq]
  exact Value.lt_iff_of_mono' fractionOf_mono (fractionOf_lt_succ hn) p

theorem tenth_lt_fractionOf (p : ℕ) : (0.10 : F64) < fractionOf p ↔ 100 < p :=
  lt_fractionOf rfl (by norm_num) (by norm_num) p

theorem fractionOf_lt_fiftieth (p : ℕ) : fractionOf p < (0.02 : F64) ↔ p < 20 :=
  fractionOf_lt (n := 19) rfl (by norm_num) (by norm_num) p

namespace BitrateEstimator

/-! ### A cut -/

/-- The factor of a cut. -/
theorem abs_factor_sub_le {p : ℕ} (hp : p ≤ 1000) :
    |(max (1.0 - 0.5 * fractionOf p) 0.5 : F64).toRat - (2000 - p) / 2000| ≤ 1 / 2 ^ 50 := by
  have hp' : (p : ℚ) ≤ 1000 := by exact_mod_cast hp
  have hp0 : (0 : ℚ) ≤ p := by positivity
  have hone : (1.0 : F64).toRat = 1 :=
    toRat_decimal (n := 1) (k := 0) (by norm_num) (by norm_num) (by norm_num) (by norm_num)
  have hhalf : (0.5 : F64).toRat = 1 / 2 :=
    toRat_decimal (n := 1) (k := 1) (by norm_num) (by norm_num) (by norm_num) (by norm_num)
  have hfraction := abs_le.1 (abs_fractionOf_sub_le hp)
  rw [Value.toRat_max, Value.toRat_sub, Value.toRat_mul, hone, hhalf]
  set l : ℚ := (fractionOf p).toRat
  have hmul := abs_le.1 (abs_round_sub_le_of_le (q := 1 / 2 * l) (b := 2)
    (by rw [abs_le]; constructor <;> linarith))
  set h : ℚ := binary64.round (1 / 2 * l)
  have hsub := abs_le.1 (abs_round_sub_le_of_le (q := 1 - h) (b := 2)
    (by rw [abs_le]; constructor <;> linarith))
  rcases max_choice (binary64.round (1 - h)) (1 / 2) with hmax | hmax
  · rw [hmax, abs_le]
    constructor <;> linarith
  · have hle : binary64.round (1 - h) ≤ 1 / 2 := by
      rw [← hmax]
      exact le_max_left _ _
    rw [hmax, abs_le]
    constructor <;> linarith

/-- The rate after a cut, before it is brought within the bounds. -/
theorem cut_follows {bps p : ℕ} (hbps : bps ≤ MAX_BITRATE_BPS) (hp : p ≤ 1000) :
    ∃ n, ((bps : F64) * max (1.0 - 0.5 * fractionOf p) 0.5).toBits 32 = n ∧
      (n = bps * (2000 - p) / 2000 ∨
        2000 ∣ bps * (2000 - p) ∧ n + 1 = bps * (2000 - p) / 2000) := by
  have hfactor := abs_le.1 (abs_factor_sub_le hp)
  have hp' : (p : ℚ) ≤ 1000 := by exact_mod_cast hp
  have hp0 : (0 : ℚ) ≤ p := by positivity
  have hbps' : (bps : ℚ) ≤ 12000000 := by exact_mod_cast hbps
  have hbps0 : (0 : ℚ) ≤ bps := by positivity
  rw [MAX_BITRATE_BPS] at hbps
  set m : ℚ := (max (1.0 - 0.5 * fractionOf p) 0.5 : F64).toRat
  set a : ℕ := bps * (2000 - p) with ha
  have ha' : (a : ℚ) = bps * (2000 - p) := by
    rw [ha, Nat.cast_mul, Nat.cast_sub (by omega)]
    norm_num
  have hvalue : ((bps : F64) * max (1.0 - 0.5 * fractionOf p) 0.5).toRat =
      binary64.round (bps * m) := by
    rw [Value.toRat_mul, toRat_u32 (by omega)]
  -- how far the product is from what was meant
  have hnear : |bps * m * (2000 : ℕ) - a| ≤ bps * 2000 / 2 ^ 50 := by
    have hfactor' : bps * m * (2000 : ℕ) - a = bps * 2000 * (m - (2000 - p) / 2000) := by
      rw [ha']
      push_cast
      ring
    rw [hfactor', abs_mul, abs_of_nonneg (by positivity : (0 : ℚ) ≤ bps * 2000)]
    calc bps * 2000 * |m - (2000 - p) / 2000|
        ≤ bps * 2000 * (1 / 2 ^ 50) :=
          mul_le_mul_of_nonneg_left (abs_factor_sub_le hp) (by positivity)
      _ = bps * 2000 / 2 ^ 50 := by ring
  have hnear' := abs_le.1 hnear
  have hale : (a : ℚ) ≤ 12000000 * 2000 := by
    rw [ha']
    nlinarith
  have hq0 : 0 ≤ bps * m := mul_nonneg hbps0 (by linarith)
  have hup : binary64.round (bps * m) < (a / 2000 : ℕ) + 1 := by
    refine binary64.round_lt_succ (by norm_num) hq0 ?_ ?_
    · have hprec : (2 : ℚ) ^ binary64.precision = 2 ^ 53 := rfl
      rw [hprec]
      push_cast at hnear' ⊢
      linarith
    · have hpow : (2 : ℚ) ^ (binary64.minExponent + binary64.precision) ≤ 2 ^ (-20 : ℤ) :=
        zpow_le_zpow_right₀ (by norm_num) (by decide)
      rw [zpow_neg] at hpow
      push_cast
      linarith
  have hfloor : ⌊binary64.round (bps * m)⌋₊ ≤ a / 2000 := by
    rw [← Nat.lt_succ_iff, Nat.floor_lt (binary64.round_nonneg hq0)]
    push_cast at hup ⊢
    exact hup
  have hk : a / 2000 ≤ 12000000 := by
    have hle : a ≤ 12000000 * 2000 := by exact_mod_cast hale
    omega
  have hlow : ∀ k : ℕ, k ≤ a / 2000 → (k : ℚ) * 2000 + 1 ≤ a →
      k ≤ ⌊binary64.round (bps * m)⌋₊ := by
    intro k hk' hle
    rw [Nat.le_floor_iff (binary64.round_nonneg hq0), ← toRat_u32 (by omega : k < 2 ^ 32)]
    refine binary64.round_mono ?_
    push_cast at hnear'
    linarith
  have hbits : ((bps : F64) * max (1.0 - 0.5 * fractionOf p) 0.5).toBits 32 =
      ⌊binary64.round (bps * m)⌋₊ := by
    rw [Value.toBits, hvalue]
    omega
  refine ⟨_, hbits, ?_⟩
  rcases Nat.eq_or_lt_of_le (Nat.div_mul_le_self a 2000) with hdvd | hrest
  · by_cases heq : ⌊binary64.round (bps * m)⌋₊ = a / 2000
    · exact .inl heq
    · refine .inr ⟨⟨a / 2000, by omega⟩, ?_⟩
      rcases Nat.eq_zero_or_pos (a / 2000) with hzero | hpos
      · omega
      · have hle : ((a / 2000 - 1 : ℕ) : ℚ) * 2000 + 1 ≤ a := by
          have : (a / 2000 - 1) * 2000 + 1 ≤ a := by omega
          exact_mod_cast this
        have := hlow (a / 2000 - 1) (by omega) hle
        omega
  · have hle : ((a / 2000 : ℕ) : ℚ) * 2000 + 1 ≤ a := by exact_mod_cast hrest
    exact .inl (le_antisymm hfloor (hlow _ le_rfl hle))

/-! ### A rise -/

/-- The rate after a rise, before it is brought within the bounds. -/
theorem rise_eq {bps : ℕ} (hbps : bps ≤ MAX_BITRATE_BPS) :
    ((bps : F64) * 1.05).toBits 32 = 21 * bps / 20 := by
  have hconst : (1.05 : F64).toRat = 4728779608739021 / 2 ^ 52 :=
    toRat_decimal (n := 4728779608739021) (k := 52) (by norm_num) (by norm_num) (by norm_num)
      (by norm_num)
  rw [MAX_BITRATE_BPS] at hbps
  rcases Nat.eq_zero_or_pos bps with rfl | hpos
  · rw [Value.toBits, Value.toRat_mul, toRat_u32 (by norm_num), Nat.cast_zero, zero_mul,
      Format.round_zero, Nat.floor_zero]
    rfl
  · have hpos' : (0 : ℚ) < bps := by exact_mod_cast hpos
    have hprec : (2 : ℚ) ^ (binary64.precision + 1) = 2 ^ 54 := rfl
    have hdiff : bps * (4728779608739021 / 2 ^ 52) * (20 : ℕ) - (21 * bps : ℕ) =
        (bps : ℚ) * (4 / 2 ^ 52) := by
      push_cast
      ring
    have hfloor : ⌊binary64.round (bps * (4728779608739021 / 2 ^ 52))⌋₊ = 21 * bps / 20 := by
      refine binary64.floor_round (by decide) (by norm_num) (by positivity) ?_ ?_ ?_
      · rw [hdiff, abs_of_nonneg (by positivity), hprec]
        push_cast
        linarith
      · exact lt_of_le_of_lt (by omega : 7 * (21 * bps) + 1 ≤ 2 ^ 31) (by decide)
      · have hpow : (2 : ℚ) ^ (binary64.minExponent + binary64.precision) ≤ 2 ^ (-20 : ℤ) :=
          zpow_le_zpow_right₀ (by norm_num) (by decide)
        rw [zpow_neg] at hpow
        push_cast
        linarith
    rw [Value.toBits, Value.toRat_mul, toRat_u32 (by omega), hconst, hfloor]
    omega

/-- A rate that is held. -/
theorem hold_eq {bps : ℕ} (hbps : bps ≤ MAX_BITRATE_BPS) : (bps : F64).toBits 32 = bps := by
  rw [MAX_BITRATE_BPS] at hbps
  rw [Value.toBits, toRat_u32 (by omega), Nat.floor_natCast]
  omega

/-- **The estimator follows the rules.**  For every estimate within the bounds and every loss. -/
theorem nextBps_follows {e : BitrateEstimator} {p : ℕ} (he : e.estimateBps ≤ MAX_BITRATE_BPS)
    (hp : p ≤ 1000) : Follows e.delayPressure p e.estimateBps (e.nextBps (fractionOf p)) := by
  unfold Follows nextBps planned
  simp only [tenth_lt_fractionOf, fractionOf_lt_fiftieth, gt_iff_lt]
  by_cases hcut : 100 < p
  · obtain ⟨n, hn, hrule⟩ := cut_follows he hp
    rw [if_pos hcut, if_pos hcut]
    refine ⟨n, by rw [← hn], hrule.imp_right ?_⟩
    rintro ⟨hdvd, heq⟩
    exact ⟨hcut, hdvd, heq⟩
  · rw [if_neg hcut, if_neg hcut]
    by_cases hrise : p < 20 ∧ e.delayPressure = false
    · rw [if_pos hrise, if_pos hrise]
      exact ⟨_, by rw [rise_eq he], .inl rfl⟩
    · rw [if_neg hrise, if_neg hrise]
      exact ⟨_, by rw [hold_eq he], .inl rfl⟩

/-- Twelve percent of loss. -/
theorem nextBps_follows_sample :
    Follows false 120 1500000 ((new 1500000).nextBps (fractionOf 120)) :=
  nextBps_follows (by decide : (new 1500000).estimateBps ≤ MAX_BITRATE_BPS) (by decide : 120 ≤ 1000)

/-! ### How far a number of updates leads -/

/-- No update leaves the bounds. -/
theorem Follows.bounds {pressure : Bool} {p bps next : ℕ} (h : Follows pressure p bps next) :
    MIN_BITRATE_BPS ≤ next ∧ next ≤ MAX_BITRATE_BPS := by
  obtain ⟨n, rfl, -⟩ := h
  exact clampBps_bounds n

/-- An update raises an estimate by a twentieth at most. -/
theorem Follows.le {pressure : Bool} {p bps next : ℕ} (h : Follows pressure p bps next)
    (hbps : MIN_BITRATE_BPS ≤ bps) : next ≤ 21 * bps / 20 := by
  obtain ⟨n, rfl, hn⟩ := h
  have hplanned : planned bps pressure p ≤ 21 * bps / 20 := by
    unfold planned
    split_ifs
    · have : bps * (2000 - p) ≤ bps * 2000 := Nat.mul_le_mul_left _ (by omega)
      omega
    · exact le_rfl
    · omega
  unfold clampBps
  omega

/-- And lowers it to the half at most, up to one bit per second. -/
theorem Follows.halves {pressure : Bool} {p bps next : ℕ} (h : Follows pressure p bps next)
    (hp : p ≤ 1000) (hbps : bps ≤ MAX_BITRATE_BPS) : bps / 2 ≤ next + 1 := by
  obtain ⟨n, rfl, hn⟩ := h
  have hplanned : bps / 2 ≤ planned bps pressure p := by
    unfold planned
    split_ifs
    · have : bps * 1000 ≤ bps * (2000 - p) := Nat.mul_le_mul_left _ (by omega)
      omega
    · omega
    · omega
  unfold clampBps
  omega

/-- A rise. -/
def riseBps (bps : ℕ) : ℕ := clampBps (21 * bps / 20)

theorem Follows.rise {p bps next : ℕ} (h : Follows false p bps next) (hp : p < 20) :
    next = riseBps bps := by
  obtain ⟨n, rfl, hn⟩ := h
  have hplanned : planned bps false p = 21 * bps / 20 := by
    rw [planned, if_neg (by omega), if_pos ⟨hp, rfl⟩]
  rw [riseBps, ← hplanned]
  rcases hn with rfl | ⟨hcut, -⟩
  · rfl
  · omega

theorem le_iterate_rise {bps : ℕ} (h : MIN_BITRATE_BPS ≤ bps) (n : ℕ) :
    MIN_BITRATE_BPS ≤ riseBps^[n] bps := by
  induction n with
  | zero => exact h
  | succ n ih =>
      rw [Function.iterate_succ_apply']
      exact (clampBps_bounds _).1

/-- Rises multiply what an estimate is above 19, the most that a rise loses by being cut to whole
bits, until the bound is reached. -/
theorem rises_grow {bps : ℕ} (h : MIN_BITRATE_BPS ≤ bps) (n : ℕ) :
    riseBps^[n] bps = MAX_BITRATE_BPS ∨
      21 ^ n * (bps - 19) ≤ 20 ^ n * (riseBps^[n] bps - 19) := by
  induction n with
  | zero => exact .inr le_rfl
  | succ n ih =>
      have hlow := le_iterate_rise h n
      rw [Function.iterate_succ_apply']
      set b := riseBps^[n] bps
      rcases ih with hmax | hgrown
      · rw [hmax]
        exact .inl rfl
      · by_cases hbound : MAX_BITRATE_BPS ≤ 21 * b / 20
        · refine .inl ?_
          rw [riseBps, clampBps, min_eq_right hbound]
          rfl
        · have hrise : riseBps b = 21 * b / 20 := clampBps_eq ⟨by omega, (not_le.1 hbound).le⟩
          have hloss : 21 * (b - 19) ≤ 20 * (21 * b / 20 - 19) := by omega
          refine .inr ?_
          calc 21 ^ (n + 1) * (bps - 19) = 21 * (21 ^ n * (bps - 19)) := by ring
            _ ≤ 21 * (20 ^ n * (b - 19)) := Nat.mul_le_mul_left 21 hgrown
            _ = 20 ^ n * (21 * (b - 19)) := by ring
            _ ≤ 20 ^ n * (20 * (21 * b / 20 - 19)) := Nat.mul_le_mul_left _ hloss
            _ = 20 ^ (n + 1) * (riseBps b - 19) := by rw [hrise, pow_succ, mul_assoc]

/-- Ninety rises lead from anywhere to the highest rate. -/
theorem rise_reaches {bps : ℕ} (h : MIN_BITRATE_BPS ≤ bps) (n : ℕ) :
    MAX_BITRATE_BPS ≤ riseBps^[n + 90] bps := by
  rw [add_comm, Function.iterate_add_apply]
  have hlow := le_iterate_rise h n
  rcases rises_grow hlow 90 with hmax | hgrown
  · exact hmax.ge
  · by_contra hshort
    have hleast : 21 ^ 90 * (MIN_BITRATE_BPS - 19) ≤ 21 ^ 90 * (riseBps^[n] bps - 19) :=
      Nat.mul_le_mul_left _ (by omega)
    have hmost : 20 ^ 90 * (riseBps^[90] (riseBps^[n] bps) - 19) ≤
        20 ^ 90 * (MAX_BITRATE_BPS - 19) := Nat.mul_le_mul_left _ (by omega)
    have hnum : 20 ^ 90 * (MAX_BITRATE_BPS - 19) < 21 ^ 90 * (MIN_BITRATE_BPS - 19) := by
      norm_num [MAX_BITRATE_BPS, MIN_BITRATE_BPS]
    exact absurd (hleast.trans (hgrown.trans hmost)) (not_le.2 hnum)

end BitrateEstimator

end Rda
