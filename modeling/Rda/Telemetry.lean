/-
**Measuring the link.**

Round-trip times and jitter are smoothed by exponential averages, computed in double precision, and
kept for a while in windows: the least round-trip time of the window is what the path costs with no
queue in it, and a high percentile of the jitter is what the playout buffer is sized by.

The averages are weighted with dyadic weights, which double precision has, so that rounding never
takes them outside of the range of the samples, and what an average remembers of the past it loses
at a known pace.

Main definitions:

* `Rda.RttEstimator`, `Rda.JitterEstimator` — the estimators;
* `Rda.floatEstimator` — the jitter estimator as the playout buffer uses it.

Main results:

* `Rda.RttEstimator.rtt_bounds` — **the smoothed round-trip time is between the least and the
  greatest one sampled, and the least one is that of the window**;
* `Rda.RttEstimator.smoothed_settles` — **equal samples are what the smoothed time settles at,
  whatever came before**;
* `Rda.JitterEstimator.jitter_estimates` — **the smoothed jitter, and the percentile of the
  window**;
* `Rda.JitterBuffer.playout_refines` — **the playout buffer plays with doubles what it plays with
  integers**.
-/

import Rda.FloatingPoint
import Rda.QosReports
import Rda.SlidingWindow

set_option relaxedAutoImplicit false
set_option autoImplicit false

namespace Rda

open FloatingPoint

/-- How long the minimum-RTT estimate is held before it is allowed to rise. -/
def MIN_RTT_WINDOW_MS : ℕ := 10000

/-! ### Round-trip times -/

/-- Round-trip time estimator: the smoothed time and its variance, the latest sample, and the
samples of the window. -/
structure RttEstimator where
  srttMs : Option F64 := none
  rttvarMs : F64 := 0
  latestMs : ℕ := 0
  minSamples : List (ℕ × ℕ) := []

namespace RttEstimator

/-- Records a sample taken at a time. -/
def sample (e : RttEstimator) (rttMs nowMs : ℕ) : RttEstimator :=
  let r : F64 := rttMs
  { srttMs := some <| match e.srttMs with
      | none => r
      | some srtt => 0.875 * srtt + 0.125 * r
    rttvarMs := match e.srttMs with
      | none => r / 2
      | some srtt => 0.75 * e.rttvarMs + 0.25 * (srtt - r).abs
    latestMs := rttMs
    minSamples := SlidingWindow.push MIN_RTT_WINDOW_MS e.minSamples (nowMs, rttMs) }

/-- The smoothed time in milliseconds, or nothing before the first sample. -/
def smoothedMs (e : RttEstimator) : Option ℕ := e.srttMs.map (Value.roundToBits 32)

/-- The least time of the window: what the path costs with no queue in it. -/
def minMs (e : RttEstimator) : Option ℕ := (e.minSamples.map Prod.snd).min?

/-- How far the current time is above the least one. -/
def queueingDelayMs (e : RttEstimator) : ℕ :=
  match e.smoothedMs, e.minMs with
  | some s, some m => s - m
  | _, _ => 0

/-- A sample with the time at which it is taken, as one step. -/
def step (e : RttEstimator) (s : ℕ × ℕ) : RttEstimator := e.sample s.2 s.1

end RttEstimator

/-! ### Jitter -/

/-- Inter-arrival jitter estimator: the samples of the window, and the smoothed deviation. -/
structure JitterEstimator where
  samples : List (ℕ × ℕ) := []
  smoothed : F64 := 0

namespace JitterEstimator

/-- Records one inter-arrival deviation. -/
def sample (e : JitterEstimator) (deviationMs nowMs : ℕ) : JitterEstimator where
  smoothed := e.smoothed + ((deviationMs : F64) - e.smoothed) / 16
  samples := SlidingWindow.push JITTER_WINDOW_MS e.samples (nowMs, deviationMs)

/-- The smoothed jitter in milliseconds. -/
def smoothedMs (e : JitterEstimator) : ℕ := e.smoothed.roundToBits 32

/-- The requested percentile of the deviations in the window. -/
def percentileMs (e : JitterEstimator) (p : F64) : ℕ :=
  if e.samples = [] then 0
  else
    let v := (e.samples.map Prod.snd).insertionSort (· ≤ ·)
    let p := if p < 0 then 0 else if 1 < p then 1 else p
    v.getD (((v.length - 1 : ℕ) : F64) * p).roundAway.toNat 0

/-- A deviation with the time at which it is measured, as one step. -/
def step (e : JitterEstimator) (s : ℕ × ℕ) : JitterEstimator := e.sample s.2 s.1

end JitterEstimator

/-! ### Constants -/

theorem toRat_point875 : (0.875 : F64).toRat = 7 / 8 :=
  toRat_decimal (n := 7) (k := 3) (by norm_num) (by norm_num) (by norm_num) (by norm_num)

theorem toRat_point125 : (0.125 : F64).toRat = 1 / 8 :=
  toRat_decimal (n := 1) (k := 3) (by norm_num) (by norm_num) (by norm_num) (by norm_num)

theorem toRat_point95 : (0.95 : F64).toRat = 8556839292003942 / 2 ^ 53 :=
  toRat_decimal (n := 8556839292003942) (k := 53) (by norm_num) (by norm_num) (by norm_num)
    (by norm_num)

/-- Milliseconds of thirty-two bits are doubles. -/
theorem toRat_u32 {n : ℕ} (hn : n < 2 ^ 32) : (n : F64).toRat = n :=
  binary64.round_natCast (by norm_num [binary64]) (hn.trans (by norm_num [binary64]))


/-- A number of thirty-two bits, over a power of two. -/
theorem round_u32_div {n k : ℕ} (hn : n < 2 ^ 32) (hk : k ≤ 4) :
    binary64.round (n / 2 ^ k) = n / 2 ^ k :=
  binary64.round_natCast_div (by simp [binary64]; omega) (hn.trans (by decide))

/-! ### The smoothed round-trip time -/

namespace RttEstimator

/-- The next smoothed time. -/
theorem toRat_smoothed {s r : F64} :
    (0.875 * s + 0.125 * r).toRat =
      binary64.round (binary64.round (7 / 8 * s.toRat) + binary64.round (1 / 8 * r.toRat)) := by
  rw [Value.toRat_add, Value.toRat_mul, Value.toRat_mul, toRat_point875, toRat_point125]

/-- Smoothing does not leave the range of the samples: its weights are dyadic, so that what it makes
of an end of the range is exact. -/
theorem smoothed_mem {s : F64} {r lo hi : ℕ} (hs : (lo : ℚ) ≤ s.toRat ∧ s.toRat ≤ hi)
    (hr : lo ≤ r ∧ r ≤ hi) (hhi : hi < 2 ^ 32) :
    (lo : ℚ) ≤ (0.875 * s + 0.125 * (r : F64)).toRat ∧
      (0.875 * s + 0.125 * (r : F64)).toRat ≤ hi := by
  have hexact : ∀ n : ℕ, n ≤ hi →
      binary64.round (7 / 8 * n) = 7 / 8 * n ∧ binary64.round (1 / 8 * n) = 1 / 8 * n := by
    intro n hn
    have h7 := binary64.round_natCast_div (n := 7 * n) (k := 3) (by decide)
      (lt_of_lt_of_le (by omega : 7 * n < 7 * 2 ^ 32) (by decide))
    have h1 := round_u32_div (n := n) (k := 3) (by omega) (by omega)
    push_cast at h7 h1
    constructor
    · convert h7 using 2 <;> ring
    · convert h1 using 2 <;> ring
  have hround : ∀ n : ℕ, n ≤ hi → binary64.round n = n := fun n hn => toRat_u32 (by omega)
  have hrlo : (lo : ℚ) ≤ r := by exact_mod_cast hr.1
  have hrhi : (r : ℚ) ≤ hi := by exact_mod_cast hr.2
  rw [toRat_smoothed, toRat_u32 (by omega), (hexact r hr.2).2]
  constructor
  · rw [← hround lo (hr.1.trans hr.2)]
    refine binary64.round_mono ?_
    have := binary64.round_mono (mul_le_mul_of_nonneg_left hs.1 (by norm_num : (0 : ℚ) ≤ 7 / 8))
    rw [(hexact lo (hr.1.trans hr.2)).1] at this
    linarith
  · rw [← hround hi le_rfl]
    refine binary64.round_mono ?_
    have := binary64.round_mono (mul_le_mul_of_nonneg_left hs.2 (by norm_num : (0 : ℚ) ≤ 7 / 8))
    rw [(hexact hi le_rfl).1] at this
    linarith

/-- The estimator has only seen samples between two bounds, if any. -/
def Within (lo hi : ℕ) (e : RttEstimator) : Prop :=
  ∀ v ∈ e.srttMs, (lo : ℚ) ≤ v.toRat ∧ v.toRat ≤ hi

theorem within_step {e : RttEstimator} {s : ℕ × ℕ} {lo hi : ℕ} (h : Within lo hi e)
    (hs : lo ≤ s.2 ∧ s.2 ≤ hi) (hhi : hi < 2 ^ 32) : Within lo hi (e.step s) := by
  intro v hv
  cases hsrtt : e.srttMs with
  | none =>
      simp only [step, sample, hsrtt, Option.mem_def, Option.some.injEq] at hv
      rw [← hv, toRat_u32 (by omega)]
      exact_mod_cast hs
  | some srtt =>
      simp only [step, sample, hsrtt, Option.mem_def, Option.some.injEq] at hv
      rw [← hv]
      exact smoothed_mem (h srtt (by simp [hsrtt])) hs hhi

theorem within_run {e : RttEstimator} {samples : List (ℕ × ℕ)} {lo hi : ℕ} (h : Within lo hi e)
    (hs : ∀ s ∈ samples, lo ≤ s.2 ∧ s.2 ≤ hi) (hhi : hi < 2 ^ 32) :
    Within lo hi (Machine.run step e samples) := by
  induction samples generalizing e with
  | nil => exact h
  | cons s samples ih =>
      exact ih (within_step h (hs s (by simp)) hhi) fun t ht => hs t (by simp [ht])

theorem run_minSamples (e : RttEstimator) (samples : List (ℕ × ℕ)) :
    (Machine.run step e samples).minSamples =
      Machine.run (SlidingWindow.push MIN_RTT_WINDOW_MS) e.minSamples samples := by
  induction samples generalizing e with
  | nil => rfl
  | cons s samples ih => exact ih (e.step s)

theorem run_srttMs_ne_none (e : RttEstimator) (samples : List (ℕ × ℕ)) (s : ℕ × ℕ) :
    ∃ v, (Machine.run step e (samples ++ [s])).srttMs = some v := by
  rw [Machine.run_append]
  exact ⟨_, rfl⟩

/-- **What the estimator says.**  After a run of samples whose clock does not go back, the smoothed
time is between the least and the greatest sample there ever was, and the minimum is the least
sample of the last ten seconds; the queueing delay is what the one is above the other. -/
theorem rtt_bounds {samples : List (ℕ × ℕ)} {s : ℕ × ℕ} {lo hi : ℕ} (hhi : hi < 2 ^ 32)
    (hrange : ∀ t ∈ samples ++ [s], lo ≤ t.2 ∧ t.2 ≤ hi)
    (hclock : SlidingWindow.Ordered (samples ++ [s])) :
    ∃ smoothed least : ℕ,
      (Machine.run step {} (samples ++ [s])).smoothedMs = some smoothed ∧
      lo ≤ smoothed ∧ smoothed ≤ hi ∧
      (Machine.run step {} (samples ++ [s])).minMs = some least ∧
      (∃ t ∈ samples ++ [s], s.1 - t.1 ≤ MIN_RTT_WINDOW_MS ∧ t.2 = least) ∧
      (∀ t ∈ samples ++ [s], s.1 - t.1 ≤ MIN_RTT_WINDOW_MS → least ≤ t.2) ∧
      (Machine.run step {} (samples ++ [s])).queueingDelayMs = smoothed - least := by
  obtain ⟨v, hv⟩ := run_srttMs_ne_none {} samples s
  have hwithin := within_run (e := {}) (by simp [Within]) hrange hhi v hv
  have hsmoothed : (Machine.run step {} (samples ++ [s])).smoothedMs = some (v.roundToBits 32) := by
    rw [smoothedMs, hv, Option.map_some]
  have hwindow : (Machine.run step {} (samples ++ [s])).minSamples =
      SlidingWindow.recent MIN_RTT_WINDOW_MS s.1 (samples ++ [s]) :=
    (run_minSamples {} _).trans (SlidingWindow.run_eq_filter _ hclock)
  have hmem : ∀ t, t ∈ (Machine.run step {} (samples ++ [s])).minSamples ↔
      t ∈ samples ++ [s] ∧ s.1 - t.1 ≤ MIN_RTT_WINDOW_MS := by
    intro t
    rw [hwindow, SlidingWindow.recent, List.mem_filter, decide_eq_true_eq]
  obtain ⟨least, hleast⟩ : ∃ m, (Machine.run step {} (samples ++ [s])).minMs = some m := by
    have hs : s ∈ (Machine.run step {} (samples ++ [s])).minSamples := (hmem s).2 ⟨by simp, by simp⟩
    rw [minMs, ← Option.isSome_iff_exists, List.isSome_min?_iff]
    exact List.ne_nil_of_mem (List.mem_map_of_mem hs)
  obtain ⟨hin, hmin⟩ := List.min?_eq_some_iff.1 hleast
  obtain ⟨t, ht, hteq⟩ := List.mem_map.1 hin
  obtain ⟨hlow, hup⟩ := Value.roundToBits_mem hwithin.1 hwithin.2 hhi
  refine ⟨v.roundToBits 32, least, hsmoothed, hlow, hup, hleast, ⟨t, ((hmem t).1 ht).1,
    ((hmem t).1 ht).2, hteq⟩, ?_, ?_⟩
  · intro u hu hrecent
    exact hmin u.2 (List.mem_map_of_mem ((hmem u).2 ⟨hu, hrecent⟩))
  · rw [queueingDelayMs, hsmoothed, hleast]

/-- A queue builds on a path of 220 ms: the smoothed time starts to rise, the least one does not. -/
theorem rtt_rises : ∃ smoothed, 220 ≤ smoothed ∧ smoothed ≤ 300 ∧
    (Machine.run step {} [(0, 220), (100, 300)]).queueingDelayMs = smoothed - 220 := by
  have hrange : ∀ t ∈ [((0 : ℕ), (220 : ℕ))] ++ [(100, 300)], 220 ≤ t.2 ∧ t.2 ≤ 300 := by decide
  obtain ⟨smoothed, least, -, hlow, hup, hleast, -, -, hdelay⟩ :=
    rtt_bounds (by decide) hrange (by simp [SlidingWindow.Ordered])
  refine ⟨smoothed, hlow, hup, ?_⟩
  have h220 : (Machine.run step {} ([(0, 220)] ++ [(100, 300)])).minMs = some 220 := by rfl
  rw [h220] at hleast
  cases hleast
  exact hdelay

/-! ### What the average forgets -/

/-- A double up to `2 ^ 33` is off by no more than `2 ^ -19` when it is rounded. -/
theorem abs_round_sub_le_of_le_pow {q : ℚ} (hq : |q| ≤ 2 ^ 33) :
    |binary64.round q - q| ≤ 1 / 2 ^ 19 :=
  (abs_round_sub_le_of_le hq).trans (by norm_num)

/-- Each sample leaves seven eighths of the distance, and what the rounding adds. -/
theorem abs_smoothed_sub_le {s : F64} {r : ℕ} (hs : 0 ≤ s.toRat ∧ s.toRat ≤ (2 ^ 32 - 1 : ℕ))
    (hr : r < 2 ^ 32) :
    |(0.875 * s + 0.125 * (r : F64)).toRat - r| ≤ 7 / 8 * |s.toRat - r| + 1 / 2 ^ 18 := by
  have hr0 : (0 : ℚ) ≤ r := by positivity
  have hr' : (r : ℚ) ≤ (2 ^ 32 - 1 : ℕ) := by exact_mod_cast Nat.le_sub_one_of_lt hr
  have hr'' : binary64.round (1 / 8 * (r : F64).toRat) = 1 / 8 * r := by
    have h := round_u32_div (k := 3) hr (by omega)
    rw [toRat_u32 hr]
    convert h using 2 <;> ring
  push_cast at hs hr'
  have h1 : |binary64.round (7 / 8 * s.toRat) - 7 / 8 * s.toRat| ≤ 1 / 2 ^ 19 := by
    refine abs_round_sub_le_of_le_pow ?_
    rw [abs_of_nonneg (by linarith)]
    linarith
  have hb := abs_le.1 h1
  have h2 : |binary64.round (binary64.round (7 / 8 * s.toRat) + 1 / 8 * r) -
      (binary64.round (7 / 8 * s.toRat) + 1 / 8 * r)| ≤ 1 / 2 ^ 19 := by
    refine abs_round_sub_le_of_le_pow ?_
    rw [abs_le]
    constructor <;> linarith
  rw [toRat_smoothed, hr'']
  calc |binary64.round (binary64.round (7 / 8 * s.toRat) + 1 / 8 * r) - r|
      = |(binary64.round (binary64.round (7 / 8 * s.toRat) + 1 / 8 * r) -
            (binary64.round (7 / 8 * s.toRat) + 1 / 8 * r)) +
          (binary64.round (7 / 8 * s.toRat) - 7 / 8 * s.toRat) + 7 / 8 * (s.toRat - r)| := by
        congr 1
        ring
    _ ≤ |binary64.round (binary64.round (7 / 8 * s.toRat) + 1 / 8 * r) -
            (binary64.round (7 / 8 * s.toRat) + 1 / 8 * r)| +
          |binary64.round (7 / 8 * s.toRat) - 7 / 8 * s.toRat| + |7 / 8 * (s.toRat - r)| :=
        abs_add_three _ _ _
    _ ≤ 1 / 2 ^ 19 + 1 / 2 ^ 19 + 7 / 8 * |s.toRat - r| := by
        rw [abs_mul, abs_of_pos (by norm_num : (0 : ℚ) < 7 / 8)]
        linarith
    _ = 7 / 8 * |s.toRat - r| + 1 / 2 ^ 18 := by ring

/-- After `n` equal samples, what is left of the distance from them. -/
theorem abs_run_sub_le {e : RttEstimator} {v : F64} {samples : List (ℕ × ℕ)} {r : ℕ}
    (he : Within 0 (2 ^ 32 - 1) e) (hv : e.srttMs = some v) (hr : r < 2 ^ 32)
    (hsamples : ∀ t ∈ samples, t.2 = r) :
    ∃ w, (Machine.run step e samples).srttMs = some w ∧
      |w.toRat - r| - 1 / 2 ^ 15 ≤ (7 / 8) ^ samples.length * (|v.toRat - r| - 1 / 2 ^ 15) := by
  induction samples generalizing e v with
  | nil => exact ⟨v, hv, by simp⟩
  | cons t samples ih =>
      obtain ⟨time, value⟩ := t
      obtain rfl : value = r := hsamples (time, value) (by simp)
      have hnext : (e.step (time, value)).srttMs = some (0.875 * v + 0.125 * (value : F64)) := by
        simp [step, sample, hv]
      have hwithin : Within 0 (2 ^ 32 - 1) (e.step (time, value)) :=
        within_step he ⟨Nat.zero_le _, Nat.le_sub_one_of_lt hr⟩ (by decide)
      obtain ⟨w, hw, hle⟩ := ih hwithin hnext fun t ht => hsamples t (by simp [ht])
      refine ⟨w, hw, hle.trans ?_⟩
      have hstep := abs_smoothed_sub_le (by simpa using he v (by simp [hv])) hr
      have hpow : (0 : ℚ) ≤ (7 / 8) ^ samples.length := by positivity
      -- what the rounding adds is an eighth of the bound that is taken off
      calc (7 / 8) ^ samples.length *
            (|(0.875 * v + 0.125 * (value : F64)).toRat - value| - 1 / 2 ^ 15)
          ≤ (7 / 8) ^ samples.length * (7 / 8 * (|v.toRat - value| - 1 / 2 ^ 15)) :=
            mul_le_mul_of_nonneg_left (by linarith) hpow
        _ = (7 / 8) ^ (samples.length + 1) * (|v.toRat - value| - 1 / 2 ^ 15) := by
            rw [pow_succ]
            ring

/-- **What the estimator forgets.**  A hundred and eighty equal samples are the smoothed time, to
the millisecond, whatever was sampled before them. -/
theorem smoothed_settles {before after : List (ℕ × ℕ)} {r : ℕ} (hr : r < 2 ^ 32)
    (hbefore : ∀ t ∈ before, t.2 < 2 ^ 32) (hafter : ∀ t ∈ after, t.2 = r)
    (hlong : 180 ≤ after.length) :
    (Machine.run step {} (before ++ after)).smoothedMs = some r := by
  obtain ⟨t, rest, rfl⟩ : ∃ t rest, after = t :: rest := by
    cases after with
    | nil => simp at hlong
    | cons t rest => exact ⟨t, rest, rfl⟩
  have hwithin : Within 0 (2 ^ 32 - 1) (Machine.run step {} (before ++ [t])) := by
    refine within_run (by simp [Within]) ?_ (by decide)
    intro u hu
    rcases List.mem_append.1 hu with hu | hu
    · exact ⟨Nat.zero_le _, Nat.le_sub_one_of_lt (hbefore u hu)⟩
    · obtain rfl := List.mem_singleton.1 hu
      rw [hafter u (by simp)]
      exact ⟨Nat.zero_le _, Nat.le_sub_one_of_lt hr⟩
  obtain ⟨v, hv⟩ := run_srttMs_ne_none {} before t
  have hrest : ∀ u ∈ rest, u.2 = r := fun u hu => hafter u (by simp [hu])
  obtain ⟨w, hw, hle⟩ := abs_run_sub_le hwithin hv hr hrest
  have hrun : Machine.run step {} (before ++ t :: rest) =
      Machine.run step (Machine.run step {} (before ++ [t])) rest := by
    rw [← Machine.run_append, List.append_assoc, List.singleton_append]
  have hstill : ∀ u ∈ rest, 0 ≤ u.2 ∧ u.2 ≤ 2 ^ 32 - 1 := by
    intro u hu
    rw [hrest u hu]
    exact ⟨Nat.zero_le _, Nat.le_sub_one_of_lt hr⟩
  have hw0 : 0 ≤ w.toRat := by
    simpa using (within_run hwithin hstill (by decide) w hw).1
  have hfirst : |v.toRat - r| ≤ 2 ^ 32 := by
    have hv' := hwithin v hv
    have hr' : (r : ℚ) < 2 ^ 32 := by exact_mod_cast hr
    have hr0 : (0 : ℚ) ≤ r := by positivity
    push_cast at hv'
    rw [abs_le]
    constructor <;> linarith
  have hpow : ((7 : ℚ) / 8) ^ rest.length ≤ (7 / 8) ^ 179 :=
    pow_le_pow_of_le_one (by norm_num) (by norm_num) (by simpa using hlong)
  have hpow0 : (0 : ℚ) ≤ (7 / 8) ^ rest.length := by positivity
  have hnear : |w.toRat - r| < 1 / 2 := by
    have hleft : ((7 : ℚ) / 8) ^ rest.length * (|v.toRat - r| - 1 / 2 ^ 15) ≤
        (7 / 8) ^ 179 * 2 ^ 32 := by
      refine (mul_le_mul_of_nonneg_left (by linarith : _ ≤ (2 : ℚ) ^ 32) hpow0).trans ?_
      exact mul_le_mul_of_nonneg_right hpow (by norm_num)
    have hnum : ((7 : ℚ) / 8) ^ 179 * 2 ^ 32 < 1 / 4 := by norm_num
    linarith
  rw [hrun, smoothedMs, hw, Option.map_some, Value.roundToBits_eq hw0 hnear hr]

/-- A second's burst is forgotten. -/
theorem settles_after_burst :
    (Machine.run step {} ([(0, 220), (100, 1000)] ++ List.replicate 180 (200, 220))).smoothedMs =
      some 220 :=
  smoothed_settles (by decide) (by decide) (fun _ ht => by rw [List.eq_of_mem_replicate ht])
    List.length_replicate.ge

end RttEstimator

/-! ### Jitter -/

namespace JitterEstimator

theorem run_window (e : JitterEstimator) (samples : List (ℕ × ℕ)) :
    (Machine.run step e samples).samples =
      Machine.run (SlidingWindow.push JITTER_WINDOW_MS) e.samples samples := by
  induction samples generalizing e with
  | nil => rfl
  | cons s samples ih => exact ih (e.step s)

/-- What the smoothed jitter is above zero and below a bound, it stays. -/
theorem smoothed_mem {s : F64} {d hi : ℕ} (hs : 0 ≤ s.toRat ∧ s.toRat ≤ hi) (hd : d ≤ hi)
    (hhi : hi < 2 ^ 32) :
    0 ≤ (s + ((d : F64) - s) / 16).toRat ∧ (s + ((d : F64) - s) / 16).toRat ≤ hi := by
  have hd' : (d : ℚ) ≤ hi := by exact_mod_cast hd
  have hd0 : (0 : ℚ) ≤ d := by positivity
  have hround : binary64.round hi = hi := toRat_u32 hhi
  have hsixteen : (16 : F64).toRat = 16 := toRat_ofNat (by norm_num)
  rw [Value.toRat_add, Value.toRat_div, Value.toRat_sub, hsixteen, toRat_u32 (by omega)]
  constructor
  · -- the correction takes away no more than there is
    refine binary64.round_nonneg ?_
    have hdiff : -s.toRat ≤ binary64.round (d - s.toRat) := by
      rw [← s.round_toRat, ← binary64.round_neg]
      refine binary64.round_mono ?_
      rw [s.round_toRat]
      linarith
    have hquot : -s.toRat ≤ binary64.round (binary64.round (d - s.toRat) / 16) := by
      have hle : -s.toRat ≤ binary64.round (d - s.toRat) / 16 := by linarith [hs.1]
      have := binary64.round_mono hle
      rwa [binary64.round_neg, s.round_toRat] at this
    linarith
  · rw [← hround]
    refine binary64.round_mono ?_
    rcases eq_or_ne s.toRat hi with heq | hne
    · have hdiff : binary64.round (d - s.toRat) ≤ 0 := by
        have := binary64.round_mono (by linarith : (d : ℚ) - s.toRat ≤ 0)
        rwa [Format.round_zero] at this
      have hquot : binary64.round (binary64.round (d - s.toRat) / 16) ≤ 0 := by
        have := binary64.round_mono (by linarith : binary64.round (d - s.toRat) / 16 ≤ 0)
        rwa [Format.round_zero] at this
      linarith
    · -- a double that is not `hi` is not very near to it, so that its distance has all its places
      have hfar : (hi : ℚ) ≤ (hi - s.toRat) * 2 ^ 54 := by
        by_contra hnear
        refine hne ?_
        rw [← s.round_toRat]
        refine binary64.round_eq_natCast (by decide) (hhi.trans (by decide)) ?_
        rw [abs_sub_comm, abs_of_nonneg (by linarith [hs.2])]
        exact not_le.1 hnear
      have hhi1 : (1 : ℚ) ≤ hi := by
        have : hi ≠ 0 := by
          rintro rfl
          exact hne (le_antisymm hs.2 (by simpa using hs.1))
        exact_mod_cast Nat.one_le_iff_ne_zero.2 this
      have htiny : (2 : ℚ) ^ (binary64.minExponent + binary64.precision) ≤ 1 / 2 ^ 58 := by
        have : (2 : ℚ) ^ (binary64.minExponent + binary64.precision) ≤ 2 ^ (-58 : ℤ) :=
          zpow_le_zpow_right₀ (by norm_num) (by decide)
        rwa [zpow_neg, ← one_div] at this
      have hdiff : binary64.round (d - s.toRat) ≤ 2 * (hi - s.toRat) :=
        (binary64.round_mono (by linarith)).trans (binary64.round_le_two_mul (by linarith))
      have hquot : binary64.round (binary64.round (d - s.toRat) / 16) ≤ 2 * ((hi - s.toRat) / 8) :=
        (binary64.round_mono (by linarith)).trans (binary64.round_le_two_mul (by linarith))
      linarith

/-- Nineteen twentieths of a count, rounded: the percentile's index is computed in double precision
and comes out as it would with integers. -/
theorem roundAway_point95 {k : ℕ} (hk : k < 2 ^ 32) :
    ((k : F64) * 0.95).roundAway = ((19 * k + 10) / 20 : ℕ) := by
  set q : ℚ := k * (8556839292003942 / 2 ^ 53) with hq
  have hvalue : ((k : F64) * 0.95).toRat = binary64.round q := by
    rw [Value.toRat_mul, toRat_u32 hk, toRat_point95]
  have hk0 : (0 : ℚ) ≤ k := by positivity
  have hk' : (k : ℚ) < 2 ^ 32 := by exact_mod_cast hk
  have hq0 : 0 ≤ q := by
    rw [hq]
    positivity
  have hexact : |q - 19 * k / 20| = k * (2 / 5) / 2 ^ 53 := by
    have : q - 19 * k / 20 = -(k * (2 / 5) / 2 ^ 53) := by
      rw [hq]
      ring
    rw [this, abs_neg, abs_of_nonneg (by positivity)]
  obtain ⟨t, m, hsplit, hm⟩ : ∃ t m, 19 * k + 10 = 20 * t + m ∧ m < 20 :=
    ⟨_, _, (Nat.div_add_mod (19 * k + 10) 20).symm, Nat.mod_lt _ (by norm_num)⟩
  have ht : (19 * k + 10) / 20 = t := by omega
  have hsplit' : 19 * (k : ℚ) + 10 = 20 * t + m := by exact_mod_cast hsplit
  rw [ht, Value.roundAway, if_pos (by rw [hvalue]; exact binary64.round_nonneg hq0), hvalue,
    Int.floor_eq_iff, Int.cast_natCast]
  rcases Nat.eq_zero_or_pos m with rfl | hrest
  · -- a tie: the product is exact
    rw [Nat.cast_zero] at hsplit'
    have hhalf : (19 * k / 20 : ℚ) = ((2 * t - 1 : ℕ) : ℚ) / 2 ^ 1 := by
      rw [Nat.cast_sub (by omega)]
      push_cast
      linarith
    have hpos : (0 : ℚ) < k := by
      have : 0 < k := by omega
      exact_mod_cast this
    have hround : binary64.round q = 19 * k / 20 := by
      refine binary64.round_eq_of_near (by decide) ?_ hhalf ?_
      · exact lt_of_le_of_lt (by omega : 2 * t - 1 ≤ 2 * 2 ^ 32) (by decide)
      · have hprec : (2 : ℚ) ^ (binary64.precision + 1) = 2 ^ 54 := rfl
        rw [hexact, hprec]
        linarith
    rw [hround]
    constructor <;> linarith
  · have hone : (1 : ℚ) ≤ m := by exact_mod_cast hrest
    have hmle : (m : ℚ) ≤ 19 := by exact_mod_cast Nat.le_of_lt_succ hm
    have hqle : q ≤ 2 ^ 32 := by
      rw [hq]
      linarith
    have hround := abs_le.1 (RttEstimator.abs_round_sub_le_of_le_pow (q := q)
      (by rw [abs_of_nonneg hq0]; linarith))
    have hnear : |q - 19 * k / 20| ≤ 1 / 2 ^ 19 := by
      rw [hexact]
      linarith
    have hnear' := abs_le.1 hnear
    constructor <;> linarith

/-- The percentile is the one that the playout buffer's estimator takes. -/
theorem percentileMs_point95 {e : JitterEstimator} (h : e.samples.length ≤ 2 ^ 32) :
    e.percentileMs 0.95 = jitterEstimator.percentile95 e.samples := by
  have hclamp : ¬ (0.95 : F64) < 0 ∧ ¬ (1 : F64) < 0.95 := by
    have hzero : (0 : F64).toRat = (0 : ℕ) := toRat_ofNat (by norm_num)
    have hone : (1 : F64).toRat = (1 : ℕ) := toRat_ofNat (by norm_num)
    rw [Value.lt_def, Value.lt_def, toRat_point95, hzero, hone]
    norm_num
  by_cases hnil : e.samples = []
  · rw [percentileMs, if_pos hnil, hnil]
    rfl
  · have hpos := List.length_pos_of_ne_nil hnil
    have hlength : ((e.samples.map Prod.snd).insertionSort (· ≤ ·)).length = e.samples.length := by
      rw [List.length_insertionSort, List.length_map]
    simp only [percentileMs, if_neg hnil, if_neg hclamp.1, if_neg hclamp.2, hlength]
    rw [roundAway_point95 (by omega), Int.toNat_natCast]
    rfl

/-- **What the estimator says.**  After a run of deviations whose clock does not go back, the
smoothed jitter is no more than the greatest deviation there ever was; and the 95th percentile is
the entry of the sorted window, which holds the deviations of the last ten seconds, whose index is
nineteen twentieths of the last one's, rounded to the nearest with halves up. -/
theorem jitter_estimates {samples : List (ℕ × ℕ)} {s : ℕ × ℕ} {hi : ℕ} (hhi : hi < 2 ^ 32)
    (hrange : ∀ t ∈ samples ++ [s], t.2 ≤ hi) (hmany : samples.length < 2 ^ 32)
    (hclock : SlidingWindow.Ordered (samples ++ [s])) :
    (Machine.run step {} (samples ++ [s])).smoothedMs ≤ hi ∧
      ∃ window : List ℕ,
        window.Perm (((samples ++ [s]).filter fun t => s.1 - t.1 ≤ JITTER_WINDOW_MS).map
          Prod.snd) ∧ window.Pairwise (· ≤ ·) ∧
        ∃ h : (19 * (window.length - 1) + 10) / 20 < window.length,
          (Machine.run step {} (samples ++ [s])).percentileMs 0.95 =
            window[(19 * (window.length - 1) + 10) / 20] := by
  have hsmoothed : ∀ (ts : List (ℕ × ℕ)) (e : JitterEstimator),
      0 ≤ e.smoothed.toRat ∧ e.smoothed.toRat ≤ hi → (∀ t ∈ ts, t.2 ≤ hi) →
      0 ≤ (Machine.run step e ts).smoothed.toRat ∧ (Machine.run step e ts).smoothed.toRat ≤ hi := by
    intro ts
    induction ts with
    | nil => exact fun e he _ => he
    | cons t ts ih =>
        intro e he hts
        exact ih _ (smoothed_mem he (hts t (by simp)) hhi) fun u hu => hts u (by simp [hu])
  have hzero : 0 ≤ (0 : F64).toRat ∧ (0 : F64).toRat ≤ hi := by
    rw [show (0 : F64).toRat = (0 : ℕ) from toRat_ofNat (by norm_num), Nat.cast_zero]
    exact ⟨le_rfl, by positivity⟩
  obtain ⟨hlow, hup⟩ := hsmoothed _ {} hzero hrange
  have hwindow : (Machine.run step {} (samples ++ [s])).samples =
      (samples ++ [s]).filter fun t => s.1 - t.1 ≤ JITTER_WINDOW_MS :=
    (run_window {} _).trans (SlidingWindow.run_eq_filter _ hclock)
  have hlength : (Machine.run step {} (samples ++ [s])).samples.length ≤ 2 ^ 32 := by
    rw [hwindow]
    have := List.length_filter_le (fun t => decide (s.1 - t.1 ≤ JITTER_WINDOW_MS)) (samples ++ [s])
    rw [List.length_append, List.length_singleton] at this
    omega
  have hs : s ∈ (Machine.run step {} (samples ++ [s])).samples := by
    rw [hwindow]
    simp
  have hpos := List.length_pos_of_mem hs
  refine ⟨(Value.roundToBits_mem (m := 0) (by rwa [Nat.cast_zero]) hup hhi).2, _,
    List.perm_insertionSort (· ≤ ·) _, List.pairwise_insertionSort (· ≤ ·) _, ?_⟩
  rw [← hwindow]
  have hsorted : (((Machine.run step {} (samples ++ [s])).samples.map Prod.snd).insertionSort
      (· ≤ ·)).length = (Machine.run step {} (samples ++ [s])).samples.length := by
    rw [List.length_insertionSort, List.length_map]
  refine ⟨by omega, ?_⟩
  rw [percentileMs_point95 hlength]
  change List.getD _ _ _ = _
  rw [← hsorted, List.getD_eq_getElem]

/-- Twenty deviations, the last of them a late one. -/
theorem smoothed_after_tail :
    (Machine.run step {} (List.replicate 19 (0, 5) ++ [(100, 200)])).smoothedMs ≤ 200 := by
  have hrange : ∀ t ∈ List.replicate 19 ((0 : ℕ), (5 : ℕ)) ++ [(100, 200)], t.2 ≤ 200 := by decide
  exact (jitter_estimates (by decide) hrange (by decide) (by simp [SlidingWindow.Ordered])).1

end JitterEstimator

/-! ### The playout buffer -/

/-- The estimator that the playout buffer has. -/
def floatEstimator : Estimator JitterEstimator where
  new := {}
  sample := .sample
  percentile95 e := e.percentileMs 0.95

namespace JitterBuffer

/-- The buffer with nothing but the window of its estimator. -/
def windowed (b : JitterBuffer JitterEstimator) : JitterBuffer (List (ℕ × ℕ)) :=
  { b with jitter := b.jitter.samples }

variable {b : JitterBuffer JitterEstimator}

theorem windowed_arrive (b : JitterBuffer JitterEstimator) (frame : EncodedFrame) (nowMs : ℕ) :
    (b.arrive floatEstimator frame nowMs).windowed =
      b.windowed.arrive jitterEstimator frame nowMs := by
  unfold arrive windowed measured
  cases b.lastArrivalMs with
  | none => rfl
  | some arrival =>
      cases b.lastPtsUs with
      | none => rfl
      | some pts => rfl

theorem windowed_adaptTarget (h : b.jitter.samples.length ≤ 2 ^ 32) (nowMs : ℕ) :
    (b.adaptTarget floatEstimator nowMs).windowed =
      b.windowed.adaptTarget jitterEstimator nowMs := by
  have hpercentile : floatEstimator.percentile95 b.jitter =
      jitterEstimator.percentile95 b.jitter.samples := JitterEstimator.percentileMs_point95 h
  unfold adaptTarget windowed
  simp only [hpercentile]
  split_ifs
  · rfl
  · rfl
  · rfl

/-- An arrival adds one sample at most. -/
theorem length_samples_arrive (b : JitterBuffer JitterEstimator) (frame : EncodedFrame)
    (nowMs : ℕ) :
    (b.arrive floatEstimator frame nowMs).jitter.samples.length ≤ b.jitter.samples.length + 1 := by
  change (b.measured floatEstimator frame nowMs).samples.length ≤ _
  unfold measured
  split
  · refine (List.dropWhile_sublist _).length_le.trans ?_
    simp
  · omega

theorem jitter_adaptTarget (b : JitterBuffer JitterEstimator) (nowMs : ℕ) :
    (b.adaptTarget floatEstimator nowMs).jitter = b.jitter := by
  simp only [adaptTarget]
  split_ifs
  · rfl
  · rfl
  · rfl

/-- A call adds one sample at most. -/
theorem length_samples_call (b : JitterBuffer JitterEstimator) (c : JitterCall) :
    (b.call floatEstimator c).jitter.samples.length ≤ b.jitter.samples.length + 1 := by
  cases c with
  | push frame nowMs =>
      have harrive := length_samples_arrive b frame nowMs
      by_cases hfresh : b.Fresh frame
      · simpa only [call, push, if_neg (not_not.2 hfresh), jitter_adaptTarget] using harrive
      · simpa only [call, push, if_pos hfresh] using harrive
  | poll nowMs =>
      have hjitter : (b.poll nowMs).2.jitter = b.jitter := by
        simp only [poll]
        split
        · split
          · rfl
          · split_ifs
            · rfl
            · rfl
        · split_ifs
          · rfl
          · rfl
      rw [call, hjitter]
      omega

theorem windowed_push (h : b.jitter.samples.length < 2 ^ 32) (frame : EncodedFrame) (nowMs : ℕ) :
    (b.push floatEstimator frame nowMs).2.windowed =
      (b.windowed.push jitterEstimator frame nowMs).2 := by
  have harrive := windowed_arrive b frame nowMs
  have hadapt : ((b.arrive floatEstimator frame nowMs).adaptTarget floatEstimator nowMs).windowed =
      (b.windowed.arrive jitterEstimator frame nowMs).adaptTarget jitterEstimator nowMs := by
    have hlength := length_samples_arrive b frame nowMs
    rw [windowed_adaptTarget (by omega), harrive]
  have henqueued : b.enqueued floatEstimator frame nowMs =
      b.windowed.enqueued jitterEstimator frame nowMs := by
    rw [enqueued, enqueued, ← hadapt]
    rfl
  by_cases hfresh : b.Fresh frame
  · have hfresh' : b.windowed.Fresh frame := hfresh
    simp only [push, if_neg (not_not.2 hfresh), if_neg (not_not.2 hfresh'), ← henqueued, ← hadapt]
    simp only [windowed]
  · have hfresh' : ¬ b.windowed.Fresh frame := hfresh
    simp only [push, if_pos hfresh, if_pos hfresh', ← harrive]
    rfl

theorem windowed_poll (b : JitterBuffer JitterEstimator) (nowMs : ℕ) :
    (b.poll nowMs).1 = (b.windowed.poll nowMs).1 ∧
      (b.poll nowMs).2.windowed = (b.windowed.poll nowMs).2 := by
  have hleft : b.windowed.left nowMs = b.left nowMs := rfl
  simp only [poll, hleft]
  cases hqueue : b.left nowMs with
  | nil =>
      have hempty : b.windowed.emptySinceMs = b.emptySinceMs := rfl
      simp only [hempty]
      cases b.emptySinceMs with
      | none => exact ⟨rfl, rfl⟩
      | some since =>
          dsimp only
          split_ifs
          · exact ⟨rfl, rfl⟩
          · exact ⟨rfl, rfl⟩
  | cons front rest =>
      dsimp only
      split_ifs
      · exact ⟨rfl, rfl⟩
      · exact ⟨rfl, rfl⟩

/-- **Double precision plays what integers would.**  The playout buffer computes the percentile that
it is sized by in double precision.  In every run of fewer than `2 ^ 32` calls it plays the same
frames, at the same calls, as a buffer that computes it with integers, and the two end in the same
state. -/
theorem playout_refines {calls : List JitterCall} (h : calls.length < 2 ^ 32) :
    plays floatEstimator (.new floatEstimator) calls =
        plays jitterEstimator (.new jitterEstimator) calls ∧
      (Machine.run (call floatEstimator) (.new floatEstimator) calls).windowed =
        Machine.run (call jitterEstimator) (.new jitterEstimator) calls := by
  have hrun : ∀ (calls : List JitterCall) (b : JitterBuffer JitterEstimator),
      b.jitter.samples.length + calls.length < 2 ^ 32 →
      plays floatEstimator b calls = plays jitterEstimator b.windowed calls ∧
        (Machine.run (call floatEstimator) b calls).windowed =
          Machine.run (call jitterEstimator) b.windowed calls := by
    intro calls
    induction calls with
    | nil => exact fun b _ => ⟨rfl, rfl⟩
    | cons c calls ih =>
        intro b hb
        have hlength := length_samples_call b c
        rw [List.length_cons] at hb
        obtain ⟨hplays, hstate⟩ := ih (b.call floatEstimator c) (by omega)
        cases c with
        | push frame nowMs =>
            have hstep : (b.call floatEstimator (.push frame nowMs)).windowed =
                b.windowed.call jitterEstimator (.push frame nowMs) :=
              windowed_push (by omega) frame nowMs
            rw [hstep] at hplays hstate
            exact ⟨by rw [plays, plays, hplays]; rfl, hstate⟩
        | poll nowMs =>
            obtain ⟨hdecision, hstep⟩ := windowed_poll b nowMs
            have hstep' : (b.call floatEstimator (.poll nowMs)).windowed =
                b.windowed.call jitterEstimator (.poll nowMs) := hstep
            rw [hstep'] at hplays hstate
            exact ⟨by rw [plays, plays, hplays, played, played, hdecision], hstate⟩
  exact hrun calls _ (by simpa [new, floatEstimator] using h)

/-- Three frames and a late poll. -/
theorem plays_last_of_three :
    plays floatEstimator (.new floatEstimator) (Sample.healthy ++ [.poll 1300]) =
      [Sample.baseFrame .delta 66666] := by
  rw [(playout_refines (by decide)).1]
  rfl

end JitterBuffer

end Rda
