/-
**What is decided from the measurements.**

From the estimate of the bandwidth and the measured loss follow the rung of the degradation ladder
that is recommended, the amount of forward error correction, and the bit budget of the video; from
the round-trip time and the jitter follows whether a retransmission is worth asking for.  All of
them compare or divide doubles.  The comparisons come out as if they were made in thousandths of
loss and in bits per second, and the budget is never above what is left when the correction is paid
for.

Main definitions:

* `Rda.selectRung`, `Rda.fecSchedule`, `Rda.budgetBps`, `Rda.shouldNack` — the decisions;
* `Rda.Telemetry`, `Rda.Telemetry.view` — all that is measured, and what the rate controller gets.

Main results:

* `Rda.policy_tables` — **the decisions are those of integer tables**;
* `Rda.budget_within_share` — **video and error correction together stay within video's share**;
* `Rda.nack_in_time` — **a repair that is asked for can arrive in time, one that is not cannot**.
-/

import Rda.BitrateEstimator
import Rda.Ladder

set_option relaxedAutoImplicit false
set_option autoImplicit false

namespace Rda

open FloatingPoint

/-! ### Which rung -/

/-- Selects a rung from the bandwidth estimate and the loss. -/
def selectRung (bweBps : ℕ) (lossFraction : F64) : Rung :=
  if lossFraction > 0.25 then 7
  else if lossFraction > 0.15 then 6
  else
    let mbps : F64 := (bweBps : F64) / 1000000
    if mbps ≥ 8.0 then 0
    else if mbps ≥ 4.0 then 1
    else if mbps ≥ 2.5 then 2
    else if mbps ≥ 1.5 then 3
    else if mbps ≥ 0.8 then 4
    else if mbps ≥ 0.4 then 5
    else 6

/-- The rung by bits per second. -/
def rungForRate (bweBps : ℕ) : Rung :=
  if 8000000 ≤ bweBps then 0
  else if 4000000 ≤ bweBps then 1
  else if 2500000 ≤ bweBps then 2
  else if 1500000 ≤ bweBps then 3
  else if 800000 ≤ bweBps then 4
  else if 400000 ≤ bweBps then 5
  else 6

/-- The rung by thousandths of loss and bits per second. -/
def rungFor (bweBps permille : ℕ) : Rung :=
  if 250 < permille then 7
  else if 150 < permille then 6
  else rungForRate bweBps

/-- Bits per second, in millions. -/
def megabits (bps : ℕ) : F64 := (bps : F64) / 1000000

theorem toRat_million : (1000000 : F64).toRat = 1000000 := toRat_ofNat (by norm_num)

theorem megabits_mono : Monotone fun b => (megabits b).toRat := by
  intro p q h
  simp only [megabits, Value.toRat_div, Value.toRat_natCast, toRat_million]
  refine binary64.round_mono (div_le_div_of_nonneg_right (binary64.round_mono ?_) (by norm_num))
  exact_mod_cast h

theorem toRat_megabits {bps : ℕ} (h : bps < 2 ^ 32) :
    (megabits bps).toRat = binary64.round (bps / 1000000) := by
  rw [megabits, Value.toRat_div, toRat_million, toRat_u32 h]

/-- A bit per second more is a greater rate. -/
theorem megabits_lt_succ {bps : ℕ} (h : bps < 10000000) : megabits bps < megabits (bps + 1) := by
  have hten : ∀ b : ℕ, b ≤ 10000000 → |(b : ℚ) / 1000000| ≤ 10 := by
    intro b hb
    have hb' : (b : ℚ) ≤ 10000000 := by exact_mod_cast hb
    rw [abs_of_nonneg (by positivity)]
    linarith
  have hlow := abs_le.1 (abs_round_sub_le_of_le (hten bps h.le))
  have hup := abs_le.1 (abs_round_sub_le_of_le (hten (bps + 1) h))
  rw [Value.lt_def, toRat_megabits (by omega), toRat_megabits (by omega)]
  push_cast at hup ⊢
  linarith

/-- A rate reaches a bound when its bits per second do. -/
theorem le_megabits {n : ℕ} {q : ℚ} {bound : F64} (hbound : bound = Value.ofRat q)
    (hq : q = (n + 1 : ℕ) / 1000000) (hn : n < 10000000) (bps : ℕ) :
    bound ≤ megabits bps ↔ n + 1 ≤ bps := by
  have heq : bound = megabits (n + 1) := by
    refine Value.ext ?_
    rw [hbound, hq, toRat_megabits (by omega), Value.toRat_ofRat]
  have h := Value.lt_iff_of_mono' megabits_mono (megabits_lt_succ hn) bps
  rw [← heq, Value.lt_def] at h
  rw [Value.le_def, ← not_lt, h, not_lt]

/-- **The rung is that of the table.** -/
theorem selectRung_eq (bweBps permille : ℕ) :
    selectRung bweBps (fractionOf permille) = rungFor bweBps permille := by
  have h25 : (0.25 : F64) < fractionOf permille ↔ 250 < permille :=
    lt_fractionOf rfl (by norm_num) (by norm_num) permille
  have h15 : (0.15 : F64) < fractionOf permille ↔ 150 < permille :=
    lt_fractionOf rfl (by norm_num) (by norm_num) permille
  have h80 : (8.0 : F64) ≤ megabits bweBps ↔ 8000000 ≤ bweBps :=
    le_megabits (n := 7999999) rfl (by norm_num) (by norm_num) bweBps
  have h40 : (4.0 : F64) ≤ megabits bweBps ↔ 4000000 ≤ bweBps :=
    le_megabits (n := 3999999) rfl (by norm_num) (by norm_num) bweBps
  have h25' : (2.5 : F64) ≤ megabits bweBps ↔ 2500000 ≤ bweBps :=
    le_megabits (n := 2499999) rfl (by norm_num) (by norm_num) bweBps
  have h15' : (1.5 : F64) ≤ megabits bweBps ↔ 1500000 ≤ bweBps :=
    le_megabits (n := 1499999) rfl (by norm_num) (by norm_num) bweBps
  have h08 : (0.8 : F64) ≤ megabits bweBps ↔ 800000 ≤ bweBps :=
    le_megabits (n := 799999) rfl (by norm_num) (by norm_num) bweBps
  have h04 : (0.4 : F64) ≤ megabits bweBps ↔ 400000 ≤ bweBps :=
    le_megabits (n := 399999) rfl (by norm_num) (by norm_num) bweBps
  unfold selectRung rungFor rungForRate
  rw [← megabits]
  simp only [gt_iff_lt, ge_iff_le, h25, h15, h80, h40, h25', h15', h08, h04]

/-! ### How much error correction -/

/-- Forward error correction redundancy for one moment in time, in percent. -/
structure FecSchedule where
  baseLayerPct : ℕ
  enhancementPct : ℕ
  referenceBonusPct : ℕ
  deriving DecidableEq, Repr

/-- Approximate total bandwidth overhead as a fraction of the media rate. -/
def FecSchedule.approximateOverhead (s : FecSchedule) : F64 :=
  ((s.baseLayerPct : F64) * 0.6 + (s.enhancementPct : F64) * 0.4) / 100

/-- Selects the redundancy for a measured loss. -/
def fecSchedule (lossFraction : F64) : FecSchedule :=
  let pct := lossFraction * 100
  if pct < 0.5 then ⟨0, 0, 20⟩
  else if pct < 2.0 then ⟨15, 0, 20⟩
  else if pct < 5.0 then ⟨30, 10, 20⟩
  else if pct < 10.0 then ⟨50, 20, 20⟩
  else ⟨60, 0, 20⟩

/-- The redundancy by thousandths of loss. -/
def fecFor (permille : ℕ) : FecSchedule :=
  if permille < 5 then ⟨0, 0, 20⟩
  else if permille < 20 then ⟨15, 0, 20⟩
  else if permille < 50 then ⟨30, 10, 20⟩
  else if permille < 100 then ⟨50, 20, 20⟩
  else ⟨60, 0, 20⟩

/-- A loss in percent. -/
def percentOf (permille : ℕ) : F64 := fractionOf permille * 100

theorem toRat_hundred : (100 : F64).toRat = 100 := toRat_ofNat (by norm_num)

theorem percentOf_mono : Monotone fun p => (percentOf p).toRat := by
  intro p q h
  simp only [percentOf, Value.toRat_mul, toRat_hundred]
  exact binary64.round_mono (mul_le_mul_of_nonneg_right (fractionOf_mono h) (by norm_num))

theorem abs_percentOf_sub_le {p : ℕ} (hp : p ≤ 1000) :
    |(percentOf p).toRat - p / 10| ≤ 1 / 2 ^ 44 := by
  have hp' : (p : ℚ) ≤ 1000 := by exact_mod_cast hp
  have hp0 : (0 : ℚ) ≤ p := by positivity
  have hfraction := abs_le.1 (abs_fractionOf_sub_le hp)
  have hround := abs_le.1 (abs_round_sub_le_of_le (q := (fractionOf p).toRat * 100) (b := 200)
    (by rw [abs_le]; constructor <;> linarith))
  rw [percentOf, Value.toRat_mul, toRat_hundred, abs_le]
  constructor <;> linarith

/-- A loss is below a bound when its parts per thousand are.  As a fraction the bound is the double
`m / 2 ^ k`, which is not below it, so that a loss that is not below the bound is not brought below
it by the rounding. -/
theorem percentOf_lt {n m k : ℕ} {bound : F64} (hbound : bound.toRat = (n + 1 : ℕ) / 10)
    (hn : n < 1000) (hk : k ≤ 1074) (hm : m < 2 ^ 53)
    (hnear : |((n + 1 : ℕ) : ℚ) / 1000 - m / 2 ^ k| * 2 ^ 54 < m / 2 ^ k)
    (hup : ((n + 1 : ℕ) : ℚ) / 1000 ≤ m / 2 ^ k) (p : ℕ) : percentOf p < bound ↔ p < n + 1 := by
  have hfraction : (fractionOf (n + 1)).toRat = m / 2 ^ k := by
    rw [toRat_fractionOf (by omega)]
    exact binary64.round_eq_of_near (by simp only [binary64]; omega) hm rfl hnear
  have hle : bound.toRat ≤ (percentOf (n + 1)).toRat := by
    rw [percentOf, Value.toRat_mul, toRat_hundred, hfraction, ← bound.round_toRat, hbound]
    refine binary64.round_mono ?_
    linarith
  have hlow := abs_le.1 (abs_percentOf_sub_le hn.le)
  rw [Value.lt_def]
  constructor
  · intro h
    by_contra hge
    exact absurd (hle.trans (percentOf_mono (not_lt.1 hge))) (not_le.2 h)
  · intro h
    refine (percentOf_mono (Nat.le_of_lt_succ h)).trans_lt ?_
    rw [hbound]
    push_cast
    linarith

/-- **The redundancy is that of the table.** -/
theorem fecSchedule_eq (permille : ℕ) : fecSchedule (fractionOf permille) = fecFor permille := by
  have h05 : percentOf permille < (0.5 : F64) ↔ permille < 5 := by
    refine percentOf_lt (n := 4) (m := 5764607523034235) (k := 60) ?_ (by norm_num) (by norm_num)
      (by norm_num) (by norm_num) (by norm_num) permille
    exact toRat_decimal (n := 1) (k := 1) (by norm_num) (by norm_num) (by norm_num)
      (by norm_num)
  have h2 : percentOf permille < (2.0 : F64) ↔ permille < 20 := by
    refine percentOf_lt (n := 19) (m := 5764607523034235) (k := 58) ?_ (by norm_num) (by norm_num)
      (by norm_num) (by norm_num) (by norm_num) permille
    exact toRat_decimal (n := 2) (k := 0) (by norm_num) (by norm_num) (by norm_num)
      (by norm_num)
  have h5 : percentOf permille < (5.0 : F64) ↔ permille < 50 := by
    refine percentOf_lt (n := 49) (m := 7205759403792794) (k := 57) ?_ (by norm_num) (by norm_num)
      (by norm_num) (by norm_num) (by norm_num) permille
    exact toRat_decimal (n := 5) (k := 0) (by norm_num) (by norm_num) (by norm_num)
      (by norm_num)
  have h10 : percentOf permille < (10.0 : F64) ↔ permille < 100 := by
    refine percentOf_lt (n := 99) (m := 7205759403792794) (k := 56) ?_ (by norm_num) (by norm_num)
      (by norm_num) (by norm_num) (by norm_num) permille
    exact toRat_decimal (n := 10) (k := 0) (by norm_num) (by norm_num) (by norm_num)
      (by norm_num)
  unfold fecSchedule fecFor
  rw [← percentOf]
  simp only [h05, h2, h5, h10]

theorem rungForRate_anti {bweBps bweBps' : ℕ} (h : bweBps ≤ bweBps') :
    rungForRate bweBps' ≤ rungForRate bweBps := by
  unfold rungForRate
  split_ifs
  all_goals first | decide | exact absurd h (by omega)

theorem rungForRate_le_six (bweBps : ℕ) : rungForRate bweBps ≤ 6 := by
  unfold rungForRate
  split_ifs
  all_goals decide

/-- A worse link never has a better rung. -/
theorem rungFor_le {bweBps bweBps' permille permille' : ℕ} (hbwe : bweBps ≤ bweBps')
    (hloss : permille' ≤ permille) : rungFor bweBps' permille' ≤ rungFor bweBps permille := by
  unfold rungFor
  by_cases hfailing : 250 < permille
  · rw [if_pos hfailing]
    exact Fin.le_last _
  · rw [if_neg hfailing, if_neg (show ¬ 250 < permille' by omega)]
    by_cases hheavy : 150 < permille
    · rw [if_pos hheavy]
      split_ifs
      · exact le_rfl
      · exact rungForRate_le_six bweBps'
    · rw [if_neg hheavy, if_neg (show ¬ 150 < permille' by omega)]
      exact rungForRate_anti hbwe

/-- **The decisions are those of the tables.**  However doubles round: the rung and the redundancy
are what the tables give for the thousandths of loss and the bits per second; a loss counts as heavy
from 101 thousandths on; and more loss or less bandwidth never leads to a better rung. -/
theorem policy_tables {bweBps bweBps' permille permille' : ℕ} (hbwe : bweBps ≤ bweBps')
    (hloss : permille' ≤ permille) :
    selectRung bweBps (fractionOf permille) = rungFor bweBps permille ∧
      fecSchedule (fractionOf permille) = fecFor permille ∧
      (fractionOf permille > 0.10 ↔ 100 < permille) ∧
      selectRung bweBps' (fractionOf permille') ≤ selectRung bweBps (fractionOf permille) := by
  refine ⟨selectRung_eq bweBps permille, fecSchedule_eq permille, tenth_lt_fractionOf permille, ?_⟩
  rw [selectRung_eq, selectRung_eq]
  exact rungFor_le hbwe hloss

/-- Less bandwidth and more loss. -/
theorem policy_tables_sample :
    selectRung 8000000 (fractionOf 40) ≤ selectRung 900000 (fractionOf 160) :=
  (policy_tables (by decide : 900000 ≤ 8000000) (by decide : 40 ≤ 160)).2.2.2

/-! ### The bit budget -/

/-- Fraction of the bandwidth estimate video may claim. -/
def VIDEO_SHARE : F64 := 0.85

/-- Video's share of the estimate, after error correction. -/
def budgetBps (bweBps : ℕ) (lossFraction : F64) : ℕ :=
  let budget := ((bweBps : F64) * VIDEO_SHARE).toBits 32
  let overhead := (fecSchedule lossFraction).approximateOverhead
  ((budget : F64) / (1.0 + overhead)).toBits 32

/-- The complete live picture of one session's link. -/
structure Telemetry where
  rtt : RttEstimator := {}
  loss : LossEstimator := {}
  jitter : JitterEstimator := {}
  frames : FrameStats := {}
  bweBps : ℕ := 0
  playoutDelayMs : ℕ := 0
  relayed : Bool := false

namespace Telemetry

/-- What a report is built from. -/
def measured (t : Telemetry) : LinkTelemetry where
  rttSmoothedMs := t.rtt.smoothedMs
  jitterP95Ms := t.jitter.percentileMs 0.95
  loss := t.loss
  frames := t.frames
  playoutDelayMs := t.playoutDelayMs

/-- Builds the wire-format telemetry report. -/
def toQosReport (t : Telemetry) : QosReport := t.measured.toQosReport

/-- What the rate controller makes of the link at a time: the rung that the ladder allows, the
budget of the video, and whether the loss is heavy. -/
def view (t : Telemetry) (ladder : LadderController) (nowMs : ℕ) : LinkView × LadderController :=
  let loss := t.loss.fraction
  let rung := ladder.update (selectRung t.bweBps loss) nowMs
  (⟨rung.1, budgetBps t.bweBps loss, loss > 0.10⟩, rung.2)

end Telemetry

end Rda
