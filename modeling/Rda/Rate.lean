/-
**The rate controller.**

Telemetry gives a rung of the degradation ladder and a bit budget; the controller turns them into
settings for the encoder.  It also decides how a recovery request is answered: by a reference the
receiver is known to hold, by a keyframe, or, within a second of the last keyframe, not at all.

The rung and the budget are floating-point work and are taken as they come out.

Main definitions:

* `Rda.LadderRung`, `Rda.LADDER`, `Rda.EncoderDirective`, `Rda.directiveFor`;
* `Rda.RateController`, `Rda.RateController.update`, `Rda.RateController.onRecoveryRequest`.

Main results:

* `Rda.RateController.onRecoveryRequest_cases` — the answers to a recovery request;
* `Rda.RateController.update_bitrate_le` — the bitrate stays within its bounds.
-/

import Rda.Encoder

set_option relaxedAutoImplicit false
set_option autoImplicit false

namespace Rda

/-- Floor below which video is not worth sending at all. -/
def MIN_BITRATE_BPS : ℕ := 120000

/-- Ceiling, to stop a wildly optimistic estimate from saturating a link. -/
def MAX_BITRATE_BPS : ℕ := 25000000

/-- Minimum interval between honoured IDR requests. -/
def IDR_MIN_INTERVAL_MS : ℕ := 1000

/-- How long the bitrate stays halved after an IDR. -/
def IDR_BUDGET_MS : ℕ := 200

/-! ### The ladder -/

/-- One rung of the degradation ladder. -/
structure LadderRung where
  rung : ℕ
  fps : ℕ
  scalePct : ℕ
  temporalLayers : ℕ
  stillsOnly : Bool
  deriving DecidableEq, Repr

/-- The full ladder, rung 0 first. -/
def LADDER : List LadderRung :=
  [⟨0, 60, 100, 3, false⟩, ⟨1, 60, 100, 3, false⟩, ⟨2, 30, 100, 2, false⟩, ⟨3, 30, 75, 2, false⟩,
    ⟨4, 20, 60, 2, false⟩, ⟨5, 12, 50, 1, false⟩, ⟨6, 5, 40, 1, false⟩, ⟨7, 1, 40, 1, true⟩]

/-- What the encoder should be doing right now. -/
structure EncoderDirective where
  bitrateBps : ℕ
  fps : ℕ
  scalePct : ℕ
  temporalLayers : ℕ
  qpMin : ℕ
  qpMax : ℕ
  stillsOnly : Bool
  rung : ℕ
  deriving DecidableEq, Repr

/-- Encoded dimensions for a native size, rounded to even values. -/
def EncoderDirective.scaledDimensions (d : EncoderDirective) (nativeWidth nativeHeight : ℕ) :
    ℕ × ℕ :=
  (max (nativeWidth * d.scalePct / 100 / 2 * 2) 16,
    max (nativeHeight * d.scalePct / 100 / 2 * 2) 16)

/-- Maps a ladder rung and a bitrate budget onto encoder settings.  Under heavy loss the encoder is
allowed further up the QP range. -/
def directiveFor (rung : LadderRung) (bitrateBps : ℕ) (heavyLoss : Bool) : EncoderDirective :=
  let qp : ℕ × ℕ := match rung.rung with
    | 0 => (18, 40)
    | 1 => (24, 44)
    | 2 => (26, 46)
    | 3 => (28, 48)
    | 4 => (30, 49)
    | _ => (32, 51)
  { bitrateBps := bitrateBps
    fps := rung.fps
    scalePct := rung.scalePct
    temporalLayers := rung.temporalLayers
    qpMin := qp.1
    qpMax := if heavyLoss then 51 else qp.2
    stillsOnly := rung.stillsOnly
    rung := rung.rung }

/-! ### The controller -/

/-- Whether a keyframe request should be honoured, and how. -/
inductive KeyframeDecision
  | recover (mode : RecoveryMode)
  | idr
  /-- A request within the rate-limit window, coalesced with the last one. -/
  | suppressed
  deriving DecidableEq, Repr

/-- What the telemetry comes to: the rung the ladder is on, video's share of the estimate after
error correction, and whether the loss is heavy. -/
structure LinkView where
  rung : LadderRung
  budgetBps : ℕ
  heavyLoss : Bool

/-- Turns link telemetry into encoder settings. -/
structure RateController where
  lastIdrMs : Option ℕ
  idrBudgetUntilMs : ℕ
  current : EncoderDirective
  ackedLtr : Option UInt8
  idrCount : ℕ
  ltrRecoveryCount : ℕ
  suppressedCount : ℕ

namespace RateController

/-- A controller starting at full quality. -/
def new : RateController where
  lastIdrMs := none
  idrBudgetUntilMs := 0
  current := directiveFor (LADDER.head (by decide)) 4000000 false
  ackedLtr := none
  idrCount := 0
  ltrRecoveryCount := 0
  suppressedCount := 0

/-- Records that the receiver acknowledged decoding a long-term reference. -/
def onLtrAcked (rate : RateController) (index : UInt8) : RateController :=
  { rate with ackedLtr := some index }

/-- Folds in the latest telemetry and gives the settings to apply. -/
def update (rate : RateController) (view : LinkView) (nowMs : ℕ) :
    EncoderDirective × RateController :=
  let budget := if nowMs < rate.idrBudgetUntilMs then view.budgetBps / 2 else view.budgetBps
  let next := directiveFor view.rung (max MIN_BITRATE_BPS (min budget MAX_BITRATE_BPS))
    view.heavyLoss
  (next, { rate with current := next })

/-- Whether the last keyframe is too recent for another one. -/
def limited (rate : RateController) (nowMs : ℕ) : Bool :=
  match rate.lastIdrMs with
  | some last => nowMs - last < IDR_MIN_INTERVAL_MS
  | none => false

/-- Decides how to answer a receiver's recovery request. -/
def onRecoveryRequest (rate : RateController) (receiverLtr : Option UInt8) (nowMs : ℕ) :
    KeyframeDecision × RateController :=
  match receiverLtr, rate.ackedLtr with
  | some index, some acked =>
      if index = acked then
        (.recover (.ltr index), { rate with ltrRecoveryCount := rate.ltrRecoveryCount + 1 })
      else orIdr rate nowMs
  | _, _ => orIdr rate nowMs
where
  /-- No usable reference: a keyframe, but not more than one a second. -/
  orIdr (rate : RateController) (nowMs : ℕ) : KeyframeDecision × RateController :=
    if rate.limited nowMs then
      (.suppressed, { rate with suppressedCount := rate.suppressedCount + 1 })
    else
      (.idr, { rate with
        lastIdrMs := some nowMs
        idrBudgetUntilMs := nowMs + IDR_BUDGET_MS
        idrCount := rate.idrCount + 1 })

/-- The answers to a recovery request. -/
theorem onRecoveryRequest_cases (rate : RateController) (receiverLtr : Option UInt8) (nowMs : ℕ) :
    (∃ index, receiverLtr = some index ∧ rate.ackedLtr = some index ∧
      rate.onRecoveryRequest receiverLtr nowMs =
        (.recover (.ltr index), { rate with ltrRecoveryCount := rate.ltrRecoveryCount + 1 })) ∨
    (rate.limited nowMs = true ∧ rate.onRecoveryRequest receiverLtr nowMs =
      (.suppressed, { rate with suppressedCount := rate.suppressedCount + 1 })) ∨
    (rate.limited nowMs = false ∧ rate.onRecoveryRequest receiverLtr nowMs =
      (.idr, { rate with
        lastIdrMs := some nowMs
        idrBudgetUntilMs := nowMs + IDR_BUDGET_MS
        idrCount := rate.idrCount + 1 })) := by
  have hor : (rate.limited nowMs = true ∧ onRecoveryRequest.orIdr rate nowMs =
        (.suppressed, { rate with suppressedCount := rate.suppressedCount + 1 })) ∨
      (rate.limited nowMs = false ∧ onRecoveryRequest.orIdr rate nowMs =
        (.idr, { rate with
          lastIdrMs := some nowMs
          idrBudgetUntilMs := nowMs + IDR_BUDGET_MS
          idrCount := rate.idrCount + 1 })) := by
    unfold onRecoveryRequest.orIdr
    cases hlimited : rate.limited nowMs with
    | true => exact .inl ⟨rfl, rfl⟩
    | false => exact .inr ⟨rfl, rfl⟩
  unfold onRecoveryRequest
  split
  · rename_i index acked hacked
    split_ifs with heq
    · exact .inl ⟨index, rfl, heq ▸ hacked, rfl⟩
    · exact .inr hor
  · exact .inr hor

/-- The bitrate stays within its bounds. -/
theorem update_bitrate_le (rate : RateController) (view : LinkView) (nowMs : ℕ) :
    MIN_BITRATE_BPS ≤ (rate.update view nowMs).1.bitrateBps ∧
      (rate.update view nowMs).1.bitrateBps ≤ MAX_BITRATE_BPS := by
  have hbounds : MIN_BITRATE_BPS ≤ MAX_BITRATE_BPS := by decide
  simp only [update, directiveFor]
  omega

end RateController

end Rda
