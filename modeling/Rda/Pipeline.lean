/-
**The frame pipeline: damage, pacing, conversion, encoding.**

A captured frame goes through the pipeline or is dropped on the way: when nothing in it has changed,
when the last encode is too recent, or when converting or encoding it fails.  What is dropped is not
kept.  Bitrate and frame rate follow the telemetry at once; a change of resolution builds a new
encoder.

Main definitions:

* `Rda.Pipeline`, `Rda.Pipeline.step`, `Rda.Pipeline.onRecoveryRequest`,
  `Rda.Pipeline.applyTelemetry` — the pipeline and its operations;
* `Rda.Pipeline.Due`, `Rda.Pipeline.Encodes` — the pacing interval has passed, and a frame that is
  encoded with a given result;
* `Rda.Pipeline.Stepped`, `Rda.Pipeline.Applied` — what one step can do, and what applying telemetry
  can do.

Main results:

* `Rda.Pipeline.step_stepped`, `Rda.Pipeline.applyTelemetry_applied` — every call is one of these;
* `Rda.Pipeline.step_encoded_iff`, `Rda.Pipeline.step_dropped_iff` — when a frame is encoded, and
  when it is dropped before conversion.
-/

import Rda.Machine
import Rda.Rate

set_option relaxedAutoImplicit false
set_option autoImplicit false

namespace Rda

/-- Minimum change in scale before the encoder is rebuilt, in percentage points. -/
def SCALE_CHANGE_THRESHOLD_PCT : ℕ := 10

/-- What one pipeline step did. -/
inductive StepOutcome
  /-- Nothing changed on screen. -/
  | skipped
  | encoded (frames : List EncodedFrame)
  /-- Dropped to hold the target frame rate. -/
  | paced
  deriving DecidableEq

/-- The frames produced, if any. -/
def StepOutcome.frames : StepOutcome → List EncodedFrame
  | .encoded frames => frames
  | _ => []

/-- Cumulative pipeline counters. -/
structure PipelineStats where
  offered : ℕ := 0
  skippedStatic : ℕ := 0
  pacedOut : ℕ := 0
  encoded : ℕ := 0
  bytesOut : ℕ := 0
  rebuilds : ℕ := 0
  keyframes : ℕ := 0

/-- How an encoder is built for a resolution. -/
abbrev EncoderFactory (E : Type) : Type := EncoderConfig → Except EncodeError E

/-- One video stream. -/
structure Pipeline (E : Type) where
  encoder : E
  rate : RateController
  convert : ConvertConfig
  nativeWidth : ℕ
  nativeHeight : ℕ
  directive : EncoderDirective
  lastEncodeMs : Option ℕ
  stats : PipelineStats

namespace Pipeline

variable {E : Type}

/-- Builds a pipeline over an encoder factory. -/
def new (factory : EncoderFactory E) (nativeWidth nativeHeight : ℕ) (base : EncoderConfig) :
    Except EncodeError (Pipeline E) :=
  match factory base with
  | .error e => .error e
  | .ok encoder =>
      .ok ⟨encoder, .new, {}, nativeWidth, nativeHeight, RateController.new.current, none, {}⟩

/-- Records a receiver acknowledgement of a long-term reference. -/
def onLtrAcked (p : Pipeline E) (index : UInt8) : Pipeline E :=
  { p with rate := p.rate.onLtrAcked index }

variable (enc : VideoEncoder E)

/-- Passes a request on to the encoder. -/
def request (p : Pipeline E) (mode : RecoveryMode) (decision : KeyframeDecision) :
    Except EncodeError KeyframeDecision × Pipeline E :=
  match enc.requestRecovery p.encoder mode with
  | (.error e, encoder) => (.error e, { p with encoder := encoder })
  | (.ok (), encoder) => (.ok decision, { p with encoder := encoder })

/-- Handles a receiver's recovery request. -/
def onRecoveryRequest (p : Pipeline E) (receiverLtr : Option UInt8) (nowMs : ℕ) :
    Except EncodeError KeyframeDecision × Pipeline E :=
  match p.rate.onRecoveryRequest receiverLtr nowMs with
  | (.recover mode, rate) => request enc { p with rate := rate } mode (.recover mode)
  | (.idr, rate) => request enc { p with rate := rate } .idr .idr
  | (.suppressed, rate) => (.ok .suppressed, { p with rate := rate })

/-- Builds a new encoder for the scale of a directive, unless the dimensions are the same. -/
def rebuildForScale (factory : EncoderFactory E) (p : Pipeline E) (directive : EncoderDirective) :
    Except EncodeError Unit × Pipeline E :=
  let dimensions := directive.scaledDimensions p.nativeWidth p.nativeHeight
  let current := enc.config p.encoder
  if dimensions = (current.width, current.height) then (.ok (), p)
  else
    match factory { current with
        width := dimensions.1
        height := dimensions.2
        bitrateBps := directive.bitrateBps
        fps := directive.fps
        temporalLayers := directive.temporalLayers }.withEvenDimensions with
    | .error e => (.error e, p)
    | .ok encoder =>
        (.ok (), { p with
          encoder := encoder
          stats := { p.stats with rebuilds := p.stats.rebuilds + 1 } })

/-- A setting is passed on to the encoder if it has changed. -/
def setting (set : E → ℕ → Except EncodeError Unit × E) (p : Pipeline E) (next previous : ℕ) :
    Except EncodeError Unit × Pipeline E :=
  if next ≠ previous then
    match set p.encoder next with
    | (result, encoder) => (result, { p with encoder := encoder })
  else (.ok (), p)

/-- Folds telemetry into the encoder settings.  A resolution change waits for the threshold. -/
def applyTelemetry (factory : EncoderFactory E) (p : Pipeline E) (view : LinkView) (nowMs : ℕ) :
    Except EncodeError Unit × Pipeline E :=
  let previous := p.directive
  let updated := p.rate.update view nowMs
  let p := { p with rate := updated.2, directive := updated.1 }
  match setting enc.setBitrate p updated.1.bitrateBps previous.bitrateBps with
  | (.error e, p) => (.error e, p)
  | (.ok (), p) =>
      match setting enc.setFps p updated.1.fps previous.fps with
      | (.error e, p) => (.error e, p)
      | (.ok (), p) =>
          -- the difference, whichever of the two is larger
          if (updated.1.scalePct - previous.scalePct) + (previous.scalePct - updated.1.scalePct)
              ≥ SCALE_CHANGE_THRESHOLD_PCT then
            rebuildForScale enc factory p updated.1
          else (.ok (), p)

/-- The least time between two encodes. -/
def minInterval (p : Pipeline E) : ℕ := 1000 / max p.directive.fps 1

/-- The pacing interval has passed. -/
def Due (p : Pipeline E) (nowMs : ℕ) : Prop :=
  ∀ last, p.lastEncodeMs = some last → p.minInterval ≤ nowMs - last

instance (p : Pipeline E) (nowMs : ℕ) : Decidable (p.Due nowMs) :=
  match h : p.lastEncodeMs with
  | none => isTrue (by simp [Due, h])
  | some last => decidable_of_iff (p.minInterval ≤ nowMs - last) (by simp [Due, h])

/-- The frame as the encoder takes it. -/
def planar (p : Pipeline E) (frame : Frame) : Except ConvertError PlanarFrame :=
  convertSurfaceScaled frame.surface frame.width frame.height (enc.config p.encoder).width
    (enc.config p.encoder).height .nv12 p.convert

/-- The pipeline once a frame has been encoded. -/
def encodedAt (p : Pipeline E) (encoder : E) (frames : List EncodedFrame) (nowMs : ℕ) :
    Pipeline E :=
  { p with
    encoder := encoder
    lastEncodeMs := some nowMs
    stats :=
      { p.stats with
        encoded := p.stats.encoded + 1
        bytesOut := p.stats.bytesOut + (frames.map fun f => f.data.length).sum
        keyframes := p.stats.keyframes + frames.countP fun f => f.kind == .keyframe } }

/-- The pipeline with one more frame offered. -/
def offer (p : Pipeline E) : Pipeline E :=
  { p with stats := { p.stats with offered := p.stats.offered + 1 } }

/-- Runs one captured frame through the pipeline. -/
def step (p : Pipeline E) (frame : Frame) (nowMs : ℕ) :
    Except EncodeError StepOutcome × Pipeline E :=
  let p := p.offer
  if !frame.isWorthEncoding then
    (.ok .skipped, { p with stats := { p.stats with skippedStatic := p.stats.skippedStatic + 1 } })
  else if ¬ p.Due nowMs then
    (.ok .paced, { p with stats := { p.stats with pacedOut := p.stats.pacedOut + 1 } })
  else
    match p.planar enc frame with
    | .error e => (.error (.failed ("colour conversion failed: " ++ e.text)), p)
    | .ok planar =>
        match enc.encode p.encoder planar (nowMs * 1000) with
        | (.error e, encoder) => (.error e, { p with encoder := encoder })
        | (.ok frames, encoder) => (.ok (.encoded frames), p.encodedAt encoder frames nowMs)

/-! ### When a frame is encoded -/

/-- The frame is worth encoding, the pacing interval has passed, the surface converts and the
encoder takes the picture, and this is what comes out. -/
structure Encodes (p : Pipeline E) (frame : Frame) (nowMs : ℕ) (frames : List EncodedFrame) :
    Prop where
  worth : frame.isWorthEncoding = true
  due : p.Due nowMs
  taken : ∃ planar, p.planar enc frame = .ok planar ∧
    (enc.encode p.encoder planar (nowMs * 1000)).1 = .ok frames

/-- What one step can do: encode the frame, or drop it and leave everything but the encoder and the
counters as it was. -/
inductive Stepped (p : Pipeline E) (frame : Frame) (nowMs : ℕ) :
    Except EncodeError StepOutcome × Pipeline E → Prop
  | encoded (frames : List EncodedFrame) (planar : PlanarFrame)
      (worth : frame.isWorthEncoding = true) (due : p.Due nowMs)
      (converts : p.planar enc frame = .ok planar)
      (taken : (enc.encode p.encoder planar (nowMs * 1000)).1 = .ok frames) :
      Stepped p frame nowMs (.ok (.encoded frames),
        p.offer.encodedAt (enc.encode p.encoder planar (nowMs * 1000)).2 frames nowMs)
  | refused (planar : PlanarFrame) (e : EncodeError)
      (converts : p.planar enc frame = .ok planar)
      (failed : (enc.encode p.encoder planar (nowMs * 1000)).1 = .error e) :
      Stepped p frame nowMs (.error e,
        { p.offer with encoder := (enc.encode p.encoder planar (nowMs * 1000)).2 })
  | unconvertible (e : ConvertError) (fails : p.planar enc frame = .error e) :
      Stepped p frame nowMs
        (.error (.failed ("colour conversion failed: " ++ e.text)), p.offer)
  | skipped (stats : PipelineStats) (unchanged : frame.isWorthEncoding = false) :
      Stepped p frame nowMs (.ok .skipped, { p with stats := stats })
  | paced (stats : PipelineStats) (worth : frame.isWorthEncoding = true) (early : ¬ p.Due nowMs) :
      Stepped p frame nowMs (.ok .paced, { p with stats := stats })

theorem step_stepped (p : Pipeline E) (frame : Frame) (nowMs : ℕ) :
    Stepped enc p frame nowMs (p.step enc frame nowMs) := by
  have hdue : p.offer.Due nowMs ↔ p.Due nowMs := Iff.rfl
  have hplanar : p.offer.planar enc frame = p.planar enc frame := rfl
  have henc : p.offer.encoder = p.encoder := rfl
  unfold step
  cases hworth : frame.isWorthEncoding with
  | false => exact .skipped _ hworth
  | true =>
      by_cases hd : p.Due nowMs
      · simp only [Bool.not_true, Bool.false_eq_true, if_false, hdue, hd, not_true_eq_false,
          hplanar, henc]
        cases hp : p.planar enc frame with
        | error e => exact .unconvertible e hp
        | ok planar =>
            rcases he : enc.encode p.encoder planar (nowMs * 1000) with ⟨e | frames, encoder⟩
            · have hrefused : Stepped enc p frame nowMs _ := .refused planar e hp (by rw [he])
              simpa only [he] using hrefused
            · have hencoded : Stepped enc p frame nowMs _ :=
                .encoded frames planar hworth hd hp (by rw [he])
              simpa only [he] using hencoded
      · simp only [Bool.not_true, Bool.false_eq_true, if_false, hdue, hd, not_false_eq_true,
          if_true]
        exact .paced _ hworth hd

/-! ### What applying telemetry can do -/

/-- The pipeline with the rate controller and the directive up to date, and the encoder not yet. -/
def updated (p : Pipeline E) (view : LinkView) (nowMs : ℕ) : Pipeline E :=
  { p with rate := (p.rate.update view nowMs).2, directive := (p.rate.update view nowMs).1 }

/-- The scale of a directive is as far from the last one as the threshold asks for. -/
def ScaleMoves (next previous : EncoderDirective) : Prop :=
  SCALE_CHANGE_THRESHOLD_PCT ≤
    (next.scalePct - previous.scalePct) + (previous.scalePct - next.scalePct)

instance (next previous : EncoderDirective) : Decidable (ScaleMoves next previous) :=
  inferInstanceAs (Decidable (_ ≤ _))

/-- The configuration that a directive asks for when the encoder is rebuilt. -/
def rebuildConfig (p : Pipeline E) (encoder : E) : EncoderConfig :=
  { enc.config encoder with
    width := (p.directive.scaledDimensions p.nativeWidth p.nativeHeight).1
    height := (p.directive.scaledDimensions p.nativeWidth p.nativeHeight).2
    bitrateBps := p.directive.bitrateBps
    fps := p.directive.fps
    temporalLayers := p.directive.temporalLayers }.withEvenDimensions

/-- The encoder has the dimensions that the directive asks for. -/
def Fits (p : Pipeline E) (encoder : E) : Prop :=
  p.directive.scaledDimensions p.nativeWidth p.nativeHeight =
    ((enc.config encoder).width, (enc.config encoder).height)

instance (p : Pipeline E) (encoder : E) : Decidable (p.Fits enc encoder) :=
  inferInstanceAs (Decidable (_ = _))

/-- A setting has been passed on and accepted, or has not changed. -/
def Takes (set : E → ℕ → Except EncodeError Unit × E) (next previous : ℕ) (e e' : E) : Prop :=
  (next = previous ∧ e' = e) ∨ (next ≠ previous ∧ set e next = (.ok (), e'))

/-- The encoder has taken the bitrate and the frame rate of the directive. -/
def Retunes (p : Pipeline E) (next : EncoderDirective) (e' : E) : Prop :=
  ∃ e, Takes enc.setBitrate next.bitrateBps p.directive.bitrateBps p.encoder e ∧
    Takes enc.setFps next.fps p.directive.fps e e'

/-- The encoder takes the settings that have changed, and the factory builds a new one if the scale
asks for it. -/
def Accepted (factory : EncoderFactory E) (p : Pipeline E) (view : LinkView) (nowMs : ℕ) : Prop :=
  ∃ tuned, p.Retunes enc (p.updated view nowMs).directive tuned ∧
    (ScaleMoves (p.updated view nowMs).directive p.directive →
      (p.updated view nowMs).Fits enc tuned ∨
        ∃ encoder, factory ((p.updated view nowMs).rebuildConfig enc tuned) = .ok encoder)

/-- What applying telemetry can do.  The directive is the new one in each case. -/
inductive Applied (factory : EncoderFactory E) (p : Pipeline E) (view : LinkView) (nowMs : ℕ) :
    Except EncodeError Unit × Pipeline E → Prop
  /-- The encoder or the factory fails, and the rest is not done. -/
  | failed (e : EncodeError) (encoder : E) (rejected : ¬ p.Accepted enc factory view nowMs) :
      Applied factory p view nowMs (.error e, { p.updated view nowMs with encoder := encoder })
  | retuned (encoder : E) (retunes : p.Retunes enc (p.updated view nowMs).directive encoder)
      (stays : ScaleMoves (p.updated view nowMs).directive p.directive →
        (p.updated view nowMs).Fits enc encoder) :
      Applied factory p view nowMs (.ok (), { p.updated view nowMs with encoder := encoder })
  | rebuilt (tuned encoder : E) (retunes : p.Retunes enc (p.updated view nowMs).directive tuned)
      (moves : ScaleMoves (p.updated view nowMs).directive p.directive)
      (misfits : ¬ (p.updated view nowMs).Fits enc tuned)
      (built : factory ((p.updated view nowMs).rebuildConfig enc tuned) = .ok encoder) :
      Applied factory p view nowMs (.ok (), { p.updated view nowMs with
        encoder := encoder
        stats := { p.stats with rebuilds := p.stats.rebuilds + 1 } })

theorem Takes.unique {set : E → ℕ → Except EncodeError Unit × E} {next previous : ℕ}
    {e e₁ e₂ : E} (h₁ : Takes set next previous e e₁) (h₂ : Takes set next previous e e₂) :
    e₁ = e₂ := by
  rcases h₁ with ⟨heq, rfl⟩ | ⟨hne, hset₁⟩
  · rcases h₂ with ⟨-, rfl⟩ | ⟨hne, -⟩
    · rfl
    · exact absurd heq hne
  · rcases h₂ with ⟨heq, -⟩ | ⟨-, hset₂⟩
    · exact absurd heq hne
    · exact congrArg Prod.snd (hset₁.symm.trans hset₂)

/-- Passing a setting on touches the encoder only. -/
theorem setting_cases (set : E → ℕ → Except EncodeError Unit × E) (p : Pipeline E)
    (next previous : ℕ) :
    ((∀ encoder, ¬ Takes set next previous p.encoder encoder) ∧ ∃ e encoder,
        p.setting set next previous = (.error e, { p with encoder := encoder })) ∨
      ∃ encoder, Takes set next previous p.encoder encoder ∧
        p.setting set next previous = (.ok (), { p with encoder := encoder }) := by
  unfold setting
  split_ifs with hne
  · rcases hset : set p.encoder next with ⟨e | u, encoder⟩
    · refine .inl ⟨?_, e, encoder, rfl⟩
      rintro encoder' (⟨heq, -⟩ | ⟨-, hset'⟩)
      · exact hne heq
      · rw [hset] at hset'
        cases hset'
    · exact .inr ⟨encoder, .inr ⟨hne, hset⟩, rfl⟩
  · exact .inr ⟨p.encoder, .inl ⟨not_not.1 hne, rfl⟩, rfl⟩

/-- Building for the scale of the directive keeps the encoder that fits, and replaces it
otherwise. -/
theorem rebuildForScale_cases (factory : EncoderFactory E) (p : Pipeline E) :
    (p.Fits enc p.encoder ∧ p.rebuildForScale enc factory p.directive = (.ok (), p)) ∨
      ¬ p.Fits enc p.encoder ∧
        (((∀ encoder, factory (p.rebuildConfig enc p.encoder) ≠ .ok encoder) ∧
            ∃ e, p.rebuildForScale enc factory p.directive = (.error e, p)) ∨
          ∃ encoder, factory (p.rebuildConfig enc p.encoder) = .ok encoder ∧
            p.rebuildForScale enc factory p.directive = (.ok (), { p with
              encoder := encoder
              stats := { p.stats with rebuilds := p.stats.rebuilds + 1 } })) := by
  by_cases hfits : p.Fits enc p.encoder
  · exact .inl ⟨hfits, if_pos hfits⟩
  · refine .inr ⟨hfits, ?_⟩
    have hrebuild : p.rebuildForScale enc factory p.directive =
        match factory (p.rebuildConfig enc p.encoder) with
        | .error e => (.error e, p)
        | .ok encoder => (.ok (), { p with
            encoder := encoder
            stats := { p.stats with rebuilds := p.stats.rebuilds + 1 } }) := if_neg hfits
    cases hbuilt : factory (p.rebuildConfig enc p.encoder) with
    | error e => exact .inl ⟨by simp, e, by rw [hrebuild, hbuilt]⟩
    | ok encoder => exact .inr ⟨encoder, rfl, by rw [hrebuild, hbuilt]⟩

theorem applyTelemetry_applied (factory : EncoderFactory E) (p : Pipeline E) (view : LinkView)
    (nowMs : ℕ) :
    Applied enc factory p view nowMs (p.applyTelemetry enc factory view nowMs) := by
  have hupdated : p.applyTelemetry enc factory view nowMs =
      match setting enc.setBitrate (p.updated view nowMs)
        (p.updated view nowMs).directive.bitrateBps p.directive.bitrateBps with
      | (.error e, p) => (.error e, p)
      | (.ok (), p₁) =>
          match setting enc.setFps p₁ (p.updated view nowMs).directive.fps p.directive.fps with
          | (.error e, p) => (.error e, p)
          | (.ok (), p₂) =>
              if ScaleMoves (p.updated view nowMs).directive p.directive then
                rebuildForScale enc factory p₂ (p.updated view nowMs).directive
              else (.ok (), p₂) := rfl
  rw [hupdated]
  rcases setting_cases enc.setBitrate (p.updated view nowMs)
    (p.updated view nowMs).directive.bitrateBps p.directive.bitrateBps with
    ⟨hrefuses, e, encoder, hset⟩ | ⟨e₁, htakes₁, hset⟩
  · simp only [hset]
    exact .failed e encoder fun ⟨_, ⟨e₁, htakes, _⟩, _⟩ => hrefuses e₁ htakes
  · simp only [hset]
    rcases setting_cases enc.setFps { p.updated view nowMs with encoder := e₁ }
      (p.updated view nowMs).directive.fps p.directive.fps with
      ⟨hrefuses, e, encoder, hset'⟩ | ⟨e₂, htakes₂, hset'⟩
    · simp only [hset']
      refine .failed e encoder ?_
      rintro ⟨e₂, ⟨e₁', htakes₁', htakes₂⟩, -⟩
      exact hrefuses e₂ (htakes₁.unique htakes₁' ▸ htakes₂)
    · simp only [hset']
      have hretunes : p.Retunes enc (p.updated view nowMs).directive e₂ :=
        ⟨e₁, htakes₁, htakes₂⟩
      split_ifs with hmoves
      · rcases rebuildForScale_cases enc factory { p.updated view nowMs with encoder := e₂ } with
          ⟨hfits, hrebuild⟩ | ⟨hmisfits, ⟨hrefuses, e, hrebuild⟩ | ⟨encoder, hbuilt, hrebuild⟩⟩
        · exact hrebuild ▸ .retuned e₂ hretunes (fun _ => hfits)
        · refine hrebuild ▸ .failed e e₂ ?_
          rintro ⟨tuned, ⟨e₁', htakes₁', htakes₂'⟩, hscale⟩
          -- The encoder that has taken the settings is this one.
          obtain rfl : e₁ = e₁' := htakes₁.unique htakes₁'
          obtain rfl : e₂ = tuned := htakes₂.unique htakes₂'
          rcases hscale hmoves with hfits | ⟨encoder, hbuilt⟩
          · exact hmisfits hfits
          · exact hrefuses encoder hbuilt
        · exact hrebuild ▸ .rebuilt e₂ encoder hretunes hmoves hmisfits hbuilt
      · exact .retuned e₂ hretunes (fun h => absurd h hmoves)

variable {enc}

/-- The call returns `Ok` exactly when everything that it asks for is accepted. -/
theorem applyTelemetry_eq_ok_iff {factory : EncoderFactory E} {p : Pipeline E} {view : LinkView}
    {nowMs : ℕ} :
    (p.applyTelemetry enc factory view nowMs).1 = .ok () ↔ p.Accepted enc factory view nowMs := by
  have happlied := applyTelemetry_applied enc factory p view nowMs
  generalize p.applyTelemetry enc factory view nowMs = r at happlied
  cases happlied with
  | failed e encoder rejected => simp [rejected]
  | retuned encoder retunes stays =>
      exact iff_of_true rfl ⟨encoder, retunes, fun hmoves => .inl (stays hmoves)⟩
  | rebuilt tuned encoder retunes moves misfits built =>
      exact iff_of_true rfl ⟨tuned, retunes, fun _ => .inr ⟨encoder, built⟩⟩

/-- Whatever fails, the rate controller and the directive are up to date afterwards. -/
theorem rate_applyTelemetry (factory : EncoderFactory E) (p : Pipeline E) (view : LinkView)
    (nowMs : ℕ) :
    (p.applyTelemetry enc factory view nowMs).2.rate = (p.updated view nowMs).rate ∧
      (p.applyTelemetry enc factory view nowMs).2.directive = (p.updated view nowMs).directive := by
  have happlied := applyTelemetry_applied enc factory p view nowMs
  generalize p.applyTelemetry enc factory view nowMs = r at happlied
  cases happlied with
  | failed e encoder rejected => exact ⟨rfl, rfl⟩
  | retuned encoder retunes stays => exact ⟨rfl, rfl⟩
  | rebuilt tuned encoder retunes moves misfits built => exact ⟨rfl, rfl⟩

/-! ### When a step encodes and when it drops -/

/-- A frame is encoded, with these frames as the result, exactly when the pipeline encodes it. -/
theorem step_encoded_iff {p : Pipeline E} {frame : Frame} {nowMs : ℕ}
    {frames : List EncodedFrame} :
    (p.step enc frame nowMs).1 = .ok (.encoded frames) ↔ p.Encodes enc frame nowMs frames := by
  constructor
  · intro h
    have hstep := step_stepped enc p frame nowMs
    generalize hr : p.step enc frame nowMs = r at h hstep
    cases hstep with
    | encoded frames' planar worth due converts taken =>
        cases h
        exact ⟨worth, due, planar, converts, taken⟩
    | refused => cases h
    | unconvertible => cases h
    | skipped => cases h
    | paced => cases h
  · rintro ⟨worth, due, planar, converts, taken⟩
    have hstep := step_stepped enc p frame nowMs
    generalize hr : p.step enc frame nowMs = r at hstep
    cases hstep with
    | encoded frames' planar' _ _ converts' taken' =>
        cases converts.symm.trans converts'
        cases taken.symm.trans taken'
        rfl
    | refused planar' e converts' failed =>
        cases converts.symm.trans converts'
        cases taken.symm.trans failed
    | unconvertible e fails => cases converts.symm.trans fails
    | skipped stats unchanged => simp [worth] at unchanged
    | paced stats _ early => exact absurd due early

/-- A frame is dropped before conversion exactly when it is not worth encoding or comes too
early. -/
theorem step_dropped_iff {p : Pipeline E} {frame : Frame} {nowMs : ℕ} :
    ((p.step enc frame nowMs).1 = .ok .skipped ∨ (p.step enc frame nowMs).1 = .ok .paced) ↔
      frame.isWorthEncoding = false ∨ ¬ p.Due nowMs := by
  constructor
  · intro h
    have hstep := step_stepped enc p frame nowMs
    generalize hr : p.step enc frame nowMs = r at h hstep
    cases hstep with
    | encoded => rcases h with h | h <;> cases h
    | refused => rcases h with h | h <;> cases h
    | unconvertible => rcases h with h | h <;> cases h
    | skipped stats unchanged => exact .inl unchanged
    | paced stats worth early => exact .inr early
  · intro h
    unfold step
    cases hworth : frame.isWorthEncoding with
    | false => exact .inl rfl
    | true =>
        have hearly : ¬ p.offer.Due nowMs := h.resolve_left (by simp [hworth])
        simp only [Bool.not_true, Bool.false_eq_true, if_false, hearly, not_false_eq_true, if_true]
        exact .inr trivial

end Pipeline

end Rda
