/-
**Encoders and what a recovery request makes them owe.**

An encoder is asked for recovery ahead of time: the request is accepted now, and the next picture it
is given is encoded to serve it.  Until then the encoder owes that frame.  What it is given may be
lost all the same, and a frame may be left in its queue by a call that failed.  The pipeline is
written against the interface, so what it can promise about recovery is relative to what its encoder
owes.

Main definitions:

* `Rda.EncoderConfig`, `Rda.RecoveryMode`, `Rda.EncodeError`;
* `Rda.VideoEncoder` — the interface of a backend over its state;
* `Rda.Serves`, `Rda.VideoEncoder.Honours` — frames that serve a request, and a backend that serves
  what it owes and nothing else;
* `Rda.RecordingEncoder` — the synthetic backend.

Main results:

* `Rda.RecordingEncoder.honours` — the synthetic backend serves what it owes, and a new one owes a
  keyframe.
-/

import Rda.Convert
import Rda.Video

set_option relaxedAutoImplicit false
set_option autoImplicit false

namespace Rda

/-! ### The interface -/

/-- Video codec. -/
inductive Codec
  | h264 | hevc | av1
  deriving DecidableEq, Repr

/-- How the receiver would like a decode failure repaired. -/
inductive RecoveryMode
  /-- Encode the next frame against a long-term reference. -/
  | ltr (index : UInt8)
  /-- Emit a full keyframe. -/
  | idr
  deriving DecidableEq, Repr

/-- Encoder configuration. -/
structure EncoderConfig where
  codec : Codec := .h264
  width : ℕ := 1920
  height : ℕ := 1080
  bitrateBps : ℕ := 4000000
  fps : ℕ := 30
  temporalLayers : ℕ := 2
  useLtr : Bool := true
  keyframeIntervalS : ℕ := 0
  deriving DecidableEq, Repr

namespace EncoderConfig

/-- Rounds dimensions down to even values. -/
def withEvenDimensions (config : EncoderConfig) : EncoderConfig :=
  { config with width := config.width / 2 * 2, height := config.height / 2 * 2 }

/-- Whether the configuration is usable. -/
def isValid (config : EncoderConfig) : Bool :=
  config.width ≥ 16 && config.height ≥ 16 && config.width % 2 == 0 && config.height % 2 == 0 &&
    config.fps > 0 && config.bitrateBps ≥ 50000 && 1 ≤ config.temporalLayers &&
    config.temporalLayers ≤ 3

/-- The defaults pass their own check. -/
example : (EncoderConfig.isValid {}) = true := by decide

end EncoderConfig

/-- Why encoding failed. -/
inductive EncodeError
  | unavailable (what : String)
  | badConfig (what : String)
  | geometryMismatch (gotWidth gotHeight wantWidth wantHeight : ℕ)
  | failed (what : String)
  | noHardware (codec : Codec)
  | unsupported
  deriving DecidableEq, Repr

/-- A backend over its state: each operation leaves a state behind, also when it fails. -/
structure VideoEncoder (E : Type) where
  encode : E → PlanarFrame → ℕ → Except EncodeError (List EncodedFrame) × E
  setBitrate : E → ℕ → Except EncodeError Unit × E
  setFps : E → ℕ → Except EncodeError Unit × E
  requestRecovery : E → RecoveryMode → Except EncodeError Unit × E
  config : E → EncoderConfig

/-! ### What is owed -/

/-- The frame repairs what the request is about. -/
def EncodedFrame.Repairs (frame : EncodedFrame) : RecoveryMode → Prop
  | .idr => frame.kind = .keyframe
  | .ltr index =>
      frame.kind = .keyframe ∨ frame.kind = .ltrRecovery ∧ frame.ltrIndex = some index

instance (frame : EncodedFrame) : DecidablePred frame.Repairs
  | .idr => inferInstanceAs (Decidable (_ = _))
  | .ltr _ => inferInstanceAs (Decidable (_ ∨ _))

/-- One of the frames repairs what the request is about. -/
def Serves (mode : RecoveryMode) (frames : List EncodedFrame) : Prop :=
  ∃ frame ∈ frames, frame.Repairs mode

theorem serves_append {mode : RecoveryMode} {frames more : List EncodedFrame} :
    Serves mode (frames ++ more) ↔ Serves mode frames ∨ Serves mode more := by
  simp only [Serves, List.mem_append, or_and_right, exists_or]

/-- A backend serves what it owes: an accepted request is owed; a request that is refused, and a
change of the settings, leave what is owed; and a call that succeeds emits the frames that were left
by calls that failed, and then new ones, which serve a request exactly when there are any and it was
owed.  What is owed after a call of `encode` is left open. -/
structure VideoEncoder.Honours {E : Type} (enc : VideoEncoder E) (owes : E → RecoveryMode → Prop)
    (left : E → List EncodedFrame) : Prop where
  requested : ∀ e mode, (enc.requestRecovery e mode).1 = .ok () →
    owes (enc.requestRecovery e mode).2 mode
  refused : ∀ e mode mode' err, owes e mode → (enc.requestRecovery e mode').1 = .error err →
    owes (enc.requestRecovery e mode').2 mode
  emitted : ∀ e planar ptsUs frames, (enc.encode e planar ptsUs).1 = .ok frames →
    ∃ new, frames = left e ++ new ∧ ∀ mode, Serves mode new ↔ new ≠ [] ∧ owes e mode
  setBitrate : ∀ e mode bitrateBps, owes e mode → owes (enc.setBitrate e bitrateBps).2 mode
  setFps : ∀ e mode fps, owes e mode → owes (enc.setFps e fps).2 mode

/-! ### The synthetic backend -/

/-- Relative cost of an IDR against a delta frame. -/
def IDR_COST_FACTOR : ℕ := 15

/-- Relative cost of an LTR recovery frame. -/
def LTR_COST_FACTOR : ℕ := 3

/-- Synthetic encoder. -/
structure RecordingEncoder where
  config : EncoderConfig
  sequence : ℕ
  bitrateBps : ℕ
  pendingRecovery : Option RecoveryMode
  ltrSupported : Bool
  failNext : Option EncodeError
  nextLtrSlot : ℕ

namespace RecordingEncoder

/-- Builds an encoder for the given configuration. -/
def new (config : EncoderConfig) : Except EncodeError RecordingEncoder :=
  if !config.isValid then
    .error (.badConfig (toString config.width ++ "x" ++ toString config.height ++ " @ " ++
      toString config.fps ++ " fps, " ++ toString config.bitrateBps ++ " bps"))
  else .ok ⟨config, 0, config.bitrateBps, none, true, none, 0⟩

/-- The temporal layer for a frame index, following the standard dyadic pattern. -/
def temporalLayer (e : RecordingEncoder) (index : ℕ) : ℕ :=
  match e.config.temporalLayers with
  | 1 => 0
  | 2 => index % 2
  | _ =>
      match index % 4 with
      | 0 => 0
      | 2 => 1
      | _ => 2

/-- Bytes a frame of this kind should occupy at the current bitrate. -/
def frameSize (e : RecordingEncoder) (kind : FrameKind) : ℕ :=
  let perFrame := e.bitrateBps / 8 / max e.config.fps 1
  max 16 (match kind with
    | .keyframe => perFrame * IDR_COST_FACTOR
    | .ltrRecovery => perFrame * LTR_COST_FACTOR
    | .delta => perFrame)

/-- The kind of the next frame, its reference slot, and the slot counter after it. -/
def nextKind (e : RecordingEncoder) : FrameKind × Option UInt8 × ℕ :=
  match e.pendingRecovery with
  | some (.ltr index) =>
      if e.ltrSupported then (.ltrRecovery, some index, e.nextLtrSlot)
      -- an encoder that cannot honour the request escalates to a keyframe
      else (.keyframe, none, e.nextLtrSlot)
  | some .idr => (.keyframe, none, e.nextLtrSlot)
  | none =>
      if e.sequence = 0 then (.keyframe, some 0, e.nextLtrSlot)
      else if e.temporalLayer e.sequence = 0 ∧ e.sequence % 60 = 0 then
        (.delta, some (UInt8.ofNat ((e.nextLtrSlot + 1) % 4)), (e.nextLtrSlot + 1) % 4)
      else (.delta, none, e.nextLtrSlot)

/-- The next frame. -/
def nextFrame (e : RecordingEncoder) (ptsUs : ℕ) : EncodedFrame where
  data := List.replicate (e.frameSize e.nextKind.1) 0xAB
  kind := e.nextKind.1
  ptsUs := UInt64.ofNat ptsUs
  sequence := UInt64.ofNat e.sequence
  temporalLayer :=
    if e.nextKind.1 = .keyframe then 0 else UInt8.ofNat (e.temporalLayer e.sequence)
  ltrIndex := e.nextKind.2.1
  qp := some 30

/-- Encodes one frame. -/
def encode (e : RecordingEncoder) (frame : PlanarFrame) (ptsUs : ℕ) :
    Except EncodeError (List EncodedFrame) × RecordingEncoder :=
  match e.failNext with
  | some err => (.error err, { e with failNext := none })
  | none =>
      if frame.width ≠ e.config.width ∨ frame.height ≠ e.config.height then
        (.error (.geometryMismatch frame.width frame.height e.config.width e.config.height), e)
      else
        (.ok [e.nextFrame ptsUs],
          { e with
            pendingRecovery := none
            nextLtrSlot := e.nextKind.2.2
            sequence := e.sequence + 1 })

/-- A picture of the right size is encoded. -/
theorem encode_of_size {e : RecordingEncoder} {planar : PlanarFrame} (hfail : e.failNext = none)
    (hwidth : planar.width = e.config.width) (hheight : planar.height = e.config.height)
    (ptsUs : ℕ) : (e.encode planar ptsUs).1 = .ok [e.nextFrame ptsUs] := by
  simp [encode, hfail, hwidth, hheight]

/-- The backend. -/
def encoder : VideoEncoder RecordingEncoder where
  encode := encode
  setBitrate e bitrateBps := (.ok (), { e with bitrateBps := bitrateBps })
  setFps e fps := (.ok (), { e with config := { e.config with fps := max fps 1 } })
  requestRecovery e mode := (.ok (), { e with pendingRecovery := some mode })
  config e := e.config

/-- What is owed is what the next frame repairs. -/
def Owes (e : RecordingEncoder) (mode : RecoveryMode) : Prop := (e.nextFrame 0).Repairs mode

instance (e : RecordingEncoder) (mode : RecoveryMode) : Decidable (e.Owes mode) :=
  inferInstanceAs (Decidable ((e.nextFrame 0).Repairs mode))

/-- It does not depend on the time. -/
theorem repairs_nextFrame_iff {e : RecordingEncoder} {mode : RecoveryMode} (ptsUs : ℕ) :
    (e.nextFrame ptsUs).Repairs mode ↔ e.Owes mode := by
  cases mode with
  | idr => exact Iff.rfl
  | ltr index => exact Iff.rfl

theorem owes_of_keyframe {e : RecordingEncoder} (h : e.nextKind.1 = .keyframe)
    (mode : RecoveryMode) : e.Owes mode := by
  cases mode with
  | idr => exact h
  | ltr index => exact .inl h

/-- A request that is pending is owed. -/
theorem owes_of_pending {e : RecordingEncoder} {mode : RecoveryMode}
    (h : e.pendingRecovery = some mode) : e.Owes mode := by
  cases mode with
  | idr => exact owes_of_keyframe (by simp [nextKind, h]) _
  | ltr index =>
      cases hsupported : e.ltrSupported with
      | true =>
          refine .inr ⟨?_, ?_⟩
          · simp [nextFrame, nextKind, h, hsupported]
          · simp [nextFrame, nextKind, h, hsupported]
      | false => exact owes_of_keyframe (by simp [nextKind, h, hsupported]) _

/-- The synthetic backend serves what it owes, and leaves nothing behind. -/
theorem honours : encoder.Honours Owes fun _ => [] where
  requested _ _ _ := owes_of_pending rfl
  refused _ _ _ _ _ h := by cases h
  emitted e planar ptsUs frames hencode := by
    simp only [encoder, encode] at hencode
    split at hencode
    · cases hencode
    · split at hencode
      · cases hencode
      · cases hencode
        refine ⟨[e.nextFrame ptsUs], rfl, fun mode => ?_⟩
        simp [Serves, repairs_nextFrame_iff]
  setBitrate _ mode _ howes := by
    cases mode with
    | idr => exact howes
    | ltr index => exact howes
  setFps _ mode _ howes := by
    cases mode with
    | idr => exact howes
    | ltr index => exact howes

/-- A new encoder owes a keyframe. -/
theorem owes_new {config : EncoderConfig} {e : RecordingEncoder} (h : new config = .ok e)
    (mode : RecoveryMode) : e.Owes mode := by
  unfold new at h
  split at h
  · cases h
  · cases h
    exact owes_of_keyframe rfl mode

end RecordingEncoder

end Rda
