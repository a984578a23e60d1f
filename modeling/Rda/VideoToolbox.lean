/-
**The hardware encoder.**

The encoder of a Mac hands each picture to a compression session of the system and collects what the
session's callback delivers.  A request for recovery sets a flag, which the next picture that is
handed over takes along; whether a frame comes out for that picture is the session's affair.  So the
request is forgotten when the session drops the picture, or when it reports an error after it has
taken it, and frames that were delivered before such an error stay in the queue and come out with
those of a later picture.

What the session answers is a parameter.

Main definitions:

* `Rda.SessionAnswer` — what the session does with one call;
* `Rda.VideoToolboxEncoder`, with `encode`, `outputCallback` and `requestRecovery`;
* `Rda.VideoToolboxEncoder.Owes` — the flags that make the next frame serve a request.

Main results:

* `Rda.VideoToolboxEncoder.serves_pushed_iff` — what the callback's flags say of the frames;
* `Rda.VideoToolboxEncoder.honours` — the backend serves what it owes, and a new one owes a
  keyframe;
* `Rda.VideoToolboxEncoder.not_owes_encode` — **what is handed over is owed no more**, also when no
  frame comes out for it.
-/

import Rda.AnnexB
import Rda.Encoder

set_option relaxedAutoImplicit false
set_option autoImplicit false

namespace Rda

/-- A sample the session delivers, and the parameter sets of its format, if they can be read.  Only
samples with a bitstream count; the callback ignores the others, and the pictures that the session
reports as dropped. -/
structure SampleBuffer where
  avcc : List UInt8
  parameterSets : Option (List UInt8)

/-- What the session does with one call: whether there is a pixel buffer for the picture, the status
of handing it over, the samples that are delivered before the session reports completion, and the
status of that; or the status of setting a property. -/
structure SessionAnswer where
  buffer : Except EncodeError Unit
  submitted : ℤ
  samples : List SampleBuffer
  completed : ℤ
  property : ℤ

/-- VideoToolbox hardware encoder. -/
structure VideoToolboxEncoder where
  session : ℕ → SessionAnswer
  calls : ℕ
  config : EncoderConfig
  queue : List EncodedFrame
  sequence : ℕ
  pendingRecovery : Option UInt8
  /-- Set before an encode that forced a keyframe. -/
  expectKeyframe : Bool
  ptsUs : ℕ
  forceKeyframe : Bool
  pendingLtr : Option UInt8

namespace VideoToolboxEncoder

/-- Creates an encoder over a session, unless the configuration or the session does not allow it. -/
def new (create : EncoderConfig → Except EncodeError (ℕ → SessionAnswer)) (config : EncoderConfig) :
    Except EncodeError VideoToolboxEncoder :=
  if !config.isValid then
    .error (.badConfig (toString config.width ++ "x" ++ toString config.height ++ " @ " ++
      toString config.fps ++ " fps"))
  else if config.codec = .av1 then .error (.noHardware .av1)
  else
    match create config with
    | .error e => .error e
    | .ok session => .ok ⟨session, 0, config, [], 0, none, false, 0, false, none⟩

/-! ### The callback -/

/-- The kind of the next frame.  The first one is always a keyframe. -/
def nextKind (e : VideoToolboxEncoder) : FrameKind :=
  if e.sequence = 0 ∨ e.expectKeyframe = true then .keyframe
  else if e.pendingRecovery.isSome then .ltrRecovery
  else .delta

/-- The frame of a sample.  A keyframe carries the parameter sets in front. -/
def outputFrame (e : VideoToolboxEncoder) (sample : SampleBuffer) : EncodedFrame where
  data :=
    (if e.nextKind = .keyframe then sample.parameterSets.getD [] else []) ++
      avccToAnnexB sample.avcc
  kind := e.nextKind
  ptsUs := .ofNat e.ptsUs
  sequence := .ofNat e.sequence
  temporalLayer := 0
  ltrIndex := e.pendingRecovery
  qp := none

/-- The session's callback.  The first frame of all leaves the flag of a forced keyframe set. -/
def outputCallback (e : VideoToolboxEncoder) (sample : SampleBuffer) : VideoToolboxEncoder :=
  { e with
    queue := e.queue ++ [e.outputFrame sample]
    sequence := e.sequence + 1
    pendingRecovery := none
    expectKeyframe := if e.sequence = 0 then e.expectKeyframe else false }

/-! ### The backend -/

/-- The encoder as it hands a picture over: the callback learns what the next frame is to be. -/
def submitting (e : VideoToolboxEncoder) (ptsUs : ℕ) : VideoToolboxEncoder :=
  { e with
    calls := e.calls + 1
    pendingRecovery := e.pendingLtr
    pendingLtr := none
    expectKeyframe := e.forceKeyframe
    ptsUs := ptsUs }

/-- Encodes one picture and waits for what comes out. -/
def encode (e : VideoToolboxEncoder) (frame : PlanarFrame) (ptsUs : ℕ) :
    Except EncodeError (List EncodedFrame) × VideoToolboxEncoder :=
  let answer := e.session e.calls
  if frame.width ≠ e.config.width ∨ frame.height ≠ e.config.height then
    (.error (.geometryMismatch frame.width frame.height e.config.width e.config.height), e)
  else if frame.format ≠ .nv12 then (.error (.badConfig "VideoToolbox requires NV12 input"), e)
  else
    match answer.buffer with
    | .error err => (.error err, { e with calls := e.calls + 1 })
    | .ok () =>
        let e := e.submitting ptsUs
        if answer.submitted ≠ 0 then
          (.error (.failed ("encode_frame failed: " ++ toString answer.submitted)), e)
        else
          let e := answer.samples.foldl outputCallback { e with forceKeyframe := false }
          -- The flag is gone by now, and what has been delivered stays in the queue.
          if answer.completed ≠ 0 then
            (.error (.failed ("complete_frames failed: " ++ toString answer.completed)), e)
          else (.ok e.queue, { e with queue := [] })

/-- Sets a property of the session. -/
def setProperty (e : VideoToolboxEncoder) (key : String) :
    Except EncodeError Unit × VideoToolboxEncoder :=
  let status := (e.session e.calls).property
  (if status = 0 then .ok ()
    else .error (.failed ("property " ++ key ++ " rejected with status " ++ toString status)),
    { e with calls := e.calls + 1 })

/-- A request for recovery.  Long-term references are not supported, so that any request is one for
a keyframe. -/
def requestRecovery (e : VideoToolboxEncoder) (_ : RecoveryMode) :
    Except EncodeError Unit × VideoToolboxEncoder :=
  (.ok (), { e with forceKeyframe := true, pendingLtr := none })

/-- The backend. -/
def encoder : VideoEncoder VideoToolboxEncoder where
  encode := encode
  setBitrate e bitrateBps :=
    { e with config := { e.config with bitrateBps := bitrateBps } }.setProperty "AverageBitRate"
  setFps e fps :=
    { e with config := { e.config with fps := max fps 1 } }.setProperty "ExpectedFrameRate"
  requestRecovery := requestRecovery
  config e := e.config

/-! ### What is owed -/

/-- The flags that make the frame of the next picture serve a request. -/
def Owes (e : VideoToolboxEncoder) (mode : RecoveryMode) : Prop :=
  e.sequence = 0 ∨ e.forceKeyframe = true ∨ ∃ index, mode = .ltr index ∧ e.pendingLtr = some index

/-- The flags of the callback that make the next frame serve a request. -/
def Expects (e : VideoToolboxEncoder) (mode : RecoveryMode) : Prop :=
  e.sequence = 0 ∨ e.expectKeyframe = true ∨
    ∃ index, mode = .ltr index ∧ e.pendingRecovery = some index

theorem repairs_outputFrame_iff {e : VideoToolboxEncoder} {sample : SampleBuffer}
    {mode : RecoveryMode} : (e.outputFrame sample).Repairs mode ↔ e.Expects mode := by
  by_cases hkey : e.sequence = 0 ∨ e.expectKeyframe = true
  · have hkind : (e.outputFrame sample).kind = .keyframe := if_pos hkey
    refine iff_of_true ?_ (hkey.imp id .inl)
    cases mode with
    | idr => exact hkind
    | ltr index => exact .inl hkind
  · obtain ⟨hsequence, hexpect⟩ := not_or.1 hkey
    have hkind : (e.outputFrame sample).kind
        = if e.pendingRecovery.isSome then .ltrRecovery else .delta := if_neg hkey
    have hltr : (e.outputFrame sample).ltrIndex = e.pendingRecovery := rfl
    simp only [Expects, hsequence, hexpect, false_or, Bool.false_eq_true]
    cases hpending : e.pendingRecovery with
    | none =>
        rw [hpending] at hkind
        refine iff_of_false ?_ (by simp)
        cases mode with
        | idr => simp [EncodedFrame.Repairs, hkind]
        | ltr index => simp [EncodedFrame.Repairs, hkind]
    | some index =>
        rw [hpending] at hkind hltr
        cases mode with
        | idr => simp [EncodedFrame.Repairs, hkind]
        | ltr index' => simp [EncodedFrame.Repairs, hkind, hltr, eq_comm]

/-- After one frame nothing is expected that was not expected before it. -/
theorem expects_of_outputCallback {e : VideoToolboxEncoder} {sample : SampleBuffer}
    {mode : RecoveryMode} (h : (e.outputCallback sample).Expects mode) : e.Expects mode := by
  rcases h with hsequence | hexpect | ⟨index, -, hpending⟩
  · cases hsequence
  · by_cases hfirst : e.sequence = 0
    · exact .inl hfirst
    · simp only [outputCallback, hfirst, if_false] at hexpect
      cases hexpect
  · cases hpending

/-- The frames that the callback pushes. -/
def pushed : VideoToolboxEncoder → List SampleBuffer → List EncodedFrame
  | _, [] => []
  | e, sample :: samples => e.outputFrame sample :: pushed (e.outputCallback sample) samples

theorem queue_foldl (e : VideoToolboxEncoder) (samples : List SampleBuffer) :
    (samples.foldl outputCallback e).queue = e.queue ++ e.pushed samples := by
  induction samples generalizing e with
  | nil => rw [List.foldl_nil, pushed, List.append_nil]
  | cons sample samples ih =>
      rw [List.foldl_cons, ih, pushed, outputCallback, List.append_assoc, List.singleton_append]

/-- **The frames of one picture** serve a request exactly when there are any and the callback was
told to expect it. -/
theorem serves_pushed_iff {e : VideoToolboxEncoder} {samples : List SampleBuffer}
    {mode : RecoveryMode} :
    Serves mode (e.pushed samples) ↔ e.pushed samples ≠ [] ∧ e.Expects mode := by
  induction samples generalizing e with
  | nil => simp [pushed, Serves]
  | cons sample samples ih =>
      have hcons : Serves mode (e.pushed (sample :: samples)) ↔
          (e.outputFrame sample).Repairs mode ∨
            Serves mode ((e.outputCallback sample).pushed samples) := by
        simp [pushed, Serves]
      rw [hcons, repairs_outputFrame_iff, ih]
      constructor
      · rintro (h | ⟨-, h⟩)
        · exact ⟨by simp [pushed], h⟩
        · exact ⟨by simp [pushed], expects_of_outputCallback h⟩
      · exact fun h => .inl h.2

/-- A call that succeeds has handed its picture over, and emits what the queue held and what the
picture brought. -/
theorem encode_eq_ok {e : VideoToolboxEncoder} {planar : PlanarFrame} {ptsUs : ℕ}
    {frames : List EncodedFrame} (h : (e.encode planar ptsUs).1 = .ok frames) :
    frames = e.queue ++
      ({ e.submitting ptsUs with forceKeyframe := false } : VideoToolboxEncoder).pushed
        (e.session e.calls).samples := by
  cases hbuffer : (e.session e.calls).buffer with
  | error err =>
      simp only [encode, hbuffer] at h
      split_ifs at h
  | ok u =>
      simp only [encode, hbuffer] at h
      split_ifs at h
      cases h
      exact queue_foldl _ _

/-- The hardware backend serves what it owes, after what its queue still holds. -/
theorem honours : encoder.Honours Owes queue where
  requested _ _ _ := .inr (.inl rfl)
  refused _ _ _ _ _ h := by cases h
  emitted e planar ptsUs frames hencode :=
    ⟨_, encode_eq_ok hencode, fun _ => serves_pushed_iff⟩
  setBitrate _ _ _ howes := howes
  setFps _ _ _ howes := howes

/-- A new encoder owes a keyframe. -/
theorem owes_new {create : EncoderConfig → Except EncodeError (ℕ → SessionAnswer)}
    {config : EncoderConfig} {e : VideoToolboxEncoder} (h : new create config = .ok e)
    (mode : RecoveryMode) : e.Owes mode := by
  simp only [new] at h
  split_ifs at h
  split at h
  · cases h
  · cases h
    exact .inl rfl

theorem foldl_outputCallback (e : VideoToolboxEncoder) (samples : List SampleBuffer) :
    (samples.foldl outputCallback e).forceKeyframe = e.forceKeyframe ∧
      (samples.foldl outputCallback e).pendingLtr = e.pendingLtr ∧
      e.sequence ≤ (samples.foldl outputCallback e).sequence := by
  induction samples generalizing e with
  | nil => exact ⟨rfl, rfl, le_rfl⟩
  | cons sample samples ih =>
      obtain ⟨hforce, hltr, hsequence⟩ := ih (e.outputCallback sample)
      exact ⟨hforce, hltr, (Nat.le_succ _).trans hsequence⟩

/-- **What is handed over is owed no more.**  Once an encoder that has emitted a frame hands a
picture over, it owes nothing, whether or not the session completes it and a frame comes out. -/
theorem not_owes_encode {e : VideoToolboxEncoder} {planar : PlanarFrame} (hstarted : e.sequence ≠ 0)
    (hwidth : planar.width = e.config.width) (hheight : planar.height = e.config.height)
    (hformat : planar.format = .nv12) (hbuffer : (e.session e.calls).buffer = .ok ())
    (hsubmitted : (e.session e.calls).submitted = 0) (ptsUs : ℕ) (mode : RecoveryMode) :
    ¬ (e.encode planar ptsUs).2.Owes mode := by
  have hsize : ¬ (planar.width ≠ e.config.width ∨ planar.height ≠ e.config.height) := by
    simp [hwidth, hheight]
  obtain ⟨hforce, hltr, hsequence⟩ := foldl_outputCallback
    { e.submitting ptsUs with forceKeyframe := false } (e.session e.calls).samples
  have hnot : ¬ ((e.session e.calls).samples.foldl outputCallback
      { e.submitting ptsUs with forceKeyframe := false }).Owes mode := by
    rintro (hzero | hforced | ⟨index, -, hpending⟩)
    · rw [hzero] at hsequence
      exact hstarted (Nat.le_zero.1 hsequence)
    · rw [hforce] at hforced
      cases hforced
    · rw [hltr] at hpending
      cases hpending
  simp only [encode, if_neg hsize, hformat, hbuffer, hsubmitted, ne_eq, not_true_eq_false, if_false]
  split_ifs
  · exact hnot
  · exact hnot

end VideoToolboxEncoder

end Rda
