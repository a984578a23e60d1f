/-
**Recovery requests and the frames that serve them.**

A recovery request that is granted is handed to the encoder, which then owes a frame that repairs
the receiver's decoder.  What the encoder owes comes out with the next frame it encodes, and whether
a frame is encoded is decided by the damage check and the pacing, which do not know about the
request.  A backend may also forget the request with a picture that it fails to encode.

The run below makes any calls in any order and remembers the last granted request that no frame has
come out since, and whether every step since has been a smooth one: none has failed, and none has
encoded its picture to nothing.

Main definitions:

* `Rda.PipelineCall`, `Rda.Tracked.step` — an operation with its arguments, and the pipeline with
  the request it has pending;
* `Rda.PipelineCall.Builds` — the factory of a call builds encoders that owe a keyframe.

Main results:

* `Rda.Tracked.inv_step`, `Rda.Tracked.inv_run` — a pending request is owed by the encoder as long
  as the steps are smooth;
* `Rda.pending_recovery_served_iff` — **the steps that serve a pending request**.
-/

import Rda.Pipeline

set_option relaxedAutoImplicit false
set_option autoImplicit false

namespace Rda

variable {E : Type}

/-- An operation of the pipeline with its arguments. -/
inductive PipelineCall (E : Type)
  | onLtrAcked (index : UInt8)
  | onRecoveryRequest (receiverLtr : Option UInt8) (nowMs : ℕ)
  | applyTelemetry (factory : EncoderFactory E) (view : LinkView) (nowMs : ℕ)
  | step (frame : Frame) (nowMs : ℕ)

/-- The request that a decision hands to the encoder. -/
def KeyframeDecision.granted : KeyframeDecision → Option RecoveryMode
  | .recover mode => some mode
  | .idr => some .idr
  | .suppressed => none

/-- A pipeline with the last request it has granted, if no frame has come out since. -/
structure Tracked (E : Type) where
  pipeline : Pipeline E
  pending : Option RecoveryMode := none
  /-- No step since has failed or encoded its picture to nothing. -/
  smooth : Bool := true

namespace Tracked

/-- The run's own record of what a request was answered. -/
def answered (t : Tracked E) : Except EncodeError KeyframeDecision × Pipeline E → Tracked E
  | (.ok decision, p) =>
      match decision.granted with
      | some mode => ⟨p, some mode, true⟩
      | none => { t with pipeline := p }
  | (.error _, p) => { t with pipeline := p }

/-- The run's own record of what a step answered. -/
def stepped (t : Tracked E) : Except EncodeError StepOutcome × Pipeline E → Tracked E
  | (.ok (.encoded []), p) => { t with pipeline := p, smooth := false }
  | (.ok (.encoded (_ :: _)), p) => { t with pipeline := p, pending := none }
  | (.ok .skipped, p) => { t with pipeline := p }
  | (.ok .paced, p) => { t with pipeline := p }
  | (.error _, p) => { t with pipeline := p, smooth := false }

/-- One call. -/
def step (enc : VideoEncoder E) (t : Tracked E) : PipelineCall E → Tracked E
  | .onLtrAcked index => { t with pipeline := t.pipeline.onLtrAcked index }
  | .onRecoveryRequest receiverLtr nowMs =>
      t.answered (t.pipeline.onRecoveryRequest enc receiverLtr nowMs)
  | .applyTelemetry factory view nowMs =>
      { t with pipeline := (t.pipeline.applyTelemetry enc factory view nowMs).2 }
  | .step frame nowMs => t.stepped (t.pipeline.step enc frame nowMs)

end Tracked

/-- The factory of the call builds encoders that owe a keyframe. -/
def PipelineCall.Builds (owes : E → RecoveryMode → Prop) : PipelineCall E → Prop
  | .applyTelemetry factory _ _ =>
      ∀ config encoder, factory config = .ok encoder → ∀ mode, owes encoder mode
  | _ => True

/-! ### What is owed stays owed -/

section Owed

variable {enc : VideoEncoder E} {owes : E → RecoveryMode → Prop} {left : E → List EncodedFrame}
  {mode : RecoveryMode}

theorem owes_setting (set : E → ℕ → Except EncodeError Unit × E) (p : Pipeline E)
    (hset : ∀ e value, owes e mode → owes (set e value).2 mode) (h : owes p.encoder mode)
    (next previous : ℕ) : owes (p.setting set next previous).2.encoder mode := by
  unfold Pipeline.setting
  split_ifs
  · exact hset p.encoder next h
  · exact h

theorem owes_rebuildForScale {factory : EncoderFactory E} {p : Pipeline E}
    (hbuild : ∀ config encoder, factory config = .ok encoder → ∀ mode, owes encoder mode)
    (h : owes p.encoder mode) (directive : EncoderDirective) :
    owes (p.rebuildForScale enc factory directive).2.encoder mode := by
  simp only [Pipeline.rebuildForScale]
  split_ifs
  · exact h
  · split
    · exact h
    · rename_i encoder hnew
      exact hbuild _ encoder hnew mode

theorem owes_applyTelemetry (henc : enc.Honours owes left) {factory : EncoderFactory E}
    {p : Pipeline E}
    (hbuild : ∀ config encoder, factory config = .ok encoder → ∀ mode, owes encoder mode)
    (h : owes p.encoder mode) (view : LinkView) (nowMs : ℕ) :
    owes (p.applyTelemetry enc factory view nowMs).2.encoder mode := by
  have hbitrate : owes (Pipeline.setting enc.setBitrate { p with
      rate := (p.rate.update view nowMs).2
      directive := (p.rate.update view nowMs).1 } (p.rate.update view nowMs).1.bitrateBps
      p.directive.bitrateBps).2.encoder mode := by
    refine owes_setting enc.setBitrate _ (fun e value => henc.setBitrate e mode value) ?_ _ _
    exact h
  simp only [Pipeline.applyTelemetry]
  split
  · rename_i heq
    rw [heq] at hbitrate
    exact hbitrate
  · rename_i p₁ heq
    rw [heq] at hbitrate
    have hfps : owes (p₁.setting enc.setFps (p.rate.update view nowMs).1.fps
        p.directive.fps).2.encoder mode :=
      owes_setting enc.setFps p₁ (fun e value => henc.setFps e mode value) hbitrate _ _
    split
    · rename_i heq'
      rw [heq'] at hfps
      exact hfps
    · rename_i p₂ heq'
      rw [heq'] at hfps
      split_ifs
      · exact owes_rebuildForScale hbuild hfps _
      · exact hfps

/-- A request that is passed on is owed if it is accepted; if it is not, nothing is lost. -/
theorem owes_request (henc : enc.Honours owes left) (p : Pipeline E) (asked : RecoveryMode)
    (decision : KeyframeDecision) :
    ((p.request enc asked decision).1 = .ok decision ∧
        owes (p.request enc asked decision).2.encoder asked) ∨
      ∃ e, (p.request enc asked decision).1 = .error e ∧
        ∀ mode, owes p.encoder mode → owes (p.request enc asked decision).2.encoder mode := by
  unfold Pipeline.request
  rcases hr : enc.requestRecovery p.encoder asked with ⟨e | u, encoder⟩
  · refine .inr ⟨e, rfl, ?_⟩
    intro mode h
    have hkept := henc.refused p.encoder mode asked e h (by rw [hr])
    rwa [hr] at hkept
  · have hnew := henc.requested p.encoder asked (by rw [hr])
    rw [hr] at hnew
    exact .inl ⟨rfl, hnew⟩

end Owed

namespace Tracked

variable {enc : VideoEncoder E} {owes : E → RecoveryMode → Prop} {left : E → List EncodedFrame}

/-- A pending request is owed by the encoder, as long as the steps are smooth. -/
def Inv (owes : E → RecoveryMode → Prop) (t : Tracked E) : Prop :=
  t.smooth = true → ∀ mode, t.pending = some mode → owes t.pipeline.encoder mode

/-- An operation after which the encoder owes what it owed before keeps the invariant. -/
theorem inv_of_owes {t : Tracked E} (h : t.Inv owes) {p : Pipeline E}
    (howes : ∀ mode, owes t.pipeline.encoder mode → owes p.encoder mode) :
    Inv owes { t with pipeline := p } :=
  fun hsmooth mode hmode => howes mode (h hsmooth mode hmode)

/-- Passing a request on keeps the invariant, with the request pending if it is granted. -/
theorem inv_request (henc : enc.Honours owes left) {t : Tracked E} (h : t.Inv owes)
    {p : Pipeline E} (hp : p.encoder = t.pipeline.encoder) (decision : KeyframeDecision)
    {asked : RecoveryMode} (hgranted : decision.granted = some asked) :
    (t.answered (p.request enc asked decision)).Inv owes := by
  have howes := owes_request henc p asked decision
  generalize p.request enc asked decision = r at howes ⊢
  rcases r with ⟨answer, p'⟩
  rcases howes with ⟨hok, hnew⟩ | ⟨e, herr, hkept⟩
  · cases hok
    simp only [answered, hgranted]
    intro _ mode hmode
    cases hmode
    exact hnew
  · cases herr
    rw [hp] at hkept
    exact inv_of_owes h hkept

theorem inv_step (henc : enc.Honours owes left) {t : Tracked E} (h : t.Inv owes)
    {call : PipelineCall E} (hbuild : call.Builds owes) : (t.step enc call).Inv owes := by
  cases call with
  | onLtrAcked index => exact h
  | onRecoveryRequest receiverLtr nowMs =>
      simp only [step, Pipeline.onRecoveryRequest]
      rcases t.pipeline.rate.onRecoveryRequest receiverLtr nowMs with ⟨decision, rate⟩
      have hp : ({ t.pipeline with rate := rate } : Pipeline E).encoder = t.pipeline.encoder := rfl
      cases decision with
      | recover mode => exact inv_request henc h hp (.recover mode) rfl
      | idr => exact inv_request henc h hp .idr rfl
      | suppressed => exact h
  | applyTelemetry factory view nowMs =>
      exact inv_of_owes h fun mode howes => owes_applyTelemetry henc hbuild howes view nowMs
  | step frame nowMs =>
      simp only [step]
      have hstep := t.pipeline.step_stepped enc frame nowMs
      generalize t.pipeline.step enc frame nowMs = r at hstep
      cases hstep with
      | encoded frames planar worth due converts taken =>
          cases frames with
          | nil => exact fun hsmooth => nomatch hsmooth
          | cons first frames => exact fun _ mode hmode => nomatch hmode
      -- A picture that was handed over may have taken the request along.
      | refused planar e converts failed => exact fun hsmooth => nomatch hsmooth
      | unconvertible e fails => exact fun hsmooth => nomatch hsmooth
      | skipped stats unchanged => exact h
      | paced stats worth early => exact h

/-- Every run keeps the invariant. -/
theorem inv_run (henc : enc.Honours owes left) {t : Tracked E} (h : t.Inv owes)
    {calls : List (PipelineCall E)} (hbuild : ∀ call ∈ calls, call.Builds owes) :
    (Machine.run (step enc) t calls).Inv owes := by
  induction calls generalizing t with
  | nil => exact h
  | cons call calls ih =>
      exact ih (inv_step henc h (hbuild call List.mem_cons_self))
        (fun call' hcall' => hbuild call' (List.mem_cons_of_mem _ hcall'))

end Tracked

/-- **The steps that serve a pending request.**  In every state of every run in which a granted
request is pending, a step encodes a frame that serves it exactly when the frame is worth encoding,
the pacing interval has passed, the surface converts, the encoder takes the picture, and a frame
that it still had to deliver serves the request, or it emits something for the picture and still
owes the request.  It does as long as no step since the request has failed or encoded its picture to
nothing.  The step answers `skipped` or `paced` exactly when one of the first two fails. -/
theorem pending_recovery_served_iff {enc : VideoEncoder E} {owes : E → RecoveryMode → Prop}
    {left : E → List EncodedFrame} (henc : enc.Honours owes left) (p : Pipeline E)
    {calls : List (PipelineCall E)} (hbuild : ∀ call ∈ calls, call.Builds owes) {t : Tracked E}
    (hrun : Machine.run (Tracked.step enc) { pipeline := p } calls = t) {mode : RecoveryMode}
    (hpending : t.pending = some mode) (frame : Frame) (nowMs : ℕ) :
    ((∃ frames, (t.pipeline.step enc frame nowMs).1 = .ok (.encoded frames) ∧ Serves mode frames) ↔
      ∃ new, t.pipeline.Encodes enc frame nowMs (left t.pipeline.encoder ++ new) ∧
        (Serves mode (left t.pipeline.encoder) ∨ new ≠ [] ∧ owes t.pipeline.encoder mode)) ∧
    (t.smooth = true → owes t.pipeline.encoder mode) ∧
    (((t.pipeline.step enc frame nowMs).1 = .ok .skipped ∨
        (t.pipeline.step enc frame nowMs).1 = .ok .paced) ↔
      frame.isWorthEncoding = false ∨ ¬ t.pipeline.Due nowMs) := by
  refine ⟨⟨?_, ?_⟩, ?_, Pipeline.step_dropped_iff⟩
  · rintro ⟨frames, hstep, hserves⟩
    have hencodes := Pipeline.step_encoded_iff.1 hstep
    obtain ⟨planar, -, htaken⟩ := hencodes.taken
    obtain ⟨new, rfl, hnew⟩ := henc.emitted _ planar _ frames htaken
    exact ⟨new, hencodes, (serves_append.1 hserves).imp id (hnew mode).1⟩
  · rintro ⟨new, hencodes, hserves⟩
    obtain ⟨planar, -, htaken⟩ := hencodes.taken
    obtain ⟨new', happend, hnew⟩ := henc.emitted _ planar _ _ htaken
    cases List.append_cancel_left happend
    exact ⟨_, Pipeline.step_encoded_iff.2 hencodes,
      serves_append.2 (hserves.imp id (hnew mode).2)⟩
  · have hinv := Tracked.inv_run henc (t := { pipeline := p }) (fun _ mode h => nomatch h) hbuild
    rw [hrun] at hinv
    exact fun hsmooth => hinv hsmooth mode hpending

/-! ### A request on a static screen -/

namespace Sample

/-- A grey picture of 16 by 16 pixels. -/
def frame (dirty : DirtyRegion) (shade : UInt8) : Frame where
  surface := .cpu (List.replicate 1024 shade) 64 .bgra8
  displayId := 0
  width := 16
  height := 16
  dirty := dirty
  sequence := 0

/-- The pipeline of a display of this size, with the synthetic backend. -/
def pipeline : Pipeline RecordingEncoder :=
  ⟨⟨{ width := 16, height := 16, fps := 60 }, 0, 4000000, none, true, none, 0⟩, .new, {}, 16, 16,
    RateController.new.current, none, {}⟩

theorem pipeline_new :
    Pipeline.new RecordingEncoder.new 16 16 { width := 16, height := 16, fps := 60 }
      = .ok pipeline := rfl

/-- A frame is encoded, and a second later the viewer, which lost it, asks for a keyframe. -/
def calls : List (PipelineCall RecordingEncoder) :=
  [.step (frame .full 128) 0, .onRecoveryRequest none 1000]

/-- The pipeline after these calls. -/
def requested : Tracked RecordingEncoder :=
  Machine.run (Tracked.step RecordingEncoder.encoder) { pipeline := pipeline } calls

theorem pending_requested : requested.pending = some .idr ∧ requested.smooth = true := by
  decide +kernel

/-- Pictures of this size are converted and encoded. -/
theorem encodes_frame {p : Pipeline RecordingEncoder} (hfail : p.encoder.failNext = none)
    (hwidth : p.encoder.config.width = 16) (hheight : p.encoder.config.height = 16)
    {dirty : DirtyRegion} (hdirty : dirty.hasChanges = true) (shade : UInt8) {nowMs : ℕ}
    (hdue : p.Due nowMs) :
    p.Encodes RecordingEncoder.encoder (frame dirty shade) nowMs
      [p.encoder.nextFrame (nowMs * 1000)] := by
  have hvalid : validate (List.replicate 1024 shade) 16 16 64 = .ok () := by
    rw [validate_eq_ok_iff, List.length_replicate]
    decide
  obtain ⟨planar, hplanar⟩ := exists_bgraToPlanar hvalid .nv12 p.convert
  have hconverts : p.planar RecordingEncoder.encoder (frame dirty shade) = .ok planar := by
    simp only [Pipeline.planar, RecordingEncoder.encoder, hwidth, hheight, convertSurfaceScaled,
      frame, if_true, convertSurface]
    exact hplanar
  obtain ⟨hw, hh, -, -⟩ := bgraToPlanar_eq_ok hplanar
  exact ⟨hdirty, hdue, planar, hconverts,
    RecordingEncoder.encode_of_size hfail (hw.trans hwidth.symm) (hh.trans hheight.symm) _⟩

end Sample

/-- On a screen that changes, the request is served by the next frame. -/
theorem pending_recovery_served_sample :
    ∃ frames, (Sample.requested.pipeline.step RecordingEncoder.encoder (Sample.frame .full 64)
        1000).1 = .ok (.encoded frames) ∧ Serves .idr frames := by
  obtain ⟨hserved, howes, -⟩ := pending_recovery_served_iff RecordingEncoder.honours
    Sample.pipeline (by simp [Sample.calls, PipelineCall.Builds]) rfl Sample.pending_requested.1
    (Sample.frame .full 64) 1000
  refine hserved.2 ⟨_, Sample.encodes_frame (by decide +kernel) (by decide +kernel)
    (by decide +kernel) rfl 64 (by decide +kernel), .inr ⟨by simp, ?_⟩⟩
  exact howes Sample.pending_requested.2

/-- The request is granted and pending, and the next frame is skipped because the screen is static,
or dropped because it comes too early. -/
theorem pending_recovery_starved :
    (Sample.requested.pending = some .idr ∧
      (Sample.requested.pipeline.step RecordingEncoder.encoder (Sample.frame .unchanged 128)
        1000).1 = .ok .skipped) ∧
    (Machine.run (Tracked.step RecordingEncoder.encoder) { pipeline := Sample.pipeline }
        [.step (Sample.frame .full 128) 995, .onRecoveryRequest none 1000]).pending = some .idr ∧
      ((Machine.run (Tracked.step RecordingEncoder.encoder) { pipeline := Sample.pipeline }
        [.step (Sample.frame .full 128) 995, .onRecoveryRequest none 1000]).pipeline.step
          RecordingEncoder.encoder (Sample.frame .full 64) 1000).1 = .ok .paced := by
  refine ⟨⟨Sample.pending_requested.1, rfl⟩, ?_, ?_⟩
  · decide +kernel
  · decide +kernel

end Rda
