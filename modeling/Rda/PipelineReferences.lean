/-
**The references that recovery is made against.**

The receiver acknowledges the long-term references it has decoded, and a later recovery request is
answered by a frame against the last one it acknowledged.  The acknowledgement is kept by the rate
controller, the references by the encoder, and a change of resolution replaces the encoder and
leaves the controller as it is.  So the reference that is named to a new encoder may be one that
only the old encoder had.

The run below makes any calls in any order and remembers what has been acknowledged since the
current encoder was built.

Main definitions:

* `Rda.Acknowledged`, `Rda.Acknowledged.step` — a pipeline with the references acknowledged since
  its encoder was built;
* `Rda.Pipeline.RecoversTo` — a call that decides to recover against a reference;
* `Rda.Acknowledged.Covered` — a request that the acknowledgements since the last rebuild cover.

Main results:

* `Rda.Pipeline.applyTelemetry_encoder` — the encoder is replaced exactly when the rebuilds are
  counted up;
* `Rda.Acknowledged.inv_step` — the controller remembers the last acknowledgement;
* `Rda.recovery_targets_acked_iff` — **the runs that recover only against acknowledged
  references**.
-/

import Rda.PipelineRecovery

set_option relaxedAutoImplicit false
set_option autoImplicit false

namespace Rda

variable {E : Type}

/-! ### What a call does to the encoder and to the acknowledgement -/

namespace Pipeline

variable {enc : VideoEncoder E}

/-- Applying telemetry either counts a rebuild, and the encoder is one that the factory has just
built, or it keeps the encoder and at most changes its settings. -/
theorem applyTelemetry_encoder (factory : EncoderFactory E) (p : Pipeline E) (view : LinkView)
    (nowMs : ℕ) :
    ((p.applyTelemetry enc factory view nowMs).2.stats.rebuilds = p.stats.rebuilds + 1 ∧
        ∃ config, factory config = .ok (p.applyTelemetry enc factory view nowMs).2.encoder) ∨
      (p.applyTelemetry enc factory view nowMs).2.stats = p.stats := by
  have happlied := applyTelemetry_applied enc factory p view nowMs
  generalize p.applyTelemetry enc factory view nowMs = r at happlied
  cases happlied with
  | failed e encoder rejected => exact .inr rfl
  | retuned encoder retunes stays => exact .inr rfl
  | rebuilt tuned encoder retunes moves misfits built => exact .inl ⟨rfl, _, built⟩

/-- Telemetry does not touch the acknowledgement. -/
theorem ackedLtr_applyTelemetry (factory : EncoderFactory E) (p : Pipeline E) (view : LinkView)
    (nowMs : ℕ) :
    (p.applyTelemetry enc factory view nowMs).2.rate.ackedLtr = p.rate.ackedLtr := by
  rw [(rate_applyTelemetry factory p view nowMs).1]
  rfl

/-- Passing a request on changes the encoder only, and gives the decision if it is taken. -/
theorem request_eq (p : Pipeline E) (mode : RecoveryMode) (decision : KeyframeDecision) :
    p.request enc mode decision =
      ((enc.requestRecovery p.encoder mode).1.map fun _ => decision,
        { p with encoder := (enc.requestRecovery p.encoder mode).2 }) := by
  unfold request
  rcases enc.requestRecovery p.encoder mode with ⟨e | u, encoder⟩
  · rfl
  · rfl

/-- A request gives a decision exactly when the encoder takes it and the decision is its own. -/
theorem request_eq_ok_iff {p : Pipeline E} {mode : RecoveryMode}
    {decision decision' : KeyframeDecision} :
    (p.request enc mode decision).1 = .ok decision' ↔
      (enc.requestRecovery p.encoder mode).1 = .ok () ∧ decision = decision' := by
  rw [request_eq]
  cases (enc.requestRecovery p.encoder mode).1 with
  | error e => simp [Except.map]
  | ok u => simp [Except.map]

variable (enc) in
/-- The rate controller decides alone, whatever becomes of the request. -/
theorem rate_onRecoveryRequest (p : Pipeline E) (receiverLtr : Option UInt8) (nowMs : ℕ) :
    (p.onRecoveryRequest enc receiverLtr nowMs).2.rate =
      (p.rate.onRecoveryRequest receiverLtr nowMs).2 := by
  unfold onRecoveryRequest
  rcases p.rate.onRecoveryRequest receiverLtr nowMs with ⟨decision, rate⟩
  cases decision with
  | recover mode => simp only [request_eq]
  | idr => simp only [request_eq]
  | suppressed => rfl

theorem ackedLtr_onRecoveryRequest (p : Pipeline E) (receiverLtr : Option UInt8) (nowMs : ℕ) :
    (p.onRecoveryRequest enc receiverLtr nowMs).2.rate.ackedLtr = p.rate.ackedLtr := by
  rw [rate_onRecoveryRequest]
  rcases p.rate.onRecoveryRequest_cases receiverLtr nowMs with
    ⟨index, -, -, heq⟩ | ⟨-, heq⟩ | ⟨-, heq⟩
  · rw [heq]
  · rw [heq]
  · rw [heq]

theorem rate_step (p : Pipeline E) (frame : Frame) (nowMs : ℕ) :
    (p.step enc frame nowMs).2.rate = p.rate := by
  have hstep := p.step_stepped enc frame nowMs
  generalize p.step enc frame nowMs = r at hstep
  cases hstep with
  | encoded frames planar worth due converts taken => rfl
  | refused planar e converts failed => rfl
  | unconvertible e fails => rfl
  | skipped stats unchanged => rfl
  | paced stats worth early => rfl

variable (enc) in
/-- The call decides to recover against this reference. -/
def RecoversTo (p : Pipeline E) (call : PipelineCall E) (index : UInt8) : Prop :=
  ∃ receiverLtr nowMs, call = .onRecoveryRequest receiverLtr nowMs ∧
    (p.onRecoveryRequest enc receiverLtr nowMs).1 = .ok (.recover (.ltr index))

/-- A request is answered by a reference exactly when it names the one that the controller
remembers, and the encoder takes it. -/
theorem onRecoveryRequest_eq_recover_iff {p : Pipeline E} {receiverLtr : Option UInt8} {nowMs : ℕ}
    {index : UInt8} :
    (p.onRecoveryRequest enc receiverLtr nowMs).1 = .ok (.recover (.ltr index)) ↔
      receiverLtr = some index ∧ p.rate.ackedLtr = some index ∧
        (enc.requestRecovery p.encoder (.ltr index)).1 = .ok () := by
  unfold onRecoveryRequest
  rcases p.rate.onRecoveryRequest_cases receiverLtr nowMs with
    ⟨acked, hnamed, hacked, heq⟩ | ⟨-, heq⟩ | ⟨-, heq⟩
  · simp only [heq, request_eq_ok_iff, KeyframeDecision.recover.injEq, RecoveryMode.ltr.injEq]
    rw [hnamed, hacked]
    simp only [Option.some.injEq]
    constructor
    · rintro ⟨htaken, rfl⟩
      exact ⟨rfl, rfl, htaken⟩
    · rintro ⟨rfl, -, htaken⟩
      exact ⟨htaken, rfl⟩
  -- Without a reference in common the answer is another one.
  all_goals
    have hapart : ¬ (receiverLtr = some index ∧ p.rate.ackedLtr = some index) := by
      rintro ⟨rfl, hacked⟩
      simp [RateController.onRecoveryRequest, hacked] at heq
    simp only [heq, request_eq_ok_iff]
    constructor
    · intro h
      simp at h
    · rintro ⟨hnamed, hacked, -⟩
      exact absurd ⟨hnamed, hacked⟩ hapart

end Pipeline

/-! ### Runs with the acknowledgements of the current encoder -/

/-- A pipeline with the references that have been acknowledged since its encoder was built, the last
one first. -/
structure Acknowledged (E : Type) where
  pipeline : Pipeline E
  acks : List UInt8

namespace Acknowledged

/-- One call.  What was acknowledged to an encoder goes with it. -/
def step (enc : VideoEncoder E) (a : Acknowledged E) : PipelineCall E → Acknowledged E
  | .onLtrAcked index => ⟨a.pipeline.onLtrAcked index, index :: a.acks⟩
  | .onRecoveryRequest receiverLtr nowMs =>
      ⟨(a.pipeline.onRecoveryRequest enc receiverLtr nowMs).2, a.acks⟩
  | .applyTelemetry factory view nowMs =>
      let p := (a.pipeline.applyTelemetry enc factory view nowMs).2
      ⟨p, if p.stats.rebuilds = a.pipeline.stats.rebuilds then a.acks else []⟩
  | .step frame nowMs => ⟨(a.pipeline.step enc frame nowMs).2, a.acks⟩

/-- The controller remembers the last acknowledgement. -/
def Inv (a : Acknowledged E) : Prop :=
  ∀ index ∈ a.acks.head?, a.pipeline.rate.ackedLtr = some index

/-- A request that would be answered by a reference comes after an acknowledgement to the current
encoder. -/
def Covered (enc : VideoEncoder E) (a : Acknowledged E) : PipelineCall E → Prop
  | .onRecoveryRequest (some index) _ =>
      a.pipeline.rate.ackedLtr = some index →
        (enc.requestRecovery a.pipeline.encoder (.ltr index)).1 = .ok () → a.acks ≠ []
  | _ => True

variable {enc : VideoEncoder E}

theorem inv_step {a : Acknowledged E} (h : a.Inv) (call : PipelineCall E) :
    (a.step enc call).Inv := by
  cases call with
  | onLtrAcked index =>
      intro index' hindex
      cases hindex
      rfl
  | onRecoveryRequest receiverLtr nowMs =>
      intro index hindex
      exact (a.pipeline.ackedLtr_onRecoveryRequest receiverLtr nowMs).trans (h index hindex)
  | applyTelemetry factory view nowMs =>
      intro index hindex
      simp only [step] at hindex ⊢
      rw [Pipeline.ackedLtr_applyTelemetry]
      split_ifs at hindex
      · exact h index hindex
      · simp at hindex
  | step frame nowMs =>
      intro index hindex
      simp only [step, Pipeline.rate_step]
      exact h index hindex

/-- One call recovers only against references acknowledged to the current encoder exactly when it is
covered. -/
theorem recovers_iff_covered {a : Acknowledged E} (h : a.Inv) (call : PipelineCall E) :
    (∀ index, a.pipeline.RecoversTo enc call index → index ∈ a.acks) ↔ a.Covered enc call := by
  cases call with
  | onRecoveryRequest receiverLtr nowMs =>
      cases receiverLtr with
      | none =>
          refine ⟨fun _ => trivial, ?_⟩
          rintro - index ⟨receiverLtr, nowMs', hcall, hrecover⟩
          cases hcall
          cases (Pipeline.onRecoveryRequest_eq_recover_iff.1 hrecover).1
      | some index =>
          constructor
          · intro hreal hacked htaken
            exact List.ne_nil_of_mem (hreal index ⟨some index, nowMs, rfl,
              Pipeline.onRecoveryRequest_eq_recover_iff.2 ⟨rfl, hacked, htaken⟩⟩)
          · rintro hcovered index' ⟨receiverLtr, nowMs', hcall, hrecover⟩
            cases hcall
            obtain ⟨hnamed, hacked, htaken⟩ :=
              Pipeline.onRecoveryRequest_eq_recover_iff.1 hrecover
            cases hnamed
            -- The last acknowledgement is the one that the controller remembers.
            obtain ⟨last, acks, hacks⟩ := List.exists_cons_of_ne_nil (hcovered hacked htaken)
            have hlast := h last (by rw [hacks]; rfl)
            rw [hacked, Option.some.injEq] at hlast
            rw [hacks, hlast]
            exact List.mem_cons_self
  | onLtrAcked index =>
      refine ⟨fun _ => trivial, ?_⟩
      rintro - index' ⟨receiverLtr, nowMs, hcall, -⟩
      cases hcall
  | applyTelemetry factory view nowMs =>
      refine ⟨fun _ => trivial, ?_⟩
      rintro - index' ⟨receiverLtr, nowMs, hcall, -⟩
      cases hcall
  | step frame nowMs =>
      refine ⟨fun _ => trivial, ?_⟩
      rintro - index' ⟨receiverLtr, nowMs, hcall, -⟩
      cases hcall

end Acknowledged

/-- **Recovery against acknowledged references.**  Every recovery against a reference in a run is
against one that was acknowledged after the current encoder was built exactly when, in the whole
run, no request that the encoder takes and that names the reference the controller remembers comes
before the first acknowledgement to the current encoder. -/
theorem recovery_targets_acked_iff (enc : VideoEncoder E) (p : Pipeline E)
    (calls : List (PipelineCall E)) :
    (∀ past call, past ++ [call] <+: calls → ∀ index,
        (Machine.run (Acknowledged.step enc) ⟨p, []⟩ past).pipeline.RecoversTo enc call index →
          index ∈ (Machine.run (Acknowledged.step enc) ⟨p, []⟩ past).acks) ↔
      Machine.Along (Acknowledged.step enc) (Acknowledged.Covered enc) ⟨p, []⟩ calls :=
  Machine.forall_step_iff_along Acknowledged.Inv
    (fun a call => ∀ index, a.pipeline.RecoversTo enc call index → index ∈ a.acks)
    (fun _ call h _ => Acknowledged.inv_step h call)
    (fun _ call h => Acknowledged.recovers_iff_covered h call) (by simp [Acknowledged.Inv]) calls

namespace Sample

/-- The pipeline of a display of 64 by 64 pixels, with the synthetic backend. -/
def squarePipeline : Pipeline RecordingEncoder :=
  ⟨⟨{ width := 64, height := 64, fps := 60 }, 0, 4000000, none, true, none, 0⟩, .new, {}, 64, 64,
    RateController.new.current, none, {}⟩

/-- A collapsed link: half the size at 12 frames a second. -/
def collapsed : LinkView := ⟨⟨5, 12, 50, 1, false⟩, 340000, false⟩

/-- Reference 0 is acknowledged, and then the link collapses. -/
def shrunk : Acknowledged RecordingEncoder :=
  Machine.run (Acknowledged.step RecordingEncoder.encoder) ⟨squarePipeline, []⟩
    [.onLtrAcked 0, .applyTelemetry RecordingEncoder.new collapsed 3000]

end Sample

/-- The encoder has been replaced and has not emitted a single frame, nothing has been acknowledged
to it, and a request for recovery against reference 0 is granted. -/
theorem recovery_against_replaced_encoder :
    Pipeline.new RecordingEncoder.new 64 64 { width := 64, height := 64, fps := 60 }
        = .ok Sample.squarePipeline ∧
      Sample.collapsed.rung ∈ LADDER ∧
      Sample.shrunk.pipeline.stats.rebuilds = 1 ∧
      Sample.shrunk.pipeline.encoder.sequence = 0 ∧
      Sample.shrunk.pipeline.RecoversTo RecordingEncoder.encoder
        (.onRecoveryRequest (some 0) 3100) 0 ∧
      0 ∉ Sample.shrunk.acks := by
  refine ⟨rfl, by decide, by decide, by decide, ⟨some 0, 3100, rfl, ?_⟩,
    by decide⟩
  decide

end Rda
