/-
**What the encoder runs with and what the directive says.**

The pipeline keeps one directive and passes it on as differences: a bitrate or a frame rate is set
when it differs from that of the last directive, and the rest is set when the scale moves far enough
for the encoder to be rebuilt.  The directive advances first, so whatever is not passed on then is
not passed on later either, until it changes again.

What a backend runs with is left abstract: a backend reports its own configuration, but not every
one writes the bitrate it was last given back into it.

Main definitions:

* `Rda.VideoEncoder.Follows` — a backend that runs with the settings that it has accepted;
* `Rda.TelemetryCall` — telemetry on the ladder, with a factory that builds what it is asked for;
* `Rda.Pipeline.Agrees` — the encoder runs with the settings of the directive;
* `Rda.Pipeline.Replaces`, `Rda.Pipeline.UpToDate` — a call that rebuilds the encoder, and an
  encoder that lacks nothing that the call does not pass on.

Main results:

* `Rda.Pipeline.agrees_applyTelemetry_iff` — the calls after which the two agree;
* `Rda.Pipeline.agrees_next_iff` — the same from a pipeline where they agree before the call;
* `Rda.settings_follow_directive_iff` — **the runs in which encoder and directive agree**.
-/

import Rda.Machine
import Rda.Pipeline
import Rda.VideoToolbox

set_option relaxedAutoImplicit false
set_option autoImplicit false

namespace Rda

variable {E : Type}

/-- A backend runs with the settings that it has accepted, and reports them, but for the bitrate. -/
structure VideoEncoder.Follows (enc : VideoEncoder E) (active : E → EncoderConfig) : Prop where
  reports : ∀ e, enc.config e = { active e with bitrateBps := (enc.config e).bitrateBps }
  setBitrate : ∀ e bitrateBps e', enc.setBitrate e bitrateBps = (.ok (), e') →
    active e' = { active e with bitrateBps := bitrateBps }
  setFps : ∀ e fps e', enc.setFps e fps = (.ok (), e') →
    active e' = { active e with fps := max fps 1 }

/-- What the synthetic backend runs with. -/
def RecordingEncoder.active (e : RecordingEncoder) : EncoderConfig :=
  { e.config with bitrateBps := e.bitrateBps }

theorem RecordingEncoder.follows : encoder.Follows active where
  reports _ := rfl
  setBitrate e bitrateBps e' h := by
    cases h
    rfl
  setFps e fps e' h := by
    cases h
    rfl

/-- The hardware backend runs with its configuration, which it writes before it asks the session. -/
theorem VideoToolboxEncoder.follows : encoder.Follows config where
  reports _ := rfl
  setBitrate e bitrateBps e' h := by
    obtain ⟨-, rfl⟩ := Prod.mk.inj h
    rfl
  setFps e fps e' h := by
    obtain ⟨-, rfl⟩ := Prod.mk.inj h
    rfl

theorem RecordingEncoder.active_new {config : EncoderConfig} {e : RecordingEncoder}
    (h : new config = .ok e) : e.active = config := by
  unfold new at h
  split at h
  · cases h
  · cases h
    rfl

/-- A call of `applyTelemetry`.  The rung is one of the ladder's, and the factory builds what it is
asked for, or fails. -/
structure TelemetryCall (active : E → EncoderConfig) where
  factory : EncoderFactory E
  view : LinkView
  nowMs : ℕ
  onLadder : view.rung ∈ LADDER
  builds : ∀ config e, factory config = .ok e → active e = config

/-! ### The ladder -/

/-- The scale is that of a rung. -/
def EncoderDirective.OnLadder (d : EncoderDirective) : Prop :=
  ∃ rung ∈ LADDER, d.scalePct = rung.scalePct

/-- Two scales are no further apart than the threshold. -/
def Near (a b : ℕ) : Prop := (a - b) + (b - a) ≤ SCALE_CHANGE_THRESHOLD_PCT

theorem near_self (a : ℕ) : Near a a := by
  simp [Near]

/-- On the ladder, a scale that changes moves far enough for a rebuild. -/
theorem scale_eq_or_moves {next previous : EncoderDirective} (hnext : next.OnLadder)
    (hprevious : previous.OnLadder) :
    next.scalePct = previous.scalePct ∨ Pipeline.ScaleMoves next previous := by
  have hladder : ∀ rung ∈ LADDER, ∀ rung' ∈ LADDER, rung.scalePct = rung'.scalePct ∨
      SCALE_CHANGE_THRESHOLD_PCT ≤
        (rung.scalePct - rung'.scalePct) + (rung'.scalePct - rung.scalePct) := by decide
  obtain ⟨rung, hrung, hscale⟩ := hnext
  obtain ⟨rung', hrung', hscale'⟩ := hprevious
  rw [Pipeline.ScaleMoves, hscale, hscale']
  exact hladder rung hrung rung' hrung'

/-- Scaled dimensions are even. -/
theorem EncoderDirective.scaledDimensions_even (d : EncoderDirective) (width height : ℕ) :
    (d.scaledDimensions width height).1 / 2 * 2 = (d.scaledDimensions width height).1 ∧
      (d.scaledDimensions width height).2 / 2 * 2 = (d.scaledDimensions width height).2 := by
  simp only [scaledDimensions]
  omega

/-- Dimensions depend on the scale of the directive only. -/
theorem EncoderDirective.scaledDimensions_congr {d d' : EncoderDirective}
    (h : d.scalePct = d'.scalePct) (width height : ℕ) :
    d.scaledDimensions width height = d'.scaledDimensions width height := by
  simp only [scaledDimensions, h]

/-- The configuration has the dimensions of a scale near that of the directive. -/
def EncoderDirective.DimensionsNear (d : EncoderDirective) (nativeWidth nativeHeight : ℕ)
    (config : EncoderConfig) : Prop :=
  ∃ scalePct, Near scalePct d.scalePct ∧
    ({ d with scalePct := scalePct }).scaledDimensions nativeWidth nativeHeight =
      (config.width, config.height)

namespace Pipeline

variable (enc : VideoEncoder E) (active : E → EncoderConfig)

/-- The encoder runs with the settings of the directive. -/
structure Agrees (p : Pipeline E) : Prop where
  bitrate : (active p.encoder).bitrateBps = p.directive.bitrateBps
  fps : (active p.encoder).fps = p.directive.fps
  temporalLayers : (active p.encoder).temporalLayers = p.directive.temporalLayers
  dimensions : p.directive.DimensionsNear p.nativeWidth p.nativeHeight (active p.encoder)

variable {active}

/-- The directive after a call. -/
abbrev next (p : Pipeline E) (call : TelemetryCall active) : EncoderDirective :=
  (p.updated call.view call.nowMs).directive

/-- One call. -/
def telemetryStep (p : Pipeline E) (call : TelemetryCall active) : Pipeline E :=
  (p.applyTelemetry enc call.factory call.view call.nowMs).2

/-- Everything that the call asks for is accepted. -/
abbrev Accepts (p : Pipeline E) (call : TelemetryCall active) : Prop :=
  p.Accepted enc call.factory call.view call.nowMs

/-- The call builds a new encoder: the scale moves, and the dimensions are not what the encoder
has. -/
def Replaces (p : Pipeline E) (call : TelemetryCall active) : Prop :=
  ScaleMoves (p.next call) p.directive ∧ ¬ (p.updated call.view call.nowMs).Fits enc p.encoder

/-- The encoder lacks nothing that the call does not pass on: it already runs with a bitrate and a
frame rate that do not change, with the layers of the new directive, and with dimensions near its
scale. -/
structure UpToDate (p : Pipeline E) (call : TelemetryCall active) : Prop where
  bitrate : (p.next call).bitrateBps = p.directive.bitrateBps →
    (active p.encoder).bitrateBps = p.directive.bitrateBps
  fps : (p.next call).fps = p.directive.fps → (active p.encoder).fps = p.directive.fps
  temporalLayers : (active p.encoder).temporalLayers = (p.next call).temporalLayers
  dimensions : (p.next call).DimensionsNear p.nativeWidth p.nativeHeight (active p.encoder)

/-! ### One call -/

variable {enc}

theorem fits_iff (hfollows : enc.Follows active) {p : Pipeline E} {e : E} :
    p.Fits enc e ↔ p.directive.scaledDimensions p.nativeWidth p.nativeHeight =
      ((active e).width, (active e).height) := by
  have hwidth : (enc.config e).width = (active e).width := by rw [hfollows.reports e]
  have hheight : (enc.config e).height = (active e).height := by rw [hfollows.reports e]
  rw [Fits, hwidth, hheight]

/-- What an encoder runs with that has taken the settings that have changed. -/
theorem active_of_retunes (hfollows : enc.Follows active) {p : Pipeline E}
    {next : EncoderDirective} {e' : E} (h : p.Retunes enc next e') :
    active e' = { active p.encoder with
      bitrateBps := if next.bitrateBps = p.directive.bitrateBps then
        (active p.encoder).bitrateBps else next.bitrateBps
      fps := if next.fps = p.directive.fps then
        (active p.encoder).fps else max next.fps 1 } := by
  obtain ⟨e, hbitrate, hfps⟩ := h
  have he : active e = { active p.encoder with
      bitrateBps := if next.bitrateBps = p.directive.bitrateBps then
        (active p.encoder).bitrateBps else next.bitrateBps } := by
    rcases hbitrate with ⟨hsame, rfl⟩ | ⟨hchanged, hset⟩
    · rw [if_pos hsame]
    · rw [if_neg hchanged, hfollows.setBitrate _ _ _ hset]
  rcases hfps with ⟨hsame, rfl⟩ | ⟨hchanged, hset⟩
  · rw [if_pos hsame, he]
  · rw [if_neg hchanged, hfollows.setFps _ _ _ hset, he]

/-- A rung of the ladder has at least one frame a second. -/
theorem next_fps_pos (p : Pipeline E) (call : TelemetryCall active) : 1 ≤ (p.next call).fps := by
  have hladder : ∀ rung ∈ LADDER, 1 ≤ rung.fps := by decide
  exact hladder call.view.rung call.onLadder

theorem next_onLadder (p : Pipeline E) (call : TelemetryCall active) :
    (p.next call).OnLadder :=
  ⟨call.view.rung, call.onLadder, rfl⟩

/-- An encoder that is kept agrees with the directive exactly when it was up to date. -/
theorem agrees_retuned_iff (hfollows : enc.Follows active) {p : Pipeline E}
    {call : TelemetryCall active} {e' : E} (h : p.Retunes enc (p.next call) e') :
    Agrees active { p.updated call.view call.nowMs with encoder := e' } ↔ p.UpToDate call := by
  have hactive := active_of_retunes hfollows h
  have hpos := p.next_fps_pos call
  have hbitrate : (active e').bitrateBps = (p.next call).bitrateBps ↔
      ((p.next call).bitrateBps = p.directive.bitrateBps →
        (active p.encoder).bitrateBps = p.directive.bitrateBps) := by
    rw [hactive]
    simp only
    split_ifs with hsame
    · simp [hsame]
    · simp [hsame]
  have hfps : (active e').fps = (p.next call).fps ↔
      ((p.next call).fps = p.directive.fps → (active p.encoder).fps = p.directive.fps) := by
    rw [hactive]
    simp only
    split_ifs with hsame
    · simp [hsame]
    · simp [hsame, hpos]
  have hlayers : (active e').temporalLayers = (active p.encoder).temporalLayers := by rw [hactive]
  have hdimensions : (p.next call).DimensionsNear p.nativeWidth p.nativeHeight (active e') ↔
      (p.next call).DimensionsNear p.nativeWidth p.nativeHeight (active p.encoder) := by
    rw [hactive]
    exact Iff.rfl
  constructor
  · rintro ⟨hb, hf, hl, hd⟩
    exact ⟨hbitrate.1 hb, hfps.1 hf, hlayers.symm.trans hl, hdimensions.1 hd⟩
  · rintro ⟨hb, hf, hl, hd⟩
    exact ⟨hbitrate.2 hb, hfps.2 hf, hlayers.trans hl, hdimensions.2 hd⟩

/-- An encoder built for the directive agrees with it. -/
theorem agrees_rebuilt {p : Pipeline E} {tuned e' : E}
    (h : active e' = p.rebuildConfig enc tuned) (stats : PipelineStats) :
    Agrees active { p with encoder := e', stats := stats } := by
  refine ⟨?_, ?_, ?_, p.directive.scalePct, near_self _, ?_⟩
  · exact congrArg EncoderConfig.bitrateBps h
  · exact congrArg EncoderConfig.fps h
  · exact congrArg EncoderConfig.temporalLayers h
  · obtain ⟨hwidth, hheight⟩ :=
      p.directive.scaledDimensions_even p.nativeWidth p.nativeHeight
    simp only [h, rebuildConfig, EncoderConfig.withEvenDimensions, hwidth, hheight]

/-- **Agreement after one call.**  After a call that is accepted the encoder agrees with the
directive exactly when the call builds a new encoder or the encoder was up to date. -/
theorem agrees_applyTelemetry_iff (hfollows : enc.Follows active) (p : Pipeline E)
    (call : TelemetryCall active) (haccepts : p.Accepts enc call) :
    Agrees active (p.telemetryStep enc call) ↔ p.Replaces enc call ∨ p.UpToDate call := by
  unfold telemetryStep
  have happlied := applyTelemetry_applied enc call.factory p call.view call.nowMs
  generalize p.applyTelemetry enc call.factory call.view call.nowMs = r at happlied
  cases happlied with
  | failed e encoder rejected => exact absurd haccepts rejected
  | retuned encoder retunes stays =>
      have hkept : ¬ p.Replaces enc call := by
        rintro ⟨hmoves, hmisfits⟩
        -- The settings do not touch the dimensions.
        have hfits := (fits_iff hfollows).1 (stays hmoves)
        rw [active_of_retunes hfollows retunes] at hfits
        exact hmisfits ((fits_iff hfollows).2 hfits)
      rw [agrees_retuned_iff hfollows retunes]
      exact ⟨.inr, fun h => h.resolve_left hkept⟩
  | rebuilt tuned encoder retunes moves misfits built =>
      have hreplaces : p.Replaces enc call := by
        refine ⟨moves, fun hfits => misfits ?_⟩
        rw [fits_iff hfollows, active_of_retunes hfollows retunes]
        exact (fits_iff hfollows).1 hfits
      exact iff_of_true (agrees_rebuilt (call.builds _ _ built) _) (.inl hreplaces)

/-- Where encoder and directive agree, an encoder that is kept is up to date exactly when the
temporal layers stay as they are. -/
theorem agrees_next_iff (hfollows : enc.Follows active) {p : Pipeline E}
    (hagrees : p.Agrees active) (honLadder : p.directive.OnLadder) (call : TelemetryCall active)
    (haccepts : p.Accepts enc call) :
    Agrees active (p.telemetryStep enc call) ↔
      p.Replaces enc call ∨ (p.next call).temporalLayers = p.directive.temporalLayers := by
  rw [agrees_applyTelemetry_iff hfollows p call haccepts]
  by_cases hreplaces : p.Replaces enc call
  · exact iff_of_true (.inl hreplaces) (.inl hreplaces)
  · rw [or_iff_right hreplaces, or_iff_right hreplaces]
    refine ⟨fun h => h.temporalLayers.symm.trans hagrees.temporalLayers, ?_⟩
    intro hlayers
    refine ⟨fun _ => hagrees.bitrate, fun _ => hagrees.fps,
      hagrees.temporalLayers.trans hlayers.symm, ?_⟩
    rcases scale_eq_or_moves (p.next_onLadder call) honLadder with hsame | hmoves
    · obtain ⟨scalePct, hnear, hdimensions⟩ := hagrees.dimensions
      refine ⟨scalePct, hsame ▸ hnear, ?_⟩
      rw [← hdimensions]
      exact EncoderDirective.scaledDimensions_congr rfl _ _
    · -- The scale moves and the encoder is kept: it has the new dimensions already.
      have hfits : (p.updated call.view call.nowMs).Fits enc p.encoder := by
        by_contra hmisfits
        exact hreplaces ⟨hmoves, hmisfits⟩
      exact ⟨(p.next call).scalePct, near_self _, (fits_iff hfollows).1 hfits⟩

theorem directive_telemetryStep (p : Pipeline E) (call : TelemetryCall active) :
    (p.telemetryStep enc call).directive = p.next call :=
  (rate_applyTelemetry call.factory p call.view call.nowMs).2

end Pipeline

/-- **Encoder and directive.**  In every run of telemetry calls, the encoder agrees with the
directive after each call that returns `Ok` exactly when each call that is accepted builds a new
encoder or finds the old one up to date.  From a pipeline where the two agree, with a directive on
the ladder, every call returns `Ok` and leaves them in agreement exactly when every call is accepted
and builds a new encoder or keeps the temporal layers. -/
theorem settings_follow_directive_iff {enc : VideoEncoder E} {active : E → EncoderConfig}
    (hfollows : enc.Follows active) (p : Pipeline E) (calls : List (TelemetryCall active)) :
    ((∀ past call, past ++ [call] <+: calls →
        ((Machine.run (Pipeline.telemetryStep enc) p past).applyTelemetry enc call.factory
          call.view call.nowMs).1 = .ok () →
        ((Machine.run (Pipeline.telemetryStep enc) p past).telemetryStep enc call).Agrees active) ↔
      Machine.Along (Pipeline.telemetryStep enc)
        (fun p call => p.Accepts enc call → p.Replaces enc call ∨ p.UpToDate call) p calls) ∧
    (p.Agrees active → p.directive.OnLadder →
      ((∀ past call, past ++ [call] <+: calls →
          ((Machine.run (Pipeline.telemetryStep enc) p past).applyTelemetry enc call.factory
            call.view call.nowMs).1 = .ok () ∧
          ((Machine.run (Pipeline.telemetryStep enc) p past).telemetryStep enc call).Agrees
            active) ↔
        Machine.Along (Pipeline.telemetryStep enc)
          (fun p call => p.Accepts enc call ∧
            (p.Replaces enc call ∨ (p.next call).temporalLayers = p.directive.temporalLayers))
          p calls)) := by
  constructor
  · refine Machine.forall_step_iff_along (fun _ => True)
      (fun (p : Pipeline E) (call : TelemetryCall active) =>
        (p.applyTelemetry enc call.factory call.view call.nowMs).1 = .ok () →
          (p.telemetryStep enc call).Agrees active) (fun _ _ _ _ => trivial) ?_ trivial calls
    intro p call _
    rw [Pipeline.applyTelemetry_eq_ok_iff]
    exact forall_congr' fun haccepts => Pipeline.agrees_applyTelemetry_iff hfollows p call haccepts
  · intro hagrees honLadder
    refine Machine.forall_step_iff_along
      (fun (p : Pipeline E) => p.Agrees active ∧ p.directive.OnLadder)
      (fun (p : Pipeline E) (call : TelemetryCall active) =>
        (p.applyTelemetry enc call.factory call.view call.nowMs).1 = .ok () ∧
        (p.telemetryStep enc call).Agrees active) ?_ ?_ ⟨hagrees, honLadder⟩ calls
    · rintro p call ⟨hagrees, honLadder⟩ ⟨haccepts, hkeeps⟩
      refine ⟨(Pipeline.agrees_next_iff hfollows hagrees honLadder call haccepts).2 hkeeps, ?_⟩
      rw [Pipeline.directive_telemetryStep]
      exact p.next_onLadder call
    · rintro p call ⟨hagrees, honLadder⟩
      rw [Pipeline.applyTelemetry_eq_ok_iff]
      exact and_congr_right fun haccepts =>
        Pipeline.agrees_next_iff hfollows hagrees honLadder call haccepts

namespace Sample

/-- A pipeline whose base configuration is that of the first directive. -/
def matched : Pipeline RecordingEncoder :=
  ⟨⟨{ width := 64, height := 64, fps := 60, temporalLayers := 3 }, 0, 4000000, none, true, none,
    0⟩, .new, {}, 64, 64, RateController.new.current, none, {}⟩

/-- Telemetry for the synthetic backend. -/
def telemetry (rung : LadderRung) (honLadder : rung ∈ LADDER) (budgetBps nowMs : ℕ) :
    TelemetryCall RecordingEncoder.active where
  factory := RecordingEncoder.new
  view := ⟨rung, budgetBps, false⟩
  nowMs := nowMs
  onLadder := honLadder
  builds _ _ := RecordingEncoder.active_new

/-- The link is good, and then it collapses to half the size. -/
def goodThenCollapsed : List (TelemetryCall RecordingEncoder.active) :=
  [telemetry ⟨1, 60, 100, 3, false⟩ (by decide) 4250000 0,
    telemetry ⟨5, 12, 50, 1, false⟩ (by decide) 340000 3000]

theorem matched_agrees : matched.Agrees RecordingEncoder.active :=
  ⟨rfl, rfl, rfl, 100, near_self 100, rfl⟩

end Sample

/-- The first call keeps the layers and the second one builds a new encoder. -/
theorem settings_follow_directive_sample :
    (Machine.run (Pipeline.telemetryStep RecordingEncoder.encoder) Sample.matched
      Sample.goodThenCollapsed).Agrees RecordingEncoder.active :=
  (((settings_follow_directive_iff RecordingEncoder.follows Sample.matched
    Sample.goodThenCollapsed).2 Sample.matched_agrees ⟨⟨0, 60, 100, 3, false⟩, by decide, rfl⟩).2
      ⟨⟨Pipeline.applyTelemetry_eq_ok_iff.1 (by decide), .inr rfl⟩,
        ⟨Pipeline.applyTelemetry_eq_ok_iff.1 (by decide),
          .inl ⟨by decide, by decide⟩⟩, trivial⟩
      [Sample.goodThenCollapsed.head (by decide)] _ (List.prefix_refl _)).2

/-- From a pipeline where encoder and directive agree, a fall to 30 frames a second is accepted and
leaves the encoder with three temporal layers, where the directive says two. -/
theorem layers_left_behind :
    Pipeline.new RecordingEncoder.new 64 64
        { width := 64, height := 64, fps := 60, temporalLayers := 3 } = .ok Sample.matched ∧
      Sample.matched.Agrees RecordingEncoder.active ∧
      (⟨2, 30, 100, 2, false⟩ : LadderRung) ∈ LADDER ∧
      (Sample.matched.applyTelemetry RecordingEncoder.encoder RecordingEncoder.new
        ⟨⟨2, 30, 100, 2, false⟩, 2125000, false⟩ 3000).1 = .ok () ∧
      ¬ (Sample.matched.applyTelemetry RecordingEncoder.encoder RecordingEncoder.new
        ⟨⟨2, 30, 100, 2, false⟩, 2125000, false⟩ 3000).2.Agrees RecordingEncoder.active := by
  refine ⟨rfl, Sample.matched_agrees, by decide, by decide, ?_⟩
  intro h
  have hlayers := h.temporalLayers
  revert hlayers
  decide

end Rda
