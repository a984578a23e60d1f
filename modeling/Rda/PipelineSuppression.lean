/-
**Requests that are suppressed.**

A recovery request that comes within a second of the last keyframe decision is suppressed: the
keyframe that is on its way will do for it as well.  The rate controller starts the second when it
decides, before the request is handed to the encoder.  An encoder that refuses the request, or one
that is replaced after it took it, leaves the second running with no keyframe asked for.

The run below makes any calls in any order and remembers when the current encoder last took a
request for a keyframe.

Main definitions:

* `Rda.Handed`, `Rda.Handed.step` — a pipeline with the time at which its encoder took a request for
  a keyframe;
* `Rda.Pipeline.DecidesIdr` — a call that decides for a keyframe;
* `Rda.Handed.Covered` — a suppressed request that a keyframe covers;
* `Rda.Handed.Backed` — a request that comes after the current encoder took the last keyframe
  request.

Main results:

* `Rda.Handed.inv_step` — what the encoder took is the last decision, or a second older;
* `Rda.suppressed_covered_iff` — **the runs in which suppressed means covered**.
-/

import Rda.PipelineReferences

set_option relaxedAutoImplicit false
set_option autoImplicit false

namespace Rda

variable {E : Type}

/-- The request names no reference that is known to be acknowledged. -/
def RateController.NoReference (rate : RateController) (receiverLtr : Option UInt8) : Prop :=
  ∀ index, receiverLtr = some index → rate.ackedLtr ≠ some index

namespace Pipeline

/-- The call decides for a keyframe at this time, taken or not. -/
def DecidesIdr (p : Pipeline E) (call : PipelineCall E) (nowMs : ℕ) : Prop :=
  ∃ receiverLtr, call = .onRecoveryRequest receiverLtr nowMs ∧
    (p.rate.onRecoveryRequest receiverLtr nowMs).1 = .idr

end Pipeline

/-! ### Runs with the requests of the current encoder -/

/-- A pipeline with the time at which its current encoder last took a request for a keyframe. -/
structure Handed (E : Type) where
  pipeline : Pipeline E
  taken : Option ℕ

namespace Handed

/-- One call.  What was asked of an encoder goes with it. -/
def step (enc : VideoEncoder E) (h : Handed E) : PipelineCall E → Handed E
  | .onLtrAcked index => ⟨h.pipeline.onLtrAcked index, h.taken⟩
  | .onRecoveryRequest receiverLtr nowMs =>
      let o := h.pipeline.onRecoveryRequest enc receiverLtr nowMs
      ⟨o.2, match o.1 with
        | .ok .idr => some nowMs
        | _ => h.taken⟩
  | .applyTelemetry factory view nowMs =>
      let p := (h.pipeline.applyTelemetry enc factory view nowMs).2
      ⟨p, if p.stats.rebuilds = h.pipeline.stats.rebuilds then h.taken else none⟩
  | .step frame nowMs => ⟨(h.pipeline.step enc frame nowMs).2, h.taken⟩

/-- If the call is answered `suppressed`, then the current encoder has taken a request for a
keyframe less than the interval ago. -/
def Covered (enc : VideoEncoder E) (h : Handed E) (call : PipelineCall E) : Prop :=
  ∀ receiverLtr nowMs, call = .onRecoveryRequest receiverLtr nowMs →
    (h.pipeline.onRecoveryRequest enc receiverLtr nowMs).1 = .ok .suppressed →
      ∃ t, h.taken = some t ∧ t ≤ nowMs ∧ nowMs < t + IDR_MIN_INTERVAL_MS

/-- A request without a reference that comes within the interval after the last keyframe decision
finds that the current encoder has taken the request of that decision. -/
def Backed (h : Handed E) : PipelineCall E → Prop
  | .onRecoveryRequest receiverLtr nowMs => h.pipeline.rate.NoReference receiverLtr →
      ∀ last ∈ h.pipeline.rate.lastIdrMs, nowMs < last + IDR_MIN_INTERVAL_MS → h.taken = some last
  | _ => True

/-- What the encoder took is the last keyframe decision, or at least the interval older. -/
def Inv (h : Handed E) : Prop :=
  ∀ t, h.taken = some t → ∃ last, h.pipeline.rate.lastIdrMs = some last ∧
    (t = last ∨ t + IDR_MIN_INTERVAL_MS ≤ last)

/-- The last keyframe decision of the one is not later than that of the other. -/
def Later (h h' : Handed E) : Prop :=
  ∀ last, h.pipeline.rate.lastIdrMs = some last →
    ∃ last', h'.pipeline.rate.lastIdrMs = some last' ∧ last ≤ last'

end Handed

/-! ### Decisions -/

namespace RateController

/-- A keyframe is decided for only when the last one is an interval ago, and starts the next
interval. -/
theorem of_idr {rate : RateController} {receiverLtr : Option UInt8} {nowMs : ℕ}
    (h : (rate.onRecoveryRequest receiverLtr nowMs).1 = .idr) :
    rate.limited nowMs = false ∧
      (rate.onRecoveryRequest receiverLtr nowMs).2.lastIdrMs = some nowMs := by
  rcases rate.onRecoveryRequest_cases receiverLtr nowMs with
    ⟨index, -, -, heq⟩ | ⟨-, heq⟩ | ⟨hlimited, heq⟩
  · rw [heq] at h
    cases h
  · rw [heq] at h
    cases h
  · exact ⟨hlimited, by rw [heq]⟩

/-- Another decision leaves the interval alone. -/
theorem lastIdrMs_of_not_idr {rate : RateController} {receiverLtr : Option UInt8} {nowMs : ℕ}
    (h : (rate.onRecoveryRequest receiverLtr nowMs).1 ≠ .idr) :
    (rate.onRecoveryRequest receiverLtr nowMs).2.lastIdrMs = rate.lastIdrMs := by
  rcases rate.onRecoveryRequest_cases receiverLtr nowMs with
    ⟨index, -, -, heq⟩ | ⟨-, heq⟩ | ⟨-, heq⟩
  · rw [heq]
  · rw [heq]
  · rw [heq] at h
    exact absurd rfl h

theorem limited_iff {rate : RateController} {nowMs : ℕ} :
    rate.limited nowMs = true ↔
      ∃ last, rate.lastIdrMs = some last ∧ nowMs < last + IDR_MIN_INTERVAL_MS := by
  have hpos : 0 < IDR_MIN_INTERVAL_MS := by decide
  unfold limited
  cases rate.lastIdrMs with
  | none => simp
  | some last =>
      simp only [decide_eq_true_eq, Option.some.injEq, exists_eq_left']
      omega

/-- A request is suppressed exactly when it names no acknowledged reference and the last keyframe
decision is too recent. -/
theorem suppressed_iff {rate : RateController} {receiverLtr : Option UInt8} {nowMs : ℕ} :
    (rate.onRecoveryRequest receiverLtr nowMs).1 = .suppressed ↔
      rate.NoReference receiverLtr ∧ rate.limited nowMs = true := by
  rcases rate.onRecoveryRequest_cases receiverLtr nowMs with
    ⟨index, hnamed, hacked, heq⟩ | ⟨hlimited, heq⟩ | ⟨hlimited, heq⟩
  · rw [heq]
    exact iff_of_false (by simp) fun h => h.1 index hnamed hacked
  · refine iff_of_true (by rw [heq]) ⟨?_, hlimited⟩
    rintro index rfl hacked
    simp [onRecoveryRequest, hacked] at heq
  · rw [heq, hlimited]
    exact iff_of_false (by simp) fun h => Bool.false_ne_true h.2

end RateController

namespace Pipeline

variable {enc : VideoEncoder E} {p : Pipeline E} {receiverLtr : Option UInt8} {nowMs : ℕ}

/-- A request is answered `suppressed` exactly when that is decided; the encoder is not asked. -/
theorem onRecoveryRequest_suppressed_iff :
    (p.onRecoveryRequest enc receiverLtr nowMs).1 = .ok .suppressed ↔
      (p.rate.onRecoveryRequest receiverLtr nowMs).1 = .suppressed := by
  unfold onRecoveryRequest
  rcases p.rate.onRecoveryRequest receiverLtr nowMs with ⟨decision, rate⟩
  cases decision with
  | recover mode => simp [request_eq_ok_iff]
  | idr => simp [request_eq_ok_iff]
  | suppressed => exact iff_of_true rfl rfl

/-- A request is answered by a keyframe only if that is decided. -/
theorem decided_of_onRecoveryRequest_idr
    (h : (p.onRecoveryRequest enc receiverLtr nowMs).1 = .ok .idr) :
    (p.rate.onRecoveryRequest receiverLtr nowMs).1 = .idr := by
  revert h
  unfold onRecoveryRequest
  rcases p.rate.onRecoveryRequest receiverLtr nowMs with ⟨decision, rate⟩
  intro h
  cases decision with
  | recover mode => cases (request_eq_ok_iff.1 h).2
  | idr => rfl
  | suppressed => simp at h

end Pipeline

/-! ### What one call does -/

namespace Handed

variable {enc : VideoEncoder E}

/-- What one call does to the interval: nothing, or it starts it, with the request taken or not. -/
theorem step_cases (enc : VideoEncoder E) (h : Handed E) (call : PipelineCall E) :
    ((h.step enc call).pipeline.rate.lastIdrMs = h.pipeline.rate.lastIdrMs ∧
        ((h.step enc call).taken = h.taken ∨ (h.step enc call).taken = none)) ∨
      ∃ nowMs, h.pipeline.DecidesIdr call nowMs ∧ h.pipeline.rate.limited nowMs = false ∧
        (h.step enc call).pipeline.rate.lastIdrMs = some nowMs ∧
        ((h.step enc call).taken = some nowMs ∨ (h.step enc call).taken = h.taken) := by
  cases call with
  | onLtrAcked index => exact .inl ⟨rfl, .inl rfl⟩
  | onRecoveryRequest receiverLtr nowMs =>
      have hrate := Pipeline.rate_onRecoveryRequest enc h.pipeline receiverLtr nowMs
      by_cases hidr : (h.pipeline.rate.onRecoveryRequest receiverLtr nowMs).1 = .idr
      · obtain ⟨hlimited, hlast⟩ := RateController.of_idr hidr
        refine .inr ⟨nowMs, ⟨receiverLtr, rfl, hidr⟩, hlimited, ?_, ?_⟩
        · simp only [step, hrate, hlast]
        · simp only [step]
          split
          · exact .inl rfl
          · exact .inr rfl
      · refine .inl ⟨?_, .inl ?_⟩
        · simp only [step, hrate, RateController.lastIdrMs_of_not_idr hidr]
        · simp only [step]
          split
          · rename_i hok
            exact absurd (Pipeline.decided_of_onRecoveryRequest_idr hok) hidr
          · rfl
  | applyTelemetry factory view nowMs =>
      refine .inl ⟨?_, ?_⟩
      · simp only [step]
        rw [(Pipeline.rate_applyTelemetry factory h.pipeline view nowMs).1]
        rfl
      · simp only [step]
        split_ifs
        · exact .inl rfl
        · exact .inr rfl
  | step frame nowMs =>
      refine .inl ⟨?_, .inl rfl⟩
      simp only [step, Pipeline.rate_step]

theorem le_of_not_limited {rate : RateController} {last nowMs : ℕ}
    (h : rate.limited nowMs = false) (hlast : rate.lastIdrMs = some last) :
    last + IDR_MIN_INTERVAL_MS ≤ nowMs := by
  by_contra hn
  rw [RateController.limited_iff.2 ⟨last, hlast, by omega⟩] at h
  cases h

theorem inv_step {h : Handed E} (hinv : h.Inv) (call : PipelineCall E) :
    (h.step enc call).Inv := by
  intro t ht
  rcases h.step_cases enc call with ⟨hlast, htaken⟩ | ⟨nowMs, -, hlimited, hlast, htaken⟩
  · rw [hlast]
    rcases htaken with htaken | htaken
    · exact hinv t (htaken.symm.trans ht)
    · rw [htaken] at ht
      cases ht
  · refine ⟨nowMs, hlast, ?_⟩
    rcases htaken with htaken | htaken
    · rw [htaken] at ht
      cases ht
      exact .inl rfl
    · -- A request that was not taken leaves an older one behind.
      obtain ⟨last, hold, hle⟩ := hinv t (htaken.symm.trans ht)
      have hge := le_of_not_limited hlimited hold
      refine .inr ?_
      omega

variable (enc) in
theorem later_step (h : Handed E) (call : PipelineCall E) : h.Later (h.step enc call) := by
  intro last hlast
  rcases h.step_cases enc call with ⟨hsame, -⟩ | ⟨nowMs, -, hlimited, hnow, -⟩
  · exact ⟨last, hsame.trans hlast, le_rfl⟩
  · have hge := le_of_not_limited hlimited hlast
    exact ⟨nowMs, hnow, by omega⟩

variable (enc) in
theorem later_run (h : Handed E) (calls : List (PipelineCall E)) :
    h.Later (Machine.run (step enc) h calls) := by
  refine Machine.run_relates (fun h last hlast => ⟨last, hlast, le_rfl⟩) ?_
    (fun (_ : Handed E) _ (_ : True) => trivial) (fun h call _ => later_step enc h call) trivial
    calls
  intro h₁ h₂ h₃ h₁₂ h₂₃ last hlast
  obtain ⟨last', hlast', hle⟩ := h₁₂ last hlast
  obtain ⟨last'', hlast'', hle'⟩ := h₂₃ last' hlast'
  exact ⟨last'', hlast'', hle.trans hle'⟩

/-- One call is covered exactly when it is backed, if no keyframe has been decided for later than
the call is made. -/
theorem covered_iff_backed {h : Handed E} (hinv : h.Inv) {call : PipelineCall E}
    (htimes : ∀ receiverLtr nowMs, call = .onRecoveryRequest receiverLtr nowMs →
      ∀ last, h.pipeline.rate.lastIdrMs = some last → last ≤ nowMs) :
    h.Covered enc call ↔ h.Backed call := by
  cases call with
  | onRecoveryRequest receiverLtr nowMs =>
      constructor
      · intro hcovered hreference last hlast hrecent
        have hsuppressed := RateController.suppressed_iff.2
          ⟨hreference, RateController.limited_iff.2 ⟨last, hlast, hrecent⟩⟩
        obtain ⟨t, htaken, -, ht⟩ := hcovered receiverLtr nowMs rfl
          (Pipeline.onRecoveryRequest_suppressed_iff.2 hsuppressed)
        obtain ⟨last', hlast', hle⟩ := hinv t htaken
        have hnow := htimes receiverLtr nowMs rfl last hlast
        obtain rfl : last = last' := Option.some.inj (hlast.symm.trans hlast')
        rcases hle with rfl | hle
        · exact htaken
        · omega
      · rintro hbacked receiverLtr' nowMs' hcall hok
        cases hcall
        obtain ⟨hreference, hlimited⟩ := RateController.suppressed_iff.1
          (Pipeline.onRecoveryRequest_suppressed_iff.1 hok)
        obtain ⟨last, hlast, hrecent⟩ := RateController.limited_iff.1 hlimited
        exact ⟨last, hbacked hreference last hlast hrecent,
          htimes receiverLtr nowMs rfl last hlast, hrecent⟩
  | onLtrAcked | applyTelemetry | step =>
      refine iff_of_true ?_ trivial
      rintro receiverLtr nowMs hcall
      cases hcall

end Handed

/-! ### Times -/

/-- When a recovery request is made. -/
def PipelineCall.requestMs : PipelineCall E → Option ℕ
  | .onRecoveryRequest _ nowMs => some nowMs
  | _ => none

namespace Handed

variable {enc : VideoEncoder E}

/-- The last keyframe decision of a run from a pipeline without one was made at a request of the
run. -/
theorem lastIdrMs_mem {p : Pipeline E} (hp : p.rate.lastIdrMs = none)
    (calls : List (PipelineCall E)) :
    ∀ last, (Machine.run (step enc) ⟨p, none⟩ calls).pipeline.rate.lastIdrMs = some last →
      last ∈ calls.filterMap PipelineCall.requestMs := by
  refine Machine.run_history (fun calls (h : Handed E) => ∀ last,
    h.pipeline.rate.lastIdrMs = some last → last ∈ calls.filterMap PipelineCall.requestMs) ?_ ?_
    calls
  · intro last hlast
    rw [hp] at hlast
    cases hlast
  · intro calls call ih last hlast
    rw [List.filterMap_append, List.mem_append]
    rcases step_cases enc (Machine.run (step enc) ⟨p, none⟩ calls) call with
      ⟨hsame, -⟩ | ⟨nowMs, ⟨receiverLtr, rfl, -⟩, -, hnow, -⟩
    · exact .inl (ih last (hsame.symm.trans hlast))
    · obtain rfl : nowMs = last := Option.some.inj (hnow.symm.trans hlast)
      exact .inr (by simp [PipelineCall.requestMs])

/-- Two keyframe decisions of a run are at least the interval apart. -/
theorem decisions_apart {h : Handed E} {first second : PipelineCall E}
    {between : List (PipelineCall E)} {nowMs nowMs' : ℕ}
    (hfirst : h.pipeline.DecidesIdr first nowMs)
    (hsecond : (Machine.run (step enc) h (first :: between)).pipeline.DecidesIdr second nowMs') :
    nowMs + IDR_MIN_INTERVAL_MS ≤ nowMs' := by
  obtain ⟨receiverLtr, rfl, hidr⟩ := hfirst
  obtain ⟨receiverLtr', rfl, hidr'⟩ := hsecond
  have hlast : (h.step enc (.onRecoveryRequest receiverLtr nowMs)).pipeline.rate.lastIdrMs =
      some nowMs := by
    simp only [step, Pipeline.rate_onRecoveryRequest, (RateController.of_idr hidr).2]
  -- The first decision stays the last one or gives way to a later one.
  obtain ⟨last, hlast', hle⟩ := later_run enc _ between nowMs hlast
  have hge := le_of_not_limited (RateController.of_idr hidr').1 hlast'
  omega

end Handed

open Handed in
/-- **The runs in which suppressed means covered.**  In every run of calls on a new pipeline in
which the recovery requests come at non-decreasing times, any two keyframe decisions are at least
the interval apart and every suppressed request comes less than the interval after the current
encoder took a request for a keyframe, exactly when every request without a reference that comes
less than the interval after the last keyframe decision finds that the current encoder has taken the
request of that decision. -/
theorem suppressed_covered_iff (enc : VideoEncoder E) {factory : EncoderFactory E}
    {nativeWidth nativeHeight : ℕ} {base : EncoderConfig} {p : Pipeline E}
    (hnew : Pipeline.new factory nativeWidth nativeHeight base = .ok p)
    {calls : List (PipelineCall E)}
    (htimes : (calls.filterMap PipelineCall.requestMs).Pairwise (· ≤ ·)) :
    ((∀ past first between second, past ++ first :: (between ++ [second]) <+: calls →
        ∀ nowMs nowMs', (Machine.run (step enc) ⟨p, none⟩ past).pipeline.DecidesIdr first nowMs →
          (Machine.run (step enc) ⟨p, none⟩ (past ++ first :: between)).pipeline.DecidesIdr second
            nowMs' → nowMs + IDR_MIN_INTERVAL_MS ≤ nowMs') ∧
      ∀ past call, past ++ [call] <+: calls →
        (Machine.run (step enc) ⟨p, none⟩ past).Covered enc call) ↔
      Machine.Along (step enc) Backed ⟨p, none⟩ calls := by
  have hp : p.rate.lastIdrMs = none := by
    unfold Pipeline.new at hnew
    cases hf : factory base with
    | error e => simp [hf] at hnew
    | ok encoder =>
        simp only [hf, Except.ok.injEq] at hnew
        rw [← hnew]
        rfl
  have hinv : ∀ past, (Machine.run (step enc) ⟨p, none⟩ past).Inv :=
    fun past => Machine.run_invariant Inv (fun h call hinv => inv_step hinv call)
      (by rintro t ⟨⟩) past
  -- Call by call, covered is the same as backed.
  have hcall : ∀ past call, past ++ [call] <+: calls →
      ((Machine.run (step enc) ⟨p, none⟩ past).Covered enc call ↔
        (Machine.run (step enc) ⟨p, none⟩ past).Backed call) := by
    intro past call hprefix
    refine covered_iff_backed (hinv past) ?_
    rintro receiverLtr nowMs rfl last hlast
    have hpast := lastIdrMs_mem hp past last hlast
    obtain ⟨rest, rfl⟩ := hprefix
    rw [List.append_assoc, List.filterMap_append] at htimes
    exact (List.pairwise_append.1 htimes).2.2 last hpast nowMs (by simp [PipelineCall.requestMs])
  rw [← Machine.forall_step_iff_along (fun _ => True) Backed (fun _ _ _ _ => trivial)
    (fun _ _ _ => Iff.rfl) trivial calls]
  constructor
  · rintro ⟨-, hcovered⟩ past call hprefix
    exact (hcall past call hprefix).1 (hcovered past call hprefix)
  · intro hbacked
    refine ⟨?_, fun past call hprefix => (hcall past call hprefix).2 (hbacked past call hprefix)⟩
    intro past first between second _ nowMs nowMs' hfirst hsecond
    rw [Machine.run_append] at hsecond
    exact decisions_apart hfirst hsecond

namespace Sample

/-- The synthetic backend, too busy to take a request. -/
def busyEncoder : VideoEncoder RecordingEncoder :=
  { RecordingEncoder.encoder with requestRecovery := fun e _ => (.error (.unavailable "busy"), e) }

/-- A first request, which the encoder refuses. -/
def refused : Handed RecordingEncoder :=
  Machine.run (Handed.step busyEncoder) ⟨squarePipeline, none⟩ [.onRecoveryRequest none 0]

/-- A first request, which an encoder takes that is then replaced. -/
def replaced : Handed RecordingEncoder :=
  Machine.run (Handed.step RecordingEncoder.encoder) ⟨squarePipeline, none⟩
    [.onRecoveryRequest none 2950, .applyTelemetry RecordingEncoder.new collapsed 3000]

end Sample

open Handed in
theorem suppressed_covered_sample :
    (∀ past first between second, past ++ first :: (between ++ [second]) <+:
          [PipelineCall.onRecoveryRequest none 0, .onRecoveryRequest none 400] →
        ∀ nowMs nowMs', (Machine.run (step RecordingEncoder.encoder)
            ⟨Sample.squarePipeline, none⟩ past).pipeline.DecidesIdr first nowMs →
          (Machine.run (step RecordingEncoder.encoder) ⟨Sample.squarePipeline, none⟩
              (past ++ first :: between)).pipeline.DecidesIdr second nowMs' →
            nowMs + IDR_MIN_INTERVAL_MS ≤ nowMs') ∧
      ∀ past call, past ++ [call] <+:
          [PipelineCall.onRecoveryRequest none 0, .onRecoveryRequest none 400] →
        (Machine.run (step RecordingEncoder.encoder) ⟨Sample.squarePipeline, none⟩ past).Covered
          RecordingEncoder.encoder call := by
  have hnew : Pipeline.new RecordingEncoder.new 64 64 { width := 64, height := 64, fps := 60 } =
      .ok Sample.squarePipeline := rfl
  refine (suppressed_covered_iff RecordingEncoder.encoder hnew (by decide)).2 ⟨?_, ?_, trivial⟩
  · rintro - last hlast
    cases hlast
  · rintro - last hlast -
    cases hlast
    rfl

/-- The encoder refuses the request of the first decision, and the second request is suppressed with
no keyframe asked for.  The same happens with an encoder that takes the request and is replaced. -/
theorem suppressed_without_keyframe :
    Pipeline.new RecordingEncoder.new 64 64 { width := 64, height := 64, fps := 60 }
        = .ok Sample.squarePipeline ∧
      (Sample.refused.pipeline.onRecoveryRequest Sample.busyEncoder none 100).1
        = .ok .suppressed ∧
      ¬ Sample.refused.Covered Sample.busyEncoder (.onRecoveryRequest none 100) ∧
      (Sample.replaced.pipeline.onRecoveryRequest RecordingEncoder.encoder none 3100).1
        = .ok .suppressed ∧
      ¬ Sample.replaced.Covered RecordingEncoder.encoder (.onRecoveryRequest none 3100) := by
  have hrefused : (Sample.refused.pipeline.onRecoveryRequest Sample.busyEncoder none 100).1
      = .ok .suppressed := by decide
  have hreplaced : (Sample.replaced.pipeline.onRecoveryRequest RecordingEncoder.encoder none 3100).1
      = .ok .suppressed := by decide
  have hnone : Sample.refused.taken = none ∧ Sample.replaced.taken = none := by decide
  refine ⟨rfl, hrefused, fun hcovered => ?_, hreplaced, fun hcovered => ?_⟩
  · obtain ⟨t, htaken, -⟩ := hcovered none 100 rfl hrefused
    rw [hnone.1] at htaken
    cases htaken
  · obtain ⟨t, htaken, -⟩ := hcovered none 3100 rfl hreplaced
    rw [hnone.2] at htaken
    cases htaken

end Rda
