/-
**The last change on the screen.**

Frames go from the capture thread through the slot into the pipeline, one a turn of the stream loop.
Each of the three drops frames: the capture thread those in which nothing has changed, the slot
those that were overtaken, the pipeline those that come too early and those that fail.  While the
screen keeps changing a dropped frame is made up for by the next one.  The last change has no next
one: it is taken from the slot once, and what becomes of it then is what the viewer keeps seeing.

Main definitions:

* `Rda.Screencast`, `Rda.Screencast.step` — the slot, the pipeline and the frame that was encoded
  last;
* `Rda.Screencast.Event.Static`, `Rda.Screencast.Event.Waits` — events that publish no frame, and
  those that do not read the slot either;
* `Rda.Screencast.Shows` — the last picture that was encoded is that of a frame.

Main results:

* `Rda.Screencast.run_of_waits`, `Rda.Screencast.run_of_static` — nothing reaches the encoder while
  nobody reads the slot, and nothing does from an empty slot;
* `Rda.Screencast.shows_turn_iff` — the turn that takes the last frame decides;
* `Rda.last_change_shown_iff` — **the runs that show the last change**.
-/

import Rda.PipelineRecovery

set_option relaxedAutoImplicit false
set_option autoImplicit false

namespace Rda

/-- The slot, the pipeline and the frame that was encoded last. -/
structure Screencast (E : Type) where
  slot : FrameSlot
  pipeline : Pipeline E
  shown : Option Frame

namespace Screencast

variable {E : Type}

/-- What can happen. -/
inductive Event (E : Type)
  /-- The capture thread has a frame. -/
  | capture (frame : Frame)
  /-- The viewer acknowledges a reference. -/
  | onLtrAcked (index : UInt8)
  /-- The viewer asks for recovery. -/
  | onRecoveryRequest (receiverLtr : Option UInt8) (nowMs : ℕ)
  /-- A turn of the stream loop: telemetry is applied and the slot is read. -/
  | turn (factory : EncoderFactory E) (view : LinkView) (nowMs : ℕ)

variable (enc : VideoEncoder E)

/-- A turn of the stream loop.  A frame that the pipeline drops or refuses is gone, and so is one
that the encoder takes without emitting anything. -/
def turn (s : Screencast E) (factory : EncoderFactory E) (view : LinkView) (nowMs : ℕ) :
    Screencast E :=
  let p := (s.pipeline.applyTelemetry enc factory view nowMs).2
  match s.slot.tryRecv with
  | (none, slot) => { s with slot := slot, pipeline := p }
  | (some frame, slot) =>
      let o := p.step enc frame nowMs
      { slot := slot
        pipeline := o.2
        shown := match o.1 with
          | .ok (.encoded (_ :: _)) => some frame
          | _ => s.shown }

/-- One event. -/
def step (s : Screencast E) : Event E → Screencast E
  | .capture frame => { s with slot := s.slot.capture frame }
  | .onLtrAcked index => { s with pipeline := s.pipeline.onLtrAcked index }
  | .onRecoveryRequest receiverLtr nowMs =>
      { s with pipeline := (s.pipeline.onRecoveryRequest enc receiverLtr nowMs).2 }
  | .turn factory view nowMs => s.turn enc factory view nowMs

/-- The event publishes no frame. -/
def Event.Static : Event E → Prop
  | .capture frame => frame.isWorthEncoding = false
  | _ => True

/-- The event publishes no frame and does not read the slot. -/
def Event.Waits : Event E → Prop
  | .capture frame => frame.isWorthEncoding = false
  | .turn .. => False
  | _ => True

/-- The last picture that was encoded is that of the frame. -/
def Shows (s : Screencast E) (frame : Frame) : Prop :=
  ∃ shown, s.shown = some shown ∧ shown.SamePicture frame

/-- While nothing is published and nobody reads the slot, the slot and the last picture stay. -/
theorem step_of_waits {e : Event E} (h : e.Waits) (s : Screencast E) :
    (s.step enc e).slot = s.slot ∧ (s.step enc e).shown = s.shown := by
  cases e with
  | capture frame => exact ⟨FrameSlot.capture_of_unchanged h s.slot, rfl⟩
  | onLtrAcked index => exact ⟨rfl, rfl⟩
  | onRecoveryRequest receiverLtr nowMs => exact ⟨rfl, rfl⟩
  | turn factory view nowMs => exact h.elim

theorem run_of_waits {es : List (Event E)} (h : ∀ e ∈ es, e.Waits) (s : Screencast E) :
    (Machine.run (step enc) s es).slot = s.slot ∧
      (Machine.run (step enc) s es).shown = s.shown := by
  induction es generalizing s with
  | nil => exact ⟨rfl, rfl⟩
  | cons e es ih =>
      obtain ⟨hslot, hshown⟩ := step_of_waits enc (h e List.mem_cons_self) s
      obtain ⟨hslot', hshown'⟩ := ih (fun e' h' => h e' (List.mem_cons_of_mem _ h')) (s.step enc e)
      exact ⟨hslot'.trans hslot, hshown'.trans hshown⟩

/-- A turn that finds the slot empty encodes nothing. -/
theorem turn_of_empty {s : Screencast E} (h : s.slot.slot = none) (factory : EncoderFactory E)
    (view : LinkView) (nowMs : ℕ) :
    (s.turn enc factory view nowMs).slot.slot = none ∧
      (s.turn enc factory view nowMs).shown = s.shown := by
  simp only [turn, FrameSlot.tryRecv, h, and_self]

/-- From an empty slot nothing reaches the encoder until a frame is published. -/
theorem run_of_static {es : List (Event E)} (h : ∀ e ∈ es, e.Static) {s : Screencast E}
    (hempty : s.slot.slot = none) :
    (Machine.run (step enc) s es).slot.slot = none ∧
      (Machine.run (step enc) s es).shown = s.shown := by
  induction es generalizing s with
  | nil => exact ⟨hempty, rfl⟩
  | cons e es ih =>
      have hhead : (s.step enc e).slot.slot = none ∧ (s.step enc e).shown = s.shown := by
        have he := h e List.mem_cons_self
        cases e with
        | capture frame =>
            refine ⟨?_, rfl⟩
            rw [step, FrameSlot.capture_of_unchanged he]
            exact hempty
        | onLtrAcked index => exact ⟨hempty, rfl⟩
        | onRecoveryRequest receiverLtr nowMs => exact ⟨hempty, rfl⟩
        | turn factory view nowMs => exact turn_of_empty enc hempty factory view nowMs
      obtain ⟨hempty', hshown⟩ := ih (fun e' h' => h e' (List.mem_cons_of_mem _ h')) hhead.1
      exact ⟨hempty', hshown.trans hhead.2⟩

/-- The turn that takes a frame shows it if the pipeline encodes it to something, and otherwise
leaves the last picture as it was. -/
theorem turn_of_full {s : Screencast E} {frame : Frame} (h : s.slot.slot = some frame)
    (factory : EncoderFactory E) (view : LinkView) (nowMs : ℕ) :
    (s.turn enc factory view nowMs).slot.slot = none ∧
      ((∃ frames, (s.pipeline.applyTelemetry enc factory view nowMs).2.Encodes enc frame nowMs
          frames ∧ frames ≠ []) ∧ (s.turn enc factory view nowMs).shown = some frame ∨
        (¬ ∃ frames, (s.pipeline.applyTelemetry enc factory view nowMs).2.Encodes enc frame nowMs
          frames ∧ frames ≠ []) ∧ (s.turn enc factory view nowMs).shown = s.shown) := by
  simp only [turn, FrameSlot.tryRecv, h, true_and]
  by_cases hencodes : ∃ frames,
      (s.pipeline.applyTelemetry enc factory view nowMs).2.Encodes enc frame nowMs frames ∧
        frames ≠ []
  · obtain ⟨frames, hframes, hne⟩ := hencodes
    refine .inl ⟨⟨frames, hframes, hne⟩, ?_⟩
    rw [Pipeline.step_encoded_iff.2 hframes]
    cases frames with
    | nil => exact absurd rfl hne
    | cons first frames => rfl
  · refine .inr ⟨hencodes, ?_⟩
    split
    · rename_i first frames hok
      exact absurd ⟨_, Pipeline.step_encoded_iff.1 hok, List.cons_ne_nil first frames⟩ hencodes
    · rfl

/-- Events that publish no frame do not read the slot, or there is a first turn that does. -/
theorem waits_or_turn {es : List (Event E)} (h : ∀ e ∈ es, e.Static) :
    (∀ e ∈ es, e.Waits) ∨ ∃ waiting factory view nowMs rest,
      es = waiting ++ .turn factory view nowMs :: rest ∧ ∀ e ∈ waiting, e.Waits := by
  induction es with
  | nil => exact .inl fun e he => absurd he List.not_mem_nil
  | cons e es ih =>
      have hwaits : e.Waits ∨ ∃ factory view nowMs, e = .turn factory view nowMs := by
        cases e with
        | turn factory view nowMs => exact .inr ⟨factory, view, nowMs, rfl⟩
        | capture frame => exact .inl (h _ List.mem_cons_self)
        | _ => exact .inl trivial
      rcases hwaits with he | ⟨factory, view, nowMs, rfl⟩
      · rcases ih (fun e' he' => h e' (List.mem_cons_of_mem _ he')) with
          hall | ⟨waiting, factory, view, nowMs, rest, rfl, hwaiting⟩
        · exact .inl (List.forall_mem_cons.2 ⟨he, hall⟩)
        · exact .inr ⟨e :: waiting, factory, view, nowMs, rest, rfl,
            List.forall_mem_cons.2 ⟨he, hwaiting⟩⟩
      · exact .inr ⟨[], factory, view, nowMs, es, rfl,
          fun e he => absurd he List.not_mem_nil⟩

/-- The first turn that reads the slot finds the last frame there; if nothing comes out for it then,
it is gone, and the picture of before stays. -/
theorem shows_turn_iff {s : Screencast E} {last : Frame} (hslot : s.slot.slot = some last)
    (factory : EncoderFactory E) (view : LinkView) (nowMs : ℕ) {rest : List (Event E)}
    (hrest : ∀ e ∈ rest, e.Static) :
    (Machine.run (step enc) s (.turn factory view nowMs :: rest)).Shows last ↔
      s.Shows last ∨ ∃ frames,
        (s.pipeline.applyTelemetry enc factory view nowMs).2.Encodes enc last nowMs frames ∧
          frames ≠ [] := by
  obtain ⟨hempty, hturn⟩ := turn_of_full enc hslot factory view nowMs
  have hshown := (run_of_static enc hrest hempty).2
  rw [Machine.run_cons, step, Shows, hshown]
  rcases hturn with ⟨hencodes, hnew⟩ | ⟨hdropped, hold⟩
  · rw [hnew]
    exact ⟨fun _ => .inr hencodes, fun _ => ⟨last, rfl, Frame.SamePicture.refl last⟩⟩
  · rw [hold]
    exact ⟨fun h => .inl h, fun h => h.resolve_right hdropped⟩

/-- A frame that has changed waits in the slot until a turn reads it, and the picture stays. -/
theorem run_capture_of_waits {last : Frame} (hlast : last.isWorthEncoding = true)
    {waiting : List (Event E)} (hwaiting : ∀ e ∈ waiting, e.Waits) (s : Screencast E)
    (before : List (Event E)) :
    (Machine.run (step enc) s (before ++ .capture last :: waiting)).slot.slot = some last ∧
      (Machine.run (step enc) s (before ++ .capture last :: waiting)).shown
        = (Machine.run (step enc) s before).shown := by
  rw [Machine.run_append, Machine.run_cons]
  obtain ⟨hslot, hshown⟩ := run_of_waits enc hwaiting
    ((Machine.run (step enc) s before).step enc (.capture last))
  refine ⟨?_, hshown⟩
  rw [hslot, step, FrameSlot.capture_of_worth hlast]
  rfl

end Screencast

/-- **The runs that show the last change.**  After any run a frame that has changed is published,
and then the screen stays static.  The last picture that is encoded is that of the frame exactly
when it was already there before, or the first turn that reads the slot finds the pacing interval
over, the surface convertible and the encoder willing, and something comes out. -/
theorem last_change_shown_iff {E : Type} (enc : VideoEncoder E) (s : Screencast E)
    (before : List (Screencast.Event E)) {last : Frame} (hlast : last.isWorthEncoding = true)
    {after : List (Screencast.Event E)} (hafter : ∀ e ∈ after, e.Static) :
    (Machine.run (Screencast.step enc) s (before ++ .capture last :: after)).Shows last ↔
      (Machine.run (Screencast.step enc) s before).Shows last ∨
      ∃ waiting factory view nowMs rest,
        after = waiting ++ .turn factory view nowMs :: rest ∧ (∀ e ∈ waiting, e.Waits) ∧
        ∃ frames, ((Machine.run (Screencast.step enc) s
            (before ++ .capture last :: waiting)).pipeline.applyTelemetry enc factory view
              nowMs).2.Encodes enc last nowMs frames ∧ frames ≠ [] := by
  -- With the first turn in sight, everything is decided there.
  have hsplit : ∀ {waiting factory view nowMs rest},
      after = waiting ++ .turn factory view nowMs :: rest → (∀ e ∈ waiting, e.Waits) →
      ((Machine.run (Screencast.step enc) s (before ++ .capture last :: after)).Shows last ↔
        (Machine.run (Screencast.step enc) s before).Shows last ∨
        ∃ frames, ((Machine.run (Screencast.step enc) s
            (before ++ .capture last :: waiting)).pipeline.applyTelemetry enc factory view
              nowMs).2.Encodes enc last nowMs frames ∧ frames ≠ []) := by
    intro waiting factory view nowMs rest hsplit hwaiting
    obtain ⟨hslot, hshown⟩ := Screencast.run_capture_of_waits enc hlast hwaiting s before
    have hrest : ∀ e ∈ rest, e.Static := fun e he => hafter e (by simp [hsplit, he])
    have happ : before ++ Screencast.Event.capture last :: after
        = (before ++ .capture last :: waiting) ++ .turn factory view nowMs :: rest := by
      simp only [hsplit, List.append_assoc, List.cons_append]
    rw [happ, Machine.run_append, Screencast.shows_turn_iff enc hslot factory view nowMs hrest,
      Screencast.Shows, hshown, ← Screencast.Shows]
  constructor
  · intro hshows
    rcases Screencast.waits_or_turn hafter with
      hwaits | ⟨waiting, factory, view, nowMs, rest, heq, hwaiting⟩
    · have hshown := (Screencast.run_capture_of_waits enc hlast hwaits s before).2
      exact .inl (by rwa [Screencast.Shows, hshown] at hshows)
    · rcases (hsplit heq hwaiting).1 hshows with hbefore | hencodes
      · exact .inl hbefore
      · exact .inr ⟨waiting, factory, view, nowMs, rest, heq, hwaiting, hencodes⟩
  · rintro (hbefore | ⟨waiting, factory, view, nowMs, rest, heq, hwaiting, hencodes⟩)
    · rcases Screencast.waits_or_turn hafter with
        hwaits | ⟨waiting, factory, view, nowMs, rest, heq, hwaiting⟩
      · have hshown := (Screencast.run_capture_of_waits enc hlast hwaits s before).2
        rwa [Screencast.Shows, hshown]
      · exact (hsplit heq hwaiting).2 (.inl hbefore)
    · exact (hsplit heq hwaiting).2 (.inr hencodes)

/-! ### A last change that comes too early -/

namespace Sample

/-- A turn of the stream loop over a healthy link. -/
def streamTurn (nowMs : ℕ) : Screencast.Event RecordingEncoder :=
  .turn RecordingEncoder.new ⟨⟨0, 60, 100, 3, false⟩, 4000000, false⟩ nowMs

/-- Nothing has been captured. -/
def screencast : Screencast RecordingEncoder := ⟨.channel, pipeline, none⟩

/-- A picture is captured and taken at once. -/
def firstPicture : List (Screencast.Event RecordingEncoder) :=
  [.capture (frame .full 128), streamTurn 0]

/-- Turns of a screen that stays static. -/
def staticTurns : List (Screencast.Event RecordingEncoder) :=
  [streamTurn 5, streamTurn 1000, streamTurn 2000]

theorem static_staticTurns : ∀ e ∈ staticTurns, e.Static := by
  simp [staticTurns, streamTurn, Screencast.Event.Static]

end Sample

/-- The first picture of a screen that stays static is shown. -/
theorem last_change_shown_sample :
    (Machine.run (Screencast.step RecordingEncoder.encoder) Sample.screencast
      ([] ++ .capture (Sample.frame .full 128) :: Sample.staticTurns)).Shows
        (Sample.frame .full 128) :=
  (last_change_shown_iff RecordingEncoder.encoder Sample.screencast []
    (show (Sample.frame .full 128).isWorthEncoding = true from rfl) Sample.static_staticTurns).2
    (.inr ⟨[], _, _, _, _, rfl, fun e he => absurd he List.not_mem_nil, _,
      Sample.encodes_frame (by decide) (by decide) (by decide) rfl 128
        (by decide), List.cons_ne_nil _ _⟩)

/-- A second picture follows 5 ms after the first.  The pipeline drops it because it comes too
early, nobody offers it again, and the first picture stays. -/
theorem last_change_lost :
    (∀ e ∈ Sample.staticTurns, e.Static) ∧
    ¬ (Machine.run (Screencast.step RecordingEncoder.encoder) Sample.screencast
      (Sample.firstPicture ++ .capture (Sample.frame .full 64) :: Sample.staticTurns)).Shows
        (Sample.frame .full 64) := by
  refine ⟨Sample.static_staticTurns, ?_⟩
  rintro ⟨shown, hshown, hsame⟩
  have hfirst : (Machine.run (Screencast.step RecordingEncoder.encoder) Sample.screencast
      (Sample.firstPicture ++ .capture (Sample.frame .full 64) :: Sample.staticTurns)).shown
      = some (Sample.frame .full 128) := by
    decide +kernel
  obtain rfl := Option.some.inj (hfirst.symm.trans hshown)
  exact absurd hsame (by decide)

end Rda
