/-
**Motion that was held back.**

A click, a turn of the wheel or a key belongs to the place where the user sees the pointer, so the
host must know that place first.  A move that was held back for the rate waits in the encoder, and a
button carries its own coordinates, which replace it.  The wheel and the keys carry none, and the
encoder sends them without looking at what waits: the comment on the slot says that it is flushed
before any button or key event, but only a button empties it.

Main definitions:

* `Rda.Payload.position`, `Rda.Answered.shown` — the position a frame tells the host;
* `Rda.Answered.moved` — the position the user moved to with a call;
* `Rda.Flushed` — after every position that was held back the host was told one;
* `Rda.MotionKept` — a stroke is sent flushed, and the host knows the position of the user;
* `Rda.InputCall.BlindStroke` — a stroke that is sent without coordinates.

Main results:

* `Rda.InputLog.motionInv_run` — the slot is empty exactly when the log is flushed, and then host
  and user agree on the position;
* `Rda.motion_kept_iff` — **the motion history is kept** in a run exactly when no stroke without
  coordinates is sent while a move is held back.
-/

import Rda.InputEncoder

set_option relaxedAutoImplicit false
set_option autoImplicit false

namespace Rda

open RdaInputEncoder (OnKeyboardPage)

/-! ### Positions -/

/-- A display and the coordinates on it. -/
abbrev Position : Type := UInt8 × UInt16 × UInt16

/-- The position a payload carries. -/
def Payload.position : Payload → Option Position
  | .mouseMove displayId _ xNorm yNorm _ => some (displayId, xNorm, yNorm)
  | .mouseButton _ _ xNorm yNorm _ displayId _ => some (displayId, xNorm, yNorm)
  | _ => none

/-- The strokes: buttons, the wheel and keys. -/
def Payload.isStroke : Payload → Bool
  | .mouseButton .. | .mouseWheel .. | .keyEvent .. => true
  | _ => false

/-- The position of the user's pointer that a call tells. -/
def InputCall.position : InputCall → Option Position
  | .pointerMove displayId xNorm yNorm _ => some (displayId, xNorm, yNorm)
  | .pointerButton _ _ displayId xNorm yNorm _ _ => some (displayId, xNorm, yNorm)
  | _ => none

/-- A stroke that is sent without coordinates. -/
def InputCall.BlindStroke : InputCall → Prop
  | .scroll .. => True
  | .key usageId .. => OnKeyboardPage usageId
  | _ => False

instance : DecidablePred InputCall.BlindStroke
  | .scroll .. => inferInstanceAs (Decidable True)
  | .key .. => inferInstanceAs (Decidable (OnKeyboardPage _))
  | .pointerMove .. | .pointerButton .. | .keyStateSync .. => inferInstanceAs (Decidable False)

namespace Answered

/-- Where the user moved to, unless the call was refused. -/
def moved (a : Answered) : Option Position :=
  match a.answer with
  | .ok _ => a.call.position
  | .error _ => none

/-- What the host was told. -/
def shown (a : Answered) : Option Position := a.frame.bind fun f => f.payload.position

end Answered

/-- The last position the host was told. -/
def hostPosition (log : List Answered) : Option Position := log.reverse.findSome? (·.shown)

/-- The last position the user moved to. -/
def userPosition (log : List Answered) : Option Position := log.reverse.findSome? (·.moved)

/-- After every position that was held back the host was told one. -/
def Flushed (log : List Answered) : Prop :=
  ∀ before a after, log = before ++ a :: after → a.moved ≠ none → a.shown = none →
    ∃ b ∈ after, b.shown ≠ none

/-- If a call produces a stroke, then nothing is held back any more, and the host knows the position
of the user. -/
def MotionKept (s : InputLog) (i : ℕ × InputCall) : Prop :=
  (∃ f, (s.answer i).frame = some f ∧ f.payload.isStroke = true) →
    Flushed (s.step i).answered ∧
      hostPosition (s.step i).answered = userPosition (s.step i).answered

/-! ### The log, call by call -/

section Log

variable {log : List Answered} {a : Answered}

theorem flushed_nil : Flushed [] := by
  intro before a after h
  simp at h

/-- Telling the host a position settles everything before. -/
theorem flushed_append_of_shown (h : a.shown ≠ none) : Flushed (log ++ [a]) := by
  intro before b after heq hmoved hheld
  rcases List.eq_nil_or_concat after with rfl | ⟨init, c, rfl⟩
  · obtain ⟨-, hab⟩ := List.append_inj' heq rfl
    cases hab
    exact absurd hheld h
  · rw [List.concat_eq_append, ← List.cons_append, ← List.append_assoc] at heq
    obtain ⟨-, hac⟩ := List.append_inj' heq rfl
    cases hac
    exact ⟨a, by simp, h⟩

/-- A call that tells nothing and moves nothing changes nothing. -/
theorem flushed_append_iff (hmoved : a.moved = none) (hshown : a.shown = none) :
    Flushed (log ++ [a]) ↔ Flushed log := by
  constructor
  · intro h before b after heq hb hheld
    obtain ⟨c, hc, htold⟩ := h before b (after ++ [a]) (by simp [heq]) hb hheld
    rcases List.mem_append.1 hc with hc | hc
    · exact ⟨c, hc, htold⟩
    · rw [List.mem_singleton.1 hc] at htold
      exact absurd hshown htold
  · intro h before b after heq hb hheld
    rcases List.eq_nil_or_concat after with rfl | ⟨init, c, rfl⟩
    · obtain ⟨-, hab⟩ := List.append_inj' heq rfl
      cases hab
      exact absurd hmoved hb
    · rw [List.concat_eq_append, ← List.cons_append, ← List.append_assoc] at heq
      obtain ⟨hlog, -⟩ := List.append_inj' heq rfl
      obtain ⟨d, hd, htold⟩ := h before b init hlog hb hheld
      exact ⟨d, by simp [hd], htold⟩

/-- A position that is held back is not told at once. -/
theorem not_flushed_append (hmoved : a.moved ≠ none) (hshown : a.shown = none) :
    ¬ Flushed (log ++ [a]) := by
  intro h
  obtain ⟨b, hb, -⟩ := h log a [] rfl hmoved hshown
  simp at hb

theorem hostPosition_append (log : List Answered) (a : Answered) :
    hostPosition (log ++ [a]) = a.shown.or (hostPosition log) := by
  simp only [hostPosition, List.reverse_append, List.reverse_singleton, List.singleton_append,
    List.findSome?_cons]
  cases a.shown <;> rfl

theorem userPosition_append (log : List Answered) (a : Answered) :
    userPosition (log ++ [a]) = a.moved.or (userPosition log) := by
  simp only [userPosition, List.reverse_append, List.reverse_singleton, List.singleton_append,
    List.findSome?_cons]
  cases a.moved <;> rfl

end Log

namespace InputCall

variable {call : InputCall}

theorem position_of_held {m : PendingMove} (h : call.held = some m) : call.position ≠ none := by
  cases call with
  | pointerMove => exact Option.some_ne_none _
  | _ => cases h

theorem position_of_encodes {p : Payload} (h : Encodes call p) : call.position = p.position := by
  cases h <;> rfl

/-- A call with a position is sent from an empty slot. -/
theorem pendingMove_ready (enc : RdaInputEncoder) (nowMs : ℕ) (call : InputCall) :
    (call.ready enc nowMs).pendingMove =
      if call.position = none then enc.pendingMove else none := by
  cases call <;> rfl

/-- What is sent without a position is a snapshot or a blind stroke. -/
theorem blindStroke_iff {p : Payload} (h : Encodes call p) :
    call.BlindStroke ↔ p.isStroke = true ∧ p.position = none := by
  cases h with
  | key pressed modifiers hpage => exact ⟨fun _ => ⟨rfl, rfl⟩, fun _ => hpage⟩
  | wheel => exact ⟨fun _ => ⟨rfl, rfl⟩, fun _ => trivial⟩
  | button => exact ⟨fun h => h.elim, fun h => (nomatch h.2)⟩
  | move => exact ⟨fun h => h.elim, fun h => (nomatch h.1)⟩
  | snapshot => exact ⟨fun h => h.elim, fun h => (nomatch h.1)⟩

theorem not_blindStroke_of_error {e : InputError} (h : call.encoded = .error e) :
    ¬ call.BlindStroke := by
  cases refuses_of_encoded h with
  | key pressed modifiers hpage => exact hpage
  | button => exact id
  | snapshot => exact id

theorem not_blindStroke_of_held {m : PendingMove} (h : call.held = some m) :
    ¬ call.BlindStroke := by
  cases call with
  | pointerMove => exact id
  | _ => cases h

end InputCall

namespace InputLog

variable {s : InputLog} {i : ℕ × InputCall}

/-! ### What a step tells and moves -/

theorem Refused.moved (h : s.Refused i) : (s.answer i).moved = none := by
  obtain ⟨e, -, he⟩ := h.answer
  rw [Answered.moved, he]

theorem Refused.shown (h : s.Refused i) : (s.answer i).shown = none := by
  rw [Answered.shown, h.frame, Option.bind_none]

theorem Held.moved {m : PendingMove} (h : s.Held i m) : (s.answer i).moved ≠ none := by
  rw [Answered.moved, h.answer]
  exact InputCall.position_of_held h.held

theorem Held.shown {m : PendingMove} (h : s.Held i m) : (s.answer i).shown = none := by
  rw [Answered.shown, h.frame, Option.bind_none]

theorem Sent.moved {p : Payload} (h : s.Sent i p) : (s.answer i).moved = p.position := by
  rw [Answered.moved, h.answer]
  exact InputCall.position_of_encodes (InputCall.encodes_of_encoded h.encoded)

/-- The host is told the position of what was sent. -/
theorem Sent.shown {p : Payload} (h : s.Sent i p) : (s.answer i).shown = p.position := by
  rw [Answered.shown]
  rcases h.frame_cases with hf | ⟨⟨_, _, _, rfl⟩, hall⟩
  · rw [hf]
    rfl
  · cases hf : (s.answer i).frame with
    | none => rfl
    | some f =>
        obtain ⟨_, _, _, hp⟩ := hall f hf
        rw [Option.bind_some, hp]
        rfl

/-- The host reads a stroke exactly when one was sent. -/
theorem Sent.stroke_iff {p : Payload} (h : s.Sent i p) :
    (∃ f, (s.answer i).frame = some f ∧ f.payload.isStroke = true) ↔ p.isStroke = true := by
  rcases h.frame_cases with hf | ⟨⟨_, _, _, rfl⟩, hall⟩
  · rw [hf]
    constructor
    · rintro ⟨f, hf, hstroke⟩
      cases hf
      exact hstroke
    · intro hstroke
      exact ⟨_, rfl, hstroke⟩
  · refine ⟨?_, fun hf => (nomatch hf)⟩
    rintro ⟨f, hf, hstroke⟩
    obtain ⟨_, _, _, hp⟩ := hall f hf
    rw [hp] at hstroke
    cases hstroke

/-- What is sent with a position leaves nothing held back. -/
theorem Sent.pendingMove {p : Payload} (h : s.Sent i p) :
    (s.step i).encoder.pendingMove =
      if p.position = none then s.encoder.pendingMove else none := by
  rw [h.encoder, ← InputCall.position_of_encodes (InputCall.encodes_of_encoded h.encoded)]
  exact InputCall.pendingMove_ready _ _ _

/-! ### The slot and the log -/

/-- The slot is empty exactly when the log is flushed, and then host and user agree. -/
structure MotionInv (s : InputLog) : Prop where
  flushed : s.encoder.pendingMove = none ↔ Flushed s.answered
  agree : s.encoder.pendingMove = none → hostPosition s.answered = userPosition s.answered

theorem motionInv_start (epochMs : ℕ) : (start epochMs).MotionInv where
  flushed := ⟨fun _ => flushed_nil, fun _ => rfl⟩
  agree _ := rfl

/-- A call that tells nothing and moves nothing changes neither the slot nor the log. -/
theorem MotionInv.of_silent (hs : s.MotionInv) (hmoved : (s.answer i).moved = none)
    (hshown : (s.answer i).shown = none)
    (hpending : (s.step i).encoder.pendingMove = s.encoder.pendingMove) : (s.step i).MotionInv where
  flushed := by
    rw [hpending, answered_step, flushed_append_iff hmoved hshown]
    exact hs.flushed
  agree hnone := by
    rw [answered_step, hostPosition_append, userPosition_append, hmoved, hshown]
    exact hs.agree (hpending ▸ hnone)

theorem motionInv_step (hs : s.MotionInv) : (s.step i).MotionInv := by
  rcases s.step_cases i with h | ⟨m, h⟩ | ⟨p, h⟩
  · exact hs.of_silent h.moved h.shown (by rw [h.encoder])
  · have hpending : (s.step i).encoder.pendingMove ≠ none := by
      rw [h.encoder]
      exact Option.some_ne_none m
    refine ⟨⟨fun hnone => absurd hnone hpending, fun hflushed => ?_⟩, fun hnone => ?_⟩
    · exact absurd hflushed (not_flushed_append h.moved h.shown)
    · exact absurd hnone hpending
  · have hpending := h.pendingMove
    cases hpos : p.position with
    | none =>
        rw [if_pos hpos] at hpending
        exact hs.of_silent (h.moved.trans hpos) (h.shown.trans hpos) hpending
    | some pos =>
        rw [if_neg (by simp [hpos])] at hpending
        constructor
        · refine ⟨fun _ => flushed_append_of_shown ?_, fun _ => hpending⟩
          rw [h.shown, hpos]
          exact Option.some_ne_none pos
        · intro _
          rw [answered_step, hostPosition_append, userPosition_append, h.moved, h.shown, hpos]
          rfl

theorem motionInv_run (epochMs : ℕ) (is : List (ℕ × InputCall)) :
    (Machine.run step (start epochMs) is).MotionInv :=
  Machine.run_invariant MotionInv (fun _ _ hs => motionInv_step hs) (motionInv_start epochMs) is

/-- One step keeps the motion history exactly when it is not a blind stroke with a move held
back. -/
theorem motionKept_iff (hs : s.MotionInv) (i : ℕ × InputCall) :
    MotionKept s i ↔ ¬ (i.2.BlindStroke ∧ s.encoder.pendingMove ≠ none) := by
  have hs' : (s.step i).MotionInv := motionInv_step hs
  rcases s.step_cases i with h | ⟨m, h⟩ | ⟨p, h⟩
  · obtain ⟨e, he, -⟩ := h.answer
    refine iff_of_true ?_ fun hb => InputCall.not_blindStroke_of_error he hb.1
    rintro ⟨f, hf, -⟩
    rw [h.frame] at hf
    cases hf
  · refine iff_of_true ?_ fun hb => InputCall.not_blindStroke_of_held h.held hb.1
    rintro ⟨f, hf, -⟩
    rw [h.frame] at hf
    cases hf
  · have hpending := h.pendingMove
    rw [MotionKept, h.stroke_iff,
      InputCall.blindStroke_iff (InputCall.encodes_of_encoded h.encoded)]
    constructor
    · rintro hkept ⟨⟨hstroke, hpos⟩, hheld⟩
      rw [if_pos hpos] at hpending
      exact hheld (hpending ▸ hs'.flushed.2 (hkept hstroke).1)
    · intro hgood hstroke
      have hnone : (s.step i).encoder.pendingMove = none := by
        rw [hpending]
        split_ifs with hpos
        · by_contra hheld
          exact hgood ⟨⟨hstroke, hpos⟩, hheld⟩
        · rfl
      exact ⟨hs'.flushed.1 hnone, hs'.agree hnone⟩

end InputLog

/-- **Which runs keep the motion history**: at every button, wheel or key frame nothing is held back
and the host knows where the user moved to, exactly when no stroke without coordinates is sent while
a move is held back. -/
theorem motion_kept_iff (epochMs : ℕ) (calls : List (ℕ × InputCall)) :
    (∀ before i, before ++ [i] <+: calls →
      MotionKept (Machine.run InputLog.step (InputLog.start epochMs) before) i) ↔
    Machine.Along InputLog.step
      (fun s i => ¬ (i.2.BlindStroke ∧ s.encoder.pendingMove ≠ none))
      (InputLog.start epochMs) calls :=
  Machine.forall_step_iff_along InputLog.MotionInv MotionKept
    (fun _ _ hs _ => InputLog.motionInv_step hs) (fun _ i hs => InputLog.motionKept_iff hs i)
    (InputLog.motionInv_start epochMs) calls

/-- The wheel turns while a move is held back. -/
theorem wheel_before_motion :
    ¬ ∀ before i, before ++ [i] <+: [(100, .pointerMove 0 1000 1000 0),
        (105, .pointerMove 0 9000 9000 0), (106, .scroll 120 0 0 0)] →
      MotionKept (Machine.run InputLog.step (InputLog.start 0) before) i := by
  intro h
  have hkept := h [(100, .pointerMove 0 1000 1000 0), (105, .pointerMove 0 9000 9000 0)]
    (106, .scroll 120 0 0 0) (List.prefix_refl _)
  obtain ⟨-, hagree⟩ := hkept (by decide)
  revert hagree
  decide

end Rda
