/-
**Captured frames and the slot they are handed over in.**

The capture thread says of every frame what has changed since the one before it.  A frame in which
nothing has changed is not handed over.  The slot holds one frame: a newer frame takes the place of
one that nobody has read, and reading empties the slot.

Main definitions:

* `Rda.DirtyRegion.hasChanges`, `Rda.Frame` — a captured frame;
* `Rda.FrameSlot`, `Rda.FrameSlot.publish`, `Rda.FrameSlot.tryRecv` — the slot;
* `Rda.FrameSlot.capture` — what the capture thread does with a frame.

Main results:

* `Rda.FrameSlot.sound_capture`, `Rda.FrameSlot.sound_tryRecv` — what is in the slot is worth
  encoding;
* `Rda.FrameSlot.Counted` — every frame that was published was read, replaced or is in the slot.
-/

import Mathlib.Data.Nat.Notation
import Mathlib.Tactic.Common

set_option relaxedAutoImplicit false
set_option autoImplicit false

namespace Rda

/-! ### Frames -/

/-- A rectangle in physical pixels, relative to the captured display. -/
structure Rect where
  x : ℕ
  y : ℕ
  width : ℕ
  height : ℕ
  deriving DecidableEq, Repr

/-- Whether this rectangle covers nothing. -/
def Rect.isEmpty (r : Rect) : Bool := r.width == 0 || r.height == 0

/-- What changed since the previous frame. -/
inductive DirtyRegion
  | full
  | rects (rs : List Rect)
  | unchanged
  deriving DecidableEq, Repr

/-- Whether anything needs encoding. -/
def DirtyRegion.hasChanges : DirtyRegion → Bool
  | .full => true
  | .rects rs => rs.any fun r => !r.isEmpty
  | .unchanged => false

/-- Pixel layout of a CPU buffer. -/
inductive PixelFormat
  | bgra8 | rgba8 | nv12
  deriving DecidableEq, Repr

/-- Where a frame's pixels actually live. -/
inductive Surface
  | cpu (data : List UInt8) (stride : ℕ) (format : PixelFormat)
  | ioSurface (id : UInt32)
  deriving DecidableEq

/-- One captured frame. -/
structure Frame where
  surface : Surface
  displayId : UInt8
  width : ℕ
  height : ℕ
  dirty : DirtyRegion
  sequence : ℕ
  deriving DecidableEq

namespace Frame

/-- Whether this frame carries anything worth encoding. -/
def isWorthEncoding (frame : Frame) : Bool := frame.dirty.hasChanges

/-- Two frames show the same picture. -/
def SamePicture (frame frame' : Frame) : Prop :=
  frame.surface = frame'.surface ∧ frame.width = frame'.width ∧ frame.height = frame'.height

instance (frame frame' : Frame) : Decidable (frame.SamePicture frame') :=
  inferInstanceAs (Decidable (_ ∧ _ ∧ _))

theorem SamePicture.refl (frame : Frame) : frame.SamePicture frame := ⟨rfl, rfl, rfl⟩

end Frame

/-! ### The slot -/

/-- The slot between the capture thread and the stream, with its counters. -/
structure FrameSlot where
  slot : Option Frame
  produced : ℕ
  consumed : ℕ
  dropped : ℕ

namespace FrameSlot

/-- A linked sink and source. -/
def channel : FrameSlot := ⟨none, 0, 0, 0⟩

/-- Publishes a frame, replacing any unconsumed one. -/
def publish (s : FrameSlot) (frame : Frame) : FrameSlot :=
  { s with
    slot := some frame
    produced := s.produced + 1
    dropped := if s.slot.isSome then s.dropped + 1 else s.dropped }

/-- Takes the pending frame, if any. -/
def tryRecv (s : FrameSlot) : Option Frame × FrameSlot :=
  (s.slot, { s with
    slot := none
    consumed := if s.slot.isSome then s.consumed + 1 else s.consumed })

/-- What the capture thread does with a frame: an unchanged one is not published. -/
def capture (s : FrameSlot) (frame : Frame) : FrameSlot :=
  if frame.isWorthEncoding then s.publish frame else s

theorem capture_of_worth {frame : Frame} (h : frame.isWorthEncoding = true) (s : FrameSlot) :
    s.capture frame = s.publish frame := if_pos h

theorem capture_of_unchanged {frame : Frame} (h : frame.isWorthEncoding = false) (s : FrameSlot) :
    s.capture frame = s := if_neg (by simp [h])

/-- What is in the slot is worth encoding. -/
def Sound (s : FrameSlot) : Prop := ∀ frame, s.slot = some frame → frame.isWorthEncoding = true

theorem sound_capture {s : FrameSlot} (h : s.Sound) (frame : Frame) : (s.capture frame).Sound := by
  cases hw : frame.isWorthEncoding with
  | true =>
      rw [capture_of_worth hw]
      intro frame' hslot
      rw [← Option.some.inj hslot]
      exact hw
  | false =>
      rw [capture_of_unchanged hw]
      exact h

theorem sound_tryRecv (s : FrameSlot) : s.tryRecv.2.Sound := by
  intro frame hslot
  cases hslot

/-- Every frame that was published was read, was replaced or is in the slot. -/
def Counted (s : FrameSlot) : Prop :=
  s.produced = s.consumed + s.dropped + s.slot.toList.length

theorem counted_capture {s : FrameSlot} (h : s.Counted) (frame : Frame) :
    (s.capture frame).Counted := by
  cases hw : frame.isWorthEncoding with
  | true =>
      rw [capture_of_worth hw]
      unfold Counted at h ⊢
      cases hslot : s.slot with
      | none => simp [publish, hslot] at h ⊢; omega
      | some old => simp [publish, hslot] at h ⊢; omega
  | false =>
      rw [capture_of_unchanged hw]
      exact h

theorem counted_tryRecv {s : FrameSlot} (h : s.Counted) : s.tryRecv.2.Counted := by
  unfold Counted at h ⊢
  cases hslot : s.slot with
  | none => simpa [tryRecv, hslot] using h
  | some frame => simp [tryRecv, hslot] at h ⊢; omega

end FrameSlot

end Rda
