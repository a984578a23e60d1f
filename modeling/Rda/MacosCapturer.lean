/-
**Screen capture on macOS.**

The backend asks the system for an image of the display whenever a frame is due, and compares the
image with the one before it by a hash of every ninety-seventh byte.  An image whose size is not the
display's is not handed on: the display has been reconfigured, and the session is lost.

The displays are enumerated once, when the backend is created; starting the capture again finds them
as they were then.

Main definitions:

* `Rda.frameHash` — the hash;
* `Rda.MacosCapturer`, `Rda.MacosCapturer.start`, `Rda.MacosCapturer.nextFrame` — the backend.

Main results:

* `Rda.MacosCapturer.start_eq_ok_iff` — what a start needs;
* `Rda.MacosCapturer.nextFrame_cases` — **what becomes of a frame**.
-/

import Rda.Capture

set_option relaxedAutoImplicit false
set_option autoImplicit false

namespace Rda

/-- Why capture failed. -/
inductive CaptureError
  | permissionDenied (what : String)
  | unknownDisplay (id : UInt8)
  /-- The capture session must be rebuilt. -/
  | sessionLost (why : String)
  | timeout
  | unavailable (what : String)
  | unsupported
  deriving DecidableEq, Repr

/-- Whether the caller should rebuild the session and continue rather than end the session. -/
def CaptureError.isRecoverable : CaptureError → Bool
  | .sessionLost _ => true
  | .timeout => true
  | _ => false

/-- Capture configuration. -/
structure CaptureConfig where
  targetFps : ℕ
  trackDamage : Bool
  deriving DecidableEq, Repr

/-- How long a frame lasts. -/
def CaptureConfig.intervalUs (config : CaptureConfig) : ℕ := 1000000 / max config.targetFps 1

/-- A display, in physical pixels. -/
structure DisplayInfo where
  id : UInt8
  nativeId : ℕ
  width : ℕ
  height : ℕ
  deriving DecidableEq, Repr

/-- What the system makes of a display. -/
structure Image where
  width : ℕ
  height : ℕ
  bytesPerRow : ℕ
  data : List UInt8
  deriving DecidableEq, Repr

/-! ### Change detection -/

/-- One byte of the hash. -/
def hashByte (hash : UInt64) (byte : UInt8) : UInt64 := (hash ^^^ byte.toUInt64) * 0x100000001B3

/-- The loop over every ninety-seventh byte; no more of them are visited than there are bytes. -/
def hashLoop : ℕ → List UInt8 → UInt64 → UInt64
  | visits + 1, byte :: bytes, hash => hashLoop visits (bytes.drop 96) (hashByte hash byte)
  | _, _, hash => hash

/-- Cheap change detection. -/
def frameHash (bytes : List UInt8) : UInt64 :=
  (hashLoop bytes.length bytes 0xcbf29ce484222325 ^^^ .ofNat bytes.length) * 0x100000001B3

/-! ### The backend -/

/-- What is being captured. -/
structure ActiveCapture where
  display : DisplayInfo
  config : CaptureConfig
  lastFrameAtUs : Option ℕ
  lastHash : Option UInt64
  deriving DecidableEq

namespace ActiveCapture

/-- How long it is until the next frame. -/
def waitUs (a : ActiveCapture) (nowUs : ℕ) : ℕ :=
  match a.lastFrameAtUs with
  | some last => a.config.intervalUs - (nowUs - last)
  | none => 0

/-- The image has the size of the display. -/
def Fits (a : ActiveCapture) (image : Image) : Prop :=
  image.width = a.display.width ∧ image.height = a.display.height

instance (a : ActiveCapture) (image : Image) : Decidable (a.Fits image) :=
  inferInstanceAs (Decidable (_ ∧ _))

/-- The image is the same as the one before it, as far as the hash can tell. -/
def Seen (a : ActiveCapture) (image : Image) : Prop :=
  a.config.trackDamage = true ∧ a.lastHash = some (frameHash image.data)

instance (a : ActiveCapture) (image : Image) : Decidable (a.Seen image) :=
  inferInstanceAs (Decidable (_ ∧ _))

/-- The capture after an image. -/
def captured (a : ActiveCapture) (nowUs : ℕ) (image : Image) : ActiveCapture :=
  { a with
    lastFrameAtUs := some nowUs
    lastHash := if a.config.trackDamage then some (frameHash image.data) else a.lastHash }

/-- The frame of an image. -/
def frame (a : ActiveCapture) (sequence : ℕ) (image : Image) : Frame where
  surface := .cpu image.data image.bytesPerRow .bgra8
  displayId := a.display.id
  width := image.width
  height := image.height
  dirty := if a.Seen image then .unchanged else .full
  sequence := sequence

theorem isWorthEncoding_frame (a : ActiveCapture) (sequence : ℕ) (image : Image) :
    (a.frame sequence image).isWorthEncoding = true ↔ ¬ a.Seen image := by
  unfold Frame.isWorthEncoding frame
  split_ifs with hseen
  · simp [DirtyRegion.hasChanges, hseen]
  · simp [DirtyRegion.hasChanges, hseen]

/-- The image says what has changed about the display. -/
def lostTo (a : ActiveCapture) (image : Image) : CaptureError :=
  .sessionLost ("display resolution changed from " ++ toString a.display.width ++ "x" ++
    toString a.display.height ++ " to " ++ toString image.width ++ "x" ++ toString image.height)

end ActiveCapture

/-- Core Graphics capture backend. -/
structure MacosCapturer where
  displays : List DisplayInfo
  active : Option ActiveCapture
  sequence : ℕ

namespace MacosCapturer

/-- What is said when there is no image to start with. -/
def notGranted : CaptureError :=
  .permissionDenied ("Screen Recording permission is not granted; enable it in System " ++
    "Settings > Privacy & Security > Screen Recording, then restart the application")

/-- Takes over the displays that were enumerated. -/
def new (displays : List DisplayInfo) : Except CaptureError MacosCapturer :=
  if displays.isEmpty then .error (.unavailable "no active displays")
  else .ok ⟨displays, none, 0⟩

/-- Begins capturing a display, if the system has an image of it. -/
def start (c : MacosCapturer) (displayId : UInt8) (config : CaptureConfig) (image : Option Image) :
    Except CaptureError MacosCapturer :=
  match c.displays.find? fun d => d.id == displayId with
  | none => .error (.unknownDisplay displayId)
  | some display =>
      match image with
      | none => .error notGranted
      | some _ => .ok { c with active := some ⟨display, config, none, none⟩ }

/-- Stops capturing. -/
def stop (c : MacosCapturer) : MacosCapturer := { c with active := none }

/-- Blocks until a frame is available or the timeout elapses; the time afterwards is returned
too. -/
def nextFrame (c : MacosCapturer) (timeoutUs nowUs : ℕ) (image : Option Image) :
    Except CaptureError (Option Frame) × MacosCapturer × ℕ :=
  match c.active with
  | none => (.error (.unavailable "capture not started"), c, nowUs)
  | some a =>
      if timeoutUs < a.waitUs nowUs then (.ok none, c, nowUs)
      else
        let nowUs := nowUs + a.waitUs nowUs
        match image with
        | none => (.error (.sessionLost "CGDisplayCreateImage returned no image"), c, nowUs)
        | some image =>
            if ¬ a.Fits image then (.error (a.lostTo image), c, nowUs)
            else
              (.ok (some (a.frame c.sequence image)),
                { c with active := some (a.captured nowUs image), sequence := c.sequence + 1 },
                nowUs)

variable {c c' : MacosCapturer} {displayId : UInt8} {config : CaptureConfig} {image : Option Image}

/-- **What a start needs**: the display among those enumerated, and an image of it. -/
theorem start_eq_ok_iff :
    c.start displayId config image = .ok c' ↔
      image.isSome = true ∧ ∃ display,
        (c.displays.find? fun d => d.id == displayId) = some display ∧
          c' = { c with active := some ⟨display, config, none, none⟩ } := by
  rw [start]
  cases hfind : c.displays.find? fun d => d.id == displayId with
  | none => simp
  | some display =>
      cases image with
      | none => simp
      | some image => simp [eq_comm]

/-- **What becomes of a frame**: it is not due within the timeout; or the display has no image, or
one of another size, and the session is lost; or it is captured. -/
theorem nextFrame_cases {a : ActiveCapture} (ha : c.active = some a) (timeoutUs nowUs : ℕ)
    (image : Option Image) :
    (timeoutUs < a.waitUs nowUs ∧ c.nextFrame timeoutUs nowUs image = (.ok none, c, nowUs)) ∨
    (a.waitUs nowUs ≤ timeoutUs ∧ (∀ i, image = some i → ¬ a.Fits i) ∧
      ∃ why, c.nextFrame timeoutUs nowUs image =
        (.error (.sessionLost why), c, nowUs + a.waitUs nowUs)) ∨
    (a.waitUs nowUs ≤ timeoutUs ∧ ∃ i, image = some i ∧ a.Fits i ∧
      c.nextFrame timeoutUs nowUs image =
        (.ok (some (a.frame c.sequence i)),
          { c with
            active := some (a.captured (nowUs + a.waitUs nowUs) i), sequence := c.sequence + 1 },
          nowUs + a.waitUs nowUs)) := by
  rw [nextFrame, ha]
  by_cases hwait : timeoutUs < a.waitUs nowUs
  · exact .inl ⟨hwait, if_pos hwait⟩
  · right
    simp only [if_neg hwait]
    have hle : a.waitUs nowUs ≤ timeoutUs := Nat.le_of_not_lt hwait
    cases image with
    | none => exact .inl ⟨hle, (by simp), _, rfl⟩
    | some image =>
        by_cases hfits : a.Fits image
        · right
          refine ⟨hle, image, rfl, hfits, ?_⟩
          simp only [not_not.2 hfits, if_false]
        · left
          refine ⟨hle, ?_, _, if_pos hfits⟩
          rintro i hi
          obtain rfl := Option.some.inj hi
          exact hfits

end MacosCapturer

end Rda
