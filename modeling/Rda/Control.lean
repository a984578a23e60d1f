/-
**The binary control frame codec.**

Every message on a data channel is one control frame: an eight-byte header, then a body whose
layout depends on the message type.  This module embeds the codec — the frame data, the encoder,
and the decoder with its error paths — as the source writes it; `Rda/ControlCodec.lean` and
`Rda/ControlFraming.lean` prove what it does.

The decoder is written against a bounds-checked cursor.  Only the bytes the cursor has not passed
matter to it, so the cursor is a `Wire.Reader` and its position is not kept.

Main definitions:

* `Rda.MessageType`, `Rda.Payload`, `Rda.Header`, `Rda.ControlFrame` — the frames;
* `Rda.DecodeError` — why a frame is refused;
* `Rda.encodePayload`, `Rda.decodePayload` — the two directions of the body;
* `Rda.ControlFrame.encode`, `Rda.ControlFrame.decode` — the two directions of the frame;
* `Rda.truncateUtf8` — how over-long text is clipped before it is sent.
-/

import Rda.Wire

set_option relaxedAutoImplicit false
set_option autoImplicit false

namespace Rda

open Wire (Reader toBe ofBe)

/-! ### Limits -/

/-- Protocol major version. -/
def PROTO_VERSION : UInt8 := 1

/-- Length of the fixed header. -/
def HEADER_LEN : ℕ := 8

/-- Maximum number of keys in a key state snapshot. -/
def MAX_PRESSED_KEYS : ℕ := 32

/-- Maximum UTF-8 length of a text input. -/
def MAX_TEXT_INPUT : ℕ := 1024

/-- Maximum pixel data length of a cursor shape. -/
def MAX_CURSOR_DATA : ℕ := 256 * 1024

/-- Maximum cursor edge length. -/
def MAX_CURSOR_DIM : UInt16 := 256

/-- Maximum reassembled video frame. -/
def MAX_VIDEO_FRAME : ℕ := 2 * 1024 * 1024

/-- Maximum bitstream bytes in one video fragment. -/
def MAX_VIDEO_FRAGMENT : ℕ := 16 * 1024

/-- Maximum fragments one frame may be split into. -/
def MAX_VIDEO_FRAGMENTS : UInt16 := UInt16.ofNat (MAX_VIDEO_FRAME / MAX_VIDEO_FRAGMENT)

/-- HID usage page for keyboard keys. -/
def USAGE_PAGE_KEYBOARD : UInt16 := 0x0007

/-- HID usage page for consumer controls. -/
def USAGE_PAGE_CONSUMER : UInt16 := 0x000C

/-! ### Errors -/

/-- A control frame that could not be decoded. -/
inductive DecodeError
  /-- The buffer is shorter than the field being read requires. -/
  | truncated (need got : ℕ)
  /-- A protocol major version we do not implement. -/
  | badVersion (version : UInt8)
  /-- A field held a value outside its range. -/
  | invalidField (field : String) (value : UInt32)
  /-- A length field exceeded its cap. -/
  | lengthCap (field : String) (len max : ℕ)
  /-- Text that is not UTF-8, or holds a forbidden control character. -/
  | invalidText (why : String)
  deriving DecidableEq, Repr

/-! ### The cursor -/

/-- A cursor over the body of a frame. -/
abbrev Cursor (α : Type) : Type := Reader DecodeError α

namespace Cursor

def take (n : ℕ) : Cursor (List UInt8) := Wire.take DecodeError.truncated n

def u8 : Cursor UInt8 := do
  let b ← take 1
  return UInt8.ofNat (ofBe b)

def u16 : Cursor UInt16 := do
  let b ← take 2
  return UInt16.ofNat (ofBe b)

def i16 : Cursor Int16 := do
  let v ← u16
  return v.toInt16

def u32 : Cursor UInt32 := do
  let b ← take 4
  return UInt32.ofNat (ofBe b)

/-- Skips reserved bytes, whatever they hold. -/
def skipReserved (n : ℕ) : Cursor Unit := do
  let _ ← take n
  return ()

end Cursor

/-! ### Message types -/

/-- Control message types. -/
inductive MessageType
  | hello | helloAck | authRequest | authResponse | sessionReady | ping | pong | pause | resume
  | endSession | error | authConfirm
  | mouseMove | mouseMoveRelative | mouseButton | mouseWheel | keyEvent | keyStateSync | textInput
  | displayList | displaySelect | qualityHint | requestKeyframe | ltrAck | cursorUpdate
  | cursorShape | videoFrame
  | clipboardOffer | clipboardRequest | clipboardData
  | qosReport
  deriving DecidableEq, Repr

/-- The numeric code of a message type. -/
def MessageType.code : MessageType → UInt8
  | .hello => 0x01
  | .helloAck => 0x02
  | .authRequest => 0x03
  | .authResponse => 0x04
  | .sessionReady => 0x05
  | .ping => 0x06
  | .pong => 0x07
  | .pause => 0x08
  | .resume => 0x09
  | .endSession => 0x0A
  | .error => 0x0B
  | .authConfirm => 0x0C
  | .mouseMove => 0x10
  | .mouseMoveRelative => 0x11
  | .mouseButton => 0x12
  | .mouseWheel => 0x13
  | .keyEvent => 0x14
  | .keyStateSync => 0x15
  | .textInput => 0x16
  | .displayList => 0x30
  | .displaySelect => 0x31
  | .qualityHint => 0x32
  | .requestKeyframe => 0x33
  | .ltrAck => 0x34
  | .cursorUpdate => 0x35
  | .cursorShape => 0x36
  | .videoFrame => 0x37
  | .clipboardOffer => 0x40
  | .clipboardRequest => 0x41
  | .clipboardData => 0x42
  | .qosReport => 0x50

/-- The message type of a code, if this build knows it. -/
def MessageType.fromU8 (v : UInt8) : Option MessageType :=
  match v.toNat with
  | 0x01 => some .hello
  | 0x02 => some .helloAck
  | 0x03 => some .authRequest
  | 0x04 => some .authResponse
  | 0x05 => some .sessionReady
  | 0x06 => some .ping
  | 0x07 => some .pong
  | 0x08 => some .pause
  | 0x09 => some .resume
  | 0x0A => some .endSession
  | 0x0B => some .error
  | 0x0C => some .authConfirm
  | 0x10 => some .mouseMove
  | 0x11 => some .mouseMoveRelative
  | 0x12 => some .mouseButton
  | 0x13 => some .mouseWheel
  | 0x14 => some .keyEvent
  | 0x15 => some .keyStateSync
  | 0x16 => some .textInput
  | 0x30 => some .displayList
  | 0x31 => some .displaySelect
  | 0x32 => some .qualityHint
  | 0x33 => some .requestKeyframe
  | 0x34 => some .ltrAck
  | 0x35 => some .cursorUpdate
  | 0x36 => some .cursorShape
  | 0x37 => some .videoFrame
  | 0x40 => some .clipboardOffer
  | 0x41 => some .clipboardRequest
  | 0x42 => some .clipboardData
  | 0x50 => some .qosReport
  | _ => none

/-- The pre-negotiated data channels. -/
inductive Channel
  | control | inputKeys | inputPointer | cursor | stats | clipboard | file | video
  deriving DecidableEq, Repr

/-- The channel a message type travels on. -/
def MessageType.channel : MessageType → Channel
  | .mouseMove | .mouseMoveRelative => .inputPointer
  | .mouseButton | .mouseWheel | .keyEvent | .keyStateSync | .textInput => .inputKeys
  | .cursorUpdate | .cursorShape => .cursor
  | .videoFrame => .video
  | .clipboardOffer | .clipboardRequest | .clipboardData => .clipboard
  | .qosReport => .stats
  | _ => .control

/-! ### Payloads -/

/-- Mouse buttons. -/
inductive MouseButtonId
  | left | right | middle | x1 | x2
  deriving DecidableEq, Repr

def MouseButtonId.code : MouseButtonId → UInt8
  | .left => 1
  | .right => 2
  | .middle => 3
  | .x1 => 4
  | .x2 => 5

def MouseButtonId.fromU8 (v : UInt8) : Except DecodeError MouseButtonId :=
  match v.toNat with
  | 1 => .ok .left
  | 2 => .ok .right
  | 3 => .ok .middle
  | 4 => .ok .x1
  | 5 => .ok .x2
  | _ => .error (.invalidField "button" v.toUInt32)

/-- Press, release, repeat. -/
inductive KeyAction
  | up | down | repeat
  deriving DecidableEq, Repr

/-- The action of a press or a release. -/
def KeyAction.ofPressed (pressed : Bool) : KeyAction := if pressed then .down else .up

def KeyAction.code : KeyAction → UInt8
  | .up => 0
  | .down => 1
  | .repeat => 2

def KeyAction.fromU8 (v : UInt8) (field : String) (allowRepeat : Bool) :
    Except DecodeError KeyAction :=
  match v.toNat, allowRepeat with
  | 0, _ => .ok .up
  | 1, _ => .ok .down
  | 2, true => .ok .repeat
  | _, _ => .error (.invalidField field v.toUInt32)

/-- How the encoder is asked to repair a decode failure. -/
inductive KeyframeMode
  | idr | ltr
  deriving DecidableEq, Repr

def KeyframeMode.code : KeyframeMode → UInt8
  | .idr => 0
  | .ltr => 1

def KeyframeMode.fromU8 (v : UInt8) : Except DecodeError KeyframeMode :=
  match v.toNat with
  | 0 => .ok .idr
  | 1 => .ok .ltr
  | _ => .error (.invalidField "mode" v.toUInt32)

/-- Application-level quality telemetry. -/
structure QosReport where
  rttMs : UInt16
  jitterMs : UInt16
  lossPermille : UInt16
  framesDecoded : UInt16
  framesDropped : UInt16
  renderFpsQ8 : UInt16
  playoutDelayMs : UInt16
  decodeTimeUs : UInt16
  deriving DecidableEq, Repr

/-- A decoded frame body.  `unknown` keeps a body this layer does not parse. -/
inductive Payload
  | ping (token : UInt32)
  | pong (token : UInt32) (hostDelayUs : UInt16)
  | endSession (code : UInt16)
  | error (code : UInt16) (message : String)
  | mouseMove (displayId flags : UInt8) (xNorm yNorm modifiers : UInt16)
  | mouseMoveRelative (dx dy : Int16) (modifiers : UInt16) (displayId : UInt8)
  | mouseButton (button : MouseButtonId) (action : KeyAction) (xNorm yNorm modifiers : UInt16)
      (displayId clickCount : UInt8)
  | mouseWheel (deltaV deltaH : Int16) (modifiers : UInt16) (displayId flags : UInt8)
  | keyEvent (usagePage usageId : UInt16) (action : KeyAction) (flags : UInt8)
      (modifiers : UInt16)
  | keyStateSync (modifiers : UInt16) (authoritative : Bool) (pressed : List UInt16)
  | textInput (commit preedit : Bool) (text : String)
  | requestKeyframe (mode : KeyframeMode) (ltrIndex : UInt8) (reason : UInt16)
  | ltrAck (ltrIndex : UInt8) (frameId : UInt16)
  | cursorUpdate (shapeId : UInt32) (xNorm yNorm : UInt16) (displayId : UInt8) (visible : Bool)
  | cursorShape (shapeId : UInt32) (width height hotspotX hotspotY : UInt16) (format : UInt8)
      (data : List UInt8)
  | videoFrame (frameId : UInt32) (fragmentIndex fragmentCount : UInt16)
      (kind temporalLayer : UInt8) (ptsUs : UInt64) (data : List UInt8)
  | qosReport (q : QosReport)
  | unknown (msgType : UInt8) (body : List UInt8)
  deriving DecidableEq, Repr

/-- The message type of a payload.  The last arm is never used for a frame that is sent:
`Rda.ControlFrame.new` takes the code of an unknown body from the body itself. -/
def payloadType : Payload → MessageType
  | .ping .. => .ping
  | .pong .. => .pong
  | .endSession .. => .endSession
  | .error .. => .error
  | .mouseMove .. => .mouseMove
  | .mouseMoveRelative .. => .mouseMoveRelative
  | .mouseButton .. => .mouseButton
  | .mouseWheel .. => .mouseWheel
  | .keyEvent .. => .keyEvent
  | .keyStateSync .. => .keyStateSync
  | .textInput .. => .textInput
  | .requestKeyframe .. => .requestKeyframe
  | .ltrAck .. => .ltrAck
  | .cursorUpdate .. => .cursorUpdate
  | .cursorShape .. => .cursorShape
  | .videoFrame .. => .videoFrame
  | .qosReport .. => .qosReport
  | .unknown .. => .error

/-! ### Text -/

/-- The UTF-8 bytes of a string. -/
def asBytes (s : String) : List UInt8 := s.toByteArray.data.toList

/-- The string a byte sequence encodes, if it is valid UTF-8. -/
def fromUtf8 (bs : List UInt8) : Option String := String.fromUTF8? ⟨⟨bs⟩⟩

/-- The largest character boundary of `s` at or below `end`. -/
def charBoundary (s : String) : ℕ → ℕ
  | 0 => 0
  | e + 1 => if String.Pos.Raw.isValid s ⟨e + 1⟩ then e + 1 else charBoundary s e

/-- Truncates a string to at most `maxBytes`, never splitting a character. -/
def truncateUtf8 (s : String) (maxBytes : ℕ) : String :=
  if s.utf8ByteSize ≤ maxBytes then s
  else String.Pos.Raw.extract s 0 ⟨charBoundary s maxBytes⟩

/-- Unicode category `Cc`. -/
def isControl (c : Char) : Bool := c.val ≤ 0x1F || (0x7F ≤ c.val && c.val ≤ 0x9F)

/-- A control character a text input may not hold: any but tab and newline. -/
def forbiddenControl (c : Char) : Bool := isControl c && c != '\t' && c != '\n'

/-! ### Encoding -/

def boolByte (b : Bool) : UInt8 := if b then 1 else 0

/-- The body of a frame, as it goes on the wire. -/
def encodePayload : Payload → List UInt8
  | .ping token => toBe 4 token.toNat
  | .pong token hostDelayUs => toBe 4 token.toNat ++ toBe 2 hostDelayUs.toNat ++ [0, 0]
  | .endSession code => toBe 2 code.toNat
  | .error code message =>
      let bytes := asBytes (truncateUtf8 message 256)
      toBe 2 code.toNat ++ toBe 2 bytes.length ++ bytes
  | .mouseMove displayId flags xNorm yNorm modifiers =>
      [displayId] ++ [flags] ++ toBe 2 xNorm.toNat ++ toBe 2 yNorm.toNat ++ toBe 2 modifiers.toNat
  | .mouseMoveRelative dx dy modifiers displayId =>
      toBe 2 dx.toUInt16.toNat ++ toBe 2 dy.toUInt16.toNat ++ toBe 2 modifiers.toNat
        ++ [displayId] ++ [0]
  | .mouseButton button action xNorm yNorm modifiers displayId clickCount =>
      [button.code] ++ [action.code] ++ toBe 2 xNorm.toNat ++ toBe 2 yNorm.toNat
        ++ toBe 2 modifiers.toNat ++ [displayId] ++ [clickCount]
  | .mouseWheel deltaV deltaH modifiers displayId flags =>
      toBe 2 deltaV.toUInt16.toNat ++ toBe 2 deltaH.toUInt16.toNat ++ toBe 2 modifiers.toNat
        ++ [displayId] ++ [flags]
  | .keyEvent usagePage usageId action flags modifiers =>
      toBe 2 usagePage.toNat ++ toBe 2 usageId.toNat ++ [action.code] ++ [flags]
        ++ toBe 2 modifiers.toNat
  | .keyStateSync modifiers authoritative pressed =>
      let n := min pressed.length MAX_PRESSED_KEYS
      toBe 2 modifiers.toNat ++ [UInt8.ofNat n] ++ [boolByte authoritative]
        ++ (pressed.take n).flatMap fun usage => toBe 2 usage.toNat
  | .textInput commit preedit text =>
      let bytes := asBytes (truncateUtf8 text MAX_TEXT_INPUT)
      let flags := boolByte commit ||| (boolByte preedit <<< 1)
      toBe 2 bytes.length ++ [flags] ++ [0] ++ bytes
  | .requestKeyframe mode ltrIndex reason => [mode.code] ++ [ltrIndex] ++ toBe 2 reason.toNat
  | .ltrAck ltrIndex frameId => [ltrIndex] ++ [0] ++ toBe 2 frameId.toNat
  | .cursorUpdate shapeId xNorm yNorm displayId visible =>
      toBe 4 shapeId.toNat ++ toBe 2 xNorm.toNat ++ toBe 2 yNorm.toNat ++ [displayId]
        ++ [boolByte visible]
  | .cursorShape shapeId width height hotspotX hotspotY format data =>
      toBe 4 shapeId.toNat ++ toBe 2 width.toNat ++ toBe 2 height.toNat ++ toBe 2 hotspotX.toNat
        ++ toBe 2 hotspotY.toNat ++ [format] ++ [0] ++ toBe 4 data.length ++ data
  | .videoFrame frameId fragmentIndex fragmentCount kind temporalLayer ptsUs data =>
      toBe 4 frameId.toNat ++ toBe 2 fragmentIndex.toNat ++ toBe 2 fragmentCount.toNat ++ [kind]
        ++ [temporalLayer] ++ toBe 8 ptsUs.toNat ++ toBe 4 data.length ++ data
  | .qosReport q =>
      [q.rttMs, q.jitterMs, q.lossPermille, q.framesDecoded, q.framesDropped, q.renderFpsQ8,
        q.playoutDelayMs, q.decodeTimeUs].flatMap fun v => toBe 2 v.toNat
  | .unknown _ body => body

/-! ### Decoding -/

/-- Range-checks a HID usage. -/
def validateUsage (page usage : UInt16) : Except DecodeError Unit :=
  if page = USAGE_PAGE_KEYBOARD then
    if 0x01 ≤ usage ∧ usage ≤ 0xE7 then .ok ()
    else .error (.invalidField "usage_id" usage.toUInt32)
  else if page = USAGE_PAGE_CONSUMER then
    if usage = 0 ∨ 0x029C < usage then .error (.invalidField "usage_id" usage.toUInt32)
    else .ok ()
  else .error (.invalidField "usage_page" page.toUInt32)

/-- The text of a body field, or the error that names it. -/
def utf8Or (why : String) (raw : List UInt8) : Except DecodeError String :=
  match fromUtf8 raw with
  | some s => .ok s
  | none => .error (.invalidText why)

namespace Cursor

def error : Cursor Payload := do
  let code ← u16
  let len := (← u16).toNat
  Wire.reject (256 < len) (.lengthCap "message" len 256)
  let raw ← take len
  let message ← Wire.lift (utf8Or "error message is not valid UTF-8" raw)
  return .error code message

def mouseMoveRelative : Cursor Payload := do
  let dx ← i16
  let dy ← i16
  let modifiers ← u16
  let displayId ← u8
  skipReserved 1
  return .mouseMoveRelative dx dy modifiers displayId

def mouseButton : Cursor Payload := do
  let button ← Wire.lift (MouseButtonId.fromU8 (← u8))
  let action ← Wire.lift (KeyAction.fromU8 (← u8) "action" false)
  let xNorm ← u16
  let yNorm ← u16
  let modifiers ← u16
  let displayId ← u8
  let clickCount ← u8
  Wire.reject (¬ (1 ≤ clickCount ∧ clickCount ≤ 3))
    (.invalidField "click_count" clickCount.toUInt32)
  return .mouseButton button action xNorm yNorm modifiers displayId clickCount

def keyEvent : Cursor Payload := do
  let usagePage ← u16
  let usageId ← u16
  let action ← Wire.lift (KeyAction.fromU8 (← u8) "action" true)
  let flags ← u8
  let modifiers ← u16
  Wire.lift (validateUsage usagePage usageId)
  return .keyEvent usagePage usageId action flags modifiers

/-- One pressed key of a snapshot. -/
def pressedUsage : Cursor UInt16 := do
  let usage ← u16
  Wire.lift (validateUsage USAGE_PAGE_KEYBOARD usage)
  return usage

def keyStateSync : Cursor Payload := do
  let modifiers ← u16
  let count := (← u8).toNat
  let flags ← u8
  Wire.reject (MAX_PRESSED_KEYS < count) (.lengthCap "count" count MAX_PRESSED_KEYS)
  let pressed ← Wire.times count pressedUsage
  return .keyStateSync modifiers (flags &&& 0x01 != 0) pressed

def textInput : Cursor Payload := do
  let len := (← u16).toNat
  let flags ← u8
  skipReserved 1
  Wire.reject (len = 0 ∨ MAX_TEXT_INPUT < len) (.lengthCap "byte_len" len MAX_TEXT_INPUT)
  let raw ← take len
  let text ← Wire.lift (utf8Or "text is not valid UTF-8" raw)
  Wire.reject (text.toList.any forbiddenControl = true)
    (.invalidText "text contains forbidden control characters")
  return .textInput (flags &&& 0x01 != 0) (flags &&& 0x02 != 0) text

def requestKeyframe : Cursor Payload := do
  let mode ← Wire.lift (KeyframeMode.fromU8 (← u8))
  let ltrIndex ← u8
  let reason ← u16
  return .requestKeyframe mode ltrIndex reason

def ltrAck : Cursor Payload := do
  let ltrIndex ← u8
  skipReserved 1
  let frameId ← u16
  return .ltrAck ltrIndex frameId

def cursorUpdate : Cursor Payload := do
  let shapeId ← u32
  let xNorm ← u16
  let yNorm ← u16
  let displayId ← u8
  let flags ← u8
  return .cursorUpdate shapeId xNorm yNorm displayId (flags &&& 0x01 != 0)

def cursorShape : Cursor Payload := do
  let shapeId ← u32
  let width ← u16
  let height ← u16
  let hotspotX ← u16
  let hotspotY ← u16
  let format ← u8
  skipReserved 1
  let dataLen := (← u32).toNat
  Wire.reject (width = 0 ∨ MAX_CURSOR_DIM < width) (.invalidField "width" width.toUInt32)
  Wire.reject (height = 0 ∨ MAX_CURSOR_DIM < height) (.invalidField "height" height.toUInt32)
  Wire.reject (width ≤ hotspotX) (.invalidField "hotspot_x" hotspotX.toUInt32)
  Wire.reject (height ≤ hotspotY) (.invalidField "hotspot_y" hotspotY.toUInt32)
  Wire.reject (MAX_CURSOR_DATA < dataLen) (.lengthCap "data_len" dataLen MAX_CURSOR_DATA)
  -- raw BGRA: the dimensions determine the length
  Wire.reject (format = 0 ∧ dataLen ≠ width.toNat * height.toNat * 4)
    (.lengthCap "data_len" dataLen (width.toNat * height.toNat * 4))
  let data ← take dataLen
  return .cursorShape shapeId width height hotspotX hotspotY format data

def videoFrame : Cursor Payload := do
  let frameId ← u32
  let fragmentIndex ← u16
  let fragmentCount ← u16
  let kind ← u8
  let temporalLayer ← u8
  let ptsHigh ← u32
  let ptsLow ← u32
  let ptsUs := (ptsHigh.toUInt64 <<< 32) ||| ptsLow.toUInt64
  let len := (← u32).toNat
  Wire.reject (2 < kind) (.invalidField "kind" kind.toUInt32)
  Wire.reject (fragmentCount = 0 ∨ MAX_VIDEO_FRAGMENTS < fragmentCount)
    (.invalidField "fragment_count" fragmentCount.toUInt32)
  Wire.reject (fragmentCount ≤ fragmentIndex)
    (.invalidField "fragment_index" fragmentIndex.toUInt32)
  Wire.reject (MAX_VIDEO_FRAGMENT < len) (.lengthCap "data_len" len MAX_VIDEO_FRAGMENT)
  let data ← take len
  return .videoFrame frameId fragmentIndex fragmentCount kind temporalLayer ptsUs data

def qosReport : Cursor Payload := do
  let rttMs ← u16
  let jitterMs ← u16
  let lossPermille ← u16
  let framesDecoded ← u16
  let framesDropped ← u16
  let renderFpsQ8 ← u16
  let playoutDelayMs ← u16
  let decodeTimeUs ← u16
  return .qosReport ⟨rttMs, jitterMs, lossPermille, framesDecoded, framesDropped, renderFpsQ8,
    playoutDelayMs, decodeTimeUs⟩

/-- The body reader of a message type, or `none` for a type whose body is kept as it is:
handshake, display and clipboard bodies are parsed a layer up. -/
def forType : MessageType → Option (Cursor Payload)
  | .ping => some do
      let token ← u32
      return .ping token
  | .pong => some do
      let token ← u32
      let hostDelayUs ← u16
      return .pong token hostDelayUs
  | .endSession => some do
      let code ← u16
      return .endSession code
  | .error => some error
  | .mouseMove => some do
      let displayId ← u8
      let flags ← u8
      let xNorm ← u16
      let yNorm ← u16
      let modifiers ← u16
      return .mouseMove displayId flags xNorm yNorm modifiers
  | .mouseMoveRelative => some mouseMoveRelative
  | .mouseButton => some mouseButton
  | .mouseWheel => some do
      let deltaV ← i16
      let deltaH ← i16
      let modifiers ← u16
      let displayId ← u8
      let flags ← u8
      return .mouseWheel deltaV deltaH modifiers displayId flags
  | .keyEvent => some keyEvent
  | .keyStateSync => some keyStateSync
  | .textInput => some textInput
  | .requestKeyframe => some requestKeyframe
  | .ltrAck => some ltrAck
  | .cursorUpdate => some cursorUpdate
  | .cursorShape => some cursorShape
  | .videoFrame => some videoFrame
  | .qosReport => some qosReport
  | _ => none

end Cursor

/-- Decodes a body.  What the reader leaves behind is ignored. -/
def decodePayload (msgType : UInt8) (body : List UInt8) : Except DecodeError Payload :=
  match MessageType.fromU8 msgType with
  | none => .ok (.unknown msgType body)
  | some ty =>
      match Cursor.forType ty with
      | none => .ok (.unknown msgType body)
      | some p => (p body).map Prod.fst

/-! ### Frames -/

/-- The fixed header. -/
structure Header where
  version : UInt8
  flags : UInt8
  msgType : UInt8
  sequence : UInt16
  timestampMs : UInt32
  deriving DecidableEq, Repr

/-- Parses a header from the first bytes of a buffer. -/
def Header.decode (buf : List UInt8) : Except DecodeError Header :=
  match buf with
  | b0 :: b1 :: b2 :: b3 :: b4 :: b5 :: b6 :: b7 :: _ =>
      let version := b0 >>> 4
      if version ≠ PROTO_VERSION then .error (.badVersion version)
      else .ok
        { version := version
          flags := b0 &&& 0x0F
          msgType := b1
          sequence := UInt16.ofNat (ofBe [b2, b3])
          timestampMs := UInt32.ofNat (ofBe [b4, b5, b6, b7]) }
  | _ => .error (.truncated HEADER_LEN buf.length)

/-- The eight bytes of a header. -/
def Header.encode (h : Header) : List UInt8 :=
  [(h.version <<< 4) ||| (h.flags &&& 0x0F)] ++ [h.msgType] ++ toBe 2 h.sequence.toNat
    ++ toBe 4 h.timestampMs.toNat

/-- A complete frame. -/
structure ControlFrame where
  header : Header
  payload : Payload
  deriving DecidableEq, Repr

namespace ControlFrame

/-- Builds a frame, deriving the message type from the payload. -/
def new (payload : Payload) (sequence : UInt16) (timestampMs : UInt32) : ControlFrame :=
  let msgType :=
    match payload with
    | .unknown msgType _ => msgType
    | other => (payloadType other).code
  { header := ⟨PROTO_VERSION, 0, msgType, sequence, timestampMs⟩, payload := payload }

/-- The channel a frame is sent on; frames of an unknown type go to the control channel. -/
def channel (f : ControlFrame) : Channel :=
  ((MessageType.fromU8 f.header.msgType).map MessageType.channel).getD .control

/-- Serialises a frame. -/
def encode (f : ControlFrame) : List UInt8 := f.header.encode ++ encodePayload f.payload

/-- Parses one complete frame. -/
def decode (buf : List UInt8) : Except DecodeError ControlFrame := do
  let header ← Header.decode buf
  let payload ← decodePayload header.msgType (buf.drop HEADER_LEN)
  return { header, payload }

end ControlFrame

end Rda
