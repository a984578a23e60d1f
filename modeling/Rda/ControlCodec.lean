/-
**The control codec round trip.**

The encoder and the decoder of `Rda/Control.lean` are written separately, field by field.  This
module proves that they agree: a well-formed frame decodes back to itself, and everything the
decoder accepts is well formed.

Each body is handled by an exact read (`Wire.Reads`): the reader of its type consumes precisely
the bytes the encoder wrote, with one exception — a `Pong` ends in two reserved bytes that its
reader never looks at.  `Rda.unread` names that tail, and `Rda.reads_payload` is the one statement
about all the bodies; the round trip here and the framing law of `Rda/ControlFraming.lean` are
both read off it.

Main definitions:

* `Rda.Payload.WellFormed`, `Rda.ControlFrame.WellFormed` — the frames the wire can carry;
* `Rda.unread` — the bytes of a body its reader leaves behind.

Main results:

* `Rda.reads_payload` — **every parsed body is read exactly**, up to its unread tail;
* `Rda.decodePayload_wellFormed` — what the body decoder returns is well formed;
* `Rda.control_codec_round_trip` — the round trip, over all byte strings and all frames.
-/

import Rda.Control

set_option relaxedAutoImplicit false
set_option autoImplicit false

namespace Rda

open Wire (Reads Yields toBe ofBe ofBe_toBe)

/-! ### Well-formed frames -/

/-- The message types whose body this layer keeps as it is. -/
def MessageType.isKept : MessageType → Bool
  | .hello | .helloAck | .authRequest | .authResponse | .sessionReady | .pause | .resume
  | .authConfirm | .displayList | .displaySelect | .qualityHint | .clipboardOffer
  | .clipboardRequest | .clipboardData => true
  | _ => false

/-- Every field within the limits the decoder enforces, and `unknown` only for a type byte whose
body is not parsed. -/
def Payload.WellFormed : Payload → Prop
  | .error _ message => message.utf8ByteSize ≤ 256
  | .mouseButton _ action _ _ _ _ clickCount =>
      action ≠ .repeat ∧ 1 ≤ clickCount ∧ clickCount ≤ 3
  | .keyEvent usagePage usageId _ _ _ => validateUsage usagePage usageId = .ok ()
  | .keyStateSync _ _ pressed =>
      pressed.length ≤ MAX_PRESSED_KEYS ∧
        ∀ usage ∈ pressed, validateUsage USAGE_PAGE_KEYBOARD usage = .ok ()
  | .textInput _ _ text =>
      text.utf8ByteSize ≠ 0 ∧ text.utf8ByteSize ≤ MAX_TEXT_INPUT ∧
        text.toList.any forbiddenControl = false
  | .cursorShape _ width height hotspotX hotspotY format data =>
      width ≠ 0 ∧ width ≤ MAX_CURSOR_DIM ∧ height ≠ 0 ∧ height ≤ MAX_CURSOR_DIM ∧
        hotspotX < width ∧ hotspotY < height ∧ data.length ≤ MAX_CURSOR_DATA ∧
        (format = 0 → data.length = width.toNat * height.toNat * 4)
  | .videoFrame _ fragmentIndex fragmentCount kind _ _ data =>
      kind ≤ 2 ∧ fragmentCount ≠ 0 ∧ fragmentCount ≤ MAX_VIDEO_FRAGMENTS ∧
        fragmentIndex < fragmentCount ∧ data.length ≤ MAX_VIDEO_FRAGMENT
  | .unknown msgType _ => (MessageType.fromU8 msgType).all MessageType.isKept = true
  | _ => True

/-- The type byte a header must carry for a payload. -/
def Payload.typeByte : Payload → UInt8
  | .unknown msgType _ => msgType
  | other => (payloadType other).code

/-- **Well-formed frames**: our version, a flag nibble, the type byte of the payload, and a
payload within the decoder's limits. -/
def ControlFrame.WellFormed (f : ControlFrame) : Prop :=
  f.header.version = PROTO_VERSION ∧ f.header.flags ≤ 0x0F ∧
    f.header.msgType = f.payload.typeByte ∧ f.payload.WellFormed

instance : (p : Payload) → Decidable p.WellFormed
  | .error .. => inferInstanceAs (Decidable (_ ≤ _))
  | .mouseButton .. => inferInstanceAs (Decidable (_ ∧ _ ∧ _))
  | .keyEvent .. => inferInstanceAs (Decidable (_ = _))
  | .keyStateSync _ _ pressed =>
      inferInstanceAs (Decidable (_ ∧ ∀ usage ∈ pressed, _ = _))
  | .textInput .. => inferInstanceAs (Decidable (_ ∧ _ ∧ _))
  | .cursorShape .. =>
      inferInstanceAs (Decidable (_ ∧ _ ∧ _ ∧ _ ∧ _ ∧ _ ∧ _ ∧ (_ → _)))
  | .videoFrame .. => inferInstanceAs (Decidable (_ ∧ _ ∧ _ ∧ _ ∧ _))
  | .unknown .. => inferInstanceAs (Decidable (_ = _))
  | .ping .. | .pong .. | .endSession .. | .mouseMove .. | .mouseMoveRelative .. | .mouseWheel ..
  | .requestKeyframe .. | .ltrAck .. | .cursorUpdate .. | .qosReport .. => isTrue trivial

instance (f : ControlFrame) : Decidable f.WellFormed :=
  inferInstanceAs (Decidable (_ ∧ _))

/-! ### Reading back single fields -/

namespace Cursor

theorem reads_take (bs : List UInt8) : Reads (take bs.length) bs bs := Reads.take _ rfl

theorem reads_u8 (v : UInt8) : Reads u8 [v] v := by
  have h := (reads_take [v]).last fun b => UInt8.ofNat (ofBe b)
  have hv : UInt8.ofNat (ofBe [v]) = v := by simp [ofBe]
  rwa [hv] at h

/-- A sixteen-bit word reads back, whatever the number it was cut from. -/
theorem reads_u16_ofNat (n : ℕ) : Reads u16 (toBe 2 n) (UInt16.ofNat n) := by
  have h := (Reads.take DecodeError.truncated (Wire.toBe_length 2 n)).last
    fun b => UInt16.ofNat (ofBe b)
  have hv : UInt16.ofNat (ofBe (toBe 2 n)) = UInt16.ofNat n := by
    rw [ofBe_toBe, ← UInt16.toNat_inj]
    simp
  rwa [hv] at h

theorem reads_u16 (v : UInt16) : Reads u16 (toBe 2 v.toNat) v := by
  have h := reads_u16_ofNat v.toNat
  rwa [UInt16.ofNat_toNat] at h

theorem reads_i16 (v : Int16) : Reads i16 (toBe 2 v.toUInt16.toNat) v :=
  (reads_u16 v.toUInt16).last UInt16.toInt16

/-- A thirty-two-bit word reads back, whatever the number it was cut from. -/
theorem reads_u32_ofNat (n : ℕ) : Reads u32 (toBe 4 n) (UInt32.ofNat n) := by
  have h := (Reads.take DecodeError.truncated (Wire.toBe_length 4 n)).last
    fun b => UInt32.ofNat (ofBe b)
  have hv : UInt32.ofNat (ofBe (toBe 4 n)) = UInt32.ofNat n := by
    rw [ofBe_toBe, ← UInt32.toNat_inj]
    simp
  rwa [hv] at h

theorem reads_u32 (v : UInt32) : Reads u32 (toBe 4 v.toNat) v := by
  have h := reads_u32_ofNat v.toNat
  rwa [UInt32.ofNat_toNat] at h

theorem reads_skipReserved (b : UInt8) : Reads (skipReserved 1) [b] () :=
  (reads_take [b]).last fun _ => ()

/-- A body of plain fields reads back field by field. -/
theorem reads_ltrAck (ltrIndex : UInt8) (frameId : UInt16) :
    Reads ltrAck (encodePayload (.ltrAck ltrIndex frameId)) (.ltrAck ltrIndex frameId) := by
  simp only [encodePayload, List.append_assoc]
  exact (reads_u8 ltrIndex).bind ((reads_skipReserved 0).bind
    ((reads_u16 frameId).last fun _ => _))

end Cursor

/-! ### Reading back enumerations, text and flags -/

@[simp] theorem MessageType.fromU8_code (ty : MessageType) : fromU8 ty.code = some ty := by
  cases ty <;> rfl

theorem MouseButtonId.fromU8_code (b : MouseButtonId) : fromU8 b.code = .ok b := by
  cases b <;> rfl

theorem KeyframeMode.fromU8_code (m : KeyframeMode) : fromU8 m.code = .ok m := by
  cases m <;> rfl

/-- An action reads back wherever repeats are allowed, and everywhere if it is not a repeat. -/
theorem KeyAction.fromU8_code (a : KeyAction) (field : String) (allowRepeat : Bool)
    (h : a = .repeat → allowRepeat = true) : fromU8 a.code field allowRepeat = .ok a := by
  cases a with
  | up => rfl
  | down => rfl
  | «repeat» => rw [h rfl]; rfl

theorem asBytes_length (s : String) : (asBytes s).length = s.utf8ByteSize := rfl

theorem fromUtf8_asBytes (s : String) : fromUtf8 (asBytes s) = some s := by
  have h : String.fromUTF8? s.toByteArray = some s := dif_pos s.isValidUTF8
  exact h

theorem asBytes_ofList (cs : List Char) :
    asBytes (String.ofList cs) = cs.flatMap String.utf8EncodeChar := by
  simp [asBytes, List.utf8Encode]

theorem asBytes_injective : Function.Injective asBytes := by
  intro s t h
  have := fromUtf8_asBytes s
  rw [h, fromUtf8_asBytes t] at this
  exact (Option.some.inj this).symm

theorem asBytes_of_fromUtf8 {bs : List UInt8} {s : String} (h : fromUtf8 bs = some s) :
    asBytes s = bs := by
  unfold fromUtf8 String.fromUTF8? at h
  split at h
  · rw [← Option.some_inj.1 h]
    rfl
  · cases h

theorem utf8Or_asBytes (why : String) (s : String) : utf8Or why (asBytes s) = .ok s := by
  simp [utf8Or, fromUtf8_asBytes]

theorem utf8ByteSize_of_utf8Or {why : String} {raw : List UInt8} {s : String}
    (h : utf8Or why raw = .ok s) : s.utf8ByteSize = raw.length := by
  unfold utf8Or at h
  split at h
  · next t ht =>
      rw [← Except.ok.inj h, ← asBytes_of_fromUtf8 ht, asBytes_length]
  · cases h

theorem truncateUtf8_of_le {s : String} {n : ℕ} (h : s.utf8ByteSize ≤ n) : truncateUtf8 s n = s :=
  if_pos h

@[simp] theorem boolByte_and_one (b : Bool) : (boolByte b &&& 0x01 != 0) = b := by
  cases b <;> rfl

@[simp] theorem textFlags_commit (c p : Bool) :
    ((boolByte c ||| (boolByte p <<< 1)) &&& 0x01 != 0) = c := by
  cases c <;> cases p <;> rfl

@[simp] theorem textFlags_preedit (c p : Bool) :
    ((boolByte c ||| (boolByte p <<< 1)) &&& 0x02 != 0) = p := by
  cases c <;> cases p <;> rfl

/-- A sixty-four-bit word is what its two halves are reassembled to. -/
theorem u64_of_halves (v : UInt64) :
    ((UInt32.ofNat (v.toNat / 256 ^ 4)).toUInt64 <<< 32) ||| (UInt32.ofNat v.toNat).toUInt64
      = v := by
  have hlt : v.toNat < 2 ^ 64 := v.toNat_lt
  rw [← UInt64.toNat_inj]
  simp only [UInt64.toNat_or, UInt64.toNat_shiftLeft, UInt32.toNat_toUInt64, UInt32.toNat_ofNat']
  have hhi : v.toNat / 256 ^ 4 % 2 ^ 32 = v.toNat / 2 ^ 32 := by omega
  have hsh : (32 : UInt64).toNat % 64 = 32 := rfl
  rw [hhi, hsh, Nat.shiftLeft_eq, Nat.mod_eq_of_lt (by omega), Nat.mul_comm,
    ← Nat.two_pow_add_eq_or_of_lt (Nat.mod_lt _ (by decide))]
  omega

/-! ### Reading back bodies -/

namespace Cursor

theorem reads_error {code : UInt16} {message : String}
    (h : (Payload.error code message).WellFormed) :
    Reads error (encodePayload (.error code message)) (.error code message) := by
  have hlen : (asBytes message).length ≤ 256 := h
  have hnat : (UInt16.ofNat (asBytes message).length).toNat = (asBytes message).length := by
    rw [UInt16.toNat_ofNat']; omega
  simp only [encodePayload, truncateUtf8_of_le h, List.append_assoc]
  refine (reads_u16 code).bind ((reads_u16_ofNat _).bind ?_)
  rw [hnat]
  refine Reads.seq (Reads.reject _ (by omega)) ?_
  refine (reads_take _).check ?_
  exact Reads.seq (Reads.lift (utf8Or_asBytes _ _)) (Reads.pure _)

theorem reads_mouseMoveRelative (dx dy : Int16) (modifiers : UInt16) (displayId : UInt8) :
    Reads mouseMoveRelative (encodePayload (.mouseMoveRelative dx dy modifiers displayId))
      (.mouseMoveRelative dx dy modifiers displayId) := by
  simp only [encodePayload, List.append_assoc]
  exact (reads_i16 dx).bind ((reads_i16 dy).bind ((reads_u16 modifiers).bind
    ((reads_u8 displayId).bind ((reads_skipReserved 0).last fun _ => _))))

theorem reads_mouseButton {button : MouseButtonId} {action : KeyAction}
    {xNorm yNorm modifiers : UInt16} {displayId clickCount : UInt8}
    (h : (Payload.mouseButton button action xNorm yNorm modifiers displayId
      clickCount).WellFormed) :
    Reads mouseButton
      (encodePayload (.mouseButton button action xNorm yNorm modifiers displayId clickCount))
      (.mouseButton button action xNorm yNorm modifiers displayId clickCount) := by
  obtain ⟨haction, hclick⟩ := h
  have hact : KeyAction.fromU8 action.code "action" false = .ok action :=
    KeyAction.fromU8_code _ _ _ fun h => absurd h haction
  simp only [encodePayload, List.append_assoc]
  refine (reads_u8 button.code).bind (Reads.seq (Reads.lift (MouseButtonId.fromU8_code _)) ?_)
  refine (reads_u8 action.code).bind (Reads.seq (Reads.lift hact) ?_)
  refine (reads_u16 xNorm).bind ((reads_u16 yNorm).bind ((reads_u16 modifiers).bind ?_))
  refine (reads_u8 displayId).bind ?_
  exact (reads_u8 clickCount).check
    (Reads.seq (Reads.reject _ (not_not_intro hclick)) (Reads.pure _))

theorem reads_keyEvent {usagePage usageId : UInt16} {action : KeyAction} {flags : UInt8}
    {modifiers : UInt16}
    (h : (Payload.keyEvent usagePage usageId action flags modifiers).WellFormed) :
    Reads keyEvent (encodePayload (.keyEvent usagePage usageId action flags modifiers))
      (.keyEvent usagePage usageId action flags modifiers) := by
  have hact : KeyAction.fromU8 action.code "action" true = .ok action :=
    KeyAction.fromU8_code _ _ _ fun _ => rfl
  simp only [encodePayload, List.append_assoc]
  refine (reads_u16 usagePage).bind ((reads_u16 usageId).bind ?_)
  refine (reads_u8 action.code).bind (Reads.seq (Reads.lift hact) ?_)
  refine (reads_u8 flags).bind ?_
  exact (reads_u16 modifiers).check (Reads.seq (Reads.lift h) (Reads.pure _))

theorem reads_pressedUsage {usage : UInt16}
    (h : validateUsage USAGE_PAGE_KEYBOARD usage = .ok ()) :
    Reads pressedUsage (toBe 2 usage.toNat) usage :=
  (reads_u16 usage).check (Reads.seq (Reads.lift h) (Reads.pure _))

theorem reads_keyStateSync {modifiers : UInt16} {authoritative : Bool} {pressed : List UInt16}
    (h : (Payload.keyStateSync modifiers authoritative pressed).WellFormed) :
    Reads keyStateSync (encodePayload (.keyStateSync modifiers authoritative pressed))
      (.keyStateSync modifiers authoritative pressed) := by
  obtain ⟨hlen, husage⟩ := h
  have hmax : pressed.length ≤ 32 := hlen
  have hnat : (UInt8.ofNat pressed.length).toNat = pressed.length := by
    rw [UInt8.toNat_ofNat']; omega
  simp only [encodePayload, Nat.min_eq_left hlen, List.take_length, List.append_assoc]
  refine (reads_u16 modifiers).bind ((reads_u8 _).bind ((reads_u8 _).bind ?_))
  rw [hnat, boolByte_and_one]
  refine Reads.seq (Reads.reject _ (Nat.not_lt.2 hlen)) ?_
  exact (Reads.times fun usage hu => reads_pressedUsage (husage usage hu)).last fun _ => _

theorem reads_textInput {commit preedit : Bool} {text : String}
    (h : (Payload.textInput commit preedit text).WellFormed) :
    Reads textInput (encodePayload (.textInput commit preedit text))
      (.textInput commit preedit text) := by
  obtain ⟨hpos, hle, hctl⟩ := h
  have hmax : (asBytes text).length ≤ 1024 := hle
  have hnat : (UInt16.ofNat (asBytes text).length).toNat = (asBytes text).length := by
    rw [UInt16.toNat_ofNat']; omega
  have hcap : ¬ ((asBytes text).length = 0 ∨ MAX_TEXT_INPUT < (asBytes text).length) :=
    not_or.2 ⟨hpos, Nat.not_lt.2 hle⟩
  simp only [encodePayload, truncateUtf8_of_le hle, List.append_assoc]
  refine (reads_u16_ofNat _).bind ((reads_u8 _).bind ((reads_skipReserved 0).bind ?_))
  rw [hnat, textFlags_commit, textFlags_preedit]
  refine Reads.seq (Reads.reject _ hcap) ?_
  refine (reads_take _).check ?_
  refine Reads.seq (Reads.lift (utf8Or_asBytes _ _)) ?_
  exact Reads.seq (Reads.reject _ (by simp [hctl])) (Reads.pure _)

theorem reads_requestKeyframe (mode : KeyframeMode) (ltrIndex : UInt8) (reason : UInt16) :
    Reads requestKeyframe (encodePayload (.requestKeyframe mode ltrIndex reason))
      (.requestKeyframe mode ltrIndex reason) := by
  simp only [encodePayload, List.append_assoc]
  refine (reads_u8 mode.code).bind (Reads.seq (Reads.lift (KeyframeMode.fromU8_code _)) ?_)
  exact (reads_u8 ltrIndex).bind ((reads_u16 reason).last fun _ => _)

theorem reads_cursorUpdate (shapeId : UInt32) (xNorm yNorm : UInt16) (displayId : UInt8)
    (visible : Bool) :
    Reads cursorUpdate (encodePayload (.cursorUpdate shapeId xNorm yNorm displayId visible))
      (.cursorUpdate shapeId xNorm yNorm displayId visible) := by
  simp only [encodePayload, List.append_assoc]
  refine (reads_u32 shapeId).bind ((reads_u16 xNorm).bind ((reads_u16 yNorm).bind ?_))
  have hflags := (reads_u8 (boolByte visible)).last
    fun flags => Payload.cursorUpdate shapeId xNorm yNorm displayId (flags &&& 0x01 != 0)
  rw [boolByte_and_one] at hflags
  exact (reads_u8 displayId).bind hflags

theorem reads_cursorShape {shapeId : UInt32} {width height hotspotX hotspotY : UInt16}
    {format : UInt8} {data : List UInt8}
    (h : (Payload.cursorShape shapeId width height hotspotX hotspotY format data).WellFormed) :
    Reads cursorShape
      (encodePayload (.cursorShape shapeId width height hotspotX hotspotY format data))
      (.cursorShape shapeId width height hotspotX hotspotY format data) := by
  obtain ⟨hw, hwmax, hh, hhmax, hx, hy, hdata, hformat⟩ := h
  have hmax : data.length ≤ 256 * 1024 := hdata
  have hnat : (UInt32.ofNat data.length).toNat = data.length := by
    rw [UInt32.toNat_ofNat']; omega
  simp only [encodePayload, List.append_assoc]
  refine (reads_u32 shapeId).bind ((reads_u16 width).bind ((reads_u16 height).bind ?_))
  refine (reads_u16 hotspotX).bind ((reads_u16 hotspotY).bind ((reads_u8 format).bind ?_))
  refine (reads_skipReserved 0).bind ?_
  refine (reads_u32_ofNat _).bind ?_
  rw [hnat]
  refine Reads.seq (Reads.reject _ (not_or.2 ⟨hw, UInt16.not_lt.2 hwmax⟩)) ?_
  refine Reads.seq (Reads.reject _ (not_or.2 ⟨hh, UInt16.not_lt.2 hhmax⟩)) ?_
  refine Reads.seq (Reads.reject _ (UInt16.not_le.2 hx)) ?_
  refine Reads.seq (Reads.reject _ (UInt16.not_le.2 hy)) ?_
  refine Reads.seq (Reads.reject _ (Nat.not_lt.2 hdata)) ?_
  refine Reads.seq (Reads.reject _ (by rintro ⟨hf, hne⟩; exact hne (hformat hf))) ?_
  exact (reads_take data).last fun _ => _

theorem reads_videoFrame {frameId : UInt32} {fragmentIndex fragmentCount : UInt16}
    {kind temporalLayer : UInt8} {ptsUs : UInt64} {data : List UInt8}
    (h : (Payload.videoFrame frameId fragmentIndex fragmentCount kind temporalLayer ptsUs
      data).WellFormed) :
    Reads videoFrame
      (encodePayload
        (.videoFrame frameId fragmentIndex fragmentCount kind temporalLayer ptsUs data))
      (.videoFrame frameId fragmentIndex fragmentCount kind temporalLayer ptsUs data) := by
  obtain ⟨hkind, hcount, hcountmax, hindex, hdata⟩ := h
  have hmax : data.length ≤ 16 * 1024 := hdata
  have hnat : (UInt32.ofNat data.length).toNat = data.length := by
    rw [UInt32.toNat_ofNat']; omega
  -- the encoder writes the timestamp as one word, the decoder reads it as two
  simp only [encodePayload, Wire.toBe_add 4 4 ptsUs.toNat, List.append_assoc]
  refine (reads_u32 frameId).bind ((reads_u16 fragmentIndex).bind
    ((reads_u16 fragmentCount).bind ?_))
  refine (reads_u8 kind).bind ((reads_u8 temporalLayer).bind ?_)
  refine (reads_u32_ofNat _).bind ((reads_u32_ofNat _).bind ((reads_u32_ofNat _).bind ?_))
  rw [hnat, u64_of_halves]
  refine Reads.seq (Reads.reject _ (UInt8.not_lt.2 hkind)) ?_
  refine Reads.seq (Reads.reject _ (not_or.2 ⟨hcount, UInt16.not_lt.2 hcountmax⟩)) ?_
  refine Reads.seq (Reads.reject _ (UInt16.not_le.2 hindex)) ?_
  refine Reads.seq (Reads.reject _ (Nat.not_lt.2 hdata)) ?_
  exact (reads_take data).last fun _ => _

theorem reads_qosReport (q : QosReport) :
    Reads qosReport (encodePayload (.qosReport q)) (.qosReport q) := by
  simp only [encodePayload, List.flatMap_cons, List.flatMap_nil, List.append_nil]
  exact (reads_u16 q.rttMs).bind ((reads_u16 q.jitterMs).bind ((reads_u16 q.lossPermille).bind
    ((reads_u16 q.framesDecoded).bind ((reads_u16 q.framesDropped).bind
      ((reads_u16 q.renderFpsQ8).bind ((reads_u16 q.playoutDelayMs).bind
        ((reads_u16 q.decodeTimeUs).last fun _ => _)))))))

end Cursor

/-- The bytes of a body its reader leaves behind: the reserved tail of a `Pong`. -/
def unread : Payload → List UInt8
  | .pong .. => [0, 0]
  | _ => []

/-- Whether a payload is a body kept as it is. -/
def Payload.isUnknown : Payload → Bool
  | .unknown .. => true
  | _ => false

/-- **Every parsed body is read exactly**, up to its unread tail. -/
theorem reads_payload {p : Payload} (h : p.WellFormed) (hp : p.isUnknown = false) :
    ∃ r body, Cursor.forType (payloadType p) = some r ∧ encodePayload p = body ++ unread p ∧
      Reads r body p := by
  cases p with
  | ping token =>
      exact ⟨_, _, rfl, (List.append_nil _).symm, (Cursor.reads_u32 token).last Payload.ping⟩
  | pong token hostDelayUs =>
      exact ⟨_, _, rfl, rfl, (Cursor.reads_u32 token).bind
        ((Cursor.reads_u16 hostDelayUs).last fun _ => _)⟩
  | endSession code =>
      exact ⟨_, _, rfl, (List.append_nil _).symm, (Cursor.reads_u16 code).last Payload.endSession⟩
  | error code message => exact ⟨_, _, rfl, (List.append_nil _).symm, Cursor.reads_error h⟩
  | mouseMove displayId flags xNorm yNorm modifiers =>
      refine ⟨_, _, rfl, (List.append_nil _).symm, ?_⟩
      simp only [encodePayload, List.append_assoc]
      exact (Cursor.reads_u8 displayId).bind ((Cursor.reads_u8 flags).bind
        ((Cursor.reads_u16 xNorm).bind ((Cursor.reads_u16 yNorm).bind
          ((Cursor.reads_u16 modifiers).last fun _ => _))))
  | mouseMoveRelative dx dy modifiers displayId =>
      exact ⟨_, _, rfl, (List.append_nil _).symm, Cursor.reads_mouseMoveRelative ..⟩
  | mouseButton button action xNorm yNorm modifiers displayId clickCount =>
      exact ⟨_, _, rfl, (List.append_nil _).symm, Cursor.reads_mouseButton h⟩
  | mouseWheel deltaV deltaH modifiers displayId flags =>
      refine ⟨_, _, rfl, (List.append_nil _).symm, ?_⟩
      simp only [encodePayload, List.append_assoc]
      exact (Cursor.reads_i16 deltaV).bind ((Cursor.reads_i16 deltaH).bind
        ((Cursor.reads_u16 modifiers).bind ((Cursor.reads_u8 displayId).bind
          ((Cursor.reads_u8 flags).last fun _ => _))))
  | keyEvent usagePage usageId action flags modifiers =>
      exact ⟨_, _, rfl, (List.append_nil _).symm, Cursor.reads_keyEvent h⟩
  | keyStateSync modifiers authoritative pressed =>
      exact ⟨_, _, rfl, (List.append_nil _).symm, Cursor.reads_keyStateSync h⟩
  | textInput commit preedit text =>
      exact ⟨_, _, rfl, (List.append_nil _).symm, Cursor.reads_textInput h⟩
  | requestKeyframe mode ltrIndex reason =>
      exact ⟨_, _, rfl, (List.append_nil _).symm, Cursor.reads_requestKeyframe ..⟩
  | ltrAck ltrIndex frameId =>
      exact ⟨_, _, rfl, (List.append_nil _).symm, Cursor.reads_ltrAck ..⟩
  | cursorUpdate shapeId xNorm yNorm displayId visible =>
      exact ⟨_, _, rfl, (List.append_nil _).symm, Cursor.reads_cursorUpdate ..⟩
  | cursorShape shapeId width height hotspotX hotspotY format data =>
      exact ⟨_, _, rfl, (List.append_nil _).symm, Cursor.reads_cursorShape h⟩
  | videoFrame frameId fragmentIndex fragmentCount kind temporalLayer ptsUs data =>
      exact ⟨_, _, rfl, (List.append_nil _).symm, Cursor.reads_videoFrame h⟩
  | qosReport q => exact ⟨_, _, rfl, (List.append_nil _).symm, Cursor.reads_qosReport q⟩
  | unknown msgType body => cases hp

theorem Payload.typeByte_of_parsed {p : Payload} (hp : p.isUnknown = false) :
    p.typeByte = (payloadType p).code := by
  cases p <;> first | rfl | cases hp

theorem Cursor.forType_of_isKept {ty : MessageType} (h : ty.isKept = true) :
    Cursor.forType ty = none := by
  cases ty <;> first | rfl | cases h

/-- A body of a parsed type decodes as its reader says. -/
theorem decodePayload_of_reader {ty : MessageType} {r : Cursor Payload} (body : List UInt8)
    (h : Cursor.forType ty = some r) : decodePayload ty.code body = (r body).map Prod.fst := by
  simp only [decodePayload, MessageType.fromU8_code, h]

/-- A body kept as it is decodes to itself. -/
theorem decodePayload_of_kept {msgType : UInt8} (body : List UInt8)
    (h : (MessageType.fromU8 msgType).all MessageType.isKept = true) :
    decodePayload msgType body = .ok (.unknown msgType body) := by
  unfold decodePayload
  cases hty : MessageType.fromU8 msgType with
  | none => rfl
  | some ty =>
      have hk : ty.isKept = true := by simpa [hty] using h
      simp only [Cursor.forType_of_isKept hk]

/-- A well-formed body decodes back to itself, whatever follows it if its type is parsed. -/
theorem decodePayload_encodePayload {p : Payload} (h : p.WellFormed) (extra : List UInt8)
    (hx : p.isUnknown = true → extra = []) :
    decodePayload p.typeByte (encodePayload p ++ extra) = .ok p := by
  cases hp : p.isUnknown with
  | false =>
      obtain ⟨r, body, hr, hbody, hreads⟩ := reads_payload h hp
      rw [Payload.typeByte_of_parsed hp, decodePayload_of_reader _ hr, hbody, List.append_assoc,
        hreads.full]
      rfl
  | true =>
      rw [hx hp, List.append_nil]
      cases p with
      | unknown msgType body => exact decodePayload_of_kept body h
      | _ => cases hp

/-! ### What the decoder accepts -/

theorem MessageType.code_of_fromU8 {v : UInt8} {ty : MessageType} (h : fromU8 v = some ty) :
    ty.code = v := by
  unfold fromU8 at h
  split at h
  case h_32 => cases h
  all_goals
    next hv =>
      rw [← Option.some_inj.1 h, ← UInt8.toNat_inj, hv]
      rfl

/-- The postcondition of every body reader. -/
def Accepted (ty : MessageType) (p : Payload) : Prop := p.WellFormed ∧ p.typeByte = ty.code

namespace Cursor

theorem yields_error : Yields error (Accepted .error) := by
  refine Yields.skip fun code => Yields.skip fun len => (Yields.reject _).bind fun _ hlen => ?_
  refine (Yields.take _ _).bind fun raw hraw => (Yields.lift _).bind fun message hm => ?_
  refine Yields.pure ⟨?_, rfl⟩
  have hsize : message.utf8ByteSize = raw.length := utf8ByteSize_of_utf8Or hm
  change message.utf8ByteSize ≤ 256
  omega

theorem yields_mouseButton : Yields mouseButton (Accepted .mouseButton) := by
  refine Yields.skip fun b => Yields.skip fun button => Yields.skip fun a => ?_
  refine (Yields.lift _).bind fun action ha => ?_
  refine Yields.skip fun _ => Yields.skip fun _ => Yields.skip fun _ => Yields.skip fun _ => ?_
  refine Yields.skip fun clickCount => (Yields.reject _).bind fun _ hclick => ?_
  refine Yields.pure ⟨⟨?_, not_not.1 hclick⟩, rfl⟩
  -- a button is never decoded with repeats allowed
  rintro rfl
  unfold KeyAction.fromU8 at ha
  split at ha <;> simp_all

theorem yields_keyEvent : Yields keyEvent (Accepted .keyEvent) := by
  refine Yields.skip fun usagePage => Yields.skip fun usageId => Yields.skip fun a => ?_
  refine Yields.skip fun action => Yields.skip fun flags => Yields.skip fun modifiers => ?_
  exact (Yields.lift _).bind fun _ hu => Yields.pure ⟨hu, rfl⟩

theorem yields_pressedUsage :
    Yields pressedUsage fun usage => validateUsage USAGE_PAGE_KEYBOARD usage = .ok () :=
  Yields.skip fun _ => (Yields.lift _).bind fun _ hu => Yields.pure hu

theorem yields_keyStateSync : Yields keyStateSync (Accepted .keyStateSync) := by
  refine Yields.skip fun modifiers => Yields.skip fun count => Yields.skip fun flags => ?_
  refine (Yields.reject _).bind fun _ hcount => ?_
  refine (yields_pressedUsage.times _).bind fun pressed hpressed => Yields.pure ⟨⟨?_, ?_⟩, rfl⟩
  · rw [hpressed.1]
    exact Nat.not_lt.1 hcount
  · exact hpressed.2

theorem yields_textInput : Yields textInput (Accepted .textInput) := by
  refine Yields.skip fun len => Yields.skip fun flags => Yields.skip fun _ => ?_
  refine (Yields.reject _).bind fun _ hlen => (Yields.take _ _).bind fun raw hraw => ?_
  refine (Yields.lift _).bind fun text ht => (Yields.reject _).bind fun _ hctl => ?_
  have hsize : text.utf8ByteSize = len.toNat := (utf8ByteSize_of_utf8Or ht).trans hraw
  obtain ⟨hpos, hmax⟩ := not_or.1 hlen
  refine Yields.pure ⟨⟨?_, ?_, ?_⟩, rfl⟩
  · rw [hsize]; exact hpos
  · rw [hsize]; exact Nat.not_lt.1 hmax
  · exact Bool.not_eq_true _ ▸ hctl

theorem yields_cursorShape : Yields cursorShape (Accepted .cursorShape) := by
  refine Yields.skip fun shapeId => Yields.skip fun width => Yields.skip fun height => ?_
  refine Yields.skip fun hotspotX => Yields.skip fun hotspotY => Yields.skip fun format => ?_
  refine Yields.skip fun _ => Yields.skip fun dataLen => ?_
  refine (Yields.reject _).bind fun _ hw => (Yields.reject _).bind fun _ hh => ?_
  refine (Yields.reject _).bind fun _ hx => (Yields.reject _).bind fun _ hy => ?_
  refine (Yields.reject _).bind fun _ hmax => (Yields.reject _).bind fun _ hfmt => ?_
  refine (Yields.take _ _).bind fun data hdata => Yields.pure ⟨?_, rfl⟩
  obtain ⟨hw₀, hw₁⟩ := not_or.1 hw
  obtain ⟨hh₀, hh₁⟩ := not_or.1 hh
  refine ⟨hw₀, UInt16.not_lt.1 hw₁, hh₀, UInt16.not_lt.1 hh₁, UInt16.not_le.1 hx,
    UInt16.not_le.1 hy, ?_, ?_⟩
  · rw [hdata]; exact Nat.not_lt.1 hmax
  · intro hf
    rw [hdata]
    by_contra hne
    exact hfmt ⟨hf, hne⟩

theorem yields_videoFrame : Yields videoFrame (Accepted .videoFrame) := by
  refine Yields.skip fun frameId => Yields.skip fun index => Yields.skip fun count => ?_
  refine Yields.skip fun kind => Yields.skip fun layer => Yields.skip fun hi => ?_
  refine Yields.skip fun lo => Yields.skip fun len => ?_
  refine (Yields.reject _).bind fun _ hkind => (Yields.reject _).bind fun _ hcount => ?_
  refine (Yields.reject _).bind fun _ hindex => (Yields.reject _).bind fun _ hlen => ?_
  refine (Yields.take _ _).bind fun data hdata => Yields.pure ⟨?_, rfl⟩
  obtain ⟨hc₀, hc₁⟩ := not_or.1 hcount
  refine ⟨UInt8.not_lt.1 hkind, hc₀, UInt16.not_lt.1 hc₁, UInt16.not_le.1 hindex, ?_⟩
  rw [hdata]
  exact Nat.not_lt.1 hlen

/-- Every body reader returns a well-formed payload of its own type. -/
theorem yields_forType {ty : MessageType} {r : Cursor Payload} (h : forType ty = some r) :
    Yields r (Accepted ty) := by
  cases ty <;> simp only [forType, Option.some.injEq, reduceCtorEq] at h <;> subst h
  case error => exact yields_error
  case mouseButton => exact yields_mouseButton
  case keyEvent => exact yields_keyEvent
  case keyStateSync => exact yields_keyStateSync
  case textInput => exact yields_textInput
  case cursorShape => exact yields_cursorShape
  case videoFrame => exact yields_videoFrame
  -- the remaining bodies have no field with a limit
  all_goals
    repeat refine Yields.skip fun _ => ?_
    exact Yields.pure ⟨trivial, rfl⟩

theorem isKept_of_forType {ty : MessageType} (h : forType ty = none) : ty.isKept = true := by
  cases ty <;> first | rfl | cases h

end Cursor

/-- What the body decoder returns is well formed and carries the type byte it was given. -/
theorem decodePayload_wellFormed {msgType : UInt8} {body : List UInt8} {p : Payload}
    (h : decodePayload msgType body = .ok p) : p.WellFormed ∧ p.typeByte = msgType := by
  unfold decodePayload at h
  split at h
  · next hty =>
      rw [← Except.ok.inj h]
      refine ⟨?_, rfl⟩
      simp [Payload.WellFormed, hty]
  · next ty hty =>
      split at h
      · next hr =>
          rw [← Except.ok.inj h]
          refine ⟨?_, rfl⟩
          simp [Payload.WellFormed, hty, Cursor.isKept_of_forType hr]
      · next r hr =>
          cases hb : r body with
          | error e => rw [hb] at h; cases h
          | ok q =>
              rw [hb] at h
              have hacc : Accepted ty q.1 := Cursor.yields_forType hr body q.1 q.2 hb
              rw [← Except.ok.inj h]
              exact ⟨hacc.1, hacc.2.trans (MessageType.code_of_fromU8 hty)⟩

/-! ### Headers -/

theorem Header.length_encode (h : Header) : h.encode.length = HEADER_LEN := by
  simp [Header.encode, HEADER_LEN]

/-- The first byte splits back into version and flags. -/
theorem versionByte_split {flags : UInt8} (h : flags ≤ 0x0F) :
    ((PROTO_VERSION <<< 4) ||| (flags &&& 0x0F)) >>> 4 = PROTO_VERSION ∧
      ((PROTO_VERSION <<< 4) ||| (flags &&& 0x0F)) &&& 0x0F = flags := by
  have hall : ∀ n : Fin 16, ((PROTO_VERSION <<< 4) ||| (UInt8.ofNat n &&& 0x0F)) >>> 4
      = PROTO_VERSION ∧ ((PROTO_VERSION <<< 4) ||| (UInt8.ofNat n &&& 0x0F)) &&& 0x0F
        = UInt8.ofNat n := by decide
  have hlt : flags.toNat < 16 := Nat.lt_succ_of_le (UInt8.le_iff_toNat_le.1 h)
  have := hall ⟨flags.toNat, hlt⟩
  rwa [UInt8.ofNat_toNat] at this

/-- A header of our version reads back, whatever follows it. -/
theorem Header.decode_encode_append {h : Header} (hv : h.version = PROTO_VERSION)
    (hf : h.flags ≤ 0x0F) (rest : List UInt8) : Header.decode (h.encode ++ rest) = .ok h := by
  obtain ⟨version, flags, msgType, sequence, timestampMs⟩ := h
  simp only at hv hf
  subst hv
  obtain ⟨hver, hflags⟩ := versionByte_split hf
  have hseq : UInt16.ofNat (ofBe (toBe 2 sequence.toNat)) = sequence := by
    rw [ofBe_toBe, ← UInt16.toNat_inj]
    simp
  have hts : UInt32.ofNat (ofBe (toBe 4 timestampMs.toNat)) = timestampMs := by
    rw [ofBe_toBe, ← UInt32.toNat_inj]
    simp
  simp only [toBe] at hseq hts
  simp only [Header.encode, Header.decode, toBe, List.cons_append, List.nil_append, hver, hflags,
    hseq, hts, ne_eq, not_true_eq_false, if_false]

/-- Fewer bytes than a header are refused. -/
theorem Header.decode_of_short {buf : List UInt8} (h : buf.length < HEADER_LEN) :
    Header.decode buf = .error (.truncated HEADER_LEN buf.length) := by
  unfold Header.decode
  split
  · simp only [HEADER_LEN, List.length_cons] at h
    omega
  · rfl

/-- A decoded header has our version and a flag nibble. -/
theorem Header.decode_wellFormed {buf : List UInt8} {h : Header} (hd : Header.decode buf = .ok h) :
    h.version = PROTO_VERSION ∧ h.flags ≤ 0x0F := by
  unfold Header.decode at hd
  split at hd
  · next b0 _ _ _ _ _ _ _ _ =>
      simp only at hd
      split at hd
      · cases hd
      · next hver =>
          rw [← Except.ok.inj hd]
          refine ⟨not_not.1 hver, ?_⟩
          rw [UInt8.le_iff_toNat_le, UInt8.toNat_and]
          exact Nat.and_le_right
  · cases hd

/-! ### Frames -/

/-- A frame decodes as its body does, behind a header that reads back. -/
theorem ControlFrame.decode_of_header {h : Header} {body : List UInt8}
    (hv : h.version = PROTO_VERSION) (hf : h.flags ≤ 0x0F) :
    ControlFrame.decode (h.encode ++ body)
      = (decodePayload h.msgType body).map fun p => { header := h, payload := p } := by
  have hdrop : (h.encode ++ body).drop HEADER_LEN = body := by
    rw [← Header.length_encode h, List.drop_left]
  simp only [ControlFrame.decode, Header.decode_encode_append hv hf, hdrop, bind, Except.bind]
  cases decodePayload h.msgType body <;> rfl

/-- Whatever the decoder accepts is well formed. -/
theorem ControlFrame.decode_wellFormed {buf : List UInt8} {f : ControlFrame}
    (h : ControlFrame.decode buf = .ok f) : f.WellFormed := by
  simp only [ControlFrame.decode, bind, Except.bind] at h
  split at h
  · cases h
  · next header hh =>
      split at h
      · cases h
      · next payload hp =>
          have hpay := decodePayload_wellFormed hp
          have hhead := Header.decode_wellFormed hh
          rw [← Except.ok.inj h]
          exact ⟨hhead.1, hhead.2, hpay.2.symm, hpay.1⟩

/-- A well-formed frame decodes back, whatever follows it if its type is parsed. -/
theorem ControlFrame.decode_encode_append {f : ControlFrame} (h : f.WellFormed)
    (extra : List UInt8) (hx : f.payload.isUnknown = true → extra = []) :
    ControlFrame.decode (f.encode ++ extra) = .ok f := by
  obtain ⟨hv, hf, hty, hp⟩ := h
  rw [ControlFrame.encode, List.append_assoc, ControlFrame.decode_of_header hv hf, hty,
    decodePayload_encodePayload hp extra hx]
  rfl

/-- A well-formed frame survives encoding and decoding. -/
theorem ControlFrame.decode_encode {f : ControlFrame} (h : f.WellFormed) :
    ControlFrame.decode f.encode = .ok f := by
  have h' := ControlFrame.decode_encode_append h [] fun _ => rfl
  rwa [List.append_nil] at h'

/-- **The control codec round trip.**  Whatever bytes the decoder accepts, it makes a well-formed
frame of them, and that frame survives encoding and decoding; so does every well-formed frame. -/
theorem control_codec_round_trip :
    (∀ (b : List UInt8) (f : ControlFrame), ControlFrame.decode b = .ok f →
      f.WellFormed ∧ ControlFrame.decode f.encode = .ok f) ∧
    (∀ f : ControlFrame, f.WellFormed → ControlFrame.decode f.encode = .ok f) := by
  refine ⟨?_, fun f => ControlFrame.decode_encode⟩
  intro b f hb
  have hf : f.WellFormed := ControlFrame.decode_wellFormed hb
  exact ⟨hf, ControlFrame.decode_encode hf⟩

end Rda
