/-
**The input encoder behind the C interface.**

The window's events cross the C interface one call at a time.  Every call answers with a status and
at most one frame: pointer moves are thinned out to a rate, and the newest move that was held back
waits in a slot of the encoder.  All calls share the encoder, so what holds of its frames is said of
runs, with a log of the calls and of their answers.

Main definitions:

* `Rda.RdaInputEncoder`, with one function for each entry point;
* `Rda.InputCall`, `Rda.InputCall.apply` — the calls, and what an encoder does on one;
* `Rda.InputCall.encoded` — the payload that a call puts on the wire, or the error it answers with;
* `Rda.InputCall.Encodes`, `Rda.InputCall.Refuses` — the same, check by check;
* `Rda.InputLog`, `Rda.InputLog.step` — an encoder with the calls made so far.

Main results:

* `Rda.InputCall.apply_cases` — a call is refused, held back or sent;
* `Rda.InputLog.step_cases`, `Rda.InputLog.Sent.frame_cases` — the same for a step of a run, and
  what the host reads from the answer;
* `Rda.InputLog.stats_run` — the two counters count the moves held back and the frames.
-/

import Rda.ControlClip
import Rda.Machine

set_option relaxedAutoImplicit false
set_option autoImplicit false

namespace Rda

/-! ### Frames -/

theorem ControlFrame.encode_ne_nil (f : ControlFrame) : f.encode ≠ [] := by
  intro h
  have hlen := congrArg List.length h
  rw [ControlFrame.encode, List.length_append, Header.length_encode] at hlen
  simp [HEADER_LEN] at hlen

theorem ControlFrame.wellFormed_new {p : Payload} (hp : p.WellFormed) (sequence : UInt16)
    (timestampMs : UInt32) : (ControlFrame.new p sequence timestampMs).WellFormed := by
  obtain ⟨hv, hf, hty⟩ := Header.carries_new p sequence timestampMs
  exact ⟨hv, hf, hty, hp⟩

/-- A snapshot of the keys that are down. -/
def Payload.IsSnapshot (p : Payload) : Prop :=
  ∃ modifiers authoritative pressed, p = .keyStateSync modifiers authoritative pressed

theorem Payload.IsSnapshot.of_typeByte {p : Payload} (hp : p.WellFormed)
    (hty : p.typeByte = MessageType.keyStateSync.code) : p.IsSnapshot := by
  cases p with
  | keyStateSync => exact ⟨_, _, _, rfl⟩
  | unknown msgType body =>
      -- The decoder parses snapshots, so an unknown body is none.
      rw [show msgType = _ from hty] at hp
      cases hp
  | _ => cases hty

/-- Whatever the host reads from a snapshot is a snapshot. -/
theorem ControlFrame.isSnapshot_of_decode_encode {h : Header} {p : Payload} (hh : h.Carries p)
    (hp : p.IsSnapshot) {f : ControlFrame}
    (hd : ControlFrame.decode (ControlFrame.encode ⟨h, p⟩) = .ok f) : f.payload.IsSnapshot := by
  obtain ⟨hv, hf, hty⟩ := hh
  rw [ControlFrame.encode, ControlFrame.decode_of_header hv hf] at hd
  cases hb : decodePayload h.msgType (encodePayload p) with
  | error e =>
      rw [hb] at hd
      cases hd
  | ok q =>
      rw [hb] at hd
      rw [← Except.ok.inj hd]
      obtain ⟨hwf, hq⟩ := decodePayload_wellFormed hb
      obtain ⟨modifiers, authoritative, pressed, rfl⟩ := hp
      exact .of_typeByte hwf (hq.trans hty)

/-! ### The interface -/

/-- The status of a call that succeeded. -/
def RDA_OK : ℤ := 0

/-- The status of a call with an argument that cannot be encoded. -/
def RDA_ERR_INVALID_ARGUMENT : ℤ := -2

/-- How many pointer events a second are sent. -/
def POINTER_HZ : ℕ := 60

def RDA_CHANNEL_INPUT_KEYS : UInt8 := 1

def RDA_CHANNEL_INPUT_POINTER : UInt8 := 2

/-- The label of a channel of the interface. -/
def rdaChannelLabel (channel : UInt8) : Option String :=
  if channel = RDA_CHANNEL_INPUT_KEYS then some "input-k"
  else if channel = RDA_CHANNEL_INPUT_POINTER then some "input-p"
  else none

/-- The label a channel is negotiated under. -/
def Channel.label : Channel → String
  | .control => "ctl"
  | .inputKeys => "input-k"
  | .inputPointer => "input-p"
  | .cursor => "cursor"
  | .stats => "stats"
  | .clipboard => "clip"
  | .file => "file"
  | .video => "video"

/-- A number as `{:#06x}` prints it. -/
def hexWord (n : UInt16) : String :=
  let digits := Nat.toDigits 16 n.toNat
  "0x" ++ String.ofList (List.replicate (4 - digits.length) '0' ++ digits)

/-- Why an argument was refused. -/
inductive InputError
  | unknownButton (button : UInt8)
  | outsideKeyboardPage (usageId : UInt16)
  | tooManyKeys (count : ℕ)
  deriving DecidableEq, Repr

namespace InputError

/-- The text kept for the caller. -/
def text : InputError → String
  | .unknownButton button => "unknown mouse button " ++ toString button.toNat
  | .outsideKeyboardPage usageId =>
      "HID usage " ++ hexWord usageId ++ " is outside the keyboard page"
  | .tooManyKeys count => "cannot report " ++ toString count ++ " pressed keys"

end InputError

/-- Result of encoding one input event.  No bytes means that nothing was produced. -/
structure RdaInputFrame where
  data : List UInt8 := []
  channel : UInt8 := 0
  deriving DecidableEq, Repr

/-- What a call answers with. -/
abbrev InputAnswer : Type := Except InputError RdaInputFrame

/-- The status of an answer. -/
def InputAnswer.status : InputAnswer → ℤ
  | .ok _ => RDA_OK
  | .error _ => RDA_ERR_INVALID_ARGUMENT

/-! ### The encoder -/

/-- Motion held back by coalescing. -/
structure PendingMove where
  displayId : UInt8
  xNorm : UInt16
  yNorm : UInt16
  modifiers : UInt16
  deriving DecidableEq, Repr

/-- Encodes input events into wire frames, with coalescing. -/
structure RdaInputEncoder where
  sequence : UInt16 := 0
  epochMs : ℕ
  lastPointerMs : ℕ := 0
  pendingMove : Option PendingMove := none
  scratch : List UInt8 := []
  coalesced : ℕ := 0
  emitted : ℕ := 0
  deriving DecidableEq, Repr

namespace RdaInputEncoder

/-- An encoder whose timestamps are relative to an epoch. -/
def new (epochMs : ℕ) : RdaInputEncoder := { epochMs }

def nextSequence (enc : RdaInputEncoder) : UInt16 × RdaInputEncoder :=
  (enc.sequence, { enc with sequence := enc.sequence + 1 })

/-- Leaves the bytes of a payload in `scratch`. -/
def encode (enc : RdaInputEncoder) (payload : Payload) (nowMs : ℕ) : RdaInputEncoder :=
  let (sequence, enc) := enc.nextSequence
  let timestamp := UInt32.ofNat (nowMs - enc.epochMs)
  let frame := ControlFrame.new payload sequence timestamp
  { enc with scratch := frame.encode, emitted := enc.emitted + 1 }

/-- The frame a payload is sent in. -/
def frameOf (enc : RdaInputEncoder) (payload : Payload) (nowMs : ℕ) : ControlFrame :=
  .new payload enc.sequence (.ofNat (nowMs - enc.epochMs))

/-- The events dropped by coalescing, and the frames produced. -/
def stats (enc : RdaInputEncoder) : ℕ × ℕ := (enc.coalesced, enc.emitted)

/-- Encodes a payload and answers with its frame. -/
def send (enc : RdaInputEncoder) (payload : Payload) (channel : UInt8) (nowMs : ℕ) :
    RdaInputEncoder × InputAnswer :=
  let enc := enc.encode payload nowMs
  (enc, .ok { data := enc.scratch, channel })

theorem send_eq (enc : RdaInputEncoder) (payload : Payload) (channel : UInt8) (nowMs : ℕ) :
    enc.send payload channel nowMs =
      ({ enc with
          sequence := enc.sequence + 1
          scratch := (enc.frameOf payload nowMs).encode
          emitted := enc.emitted + 1 },
        .ok { data := (enc.frameOf payload nowMs).encode, channel }) :=
  rfl

/-- Records pointer motion, coalescing to `POINTER_HZ`. -/
def pointerMove (enc : RdaInputEncoder) (displayId : UInt8) (xNorm yNorm modifiers : UInt16)
    (nowMs : ℕ) : RdaInputEncoder × InputAnswer :=
  let interval := 1000 / POINTER_HZ
  if nowMs - enc.lastPointerMs < interval then
    -- The newest position is held; the older one is worthless.
    ({ enc with
        pendingMove := some { displayId, xNorm, yNorm, modifiers }
        coalesced := enc.coalesced + 1 }, .ok {})
  else
    { enc with lastPointerMs := nowMs, pendingMove := none }.send
      (.mouseMove displayId 0 xNorm yNorm modifiers) RDA_CHANNEL_INPUT_POINTER nowMs

/-- The button a number stands for. -/
def buttonId (button : UInt8) : Except InputError MouseButtonId :=
  match button.toNat with
  | 1 => .ok .left
  | 2 => .ok .right
  | 3 => .ok .middle
  | 4 => .ok .x1
  | 5 => .ok .x2
  | _ => .error (.unknownButton button)

/-- `clamp` of the standard library. -/
def clampU8 (v lo hi : UInt8) : UInt8 := if v < lo then lo else if hi < v then hi else v

/-- Encodes a mouse button event. -/
def pointerButton (enc : RdaInputEncoder) (button : UInt8) (pressed : Bool) (displayId : UInt8)
    (xNorm yNorm modifiers : UInt16) (clickCount : UInt8) (nowMs : ℕ) :
    RdaInputEncoder × InputAnswer :=
  match buttonId button with
  | .error e => (enc, .error e)
  | .ok buttonId =>
      -- The pending position is discarded in favour of the click's own.
      { enc with pendingMove := none }.send
        (.mouseButton buttonId (KeyAction.ofPressed pressed) xNorm yNorm modifiers displayId
          (clampU8 clickCount 1 3))
        RDA_CHANNEL_INPUT_KEYS nowMs

/-- Encodes a scroll event. -/
def scroll (enc : RdaInputEncoder) (deltaV deltaH : Int16) (displayId : UInt8)
    (modifiers : UInt16) (nowMs : ℕ) : RdaInputEncoder × InputAnswer :=
  enc.send (.mouseWheel deltaV deltaH modifiers displayId 0) RDA_CHANNEL_INPUT_KEYS nowMs

/-- The usages of the keyboard page. -/
def OnKeyboardPage (usageId : UInt16) : Prop := 0x01 ≤ usageId ∧ usageId ≤ 0xE7

instance (usageId : UInt16) : Decidable (OnKeyboardPage usageId) :=
  inferInstanceAs (Decidable (_ ∧ _))

/-- Encodes a key event from a HID usage. -/
def key (enc : RdaInputEncoder) (usageId : UInt16) (pressed : Bool) (modifiers : UInt16)
    (nowMs : ℕ) : RdaInputEncoder × InputAnswer :=
  if ¬ OnKeyboardPage usageId then (enc, .error (.outsideKeyboardPage usageId))
  else
    enc.send (.keyEvent USAGE_PAGE_KEYBOARD usageId (KeyAction.ofPressed pressed) 0 modifiers)
      RDA_CHANNEL_INPUT_KEYS nowMs

/-- Encodes the periodic snapshot of the keys that are down. -/
def keyStateSync (enc : RdaInputEncoder) (usages : List UInt16) (modifiers : UInt16)
    (nowMs : ℕ) : RdaInputEncoder × InputAnswer :=
  if MAX_PRESSED_KEYS < usages.length then (enc, .error (.tooManyKeys usages.length))
  else enc.send (.keyStateSync modifiers true usages) RDA_CHANNEL_INPUT_KEYS nowMs

end RdaInputEncoder

/-! ### The calls -/

/-- A call of an entry point with its arguments, the time apart. -/
inductive InputCall
  | pointerMove (displayId : UInt8) (xNorm yNorm modifiers : UInt16)
  | pointerButton (button : UInt8) (pressed : Bool) (displayId : UInt8)
      (xNorm yNorm modifiers : UInt16) (clickCount : UInt8)
  | scroll (deltaV deltaH : Int16) (displayId : UInt8) (modifiers : UInt16)
  | key (usageId : UInt16) (pressed : Bool) (modifiers : UInt16)
  | keyStateSync (usages : List UInt16) (modifiers : UInt16)
  deriving DecidableEq, Repr

namespace InputCall

open RdaInputEncoder (buttonId clampU8 OnKeyboardPage)

/-- What an encoder does on a call. -/
def apply (enc : RdaInputEncoder) (nowMs : ℕ) : InputCall → RdaInputEncoder × InputAnswer
  | .pointerMove displayId xNorm yNorm modifiers =>
      enc.pointerMove displayId xNorm yNorm modifiers nowMs
  | .pointerButton button pressed displayId xNorm yNorm modifiers clickCount =>
      enc.pointerButton button pressed displayId xNorm yNorm modifiers clickCount nowMs
  | .scroll deltaV deltaH displayId modifiers => enc.scroll deltaV deltaH displayId modifiers nowMs
  | .key usageId pressed modifiers => enc.key usageId pressed modifiers nowMs
  | .keyStateSync usages modifiers => enc.keyStateSync usages modifiers nowMs

/-- The payload that a call puts on the wire, or the error it answers with. -/
def encoded : InputCall → Except InputError Payload
  | .pointerMove displayId xNorm yNorm modifiers =>
      .ok (.mouseMove displayId 0 xNorm yNorm modifiers)
  | .pointerButton button pressed displayId xNorm yNorm modifiers clickCount =>
      (buttonId button).map fun id =>
        .mouseButton id (KeyAction.ofPressed pressed) xNorm yNorm modifiers displayId
          (clampU8 clickCount 1 3)
  | .scroll deltaV deltaH displayId modifiers =>
      .ok (.mouseWheel deltaV deltaH modifiers displayId 0)
  | .key usageId pressed modifiers =>
      if OnKeyboardPage usageId then
        .ok (.keyEvent USAGE_PAGE_KEYBOARD usageId (KeyAction.ofPressed pressed) 0 modifiers)
      else .error (.outsideKeyboardPage usageId)
  | .keyStateSync usages modifiers =>
      if usages.length ≤ MAX_PRESSED_KEYS then .ok (.keyStateSync modifiers true usages)
      else .error (.tooManyKeys usages.length)

/-- The channel of the frame of a call. -/
def channel : InputCall → UInt8
  | .pointerMove .. => RDA_CHANNEL_INPUT_POINTER
  | _ => RDA_CHANNEL_INPUT_KEYS

/-- The move that is held back if the call comes too early. -/
def held : InputCall → Option PendingMove
  | .pointerMove displayId xNorm yNorm modifiers => some { displayId, xNorm, yNorm, modifiers }
  | _ => none

/-- A move so soon after the last one that it is held back. -/
def Early (enc : RdaInputEncoder) (nowMs : ℕ) (call : InputCall) : Prop :=
  call.held.isSome ∧ nowMs - enc.lastPointerMs < 1000 / POINTER_HZ

instance (enc : RdaInputEncoder) (nowMs : ℕ) (call : InputCall) :
    Decidable (call.Early enc nowMs) :=
  inferInstanceAs (Decidable (_ ∧ _))

/-- The encoder as a call that is sent finds it when it encodes. -/
def ready (enc : RdaInputEncoder) (nowMs : ℕ) : InputCall → RdaInputEncoder
  | .pointerMove .. => { enc with lastPointerMs := nowMs, pendingMove := none }
  | .pointerButton .. => { enc with pendingMove := none }
  | _ => enc

theorem ofPressed_ne_repeat (pressed : Bool) : KeyAction.ofPressed pressed ≠ .repeat := by
  cases pressed <;> decide

theorem clampU8_bounds {lo hi : UInt8} (h : lo ≤ hi) (v : UInt8) :
    lo ≤ clampU8 v lo hi ∧ clampU8 v lo hi ≤ hi := by
  unfold clampU8
  split_ifs with hlo hhi
  · exact ⟨UInt8.le_refl lo, h⟩
  · exact ⟨h, UInt8.le_refl hi⟩
  · exact ⟨UInt8.not_lt.1 hlo, UInt8.not_lt.1 hhi⟩

theorem clampU8_eq_self_iff {lo hi : UInt8} (h : lo ≤ hi) {v : UInt8} :
    clampU8 v lo hi = v ↔ lo ≤ v ∧ v ≤ hi := by
  refine ⟨fun heq => heq ▸ clampU8_bounds h v, ?_⟩
  rintro ⟨hlo, hhi⟩
  rw [clampU8, if_neg (UInt8.not_lt.2 hlo), if_neg (UInt8.not_lt.2 hhi)]

theorem validateUsage_keyboard {usage : UInt16} :
    validateUsage USAGE_PAGE_KEYBOARD usage = .ok () ↔ OnKeyboardPage usage := by
  unfold validateUsage OnKeyboardPage
  rw [if_pos rfl]
  split_ifs with h
  · exact ⟨fun _ => h, fun _ => rfl⟩
  · exact ⟨fun he => (nomatch he), fun hpage => absurd hpage h⟩

/-- The ways past the checks of the entry points. -/
inductive Encodes : InputCall → Payload → Prop
  | move (displayId : UInt8) (xNorm yNorm modifiers : UInt16) :
      Encodes (.pointerMove displayId xNorm yNorm modifiers)
        (.mouseMove displayId 0 xNorm yNorm modifiers)
  | button {button : UInt8} {id : MouseButtonId} (pressed : Bool) (displayId : UInt8)
      (xNorm yNorm modifiers : UInt16) (clickCount : UInt8) (h : buttonId button = .ok id) :
      Encodes (.pointerButton button pressed displayId xNorm yNorm modifiers clickCount)
        (.mouseButton id (KeyAction.ofPressed pressed) xNorm yNorm modifiers displayId
          (clampU8 clickCount 1 3))
  | wheel (deltaV deltaH : Int16) (displayId : UInt8) (modifiers : UInt16) :
      Encodes (.scroll deltaV deltaH displayId modifiers)
        (.mouseWheel deltaV deltaH modifiers displayId 0)
  | key {usageId : UInt16} (pressed : Bool) (modifiers : UInt16) (h : OnKeyboardPage usageId) :
      Encodes (.key usageId pressed modifiers)
        (.keyEvent USAGE_PAGE_KEYBOARD usageId (KeyAction.ofPressed pressed) 0 modifiers)
  | snapshot {usages : List UInt16} (modifiers : UInt16) (h : usages.length ≤ MAX_PRESSED_KEYS) :
      Encodes (.keyStateSync usages modifiers) (.keyStateSync modifiers true usages)

theorem encodes_of_encoded {call : InputCall} {p : Payload} (h : call.encoded = .ok p) :
    Encodes call p := by
  cases call with
  | pointerMove =>
      rw [← Except.ok.inj h]
      exact .move ..
  | pointerButton button pressed displayId xNorm yNorm modifiers clickCount =>
      cases hb : buttonId button with
      | error e =>
          rw [encoded, hb] at h
          cases h
      | ok id =>
          rw [encoded, hb] at h
          rw [← Except.ok.inj h]
          exact .button _ _ _ _ _ _ hb
  | scroll =>
      rw [← Except.ok.inj h]
      exact .wheel ..
  | key =>
      simp only [encoded] at h
      split_ifs at h with hpage
      rw [← Except.ok.inj h]
      exact .key _ _ hpage
  | keyStateSync =>
      simp only [encoded] at h
      split_ifs at h with hlen
      rw [← Except.ok.inj h]
      exact .snapshot _ hlen

/-- The checks that refuse a call. -/
inductive Refuses : InputCall → InputError → Prop
  | button {button : UInt8} {e : InputError} (pressed : Bool) (displayId : UInt8)
      (xNorm yNorm modifiers : UInt16) (clickCount : UInt8) (h : buttonId button = .error e) :
      Refuses (.pointerButton button pressed displayId xNorm yNorm modifiers clickCount) e
  | key {usageId : UInt16} (pressed : Bool) (modifiers : UInt16) (h : ¬ OnKeyboardPage usageId) :
      Refuses (.key usageId pressed modifiers) (.outsideKeyboardPage usageId)
  | snapshot {usages : List UInt16} (modifiers : UInt16) (h : MAX_PRESSED_KEYS < usages.length) :
      Refuses (.keyStateSync usages modifiers) (.tooManyKeys usages.length)

theorem refuses_of_encoded {call : InputCall} {e : InputError} (h : call.encoded = .error e) :
    Refuses call e := by
  cases call with
  | pointerMove => cases h
  | pointerButton button =>
      cases hb : buttonId button with
      | error e' =>
          rw [encoded, hb] at h
          rw [← Except.error.inj h]
          exact .button _ _ _ _ _ _ hb
      | ok id =>
          rw [encoded, hb] at h
          cases h
  | scroll => cases h
  | key =>
      simp only [encoded] at h
      split_ifs at h with hpage
      rw [← Except.error.inj h]
      exact .key _ _ hpage
  | keyStateSync =>
      simp only [encoded] at h
      split_ifs at h with hlen
      rw [← Except.error.inj h]
      exact .snapshot _ (Nat.lt_of_not_le hlen)

section Apply

variable {enc : RdaInputEncoder} {nowMs : ℕ} {call : InputCall}

theorem apply_of_error {e : InputError} (h : call.encoded = .error e) :
    call.apply enc nowMs = (enc, .error e) := by
  cases refuses_of_encoded h with
  | button pressed displayId xNorm yNorm modifiers clickCount hb =>
      simp only [apply, RdaInputEncoder.pointerButton, hb]
  | key pressed modifiers hpage => rw [apply, RdaInputEncoder.key, if_pos hpage]
  | snapshot modifiers hlen => rw [apply, RdaInputEncoder.keyStateSync, if_pos hlen]

theorem apply_of_early {m : PendingMove} (hm : call.held = some m)
    (h : nowMs - enc.lastPointerMs < 1000 / POINTER_HZ) :
    call.apply enc nowMs =
      ({ enc with pendingMove := some m, coalesced := enc.coalesced + 1 }, .ok {}) := by
  cases call with
  | pointerMove displayId xNorm yNorm modifiers =>
      rw [apply, RdaInputEncoder.pointerMove, if_pos h, ← Option.some.inj hm]
  | _ => cases hm

theorem apply_of_sent {p : Payload} (hp : call.encoded = .ok p) (h : ¬ call.Early enc nowMs) :
    call.apply enc nowMs = (call.ready enc nowMs).send p call.channel nowMs := by
  cases encodes_of_encoded hp with
  | move displayId xNorm yNorm modifiers =>
      have hlate : ¬ nowMs - enc.lastPointerMs < 1000 / POINTER_HZ := fun hlt => h ⟨rfl, hlt⟩
      rw [apply, RdaInputEncoder.pointerMove, if_neg hlate]
      rfl
  | button pressed displayId xNorm yNorm modifiers clickCount hb =>
      simp only [apply, RdaInputEncoder.pointerButton, hb]
      rfl
  | wheel => rfl
  | key pressed modifiers hpage =>
      rw [apply, RdaInputEncoder.key, if_neg (not_not_intro hpage)]
      rfl
  | snapshot modifiers hlen =>
      rw [apply, RdaInputEncoder.keyStateSync, if_neg (Nat.not_lt.2 hlen)]
      rfl

/-- **What a call can do**: it is refused, held back or sent. -/
theorem apply_cases (enc : RdaInputEncoder) (nowMs : ℕ) (call : InputCall) :
    (∃ e, call.encoded = .error e ∧ call.apply enc nowMs = (enc, .error e)) ∨
    (∃ m, call.held = some m ∧ call.Early enc nowMs ∧
      call.apply enc nowMs =
        ({ enc with pendingMove := some m, coalesced := enc.coalesced + 1 }, .ok {})) ∨
    (∃ p, call.encoded = .ok p ∧ ¬ call.Early enc nowMs ∧
      call.apply enc nowMs = (call.ready enc nowMs).send p call.channel nowMs) := by
  cases hp : call.encoded with
  | error e => exact Or.inl ⟨e, rfl, apply_of_error hp⟩
  | ok p =>
      by_cases hearly : call.Early enc nowMs
      · obtain ⟨m, hm⟩ := Option.isSome_iff_exists.1 hearly.1
        exact Or.inr (Or.inl ⟨m, hm, hearly, apply_of_early hm hearly.2⟩)
      · exact Or.inr (Or.inr ⟨p, rfl, hearly, apply_of_sent hp hearly⟩)

/-- Only a snapshot of keys is sent without a look at its usages. -/
theorem wellFormed_iff {p : Payload} (hp : call.encoded = .ok p) :
    p.WellFormed ↔ ∀ usages modifiers, call = .keyStateSync usages modifiers →
      ∀ usage ∈ usages, OnKeyboardPage usage := by
  cases encodes_of_encoded hp with
  | move => exact ⟨fun _ _ _ h => (nomatch h), fun _ => trivial⟩
  | button pressed displayId xNorm yNorm modifiers clickCount hb =>
      refine ⟨fun _ _ _ h => (nomatch h), fun _ => ?_⟩
      exact ⟨ofPressed_ne_repeat pressed, clampU8_bounds (by decide) clickCount⟩
  | wheel => exact ⟨fun _ _ _ h => (nomatch h), fun _ => trivial⟩
  | key pressed modifiers hpage =>
      exact ⟨fun _ _ _ h => (nomatch h), fun _ => validateUsage_keyboard.2 hpage⟩
  | snapshot modifiers hlen =>
      constructor
      · rintro ⟨_, hall⟩ _ _ heq usage husage
        cases heq
        exact validateUsage_keyboard.1 (hall usage husage)
      · intro h
        refine ⟨hlen, fun usage husage => ?_⟩
        exact validateUsage_keyboard.2 (h _ _ rfl usage husage)

theorem isSnapshot_of_not_wellFormed {p : Payload} (hp : call.encoded = .ok p)
    (hbad : ¬ p.WellFormed) : p.IsSnapshot := by
  rw [wellFormed_iff hp] at hbad
  cases encodes_of_encoded hp with
  | snapshot => exact ⟨_, _, _, rfl⟩
  | _ => exact absurd (fun _ _ h => (nomatch h)) hbad

end Apply

end InputCall

/-! ### Runs -/

/-- A call that was made, and its answer. -/
structure Answered where
  nowMs : ℕ
  call : InputCall
  answer : InputAnswer

namespace Answered

/-- The frame that the answer hands to the caller, if it has any bytes. -/
def produced (a : Answered) : Option RdaInputFrame :=
  match a.answer with
  | .ok f => if f.data = [] then none else some f
  | .error _ => none

/-- The call succeeded and produced nothing. -/
def dropped (a : Answered) : Bool :=
  match a.answer with
  | .ok f => f.data = []
  | .error _ => false

/-- What the host makes of the answer. -/
def frame (a : Answered) : Option ControlFrame :=
  a.produced.bind fun f => (ControlFrame.decode f.data).toOption

end Answered

/-- An encoder, and the calls made so far. -/
structure InputLog where
  encoder : RdaInputEncoder
  answered : List Answered := []

namespace InputLog

/-- A new encoder. -/
def start (epochMs : ℕ) : InputLog := { encoder := .new epochMs }

/-- The answer to a call at a time. -/
def answer (s : InputLog) (i : ℕ × InputCall) : Answered :=
  ⟨i.1, i.2, (i.2.apply s.encoder i.1).2⟩

/-- Makes a call. -/
def step (s : InputLog) (i : ℕ × InputCall) : InputLog :=
  { encoder := (i.2.apply s.encoder i.1).1, answered := s.answered ++ [s.answer i] }

variable {s : InputLog} {i : ℕ × InputCall}

theorem answered_step : (s.step i).answered = s.answered ++ [s.answer i] := rfl

/-- The encoder and the answer after a call that is refused. -/
structure Refused (s : InputLog) (i : ℕ × InputCall) : Prop where
  encoder : (s.step i).encoder = s.encoder
  answer : ∃ e, i.2.encoded = .error e ∧ (s.answer i).answer = .error e

/-- The encoder and the answer after a move that is held back. -/
structure Held (s : InputLog) (i : ℕ × InputCall) (m : PendingMove) : Prop where
  held : i.2.held = some m
  early : i.2.Early s.encoder i.1
  encoder : (s.step i).encoder =
    { s.encoder with pendingMove := some m, coalesced := s.encoder.coalesced + 1 }
  answer : (s.answer i).answer = .ok {}

/-- The encoder and the answer after a call that is sent. -/
structure Sent (s : InputLog) (i : ℕ × InputCall) (p : Payload) : Prop where
  encoded : i.2.encoded = .ok p
  late : ¬ i.2.Early s.encoder i.1
  encoder : (s.step i).encoder =
    { i.2.ready s.encoder i.1 with
      sequence := s.encoder.sequence + 1
      scratch := (s.encoder.frameOf p i.1).encode
      emitted := s.encoder.emitted + 1 }
  answer : (s.answer i).answer =
    .ok { data := (s.encoder.frameOf p i.1).encode, channel := i.2.channel }

/-- **What a step can do.** -/
theorem step_cases (s : InputLog) (i : ℕ × InputCall) :
    s.Refused i ∨ (∃ m, s.Held i m) ∨ ∃ p, s.Sent i p := by
  rcases i.2.apply_cases s.encoder i.1 with ⟨e, he, h⟩ | ⟨m, hm, hearly, h⟩ | ⟨p, hp, hlate, h⟩
  · exact Or.inl ⟨congrArg Prod.fst h, e, he, congrArg Prod.snd h⟩
  · exact Or.inr (Or.inl ⟨m, hm, hearly, congrArg Prod.fst h, congrArg Prod.snd h⟩)
  · have hready : (i.2.ready s.encoder i.1).sequence = s.encoder.sequence ∧
        (i.2.ready s.encoder i.1).epochMs = s.encoder.epochMs ∧
        (i.2.ready s.encoder i.1).emitted = s.encoder.emitted := by
      cases i.2 <;> exact ⟨rfl, rfl, rfl⟩
    have hframe : (i.2.ready s.encoder i.1).frameOf p i.1 = s.encoder.frameOf p i.1 := by
      simp only [RdaInputEncoder.frameOf, hready.1, hready.2.1]
    rw [RdaInputEncoder.send_eq, hframe, hready.1, hready.2.2] at h
    exact Or.inr (Or.inr ⟨p, hp, hlate, congrArg Prod.fst h, congrArg Prod.snd h⟩)

theorem Refused.produced (h : s.Refused i) : (s.answer i).produced = none := by
  obtain ⟨e, -, he⟩ := h.answer
  rw [Answered.produced, he]

theorem Held.produced {m : PendingMove} (h : s.Held i m) : (s.answer i).produced = none := by
  rw [Answered.produced, h.answer]
  rfl

theorem Sent.produced {p : Payload} (h : s.Sent i p) :
    (s.answer i).produced =
      some { data := (s.encoder.frameOf p i.1).encode, channel := i.2.channel } := by
  rw [Answered.produced, h.answer]
  exact if_neg (ControlFrame.encode_ne_nil _)

/-- The host reads what was sent, if it is within the limits of its decoder. -/
theorem Sent.frame_of_wellFormed {p : Payload} (h : s.Sent i p) (hp : p.WellFormed) :
    (s.answer i).frame = some (s.encoder.frameOf p i.1) := by
  have hdecode : ControlFrame.decode (s.encoder.frameOf p i.1).encode
      = .ok (s.encoder.frameOf p i.1) :=
    ControlFrame.decode_encode (ControlFrame.wellFormed_new hp _ _)
  rw [Answered.frame, h.produced, Option.bind_some, hdecode]
  rfl

/-- **What the host reads** is what was sent, unless it is a snapshot; then it may be nothing. -/
theorem Sent.frame_cases {p : Payload} (h : s.Sent i p) :
    (s.answer i).frame = some (s.encoder.frameOf p i.1) ∨
      p.IsSnapshot ∧ ∀ f, (s.answer i).frame = some f → f.payload.IsSnapshot := by
  by_cases hp : p.WellFormed
  · exact Or.inl (h.frame_of_wellFormed hp)
  · have hsnapshot := InputCall.isSnapshot_of_not_wellFormed h.encoded hp
    refine Or.inr ⟨hsnapshot, fun f hf => ?_⟩
    rw [Answered.frame, h.produced, Option.bind_some] at hf
    cases hd : ControlFrame.decode (s.encoder.frameOf p i.1).encode with
    | error e =>
        rw [hd] at hf
        cases hf
    | ok g =>
        rw [hd] at hf
        rw [← Option.some.inj hf]
        exact ControlFrame.isSnapshot_of_decode_encode (Header.carries_new ..) hsnapshot hd

theorem Refused.frame (h : s.Refused i) : (s.answer i).frame = none := by
  rw [Answered.frame, h.produced, Option.bind_none]

theorem Held.frame {m : PendingMove} (h : s.Held i m) : (s.answer i).frame = none := by
  rw [Answered.frame, h.produced, Option.bind_none]

theorem Refused.dropped (h : s.Refused i) : (s.answer i).dropped = false := by
  obtain ⟨e, -, he⟩ := h.answer
  rw [Answered.dropped, he]

theorem Held.dropped {m : PendingMove} (h : s.Held i m) : (s.answer i).dropped = true := by
  rw [Answered.dropped, h.answer]
  rfl

theorem Sent.dropped {p : Payload} (h : s.Sent i p) : (s.answer i).dropped = false := by
  rw [Answered.dropped, h.answer]
  exact decide_eq_false (ControlFrame.encode_ne_nil _)

/-- The counters of the encoder count the moves held back and the frames. -/
theorem stats_run (epochMs : ℕ) (is : List (ℕ × InputCall)) :
    (Machine.run step (start epochMs) is).encoder.stats =
      ((Machine.run step (start epochMs) is).answered.countP (·.dropped),
        (Machine.run step (start epochMs) is).answered.countP (·.produced.isSome)) := by
  refine Machine.run_invariant
    (fun s : InputLog => s.encoder.stats =
      (s.answered.countP (·.dropped), s.answered.countP (·.produced.isSome)))
    (fun s i hs => ?_) rfl is
  obtain ⟨hcoalesced, hemitted⟩ := Prod.mk.inj hs
  simp only [answered_step, List.countP_append, List.countP_singleton, ← hcoalesced, ← hemitted]
  rcases s.step_cases i with h | ⟨m, h⟩ | ⟨p, h⟩
  · rw [h.encoder, h.dropped, h.produced]
    rfl
  · rw [h.encoder, h.dropped, h.produced]
    rfl
  · have hready : (i.2.ready s.encoder i.1).coalesced = s.encoder.coalesced := by
      cases i.2 <;> rfl
    rw [h.encoder, h.dropped, h.produced]
    exact Prod.ext hready rfl

end InputLog

end Rda
