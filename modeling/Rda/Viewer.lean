/-
**The viewer.**

The window of the controller is polled: sixty times a second it says which keys and buttons are held
and where the pointer is, and the viewer derives events from what has changed.  Every event carries
the mask of the modifiers that are held in that turn.

Where the pointer is on the remote display, and how far the wheel was turned, is computed in
floating point and is taken from the window here.

Main definitions:

* `Rda.Key`, `Rda.hidUsageFor`, `Rda.trackedKeys` — the keys that are forwarded;
* `Rda.InputEvent`, `Rda.toPayload` — what the user did, and what is sent of it;
* `Rda.Viewer`, `Rda.Viewer.turn` — one turn of the window loop;
* `Rda.Payload.tells`, `Rda.saidBy` — what payloads say about a key.

Main results:

* `Rda.Viewer.saidBy_turn` — **the transitions** of a turn lead from the keys that were held to
  the keys that are held;
* `Rda.Viewer.not_holds_of_lacks` — a modifier that an event of a turn does not carry is not held
  after the turn.
-/

import Mathlib.Data.List.Nodup
import Rda.KeyState

set_option relaxedAutoImplicit false
set_option autoImplicit false

namespace Rda

/-! ### Keys -/

/-- A key of the window system; `other` stands for those the viewer has no name for. -/
inductive Key
  | a | b | c | d | e | f | g | h | i | j | k | l | m | n | o | p | q | r | s | t | u | v | w | x
  | y | z | key1 | key2 | key3 | key4 | key5 | key6 | key7 | key8 | key9 | key0 | enter | escape
  | backspace | tab | space | minus | equal | leftBracket | rightBracket | backslash | semicolon
  | apostrophe | backquote | comma | period | slash | capsLock | f1 | f2 | f3 | f4 | f5 | f6 | f7
  | f8 | f9 | f10 | f11 | f12 | insert | home | pageUp | delete | «end» | pageDown | right | left
  | down | up | leftCtrl | leftShift | leftAlt | leftSuper | rightCtrl | rightShift | rightAlt
  | rightSuper | other
  deriving DecidableEq

/-- The name of a key in the table of usages. -/
def hidName : Key → Option String
  | .a => some "KeyA"
  | .b => some "KeyB"
  | .c => some "KeyC"
  | .d => some "KeyD"
  | .e => some "KeyE"
  | .f => some "KeyF"
  | .g => some "KeyG"
  | .h => some "KeyH"
  | .i => some "KeyI"
  | .j => some "KeyJ"
  | .k => some "KeyK"
  | .l => some "KeyL"
  | .m => some "KeyM"
  | .n => some "KeyN"
  | .o => some "KeyO"
  | .p => some "KeyP"
  | .q => some "KeyQ"
  | .r => some "KeyR"
  | .s => some "KeyS"
  | .t => some "KeyT"
  | .u => some "KeyU"
  | .v => some "KeyV"
  | .w => some "KeyW"
  | .x => some "KeyX"
  | .y => some "KeyY"
  | .z => some "KeyZ"
  | .key1 => some "Digit1"
  | .key2 => some "Digit2"
  | .key3 => some "Digit3"
  | .key4 => some "Digit4"
  | .key5 => some "Digit5"
  | .key6 => some "Digit6"
  | .key7 => some "Digit7"
  | .key8 => some "Digit8"
  | .key9 => some "Digit9"
  | .key0 => some "Digit0"
  | .enter => some "Enter"
  | .escape => some "Escape"
  | .backspace => some "Backspace"
  | .tab => some "Tab"
  | .space => some "Space"
  | .minus => some "Minus"
  | .equal => some "Equal"
  | .leftBracket => some "BracketLeft"
  | .rightBracket => some "BracketRight"
  | .backslash => some "Backslash"
  | .semicolon => some "Semicolon"
  | .apostrophe => some "Quote"
  | .backquote => some "Backquote"
  | .comma => some "Comma"
  | .period => some "Period"
  | .slash => some "Slash"
  | .capsLock => some "CapsLock"
  | .f1 => some "F1"
  | .f2 => some "F2"
  | .f3 => some "F3"
  | .f4 => some "F4"
  | .f5 => some "F5"
  | .f6 => some "F6"
  | .f7 => some "F7"
  | .f8 => some "F8"
  | .f9 => some "F9"
  | .f10 => some "F10"
  | .f11 => some "F11"
  | .f12 => some "F12"
  | .insert => some "Insert"
  | .home => some "Home"
  | .pageUp => some "PageUp"
  | .delete => some "Delete"
  | .«end» => some "End"
  | .pageDown => some "PageDown"
  | .right => some "ArrowRight"
  | .left => some "ArrowLeft"
  | .down => some "ArrowDown"
  | .up => some "ArrowUp"
  | .leftCtrl => some "ControlLeft"
  | .leftShift => some "ShiftLeft"
  | .leftAlt => some "AltLeft"
  | .leftSuper => some "MetaLeft"
  | .rightCtrl => some "ControlRight"
  | .rightShift => some "ShiftRight"
  | .rightAlt => some "AltRight"
  | .rightSuper => some "MetaRight"
  | .other => none

/-- The usage of a key. -/
def hidUsageFor (key : Key) : Option UInt16 :=
  (hidName key).bind fun name => (Hid.lookupByName name).map Hid.KeyMapping.usage

/-- Every key the viewer forwards. -/
def trackedKeys : List Key :=
  [.a, .b, .c, .d, .e, .f, .g, .h, .i, .j, .k, .l, .m, .n, .o, .p, .q, .r, .s, .t, .u, .v, .w,
    .x, .y, .z, .key0, .key1, .key2, .key3, .key4, .key5, .key6, .key7, .key8, .key9, .enter,
    .escape, .backspace, .tab, .space, .minus, .equal, .leftBracket, .rightBracket, .backslash,
    .semicolon, .apostrophe, .backquote, .comma, .period, .slash, .capsLock, .f1, .f2, .f3, .f4,
    .f5, .f6, .f7, .f8, .f9, .f10, .f11, .f12, .insert, .home, .pageUp, .delete, .«end», .pageDown,
    .right, .left, .down, .up, .leftCtrl, .leftShift, .leftAlt, .leftSuper, .rightCtrl,
    .rightShift, .rightAlt, .rightSuper]

/-- The modifiers with their bits. -/
def MODIFIER_KEYS : List (Key × UInt16) :=
  [(.leftCtrl, 0x0001), (.leftShift, 0x0002), (.leftAlt, 0x0004), (.leftSuper, 0x0008),
    (.rightCtrl, 0x0010), (.rightShift, 0x0020), (.rightAlt, 0x0040), (.rightSuper, 0x0080)]

/-- The mask of the modifiers that are held. -/
def modifiersFrom (isKeyDown : Key → Bool) : UInt16 :=
  MODIFIER_KEYS.foldl (fun bits m => if isKeyDown m.1 then bits ||| m.2 else bits) 0

/-- Every tracked key has a usage. -/
theorem map_hidUsageFor : trackedKeys.map hidUsageFor =
    [0x04, 0x05, 0x06, 0x07, 0x08, 0x09, 0x0A, 0x0B, 0x0C, 0x0D, 0x0E, 0x0F, 0x10, 0x11, 0x12,
      0x13, 0x14, 0x15, 0x16, 0x17, 0x18, 0x19, 0x1A, 0x1B, 0x1C, 0x1D, 0x27, 0x1E, 0x1F, 0x20,
      0x21, 0x22, 0x23, 0x24, 0x25, 0x26, 0x28, 0x29, 0x2A, 0x2B, 0x2C, 0x2D, 0x2E, 0x2F, 0x30,
      0x31, 0x33, 0x34, 0x35, 0x36, 0x37, 0x38, 0x39, 0x3A, 0x3B, 0x3C, 0x3D, 0x3E, 0x3F, 0x40,
      0x41, 0x42, 0x43, 0x44, 0x45, 0x49, 0x4A, 0x4B, 0x4C, 0x4D, 0x4E, 0x4F, 0x50, 0x51, 0x52,
      0xE0, 0xE1, 0xE2, 0xE3, 0xE4, 0xE5, 0xE6, 0xE7].map some := by
  decide

/-- No two of them share one. -/
theorem nodup_trackedUsages : (trackedKeys.map hidUsageFor).Nodup := by
  rw [map_hidUsageFor]
  refine List.Nodup.map (Option.some_injective _) ?_
  decide

theorem eq_of_hidUsageFor {key key' : Key} (hkey : key ∈ trackedKeys) (hkey' : key' ∈ trackedKeys)
    (h : hidUsageFor key = hidUsageFor key') : key = key' :=
  List.inj_on_of_nodup_map nodup_trackedUsages hkey hkey' h

/-- The modifiers of the mask are the modifiers of the table. -/
theorem exists_modifierKey : ∀ m ∈ Hid.MODIFIER_USAGES, ∃ key bit,
    (key, bit) ∈ MODIFIER_KEYS ∧ key ∈ trackedKeys ∧ hidUsageFor key = some m ∧
      Hid.modifierBit m = some bit := by
  intro m hm
  have hkeys : MODIFIER_KEYS.map (fun k => (hidUsageFor k.1, some k.2))
      = Hid.MODIFIER_USAGES.map fun m => (some m, Hid.modifierBit m) := by decide
  have htracked : ∀ k ∈ MODIFIER_KEYS, k.1 ∈ trackedKeys := by decide
  have hpair : (some m, Hid.modifierBit m) ∈ MODIFIER_KEYS.map
      fun k => (hidUsageFor k.1, some k.2) := by
    rw [hkeys]
    exact List.mem_map_of_mem hm
  obtain ⟨⟨key, bit⟩, hmem, heq⟩ := List.mem_map.1 hpair
  rw [Prod.mk.injEq] at heq
  exact ⟨key, bit, hmem, htracked _ hmem, heq.1, heq.2.symm⟩

/-- The bits of the mask are the modifiers that are held. -/
theorem modifiersFrom_and_ne_zero (isKeyDown : Key → Bool) {key : Key} {bit : UInt16}
    (h : (key, bit) ∈ MODIFIER_KEYS) :
    modifiersFrom isKeyDown &&& bit ≠ 0 ↔ isKeyDown key = true := by
  have hfold : ∀ (l : List (Key × UInt16)) (bits : UInt16),
      l.foldl (fun bits m => if isKeyDown m.1 then bits ||| m.2 else bits) bits &&& bit ≠ 0 ↔
        bits &&& bit ≠ 0 ∨ ∃ m ∈ l, isKeyDown m.1 = true ∧ m.2 &&& bit ≠ 0 := by
    intro l
    induction l with
    | nil => simp
    | cons m l ih =>
        intro bits
        rw [List.foldl_cons, ih]
        by_cases hm : isKeyDown m.1 = true
        · rw [if_pos hm, KeyState.or_and_distrib, ne_eq, UInt16.or_eq_zero_iff, not_and_or,
            or_assoc]
          simp [hm]
        · rw [if_neg hm]
          simp [hm]
  have hbits : ∀ m ∈ MODIFIER_KEYS, ∀ k ∈ MODIFIER_KEYS, m.2 &&& k.2 ≠ 0 ↔ m = k := by decide
  rw [modifiersFrom, hfold]
  simp only [UInt16.zero_and, ne_eq, not_true_eq_false, false_or]
  constructor
  · rintro ⟨m, hm, hdown, hbit⟩
    rw [(hbits m hm _ h).1 hbit] at hdown
    exact hdown
  · intro hdown
    exact ⟨_, h, hdown, (hbits _ h _ h).2 rfl⟩

/-! ### Events -/

/-- One thing the user did, on its way to the host. -/
inductive InputEvent
  | move (xNorm yNorm modifiers : UInt16)
  | button (button : MouseButtonId) (down : Bool) (xNorm yNorm modifiers : UInt16)
  | scroll (vertical horizontal : Int16) (modifiers : UInt16)
  | key (usage : UInt16) (down : Bool) (modifiers : UInt16)
  | quit

/-- Translates an event into its wire payload and the channel it belongs on. -/
def toPayload : InputEvent → Option (Payload × Channel)
  | .move xNorm yNorm modifiers => some (.mouseMove 0 0 xNorm yNorm modifiers, .inputPointer)
  | .button button down xNorm yNorm modifiers =>
      some (.mouseButton button (KeyAction.ofPressed down) xNorm yNorm modifiers 0 1, .inputKeys)
  | .scroll vertical horizontal modifiers =>
      some (.mouseWheel vertical horizontal modifiers 0 0, .inputKeys)
  | .key usage down modifiers =>
      some (.keyEvent USAGE_PAGE_KEYBOARD usage (KeyAction.ofPressed down) 0 modifiers, .inputKeys)
  | .quit => none

/-! ### The window loop -/

/-- The window loop between two turns. -/
structure Viewer where
  keyDown : Key → Bool := fun _ => false
  buttonsDown : MouseButtonId → Bool := fun _ => false
  lastPointer : Option (UInt16 × UInt16) := none
  closed : Bool := false

namespace Viewer

/-- What the window says in one turn. -/
structure Window where
  isOpen : Bool
  sessionOver : Bool
  isKeyDown : Key → Bool
  /-- Where the pointer is on the remote display, if there is a picture and a pointer. -/
  pointer : Option (UInt16 × UInt16)
  mouseDown : MouseButtonId → Bool
  /-- How far the wheel was turned, if it was. -/
  scroll : Option (Int16 × Int16)

/-- Only movement is sent. -/
def moveEvents (v : Viewer) (w : Window) (modifiers : UInt16) : List InputEvent :=
  match w.pointer with
  | some position =>
      if v.lastPointer = some position then [] else [.move position.1 position.2 modifiers]
  | none => []

/-- The buttons that changed, at the place of the pointer. -/
def buttonEvents (v : Viewer) (w : Window) (pointer : Option (UInt16 × UInt16))
    (modifiers : UInt16) : List InputEvent :=
  [MouseButtonId.left, .middle, .right].filterMap fun button =>
    if w.mouseDown button = v.buttonsDown button then none
    else
      some (.button button (w.mouseDown button) (pointer.getD (0, 0)).1 (pointer.getD (0, 0)).2
        modifiers)

/-- The wheel. -/
def scrollEvents (w : Window) (modifiers : UInt16) : List InputEvent :=
  match w.scroll with
  | some (vertical, horizontal) => [.scroll vertical horizontal modifiers]
  | none => []

/-- The transitions of some keys. -/
def transitions (keys : List Key) (was is : Key → Bool) (modifiers : UInt16) : List InputEvent :=
  keys.filterMap fun key =>
    if is key = was key then none
    else (hidUsageFor key).map fun usage => .key usage (is key) modifiers

/-- The keys that changed. -/
def keyEvents (was is : Key → Bool) (modifiers : UInt16) : List InputEvent :=
  transitions trackedKeys was is modifiers

/-- What is still held when the window closes is released. -/
def releases (v : Viewer) : List InputEvent :=
  trackedKeys.filterMap fun key =>
    if v.keyDown key then (hidUsageFor key).map fun usage => .key usage false 0 else none

/-- One turn: the events, and the loop after it.  The turn in which the loop ends is the last. -/
def turn (v : Viewer) (w : Window) : List InputEvent × Viewer :=
  if v.closed then ([], v)
  else if w.isOpen && !w.isKeyDown .escape && !w.sessionOver then
    let modifiers := modifiersFrom w.isKeyDown
    let lastPointer := w.pointer.or v.lastPointer
    (v.moveEvents w modifiers ++ v.buttonEvents w lastPointer modifiers ++
        scrollEvents w modifiers ++ keyEvents v.keyDown w.isKeyDown modifiers,
      { v with keyDown := w.isKeyDown, buttonsDown := w.mouseDown, lastPointer := lastPointer })
  else (v.releases ++ [.quit], { v with keyDown := fun _ => false, closed := true })

/-- Whether the user holds the key with a usage, as far as the viewer has said. -/
def holds (v : Viewer) (usage : UInt16) : Bool :=
  trackedKeys.any fun key => v.keyDown key && hidUsageFor key == some usage

end Viewer

/-! ### What is said about a key -/

/-- The modifiers an input payload carries. -/
def Payload.modifiersOf : Payload → UInt16
  | .mouseMove _ _ _ _ modifiers => modifiers
  | .mouseMoveRelative _ _ modifiers _ => modifiers
  | .mouseButton _ _ _ _ modifiers _ _ => modifiers
  | .mouseWheel _ _ modifiers _ _ => modifiers
  | .keyEvent _ _ _ _ modifiers => modifiers
  | _ => 0

/-- The payload does not carry the modifier. -/
def Payload.Lacks (payload : Payload) (m : UInt16) : Prop :=
  payload.modifiersOf &&& (Hid.modifierBit m).getD 0 = 0

/-- Whether a key is pressed after a payload, given whether it was before. -/
def Payload.tells (usage : UInt16) (was : Bool) : Payload → Bool
  | .keyEvent _ u action _ _ => if u = usage then action != .up else was
  | _ => was

/-- The payload is the event of a key. -/
def Payload.About (payload : Payload) (usage : UInt16) : Prop :=
  match payload with
  | .keyEvent _ u _ _ _ => u = usage
  | _ => False

/-- The payload says that a key goes up. -/
def Payload.Lifts (payload : Payload) (usage : UInt16) : Prop :=
  match payload with
  | .keyEvent _ u action _ _ => u = usage ∧ action = .up
  | _ => False

/-- What of an event travels on the channel of the keys. -/
def keyPayload (event : InputEvent) : Option Payload :=
  match toPayload event with
  | some (payload, .inputKeys) => some payload
  | _ => none

/-- The payloads on the channel of the keys. -/
def keyPayloads (events : List InputEvent) : List Payload := events.filterMap keyPayload

/-- Whether a key is pressed after some payloads. -/
def saidBy (payloads : List Payload) (usage : UInt16) (was : Bool) : Bool :=
  payloads.foldl (Payload.tells usage) was

theorem saidBy_append (payloads more : List Payload) (usage : UInt16) (was : Bool) :
    saidBy (payloads ++ more) usage was = saidBy more usage (saidBy payloads usage was) :=
  List.foldl_append

/-- Payloads that are not about the key do not change it. -/
theorem saidBy_eq_of_forall {payloads : List Payload} {usage : UInt16}
    (h : ∀ payload ∈ payloads, ∀ was, payload.tells usage was = was) (was : Bool) :
    saidBy payloads usage was = was := by
  induction payloads with
  | nil => rfl
  | cons payload payloads ih =>
      rw [saidBy, List.foldl_cons, h payload List.mem_cons_self]
      exact ih fun q hq => h q (List.mem_cons_of_mem _ hq)

/-- A key that was pressed and is not any more went up in between. -/
theorem exists_lifts_of_saidBy {payloads : List Payload} {usage : UInt16}
    (h : saidBy payloads usage true = false) : ∃ payload ∈ payloads, payload.Lifts usage := by
  induction payloads with
  | nil => cases h
  | cons payload payloads ih =>
      by_cases htells : payload.tells usage true = true
      · rw [saidBy, List.foldl_cons, htells] at h
        obtain ⟨q, hq, hlifts⟩ := ih h
        exact ⟨q, List.mem_cons_of_mem _ hq, hlifts⟩
      · refine ⟨payload, List.mem_cons_self, ?_⟩
        cases payload with
        | keyEvent usagePage u action flags modifiers =>
            by_cases hu : u = usage
            · refine ⟨hu, ?_⟩
              simpa [Payload.tells, hu] using htells
            · simp [Payload.tells, hu] at htells
        | _ => exact absurd rfl htells

namespace Viewer

variable {v : Viewer} {w : Window} {key : Key} {usage m : UInt16}

theorem holds_eq (hkey : key ∈ trackedKeys) (husage : hidUsageFor key = some usage) :
    v.holds usage = v.keyDown key := by
  rw [Bool.eq_iff_iff, holds, List.any_eq_true]
  simp only [Bool.and_eq_true, beq_iff_eq]
  constructor
  · rintro ⟨key', hkey', hdown, husage'⟩
    rw [eq_of_hidUsageFor hkey hkey' (husage.trans husage'.symm)]
    exact hdown
  · intro hdown
    exact ⟨key, hkey, hdown, husage⟩

theorem releases_eq (v : Viewer) : v.releases = keyEvents v.keyDown (fun _ => false) 0 := by
  rw [releases, keyEvents, transitions]
  refine List.filterMap_congr fun key _ => ?_
  cases v.keyDown key with
  | true => rfl
  | false => rfl

theorem saidBy_transitions_cons (key : Key) (keys : List Key) (was is : Key → Bool)
    (modifiers : UInt16) (b : Bool) :
    saidBy (keyPayloads (transitions (key :: keys) was is modifiers)) usage b
      = saidBy (keyPayloads (transitions keys was is modifiers)) usage
          (if hidUsageFor key = some usage ∧ is key ≠ was key then is key else b) := by
  rw [transitions, List.filterMap_cons]
  by_cases hsame : is key = was key
  · rw [if_pos hsame, if_neg fun h => h.2 hsame]
    rfl
  · rw [if_neg hsame]
    cases hu : hidUsageFor key with
    | none => simp [transitions]
    | some u =>
        have hdown : (KeyAction.ofPressed (is key) != .up) = is key := by
          cases is key <;> rfl
        simp [keyPayloads, keyPayload, toPayload, saidBy, Payload.tells, transitions, hdown, hsame]

/-- The transitions of other keys do not matter. -/
theorem saidBy_transitions_of_ne {keys : List Key}
    (h : ∀ key ∈ keys, hidUsageFor key ≠ some usage) (was is : Key → Bool) (modifiers : UInt16)
    (b : Bool) : saidBy (keyPayloads (transitions keys was is modifiers)) usage b = b := by
  induction keys with
  | nil => rfl
  | cons key keys ih =>
      rw [saidBy_transitions_cons, if_neg fun hk => h key List.mem_cons_self hk.1]
      exact ih fun key' hkey' => h key' (List.mem_cons_of_mem _ hkey')

/-- The transitions of keys with different usages lead from one set of held keys to the other. -/
theorem saidBy_transitions {keys : List Key} (hnodup : (keys.map hidUsageFor).Nodup)
    (was is : Key → Bool) (modifiers : UInt16) (hkey : key ∈ keys)
    (husage : hidUsageFor key = some usage) :
    saidBy (keyPayloads (transitions keys was is modifiers)) usage (was key) = is key := by
  induction keys with
  | nil => cases hkey
  | cons first keys ih =>
      rw [List.map_cons, List.nodup_cons] at hnodup
      rw [saidBy_transitions_cons]
      rcases List.mem_cons.1 hkey with rfl | hkey
      · -- The keys after it have other usages.
        have hothers : ∀ key' ∈ keys, hidUsageFor key' ≠ some usage := by
          intro key' hkey' heq
          refine hnodup.1 ?_
          rw [husage, ← heq]
          exact List.mem_map_of_mem hkey'
        rw [saidBy_transitions_of_ne hothers]
        by_cases hsame : is key = was key
        · rw [if_neg fun h => h.2 hsame, hsame]
        · rw [if_pos ⟨husage, hsame⟩]
      · have hfirst : hidUsageFor first ≠ some usage := by
          intro heq
          refine hnodup.1 ?_
          rw [heq, ← husage]
          exact List.mem_map_of_mem hkey
        rw [if_neg fun h => hfirst h.1]
        exact ih hnodup.2 hkey

/-- Events other than those of keys say nothing about keys. -/
theorem saidBy_others {events : List InputEvent} (h : ∀ event ∈ events, ∀ u down mods,
    event ≠ .key u down mods) (b : Bool) : saidBy (keyPayloads events) usage b = b := by
  refine saidBy_eq_of_forall ?_ b
  intro payload hpayload b
  obtain ⟨event, hevent, hsome⟩ := List.mem_filterMap.1 hpayload
  cases event with
  | key u down mods => exact absurd rfl (h _ hevent u down mods)
  | move | quit => cases hsome
  | button | scroll =>
      cases hsome
      rfl

/-- The events of an ordinary turn, before those of the keys. -/
def pointerEvents (v : Viewer) (w : Window) : List InputEvent :=
  v.moveEvents w (modifiersFrom w.isKeyDown) ++
    v.buttonEvents w (w.pointer.or v.lastPointer) (modifiersFrom w.isKeyDown) ++
    scrollEvents w (modifiersFrom w.isKeyDown)

/-- The three kinds of turns. -/
theorem turn_cases (v : Viewer) (w : Window) :
    (v.turn w = ([], v)) ∨
      ((v.turn w).1 = v.pointerEvents w ++
          keyEvents v.keyDown w.isKeyDown (modifiersFrom w.isKeyDown) ∧
        (v.turn w).2.keyDown = w.isKeyDown) ∨
      ((v.turn w).1 = keyEvents v.keyDown (fun _ => false) 0 ++ [.quit] ∧
        (v.turn w).2.keyDown = fun _ => false) := by
  rw [turn]
  split
  · exact .inl rfl
  · split
    · exact .inr (.inl ⟨rfl, rfl⟩)
    · refine .inr (.inr ⟨?_, rfl⟩)
      rw [releases_eq]

/-- Every event of an ordinary turn carries the mask of the turn. -/
theorem pointerEvents_cases {event : InputEvent} (h : event ∈ v.pointerEvents w) :
    (∃ x y, event = .move x y (modifiersFrom w.isKeyDown)) ∨
      (∃ b d x y, event = .button b d x y (modifiersFrom w.isKeyDown)) ∨
      ∃ vert hor, event = .scroll vert hor (modifiersFrom w.isKeyDown) := by
  rcases List.mem_append.1 h with h | h
  · rcases List.mem_append.1 h with h | h
    · rw [moveEvents] at h
      split at h
      · split at h
        · cases h
        · exact .inl ⟨_, _, List.mem_singleton.1 h⟩
      · cases h
    · obtain ⟨b, -, hsome⟩ := List.mem_filterMap.1 h
      split at hsome
      · cases hsome
      · exact .inr (.inl ⟨_, _, _, _, (Option.some.inj hsome).symm⟩)
  · rw [scrollEvents] at h
    split at h
    · exact .inr (.inr ⟨_, _, List.mem_singleton.1 h⟩)
    · cases h

theorem pointerEvents_ne_key {event : InputEvent} (h : event ∈ v.pointerEvents w) (u : UInt16)
    (down : Bool) (mods : UInt16) : event ≠ .key u down mods := by
  rcases pointerEvents_cases h with ⟨_, _, rfl⟩ | ⟨_, _, _, _, rfl⟩ | ⟨_, _, rfl⟩ <;> simp

/-- **The transitions** of a turn lead from the keys that were held to the keys that are held. -/
theorem saidBy_turn (v : Viewer) (w : Window) (hkey : key ∈ trackedKeys)
    (husage : hidUsageFor key = some usage) :
    saidBy (keyPayloads (v.turn w).1) usage (v.holds usage) = (v.turn w).2.holds usage := by
  rcases turn_cases v w with h | ⟨hevents, hdown⟩ | ⟨hevents, hdown⟩
  · rw [h]
    rfl
  · -- The pointer's events come first, and say nothing about keys.
    rw [hevents, keyPayloads, List.filterMap_append, saidBy_append]
    refine (congrArg _ (saidBy_others (fun event h => pointerEvents_ne_key h) _)).trans ?_
    rw [holds_eq hkey husage, holds_eq hkey husage, hdown]
    exact saidBy_transitions nodup_trackedUsages _ _ _ hkey husage
  · -- The last turn releases everything and quits.
    rw [hevents, keyPayloads, List.filterMap_append, saidBy_append]
    refine (saidBy_others (by simp) _).trans ?_
    rw [holds_eq hkey husage, holds_eq hkey husage, hdown]
    exact saidBy_transitions nodup_trackedUsages _ _ _ hkey husage

/-- A modifier that a payload of a turn does not carry is not held after the turn. -/
theorem not_holds_of_lacks (v : Viewer) (w : Window) {payload : Payload}
    (hm : m ∈ Hid.MODIFIER_USAGES) (hpayload : payload ∈ keyPayloads (v.turn w).1)
    (hlacks : payload.Lacks m) : (v.turn w).2.holds m = false := by
  obtain ⟨key, bit, hmem, hkey, husage, hbit⟩ := exists_modifierKey m hm
  rw [holds_eq hkey husage]
  obtain ⟨event, hevent, hsome⟩ := List.mem_filterMap.1 hpayload
  rcases turn_cases v w with h | ⟨hevents, hdown⟩ | ⟨-, hdown⟩
  · rw [h] at hevent
    cases hevent
  · -- Pointer or key, an event carries the mask of its turn.
    have hmask : payload.modifiersOf = modifiersFrom w.isKeyDown := by
      rw [hevents] at hevent
      rcases List.mem_append.1 hevent with hevent | hevent
      · rcases pointerEvents_cases hevent with ⟨_, _, rfl⟩ | ⟨_, _, _, _, rfl⟩ | ⟨_, _, rfl⟩
        · cases hsome
        · cases hsome
          rfl
        · cases hsome
          rfl
      · obtain ⟨key', -, hchanged⟩ := List.mem_filterMap.1 hevent
        split at hchanged
        · cases hchanged
        · obtain ⟨u, -, rfl⟩ := Option.map_eq_some_iff.1 hchanged
          cases hsome
          rfl
    rw [Payload.Lacks, hmask, hbit] at hlacks
    rw [hdown, ← Bool.not_eq_true, ← modifiersFrom_and_ne_zero w.isKeyDown hmem]
    exact not_not.2 hlacks
  · rw [hdown]

end Viewer

end Rda
