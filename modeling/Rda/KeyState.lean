/-
**Keys and the key state.**

The wire names a key by its HID usage.  The host keeps the set of keys it believes the peer is
holding, and undoes what it did from that set: when a snapshot of the peer's keys disagrees with it,
when an event says that a modifier is no longer held, and when the session ends.

The set is kept in ascending order, as the source's is, because the order in which keys are released
is part of what the functions return.

Main definitions:

* `Rda.Hid.KEY_TABLE`, `Rda.Hid.lookup`, `Rda.Hid.modifierBit` — the keys there are;
* `Rda.KeyState` — the keys held, with `press`, `release`, `modifiers`, `reconcile`,
  `reconcileModifiers` and `releaseAll`.

Main results:

* `Rda.Hid.keyTable_ascending` — the table is in the order its binary search needs;
* `Rda.KeyState.mem_press_of_room`, `Rda.KeyState.mem_release`,
  `Rda.KeyState.mem_reconcileModifiers` — what is held afterwards;
* `Rda.KeyState.modifiers_and_ne_zero` — the bits of the modifier mask.
-/

import Mathlib.Tactic.Common
import Rda.Control

set_option relaxedAutoImplicit false
set_option autoImplicit false

namespace Rda

namespace Hid

/-! ### The table -/

/-- Lowest valid keyboard usage. -/
def KEYBOARD_USAGE_MIN : UInt16 := 0x01

/-- Highest valid keyboard usage. -/
def KEYBOARD_USAGE_MAX : UInt16 := 0xE7

/-- Modifier usages, in the bit order of the HID boot-protocol modifier byte. -/
def MODIFIER_USAGES : List UInt16 := [0xE0, 0xE1, 0xE2, 0xE3, 0xE4, 0xE5, 0xE6, 0xE7]

/-- The bit of a modifier key in the modifier mask. -/
def modifierBit (usage : UInt16) : Option UInt16 :=
  (MODIFIER_USAGES.idxOf? usage).map fun i => 1 <<< UInt16.ofNat i

/-- Whether a usage is one of the eight modifier keys. -/
def isModifier (usage : UInt16) : Bool := 0xE0 ≤ usage && usage ≤ 0xE7

/-- Whether a usage is one that may be injected. -/
def isValidKeyboardUsage (usage : UInt16) : Bool :=
  KEYBOARD_USAGE_MIN ≤ usage && usage ≤ KEYBOARD_USAGE_MAX

/-- One row of the table. -/
structure KeyMapping where
  usage : UInt16
  name : String
  deriving DecidableEq

/-- The keys with a mapping, by usage. -/
def KEY_TABLE : List KeyMapping :=
  [⟨0x04, "KeyA"⟩, ⟨0x05, "KeyB"⟩, ⟨0x06, "KeyC"⟩, ⟨0x07, "KeyD"⟩, ⟨0x08, "KeyE"⟩, ⟨0x09, "KeyF"⟩,
    ⟨0x0A, "KeyG"⟩, ⟨0x0B, "KeyH"⟩, ⟨0x0C, "KeyI"⟩, ⟨0x0D, "KeyJ"⟩, ⟨0x0E, "KeyK"⟩, ⟨0x0F, "KeyL"⟩,
    ⟨0x10, "KeyM"⟩, ⟨0x11, "KeyN"⟩, ⟨0x12, "KeyO"⟩, ⟨0x13, "KeyP"⟩, ⟨0x14, "KeyQ"⟩, ⟨0x15, "KeyR"⟩,
    ⟨0x16, "KeyS"⟩, ⟨0x17, "KeyT"⟩, ⟨0x18, "KeyU"⟩, ⟨0x19, "KeyV"⟩, ⟨0x1A, "KeyW"⟩, ⟨0x1B, "KeyX"⟩,
    ⟨0x1C, "KeyY"⟩, ⟨0x1D, "KeyZ"⟩, ⟨0x1E, "Digit1"⟩, ⟨0x1F, "Digit2"⟩, ⟨0x20, "Digit3"⟩,
    ⟨0x21, "Digit4"⟩, ⟨0x22, "Digit5"⟩, ⟨0x23, "Digit6"⟩, ⟨0x24, "Digit7"⟩, ⟨0x25, "Digit8"⟩,
    ⟨0x26, "Digit9"⟩, ⟨0x27, "Digit0"⟩, ⟨0x28, "Enter"⟩, ⟨0x29, "Escape"⟩, ⟨0x2A, "Backspace"⟩,
    ⟨0x2B, "Tab"⟩, ⟨0x2C, "Space"⟩, ⟨0x2D, "Minus"⟩, ⟨0x2E, "Equal"⟩, ⟨0x2F, "BracketLeft"⟩,
    ⟨0x30, "BracketRight"⟩, ⟨0x31, "Backslash"⟩, ⟨0x33, "Semicolon"⟩, ⟨0x34, "Quote"⟩,
    ⟨0x35, "Backquote"⟩, ⟨0x36, "Comma"⟩, ⟨0x37, "Period"⟩, ⟨0x38, "Slash"⟩, ⟨0x39, "CapsLock"⟩,
    ⟨0x3A, "F1"⟩, ⟨0x3B, "F2"⟩, ⟨0x3C, "F3"⟩, ⟨0x3D, "F4"⟩, ⟨0x3E, "F5"⟩, ⟨0x3F, "F6"⟩,
    ⟨0x40, "F7"⟩, ⟨0x41, "F8"⟩, ⟨0x42, "F9"⟩, ⟨0x43, "F10"⟩, ⟨0x44, "F11"⟩, ⟨0x45, "F12"⟩,
    ⟨0x46, "PrintScreen"⟩, ⟨0x47, "ScrollLock"⟩, ⟨0x48, "Pause"⟩, ⟨0x49, "Insert"⟩, ⟨0x4A, "Home"⟩,
    ⟨0x4B, "PageUp"⟩, ⟨0x4C, "Delete"⟩, ⟨0x4D, "End"⟩, ⟨0x4E, "PageDown"⟩, ⟨0x4F, "ArrowRight"⟩,
    ⟨0x50, "ArrowLeft"⟩, ⟨0x51, "ArrowDown"⟩, ⟨0x52, "ArrowUp"⟩, ⟨0x53, "NumLock"⟩,
    ⟨0x54, "NumpadDivide"⟩, ⟨0x55, "NumpadMultiply"⟩, ⟨0x56, "NumpadSubtract"⟩, ⟨0x57, "NumpadAdd"⟩,
    ⟨0x58, "NumpadEnter"⟩, ⟨0x59, "Numpad1"⟩, ⟨0x5A, "Numpad2"⟩, ⟨0x5B, "Numpad3"⟩,
    ⟨0x5C, "Numpad4"⟩, ⟨0x5D, "Numpad5"⟩, ⟨0x5E, "Numpad6"⟩, ⟨0x5F, "Numpad7"⟩, ⟨0x60, "Numpad8"⟩,
    ⟨0x61, "Numpad9"⟩, ⟨0x62, "Numpad0"⟩, ⟨0x63, "NumpadDecimal"⟩, ⟨0x64, "IntlBackslash"⟩,
    ⟨0x65, "ContextMenu"⟩, ⟨0x67, "NumpadEqual"⟩, ⟨0x7F, "AudioVolumeMute"⟩,
    ⟨0x80, "AudioVolumeUp"⟩, ⟨0x81, "AudioVolumeDown"⟩, ⟨0xE0, "ControlLeft"⟩, ⟨0xE1, "ShiftLeft"⟩,
    ⟨0xE2, "AltLeft"⟩, ⟨0xE3, "MetaLeft"⟩, ⟨0xE4, "ControlRight"⟩, ⟨0xE5, "ShiftRight"⟩,
    ⟨0xE6, "AltRight"⟩, ⟨0xE7, "MetaRight"⟩]

/-- The table is ascending, so that the binary search of the source finds a row whenever there is
one. -/
theorem keyTable_ascending : (KEY_TABLE.map KeyMapping.usage).Pairwise (· < ·) := by decide

/-- Looks up a usage. -/
def lookup (usage : UInt16) : Option KeyMapping := KEY_TABLE.find? fun m => m.usage == usage

/-- Looks up by name. -/
def lookupByName (name : String) : Option KeyMapping := KEY_TABLE.find? fun m => m.name == name

theorem modifierBit_eq_some {usage bit : UInt16} (h : modifierBit usage = some bit) :
    usage ∈ MODIFIER_USAGES := by
  obtain ⟨i, hi, -⟩ := Option.map_eq_some_iff.1 h
  by_contra hmem
  rw [List.idxOf?_eq_none_iff.2 hmem] at hi
  cases hi

/-- Two modifiers share no bit. -/
theorem modifierBit_and_ne_zero : ∀ u ∈ MODIFIER_USAGES, ∀ m ∈ MODIFIER_USAGES,
    ((modifierBit u).getD 0 &&& (modifierBit m).getD 0 ≠ 0 ↔ u = m) := by
  have hall : (MODIFIER_USAGES.all fun u => MODIFIER_USAGES.all fun m =>
      decide ((modifierBit u).getD 0 &&& (modifierBit m).getD 0 ≠ 0 ↔ u = m)) = true := by
    decide
  intro u hu m hm
  exact of_decide_eq_true (List.all_eq_true.1 (List.all_eq_true.1 hall u hu) m hm)

/-- A modifier is one bit: a mask has some of it exactly when it has all of it. -/
theorem and_modifierBit {usage bit : UInt16} (h : modifierBit usage = some bit) (mask : UInt16)
    (hmask : mask &&& bit ≠ 0) : bit &&& mask = bit := by
  obtain ⟨i, hi, rfl⟩ := Option.map_eq_some_iff.1 h
  have hpow : ∀ i < 8, (1 <<< UInt16.ofNat i : UInt16) = UInt16.ofBitVec (BitVec.twoPow 16 i) := by
    decide
  obtain ⟨hlt, -⟩ := List.idxOf?_eq_some_iff.1 hi
  rw [hpow i hlt] at hmask ⊢
  apply UInt16.toBitVec_inj.1
  rw [UInt16.toBitVec_and, UInt16.toBitVec_ofBitVec, BitVec.and_comm, BitVec.and_twoPow]
  split_ifs with hget
  · rfl
  · exfalso
    apply hmask
    apply UInt16.toBitVec_inj.1
    rw [UInt16.toBitVec_and, UInt16.toBitVec_ofBitVec, BitVec.and_twoPow, if_neg hget]
    rfl

end Hid

/-! ### The keys held -/

/-- Most keys that are tracked as held at once. -/
def MAX_HELD_KEYS : ℕ := 32

/-- The host's view of which keys the remote peer is holding. -/
structure KeyState where
  held : Std.ExtTreeSet UInt16

namespace KeyState

/-- An action a reconciliation wants performed. -/
inductive Action
  | press (usage : UInt16)
  | release (usage : UInt16)
  deriving DecidableEq

/-- The key an action is about. -/
def Action.usage : Action → UInt16
  | .press usage => usage
  | .release usage => usage

/-- Whether an action presses its key. -/
def Action.isPress : Action → Bool
  | .press _ => true
  | .release _ => false

/-- A state with nothing held. -/
def new : KeyState := ⟨∅⟩

/-- Records a key going down.  The answer is whether the key was added; past the cap it is not. -/
def press (s : KeyState) (usage : UInt16) : Bool × KeyState :=
  if MAX_HELD_KEYS ≤ s.held.size ∧ usage ∉ s.held then (false, s)
  else (!s.held.contains usage, ⟨s.held.insert usage⟩)

/-- Records a key going up.  The answer is whether it was held. -/
def release (s : KeyState) (usage : UInt16) : Bool × KeyState :=
  (s.held.contains usage, ⟨s.held.erase usage⟩)

/-- The mask of a list of keys; a key that is no modifier adds no bit. -/
def maskOf (usages : List UInt16) : UInt16 :=
  usages.foldl (fun bits usage => bits ||| (Hid.modifierBit usage).getD 0) 0

/-- The modifier mask the held keys imply. -/
def modifiers (s : KeyState) : UInt16 := maskOf s.held.toList

/-- The keys a snapshot asks for: its first valid usages, as many as are tracked. -/
def target (authoritative : List UInt16) : Std.ExtTreeSet UInt16 :=
  Std.ExtTreeSet.ofList ((authoritative.filter Hid.isValidKeyboardUsage).take MAX_HELD_KEYS)

/-- Reconciles against a snapshot: what is held becomes what the snapshot asks for.  Releases come
before presses. -/
def reconcile (s : KeyState) (authoritative : List UInt16) : List Action × KeyState :=
  let target := target authoritative
  ((s.held.toList.filter fun usage => !target.contains usage).map .release ++
      (target.toList.filter fun usage => !s.held.contains usage).map .press,
    ⟨target⟩)

/-- The held modifiers that a mask says are no longer down. -/
def lost (s : KeyState) (mask : UInt16) : List UInt16 :=
  Hid.MODIFIER_USAGES.filter fun usage =>
    s.held.contains usage && mask &&& (Hid.modifierBit usage).getD 0 == 0

/-- Reconciles against the mask an event carries.  It only releases, never presses. -/
def reconcileModifiers (s : KeyState) (mask : UInt16) : List Action × KeyState :=
  ((s.lost mask).map .release, ⟨(s.lost mask).foldl (fun held usage => held.erase usage) s.held⟩)

/-- Releases everything, modifiers last. -/
def releaseAll (s : KeyState) : List Action × KeyState :=
  (((s.held.toList.filter fun usage => !Hid.isModifier usage) ++
      s.held.toList.filter Hid.isModifier).map .release, new)

/-! ### What is held afterwards -/

section Membership

variable {s : KeyState} {usage key mask : UInt16}

theorem mem_press_of_room (h : s.held.size < MAX_HELD_KEYS ∨ key ∈ s.held) :
    usage ∈ (s.press key).2.held ↔ usage = key ∨ usage ∈ s.held := by
  have hroom : ¬ (MAX_HELD_KEYS ≤ s.held.size ∧ key ∉ s.held) := by
    rintro ⟨hsize, hkey⟩
    rcases h with h | h
    · omega
    · exact hkey h
  rw [press, if_neg hroom, Std.ExtTreeSet.mem_insert, Std.compare_eq_iff_eq, eq_comm]

theorem press_of_full (hsize : MAX_HELD_KEYS ≤ s.held.size) (hkey : key ∉ s.held) :
    (s.press key).2 = s := by
  rw [press, if_pos ⟨hsize, hkey⟩]

/-- Recording a press never forgets a key and never adds another one. -/
theorem mem_of_mem_press (h : usage ∈ (s.press key).2.held) : usage = key ∨ usage ∈ s.held := by
  by_cases hroom : s.held.size < MAX_HELD_KEYS ∨ key ∈ s.held
  · exact (mem_press_of_room hroom).1 h
  · rw [not_or, not_lt] at hroom
    rw [press_of_full hroom.1 hroom.2] at h
    exact .inr h

theorem mem_press_of_mem (h : usage ∈ s.held) : usage ∈ (s.press key).2.held := by
  by_cases hroom : s.held.size < MAX_HELD_KEYS ∨ key ∈ s.held
  · exact (mem_press_of_room hroom).2 (.inr h)
  · rw [not_or, not_lt] at hroom
    rw [press_of_full hroom.1 hroom.2]
    exact h

theorem mem_release : usage ∈ (s.release key).2.held ↔ usage ≠ key ∧ usage ∈ s.held := by
  rw [release, Std.ExtTreeSet.mem_erase, ne_eq, Std.compare_eq_iff_eq, ne_eq, eq_comm]

/-- The keys of one set that are not in another. -/
theorem mem_filter_not_contains {a b : Std.ExtTreeSet UInt16} :
    usage ∈ (a.toList.filter fun usage => !b.contains usage) ↔ usage ∈ a ∧ usage ∉ b := by
  rw [List.mem_filter, Std.ExtTreeSet.mem_toList, Bool.not_eq_true', ← Bool.not_eq_true,
    Std.ExtTreeSet.contains_iff_mem]

theorem mem_lost :
    usage ∈ s.lost mask ↔ usage ∈ Hid.MODIFIER_USAGES ∧ usage ∈ s.held ∧
      mask &&& (Hid.modifierBit usage).getD 0 = 0 := by
  simp [lost]

theorem mem_foldl_erase {held : Std.ExtTreeSet UInt16} {usages : List UInt16} :
    usage ∈ usages.foldl (fun held usage => held.erase usage) held ↔
      usage ∈ held ∧ usage ∉ usages := by
  induction usages generalizing held with
  | nil => simp
  | cons u usages ih =>
      rw [List.foldl_cons, ih, Std.ExtTreeSet.mem_erase, ne_eq, Std.compare_eq_iff_eq,
        List.mem_cons, not_or, and_assoc, and_left_comm, eq_comm (a := u)]

theorem mem_reconcileModifiers :
    usage ∈ (s.reconcileModifiers mask).2.held ↔ usage ∈ s.held ∧ usage ∉ s.lost mask :=
  mem_foldl_erase

/-- What the mask does not speak about stays as it is. -/
theorem mem_reconcileModifiers_iff :
    usage ∈ (s.reconcileModifiers mask).2.held ↔ usage ∈ s.held ∧
      ¬ (usage ∈ Hid.MODIFIER_USAGES ∧ mask &&& (Hid.modifierBit usage).getD 0 = 0) := by
  rw [mem_reconcileModifiers, mem_lost]
  tauto

theorem mem_releaseAll {action : Action} :
    action ∈ s.releaseAll.1 ↔ ∃ usage ∈ s.held, action = .release usage := by
  simp only [releaseAll, List.mem_map, List.mem_append, List.mem_filter,
    Std.ExtTreeSet.mem_toList]
  constructor
  · rintro ⟨usage, hmem, rfl⟩
    exact ⟨usage, hmem.elim And.left And.left, rfl⟩
  · rintro ⟨usage, hmem, rfl⟩
    refine ⟨usage, ?_, rfl⟩
    by_cases hm : Hid.isModifier usage = true
    · exact .inr ⟨hmem, hm⟩
    · exact .inl ⟨hmem, by simpa using hm⟩

end Membership

/-! ### The modifier mask -/

theorem or_and_distrib (a b c : UInt16) : (a ||| b) &&& c = a &&& c ||| b &&& c :=
  UInt16.toBitVec_inj.1 BitVec.and_or_distrib_right

theorem foldl_or_and_ne_zero (usages : List UInt16) (bits bit : UInt16) :
    usages.foldl (fun bits usage => bits ||| (Hid.modifierBit usage).getD 0) bits &&& bit ≠ 0 ↔
      bits &&& bit ≠ 0 ∨ ∃ usage ∈ usages, (Hid.modifierBit usage).getD 0 &&& bit ≠ 0 := by
  induction usages generalizing bits with
  | nil => simp
  | cons u usages ih =>
      rw [List.foldl_cons, ih, or_and_distrib, ne_eq, UInt16.or_eq_zero_iff, not_and_or, or_assoc]
      simp only [List.mem_cons, exists_eq_or_imp, ne_eq]

/-- The bits of the modifier mask are the modifiers held. -/
theorem modifiers_and_ne_zero {s : KeyState} {m : UInt16} (hm : m ∈ Hid.MODIFIER_USAGES) :
    s.modifiers &&& (Hid.modifierBit m).getD 0 ≠ 0 ↔ m ∈ s.held := by
  rw [modifiers, maskOf, foldl_or_and_ne_zero]
  simp only [UInt16.zero_and, ne_eq, not_true_eq_false, false_or, Std.ExtTreeSet.mem_toList]
  constructor
  · rintro ⟨u, hu, hbit⟩
    cases hub : Hid.modifierBit u with
    | none => simp [hub] at hbit
    | some b =>
        have heq := (Hid.modifierBit_and_ne_zero u (Hid.modifierBit_eq_some hub) m hm).1 hbit
        exact heq ▸ hu
  · intro h
    exact ⟨m, h, (Hid.modifierBit_and_ne_zero m hm m hm).2 rfl⟩

/-- The mask of keys whose bits a mask has is within that mask. -/
theorem foldl_or_within {usages : List UInt16} {bits mask : UInt16} (hbits : bits &&& mask = bits)
    (h : ∀ usage ∈ usages, (Hid.modifierBit usage).getD 0 &&& mask
      = (Hid.modifierBit usage).getD 0) :
    usages.foldl (fun bits usage => bits ||| (Hid.modifierBit usage).getD 0) bits &&& mask =
      usages.foldl (fun bits usage => bits ||| (Hid.modifierBit usage).getD 0) bits := by
  induction usages generalizing bits with
  | nil => exact hbits
  | cons u usages ih =>
      rw [List.foldl_cons]
      refine ih ?_ ?_
      · rw [or_and_distrib, hbits, h u List.mem_cons_self]
      · intro v hv
        exact h v (List.mem_cons_of_mem u hv)

theorem modifiers_within {s : KeyState} {mask : UInt16}
    (h : ∀ usage ∈ s.held, (Hid.modifierBit usage).getD 0 &&& mask
      = (Hid.modifierBit usage).getD 0) : s.modifiers &&& mask = s.modifiers :=
  foldl_or_within UInt16.zero_and fun usage hmem => h usage (Std.ExtTreeSet.mem_toList.1 hmem)

/-- What is held after an event is within the mask the event carried. -/
theorem bit_within_of_mem_reconcileModifiers {s : KeyState} {mask usage : UInt16}
    (h : usage ∈ (s.reconcileModifiers mask).2.held) :
    (Hid.modifierBit usage).getD 0 &&& mask = (Hid.modifierBit usage).getD 0 := by
  cases hbit : Hid.modifierBit usage with
  | none => exact UInt16.zero_and
  | some b =>
      obtain ⟨hheld, hlost⟩ := mem_reconcileModifiers.1 h
      have hmask : mask &&& b ≠ 0 := by
        intro hzero
        refine hlost (mem_lost.2 ⟨Hid.modifierBit_eq_some hbit, hheld, ?_⟩)
        rw [hbit]
        exact hzero
      exact Hid.and_modifierBit hbit mask hmask

/-- So it is after the key of the event went down, if the mask has the key's own bit. -/
theorem modifiers_press_reconcileModifiers {s : KeyState} {mask usage : UInt16}
    (h : (Hid.modifierBit usage).getD 0 &&& mask = (Hid.modifierBit usage).getD 0) :
    (((s.reconcileModifiers mask).2.press usage).2).modifiers &&& mask
      = (((s.reconcileModifiers mask).2.press usage).2).modifiers := by
  refine modifiers_within fun u hu => ?_
  rcases mem_of_mem_press hu with rfl | hu
  · exact h
  · exact bit_within_of_mem_reconcileModifiers hu

end KeyState

end Rda
