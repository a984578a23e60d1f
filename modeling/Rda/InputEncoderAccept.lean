/-
**What the input encoder sends and what the host accepts.**

The arguments of a call are checked twice: by the entry point, and by the decoder of the host.  A
frame that one lets through and the other does not is lost without anybody knowing, so the two
checks should be the same.  They are for moves, buttons, the wheel and single keys.  The snapshot of
the keys that are down is the exception: its entry point counts the usages and looks at none of
them, and one bad usage makes the host discard the whole snapshot.

The click count of a button is advisory, and the entry point brings it into the range of the decoder
instead of refusing it.  So there are two ways to read what a call asks for, and the result is
stated for both.

Main definitions:

* `Rda.DecoderAccepts` — some bytes decode to a payload;
* `Rda.InputCall.named`, `Rda.InputCall.requested` — what a call asks for, with the click count as
  it is given and as it is brought into range;
* `Rda.AgreesWithHost` — a call is delivered as it was asked for, or refused if the host would;
* `Rda.InputCall.UncheckedUsage` — a snapshot that is sent with a usage off the keyboard page.

Main results:

* `Rda.agreesWithHost_iff` — a call agrees with the host exactly when what it encodes is well
  formed;
* `Rda.input_agrees_with_host_iff` — **the encoder agrees with the host** exactly off the snapshots
  with an unchecked usage.
-/

import Rda.InputEncoder

set_option relaxedAutoImplicit false
set_option autoImplicit false

namespace Rda

open RdaInputEncoder (buttonId clampU8 OnKeyboardPage)

/-! ### What the host accepts -/

/-- The host accepts some bytes as a frame with the payload. -/
def DecoderAccepts (p : Payload) : Prop :=
  ∃ bytes f, ControlFrame.decode bytes = .ok f ∧ f.payload = p

theorem decoderAccepts_iff {p : Payload} : DecoderAccepts p ↔ p.WellFormed := by
  constructor
  · rintro ⟨bytes, f, hd, rfl⟩
    exact (ControlFrame.decode_wellFormed hd).2.2.2
  · intro hp
    exact ⟨_, _, ControlFrame.decode_encode (ControlFrame.wellFormed_new hp 0 0), rfl⟩

namespace InputCall

/-- The payload that the arguments name, as they are given. -/
def named : InputCall → Option Payload
  | .pointerMove displayId xNorm yNorm modifiers =>
      some (.mouseMove displayId 0 xNorm yNorm modifiers)
  | .pointerButton button pressed displayId xNorm yNorm modifiers clickCount =>
      (buttonId button).toOption.map fun id =>
        .mouseButton id (KeyAction.ofPressed pressed) xNorm yNorm modifiers displayId clickCount
  | .scroll deltaV deltaH displayId modifiers =>
      some (.mouseWheel deltaV deltaH modifiers displayId 0)
  | .key usageId pressed modifiers =>
      some (.keyEvent USAGE_PAGE_KEYBOARD usageId (KeyAction.ofPressed pressed) 0 modifiers)
  | .keyStateSync usages modifiers => some (.keyStateSync modifiers true usages)

end InputCall

/-- The payload with its click count in range. -/
def Payload.clicksClamped : Payload → Payload
  | .mouseButton button action xNorm yNorm modifiers displayId clickCount =>
      .mouseButton button action xNorm yNorm modifiers displayId (clampU8 clickCount 1 3)
  | other => other

namespace InputCall

/-- What a call asks for: the payload its arguments name, with the click count in range. -/
def requested (call : InputCall) : Option Payload := call.named.map Payload.clicksClamped

end InputCall

/-- A frame that is produced decodes to what the call asks for and names the channel it is sent on;
what the host would reject is refused, and nothing changes. -/
structure AgreesWithHost (want : InputCall → Option Payload) (enc : RdaInputEncoder) (nowMs : ℕ)
    (call : InputCall) : Prop where
  delivered : ∀ frame, (call.apply enc nowMs).2 = .ok frame → frame.data ≠ [] →
    ∃ f, ControlFrame.decode frame.data = .ok f ∧ want call = some f.payload ∧
      rdaChannelLabel frame.channel = some f.channel.label
  refused : (∀ p, want call = some p → ¬ DecoderAccepts p) →
    ∃ e, call.apply enc nowMs = (enc, .error e)

namespace InputCall

/-- A snapshot that is short enough, with a usage that is not on the keyboard page. -/
def UncheckedUsage : InputCall → Prop
  | .keyStateSync usages _ =>
      usages.length ≤ MAX_PRESSED_KEYS ∧ ∃ usage ∈ usages, ¬ OnKeyboardPage usage
  | _ => False

/-- A call for a button that exists has a click count in range. -/
def ClicksInRange : InputCall → Prop
  | .pointerButton button _ _ _ _ _ clickCount =>
      (buttonId button).isOk → 1 ≤ clickCount ∧ clickCount ≤ 3
  | _ => True

instance : DecidablePred UncheckedUsage
  | .keyStateSync .. => inferInstanceAs (Decidable (_ ∧ _))
  | .pointerMove .. | .pointerButton .. | .scroll .. | .key .. => inferInstanceAs (Decidable False)

instance : DecidablePred ClicksInRange
  | .pointerButton .. => inferInstanceAs (Decidable (_ → _))
  | .pointerMove .. | .scroll .. | .key .. | .keyStateSync .. => inferInstanceAs (Decidable True)

/-! ### The checks of the entry points -/

variable {call : InputCall}

theorem label_channel {p : Payload} (hp : call.encoded = .ok p) (sequence : UInt16)
    (timestampMs : UInt32) :
    rdaChannelLabel call.channel
      = some (ControlFrame.new p sequence timestampMs).channel.label := by
  cases encodes_of_encoded hp <;> rfl

theorem requested_of_encoded {p : Payload} (hp : call.encoded = .ok p) :
    call.requested = some p := by
  cases encodes_of_encoded hp with
  | button pressed displayId xNorm yNorm modifiers clickCount hb =>
      rw [requested, named, hb]
      rfl
  | _ => rfl

/-- What is encoded is what the arguments name, apart from a click count out of range. -/
theorem named_of_encoded_iff {p : Payload} (hp : call.encoded = .ok p) :
    call.named = some p ↔ call.ClicksInRange := by
  cases encodes_of_encoded hp with
  | button pressed displayId xNorm yNorm modifiers clickCount hb =>
      rw [named, ClicksInRange, hb, ← clampU8_eq_self_iff (by decide)]
      simp [Except.toOption, Except.isOk, Except.toBool, eq_comm]
  | _ => exact ⟨fun _ => trivial, fun _ => rfl⟩

/-- A click count out of range is not well formed. -/
theorem not_wellFormed_of_clicks {p q : Payload} (hp : call.encoded = .ok p)
    (hclicks : ¬ call.ClicksInRange) (hq : call.named = some q) : ¬ q.WellFormed := by
  cases encodes_of_encoded hp with
  | button pressed displayId xNorm yNorm modifiers clickCount hb =>
      rw [named, hb] at hq
      rw [← Option.some.inj hq]
      rintro ⟨-, hrange⟩
      exact hclicks fun _ => hrange
  | _ => exact absurd trivial hclicks

/-- What an entry point refuses the host would reject. -/
theorem not_wellFormed_of_refused {e : InputError} (he : call.encoded = .error e) {q : Payload}
    (hq : call.named = some q) : ¬ q.WellFormed ∧ ¬ q.clicksClamped.WellFormed := by
  cases refuses_of_encoded he with
  | button pressed displayId xNorm yNorm modifiers clickCount hb =>
      rw [named, hb] at hq
      cases hq
  | key pressed modifiers hpage =>
      rw [← Option.some.inj hq]
      have hbad := fun h => hpage (validateUsage_keyboard.1 h)
      exact ⟨hbad, hbad⟩
  | snapshot modifiers hlen =>
      rw [← Option.some.inj hq]
      exact ⟨fun h => Nat.not_le.2 hlen h.1, fun h => Nat.not_le.2 hlen h.1⟩

theorem clicksInRange_of_refused {e : InputError} (he : call.encoded = .error e) :
    call.ClicksInRange := by
  cases refuses_of_encoded he with
  | button pressed displayId xNorm yNorm modifiers clickCount hb =>
      rw [ClicksInRange, hb]
      exact fun h => (nomatch h)
  | key => trivial
  | snapshot => trivial

theorem encoded_of_held {m : PendingMove} (hm : call.held = some m) :
    ∃ p, call.encoded = .ok p := by
  cases call with
  | pointerMove => exact ⟨_, rfl⟩
  | _ => cases hm

/-- What is sent is well formed except for a snapshot with an unchecked usage. -/
theorem encoded_wellFormed_iff :
    (∀ p, call.encoded = .ok p → p.WellFormed) ↔ ¬ call.UncheckedUsage := by
  constructor
  · intro h
    cases call with
    | keyStateSync usages modifiers =>
        rintro ⟨hlen, usage, husage, hoff⟩
        have hp : (keyStateSync usages modifiers).encoded
            = .ok (.keyStateSync modifiers true usages) := if_pos hlen
        exact hoff ((wellFormed_iff hp).1 (h _ hp) usages modifiers rfl usage husage)
    | _ => exact id
  · intro h p hp
    rw [wellFormed_iff hp]
    rintro usages modifiers rfl usage husage
    by_contra hoff
    cases encodes_of_encoded hp with
    | snapshot _ hlen => exact h ⟨hlen, usage, husage, hoff⟩

end InputCall

/-! ### Agreement -/

open InputCall

/-- A reading of what calls ask for under which the entry point of a call encodes what is asked
for, and refuses only what the host rejects. -/
structure Reading (want : InputCall → Option Payload) (call : InputCall) : Prop where
  encodes : ∀ p, call.encoded = .ok p → want call = some p
  refuses : ∀ e, call.encoded = .error e → ∀ p, want call = some p → ¬ p.WellFormed

theorem reading_requested (call : InputCall) : Reading requested call where
  encodes _ hp := requested_of_encoded hp
  refuses e he p hp := by
    obtain ⟨q, hq, rfl⟩ := Option.map_eq_some_iff.1 hp
    exact (not_wellFormed_of_refused he hq).2

theorem reading_named {call : InputCall} (h : call.ClicksInRange) : Reading named call where
  encodes _ hp := (named_of_encoded_iff hp).2 h
  refuses _ he _ hp := (not_wellFormed_of_refused he hp).1

variable {want : InputCall → Option Payload} {enc : RdaInputEncoder} {nowMs : ℕ} {call : InputCall}

/-- A call that agrees with the host does not encode anything if the host rejects what it asks
for. -/
theorem AgreesWithHost.accepts (h : AgreesWithHost want enc nowMs call) {p : Payload}
    (hp : call.encoded = .ok p) : ∃ q, want call = some q ∧ q.WellFormed := by
  by_contra hnone
  obtain ⟨e, he⟩ := h.refused fun q hq hacc => hnone ⟨q, hq, decoderAccepts_iff.1 hacc⟩
  rcases call.apply_cases enc nowMs with ⟨e', he', -⟩ | ⟨m, -, -, hm⟩ | ⟨q, -, -, hq⟩
  · rw [hp] at he'
    cases he'
  · rw [he] at hm
    cases congrArg Prod.snd hm
  · rw [he] at hq
    cases congrArg Prod.snd hq

/-- **Agreement**: with such a reading a call agrees with the host exactly when what it encodes is
well formed. -/
theorem agreesWithHost_iff (hwant : Reading want call) :
    AgreesWithHost want enc nowMs call ↔ ∀ p, call.encoded = .ok p → p.WellFormed := by
  constructor
  · intro h p hp
    obtain ⟨q, hq, hwf⟩ := h.accepts hp
    rw [hwant.encodes p hp, Option.some.injEq] at hq
    exact hq ▸ hwf
  · intro h
    rcases call.apply_cases enc nowMs with ⟨e, he, happly⟩ | ⟨m, hm, -, happly⟩ | ⟨p, hp, -, happly⟩
    · refine ⟨fun frame hframe => ?_, fun _ => ⟨e, happly⟩⟩
      rw [happly] at hframe
      cases hframe
    · constructor
      · intro frame hframe hdata
        rw [happly] at hframe
        exact absurd (congrArg RdaInputFrame.data (Except.ok.inj hframe)).symm hdata
      · -- A move is never rejected.
        intro hreject
        obtain ⟨p, hp⟩ := encoded_of_held hm
        exact absurd (decoderAccepts_iff.2 (h p hp)) (hreject p (hwant.encodes p hp))
    · constructor
      · intro frame hframe _
        rw [happly] at hframe
        rw [← Except.ok.inj hframe]
        refine ⟨_, ControlFrame.decode_encode (ControlFrame.wellFormed_new (h p hp) _ _), ?_, ?_⟩
        · exact hwant.encodes p hp
        · exact label_channel hp _ _
      · intro hreject
        exact absurd (decoderAccepts_iff.2 (h p hp)) (hreject p (hwant.encodes p hp))

/-- **Which calls agree with the host**: with an advisory click count, all but the snapshots with an
unchecked usage; with a click count to be taken as it is given, those of them whose click count is
in range. -/
theorem input_agrees_with_host_iff (enc : RdaInputEncoder) (nowMs : ℕ) (call : InputCall) :
    (AgreesWithHost requested enc nowMs call ↔ ¬ call.UncheckedUsage) ∧
      (AgreesWithHost named enc nowMs call ↔ ¬ call.UncheckedUsage ∧ call.ClicksInRange) := by
  refine ⟨(agreesWithHost_iff (reading_requested call)).trans encoded_wellFormed_iff, ?_⟩
  constructor
  · intro h
    have hclicks : call.ClicksInRange := by
      by_contra hclicks
      cases hp : call.encoded with
      | error e => exact hclicks (clicksInRange_of_refused hp)
      | ok p =>
          obtain ⟨q, hq, hwf⟩ := h.accepts hp
          exact not_wellFormed_of_clicks hp hclicks hq hwf
    refine ⟨?_, hclicks⟩
    exact encoded_wellFormed_iff.1 ((agreesWithHost_iff (reading_named hclicks)).1 h)
  · rintro ⟨hchecked, hclicks⟩
    exact (agreesWithHost_iff (reading_named hclicks)).2 (encoded_wellFormed_iff.2 hchecked)

/-- A snapshot with a usage off the keyboard page is sent, and the host discards it. -/
theorem snapshot_with_unchecked_usage :
    ¬ AgreesWithHost requested (.new 0) 100 (.keyStateSync [0x00E1, 0x00FF] 0) ∧
      ¬ AgreesWithHost named (.new 0) 100 (.keyStateSync [0x00E1, 0x00FF] 0) ∧
      ∃ frame, (RdaInputEncoder.keyStateSync (.new 0) [0x00E1, 0x00FF] 0 100).2 = .ok frame ∧
        frame.data.length = 16 ∧
        ControlFrame.decode frame.data = .error (.invalidField "usage_id" 0x00FF) := by
  have hbad : ¬ (Payload.keyStateSync 0 true [0x00E1, 0x00FF]).WellFormed := by
    rintro ⟨-, hall⟩
    have hpage := validateUsage_keyboard.1 (hall 0x00FF (by simp))
    exact absurd hpage (by decide)
  refine ⟨?_, ?_, _, rfl, rfl, rfl⟩
  · intro h
    obtain ⟨q, hq, hwf⟩ := h.accepts (p := .keyStateSync 0 true [0x00E1, 0x00FF]) rfl
    cases hq
    exact hbad hwf
  · intro h
    obtain ⟨q, hq, hwf⟩ := h.accepts (p := .keyStateSync 0 true [0x00E1, 0x00FF]) rfl
    cases hq
    exact hbad hwf

end Rda
