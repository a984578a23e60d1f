/-
**Extending and truncating a control frame.**

A newer sender may append fields to a body, and an SCTP message may arrive cut short.  The codec
has no table of minimum lengths: what a type needs is implied by the reads of its decoder, and it
is the exactness of those reads (`Rda.reads_payload`) that decides both questions.

A frame of a parsed type always survives an extension.  Truncation is always noticed, except at
the end of a `Pong`: its encoder writes two reserved bytes, as the other encoders with reserved
bytes do, but its decoder does not skip them, so a `Pong` that lost one or both is accepted.

Main definitions:

* `Rda.FramingLaw` — appended bytes are ignored and every strict front part is refused.

Main results:

* `Rda.ControlFrame.decode_truncated` — a cut inside the bytes the reader needs is an error;
* `Rda.framingLaw_iff_not_pong` — **the framing law holds exactly off `Pong`**.
-/

import Rda.ControlCodec

set_option relaxedAutoImplicit false
set_option autoImplicit false

namespace Rda

/-- Appended bytes are ignored, and no strict front part of the encoding is accepted. -/
def FramingLaw (f : ControlFrame) : Prop :=
  (∀ extra, ControlFrame.decode (f.encode ++ extra) = .ok f) ∧
    ∀ pre, pre <+: f.encode → pre ≠ f.encode → ∃ e, ControlFrame.decode pre = .error e

theorem unread_of_not_pong {p : Payload} (h : payloadType p ≠ .pong) : unread p = [] := by
  cases p with
  | pong token hostDelayUs => exact absurd rfl h
  | _ => rfl

theorem ControlFrame.decode_of_short {buf : List UInt8} (h : buf.length < HEADER_LEN) :
    ControlFrame.decode buf = .error (.truncated HEADER_LEN buf.length) := by
  simp only [ControlFrame.decode, Header.decode_of_short h, bind, Except.bind]

/-- A strict front part of what `p` reads is refused behind any header of its type. -/
theorem ControlFrame.decode_truncated {h : Header} {ty : MessageType} {r : Cursor Payload}
    {body pre : List UInt8} {p : Payload} (hv : h.version = PROTO_VERSION) (hf : h.flags ≤ 0x0F)
    (hty : h.msgType = ty.code) (hr : Cursor.forType ty = some r) (hreads : Wire.Reads r body p)
    (hpre : pre <+: h.encode ++ body) (hne : pre ≠ h.encode ++ body) :
    ∃ e, ControlFrame.decode pre = .error e := by
  rcases List.prefix_or_prefix_of_prefix hpre (List.prefix_append h.encode body)
    with hin | ⟨mid, rfl⟩
  · by_cases heq : pre = h.encode
    · -- the whole header and nothing of the body
      subst heq
      obtain ⟨e, he⟩ := hreads.short [] List.nil_prefix (by rintro rfl; simp at hne)
      refine ⟨e, ?_⟩
      rw [← List.append_nil h.encode, ControlFrame.decode_of_header hv hf, hty,
        decodePayload_of_reader _ hr, he]
      rfl
    · have hlt : pre.length < HEADER_LEN := by
        rw [← Header.length_encode h]
        rcases Nat.lt_or_ge pre.length h.encode.length with hl | hl
        · exact hl
        · exact absurd (hin.eq_of_length_le hl) heq
      exact ⟨_, ControlFrame.decode_of_short hlt⟩
  · have hmid : mid <+: body := (List.prefix_append_right_inj h.encode).1 hpre
    obtain ⟨e, he⟩ := hreads.short mid hmid (by rintro rfl; exact hne rfl)
    refine ⟨e, ?_⟩
    rw [ControlFrame.decode_of_header hv hf, hty, decodePayload_of_reader _ hr, he]
    rfl

/-- **The framing law holds exactly off `Pong`**, over the well-formed frames whose body is
parsed. -/
theorem framingLaw_iff_not_pong {f : ControlFrame} (hf : f.WellFormed)
    (hp : f.payload.isUnknown = false) : FramingLaw f ↔ payloadType f.payload ≠ .pong := by
  obtain ⟨hv, hfl, hty, hpay⟩ := hf
  obtain ⟨r, body, hr, hbody, hreads⟩ := reads_payload hpay hp
  have hcode : f.header.msgType = (payloadType f.payload).code :=
    hty.trans (Payload.typeByte_of_parsed hp)
  constructor
  · -- a `Pong` without its reserved tail is accepted
    rintro ⟨_, hshort⟩ hpong
    have hunread : unread f.payload = [0, 0] := by
      cases hq : f.payload with
      | pong token hostDelayUs => rfl
      | _ => rw [hq] at hpong; cases hpong
    have henc : f.encode = f.header.encode ++ body ++ [0, 0] := by
      rw [ControlFrame.encode, hbody, hunread, List.append_assoc]
    obtain ⟨e, he⟩ := hshort (f.header.encode ++ body) (henc ▸ List.prefix_append ..)
      (by rw [henc]; simp)
    have hok : r body = .ok (f.payload, []) := by
      have := hreads.full []
      rwa [List.append_nil] at this
    rw [ControlFrame.decode_of_header hv hfl, hcode, decodePayload_of_reader _ hr, hok] at he
    cases he
  · intro hpong
    have henc : f.encode = f.header.encode ++ body := by
      rw [ControlFrame.encode, hbody, unread_of_not_pong hpong, List.append_nil]
    constructor
    · intro extra
      exact ControlFrame.decode_encode_append ⟨hv, hfl, hty, hpay⟩ extra (by simp [hp])
    · intro pre hpre hne
      rw [henc] at hpre hne
      exact ControlFrame.decode_truncated hv hfl hcode hr hreads hpre hne

/-- The law at an `LtrAck`, whose decoder does skip the reserved byte its encoder writes. -/
theorem framingLaw_ltrAck :
    FramingLaw (ControlFrame.new (.ltrAck 3 9001) 7 1234) :=
  (framingLaw_iff_not_pong (by decide) rfl).2 (by decide)

/-- A `Pong` cut one byte short decodes to the whole `Pong`. -/
theorem framingLaw_fails_at_pong :
    (ControlFrame.new (.pong 0xDEADBEEF 42) 7 1234).WellFormed ∧
      ControlFrame.decode ((ControlFrame.new (.pong 0xDEADBEEF 42) 7 1234).encode.take 15)
        = .ok (ControlFrame.new (.pong 0xDEADBEEF 42) 7 1234) ∧
      ¬ FramingLaw (ControlFrame.new (.pong 0xDEADBEEF 42) 7 1234) := by
  have hok : ControlFrame.decode ((ControlFrame.new (.pong 0xDEADBEEF 42) 7 1234).encode.take 15)
      = .ok (ControlFrame.new (.pong 0xDEADBEEF 42) 7 1234) := by decide
  refine ⟨by decide, hok, ?_⟩
  rintro ⟨_, hshort⟩
  obtain ⟨e, he⟩ := hshort _ (List.take_prefix 15 _) (by decide)
  rw [hok] at he
  cases he

end Rda
