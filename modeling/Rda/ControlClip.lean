/-
**Over-long fields are clipped, not dropped.**

Three payloads carry a field the decoder caps: the message of an error, the text of a text input
and the key list of a snapshot.  The encoder cuts each to its cap before it writes the length
field, and for text the cut backs up to a character boundary, so that what is left is still UTF-8.
`Rda.Payload.clipped` is the payload with those cuts made.  The encoder does not distinguish a
payload from its clipped form (`Rda.encodePayload_clipped`), and the clipped form is one the
decoder accepts, so the round trip of `Rda/ControlCodec.lean` applies to it.

Main definitions:

* `Rda.LongestPrefix` — a string is the longest prefix, in whole characters, that fits a number of
  bytes;
* `Rda.Payload.clipped` — a payload with its over-long field cut.

Main results:

* `Rda.longestPrefix_truncateUtf8` — the byte-level search for a boundary finds that prefix;
* `Rda.ControlFrame.decode_encode_clipped` — a frame decodes to its clipped form;
* `Rda.overlong_fields_clipped` — the three payloads, with any length of field.
-/

import Mathlib.Data.String.Basic
import Rda.ControlCodec

set_option relaxedAutoImplicit false
set_option autoImplicit false

namespace Rda

/-! ### Cutting text at a character boundary -/

/-- `t` is the longest prefix of `s` in whole characters whose UTF-8 form fits `n` bytes. -/
structure LongestPrefix (s : String) (n : ℕ) (t : String) : Prop where
  /-- It is a prefix, character by character. -/
  isPrefix : t.toList <+: s.toList
  /-- It fits. -/
  fits : t.utf8ByteSize ≤ n
  /-- Every prefix that fits is a prefix of it. -/
  longest : ∀ u : String, u.toList <+: s.toList → u.utf8ByteSize ≤ n → u.toList <+: t.toList

theorem charBoundary_le (s : String) (n : ℕ) : charBoundary s n ≤ n := by
  induction n with
  | zero => exact Nat.le_refl 0
  | succ n ih =>
      rw [charBoundary]
      split
      · exact Nat.le_refl _
      · exact Nat.le_succ_of_le ih

/-- The search stops at a boundary: the start of the string is one. -/
theorem charBoundary_isValid (s : String) (n : ℕ) :
    String.Pos.Raw.IsValid s ⟨charBoundary s n⟩ := by
  induction n with
  | zero => exact String.Pos.Raw.isValid_zero
  | succ n ih =>
      rw [charBoundary]
      split
      · next h => exact String.Pos.Raw.isValid_eq_true_iff.1 h
      · exact ih

/-- The search passes over no boundary. -/
theorem le_charBoundary {s : String} {n k : ℕ} (hk : k ≤ n)
    (hvalid : String.Pos.Raw.IsValid s ⟨k⟩) : k ≤ charBoundary s n := by
  induction n with
  | zero => omega
  | succ n ih =>
      rw [charBoundary]
      split
      · exact hk
      · next h =>
          -- `n + 1` is no boundary, so `k` is not `n + 1`
          have hne : k ≠ n + 1 := by
            rintro rfl
            exact h (String.Pos.Raw.isValid_eq_true_iff.2 hvalid)
          exact ih (by omega)

theorem extract_append_left (s₁ s₂ : String) :
    String.Pos.Raw.extract (s₁ ++ s₂) 0 s₁.rawEndPos = s₁ := by
  have h : String.Pos.Raw.extract (s₁ ++ s₂) 0 ⟨s₁.utf8ByteSize⟩ = s₁ := by
    simpa using String.extract_of_valid [] s₁.toList s₂.toList
  exact h

/-- A prefix in whole characters ends at a boundary of the string. -/
theorem isValid_of_isPrefix {s u : String} (h : u.toList <+: s.toList) :
    String.Pos.Raw.IsValid s ⟨u.utf8ByteSize⟩ := by
  obtain ⟨rest, hrest⟩ := h
  refine String.Pos.Raw.isValid_iff_exists_append.2 ⟨u, String.ofList rest, ?_, rfl⟩
  rw [← String.toList_inj, String.toList_append, String.toList_ofList, hrest]

/-- Of two prefixes of one string, the one with no more bytes is a prefix of the other. -/
theorem prefix_of_byteSize_le {s u t : String} (hu : u.toList <+: s.toList)
    (ht : t.toList <+: s.toList) (hle : u.utf8ByteSize ≤ t.utf8ByteSize) :
    u.toList <+: t.toList := by
  rcases List.prefix_or_prefix_of_prefix hu ht with h | ⟨rest, hrest⟩
  · exact h
  · -- the rest takes no bytes, so it holds no character
    have hsize := congrArg String.utf8Len hrest
    rw [String.utf8Len_append, String.utf8Len_toList, String.utf8Len_toList] at hsize
    have hnil : rest = [] := String.utf8Len_eq_zero.1 (by omega)
    rw [hnil, List.append_nil] at hrest
    exact hrest ▸ List.prefix_refl _

/-- **The cut keeps the longest prefix in whole characters.** -/
theorem longestPrefix_truncateUtf8 (s : String) (n : ℕ) : LongestPrefix s n (truncateUtf8 s n) := by
  unfold truncateUtf8
  split
  · next h => exact ⟨List.prefix_refl _, h, fun u hu _ => hu⟩
  · obtain ⟨s₁, s₂, hs, hend⟩ :=
      String.Pos.Raw.isValid_iff_exists_append.1 (charBoundary_isValid s n)
    have hsize : charBoundary s n = s₁.utf8ByteSize := congrArg String.Pos.Raw.byteIdx hend
    have hcut : String.Pos.Raw.extract s 0 ⟨charBoundary s n⟩ = s₁ := by
      rw [hend, hs, extract_append_left]
    have hprior : s₁.toList <+: s.toList := by
      rw [hs, String.toList_append]
      exact List.prefix_append _ _
    rw [hcut]
    refine ⟨hprior, ?_, fun u hu hfits => prefix_of_byteSize_le hu hprior ?_⟩
    · rw [← hsize]
      exact charBoundary_le s n
    · rw [← hsize]
      exact le_charBoundary hfits (isValid_of_isPrefix hu)

/-- What has been cut once fits, and is not cut again. -/
theorem truncateUtf8_truncateUtf8 (s : String) (n : ℕ) :
    truncateUtf8 (truncateUtf8 s n) n = truncateUtf8 s n :=
  truncateUtf8_of_le (longestPrefix_truncateUtf8 s n).fits

/-- A character takes at most four bytes, so a cut at four or more leaves a non-empty string
non-empty. -/
theorem LongestPrefix.ne_empty {s t : String} {n : ℕ} (h : LongestPrefix s n t) (hn : 4 ≤ n)
    (hs : s ≠ "") : t.utf8ByteSize ≠ 0 := by
  intro hzero
  have hcons : s.toList ≠ [] := fun hnil => hs (String.toList_eq_nil_iff.1 hnil)
  obtain ⟨c, cs, hc⟩ := List.exists_cons_of_ne_nil hcons
  have hone : (String.ofList [c]).toList <+: t.toList := by
    refine h.longest _ ?_ ?_
    · rw [String.toList_ofList, hc]
      exact ⟨cs, rfl⟩
    · rw [String.utf8ByteSize_ofList]
      simpa using Nat.le_trans c.utf8Size_le_four hn
  have hnil : t.toList = [] := String.utf8Len_eq_zero.1 (by rw [String.utf8Len_toList, hzero])
  rw [hnil, String.toList_ofList] at hone
  exact absurd (List.prefix_nil.1 hone) (List.cons_ne_nil _ _)

/-! ### Clipped payloads -/

/-- A payload with its over-long field cut. -/
def Payload.clipped : Payload → Payload
  | .error code message => .error code (truncateUtf8 message 256)
  | .keyStateSync modifiers authoritative pressed =>
      .keyStateSync modifiers authoritative (pressed.take MAX_PRESSED_KEYS)
  | .textInput commit preedit text =>
      .textInput commit preedit (truncateUtf8 text MAX_TEXT_INPUT)
  | other => other

/-- The encoder sees only the clipped form. -/
theorem encodePayload_clipped (p : Payload) : encodePayload p.clipped = encodePayload p := by
  cases p with
  | error code message => simp only [Payload.clipped, encodePayload, truncateUtf8_truncateUtf8]
  | keyStateSync modifiers authoritative pressed =>
      have hmin : min (min MAX_PRESSED_KEYS pressed.length) MAX_PRESSED_KEYS
          = min pressed.length MAX_PRESSED_KEYS := by omega
      simp only [Payload.clipped, encodePayload, List.length_take, hmin, List.take_take]
      congr 3
      omega
  | textInput commit preedit text =>
      simp only [Payload.clipped, encodePayload, truncateUtf8_truncateUtf8]
  | _ => rfl

theorem Payload.typeByte_clipped (p : Payload) : p.clipped.typeByte = p.typeByte := by
  cases p <;> rfl

/-- A header that can stand before a payload: our version, a flag nibble, the payload's type. -/
def Header.Carries (h : Header) (p : Payload) : Prop :=
  h.version = PROTO_VERSION ∧ h.flags ≤ 0x0F ∧ h.msgType = p.typeByte

theorem Header.carries_new (p : Payload) (sequence : UInt16) (timestampMs : UInt32) :
    (ControlFrame.new p sequence timestampMs).header.Carries p := by
  refine ⟨rfl, UInt8.zero_le, ?_⟩
  cases p <;> rfl

/-- **A frame decodes to its clipped form**, if that form is within the decoder's limits. -/
theorem ControlFrame.decode_encode_clipped {h : Header} {p : Payload} (hh : h.Carries p)
    (hp : p.clipped.WellFormed) :
    ControlFrame.decode (ControlFrame.encode ⟨h, p⟩) = .ok ⟨h, p.clipped⟩ := by
  obtain ⟨hv, hf, hty⟩ := hh
  have hwf : ControlFrame.WellFormed ⟨h, p.clipped⟩ :=
    ⟨hv, hf, hty.trans (Payload.typeByte_clipped p).symm, hp⟩
  have henc : ControlFrame.encode ⟨h, p⟩ = ControlFrame.encode ⟨h, p.clipped⟩ := by
    simp only [ControlFrame.encode, encodePayload_clipped]
  rw [henc, ControlFrame.decode_encode hwf]

/-! ### The three payloads -/

theorem wellFormed_clipped_error (code : UInt16) (message : String) :
    (Payload.error code message).clipped.WellFormed :=
  (longestPrefix_truncateUtf8 message 256).fits

theorem wellFormed_clipped_keyStateSync (modifiers : UInt16) (authoritative : Bool)
    {pressed : List UInt16}
    (h : ∀ usage ∈ pressed, validateUsage USAGE_PAGE_KEYBOARD usage = .ok ()) :
    (Payload.keyStateSync modifiers authoritative pressed).clipped.WellFormed :=
  ⟨List.length_take_le _ _, fun usage hu => h usage (List.mem_of_mem_take hu)⟩

theorem wellFormed_clipped_textInput (commit preedit : Bool) {text : String} (hne : text ≠ "")
    (hctl : text.toList.any forbiddenControl = false) :
    (Payload.textInput commit preedit text).clipped.WellFormed := by
  have hcut := longestPrefix_truncateUtf8 text MAX_TEXT_INPUT
  refine ⟨hcut.ne_empty (by decide) hne, hcut.fits, ?_⟩
  rw [List.any_eq_false] at hctl ⊢
  exact fun c hc => hctl c (hcut.isPrefix.subset hc)

/-- **Over-long fields are clipped, never dropped.**  A text input whose text is not empty and
holds no forbidden control character decodes to the same frame with the longest prefix of the text
that fits; so does every error with its message; and a snapshot of valid usages decodes to its
first keys. -/
theorem overlong_fields_clipped (h : Header) :
    (∀ (commit preedit : Bool) (text : String), h.Carries (.textInput commit preedit text) →
      text ≠ "" → text.toList.any forbiddenControl = false →
      ∃ kept, LongestPrefix text MAX_TEXT_INPUT kept ∧
        ControlFrame.decode (ControlFrame.encode ⟨h, .textInput commit preedit text⟩)
          = .ok ⟨h, .textInput commit preedit kept⟩) ∧
    (∀ (code : UInt16) (message : String), h.Carries (.error code message) →
      ∃ kept, LongestPrefix message 256 kept ∧
        ControlFrame.decode (ControlFrame.encode ⟨h, .error code message⟩)
          = .ok ⟨h, .error code kept⟩) ∧
    (∀ (modifiers : UInt16) (authoritative : Bool) (pressed : List UInt16),
      h.Carries (.keyStateSync modifiers authoritative pressed) →
      (∀ usage ∈ pressed, validateUsage USAGE_PAGE_KEYBOARD usage = .ok ()) →
        ControlFrame.decode
            (ControlFrame.encode ⟨h, .keyStateSync modifiers authoritative pressed⟩)
          = .ok ⟨h, .keyStateSync modifiers authoritative (pressed.take MAX_PRESSED_KEYS)⟩) := by
  refine ⟨?_, ?_, ?_⟩
  · intro commit preedit text hh hne hctl
    exact ⟨_, longestPrefix_truncateUtf8 text MAX_TEXT_INPUT,
      ControlFrame.decode_encode_clipped hh (wellFormed_clipped_textInput _ _ hne hctl)⟩
  · intro code message hh
    exact ⟨_, longestPrefix_truncateUtf8 message 256,
      ControlFrame.decode_encode_clipped hh (wellFormed_clipped_error code message)⟩
  · intro modifiers authoritative pressed hh husage
    exact ControlFrame.decode_encode_clipped hh (wellFormed_clipped_keyStateSync _ _ husage)

/-- A pasted text of twelve hundred bytes, an error of six hundred and forty pressed keys. -/
theorem overlong_fields_clipped_samples :
    (∃ kept, LongestPrefix (String.ofList (List.replicate 600 'é')) MAX_TEXT_INPUT kept ∧
      ControlFrame.decode (ControlFrame.encode
          ⟨⟨PROTO_VERSION, 0, MessageType.textInput.code, 7, 9⟩,
            .textInput true false (String.ofList (List.replicate 600 'é'))⟩)
        = .ok ⟨⟨PROTO_VERSION, 0, MessageType.textInput.code, 7, 9⟩,
            .textInput true false kept⟩) ∧
    (∃ kept, LongestPrefix (String.ofList (List.replicate 200 '字')) 256 kept ∧
      ControlFrame.decode (ControlFrame.encode
          ⟨⟨PROTO_VERSION, 0, MessageType.error.code, 7, 9⟩,
            .error 1 (String.ofList (List.replicate 200 '字'))⟩)
        = .ok ⟨⟨PROTO_VERSION, 0, MessageType.error.code, 7, 9⟩, .error 1 kept⟩) ∧
    ControlFrame.decode (ControlFrame.encode
        ⟨⟨PROTO_VERSION, 0, MessageType.keyStateSync.code, 7, 9⟩,
          .keyStateSync 0 true (List.replicate 40 4)⟩)
      = .ok ⟨⟨PROTO_VERSION, 0, MessageType.keyStateSync.code, 7, 9⟩,
          .keyStateSync 0 true (List.replicate 32 4)⟩ := by
  refine ⟨?_, ?_, ?_⟩
  · refine (overlong_fields_clipped _).1 true false _ ⟨rfl, by decide, rfl⟩ ?_ ?_
    · intro h
      have hlen := congrArg (fun s => s.toList.length) h
      simp only [String.toList_ofList, List.length_replicate] at hlen
      exact absurd hlen (by decide)
    · rw [String.toList_ofList, List.any_replicate]
      decide
  · exact (overlong_fields_clipped _).2.1 1 _ ⟨rfl, by decide, rfl⟩
  · exact (overlong_fields_clipped _).2.2 0 true (List.replicate 40 4) ⟨rfl, by decide, rfl⟩
      fun _ h => List.eq_of_mem_replicate h ▸ rfl

end Rda
