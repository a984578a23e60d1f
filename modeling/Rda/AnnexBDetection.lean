/-
**An Annex B stream can be mistaken for AVCC.**

The encoder's converter has no flag that says which framing it is given.  It tries to read its
input as AVCC and hands it back unchanged when that fails, so that a stream which is already
Annex B passes through.  The test is whether the lengths chain to the end of the buffer, and a start
code is a possible length: `00 00 00 01` reads as a length of one, and `00 00 01` with the first
byte `b` of its unit reads as a length of `256 + b`.  A stream whose start codes happen to chain
is rewritten, and a three-byte start code is overwritten together with the byte behind it.

This module says exactly which streams pass.  A stream that does not read as AVCC is returned as
it is.  A stream that does is rewritten unit by unit, and the rewriting changes nothing only where
every length is one, because then each prefix already is the start code that replaces it.

Main definitions:

* `Rda.IsAnnexB` — streams of units behind start codes of either length;
* `Rda.ReadsAsAvcc` — streams that also chain as length-prefixed units, not all of one byte.

Main results:

* `Rda.annexB_eq_lengthPrefixed_iff` — the two framings of a list of units agree exactly when
  every unit is one byte;
* `Rda.avccToAnnexB_eq_self_iff` — what the converter leaves alone, over all byte strings;
* `Rda.annexB_passes_through_iff` — **an Annex B stream passes unchanged exactly when it does not
  also read as AVCC**.
-/

import Rda.AnnexB

set_option relaxedAutoImplicit false
set_option autoImplicit false

namespace Rda

open Wire (toBe ofBe ofBe_toBe)

/-! ### Streams that are already Annex B -/

/-- A start code of either length. -/
def IsStartCode (code : List UInt8) : Prop := code = [0, 0, 1] ∨ code = [0, 0, 0, 1]

/-- An Annex B stream: start codes, each with a unit behind it that is not empty and holds no
start code. -/
def IsAnnexB (data : List UInt8) : Prop :=
  ∃ parts : List (List UInt8 × List UInt8), parts ≠ [] ∧
    (∀ part ∈ parts, IsStartCode part.1 ∧ part.2 ≠ [] ∧ ¬ [0, 0, 1] <:+: part.2) ∧
    data = parts.flatMap fun part => part.1 ++ part.2

/-- A stream that chains to its end as length-prefixed units, of which one is not a single byte. -/
def ReadsAsAvcc (data : List UInt8) : Prop :=
  ∃ us : List (List UInt8), (∀ u ∈ us, IsPrefixable u) ∧ data = lengthPrefixed us ∧
    ∃ u ∈ us, u.length ≠ 1

/-! ### Where rewriting changes nothing -/

/-- A length prefix is the start code exactly when the length is one. -/
theorem toBe_eq_startCode_iff {u : List UInt8} (hu : IsPrefixable u) :
    toBe 4 u.length = START_CODE ↔ u.length = 1 := by
  have hlt : u.length < 2 ^ 32 := hu.2
  constructor
  · intro h
    have hval := congrArg ofBe h
    rw [ofBe_toBe, Nat.mod_eq_of_lt (by omega)] at hval
    exact hval
  · intro h
    rw [h]
    rfl

/-- The two framings of a list of units agree exactly when every unit is one byte. -/
theorem annexB_eq_lengthPrefixed_iff {us : List (List UInt8)} (hus : ∀ u ∈ us, IsPrefixable u) :
    annexB us = lengthPrefixed us ↔ ∀ u ∈ us, u.length = 1 := by
  induction us with
  | nil => simp
  | cons u us ih =>
      have hu := toBe_eq_startCode_iff (hus u (List.mem_cons_self ..))
      have hlen : START_CODE.length = (toBe 4 u.length).length := (Wire.toBe_length ..).symm
      have hrest := ih fun v hv => hus v (List.mem_cons_of_mem _ hv)
      rw [annexB_cons, lengthPrefixed_cons, List.forall_mem_cons, ← hu, ← hrest]
      constructor
      · intro h
        obtain ⟨hcode, htail⟩ := List.append_inj h hlen
        exact ⟨hcode.symm, List.append_cancel_left htail⟩
      · rintro ⟨hcode, htail⟩
        rw [hcode, htail]

/-- What the converter leaves alone: everything but the streams that chain as length-prefixed units
of which one is not a single byte. -/
theorem avccToAnnexB_eq_self_iff (data : List UInt8) :
    avccToAnnexB data = data ↔ ¬ ReadsAsAvcc data := by
  constructor
  · rintro h ⟨us, hus, rfl, u, hu, hne⟩
    rw [avccToAnnexB_lengthPrefixed hus, annexB_eq_lengthPrefixed_iff hus] at h
    exact hne (h u hu)
  · intro h
    by_cases hchain : ∃ us : List (List UInt8), (∀ u ∈ us, IsPrefixable u) ∧
        data = lengthPrefixed us
    · obtain ⟨us, hus, rfl⟩ := hchain
      rw [avccToAnnexB_lengthPrefixed hus, annexB_eq_lengthPrefixed_iff hus]
      intro u hu
      by_contra hne
      exact h ⟨us, hus, rfl, u, hu, hne⟩
    · exact avccToAnnexB_of_not_lengthPrefixed fun us hus heq => hchain ⟨us, hus, heq⟩

/-! ### Which Annex B streams pass -/

/-- **An Annex B stream passes unchanged exactly when it does not also read as AVCC.** -/
theorem annexB_passes_through_iff :
    ∀ data : List UInt8, IsAnnexB data → (avccToAnnexB data = data ↔ ¬ ReadsAsAvcc data) :=
  fun data _ => avccToAnnexB_eq_self_iff data

/-- A short slice behind a four-byte start code passes: as AVCC it would be one byte and a rest. -/
theorem annexB_passes_through_short :
    avccToAnnexB [0, 0, 0, 1, 0x65, 0x88] = [0, 0, 0, 1, 0x65, 0x88] := by
  refine (annexB_passes_through_iff _ ?_).2 ?_
  · refine ⟨[([0, 0, 0, 1], [0x65, 0x88])], List.cons_ne_nil _ _, ?_, rfl⟩
    intro part hpart
    rw [List.mem_singleton.1 hpart]
    exact ⟨.inr rfl, List.cons_ne_nil _ _, by decide⟩
  · rintro ⟨us, hus, hdata, -⟩
    -- the loop stops one byte short of the end
    have hloop := prefixLoop_lengthPrefixed hus []
    rw [← hdata] at hloop
    simp [prefixLoop, ofBe] at hloop

/-- The bytes behind the first one of a slice. -/
def sliceTail : List UInt8 := List.replicate 357 0x80

theorem length_sliceTail : sliceTail.length = 357 := List.length_replicate

/-- One slice behind a three-byte start code.  With the first byte of the slice the code reads as a
length of 357, which is the number of bytes behind it. -/
def chainingSlice : List UInt8 := [0, 0, 1] ++ 0x65 :: sliceTail

theorem isAnnexB_chainingSlice : IsAnnexB chainingSlice := by
  refine ⟨[([0, 0, 1], 0x65 :: sliceTail)], List.cons_ne_nil _ _, ?_, by simp [chainingSlice]⟩
  intro part hpart
  rw [List.mem_singleton.1 hpart]
  refine ⟨.inl rfl, List.cons_ne_nil _ _, fun h => ?_⟩
  -- the slice holds no zero at all
  have hzero : (0 : UInt8) ∈ 0x65 :: sliceTail := h.subset (by decide)
  rcases List.mem_cons.1 hzero with h0 | h0
  · exact absurd h0 (by decide)
  · exact absurd (List.eq_of_mem_replicate h0) (by decide)

theorem chainingSlice_eq : chainingSlice = lengthPrefixed [sliceTail] := by
  rw [lengthPrefixed_cons, length_sliceTail]
  simp [chainingSlice, toBe]

theorem isPrefixable_sliceTail : IsPrefixable sliceTail :=
  ⟨List.ne_nil_of_length_pos (by rw [length_sliceTail]; decide), by rw [length_sliceTail]; decide⟩

/-- **An Annex B stream is corrupted**: the start code and the first byte of the slice are replaced
by a longer start code, and the slice has lost its type. -/
theorem annexB_corrupted :
    IsAnnexB chainingSlice ∧ avccToAnnexB chainingSlice = [0, 0, 0, 1] ++ sliceTail ∧
      ¬ ∀ data : List UInt8, IsAnnexB data → avccToAnnexB data = data := by
  have hout : avccToAnnexB chainingSlice = [0, 0, 0, 1] ++ sliceTail := by
    rw [chainingSlice_eq, avccToAnnexB_lengthPrefixed]
    · simp [START_CODE]
    · exact List.forall_mem_singleton.2 isPrefixable_sliceTail
  refine ⟨isAnnexB_chainingSlice, hout, fun h => ?_⟩
  have hsame := h chainingSlice isAnnexB_chainingSlice
  rw [hout] at hsame
  exact absurd (List.cons.inj (List.cons.inj (List.cons.inj hsame).2).2).1 (by decide)

end Rda
