/-
**NAL unit streams, in their two framings.**

A coded picture is a sequence of NAL units.  In the Annex B framing each unit follows a start code,
`00 00 01` or `00 00 00 01`; in the AVCC framing each follows its length in four bytes.  The wire
carries Annex B.  The encoder's hardware hands out AVCC and the decoder's hardware takes AVCC in, so
each side converts: `Rda.avccToAnnexB` is the encoder's converter, `Rda.splitAnnexB` and
`Rda.annexBToAvcc` are the decoder's.

The scan for start codes is the delicate part.  A unit may end in zeros, and the start code behind
it begins with zeros, so a window of the scan can straddle the two; the scan then has to pass over
every window that begins in the unit and still meet the code at its first byte
(`Rda.startCodes_unit`).

Main definitions:

* `Rda.startCodes`, `Rda.nalBodies`, `Rda.splitAnnexB` — the scan, and the units between the codes;
* `Rda.avccToAnnexB`, `Rda.annexBToAvcc` — the two converters;
* `Rda.annexB`, `Rda.lengthPrefixed` — a list of units, written in either framing;
* `Rda.IsNalUnit` — a unit both framings can carry.

Main results:

* `Rda.splitAnnexB_annexB` — **splitting returns exactly the units that were joined**;
* `Rda.prefixLoop_eq_some_nil_iff` — the encoder's loop reaches the end of its input exactly on the
  length-prefixed streams;
* `Rda.nal_stream_round_trip` — both facts, and the round trip through the two converters.
-/

import Rda.Wire

set_option relaxedAutoImplicit false
set_option autoImplicit false

namespace Rda

open Wire (toBe ofBe ofBe_toBe toBe_ofBe ofBe_lt)

/-! ### Finding start codes -/

/-- The scan for start codes from position `i` on: the position and the length of each code in
what is left of the stream. -/
def startCodes : ℕ → List UInt8 → List (ℕ × ℕ)
  | i, a :: b :: c :: rest =>
      if a = 0 ∧ b = 0 ∧ c = 1 then (i, 3) :: startCodes (i + 3) rest
      else
        match rest with
        | d :: tail =>
            if a = 0 ∧ b = 0 ∧ c = 0 ∧ d = 1 then (i, 4) :: startCodes (i + 4) tail
            else startCodes (i + 1) (b :: c :: d :: tail)
        | [] => startCodes (i + 1) [b, c]
  -- fewer than three bytes hold no code
  | _, _ => []

/-- The units behind a list of start codes.  A unit ends where the next code starts, the last one
at the end of the stream; an empty unit is left out. -/
def nalBodies (data : List UInt8) : List (ℕ × ℕ) → List (List UInt8)
  | [] => []
  | (offset, codeLen) :: starts =>
      let body := offset + codeLen
      let stop := (starts.head?.map Prod.fst).getD data.length
      if body < stop then (data.take stop).drop body :: nalBodies data starts
      else nalBodies data starts

/-- Splits an Annex B bitstream into NAL units, without the start codes. -/
def splitAnnexB (data : List UInt8) : List (List UInt8) := nalBodies data (startCodes 0 data)

/-! ### The two converters -/

/-- H.264 NAL type for a sequence parameter set. -/
def NAL_SPS : UInt8 := 7

/-- H.264 NAL type for a picture parameter set. -/
def NAL_PPS : UInt8 := 8

/-- The H.264 NAL unit type of a unit body. -/
def nalType (unit : List UInt8) : Option UInt8 := unit.head?.map (· &&& 0x1F)

/-- Whether a unit is a parameter set. -/
def isParameterSet (unit : List UInt8) : Bool :=
  nalType unit == some NAL_SPS || nalType unit == some NAL_PPS

/-- Rewrites Annex B start codes as AVCC 4-byte length prefixes, dropping parameter sets. -/
def annexBToAvcc (data : List UInt8) : List UInt8 :=
  (splitAnnexB data).flatMap fun unit =>
    if isParameterSet unit then [] else toBe 4 unit.length ++ unit

/-- The 4-byte start code. -/
def START_CODE : List UInt8 := [0, 0, 0, 1]

/-- The loop over the length prefixes, from the output so far and the bytes not yet read to the
same pair at its end.  `none` is the early return: a length of zero, or one that overruns. -/
def prefixLoop (out rest : List UInt8) : Option (List UInt8 × List UInt8) :=
  if rest.length < 4 then some (out, rest)
  else
    let len := ofBe (rest.take 4)
    if len = 0 ∨ rest.length < 4 + len then none
    else prefixLoop (out ++ START_CODE ++ (rest.drop 4).take len) (rest.drop (4 + len))
termination_by rest.length
decreasing_by
  simp only [List.length_drop]
  omega

/-- Rewrites 4-byte length prefixes as Annex B start codes.  Returns the input unchanged if it does
not parse as AVCC. -/
def avccToAnnexB (avcc : List UInt8) : List UInt8 :=
  match prefixLoop [] avcc with
  | none => avcc
  | some (out, rest) => if rest = [] ∧ out ≠ [] then out else avcc

/-! ### Units, and the streams they make -/

/-- The units joined in the Annex B framing. -/
def annexB (units : List (List UInt8)) : List UInt8 := units.flatMap fun u => START_CODE ++ u

/-- The units joined in the AVCC framing. -/
def lengthPrefixed (units : List (List UInt8)) : List UInt8 :=
  units.flatMap fun u => toBe 4 u.length ++ u

/-- A unit the length prefix can describe: not empty, and shorter than 2^32 bytes. -/
def IsPrefixable (u : List UInt8) : Prop := u ≠ [] ∧ u.length < 2 ^ 32

/-- A unit both framings can carry: it also holds no start code. -/
structure IsNalUnit (u : List UInt8) : Prop where
  prefixable : IsPrefixable u
  noStartCode : ¬ [0, 0, 1] <:+: u

@[simp] theorem annexB_nil : annexB [] = [] := rfl

@[simp] theorem annexB_cons (u : List UInt8) (us : List (List UInt8)) :
    annexB (u :: us) = START_CODE ++ (u ++ annexB us) := by
  simp [annexB]

@[simp] theorem lengthPrefixed_nil : lengthPrefixed [] = [] := rfl

@[simp] theorem lengthPrefixed_cons (u : List UInt8) (us : List (List UInt8)) :
    lengthPrefixed (u :: us) = toBe 4 u.length ++ (u ++ lengthPrefixed us) := by
  simp [lengthPrefixed]

/-! ### Scanning over a unit -/

theorem startCodes_code (i : ℕ) (rest : List UInt8) :
    startCodes i (START_CODE ++ rest) = (i, 4) :: startCodes (i + 4) rest := by
  simp [START_CODE, startCodes]

/-- Where no code begins the scan moves on by one byte. -/
theorem startCodes_skip (i : ℕ) {a : UInt8} {rest : List UInt8} (h3 : ¬ [0, 0, 1] <+: a :: rest)
    (h4 : ¬ [0, 0, 0, 1] <+: a :: rest) : startCodes i (a :: rest) = startCodes (i + 1) rest := by
  rcases rest with _ | ⟨b, _ | ⟨c, _ | ⟨d, tail⟩⟩⟩
  · rfl
  · rfl
  · have hne : ¬ (a = 0 ∧ b = 0 ∧ c = 1) := by
      rintro ⟨rfl, rfl, rfl⟩
      exact h3 (List.prefix_refl _)
    simp only [startCodes, hne, if_false]
  · have hne : ¬ (a = 0 ∧ b = 0 ∧ c = 1) := by
      rintro ⟨rfl, rfl, rfl⟩
      exact h3 ⟨_, rfl⟩
    have hne' : ¬ (a = 0 ∧ b = 0 ∧ c = 0 ∧ d = 1) := by
      rintro ⟨rfl, rfl, rfl, rfl⟩
      exact h4 ⟨_, rfl⟩
    simp only [startCodes, hne, hne', if_false]

/-- What may stand behind a unit: nothing, or a start code. -/
def EndsUnit (tail : List UInt8) : Prop := tail = [] ∨ START_CODE <+: tail

/-- The first three bytes behind a unit are zeros, as far as there are any. -/
theorem EndsUnit.zero {tail : List UInt8} (h : EndsUnit tail) {j : ℕ} (hj : j < 3) {b : UInt8}
    (hb : tail[j]? = some b) : b = 0 := by
  rcases h with rfl | ⟨t, rfl⟩
  · cases hb
  · have hlt : j < START_CODE.length := Nat.lt_trans hj (by decide)
    rw [List.getElem?_append_left hlt] at hb
    rcases j with _ | _ | _ | j
    · exact (Option.some.inj hb).symm
    · exact (Option.some.inj hb).symm
    · exact (Option.some.inj hb).symm
    · omega

/-- A window of at most four bytes that begins in a unit and ends in a one lies in the unit: behind
the unit it would end in a zero. -/
theorem window_in_unit {w u tail : List UInt8} {n : ℕ} (hn : n < 4) (hw : w.length = n + 1)
    (hlast : w[n]? = some 1) (hne : u ≠ []) (htail : EndsUnit tail) (h : w <+: u ++ tail) :
    w <+: u := by
  have hpos := List.length_pos_of_ne_nil hne
  rcases Nat.lt_or_ge n u.length with hlt | hge
  · exact List.prefix_of_prefix_length_le h (List.prefix_append _ _) (by omega)
  · exfalso
    have hat : (u ++ tail)[n]? = some 1 := by
      obtain ⟨t, ht⟩ := h
      rw [← ht, List.getElem?_append_left (by omega), hlast]
    rw [List.getElem?_append_right hge] at hat
    exact absurd (htail.zero (by omega) hat) (by decide)

/-- The scan passes over a unit and stops at the code behind it. -/
theorem startCodes_unit (i : ℕ) {u tail : List UInt8} (hu : ¬ [0, 0, 1] <:+: u)
    (htail : EndsUnit tail) :
    startCodes i (u ++ tail) = startCodes (i + u.length) tail := by
  induction u generalizing i with
  | nil => rfl
  | cons a u ih =>
      have h3 : ¬ [0, 0, 1] <+: a :: u ++ tail := fun h =>
        hu (window_in_unit (n := 2) (by omega) rfl rfl (List.cons_ne_nil a u) htail h).isInfix
      have h4 : ¬ [0, 0, 0, 1] <+: a :: u ++ tail := by
        intro h
        obtain ⟨t, ht⟩ :=
          window_in_unit (n := 3) (by omega) rfl rfl (List.cons_ne_nil a u) htail h
        exact hu ⟨[0], t, ht⟩
      have htl : ¬ [0, 0, 1] <:+: u := fun h => hu (h.trans (List.suffix_cons a u).isInfix)
      rw [List.cons_append] at h3 h4 ⊢
      rw [startCodes_skip i h3 h4, ih (i + 1) htl, List.length_cons, Nat.add_right_comm,
        Nat.add_assoc]

theorem endsUnit_annexB (us : List (List UInt8)) : EndsUnit (annexB us) := by
  cases us with
  | nil => exact .inl rfl
  | cons u us => exact .inr ⟨_, (annexB_cons u us).symm⟩

/-- The units found behind the codes are the ones that were joined, wherever in a stream the codes
stand. -/
theorem nalBodies_annexB {us : List (List UInt8)} (hus : ∀ u ∈ us, IsNalUnit u)
    (front : List UInt8) :
    nalBodies (front ++ annexB us) (startCodes front.length (annexB us)) = us := by
  induction us generalizing front with
  | nil => rfl
  | cons u us ih =>
      have hu : IsNalUnit u := hus u (List.mem_cons_self ..)
      have hpos := List.length_pos_of_ne_nil hu.prefixable.1
      have hdata : front ++ annexB (u :: us) = front ++ START_CODE ++ u ++ annexB us := by
        simp
      have hlen : (front ++ START_CODE ++ u).length = front.length + 4 + u.length := by
        simp only [START_CODE, List.length_append, List.length_cons, List.length_nil]
      have hstop : ((startCodes (front.length + 4 + u.length) (annexB us)).head?.map
          Prod.fst).getD (front ++ annexB (u :: us)).length = front.length + 4 + u.length := by
        cases us with
        | nil => rw [hdata, annexB_nil, List.append_nil, hlen]; rfl
        | cons v us => rw [annexB_cons v, startCodes_code]; rfl
      have hcut : ((front ++ annexB (u :: us)).take (front.length + 4 + u.length)).drop
          (front.length + 4) = u := by
        rw [hdata, List.take_left' hlen]
        exact List.drop_left' (by simp [START_CODE])
      have hrest := ih (fun v hv => hus v (List.mem_cons_of_mem _ hv)) (front ++ START_CODE ++ u)
      rw [← hdata, hlen] at hrest
      have hcodes : startCodes front.length (annexB (u :: us))
          = (front.length, 4) :: startCodes (front.length + 4 + u.length) (annexB us) := by
        rw [annexB_cons, startCodes_code,
          startCodes_unit _ hu.noStartCode (endsUnit_annexB us)]
      simp only [hcodes, nalBodies, hstop, hcut, hrest]
      rw [if_pos (by omega)]

/-- **Splitting returns exactly the units that were joined.** -/
theorem splitAnnexB_annexB {us : List (List UInt8)} (hus : ∀ u ∈ us, IsNalUnit u) :
    splitAnnexB (annexB us) = us :=
  nalBodies_annexB hus []

/-! ### Rewriting length prefixes -/

/-- A unit behind its length is rewritten, and the loop goes on behind it. -/
theorem prefixLoop_unit (out : List UInt8) {u : List UInt8} (hu : IsPrefixable u)
    (rest : List UInt8) :
    prefixLoop out (toBe 4 u.length ++ (u ++ rest)) = prefixLoop (out ++ START_CODE ++ u) rest := by
  have hpos := List.length_pos_of_ne_nil hu.1
  have hbound : u.length < 2 ^ 32 := hu.2
  have htake : (toBe 4 u.length ++ (u ++ rest)).take 4 = toBe 4 u.length :=
    List.take_left' (Wire.toBe_length ..)
  have hlen : ofBe (toBe 4 u.length) = u.length := by
    rw [ofBe_toBe]
    exact Nat.mod_eq_of_lt (by omega)
  have hdrop : (toBe 4 u.length ++ (u ++ rest)).drop 4 = u ++ rest :=
    List.drop_left' (Wire.toBe_length ..)
  have hsize : (toBe 4 u.length ++ (u ++ rest)).length = 4 + u.length + rest.length := by
    rw [List.length_append, List.length_append, Wire.toBe_length]
    omega
  rw [prefixLoop, if_neg (by omega)]
  simp only [htake, hlen]
  rw [if_neg (by omega), ← List.drop_drop, hdrop, List.take_left' rfl, List.drop_left' rfl]

/-- The loop rewrites a length-prefixed stream to its end. -/
theorem prefixLoop_lengthPrefixed {us : List (List UInt8)} (hus : ∀ u ∈ us, IsPrefixable u)
    (out : List UInt8) : prefixLoop out (lengthPrefixed us) = some (out ++ annexB us, []) := by
  induction us generalizing out with
  | nil => rw [lengthPrefixed_nil, prefixLoop]; simp
  | cons u us ih =>
      rw [lengthPrefixed_cons, prefixLoop_unit out (hus u (List.mem_cons_self ..)),
        ih fun v hv => hus v (List.mem_cons_of_mem _ hv)]
      simp

/-- **The loop reaches the end of its input exactly on the length-prefixed streams.** -/
theorem prefixLoop_eq_some_nil_iff {out rest out' : List UInt8} :
    prefixLoop out rest = some (out', []) ↔
      ∃ us : List (List UInt8), (∀ u ∈ us, IsPrefixable u) ∧ rest = lengthPrefixed us ∧
        out' = out ++ annexB us := by
  constructor
  · intro h
    fun_induction prefixLoop out rest with
    | case1 out rest hshort =>
        obtain ⟨rfl, rfl⟩ := Prod.mk.inj (Option.some.inj h)
        exact ⟨[], by simp⟩
    | case2 out rest hlong len hbad => cases h
    | case3 out rest hlong len hgood ih =>
        obtain ⟨us, hus, hrest, hout⟩ := ih h
        obtain ⟨hpos, hfits⟩ := not_or.1 hgood
        have hfour : (rest.take 4).length = 4 := by rw [List.length_take]; omega
        have hlen : ((rest.drop 4).take len).length = len := by
          rw [List.length_take, List.length_drop]; omega
        have hword : toBe 4 len = rest.take 4 := by
          have h := toBe_ofBe (rest.take 4)
          rwa [hfour] at h
        have hlt : len < 256 ^ 4 := by
          have h := ofBe_lt (rest.take 4)
          rwa [hfour] at h
        refine ⟨(rest.drop 4).take len :: us, ?_, ?_, ?_⟩
        · rw [List.forall_mem_cons]
          refine ⟨⟨List.ne_nil_of_length_pos (by omega), by omega⟩, hus⟩
        · rw [lengthPrefixed_cons, hlen, hword, ← hrest, ← List.drop_drop, List.take_append_drop,
            List.take_append_drop]
        · rw [hout, annexB_cons]
          simp only [List.append_assoc]
  · rintro ⟨us, hus, rfl, rfl⟩
    exact prefixLoop_lengthPrefixed hus out

/-- A length-prefixed stream comes out with start codes. -/
theorem avccToAnnexB_lengthPrefixed {us : List (List UInt8)} (hus : ∀ u ∈ us, IsPrefixable u) :
    avccToAnnexB (lengthPrefixed us) = annexB us := by
  rw [avccToAnnexB, prefixLoop_lengthPrefixed hus, List.nil_append]
  cases us with
  | nil => rfl
  | cons u us => simp [START_CODE]

/-- A stream that is not length-prefixed comes out as it went in. -/
theorem avccToAnnexB_of_not_lengthPrefixed {avcc : List UInt8}
    (h : ∀ us : List (List UInt8), (∀ u ∈ us, IsPrefixable u) → avcc ≠ lengthPrefixed us) :
    avccToAnnexB avcc = avcc := by
  unfold avccToAnnexB
  split
  · rfl
  · next out rest hloop =>
      rw [if_neg]
      rintro ⟨rfl, -⟩
      obtain ⟨us, hus, heq, -⟩ := prefixLoop_eq_some_nil_iff.1 hloop
      exact h us hus heq

/-! ### The round trip -/

theorem flatMap_filter_parameterSets (us : List (List UInt8)) :
    (us.flatMap fun u => if isParameterSet u then [] else toBe 4 u.length ++ u)
      = lengthPrefixed (us.filter fun u => !isParameterSet u) := by
  induction us with
  | nil => rfl
  | cons u us ih =>
      rw [List.flatMap_cons, ih, List.filter_cons]
      cases isParameterSet u <;> simp

/-- The decoder's converter keeps every unit but the parameter sets. -/
theorem annexBToAvcc_annexB {us : List (List UInt8)} (hus : ∀ u ∈ us, IsNalUnit u) :
    annexBToAvcc (annexB us) = lengthPrefixed (us.filter fun u => !isParameterSet u) := by
  rw [annexBToAvcc, splitAnnexB_annexB hus, flatMap_filter_parameterSets]

/-- **The NAL stream round trip.**  Units joined with start codes are split back into the same
units; and a length-prefixed stream, taken to Annex B by the encoder and back by the decoder, is
the stream of its units that are no parameter sets, in order. -/
theorem nal_stream_round_trip (us : List (List UInt8)) (hus : ∀ u ∈ us, IsNalUnit u) :
    splitAnnexB (us.flatMap fun u => [0, 0, 0, 1] ++ u) = us ∧
      annexBToAvcc (avccToAnnexB (us.flatMap fun u => toBe 4 u.length ++ u))
        = (us.filter fun u => nalType u ≠ some NAL_SPS ∧ nalType u ≠ some NAL_PPS).flatMap
            fun u => toBe 4 u.length ++ u := by
  refine ⟨splitAnnexB_annexB hus, ?_⟩
  have htoAnnexB := avccToAnnexB_lengthPrefixed fun u hu => (hus u hu).prefixable
  have hfilter : (us.filter fun u => nalType u ≠ some NAL_SPS ∧ nalType u ≠ some NAL_PPS)
      = us.filter fun u => !isParameterSet u :=
    List.filter_congr fun u _ => by simp [isParameterSet, Bool.beq_eq_decide_eq]
  rw [hfilter]
  calc annexBToAvcc (avccToAnnexB (lengthPrefixed us))
      = annexBToAvcc (annexB us) := by rw [htoAnnexB]
    _ = lengthPrefixed (us.filter fun u => !isParameterSet u) := annexBToAvcc_annexB hus

/-- Parameter sets, a slice that ends in zeros, and a one-byte unit. -/
theorem nal_stream_round_trip_mixed :
    splitAnnexB ([[0x67, 0xAA], [0x65, 0, 0, 0], [0x68]].flatMap fun u => [0, 0, 0, 1] ++ u)
        = [[0x67, 0xAA], [0x65, 0, 0, 0], [0x68]] ∧
      annexBToAvcc (avccToAnnexB
          ([[0x67, 0xAA], [0x65, 0, 0, 0], [0x68]].flatMap fun u => toBe 4 u.length ++ u))
        = ([[0x67, 0xAA], [0x65, 0, 0, 0], [0x68]].filter
            fun u => nalType u ≠ some NAL_SPS ∧ nalType u ≠ some NAL_PPS).flatMap
              fun u => toBe 4 u.length ++ u := by
  refine nal_stream_round_trip [[0x67, 0xAA], [0x65, 0, 0, 0], [0x68]] fun u hu => ?_
  rcases List.mem_cons.1 hu with rfl | hu
  · exact ⟨⟨by decide, by decide⟩, by decide⟩
  rcases List.mem_cons.1 hu with rfl | hu
  · exact ⟨⟨by decide, by decide⟩, by decide⟩
  · rw [List.mem_singleton.1 hu]
    exact ⟨⟨by decide, by decide⟩, by decide⟩

end Rda
