/-
**Fingerprints as text.**

A certificate's fingerprint travels as thirty-two groups of two hexadecimal digits with colons
between them, in session descriptions with the name of the hash in front.  Two parsers read it, one
for the session descriptions and one for what the transport reports; behind the name of the hash
they are the same loop.

The loop checks that a group has two bytes and gives it to the standard parser of integers.  That
parser takes a sign: a plus and one digit are two bytes as well, and are read as a byte.

Main definitions:

* `Rda.Fingerprint.parseSdp`, `Rda.Fingerprint.toSdp`, `Rda.parseHexFingerprint` — the parsers and
  the printer;
* `Rda.Spells` — the grammar: a text spells thirty-two bytes;
* `Rda.HasPlus` — a text that would be in the grammar, were a plus a digit.

Main results:

* `Rda.accepts_iff` — which groups are accepted;
* `Rda.parseColonHex_spells_iff` — **a text is parsed as the grammar has it unless it has a plus**;
* `Rda.Fingerprint.parseSdp_toSdp` — what is printed is read back;
* `Rda.fingerprint_text_iff` — the two parsers and the printer.
-/

import Mathlib.Algebra.Ring.Nat
import Mathlib.Data.List.Forall2
import Mathlib.Data.List.TakeWhile
import Rda.Binding

set_option relaxedAutoImplicit false
set_option autoImplicit false

namespace Rda

/-! ### Integers in base sixteen -/

/-- The value of a hexadecimal digit of either case. -/
def hexValue (c : Char) : Option ℕ :=
  let n := c.toNat
  if 48 ≤ n ∧ n ≤ 57 then some (n - 48)
  else if 97 ≤ n ∧ n ≤ 102 then some (n - 87)
  else if 65 ≤ n ∧ n ≤ 70 then some (n - 55)
  else none

/-- One more digit, unless the number gets too large for a byte. -/
def pushDigit (acc : ℕ) (c : Char) : Option ℕ :=
  match hexValue c with
  | some d => if acc * 16 + d < 256 then some (acc * 16 + d) else none
  | none => none

/-- The digits of a byte. -/
def fromDigits (digits : List Char) : Option UInt8 :=
  (digits.foldlM pushDigit 0).map UInt8.ofNat

/-- The standard parser of bytes in base sixteen: an optional plus, and at least one digit. -/
def u8FromStrRadix16 : List Char → Option UInt8
  | [] => none
  | ['+'] => none
  | '+' :: digits => fromDigits digits
  | digits => fromDigits digits

/-- The length of a text in bytes. -/
def utf8Len (cs : List Char) : ℕ := (cs.map Char.utf8Size).sum

/-! ### The parsers and the printer -/

/-- The loop over the groups. -/
def parseParts : List (List Char) → List UInt8 → Option (List UInt8)
  | [], out => some out
  | part :: parts, out =>
      if 32 ≤ out.length ∨ utf8Len part ≠ 2 then none
      else
        match u8FromStrRadix16 part with
        | some b => parseParts parts (out ++ [b])
        | none => none

/-- Thirty-two groups with colons between them. -/
def parseColonHex (text : List Char) : Option (Bytes 32) :=
  (parseParts (text.splitOn ':') []).bind (Bytes.tryFrom 32)

/-- Parses a colon-separated hexadecimal fingerprint, as the transport reports it. -/
def parseHexFingerprint (value : String) : Option (Bytes 32) := parseColonHex value.toList

/-- White space. -/
def isWhiteSpace (c : Char) : Bool :=
  let n := c.toNat
  decide (9 ≤ n ∧ n ≤ 13 ∨ n = 0x20 ∨ n = 0x85 ∨ n = 0xa0 ∨ n = 0x1680 ∨ 0x2000 ≤ n ∧ n ≤ 0x200a ∨
    n = 0x2028 ∨ n = 0x2029 ∨ n = 0x202f ∨ n = 0x205f ∨ n = 0x3000)

/-- A text without the white space around it. -/
def trim (cs : List Char) : List Char :=
  ((cs.dropWhile isWhiteSpace).reverse.dropWhile isWhiteSpace).reverse

/-- The text behind the name of the hash, if that is in front. -/
def sdpBody (s : String) : List Char :=
  let trimmed := trim s.toList
  ("sha-256 ".toList.isPrefixOf? trimmed).getD trimmed

/-- Parses the form used in session descriptions. -/
def Fingerprint.parseSdp (s : String) : Option Fingerprint :=
  (parseColonHex (sdpBody s)).map Fingerprint.mk

/-- An upper-case hexadecimal digit. -/
def upperHexDigit (n : ℕ) : Char := Char.ofNat (if n < 10 then 48 + n else 55 + n)

/-- Two hexadecimal digits. -/
def hexByte (b : UInt8) : List Char :=
  [upperHexDigit (b.toNat / 16), upperHexDigit (b.toNat % 16)]

/-- Renders the form used in session descriptions. -/
def Fingerprint.toSdp (f : Fingerprint) : String :=
  String.ofList ([':'].intercalate (f.bytes.toList.map hexByte))

/-! ### The grammar -/

/-- Two hexadecimal digits and their value. -/
def HexGroup (group : List Char) (b : UInt8) : Prop :=
  ∃ c d hi lo, group = [c, d] ∧ hexValue c = some hi ∧ hexValue d = some lo ∧
    b.toNat = hi * 16 + lo

/-- A plus and a hexadecimal digit, and its value. -/
def PlusGroup (group : List Char) (b : UInt8) : Prop :=
  ∃ c, group = ['+', c] ∧ hexValue c = some b.toNat

/-- A text spells thirty-two bytes: it is a group of two hexadecimal digits for each of them, with
single colons between the groups. -/
def Spells (text : List Char) (bytes : Bytes 32) : Prop :=
  ∃ groups, text = [':'].intercalate groups ∧ List.Forall₂ HexGroup groups bytes.toList

/-- A text of thirty-two groups, of two hexadecimal digits or a plus and a digit, with a plus. -/
def HasPlus (text : List Char) : Prop :=
  ∃ groups, groups.length = 32 ∧ text = [':'].intercalate groups ∧
    (∀ group ∈ groups, (∃ b, HexGroup group b) ∨ ∃ b, PlusGroup group b) ∧
      ∃ group ∈ groups, ∃ b, PlusGroup group b

section Digits

variable {c d : Char} {n m : ℕ}

/-- A hexadecimal digit is one of three kinds of characters. -/
theorem hexValue_eq_some (h : hexValue c = some n) :
    n < 16 ∧ (48 ≤ c.toNat ∧ c.toNat ≤ 57 ∨ 97 ≤ c.toNat ∧ c.toNat ≤ 102 ∨
      65 ≤ c.toNat ∧ c.toNat ≤ 70) := by
  simp only [hexValue] at h
  split_ifs at h with h₁ h₂ h₃
  · have := Option.some.inj h
    omega
  · have := Option.some.inj h
    omega
  · have := Option.some.inj h
    omega

/-- A hexadecimal digit is no other character. -/
theorem ne_of_hexValue (h : hexValue c = some n) (hd : hexValue d = none) : c ≠ d := by
  rintro rfl
  rw [h] at hd
  cases hd

theorem utf8Size_of_hexValue (h : hexValue c = some n) : c.utf8Size = 1 := by
  have hrange := (hexValue_eq_some h).2
  rw [Char.utf8Size_eq_one_iff]
  show c.val ≤ 127
  rw [UInt32.le_iff_toNat_le]
  show c.toNat ≤ 127
  omega

theorem hexValue_upperHexDigit (h : n < 16) : hexValue (upperHexDigit n) = some n := by
  have hall : ∀ k : Fin 16, hexValue (upperHexDigit k.val) = some k.val := by decide
  exact hall ⟨n, h⟩

/-- The value of one digit. -/
theorem fromDigits_one : fromDigits [c] = (hexValue c).map UInt8.ofNat := by
  cases h : hexValue c with
  | none => simp [fromDigits, pushDigit, h]
  | some n =>
      have := (hexValue_eq_some h).1
      have hlt : n < 256 := by omega
      simp [fromDigits, pushDigit, h, hlt]

/-- The value of two digits. -/
theorem fromDigits_two {b : UInt8} :
    fromDigits [c, d] = some b ↔ HexGroup [c, d] b := by
  cases hc : hexValue c with
  | none =>
      refine iff_of_false (by simp [fromDigits, pushDigit, hc]) ?_
      rintro ⟨c', d', hi, lo, hgroup, hhi, -, -⟩
      obtain ⟨rfl, -⟩ := List.cons.inj hgroup
      rw [hc] at hhi
      cases hhi
  | some hi =>
      have hhi := (hexValue_eq_some hc).1
      have hlt : hi < 256 := by omega
      cases hd : hexValue d with
      | none =>
          refine iff_of_false (by simp [fromDigits, pushDigit, hc, hd, hlt]) ?_
          rintro ⟨c', d', hi', lo, hgroup, -, hlo, -⟩
          obtain ⟨rfl, hrest⟩ := List.cons.inj hgroup
          obtain ⟨rfl, -⟩ := List.cons.inj hrest
          rw [hd] at hlo
          cases hlo
      | some lo =>
          have hlo := (hexValue_eq_some hd).1
          have hsum : hi * 16 + lo < 256 := by omega
          have hval : fromDigits [c, d] = some (UInt8.ofNat (hi * 16 + lo)) := by
            simp [fromDigits, pushDigit, hc, hd, hlt, hsum]
          have hnat : (UInt8.ofNat (hi * 16 + lo)).toNat = hi * 16 + lo := by
            rw [UInt8.toNat_ofNat', Nat.mod_eq_of_lt hsum]
          rw [hval, Option.some.injEq]
          constructor
          · rintro rfl
            exact ⟨c, d, hi, lo, rfl, hc, hd, hnat⟩
          · rintro ⟨c', d', hi', lo', hgroup, hhi', hlo', hb⟩
            obtain ⟨rfl, hrest⟩ := List.cons.inj hgroup
            obtain ⟨rfl, -⟩ := List.cons.inj hrest
            rw [hc] at hhi'
            rw [hd] at hlo'
            obtain rfl := Option.some.inj hhi'
            obtain rfl := Option.some.inj hlo'
            exact UInt8.toNat_inj.1 (hnat.trans hb.symm)

end Digits

/-! ### What is accepted -/

/-- A group passes both checks of the loop. -/
def Accepts (part : List Char) (b : UInt8) : Prop :=
  utf8Len part = 2 ∧ u8FromStrRadix16 part = some b

section Groups

variable {part : List Char} {b : UInt8}

/-- A plus in front of a digit is skipped. -/
theorem u8FromStrRadix16_plus {d : Char} : u8FromStrRadix16 ['+', d] = fromDigits [d] := rfl

/-- Another character in front is a digit. -/
theorem u8FromStrRadix16_digits {c : Char} {cs : List Char} (h : c ≠ '+') :
    u8FromStrRadix16 (c :: cs) = fromDigits (c :: cs) := by
  unfold u8FromStrRadix16
  split
  · rename_i heq
    cases heq
  · rename_i heq
    exact absurd (List.cons.inj heq).1 h
  · rename_i heq
    exact absurd (List.cons.inj heq).1 h
  · rfl

theorem hexValue_of_parse_one {c : Char} (h : u8FromStrRadix16 [c] = some b) :
    ∃ n, hexValue c = some n := by
  by_cases hplus : c = '+'
  · subst hplus
    cases h
  · rw [u8FromStrRadix16_digits hplus, fromDigits_one, Option.map_eq_some_iff] at h
    obtain ⟨n, hn, -⟩ := h
    exact ⟨n, hn⟩

theorem accepts_of_hexGroup (h : HexGroup part b) : Accepts part b := by
  have hgroup := h
  obtain ⟨c, d, hi, lo, rfl, hc, hd, -⟩ := h
  refine ⟨?_, ?_⟩
  · simp [utf8Len, utf8Size_of_hexValue hc, utf8Size_of_hexValue hd]
  · have hplus : c ≠ '+' := ne_of_hexValue hc (by decide)
    rw [u8FromStrRadix16_digits hplus]
    exact fromDigits_two.2 hgroup

theorem accepts_of_plusGroup (h : PlusGroup part b) : Accepts part b := by
  obtain ⟨c, rfl, hc⟩ := h
  refine ⟨?_, ?_⟩
  · have hplus : '+'.utf8Size = 1 := by decide
    simp [utf8Len, hplus, utf8Size_of_hexValue hc]
  · show fromDigits [c] = some b
    rw [fromDigits_one, hc, Option.map_some, UInt8.ofNat_toNat]

/-- **Which groups are accepted**: two hexadecimal digits, and a plus with one. -/
theorem accepts_iff : Accepts part b ↔ HexGroup part b ∨ PlusGroup part b := by
  constructor
  · rintro ⟨hlen, hparse⟩
    match part, hlen, hparse with
    | [], hlen, _ => simp [utf8Len] at hlen
    | [c], hlen, hparse =>
        -- A character of two bytes is no digit.
        exfalso
        obtain ⟨n, hn⟩ := hexValue_of_parse_one hparse
        simp [utf8Len, utf8Size_of_hexValue hn] at hlen
    | [c, d], _, hparse =>
        by_cases hplus : c = '+'
        · subst hplus
          right
          rw [u8FromStrRadix16_plus, fromDigits_one, Option.map_eq_some_iff] at hparse
          obtain ⟨n, hn, rfl⟩ := hparse
          have hlt : n < 256 := by
            have := (hexValue_eq_some hn).1
            omega
          exact ⟨d, rfl, by rw [hn, UInt8.toNat_ofNat', Nat.mod_eq_of_lt hlt]⟩
        · left
          rw [u8FromStrRadix16_digits hplus] at hparse
          exact fromDigits_two.1 hparse
    | c :: d :: e :: rest, hlen, _ =>
        exfalso
        have hc := Char.utf8Size_pos c
        have hd := Char.utf8Size_pos d
        have he := Char.utf8Size_pos e
        simp only [utf8Len, List.map_cons, List.sum_cons] at hlen
        omega
  · rintro (h | h)
    · exact accepts_of_hexGroup h
    · exact accepts_of_plusGroup h

/-- A plus is no digit. -/
theorem not_hexGroup_of_plusGroup {b' : UInt8} (h : PlusGroup part b) : ¬ HexGroup part b' := by
  obtain ⟨c, rfl, -⟩ := h
  rintro ⟨c', d', hi, lo, hgroup, hhi, -, -⟩
  obtain ⟨rfl, -⟩ := List.cons.inj hgroup
  exact ne_of_hexValue hhi (by decide) rfl

/-- A group has no colon. -/
theorem colon_notMem_of_hexGroup (h : HexGroup part b) : ':' ∉ part := by
  obtain ⟨c, d, hi, lo, rfl, hc, hd, -⟩ := h
  have hc' : ':' ≠ c := (ne_of_hexValue hc (by decide)).symm
  have hd' : ':' ≠ d := (ne_of_hexValue hd (by decide)).symm
  simp [hc', hd']

theorem colon_notMem_of_plusGroup (h : PlusGroup part b) : ':' ∉ part := by
  obtain ⟨c, rfl, hc⟩ := h
  have hc' : ':' ≠ c := (ne_of_hexValue hc (by decide)).symm
  simp [hc']

end Groups

section Parse

variable {text : List Char} {b : Bytes 32}

/-- The loop accepts the groups one by one, and at most thirty-two in all. -/
theorem parseParts_eq_some_iff {parts : List (List Char)} {out bs : List UInt8} :
    parseParts parts out = some bs ↔
      ∃ more, bs = out ++ more ∧ List.Forall₂ Accepts parts more ∧
        (parts = [] ∨ out.length + parts.length ≤ 32) := by
  induction parts generalizing out with
  | nil =>
      rw [parseParts, Option.some.injEq]
      constructor
      · rintro rfl
        exact ⟨[], by simp, .nil, .inl rfl⟩
      · rintro ⟨more, rfl, hmore, -⟩
        cases hmore
        simp
  | cons part parts ih =>
      rw [parseParts]
      split_ifs with hcheck
      · refine iff_of_false (by simp) ?_
        rintro ⟨more, -, hmore, hfit⟩
        obtain ⟨b, bs', hb, -, rfl⟩ := List.forall₂_cons_left_iff.1 hmore
        rcases hcheck with hfull | hlen
        · rcases hfit with hnil | hfit
          · cases hnil
          · rw [List.length_cons] at hfit
            omega
        · exact hlen hb.1
      · obtain ⟨hroom, hlen⟩ := not_or.1 hcheck
        rw [not_not] at hlen
        cases hparse : u8FromStrRadix16 part with
        | none =>
            refine iff_of_false (by simp) ?_
            rintro ⟨more, -, hmore, -⟩
            obtain ⟨b, bs', hb, -, rfl⟩ := List.forall₂_cons_left_iff.1 hmore
            rw [hb.2] at hparse
            cases hparse
        | some b =>
            simp only
            rw [ih]
            constructor
            · rintro ⟨more, rfl, hmore, hfit⟩
              refine ⟨b :: more, by simp, .cons ⟨hlen, hparse⟩ hmore, .inr ?_⟩
              rcases hfit with rfl | hfit
              · rw [List.length_singleton]
                omega
              · rw [List.length_append, List.length_singleton] at hfit
                rw [List.length_cons]
                omega
            · rintro ⟨more, rfl, hmore, hfit⟩
              obtain ⟨b', bs', hb, hrest, rfl⟩ := List.forall₂_cons_left_iff.1 hmore
              obtain rfl : b = b' := Option.some.inj (hparse.symm.trans hb.2)
              refine ⟨bs', by simp, hrest, .inr ?_⟩
              rcases hfit with hnil | hfit
              · cases hnil
              · rw [List.length_append, List.length_singleton]
                rw [List.length_cons] at hfit
                omega

/-- **What the loop accepts**: a text whose groups are accepted one by one. -/
theorem parseColonHex_eq_some_iff :
    parseColonHex text = some b ↔ List.Forall₂ Accepts (text.splitOn ':') b.toList := by
  rw [parseColonHex, Option.bind_eq_some_iff]
  constructor
  · rintro ⟨bs, hbs, hb⟩
    obtain ⟨more, rfl, hmore, -⟩ := parseParts_eq_some_iff.1 hbs
    rw [Bytes.tryFrom_eq_some] at hb
    rwa [← hb]
  · intro h
    refine ⟨b.toList, parseParts_eq_some_iff.2 ⟨b.toList, rfl, h, .inr ?_⟩, Bytes.tryFrom_toList b⟩
    have hlen := h.length_eq
    rw [List.Vector.toList_length] at hlen
    rw [hlen]
    simp

/-- The groups of a text are what stands between its colons. -/
theorem splitOn_intercalate_of_length {groups : List (List Char)}
    (hcolon : ∀ group ∈ groups, ':' ∉ group) (hlen : groups.length = 32) :
    ([':'].intercalate groups).splitOn ':' = groups := by
  refine List.splitOn_intercalate ':' hcolon ?_
  rintro rfl
  cases hlen

/-- The grammar, over what stands between the colons. -/
theorem spells_iff : Spells text b ↔ List.Forall₂ HexGroup (text.splitOn ':') b.toList := by
  constructor
  · rintro ⟨groups, rfl, hgroups⟩
    have hlen : groups.length = 32 := by rw [hgroups.length_eq, List.Vector.toList_length]
    have hcolon : ∀ group ∈ groups, ':' ∉ group := by
      intro group hmem
      obtain ⟨i, hi, rfl⟩ := List.getElem_of_mem hmem
      have hi' : i < b.toList.length := by rwa [← hgroups.length_eq]
      exact colon_notMem_of_hexGroup (hgroups.get hi hi')
    rwa [splitOn_intercalate_of_length hcolon hlen]
  · intro h
    exact ⟨text.splitOn ':', (List.intercalate_splitOn ':').symm, h⟩

/-- The groups of an accepted text are in the grammar, or there is a plus among them. -/
theorem hexGroups_or_plus {groups : List (List Char)} {bs : List UInt8}
    (h : List.Forall₂ Accepts groups bs) :
    List.Forall₂ HexGroup groups bs ∨
      (∀ group ∈ groups, (∃ b, HexGroup group b) ∨ ∃ b, PlusGroup group b) ∧
        ∃ group ∈ groups, ∃ b, PlusGroup group b := by
  induction h with
  | nil => exact .inl .nil
  | @cons part b parts bs hpart hparts ih =>
      rcases accepts_iff.1 hpart with hhex | hplus
      · rcases ih with hall | ⟨hall, group, hmem, hgroup⟩
        · exact .inl (.cons hhex hall)
        · refine .inr ⟨?_, group, List.mem_cons_of_mem _ hmem, hgroup⟩
          rw [List.forall_mem_cons]
          exact ⟨.inl ⟨b, hhex⟩, hall⟩
      · right
        refine ⟨?_, part, List.mem_cons_self, b, hplus⟩
        rw [List.forall_mem_cons]
        refine ⟨.inr ⟨b, hplus⟩, ?_⟩
        rcases ih with hall | ⟨hall, -⟩
        · intro group hmem
          obtain ⟨i, hi, rfl⟩ := List.getElem_of_mem hmem
          have hi' : i < bs.length := by rwa [← hall.length_eq]
          exact .inl ⟨_, hall.get hi hi'⟩
        · exact hall

/-- Groups that are accepted one by one have bytes. -/
theorem exists_accepts {groups : List (List Char)}
    (h : ∀ group ∈ groups, (∃ b, HexGroup group b) ∨ ∃ b, PlusGroup group b) :
    ∃ bs, List.Forall₂ Accepts groups bs := by
  induction groups with
  | nil => exact ⟨[], .nil⟩
  | cons group groups ih =>
      rw [List.forall_mem_cons] at h
      obtain ⟨bs, hbs⟩ := ih h.2
      rcases h.1 with ⟨b, hb⟩ | ⟨b, hb⟩
      · exact ⟨b :: bs, .cons (accepts_of_hexGroup hb) hbs⟩
      · exact ⟨b :: bs, .cons (accepts_of_plusGroup hb) hbs⟩

/-- **A text with a plus is parsed although it spells nothing.** -/
theorem parseColonHex_of_hasPlus (h : HasPlus text) :
    ∃ b, parseColonHex text = some b ∧ ¬ Spells text b := by
  obtain ⟨groups, hlen, rfl, hall, group, hmem, b, hplus⟩ := h
  have hcolon : ∀ group ∈ groups, ':' ∉ group := by
    intro group hmem
    rcases hall group hmem with ⟨b, hb⟩ | ⟨b, hb⟩
    · exact colon_notMem_of_hexGroup hb
    · exact colon_notMem_of_plusGroup hb
  have hsplit := splitOn_intercalate_of_length hcolon hlen
  obtain ⟨bs, hbs⟩ := exists_accepts hall
  obtain ⟨bytes, rfl⟩ : ∃ bytes : Bytes 32, bytes.toList = bs :=
    ⟨⟨bs, by rw [← hbs.length_eq, hlen]⟩, rfl⟩
  refine ⟨bytes, ?_, ?_⟩
  · rw [parseColonHex_eq_some_iff, hsplit]
    exact hbs
  · rw [spells_iff, hsplit]
    intro hhex
    obtain ⟨i, hi, rfl⟩ := List.getElem_of_mem hmem
    exact not_hexGroup_of_plusGroup hplus (hhex.get hi (by rwa [← hhex.length_eq]))

/-- **When a text is parsed as the grammar has it**: unless it has a plus. -/
theorem parseColonHex_spells_iff :
    (∀ b, parseColonHex text = some b ↔ Spells text b) ↔ ¬ HasPlus text := by
  constructor
  · intro h hplus
    obtain ⟨b, hparse, hspells⟩ := parseColonHex_of_hasPlus hplus
    exact hspells ((h b).1 hparse)
  · intro h b
    rw [parseColonHex_eq_some_iff, spells_iff]
    constructor
    · intro hparse
      rcases hexGroups_or_plus hparse with hhex | ⟨hall, hplus⟩
      · exact hhex
      · have hlen : (text.splitOn ':').length = 32 := by
          rw [hparse.length_eq, List.Vector.toList_length]
        exact absurd ⟨_, hlen, (List.intercalate_splitOn ':').symm, hall, hplus⟩ h
    · intro hhex
      exact hhex.imp fun _ _ hgroup => accepts_of_hexGroup hgroup

end Parse

/-! ### What is printed -/

section Print

/-- A byte is printed as the group that spells it. -/
theorem hexGroup_hexByte (b : UInt8) : HexGroup (hexByte b) b := by
  have hlt : b.toNat < 256 := b.toNat_lt
  refine ⟨_, _, b.toNat / 16, b.toNat % 16, rfl, hexValue_upperHexDigit (by omega),
    hexValue_upperHexDigit (by omega), ?_⟩
  omega

/-- What is printed spells the fingerprint. -/
theorem spells_toSdp (f : Fingerprint) : Spells f.toSdp.toList f.bytes := by
  refine ⟨f.bytes.toList.map hexByte, String.toList_ofList, ?_⟩
  rw [List.forall₂_map_left_iff, List.forall₂_same]
  intro b _
  exact hexGroup_hexByte b

/-- The characters of a text with groups of digits are digits and colons. -/
theorem mem_of_spells {text : List Char} {b : Bytes 32} {c : Char} (h : Spells text b)
    (hc : c ∈ text) : c = ':' ∨ ∃ n, hexValue c = some n := by
  obtain ⟨groups, rfl, hgroups⟩ := h
  generalize b.toList = bs at hgroups
  induction hgroups with
  | nil => simp at hc
  | @cons group b groups bs hgroup hrest ih =>
      have hhead : c ∈ group → ∃ n, hexValue c = some n := by
        obtain ⟨d, e, hi, lo, rfl, hd, he, -⟩ := hgroup
        intro hmem
        rw [List.mem_pair] at hmem
        rcases hmem with rfl | rfl
        · exact ⟨hi, hd⟩
        · exact ⟨lo, he⟩
      cases hrest with
      | nil => exact .inr (hhead (by simpa using hc))
      | @cons group' b' groups bs hgroup' hrest =>
          rw [List.intercalate_cons_cons, List.append_assoc, List.mem_append,
            List.singleton_append, List.mem_cons] at hc
          rcases hc with hc | rfl | hc
          · exact .inr (hhead hc)
          · exact .inl rfl
          · exact ih hc

/-- Digits and colons are no white space. -/
theorem isWhiteSpace_of_spells {text : List Char} {b : Bytes 32} (h : Spells text b) :
    ∀ c ∈ text, isWhiteSpace c = false := by
  intro c hc
  rcases mem_of_spells h hc with rfl | ⟨n, hn⟩
  · decide
  · have hrange := (hexValue_eq_some hn).2
    rw [isWhiteSpace, decide_eq_false_iff_not]
    omega

/-- There is nothing to trim where there is no white space. -/
theorem trim_eq_self {cs : List Char} (h : ∀ c ∈ cs, isWhiteSpace c = false) : trim cs = cs := by
  have hdrop : ∀ l : List Char, (∀ c ∈ l, isWhiteSpace c = false) →
      l.dropWhile isWhiteSpace = l := by
    intro l hl
    rw [List.dropWhile_eq_self_iff]
    intro hpos
    rw [hl _ (List.getElem_mem hpos)]
    decide
  rw [trim, hdrop cs h, hdrop, List.reverse_reverse]
  intro c hc
  exact h c (List.mem_reverse.1 hc)

/-- The name of the hash is not in front of a text that spells bytes. -/
theorem sdpBody_of_spells {s : String} {b : Bytes 32} (h : Spells s.toList b) :
    sdpBody s = s.toList := by
  have htrim := trim_eq_self (isWhiteSpace_of_spells h)
  have hname : "sha-256 ".toList.isPrefixOf? s.toList = none := by
    have hchars := fun c => mem_of_spells (c := c) h
    cases hs : s.toList with
    | nil => rfl
    | cons c cs =>
        have hne : 's' ≠ c := by
          rcases hchars c (by rw [hs]; exact List.mem_cons_self) with rfl | ⟨n, hn⟩
          · decide
          · exact (ne_of_hexValue hn (by decide)).symm
        have hlit : "sha-256 ".toList = ['s', 'h', 'a', '-', '2', '5', '6', ' '] := rfl
        rw [hlit, List.isPrefixOf?, if_neg]
        simpa using hne
  rw [sdpBody, htrim, hname, Option.getD_none]

/-- **What is printed is read back.** -/
theorem Fingerprint.parseSdp_toSdp (f : Fingerprint) :
    Fingerprint.parseSdp f.toSdp = some f := by
  have hspells := spells_toSdp f
  have hparse : parseColonHex f.toSdp.toList = some f.bytes := by
    rw [parseColonHex_eq_some_iff]
    exact (spells_iff.1 hspells).imp fun _ _ hgroup => accepts_of_hexGroup hgroup
  rw [Fingerprint.parseSdp, sdpBody_of_spells hspells, hparse, Option.map_some]

end Print

/-! ### The parsers -/

/-- A session description's fingerprint is what the loop makes of the body. -/
theorem Fingerprint.parseSdp_eq_some_iff {s : String} {f : Fingerprint} :
    Fingerprint.parseSdp s = some f ↔ parseColonHex (sdpBody s) = some f.bytes := by
  rw [Fingerprint.parseSdp, Option.map_eq_some_iff]
  constructor
  · rintro ⟨b, hb, rfl⟩
    exact hb
  · intro hb
    exact ⟨f.bytes, hb, rfl⟩

/-- A text of thirty-two groups, the first of which is a plus and a digit. -/
def plusText : String :=
  "+5:00:00:00:00:00:00:00:00:00:00:00:00:00:00:00:00:00:00:00:00:00:00:00:00:00:00:00:00:00:00:00"

/-- **The fingerprint's two parsers and its printer**: a text is parsed by exactly the grammar, and
to the bytes it spells, unless there is a plus in it; and what is printed is read back. -/
theorem fingerprint_text_iff (s v : String) (f : Fingerprint) :
    ((∀ g, Fingerprint.parseSdp s = some g ↔ Spells (sdpBody s) g.bytes) ↔
      ¬ HasPlus (sdpBody s)) ∧
    Fingerprint.parseSdp f.toSdp = some f ∧
    ((∀ b, parseHexFingerprint v = some b ↔ Spells v.toList b) ↔ ¬ HasPlus v.toList) := by
  refine ⟨?_, Fingerprint.parseSdp_toSdp f, parseColonHex_spells_iff⟩
  rw [← parseColonHex_spells_iff]
  constructor
  · intro h b
    rw [← h ⟨b⟩, Fingerprint.parseSdp_eq_some_iff]
  · intro h g
    rw [Fingerprint.parseSdp_eq_some_iff, h]

/-- The text with a plus in it is parsed by both, and spells nothing. -/
theorem fingerprint_text_fails :
    (∃ g, Fingerprint.parseSdp plusText = some g ∧ ¬ Spells (sdpBody plusText) g.bytes) ∧
      ∃ b, parseHexFingerprint plusText = some b ∧ ¬ Spells plusText.toList b := by
  have hplus : HasPlus plusText.toList := by
    refine ⟨['+', '5'] :: List.replicate 31 ['0', '0'], rfl, rfl, ?_, ['+', '5'],
      List.mem_cons_self, 5, '5', rfl, rfl⟩
    rw [List.forall_mem_cons]
    refine ⟨.inr ⟨5, '5', rfl, rfl⟩, ?_⟩
    intro group hmem
    rw [List.eq_of_mem_replicate hmem]
    exact .inl ⟨0, '0', '0', 0, 0, rfl, rfl, rfl, rfl⟩
  have hbody : sdpBody plusText = plusText.toList := by decide
  obtain ⟨b, hparse, hspells⟩ := parseColonHex_of_hasPlus hplus
  refine ⟨⟨⟨b⟩, ?_, ?_⟩, b, hparse, hspells⟩
  · rw [Fingerprint.parseSdp_eq_some_iff, hbody]
    exact hparse
  · rw [hbody]
    exact hspells

end Rda
