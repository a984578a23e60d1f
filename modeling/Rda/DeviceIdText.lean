/-
**Device ids as text.**

A device id is shown in three groups of four characters and typed in by hand, so the parser is
generous: hyphens and spaces are skipped, lower-case letters are taken as upper-case ones, and the
letters that Crockford's alphabet leaves out because they look like digits are read as these digits.
All the spellings of an id have one normal form, the twelve characters themselves.

Main definitions:

* `Rda.DeviceId.parse`, `Rda.DeviceId.grouped` — the parser, and what is shown;
* `Rda.DeviceId.serialize`, `Rda.DeviceId.deserialize` — an id in a message;
* `Rda.Edit` — one change of a text that leaves the id as it is.

Main results:

* `Rda.parseChars_eq_ok_iff` — the loop reads the significant characters one by one;
* `Rda.DeviceId.exists_parse_iff` — which texts are read;
* `Rda.parseChars_of_edits` — **a text may be edited**;
* `Rda.device_id_normal_form` — the parser, the two renderings and the ids of keys.
-/

import Mathlib.Data.List.Forall2
import Mathlib.Logic.Relation
import Rda.Identity

set_option relaxedAutoImplicit false
set_option autoImplicit false

namespace Rda

/-! ### The parser -/

/-- Errors from parsing or validating a device identifier. -/
inductive IdError
  | badLength (length : ℕ)
  | badCharacter (character : Char)
  | keyMismatch
  deriving DecidableEq, Repr

/-- Hyphens and spaces. -/
def IsSkipped (ch : Char) : Prop := ch = '-' ∨ ch = ' '

instance (ch : Char) : Decidable (IsSkipped ch) := inferInstanceAs (Decidable (_ ∨ _))

/-- What a character is read as. -/
def normaliseChar (ch : Char) : Except IdError Char :=
  let up := ch.toUpper
  if up = 'I' ∨ up = 'L' then .ok '1'
  else if up = 'O' then .ok '0'
  else if 'A' ≤ up ∧ up ≤ 'H' ∨ up = 'J' ∨ up = 'K' ∨ up = 'M' ∨ up = 'N' ∨ 'P' ≤ up ∧ up ≤ 'T' ∨
      'V' ≤ up ∧ up ≤ 'Z' ∨ '0' ≤ up ∧ up ≤ '9' then .ok up
  else .error (.badCharacter up)

/-- The loop over the characters. -/
def parseChars : List Char → List Char → Except IdError (List Char)
  | [], out => .ok out
  | ch :: chars, out =>
      if IsSkipped ch then parseChars chars out
      else
        match normaliseChar ch with
        | .ok normalised => parseChars chars (out ++ [normalised])
        | .error e => .error e

/-- The characters of a text other than hyphens and spaces. -/
def significant (chars : List Char) : List Char := chars.filter fun ch => !decide (IsSkipped ch)

/-- The digits and letters of ASCII that an id may be written with. -/
def IsIdChar (ch : Char) : Prop := ch.isAlphanum = true ∧ ch ≠ 'U' ∧ ch ≠ 'u'

instance (ch : Char) : Decidable (IsIdChar ch) := inferInstanceAs (Decidable (_ ∧ _))

/-! ### Characters -/

section Chars

variable {c d : Char}

/-- The characters of ASCII, each by itself: upper case keeps hyphens and spaces apart from the
rest, the digits and letters but U are read, and what they are read as is in the alphabet. -/
theorem of_ascii (hc : c.toNat < 128) :
    (IsSkipped c.toUpper ↔ IsSkipped c) ∧ ((normaliseChar c).toBool = true ↔ IsIdChar c) ∧
      (normaliseChar c).toOption.all (fun d => decide (d ∈ crockfordSymbols)) = true := by
  have hall : ∀ n : Fin 128, (IsSkipped (Char.ofNat n).toUpper ↔ IsSkipped (Char.ofNat n)) ∧
      ((normaliseChar (Char.ofNat n)).toBool = true ↔ IsIdChar (Char.ofNat n)) ∧
      (normaliseChar (Char.ofNat n)).toOption.all (fun d => decide (d ∈ crockfordSymbols)) =
        true := by
    decide
  have h := hall ⟨c.toNat, hc⟩
  rwa [Char.ofNat_toNat] at h

/-- Only the letters of ASCII have an upper case here. -/
theorem toUpper_of_not_ascii (hc : 128 ≤ c.toNat) : c.toUpper = c := by
  refine dif_neg ?_
  rintro ⟨-, hle⟩
  rw [UInt32.le_iff_toNat_le] at hle
  have hval : c.val.toNat = c.toNat := rfl
  have hz : 'z'.val.toNat = 122 := rfl
  omega

/-- Upper case keeps hyphens and spaces apart from the rest. -/
theorem isSkipped_toUpper : IsSkipped c.toUpper ↔ IsSkipped c := by
  rcases Nat.lt_or_ge c.toNat 128 with hc | hc
  · exact (of_ascii hc).1
  · rw [toUpper_of_not_ascii hc]

/-- A character outside of ASCII is in none of the ranges. -/
theorem normaliseChar_of_not_ascii (hc : 128 ≤ c.toNat) :
    normaliseChar c = .error (.badCharacter c) := by
  have hlt : ∀ a : Char, a.toNat < 128 → c ≠ a := by
    rintro a ha rfl
    omega
  have hle : ∀ a : Char, a.toNat < 128 → ¬ c ≤ a := by
    intro a ha hca
    have : c.toNat ≤ a.toNat := hca
    omega
  rw [normaliseChar, toUpper_of_not_ascii hc]
  simp [hlt, hle]

/-- The digits and letters are those of ASCII. -/
theorem isAlphanum_of_not_ascii (hc : 128 ≤ c.toNat) : c.isAlphanum = false := by
  have hgt : ∀ a : Char, a.toNat < 128 → ¬ c.val ≤ a.val := by
    intro a ha hca
    have : c.toNat ≤ a.toNat := hca
    omega
  have hupper : c.isUpper = false := decide_eq_false fun h => hgt 'Z' (by decide) h.2
  have hlower : c.isLower = false :=
    Bool.and_eq_false_iff.2 (Or.inr (decide_eq_false (hgt 'z' (by decide))))
  have hdigit : c.isDigit = false :=
    Bool.and_eq_false_iff.2 (Or.inr (decide_eq_false (hgt '9' (by decide))))
  have halpha : c.isAlpha = false := Bool.or_eq_false_iff.2 ⟨hupper, hlower⟩
  exact Bool.or_eq_false_iff.2 ⟨halpha, hdigit⟩

/-- **Which characters are read**: the digits and letters of ASCII but U. -/
theorem exists_normaliseChar_iff : (∃ d, normaliseChar c = .ok d) ↔ IsIdChar c := by
  have hok : (∃ d, normaliseChar c = .ok d) ↔ (normaliseChar c).toBool = true := by
    cases normaliseChar c with
    | error e => simp [Except.toBool]
    | ok d => simp [Except.toBool]
  rw [hok]
  rcases Nat.lt_or_ge c.toNat 128 with hc | hc
  · exact (of_ascii hc).2.1
  · rw [normaliseChar_of_not_ascii hc]
    refine iff_of_false (by simp [Except.toBool]) ?_
    rintro ⟨hal, -, -⟩
    rw [isAlphanum_of_not_ascii hc] at hal
    cases hal

/-- What a character is read as is in the alphabet. -/
theorem mem_symbols_of_normaliseChar (h : normaliseChar c = .ok d) : d ∈ crockfordSymbols := by
  rcases Nat.lt_or_ge c.toNat 128 with hc | hc
  · have hall := (of_ascii hc).2.2
    rw [h] at hall
    exact of_decide_eq_true hall
  · rw [normaliseChar_of_not_ascii hc] at h
    cases h

/-- The alphabet is read as it is. -/
theorem normaliseChar_of_mem_symbols (h : c ∈ crockfordSymbols) :
    normaliseChar c = .ok c ∧ ¬ IsSkipped c := by
  have hall : crockfordSymbols.all (fun c =>
      decide ((normaliseChar c).toOption = some c ∧ ¬ IsSkipped c)) = true := by
    decide
  obtain ⟨hok, hskip⟩ := of_decide_eq_true (List.all_eq_true.1 hall c h)
  refine ⟨?_, hskip⟩
  cases hc : normaliseChar c with
  | error e =>
      rw [hc] at hok
      cases hok
  | ok d =>
      rw [hc] at hok
      obtain rfl := Option.some.inj hok
      rfl

end Chars

section Loop

variable {chars chars' out res : List Char} {c d : Char}

theorem parseChars_nil : parseChars [] out = .ok out := rfl

theorem parseChars_cons : parseChars (c :: chars) out =
    if IsSkipped c then parseChars chars out
    else match normaliseChar c with
      | .ok normalised => parseChars chars (out ++ [normalised])
      | .error e => .error e := rfl

/-- A hyphen or a space changes nothing. -/
theorem parseChars_cons_of_isSkipped (h : IsSkipped c) :
    parseChars (c :: chars) out = parseChars chars out := by
  rw [parseChars_cons, if_pos h]

/-- Characters that are read alike are interchangeable. -/
theorem parseChars_cons_congr (hskip : IsSkipped c ↔ IsSkipped d)
    (hread : normaliseChar c = normaliseChar d) :
    parseChars (c :: chars) out = parseChars (d :: chars) out := by
  by_cases hc : IsSkipped c
  · rw [parseChars_cons_of_isSkipped hc, parseChars_cons_of_isSkipped (hskip.1 hc)]
  · have hd : ¬ IsSkipped d := fun hd => hc (hskip.2 hd)
    rw [parseChars_cons, parseChars_cons, if_neg hc, if_neg hd, hread]

/-- The loop only looks ahead. -/
theorem parseChars_append_congr (before : List Char)
    (h : ∀ out, parseChars chars out = parseChars chars' out) :
    parseChars (before ++ chars) out = parseChars (before ++ chars') out := by
  induction before generalizing out with
  | nil => exact h out
  | cons c before ih =>
      rw [List.cons_append, List.cons_append, parseChars_cons, parseChars_cons]
      split_ifs
      · exact ih
      · cases normaliseChar c with
        | error e => rfl
        | ok d => exact ih

/-- The loop reads the significant characters one by one. -/
theorem parseChars_eq_ok_iff :
    parseChars chars out = .ok res ↔
      ∃ more, res = out ++ more ∧
        List.Forall₂ (fun c d => normaliseChar c = .ok d) (significant chars) more := by
  induction chars generalizing out with
  | nil =>
      rw [parseChars_nil, Except.ok.injEq]
      constructor
      · rintro rfl
        exact ⟨[], by simp, .nil⟩
      · rintro ⟨more, rfl, hmore⟩
        cases hmore
        simp
  | cons c chars ih =>
      by_cases hc : IsSkipped c
      · have hsig : significant (c :: chars) = significant chars :=
          List.filter_cons_of_neg (by simpa using hc)
        rw [parseChars_cons_of_isSkipped hc, ih, hsig]
      · have hsig : significant (c :: chars) = c :: significant chars :=
          List.filter_cons_of_pos (by simpa using hc)
        rw [parseChars_cons, if_neg hc, hsig]
        cases hread : normaliseChar c with
        | error e =>
            refine iff_of_false (by simp) ?_
            rintro ⟨more, -, hmore⟩
            obtain ⟨d, more', hd, -, -⟩ := List.forall₂_cons_left_iff.1 hmore
            rw [hread] at hd
            cases hd
        | ok d =>
            simp only
            rw [ih]
            constructor
            · rintro ⟨more, rfl, hmore⟩
              exact ⟨d :: more, by simp, .cons hread hmore⟩
            · rintro ⟨more, rfl, hmore⟩
              obtain ⟨d', more', hd, hrest, rfl⟩ := List.forall₂_cons_left_iff.1 hmore
              obtain rfl : d = d' := Except.ok.inj (hread.symm.trans hd)
              exact ⟨more', by simp, hrest⟩

/-- What the loop returns is in the alphabet. -/
theorem mem_symbols_of_parseChars (h : parseChars chars [] = .ok res) :
    ∀ c ∈ res, c ∈ crockfordSymbols := by
  obtain ⟨more, rfl, hmore⟩ := parseChars_eq_ok_iff.1 h
  intro c hc
  obtain ⟨i, hi, rfl⟩ := List.getElem_of_mem hc
  have hi' : i < (significant chars).length := by rwa [hmore.length_eq]
  exact mem_symbols_of_normaliseChar (hmore.get hi' hi)

/-- Characters of ids are all read. -/
theorem exists_forall₂_normaliseChar (h : ∀ c ∈ chars, IsIdChar c) :
    ∃ more, List.Forall₂ (fun c d => normaliseChar c = .ok d) chars more := by
  induction chars with
  | nil => exact ⟨[], .nil⟩
  | cons c chars ih =>
      rw [List.forall_mem_cons] at h
      obtain ⟨d, hd⟩ := exists_normaliseChar_iff.2 h.1
      obtain ⟨more, hmore⟩ := ih h.2
      exact ⟨d :: more, .cons hd hmore⟩

end Loop

/-! ### Device ids -/

namespace DeviceId

/-- Parses a device id, accepting hyphens and lower case, normalising both away. -/
def parse (s : String) : Except IdError DeviceId :=
  match h : parseChars s.toList [] with
  | .error e => .error e
  | .ok out =>
      if hlen : out.length = DEVICE_ID_LEN then .ok ⟨out, hlen, mem_symbols_of_parseChars h⟩
      else .error (.badLength out.length)

/-- The characters of the display form. -/
def groupedChars (d : DeviceId) : List Char :=
  d.chars.take 4 ++ '-' :: ((d.chars.drop 4).take 4 ++ '-' :: (d.chars.drop 8).take 4)

/-- The display form. -/
def grouped (d : DeviceId) : String := String.ofList d.groupedChars

/-- An id in a message. -/
def serialize (d : DeviceId) : String := d.grouped

/-- Reads an id in a message. -/
def deserialize (s : String) : Except IdError DeviceId := parse s

/-- Verifies that an identifier was derived from a key. -/
def verifyAgainst (P : Primitives) (d : DeviceId) (pubkey : Bytes 32) : Except IdError Unit :=
  if d = deviceIdFromPubkey P pubkey then .ok () else .error .keyMismatch

variable {s s' : String} {d : DeviceId}

theorem parse_eq_ok_iff : parse s = .ok d ↔ parseChars s.toList [] = .ok d.chars := by
  rw [parse]
  split
  · rename_i e h
    rw [h]
    simp
  · rename_i out h
    have hread : parseChars s.toList [] = .ok d.chars ↔ out = d.chars := by
      rw [h, Except.ok.injEq]
    rw [hread]
    split_ifs with hlen
    · rw [Except.ok.injEq, DeviceId.mk.injEq]
    · refine iff_of_false (by simp) ?_
      rintro rfl
      exact hlen d.length_chars

/-- An id is read when its characters are the significant ones of the text. -/
theorem parse_eq_ok_iff_forall₂ :
    parse s = .ok d ↔
      List.Forall₂ (fun c d => normaliseChar c = .ok d) (significant s.toList) d.chars := by
  rw [parse_eq_ok_iff, parseChars_eq_ok_iff]
  constructor
  · rintro ⟨more, hmore, hall⟩
    rwa [hmore]
  · intro hall
    exact ⟨d.chars, rfl, hall⟩

/-- A text whose significant characters are those of an id is read as that id. -/
theorem parse_of_significant (h : significant s.toList = d.chars) : parse s = .ok d := by
  rw [parse_eq_ok_iff_forall₂, h, List.forall₂_same]
  intro c hc
  exact (normaliseChar_of_mem_symbols (d.mem_symbols c hc)).1

theorem significant_of_mem_symbols {chars : List Char} (h : ∀ c ∈ chars, c ∈ crockfordSymbols) :
    significant chars = chars := by
  rw [significant, List.filter_eq_self]
  intro c hc
  simpa using (normaliseChar_of_mem_symbols (h c hc)).2

/-- The canonical form is read back. -/
theorem parse_asStr (d : DeviceId) : parse d.asStr = .ok d := by
  refine parse_of_significant ?_
  rw [asStr, String.toList_ofList]
  exact significant_of_mem_symbols d.mem_symbols

theorem significant_groupedChars (d : DeviceId) : significant d.groupedChars = d.chars := by
  have hpart : ∀ m n, significant ((d.chars.drop m).take n) = (d.chars.drop m).take n := by
    intro m n
    refine significant_of_mem_symbols ?_
    intro c hc
    exact d.mem_symbols c (List.mem_of_mem_drop (List.mem_of_mem_take hc))
  have hdash : ∀ chars, significant ('-' :: chars) = significant chars := by
    intro chars
    exact List.filter_cons_of_neg (by decide)
  have happend : ∀ l₁ l₂, significant (l₁ ++ l₂) = significant l₁ ++ significant l₂ := by
    intro l₁ l₂
    exact List.filter_append l₁ l₂
  have hfirst := hpart 0 4
  rw [List.drop_zero] at hfirst
  have hlast : (d.chars.drop 8).take 4 = d.chars.drop 8 := by
    refine List.take_of_length_le ?_
    rw [List.length_drop, d.length_chars]
    decide
  calc significant d.groupedChars
      = d.chars.take 4 ++ ((d.chars.drop 4).take 4 ++ (d.chars.drop 8).take 4) := by
        rw [groupedChars, happend, hdash, happend, hdash, hfirst, hpart, hpart]
    _ = d.chars.take 4 ++ ((d.chars.drop 4).take 4 ++ (d.chars.drop 4).drop 4) := by
        rw [hlast, List.drop_drop]
    _ = d.chars := by rw [List.take_append_drop, List.take_append_drop]

/-- The display form is read back. -/
theorem parse_grouped (d : DeviceId) : parse d.grouped = .ok d := by
  refine parse_of_significant ?_
  rw [grouped, String.toList_ofList]
  exact d.significant_groupedChars

/-- What is shown for a key is verified against the keys with the same id, and no others. -/
theorem verifyAgainst_of_parse_grouped {P : Primitives} {pubkey pubkey' : Bytes 32}
    (h : parse (deviceIdFromPubkey P pubkey).grouped = .ok d) :
    d.verifyAgainst P pubkey' = .ok () ↔
      deviceIdFromPubkey P pubkey = deviceIdFromPubkey P pubkey' := by
  rw [parse_grouped, Except.ok.injEq] at h
  subst h
  rw [verifyAgainst]
  split_ifs with heq
  · simp [heq]
  · simp [heq]

/-- **When a text is read**: its significant characters are twelve, and characters of ids. -/
theorem exists_parse_iff :
    (∃ d, parse s = .ok d) ↔
      (significant s.toList).length = DEVICE_ID_LEN ∧ ∀ c ∈ significant s.toList, IsIdChar c := by
  constructor
  · rintro ⟨d, hd⟩
    rw [parse_eq_ok_iff_forall₂] at hd
    refine ⟨by rw [hd.length_eq, d.length_chars], ?_⟩
    intro c hc
    obtain ⟨i, hi, rfl⟩ := List.getElem_of_mem hc
    exact exists_normaliseChar_iff.1 ⟨_, hd.get hi (by rwa [← hd.length_eq])⟩
  · rintro ⟨hlen, hall⟩
    obtain ⟨chars, hchars⟩ := exists_forall₂_normaliseChar hall
    have hparse : parseChars s.toList [] = .ok chars :=
      parseChars_eq_ok_iff.2 ⟨chars, rfl, hchars⟩
    refine ⟨⟨chars, by rw [← hchars.length_eq, hlen], mem_symbols_of_parseChars hparse⟩, ?_⟩
    rw [parse_eq_ok_iff]
    exact hparse

end DeviceId

/-! ### Edits -/

/-- A letter and the digit that it looks like. -/
def LooksLike (letter digit : Char) : Prop :=
  (letter = 'I' ∨ letter = 'L') ∧ digit = '1' ∨ letter = 'O' ∧ digit = '0'

/-- One change of a text: the ASCII case of a character, a hyphen or a space more or less, a letter
for the digit that it looks like or the digit for the letter. -/
inductive Edit : List Char → List Char → Prop
  | recase (before after : List Char) {c c' : Char} (h : c.toUpper = c'.toUpper) :
      Edit (before ++ c :: after) (before ++ c' :: after)
  | insert (before after : List Char) {c : Char} (h : IsSkipped c) :
      Edit (before ++ after) (before ++ c :: after)
  | remove (before after : List Char) {c : Char} (h : IsSkipped c) :
      Edit (before ++ c :: after) (before ++ after)
  | toDigit (before after : List Char) {c c' : Char} (h : LooksLike c c') :
      Edit (before ++ c :: after) (before ++ c' :: after)
  | toLetter (before after : List Char) {c c' : Char} (h : LooksLike c' c) :
      Edit (before ++ c :: after) (before ++ c' :: after)

section Edits

variable {chars chars' out : List Char} {c c' : Char}

/-- Letters are read as the digits that they look like. -/
theorem normaliseChar_of_looksLike (h : LooksLike c c') :
    normaliseChar c = normaliseChar c' ∧ ¬ IsSkipped c ∧ ¬ IsSkipped c' := by
  rcases h with ⟨rfl | rfl, rfl⟩ | ⟨rfl, rfl⟩
  · exact ⟨rfl, by decide, by decide⟩
  · exact ⟨rfl, by decide, by decide⟩
  · exact ⟨rfl, by decide, by decide⟩

/-- Case does not matter. -/
theorem normaliseChar_of_toUpper_eq (h : c.toUpper = c'.toUpper) :
    normaliseChar c = normaliseChar c' ∧ (IsSkipped c ↔ IsSkipped c') := by
  refine ⟨by rw [normaliseChar, normaliseChar, h], ?_⟩
  rw [← isSkipped_toUpper, h, isSkipped_toUpper]

/-- **One edit** leaves what the loop returns as it is. -/
theorem parseChars_of_edit (h : Edit chars chars') :
    parseChars chars out = parseChars chars' out := by
  cases h with
  | recase before after h =>
      obtain ⟨hread, hskip⟩ := normaliseChar_of_toUpper_eq h
      exact parseChars_append_congr before fun _ => parseChars_cons_congr hskip hread
  | insert before after h =>
      exact parseChars_append_congr before fun _ => (parseChars_cons_of_isSkipped h).symm
  | remove before after h =>
      exact parseChars_append_congr before fun _ => parseChars_cons_of_isSkipped h
  | toDigit before after h =>
      obtain ⟨hread, hc, hc'⟩ := normaliseChar_of_looksLike h
      exact parseChars_append_congr before fun _ =>
        parseChars_cons_congr (iff_of_false hc hc') hread
  | toLetter before after h =>
      obtain ⟨hread, hc, hc'⟩ := normaliseChar_of_looksLike h
      exact parseChars_append_congr before fun _ =>
        parseChars_cons_congr (iff_of_false hc' hc) hread.symm

/-- **Any number of edits.** -/
theorem parseChars_of_edits (h : Relation.ReflTransGen Edit chars chars') :
    parseChars chars out = parseChars chars' out := by
  induction h with
  | refl => rfl
  | tail _ hedit ih => exact ih.trans (parseChars_of_edit hedit)

end Edits

/-- **The normal form of device ids**: an id that is read has twelve characters of the alphabet,
both renderings are read as the same id, and so is every text that edits lead to; the texts that are
not read are those whose significant characters are not twelve characters of ids; and the id of a
key comes back from a message. -/
theorem device_id_normal_form (P : Primitives) (s : String) (pubkey : Bytes 32) :
    (∀ d, DeviceId.parse s = .ok d →
      (d.chars.length = DEVICE_ID_LEN ∧ ∀ c ∈ d.chars, c ∈ crockfordSymbols) ∧
        DeviceId.parse d.asStr = .ok d ∧ DeviceId.parse d.grouped = .ok d ∧
          ∀ s' : String, Relation.ReflTransGen Edit s.toList s'.toList →
            DeviceId.parse s' = .ok d) ∧
    ((∃ e, DeviceId.parse s = .error e) ↔
      ¬ ((significant s.toList).length = DEVICE_ID_LEN ∧
        ∀ c ∈ significant s.toList, IsIdChar c)) ∧
    (DeviceId.parse (deviceIdFromPubkey P pubkey).asStr = .ok (deviceIdFromPubkey P pubkey) ∧
      DeviceId.deserialize (deviceIdFromPubkey P pubkey).serialize =
        .ok (deviceIdFromPubkey P pubkey)) := by
  refine ⟨?_, ?_, DeviceId.parse_asStr _, DeviceId.parse_grouped _⟩
  · intro d hd
    refine ⟨⟨d.length_chars, d.mem_symbols⟩, d.parse_asStr, d.parse_grouped, ?_⟩
    intro s' hs'
    rw [DeviceId.parse_eq_ok_iff] at hd ⊢
    rw [← parseChars_of_edits hs']
    exact hd
  · rw [← DeviceId.exists_parse_iff]
    cases DeviceId.parse s with
    | error e => simp
    | ok d => simp

end Rda
