/-
**Byte readers, and the byte strings they accept.**

A *reader* consumes a front part of a byte string and returns a value together with the bytes it
left, or fails.  Two relations describe what a reader does without opening its definition:

* `Wire.Reads p bs a` — `p` reads exactly `bs`: put anything behind `bs` and `p` returns `a` and
  hands the tail back untouched; cut `bs` short anywhere and `p` fails.  The two halves are stated
  together because they are proved together, one read at a time (`Wire.Reads.bind`).
* `Wire.Yields p Q` — whatever `p` returns satisfies `Q`.

Main definitions:

* `Wire.Reader` — readers, with their monad structure;
* `Wire.take`, `Wire.reject`, `Wire.lift`, `Wire.times` — the readers everything is built from;
* `Wire.toBe`, `Wire.ofBe` — big-endian words of any width;
* `Wire.Reads`, `Wire.Yields` — the two relations above.

Main results:

* `Wire.ofBe_toBe`, `Wire.toBe_ofBe` — a big-endian word reads back as its value modulo the width,
  and a byte string is the word of the number it denotes;
* `Wire.Reads.bind`, `Wire.Reads.times` — sequencing and iteration of exact reads;
* `Wire.Yields.bind`, `Wire.Yields.times` — sequencing and iteration of postconditions.
-/

import Mathlib.Data.List.Basic
import Mathlib.Tactic.Common
import Mathlib.Tactic.Ring

set_option relaxedAutoImplicit false
set_option autoImplicit false

namespace Wire

/-! ### Readers -/

/-- A reader: from the bytes that remain, a value and the bytes it left, or an error. -/
def Reader (ε α : Type) : Type := List UInt8 → Except ε (α × List UInt8)

variable {ε α β : Type}

instance : Monad (Reader ε) where
  pure a := fun bs => .ok (a, bs)
  bind p f := fun bs =>
    match p bs with
    | .ok (a, rest) => f a rest
    | .error e => .error e

@[simp] theorem pure_apply (a : α) (bs : List UInt8) :
    (pure a : Reader ε α) bs = .ok (a, bs) := rfl

theorem bind_of_ok {p : Reader ε α} {f : α → Reader ε β} {bs rest : List UInt8} {a : α}
    (h : p bs = .ok (a, rest)) : (p >>= f) bs = f a rest := by
  change (match p bs with | .ok (a, rest) => f a rest | .error e => .error e) = _
  rw [h]

theorem bind_of_error {p : Reader ε α} {f : α → Reader ε β} {bs : List UInt8} {e : ε}
    (h : p bs = .error e) : (p >>= f) bs = .error e := by
  change (match p bs with | .ok (a, rest) => f a rest | .error e => .error e) = _
  rw [h]

/-- A sequence of two readers succeeds exactly when the first one does and the second one
succeeds on what it left. -/
theorem bind_eq_ok_iff {p : Reader ε α} {f : α → Reader ε β} {bs rest : List UInt8} {b : β} :
    (p >>= f) bs = .ok (b, rest) ↔ ∃ a mid, p bs = .ok (a, mid) ∧ f a mid = .ok (b, rest) := by
  cases hp : p bs with
  | error e => simp [bind_of_error hp]
  | ok q =>
      obtain ⟨a, mid⟩ := q
      rw [bind_of_ok hp]
      constructor
      · intro h; exact ⟨a, mid, rfl, h⟩
      · rintro ⟨a', mid', h, h'⟩
        simp only [Except.ok.injEq, Prod.mk.injEq] at h
        rw [h.1, h.2]
        exact h'

/-- Reads `n` bytes; `short need got` is the error when fewer remain. -/
def take (short : ℕ → ℕ → ε) (n : ℕ) : Reader ε (List UInt8) := fun bs =>
  if bs.length < n then .error (short n bs.length) else .ok (bs.take n, bs.drop n)

/-- Fails with `e` when the test holds, and reads nothing. -/
def reject (c : Prop) [Decidable c] (e : ε) : Reader ε Unit := fun bs =>
  if c then .error e else .ok ((), bs)

/-- A check that reads nothing. -/
def lift (r : Except ε α) : Reader ε α := fun bs => r.map fun a => (a, bs)

/-- Runs `p` `n` times and collects the values. -/
def times : ℕ → Reader ε α → Reader ε (List α)
  | 0, _ => pure []
  | n + 1, p => do
      let a ← p
      let as ← times n p
      return a :: as

/-! ### Big-endian words -/

/-- The low `w` bytes of `n`, most significant first. -/
def toBe : ℕ → ℕ → List UInt8
  | 0, _ => []
  | w + 1, n => UInt8.ofNat (n / 256 ^ w) :: toBe w n

/-- The number a big-endian byte string denotes. -/
def ofBe (bs : List UInt8) : ℕ := bs.foldl (fun acc b => acc * 256 + b.toNat) 0

@[simp] theorem toBe_length (w n : ℕ) : (toBe w n).length = w := by
  induction w with
  | zero => rfl
  | succ w ih => simp [toBe, ih]

/-- The accumulator of the fold is shifted by the length of what is read after it. -/
theorem foldl_be (bs : List UInt8) (acc : ℕ) :
    bs.foldl (fun acc b => acc * 256 + b.toNat) acc = acc * 256 ^ bs.length + ofBe bs := by
  induction bs generalizing acc with
  | nil => simp [ofBe]
  | cons b bs ih =>
      simp only [ofBe, List.foldl_cons, List.length_cons]
      rw [ih, ih (0 * 256 + b.toNat)]
      ring

theorem ofBe_cons (b : UInt8) (bs : List UInt8) :
    ofBe (b :: bs) = b.toNat * 256 ^ bs.length + ofBe bs := by
  simp [ofBe, foldl_be bs b.toNat]

/-- **A big-endian word reads back.** -/
@[simp] theorem ofBe_toBe (w n : ℕ) : ofBe (toBe w n) = n % 256 ^ w := by
  induction w with
  | zero => simp [toBe, ofBe, Nat.mod_one]
  | succ w ih =>
      have hbyte : (UInt8.ofNat (n / 256 ^ w)).toNat = n / 256 ^ w % 256 := UInt8.toNat_ofNat'
      rw [toBe, ofBe_cons, ih, toBe_length, hbyte, Nat.pow_succ, Nat.mod_mul]
      ring

/-- A wide word is its high part followed by its low part. -/
theorem toBe_add (v w n : ℕ) : toBe (v + w) n = toBe v (n / 256 ^ w) ++ toBe w n := by
  induction v with
  | zero => simp [toBe]
  | succ v ih =>
      rw [Nat.add_right_comm, toBe, toBe, ih, List.cons_append, Nat.div_div_eq_div_mul,
        ← Nat.pow_add, Nat.add_comm w v]

theorem ofBe_lt (bs : List UInt8) : ofBe bs < 256 ^ bs.length := by
  induction bs with
  | nil => exact Nat.one_pos
  | cons b bs ih =>
      have hb : b.toNat < 256 := b.toNat_lt
      rw [ofBe_cons, List.length_cons, Nat.pow_succ]
      calc b.toNat * 256 ^ bs.length + ofBe bs
          < b.toNat * 256 ^ bs.length + 256 ^ bs.length := Nat.add_lt_add_left ih _
        _ = (b.toNat + 1) * 256 ^ bs.length := by ring
        _ ≤ 256 * 256 ^ bs.length := Nat.mul_le_mul_right _ hb
        _ = 256 ^ bs.length * 256 := Nat.mul_comm ..

/-- A word of `w` bytes does not see what is above them. -/
theorem toBe_mul_add (w k n : ℕ) : toBe w (k * 256 ^ w + n) = toBe w n := by
  induction w generalizing k with
  | zero => rfl
  | succ w ih =>
      have hk : k * 256 ^ (w + 1) = (k * 256) * 256 ^ w := by ring
      have hpos : 0 < 256 ^ w := Nat.pow_pos (by decide)
      have hdiv : (k * 256 * 256 ^ w + n) / 256 ^ w = k * 256 + n / 256 ^ w := by
        rw [Nat.add_comm, Nat.add_mul_div_right _ _ hpos, Nat.add_comm]
      rw [toBe, toBe, hk, ih, hdiv]
      congr 1
      rw [← UInt8.toNat_inj]
      simp

/-- A big-endian byte string is the word of the number it denotes. -/
theorem toBe_ofBe (bs : List UInt8) : toBe bs.length (ofBe bs) = bs := by
  induction bs with
  | nil => rfl
  | cons b bs ih =>
      have hpos : 0 < 256 ^ bs.length := Nat.pow_pos (by decide)
      have hhead : (b.toNat * 256 ^ bs.length + ofBe bs) / 256 ^ bs.length = b.toNat := by
        rw [Nat.add_comm, Nat.add_mul_div_right _ _ hpos, Nat.div_eq_of_lt (ofBe_lt bs),
          Nat.zero_add]
      rw [List.length_cons, ofBe_cons, toBe, toBe_mul_add, ih, hhead, UInt8.ofNat_toNat]

/-! ### Exact reads -/

/-- `p` reads exactly `bs` and returns `a`: whatever follows is left alone, and no strict front
part of `bs` is enough. -/
structure Reads (p : Reader ε α) (bs : List UInt8) (a : α) : Prop where
  /-- Bytes behind `bs` do not matter. -/
  full : ∀ rest, p (bs ++ rest) = .ok (a, rest)
  /-- `bs` cut short is an error. -/
  short : ∀ pre, pre <+: bs → pre ≠ bs → ∃ e, p pre = .error e

theorem Reads.pure (a : α) : Reads (Pure.pure a : Reader ε α) [] a where
  full := by intro rest; rfl
  short := by
    intro pre hpre hne
    exact absurd (List.prefix_nil.1 hpre) hne

/-- **Exact reads compose.**  A cut falls either inside the bytes of the first reader, which then
fails, or after them, and then the second one does. -/
theorem Reads.bind {p : Reader ε α} {f : α → Reader ε β} {bs cs : List UInt8} {a : α} {b : β}
    (hp : Reads p bs a) (hf : Reads (f a) cs b) : Reads (p >>= f) (bs ++ cs) b where
  full := by
    intro rest
    rw [List.append_assoc, bind_of_ok (hp.full _)]
    exact hf.full rest
  short := by
    intro pre hpre hne
    rcases List.prefix_or_prefix_of_prefix hpre (List.prefix_append bs cs) with h | ⟨mid, rfl⟩
    · by_cases heq : pre = bs
      · subst heq
        obtain ⟨e, he⟩ := hf.short [] List.nil_prefix (by rintro rfl; simp at hne)
        exact ⟨e, by rw [← List.append_nil pre, bind_of_ok (hp.full [])]; exact he⟩
      · obtain ⟨e, he⟩ := hp.short pre h heq
        exact ⟨e, bind_of_error he⟩
    · have hmid : mid <+: cs := (List.prefix_append_right_inj bs).1 hpre
      obtain ⟨e, he⟩ := hf.short mid hmid (by rintro rfl; exact hne rfl)
      exact ⟨e, by rw [bind_of_ok (hp.full mid)]; exact he⟩

/-- A read that consumes nothing can be put in front of another one. -/
theorem Reads.seq {p : Reader ε α} {f : α → Reader ε β} {bs : List UInt8} {a : α} {b : β}
    (hp : Reads p [] a) (hf : Reads (f a) bs b) : Reads (p >>= f) bs b :=
  Reads.bind hp hf

/-- A read can be followed by one that consumes nothing. -/
theorem Reads.check {p : Reader ε α} {f : α → Reader ε β} {bs : List UInt8} {a : α} {b : β}
    (hp : Reads p bs a) (hf : Reads (f a) [] b) : Reads (p >>= f) bs b := by
  have h := hp.bind hf
  rwa [List.append_nil] at h

/-- A read followed by nothing but a return. -/
theorem Reads.last {p : Reader ε α} {bs : List UInt8} {a : α} (g : α → β) (hp : Reads p bs a) :
    Reads (p >>= fun x => (Pure.pure (g x) : Reader ε β)) bs (g a) :=
  hp.check (Reads.pure (g a))

theorem Reads.take (short : ℕ → ℕ → ε) {n : ℕ} {bs : List UInt8} (hn : bs.length = n) :
    Reads (Wire.take short n) bs bs where
  full := by
    intro rest
    subst hn
    simp [Wire.take]
  short := by
    intro pre hpre hne
    subst hn
    have hlt : pre.length < bs.length := by
      rcases Nat.lt_or_ge pre.length bs.length with h | h
      · exact h
      · exact absurd (hpre.eq_of_length_le h) hne
    exact ⟨_, if_pos hlt⟩

theorem Reads.reject {c : Prop} [Decidable c] (e : ε) (h : ¬ c) :
    Reads (Wire.reject c e) [] () where
  full := by intro rest; exact if_neg h
  short := by
    intro pre hpre hne
    exact absurd (List.prefix_nil.1 hpre) hne

theorem Reads.lift {r : Except ε α} {a : α} (h : r = .ok a) : Reads (Wire.lift r) [] a where
  full := by intro rest; rw [h]; rfl
  short := by
    intro pre hpre hne
    exact absurd (List.prefix_nil.1 hpre) hne

/-- Reading one value after another reads the concatenation of their encodings. -/
theorem Reads.times {p : Reader ε α} {enc : α → List UInt8} {as : List α}
    (h : ∀ a ∈ as, Reads p (enc a) a) : Reads (Wire.times as.length p) (as.flatMap enc) as := by
  induction as with
  | nil => exact Reads.pure []
  | cons a as ih =>
      have ha : Reads p (enc a) a := h a (List.mem_cons_self ..)
      have has := ih fun b hb => h b (List.mem_cons_of_mem _ hb)
      rw [List.flatMap_cons]
      exact ha.bind (has.last fun as => a :: as)

/-! ### What a reader can return -/

/-- Everything `p` returns satisfies `Q`. -/
def Yields (p : Reader ε α) (Q : α → Prop) : Prop :=
  ∀ bs a rest, p bs = .ok (a, rest) → Q a

theorem Yields.pure {a : α} {Q : α → Prop} (h : Q a) : Yields (Pure.pure a : Reader ε α) Q := by
  intro bs b rest hb
  simp only [pure_apply, Except.ok.injEq, Prod.mk.injEq] at hb
  rw [← hb.1]
  exact h

theorem Yields.trivial (p : Reader ε α) : Yields p fun _ => True := fun _ _ _ _ => True.intro

/-- **Postconditions compose.** -/
theorem Yields.bind {p : Reader ε α} {f : α → Reader ε β} {P : α → Prop} {Q : β → Prop}
    (hp : Yields p P) (hf : ∀ a, P a → Yields (f a) Q) : Yields (p >>= f) Q := by
  intro bs b rest h
  obtain ⟨a, mid, ha, hb⟩ := bind_eq_ok_iff.1 h
  exact hf a (hp bs a mid ha) mid b rest hb

/-- Sequencing behind a reader about which nothing is needed. -/
theorem Yields.skip {p : Reader ε α} {f : α → Reader ε β} {Q : β → Prop}
    (hf : ∀ a, Yields (f a) Q) : Yields (p >>= f) Q :=
  (Yields.trivial p).bind fun a _ => hf a

theorem Yields.take (short : ℕ → ℕ → ε) (n : ℕ) :
    Yields (Wire.take short n) fun bs => bs.length = n := by
  intro bs a rest h
  simp only [Wire.take] at h
  split at h
  · cases h
  · simp only [Except.ok.injEq, Prod.mk.injEq] at h
    rw [← h.1, List.length_take]
    omega

theorem Yields.reject {c : Prop} [Decidable c] (e : ε) :
    Yields (Wire.reject c e) fun _ => ¬ c := by
  intro bs a rest h
  simp only [Wire.reject] at h
  split at h
  · cases h
  · assumption

theorem Yields.lift (r : Except ε α) : Yields (Wire.lift r) fun a => r = .ok a := by
  intro bs a rest h
  cases r with
  | error e => cases h
  | ok b =>
      simp only [Wire.lift, Except.map, Except.ok.injEq, Prod.mk.injEq] at h
      rw [h.1]

theorem Yields.times {p : Reader ε α} {Q : α → Prop} (h : Yields p Q) (n : ℕ) :
    Yields (Wire.times n p) fun as => as.length = n ∧ ∀ a ∈ as, Q a := by
  induction n with
  | zero => exact Yields.pure (by simp)
  | succ n ih =>
      refine h.bind fun a ha => ih.bind fun as has => Yields.pure ?_
      refine ⟨by simp [has.1], ?_⟩
      intro b hb
      rcases List.mem_cons.1 hb with rfl | hb
      · exact ha
      · exact has.2 b hb

end Wire
