/-
**Losses counted from sequence numbers.**

The receiver sees the numbers of the frames that arrive, and infers from a jump how many are
missing.  Numbers are 16 bits wide and wrap, so a jump is measured by subtraction in 16 bits: up to
256 ahead of the highest number seen it is a gap, up to 256 behind it is a late arrival that fills
one, and anything else is taken for a restart.

Main definitions:

* `Rda.SequenceTracker`, `Rda.SequenceTracker.observe`, `Rda.SequenceTracker.take` — the counter;
* `Rda.SequenceTracker.Skips`, `Rda.SequenceTracker.Stays` — the jumps that are counted as a gap,
  and those that leave the highest number where it is.

Main results:

* `Rda.SequenceTracker.observe_lost_pos_iff` — from a clean count an arrival counts a loss exactly
  when its jump skips numbers;
* `Rda.SequenceTracker.observe_highest` — what the highest number is afterwards.
-/

import Mathlib.Algebra.Ring.Nat
import Mathlib.Tactic.Common

set_option relaxedAutoImplicit false
set_option autoImplicit false

namespace Rda

/-- How far out of order a sequence number may arrive and still be counted as delivered. -/
def MAX_REORDER : UInt16 := 256

/-- Subtraction that stops at zero. -/
def saturatingSubU32 (a b : UInt32) : UInt32 := .ofNat (a.toNat - b.toNat)

theorem toNat_saturatingSubU32 (a b : UInt32) :
    (saturatingSubU32 a b).toNat = a.toNat - b.toNat := by
  rw [saturatingSubU32, UInt32.toNat_ofNat', Nat.mod_eq_of_lt]
  have := a.toNat_lt
  omega

/-- Turns a stream of wire sequence numbers into delivered and lost counts. -/
structure SequenceTracker where
  highest : Option UInt16 := none
  /-- Delivered since the last `take`. -/
  received : UInt32 := 0
  /-- Inferred missing since the last `take`. -/
  lost : UInt32 := 0
  deriving DecidableEq, Repr

namespace SequenceTracker

/-- Records one arrival.  The counters wrap, as they do where overflow is not checked for. -/
def observe (t : SequenceTracker) (sequence : UInt16) : SequenceTracker :=
  let t := { t with received := t.received + 1 }
  match t.highest with
  | none => { t with highest := some sequence }
  | some highest =>
      let advance := sequence - highest
      if advance = 0 then t
      else if advance ≤ MAX_REORDER then
        { t with lost := t.lost + (advance - 1).toUInt32, highest := some sequence }
      else if highest - sequence ≤ MAX_REORDER then { t with lost := saturatingSubU32 t.lost 1 }
      else { t with highest := some sequence }

/-- Returns and clears the counts accumulated since the last call. -/
def take (t : SequenceTracker) : (UInt32 × UInt32) × SequenceTracker :=
  ((t.received, t.lost), { t with received := 0, lost := 0 })

/-! ### Jumps -/

/-- A jump of this size is counted as a gap. -/
def Skips (n : ℕ) : Prop := 2 ≤ n % 2 ^ 16 ∧ n % 2 ^ 16 ≤ MAX_REORDER.toNat

/-- A jump of this size leaves the highest number where it is: it is the highest number again, or
one that is taken for a late arrival. -/
def Stays (n : ℕ) : Prop := n % 2 ^ 16 = 0 ∨ 2 ^ 16 - MAX_REORDER.toNat ≤ n % 2 ^ 16

instance (n : ℕ) : Decidable (Skips n) := inferInstanceAs (Decidable (_ ∧ _))

instance (n : ℕ) : Decidable (Stays n) := inferInstanceAs (Decidable (_ ∨ _))

variable {t : SequenceTracker} {highest : UInt16}

/-- The two differences of a number that is `n` ahead, modulo the width. -/
theorem toNat_ahead (highest : UInt16) (n : ℕ) :
    (highest + UInt16.ofNat n - highest).toNat = n % 2 ^ 16 := by
  rw [UInt16.add_comm, UInt16.add_sub_cancel, UInt16.toNat_ofNat']

theorem toNat_behind (highest : UInt16) (n : ℕ) :
    (highest - (highest + UInt16.ofNat n)).toNat = (2 ^ 16 - n % 2 ^ 16) % 2 ^ 16 := by
  have hn : n % 2 ^ 16 < 2 ^ 16 := Nat.mod_lt _ (by decide)
  rw [UInt16.toNat_sub, UInt16.toNat_add, UInt16.toNat_ofNat']
  have := highest.toNat_lt
  omega

/-- The first arrival counts no loss. -/
theorem observe_first (h : t.highest = none) (sequence : UInt16) :
    (t.observe sequence).highest = some sequence ∧ (t.observe sequence).lost = t.lost := by
  simp only [observe, h, and_self]

/-- What an arrival does that is `n` ahead of the highest number. -/
theorem observe_ahead (h : t.highest = some highest) (n : ℕ) :
    (n % 2 ^ 16 = 0 ∧
      t.observe (highest + .ofNat n) = { t with received := t.received + 1 }) ∨
    (1 ≤ n % 2 ^ 16 ∧ n % 2 ^ 16 ≤ 256 ∧
      t.observe (highest + .ofNat n)
        = ⟨some (highest + .ofNat n), t.received + 1, t.lost + .ofNat (n % 2 ^ 16 - 1)⟩) ∨
    (256 < n % 2 ^ 16 ∧ n % 2 ^ 16 < 2 ^ 16 - 256 ∧
      t.observe (highest + .ofNat n) = ⟨some (highest + .ofNat n), t.received + 1, t.lost⟩) ∨
    (2 ^ 16 - 256 ≤ n % 2 ^ 16 ∧
      t.observe (highest + .ofNat n)
        = { t with received := t.received + 1, lost := saturatingSubU32 t.lost 1 }) := by
  have hn : n % 2 ^ 16 < 2 ^ 16 := Nat.mod_lt _ (by decide)
  have hahead := toNat_ahead highest n
  have hbehind := toNat_behind highest n
  simp only [observe, h]
  generalize highest + UInt16.ofNat n - highest = advance at hahead
  generalize highest - (highest + UInt16.ofNat n) = back at hbehind
  by_cases hzero : advance = 0
  · rw [if_pos hzero]
    refine .inl ⟨?_, rfl⟩
    rw [← hahead, hzero]
    rfl
  have hpos : n % 2 ^ 16 ≠ 0 := by
    rw [← hahead]
    exact fun h0 => hzero (UInt16.toNat_inj.1 h0)
  have hone : (1 : UInt16) ≤ advance := by
    rw [UInt16.le_iff_toNat_le, hahead, UInt16.toNat_one]
    omega
  rw [if_neg hzero]
  by_cases hnear : advance ≤ MAX_REORDER
  · rw [if_pos hnear]
    rw [UInt16.le_iff_toNat_le, hahead] at hnear
    refine .inr (.inl ⟨by omega, hnear, ?_⟩)
    have hsmall : n % 2 ^ 16 - 1 < 2 ^ 32 := by omega
    have hcount : (advance - 1).toUInt32 = .ofNat (n % 2 ^ 16 - 1) := by
      rw [← UInt32.toNat_inj, UInt16.toNat_toUInt32, UInt16.toNat_sub_of_le _ _ hone, hahead,
        UInt16.toNat_one, UInt32.toNat_ofNat', Nat.mod_eq_of_lt hsmall]
    rw [hcount]
  · rw [if_neg hnear]
    rw [UInt16.le_iff_toNat_le, hahead] at hnear
    have hnear' : 256 < n % 2 ^ 16 := not_le.1 hnear
    by_cases hlate : back ≤ MAX_REORDER
    · rw [if_pos hlate]
      rw [UInt16.le_iff_toNat_le, hbehind, Nat.mod_eq_of_lt (by omega)] at hlate
      have hlate' : 2 ^ 16 - n % 2 ^ 16 ≤ 256 := hlate
      exact .inr (.inr (.inr ⟨by omega, rfl⟩))
    · rw [if_neg hlate]
      rw [UInt16.le_iff_toNat_le, hbehind, Nat.mod_eq_of_lt (by omega)] at hlate
      have hlate' : 256 < 2 ^ 16 - n % 2 ^ 16 := not_le.1 hlate
      exact .inr (.inr (.inl ⟨hnear', by omega, rfl⟩))

/-- From a clean count an arrival counts a loss exactly when its jump skips numbers. -/
theorem observe_lost_pos_iff (h : t.highest = some highest) (hlost : t.lost = 0) (n : ℕ) :
    (t.observe (highest + .ofNat n)).lost ≠ 0 ↔ Skips n := by
  have hmax : MAX_REORDER.toNat = 256 := rfl
  rw [Skips, hmax]
  rcases observe_ahead h n with
    ⟨hn, heq⟩ | ⟨hlow, hhigh, heq⟩ | ⟨hlow, hhigh, heq⟩ | ⟨hlow, heq⟩
  · rw [heq, hlost]
    exact iff_of_false (by simp) (by omega)
  · rw [heq, hlost, UInt32.zero_add, ne_eq, ← UInt32.toNat_inj, UInt32.toNat_ofNat',
      Nat.mod_eq_of_lt (by omega), UInt32.toNat_zero]
    omega
  · rw [heq, hlost]
    exact iff_of_false (by simp) (by omega)
  · rw [heq, hlost]
    exact iff_of_false (not_not.2 rfl) (by omega)

/-- What the highest number is afterwards. -/
theorem observe_highest (h : t.highest = some highest) (n : ℕ) :
    (t.observe (highest + .ofNat n)).highest
      = some (if Stays n then highest else highest + .ofNat n) := by
  have hmax : MAX_REORDER.toNat = 256 := rfl
  rcases observe_ahead h n with
    ⟨hn, heq⟩ | ⟨hlow, hhigh, heq⟩ | ⟨hlow, hhigh, heq⟩ | ⟨hlow, heq⟩
  · rw [heq, if_pos (.inl hn), h]
  · rw [heq, if_neg (by rw [Stays, hmax]; omega)]
  · rw [heq, if_neg (by rw [Stays, hmax]; omega)]
  · rw [heq, if_pos (.inr (by rw [hmax]; exact hlow)), h]

end SequenceTracker

end Rda
