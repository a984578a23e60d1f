/-
**Where a normalised coordinate lands.**

The controller sends a pointer position as two numbers in `0..=65535`, and the host maps each onto
an axis of a display.  The specification rounds the exact position to the nearest pixel and clamps
the result to the display.  The host divides without rounding, so it is one pixel short wherever the
exact position is at least half a pixel above a pixel, and it converts the offset to a signed word,
which turns offsets from `2 ^ 31` on into negative ones.

The two axes are mapped alike, so everything is said of one axis (`Rda.denormaliseAxis`) and carried
over to the pair.

Main definitions:

* `Rda.denormaliseAxis` — the mapping of one axis;
* `Rda.specifiedAxis`, `Rda.specified` — the position the specification names;
* `Rda.flooredAxis`, `Rda.floored` — the position rounded down;
* `Rda.MapsExactly` — the offset is a signed word and the fraction is below one half;
* `Rda.DisplayGeometry.Representable` — a display with its last pixel at a signed position.

Main results:

* `Rda.denormaliseAxis_eq_specified_iff` — one axis;
* `Rda.denormaliseAxis_mono_iff` — the mapping keeps the order exactly on axes whose offsets are
  signed words;
* `Rda.denormalise_matches_specification_iff` — which positions match the specification, and which
  displays are mapped in order and up to both edges;
* `Rda.denormalise_floors` — **positions are rounded down and stay on the display**.
-/

import Rda.Injector

set_option relaxedAutoImplicit false
set_option autoImplicit false

namespace Rda

/-! ### One axis -/

/-- The mapping of one axis. -/
def denormaliseAxis (origin : Int32) (extent : UInt32) (n : UInt16) : Int32 :=
  saturatingAdd origin (Int32.ofNat (n.toNat * (extent.toNat - 1) / 65535))

theorem denormalise_eq_axes (g : DisplayGeometry) (xNorm yNorm : UInt16) :
    g.denormalise xNorm yNorm
      = (denormaliseAxis g.x g.width xNorm, denormaliseAxis g.y g.height yNorm) :=
  rfl

/-- The quotient of two numbers, rounded to the nearest; a tie goes up. -/
def roundedQuotient (a b : ℕ) : ℕ := (2 * a + b) / (2 * b)

/-- The position the specification names on one axis: rounded, then clamped to the display. -/
def specifiedAxis (origin : Int32) (extent : UInt32) (n : UInt16) : ℤ :=
  max origin.toInt (min (origin.toInt + (extent.toNat - 1 : ℕ))
    (origin.toInt + roundedQuotient (n.toNat * (extent.toNat - 1)) 65535))

/-- The position the specification names. -/
def specified (g : DisplayGeometry) (xNorm yNorm : UInt16) : ℤ × ℤ :=
  (specifiedAxis g.x g.width xNorm, specifiedAxis g.y g.height yNorm)

/-- The position on one axis, rounded down. -/
def flooredAxis (origin : Int32) (extent : UInt32) (n : UInt16) : ℤ :=
  origin.toInt + (n.toNat * (extent.toNat - 1) / 65535 : ℕ)

/-- The position rounded down. -/
def floored (g : DisplayGeometry) (xNorm yNorm : UInt16) : ℤ × ℤ :=
  (flooredAxis g.x g.width xNorm, flooredAxis g.y g.height yNorm)

/-- The offset is a signed word, and the exact position lies less than half a pixel above it. -/
def MapsExactly (extent : UInt32) (n : UInt16) : Prop :=
  n.toNat * (extent.toNat - 1) / 65535 < 2 ^ 31 ∧
    2 * (n.toNat * (extent.toNat - 1) % 65535) < 65535

instance (extent : UInt32) (n : UInt16) : Decidable (MapsExactly extent n) :=
  inferInstanceAs (Decidable (_ ∧ _))

/-- An axis of at least one pixel whose last pixel lies at a signed position. -/
def AxisRepresentable (origin : Int32) (extent : UInt32) : Prop :=
  1 ≤ extent.toNat ∧ origin.toInt + (extent.toNat - 1 : ℕ) < 2 ^ 31

/-- A display with its right and bottom edges at signed positions. -/
def DisplayGeometry.Representable (g : DisplayGeometry) : Prop :=
  AxisRepresentable g.x g.width ∧ AxisRepresentable g.y g.height

theorem toInt_saturatingAdd (a b : Int32) :
    (saturatingAdd a b).toInt = max (-2147483648) (min 2147483647 (a.toInt + b.toInt)) := by
  unfold saturatingAdd
  exact Int32.toInt_ofInt_of_le (by omega) (by omega)

/-- The offset never passes the last pixel. -/
theorem offset_le (extent : UInt32) (n : UInt16) :
    n.toNat * (extent.toNat - 1) / 65535 ≤ extent.toNat - 1 := by
  have hn : n.toNat ≤ 65535 := Nat.le_of_lt_succ n.toNat_lt
  refine Nat.div_le_of_le_mul ?_
  exact Nat.mul_le_mul_right _ hn

/-- Rounding goes up exactly from one half on. -/
theorem roundedQuotient_eq (a : ℕ) :
    roundedQuotient a 65535 = if 2 * (a % 65535) < 65535 then a / 65535 else a / 65535 + 1 := by
  unfold roundedQuotient
  split <;> omega

/-- The rounded offset does not pass the last pixel either: there the division is exact. -/
theorem roundedOffset_le (extent : UInt32) (n : UInt16) :
    roundedQuotient (n.toNat * (extent.toNat - 1)) 65535 ≤ extent.toNat - 1 := by
  have hn : n.toNat ≤ 65535 := Nat.le_of_lt_succ n.toNat_lt
  have hprod : n.toNat * (extent.toNat - 1) ≤ 65535 * (extent.toNat - 1) :=
    Nat.mul_le_mul_right _ hn
  unfold roundedQuotient
  omega

/-- The clamp of the specification changes nothing. -/
theorem specifiedAxis_eq (origin : Int32) (extent : UInt32) (n : UInt16) :
    specifiedAxis origin extent n
      = origin.toInt + roundedQuotient (n.toNat * (extent.toNat - 1)) 65535 := by
  have hle := roundedOffset_le extent n
  unfold specifiedAxis
  omega

section Axis

variable {origin : Int32} {extent : UInt32} (h : AxisRepresentable origin extent)
include h

/-- An offset that is a signed word is added to the origin. -/
theorem denormaliseAxis_of_lt {n : UInt16}
    (hlt : n.toNat * (extent.toNat - 1) / 65535 < 2 ^ 31) :
    (denormaliseAxis origin extent n).toInt = flooredAxis origin extent n := by
  have hle := offset_le extent n
  have hmin := origin.le_toInt
  obtain ⟨-, hedge⟩ := h
  rw [denormaliseAxis, toInt_saturatingAdd, Int32.toInt_ofNat_of_lt hlt, flooredAxis]
  omega

/-- On an axis of at most `2 ^ 31` pixels every offset is a signed word. -/
theorem offset_lt (hsmall : extent.toNat ≤ 2 ^ 31) (n : UInt16) :
    n.toNat * (extent.toNat - 1) / 65535 < 2 ^ 31 := by
  have hle := offset_le extent n
  have hpos := h.1
  omega

/-- A position that is rounded down lies on the axis. -/
theorem denormaliseAxis_bounds (hsmall : extent.toNat ≤ 2 ^ 31) (n : UInt16) :
    origin.toInt ≤ (denormaliseAxis origin extent n).toInt ∧
      (denormaliseAxis origin extent n).toInt ≤ origin.toInt + (extent.toNat - 1 : ℕ) := by
  have hle := offset_le extent n
  rw [denormaliseAxis_of_lt h (offset_lt h hsmall n), flooredAxis]
  omega

omit h in
/-- A larger offset comes out as a negative word, so the position is at or before the origin. -/
theorem denormaliseAxis_of_ge (origin : Int32) {extent : UInt32} {n : UInt16}
    (hge : 2 ^ 31 ≤ n.toNat * (extent.toNat - 1) / 65535) :
    (denormaliseAxis origin extent n).toInt ≤ origin.toInt := by
  have hle := offset_le extent n
  have hmin := origin.le_toInt
  have hext : extent.toNat < 2 ^ 32 := extent.toNat_lt
  rw [denormaliseAxis, toInt_saturatingAdd, Int32.toInt_ofNat']
  generalize n.toNat * (extent.toNat - 1) / 65535 = offset at hge hle
  have hwrap : (offset : ℤ).bmod Int32.size = offset - 2 ^ 32 := by
    rw [Int.bmod_eq_emod, if_pos] <;> simp only [Int32.size] <;> omega
  rw [hwrap]
  omega

/-- **One axis.** -/
theorem denormaliseAxis_eq_specified_iff (n : UInt16) :
    (denormaliseAxis origin extent n).toInt = specifiedAxis origin extent n ↔
      MapsExactly extent n := by
  rw [specifiedAxis_eq, roundedQuotient_eq]
  unfold MapsExactly
  rcases Nat.lt_or_ge (n.toNat * (extent.toNat - 1) / 65535) (2 ^ 31) with hlt | hge
  · rw [denormaliseAxis_of_lt h hlt, flooredAxis]
    split <;> omega
  · have hpast := denormaliseAxis_of_ge origin hge
    split <;> omega

/-- An axis is mapped in order and up to both edges exactly when every offset is a signed word. -/
theorem denormaliseAxis_mono_iff :
    ((∀ m n : UInt16, m ≤ n →
        (denormaliseAxis origin extent m).toInt ≤ (denormaliseAxis origin extent n).toInt) ∧
      (denormaliseAxis origin extent 0).toInt = origin.toInt ∧
      (denormaliseAxis origin extent 65535).toInt = origin.toInt + (extent.toNat - 1 : ℕ)) ↔
    extent.toNat ≤ 2 ^ 31 := by
  have hlast : (65535 : UInt16).toNat * (extent.toNat - 1) / 65535 = extent.toNat - 1 :=
    Nat.mul_div_cancel_left _ (by decide)
  have hfirst : (0 : UInt16).toNat * (extent.toNat - 1) / 65535 = 0 := by
    rw [UInt16.toNat_zero, Nat.zero_mul, Nat.zero_div]
  constructor
  · rintro ⟨-, -, hedge⟩
    by_contra hbig
    have hpast : (denormaliseAxis origin extent 65535).toInt ≤ origin.toInt :=
      denormaliseAxis_of_ge origin (by rw [hlast]; omega)
    omega
  · intro hsmall
    have hlt := offset_lt h hsmall
    refine ⟨fun m n hmn => ?_, ?_, ?_⟩
    · have hdiv : m.toNat * (extent.toNat - 1) / 65535 ≤ n.toNat * (extent.toNat - 1) / 65535 :=
        Nat.div_le_div_right (Nat.mul_le_mul_right _ (UInt16.le_iff_toNat_le.1 hmn))
      rw [denormaliseAxis_of_lt h (hlt m), denormaliseAxis_of_lt h (hlt n), flooredAxis,
        flooredAxis]
      omega
    · rw [denormaliseAxis_of_lt h (hlt 0), flooredAxis, hfirst]
      omega
    · rw [denormaliseAxis_of_lt h (hlt 65535), flooredAxis, hlast]

end Axis

/-! ### A display -/

/-- A display is mapped in order in each coordinate, and up to both edges. -/
structure DisplayGeometry.MapsInOrder (g : DisplayGeometry) : Prop where
  mono_x : ∀ x x' y : UInt16, x ≤ x' →
    (g.denormalise x y).1.toInt ≤ (g.denormalise x' y).1.toInt
  mono_y : ∀ x y y' : UInt16, y ≤ y' →
    (g.denormalise x y).2.toInt ≤ (g.denormalise x y').2.toInt
  first : (g.denormalise 0 0).1 = g.x ∧ (g.denormalise 0 0).2 = g.y
  last : (g.denormalise 65535 65535).1.toInt = g.x.toInt + (g.width.toNat - 1 : ℕ) ∧
    (g.denormalise 65535 65535).2.toInt = g.y.toInt + (g.height.toNat - 1 : ℕ)

/-- The position lies on the display. -/
def DisplayGeometry.Contains (g : DisplayGeometry) (p : Int32 × Int32) : Prop :=
  (g.x.toInt ≤ p.1.toInt ∧ p.1.toInt ≤ g.x.toInt + (g.width.toNat - 1 : ℕ)) ∧
    (g.y.toInt ≤ p.2.toInt ∧ p.2.toInt ≤ g.y.toInt + (g.height.toNat - 1 : ℕ))

theorem mapsInOrder_iff {g : DisplayGeometry} (hg : g.Representable) :
    g.MapsInOrder ↔ g.width.toNat ≤ 2 ^ 31 ∧ g.height.toNat ≤ 2 ^ 31 := by
  rw [← denormaliseAxis_mono_iff hg.1, ← denormaliseAxis_mono_iff hg.2]
  constructor
  · intro h
    refine ⟨⟨fun m n hmn => h.mono_x m n 0 hmn, congrArg Int32.toInt h.first.1, h.last.1⟩,
      ⟨fun m n hmn => h.mono_y 0 m n hmn, congrArg Int32.toInt h.first.2, h.last.2⟩⟩
  · rintro ⟨⟨hx, hx₀, hx₁⟩, ⟨hy, hy₀, hy₁⟩⟩
    exact
      { mono_x := fun x x' _ hle => hx x x' hle
        mono_y := fun _ y y' hle => hy y y' hle
        first := ⟨Int32.toInt_inj.1 hx₀, Int32.toInt_inj.1 hy₀⟩
        last := ⟨hx₁, hy₁⟩ }

/-- Which positions match the specification, and which displays are mapped in order and up to both
edges. -/
theorem denormalise_matches_specification_iff {g : DisplayGeometry} (hg : g.Representable) :
    (∀ xNorm yNorm : UInt16,
      ((g.denormalise xNorm yNorm).1.toInt, (g.denormalise xNorm yNorm).2.toInt)
          = specified g xNorm yNorm ↔
        MapsExactly g.width xNorm ∧ MapsExactly g.height yNorm) ∧
    (g.MapsInOrder ↔ g.width.toNat ≤ 2 ^ 31 ∧ g.height.toNat ≤ 2 ^ 31) := by
  refine ⟨fun xNorm yNorm => ?_, mapsInOrder_iff hg⟩
  rw [denormalise_eq_axes, specified, Prod.mk.injEq, denormaliseAxis_eq_specified_iff hg.1,
    denormaliseAxis_eq_specified_iff hg.2]

/-- **Positions are rounded down and stay on the display**, in order in each coordinate and up to
both edges, on a display of at most `2 ^ 31` by `2 ^ 31` pixels. -/
theorem denormalise_floors {g : DisplayGeometry} (hg : g.Representable)
    (hwidth : g.width.toNat ≤ 2 ^ 31) (hheight : g.height.toNat ≤ 2 ^ 31) :
    (∀ xNorm yNorm : UInt16,
      ((g.denormalise xNorm yNorm).1.toInt, (g.denormalise xNorm yNorm).2.toInt)
          = floored g xNorm yNorm ∧
        g.Contains (g.denormalise xNorm yNorm)) ∧
    g.MapsInOrder := by
  refine ⟨fun xNorm yNorm => ⟨?_, ?_⟩, (mapsInOrder_iff hg).2 ⟨hwidth, hheight⟩⟩
  · rw [denormalise_eq_axes, floored, Prod.mk.injEq]
    exact ⟨denormaliseAxis_of_lt hg.1 (offset_lt hg.1 hwidth xNorm),
      denormaliseAxis_of_lt hg.2 (offset_lt hg.2 hheight yNorm)⟩
  · exact ⟨denormaliseAxis_bounds hg.1 hwidth xNorm, denormaliseAxis_bounds hg.2 hheight yNorm⟩

/-- The display of the host's own tests. -/
def fullHd : DisplayGeometry := ⟨0, 0, 0, 1920, 1080⟩

theorem representable_fullHd : fullHd.Representable :=
  ⟨⟨by decide, by decide⟩, ⟨by decide, by decide⟩⟩

/-- The middle of the screen is rounded down, and the display is mapped in order. -/
theorem denormalise_floors_fullHd :
    ((fullHd.denormalise 32768 16384).1.toInt, (fullHd.denormalise 32768 16384).2.toInt)
        = floored fullHd 32768 16384 ∧
      fullHd.Contains (fullHd.denormalise 32768 16384) ∧ fullHd.MapsInOrder := by
  obtain ⟨hfloors, horder⟩ := denormalise_floors representable_fullHd (by decide) (by decide)
  exact ⟨(hfloors 32768 16384).1, (hfloors 32768 16384).2, horder⟩

/-- **A click in the middle of a full HD screen lands one pixel off**, in both coordinates. -/
theorem denormalise_off_by_one :
    fullHd.Representable ∧ fullHd.denormalise 32768 16384 = (959, 269) ∧
      specified fullHd 32768 16384 = (960, 270) ∧
      ¬ ∀ (g : DisplayGeometry) (xNorm yNorm : UInt16), g.Representable →
        ((g.denormalise xNorm yNorm).1.toInt, (g.denormalise xNorm yNorm).2.toInt)
          = specified g xNorm yNorm := by
  have hcode : fullHd.denormalise 32768 16384 = (959, 269) := by decide
  have hspec : specified fullHd 32768 16384 = (960, 270) := by decide
  refine ⟨representable_fullHd, hcode, hspec, fun h => ?_⟩
  have heq := h fullHd 32768 16384 representable_fullHd
  rw [hcode, hspec] at heq
  exact absurd heq (by decide)

end Rda
