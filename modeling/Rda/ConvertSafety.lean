/-
**The colour conversion stays inside its buffers.**

The conversion checks its arguments once and then indexes without further thought.  The check asks
for `stride * (height - 1) + width * 4` bytes.  On a picture that passes, every read lies in the
source and every write in the output (`Rda/ConvertIndexed.lean`), the two layouts hold the same
samples, and the samples are in the configured range.

The number of bytes is computed on machine words and the multiplication is not checked.  With a
stride near the top of the word the product wraps, the check asks for almost nothing and an empty
buffer passes; the first row that does not fit then ends the process.  So the conversion is safe
exactly where the number of bytes fits in a word.

Main definitions:

* `Rda.ColorRange.lumaBounds`, `Rda.ColorRange.chromaBounds` — the bounds of a range;
* `Rda.SafeConversion` — what a conversion has to guarantee.

Main results:

* `Rda.safeConversion_of_validate` — a picture that fits its buffer is converted safely;
* `Rda.lumaRows_eq_none` — a row that does not fit ends the process;
* `Rda.conversion_safe_iff` — **an accepted picture is converted safely exactly when the bytes it
  needs can be counted in a word**.
-/

import Rda.ConvertIndexed

set_option relaxedAutoImplicit false
set_option autoImplicit false

namespace Rda

open Buffer (slice forRange grid)

/-! ### What a conversion has to guarantee -/

/-- The bounds of a luma sample. -/
def ColorRange.lumaBounds : ColorRange → ℕ × ℕ
  | .full => (0, 255)
  | .limited => (16, 235)

/-- The bounds of a chroma sample. -/
def ColorRange.chromaBounds : ColorRange → ℕ × ℕ
  | .full => (0, 255)
  | .limited => (16, 240)

/-- A byte within bounds. -/
def Within (bounds : ℕ × ℕ) (b : UInt8) : Prop := bounds.1 ≤ b.toNat ∧ b.toNat ≤ bounds.2

/-- Two sources show the same bytes in the first `4 * width` bytes of every row. -/
def SameVisible (src src' : List UInt8) (width height stride : ℕ) : Prop :=
  ∀ y < height, ∀ i < width * 4, src'[y * stride + i]? = src[y * stride + i]?

/-- **What a conversion has to guarantee** of a picture that was accepted.  Nothing is indexed out
of its bounds: every run ends in a frame. -/
structure SafeConversion (src : List UInt8) (width height stride : ℕ) (config : ConvertConfig) :
    Prop where
  /-- There is one list of luma and one of chroma samples, all within the bounds of the range, and
  the frame of either format holds them in its layout and is as long as the format says. -/
  layout : ∃ (lumas : List UInt8) (chromas : List (UInt8 × UInt8)),
    lumas.length = width * height ∧
    chromas.length = chromaExtent width * chromaExtent height ∧
    (∀ b ∈ lumas, Within config.range.lumaBounds b) ∧
    (∀ s ∈ chromas, Within config.range.chromaBounds s.1 ∧ Within config.range.chromaBounds s.2) ∧
    ∀ format, ∃ planar,
      bgraToPlanarIndexed src width height stride format config = some (.ok planar) ∧
      planar.data = lumas ++ chromaPlane format chromas ∧
      planar.data.length = format.bufferSize width height
  /-- What lies behind the pixels of a row, or behind the last row, changes nothing. -/
  visible : ∀ src' : List UInt8, src'.length < 2 ^ 63 →
    validateWord src' width height stride = .ok () → SameVisible src src' width height stride →
    ∀ format, bgraToPlanarIndexed src' width height stride format config
      = bgraToPlanarIndexed src width height stride format config

/-! ### Samples within bounds -/

theorem within_clampByte {low high : ℕ} (hle : low ≤ high) (hhigh : high ≤ 255) (v : ℤ) :
    Within (low, high) (clampByte v low high) := by
  have hlow : (low : ℤ) ≤ max (low : ℤ) (min v high) := le_max_left _ _
  have hmax : max (low : ℤ) (min v high) ≤ high := max_le (by omega) (min_le_right _ _)
  simp only [Within, clampByte, UInt8.toNat_ofNat']
  omega

theorem within_luma (c : Coefficients) (range : ColorRange) (r g b : ℤ) :
    Within range.lumaBounds (luma c range r g b) := by
  cases range with
  | full => exact within_clampByte (by decide) (by decide) _
  | limited => exact within_clampByte (by decide) (by decide) _

theorem within_chroma (c : Coefficients) (range : ColorRange) (r g b : ℤ) :
    Within range.chromaBounds (chroma c range r g b).1 ∧
      Within range.chromaBounds (chroma c range r g b).2 := by
  cases range with
  | full =>
      exact ⟨within_clampByte (by decide) (by decide) _, within_clampByte (by decide) (by decide) _⟩
  | limited =>
      exact ⟨within_clampByte (by decide) (by decide) _, within_clampByte (by decide) (by decide) _⟩

/-! ### Pictures that fit their buffer -/

section Fits

variable {src src' : List UInt8} {width height stride : ℕ}

theorem samplePixel_congr (hsame : SameVisible src src' width height stride) {x y : ℕ}
    (hx : x < width) (hy : y < height) :
    samplePixel src' stride x y = samplePixel src stride x y := by
  have hbyte : ∀ j < 4,
      byteAt src' (y * stride + x * 4 + j) = byteAt src (y * stride + x * 4 + j) := by
    intro j hj
    simp only [byteAt, List.getD_eq_getElem?_getD, Nat.add_assoc,
      hsame y hy (x * 4 + j) (by omega)]
  exact Prod.ext (hbyte 2 (by omega)) (Prod.ext (hbyte 1 (by omega)) (hbyte 0 (by omega)))

theorem chromaPixel_congr (hsame : SameVisible src src' width height stride)
    (filter : ChromaFilter) {cx cy : ℕ} (hcx : cx < chromaExtent width)
    (hcy : cy < chromaExtent height) :
    chromaPixel src' stride width height filter cx cy
      = chromaPixel src stride width height filter cx cy := by
  have hx := two_mul_lt_of_lt_chromaExtent hcx
  have hy := two_mul_lt_of_lt_chromaExtent hcy
  have hx₁ : min (cx * 2 + 1) (width - 1) < width := by omega
  have hy₁ : min (cy * 2 + 1) (height - 1) < height := by omega
  cases filter with
  | nearest => exact samplePixel_congr hsame hx hy
  | box =>
      simp only [chromaPixel, averageBlock, List.map_cons, List.map_nil,
        samplePixel_congr hsame hx hy, samplePixel_congr hsame hx₁ hy,
        samplePixel_congr hsame hx hy₁, samplePixel_congr hsame hx₁ hy₁]

/-- Two accepted sources that show the same pixels are converted to the same frame. -/
theorem bgraToPlanar_congr (hok : validate src width height stride = .ok ())
    (hok' : validate src' width height stride = .ok ())
    (hsame : SameVisible src src' width height stride) (format : PlanarFormat)
    (config : ConvertConfig) :
    bgraToPlanar src' width height stride format config
      = bgraToPlanar src width height stride format config := by
  have hluma : lumaPlane src' width height stride config
      = lumaPlane src width height stride config := by
    rw [lumaPlane_eq_grid, lumaPlane_eq_grid]
    exact Buffer.grid_congr fun y hy x hx => by rw [samplePixel_congr hsame hx hy]
  have hchroma : chromaSamples src' width height stride config
      = chromaSamples src width height stride config := by
    rw [chromaSamples_eq_grid, chromaSamples_eq_grid]
    exact Buffer.grid_congr fun cy hcy cx hcx => by rw [chromaPixel_congr hsame _ hcx hcy]
  simp only [bgraToPlanar, hok, hok', hluma, hchroma]

variable (hsrc : src.length < 2 ^ 63) (hok : validate src width height stride = .ok ())
include hsrc hok

/-- A picture that fits its buffer is converted safely. -/
theorem safeConversion_of_validate (config : ConvertConfig) :
    SafeConversion src width height stride config where
  layout := by
    refine ⟨lumaPlane src width height stride config, chromaSamples src width height stride config,
      ?_, ?_, ?_, ?_, fun format => ?_⟩
    · rw [lumaPlane_eq_grid, Buffer.length_grid, Nat.mul_comm]
    · rw [chromaSamples_eq_grid, Buffer.length_grid, Nat.mul_comm]
    · intro b hb
      rw [lumaPlane_eq_grid, Buffer.mem_grid] at hb
      obtain ⟨y, -, x, -, rfl⟩ := hb
      exact within_luma ..
    · intro s hs
      rw [chromaSamples_eq_grid, Buffer.mem_grid] at hs
      obtain ⟨cy, -, cx, -, rfl⟩ := hs
      exact within_chroma ..
    · rw [bgraToPlanarIndexed_eq hsrc hok]
      simp only [bgraToPlanar, hok]
      refine ⟨_, rfl, rfl, ?_⟩
      rw [List.length_append, length_chromaPlane, lumaPlane_eq_grid, chromaSamples_eq_grid,
        Buffer.length_grid, Buffer.length_grid, Nat.mul_comm height,
        Nat.mul_comm (chromaExtent height)]
      rfl
  visible := by
    intro src' hsrc' hword hsame format
    -- the sources agree up to the end of the last row, so the second one holds the picture too
    obtain ⟨hw, hh, hstride, hneed⟩ := validate_eq_ok_iff.1 hok
    have hok' : validate src' width height stride = .ok () :=
      validate_of_validateWord (by omega) hword
    rw [bgraToPlanarIndexed_eq hsrc hok, bgraToPlanarIndexed_eq hsrc' hok',
      bgraToPlanar_congr hok hok' hsame]

end Fits

/-! ### Pictures whose bytes cannot be counted -/

/-- A row that cannot be sliced out of the source ends the process. -/
theorem lumaRows_eq_none {src : List UInt8} {width height stride y : ℕ} (hy : y < height)
    (hslice : slice src (wrapUsize (y * stride)) (wrapUsize (y * stride + width * 4)) = none)
    (config : ConvertConfig) (plane : List UInt8) :
    lumaRows src width height stride config plane = none := by
  refine Buffer.forRange_eq_none hy (fun plane => ?_) plane
  rw [hslice, Option.bind_none]

/-- Where the bytes cannot be counted, there is a row that cannot be sliced out: the first one that
lies behind the source.  Its end either is behind the source as a word too, or has wrapped while its
start has not. -/
theorem exists_row_outside {src : List UInt8} {width height stride : ℕ}
    (hsrc : src.length < 2 ^ 63) (hstride : stride < 2 ^ 64) (hwidth : width ≤ 16384)
    (hpos : 0 < height) (hover : 2 ^ 64 ≤ stride * (height - 1) + width * 4) :
    ∃ y < height,
      slice src (wrapUsize (y * stride)) (wrapUsize (y * stride + width * 4)) = none := by
  classical
  have hlast : src.length < (height - 1) * stride + width * 4 := by
    rw [Nat.mul_comm]
    omega
  have hex : ∃ y, src.length < y * stride + width * 4 := ⟨_, hlast⟩
  obtain ⟨y, hbehind, hfirst⟩ : ∃ y, src.length < y * stride + width * 4 ∧
      ∀ z < y, z * stride + width * 4 ≤ src.length :=
    ⟨Nat.find hex, Nat.find_spec hex, fun z hz => Nat.not_lt.1 (Nat.find_min hex hz)⟩
  refine ⟨y, ?_, if_neg ?_⟩
  · by_contra hge
    exact absurd hlast (Nat.not_lt.2 (hfirst (height - 1) (by omega)))
  · rintro ⟨hstart, hstop⟩
    rcases Nat.lt_or_ge (y * stride + width * 4) (2 ^ 64) with hlt | hwrap
    · rw [wrapUsize_of_lt hlt] at hstop
      omega
    · -- the row before fits, so this row starts below the top of the word
      have hstep : y * stride < 2 ^ 64 := by
        rcases y with _ | y
        · omega
        · have hprev := hfirst y (Nat.lt_succ_self y)
          rw [Nat.succ_mul] at hwrap ⊢
          rcases y with _ | y
          · omega
          · -- two rows before it would not both fit
            rw [Nat.succ_mul] at hprev hwrap ⊢
            omega
      rw [wrapUsize_of_lt hstep] at hstart
      unfold wrapUsize at hstart
      omega

/-- **An accepted picture is converted safely exactly when the bytes it needs can be counted in a
word.** -/
theorem conversion_safe_iff {src : List UInt8} {width height stride : ℕ} (config : ConvertConfig)
    (hsrc : src.length < 2 ^ 63) (hstride : stride < 2 ^ 64)
    (hok : validateWord src width height stride = .ok ()) :
    SafeConversion src width height stride config ↔
      stride * (height - 1) + width * 4 < 2 ^ 64 := by
  constructor
  · intro hsafe
    by_contra hover
    obtain ⟨hw, hh, -⟩ := dimensions_of_validateWord hok
    obtain ⟨y, hy, hslice⟩ := exists_row_outside hsrc hstride hw.2 hh.1 (Nat.not_lt.1 hover)
    obtain ⟨lumas, chromas, -, -, -, -, hrun⟩ := hsafe.layout
    obtain ⟨planar, hplanar, -⟩ := hrun .nv12
    simp only [bgraToPlanarIndexed, hok, lumaRows_eq_none hy hslice, Option.bind_none] at hplanar
    cases hplanar
  · intro hfits
    exact safeConversion_of_validate hsrc (validate_of_validateWord hfits hok) config

/-- A buffer that stops behind the last pixel of an odd picture with padded rows. -/
theorem conversion_safe_iff_padded :
    SafeConversion (List.replicate 76 0x40) 3 3 32 {} ↔ 32 * (3 - 1) + 3 * 4 < 2 ^ 64 :=
  conversion_safe_iff {} (by decide) (by decide) rfl

/-- **An empty buffer is accepted** with a stride sixteen below the top of the word: two rows of
four pixels then need no bytes at all, and the first row ends the process. -/
theorem conversion_of_empty_buffer :
    validateWord [] 4 2 (2 ^ 64 - 16) = .ok () ∧
      (∀ format config, bgraToPlanarIndexed [] 4 2 (2 ^ 64 - 16) format config = none) ∧
      ¬ ∀ (src : List UInt8) (width height stride : ℕ) (config : ConvertConfig),
        src.length < 2 ^ 63 → stride < 2 ^ 64 → validateWord src width height stride = .ok () →
          SafeConversion src width height stride config := by
  have hok : validateWord [] 4 2 (2 ^ 64 - 16) = .ok () := by decide
  have hrow : slice ([] : List UInt8) (wrapUsize (0 * (2 ^ 64 - 16)))
      (wrapUsize (0 * (2 ^ 64 - 16) + 4 * 4)) = none := by decide
  have hrun : ∀ format config,
      bgraToPlanarIndexed [] 4 2 (2 ^ 64 - 16) format config = none := by
    intro format config
    simp only [bgraToPlanarIndexed, hok, lumaRows_eq_none (by decide : 0 < 2) hrow,
      Option.bind_none]
  refine ⟨hok, hrun, fun h => ?_⟩
  obtain ⟨lumas, chromas, -, -, -, -, hplanar⟩ :=
    (h [] 4 2 (2 ^ 64 - 16) {} (by decide) (by decide) hok).layout
  obtain ⟨planar, heq, -⟩ := hplanar .nv12
  rw [hrun] at heq
  cases heq

end Rda
