/-
**The conversion, index by index.**

`Rda/Convert.lean` says what the conversion computes: a luma plane row by row and a list of chroma
samples.  The code computes it by loops over indices, on machine words: offsets into the source are
`usize`, the fixed point is `i32`, every read and every write is checked against the length of its
buffer, and a failed check ends the process.  This module embeds the loops.  `none` is a failed
check; arithmetic on words wraps, as it does in a release build.

While no word wraps, the loops read inside the source, write every index of the output once and
leave there exactly the planes of `Rda/Convert.lean` (`Rda.bgraToPlanarIndexed_eq`).

Main definitions:

* `Rda.wrapUsize`, `Rda.wrapI32` — machine words;
* `Rda.validateWord` — the check of the arguments, on words;
* `Rda.lumaRows`, `Rda.chromaRows`, `Rda.bgraToPlanarIndexed` — the loops.

Main results:

* `Rda.lumaWord_eq`, `Rda.chromaWord_eq` — the fixed point stays in range for every pixel;
* `Rda.validateWord_eq_ok`, `Rda.validate_of_validateWord` — where no word wraps the arguments are
  checked as in `Rda/Convert.lean`;
* `Rda.bgraToPlanarIndexed_eq` — **the loops compute the planes**.
-/

import Mathlib.Tactic.Linarith
import Rda.Buffer
import Rda.Convert

set_option relaxedAutoImplicit false
set_option autoImplicit false

namespace Rda

open Buffer (slice forRange grid Agrees)

/-! ### Machine words -/

/-- An unsigned word of 64 bits. -/
def wrapUsize (n : ℕ) : ℕ := n % 2 ^ 64

/-- A signed word of 32 bits. -/
def wrapI32 (v : ℤ) : ℤ := v.bmod (2 ^ 32)

theorem wrapUsize_of_lt {n : ℕ} (h : n < 2 ^ 64) : wrapUsize n = n := Nat.mod_eq_of_lt h

theorem wrapI32_of_bounds {v : ℤ} (hlow : -(2 ^ 31) ≤ v) (hhigh : v < 2 ^ 31) : wrapI32 v = v := by
  unfold wrapI32
  rw [Int.bmod_eq_of_le] <;> omega

/-! ### Fixed point on words -/

/-- Luma before its range is applied, on words. -/
def rawLumaWord (c : Coefficients) (r g b : ℤ) : ℤ :=
  wrapI32 (c.yr * r + c.yg * g + c.yb * b + ROUND) / FIXED_ONE

/-- Converts one RGB triple to luma, on words. -/
def lumaWord (c : Coefficients) (range : ColorRange) (r g b : ℤ) : UInt8 :=
  let y := rawLumaWord c r g b
  match range with
  | .full => clampByte y 0 255
  | .limited => clampByte (wrapI32 (16 + (wrapI32 (y * 219 + 127)).tdiv 255)) 16 235

/-- Converts one RGB triple to a chroma pair, on words. -/
def chromaWord (c : Coefficients) (range : ColorRange) (r g b : ℤ) : UInt8 × UInt8 :=
  let y := rawLumaWord c r g b
  let cb := wrapI32 (wrapI32 (c.cb * (b - y) + ROUND) / FIXED_ONE + 128)
  let cr := wrapI32 (wrapI32 (c.cr * (r - y) + ROUND) / FIXED_ONE + 128)
  match range with
  | .full => (clampByte cb 0 255, clampByte cr 0 255)
  | .limited =>
      (clampByte (wrapI32 (128 + (wrapI32 ((cb - 128) * 224 + 127)).tdiv 255)) 16 240,
        clampByte (wrapI32 (128 + (wrapI32 ((cr - 128) * 224 + 127)).tdiv 255)) 16 240)

/-! ### Checked reads -/

/-- The colours of a pixel, red first. -/
def samplePixelAt (src : List UInt8) (stride x y : ℕ) : Option (ℤ × ℤ × ℤ) := do
  let i := wrapUsize (y * stride + x * 4)
  let r ← src[wrapUsize (i + 2)]?
  let g ← src[wrapUsize (i + 1)]?
  let b ← src[i]?
  return (r.toNat, g.toNat, b.toNat)

/-- Averages the 2×2 block, clamping at the right and bottom edges for odd dimensions. -/
def averageBlockAt (src : List UInt8) (stride width height x y : ℕ) : Option (ℤ × ℤ × ℤ) := do
  let x₁ := min (x + 1) (width - 1)
  let y₁ := min (y + 1) (height - 1)
  let block ← [(x, y), (x₁, y), (x, y₁), (x₁, y₁)].mapM fun p => samplePixelAt src stride p.1 p.2
  return (((block.map fun p => p.1).sum + 2) / 4, ((block.map fun p => p.2.1).sum + 2) / 4,
    ((block.map fun p => p.2.2).sum + 2) / 4)

/-- The pixel a chroma sample is computed from. -/
def chromaPixelAt (src : List UInt8) (stride width height : ℕ) (filter : ChromaFilter)
    (cx cy : ℕ) : Option (ℤ × ℤ × ℤ) :=
  match filter with
  | .nearest => samplePixelAt src stride (cx * 2) (cy * 2)
  | .box => averageBlockAt src stride width height (cx * 2) (cy * 2)

/-! ### The loops -/

/-- Whether a buffer holds a picture of these dimensions, on words. -/
def validateWord (src : List UInt8) (width height stride : ℕ) : Except ConvertError Unit :=
  if width = 0 ∨ height = 0 ∨ width > 16384 ∨ height > 16384 then
    .error (.badDimensions width height)
  else if stride < width * 4 then .error (.badStride stride width)
  else
    let need := wrapUsize (wrapUsize (stride * (height - 1)) + width * 4)
    if src.length < need then .error (.sourceTooSmall need src.length) else .ok ()

/-- Luma at full resolution: the rows of the source are sliced out, then the row of the plane. -/
def lumaRows (src : List UInt8) (width height stride : ℕ) (config : ConvertConfig)
    (plane : List UInt8) : Option (List UInt8) :=
  forRange height (fun y plane =>
    (slice src (wrapUsize (y * stride)) (wrapUsize (y * stride + width * 4))).bind fun row =>
    (slice plane (y * width) ((y + 1) * width)).bind fun _ =>
      forRange width (fun x plane => do
        let r ← row[x * 4 + 2]?
        let g ← row[x * 4 + 1]?
        let b ← row[x * 4]?
        Buffer.write plane (y * width + x)
          (lumaWord (coefficients config.matrix) config.range r.toNat g.toNat b.toNat)) plane) plane

/-- Writes one chroma sample: a pair for NV12, one byte in each plane for I420. -/
def writeChroma (format : PlanarFormat) (chromaW chromaH cx cy : ℕ) (sample : UInt8 × UInt8)
    (plane : List UInt8) : Option (List UInt8) :=
  match format with
  | .nv12 =>
      (Buffer.write plane ((cy * chromaW + cx) * 2) sample.1).bind fun plane =>
        Buffer.write plane ((cy * chromaW + cx) * 2 + 1) sample.2
  | .i420 =>
      (Buffer.write plane (cy * chromaW + cx) sample.1).bind fun plane =>
        Buffer.write plane (chromaW * chromaH + cy * chromaW + cx) sample.2

/-- Chroma at half resolution. -/
def chromaRows (src : List UInt8) (width height stride : ℕ) (format : PlanarFormat)
    (config : ConvertConfig) (plane : List UInt8) : Option (List UInt8) :=
  forRange (chromaExtent height) (fun cy plane =>
    forRange (chromaExtent width) (fun cx plane =>
      (chromaPixelAt src stride width height config.chroma cx cy).bind fun p =>
        writeChroma format (chromaExtent width) (chromaExtent height) cx cy
          (chromaWord (coefficients config.matrix) config.range p.1 p.2.1 p.2.2) plane)
      plane) plane

/-- Converts a BGRA8 buffer to a planar format.  `none` is an access outside a buffer. -/
def bgraToPlanarIndexed (src : List UInt8) (width height stride : ℕ) (format : PlanarFormat)
    (config : ConvertConfig) : Option (Except ConvertError PlanarFrame) :=
  match validateWord src width height stride with
  | .error e => some (.error e)
  | .ok () =>
      let data := List.replicate (format.bufferSize width height) 0
      (lumaRows src width height stride config (data.take (width * height))).bind fun lumas =>
      (chromaRows src width height stride format config (data.drop (width * height))).map
        fun chromas =>
          .ok
            { data := lumas ++ chromas
              width := width
              height := height
              format := format
              lumaStride := width
              chromaStride := match format with
                | .nv12 => chromaExtent width * 2
                | .i420 => chromaExtent width
              config := config }

/-! ### The fixed point stays in range -/

/-- A colour as it is read from a byte. -/
def IsColour (v : ℤ) : Prop := 0 ≤ v ∧ v ≤ 255

theorem isColour_byte (b : UInt8) : IsColour (b.toNat : ℤ) := by
  have h : b.toNat < 256 := b.toNat_lt
  unfold IsColour
  omega

/-- A small quotient that is rounded towards zero is small. -/
theorem tdiv_bounds {a : ℤ} (hlow : -(2 ^ 20) ≤ a) (hhigh : a ≤ 2 ^ 20) :
    -(2 ^ 20) ≤ a.tdiv 255 ∧ a.tdiv 255 ≤ 2 ^ 20 := by
  have h : (a.tdiv 255).natAbs ≤ a.natAbs := Int.natAbs_tdiv_le_natAbs a 255
  omega

/-- One chroma component: neither the weighted difference nor the shifted one leaves the word, and
the component is small. -/
theorem chromaComponent_eq {k d : ℤ} (hk : 0 ≤ k) (hk' : k ≤ 2 ^ 16) (hd : -255 ≤ d)
    (hd' : d ≤ 255) :
    wrapI32 (wrapI32 (k * d + ROUND) / FIXED_ONE + 128) = (k * d + ROUND) / FIXED_ONE + 128 ∧
      -300 ≤ (k * d + ROUND) / FIXED_ONE ∧ (k * d + ROUND) / FIXED_ONE ≤ 300 := by
  have hlow : -(255 * 2 ^ 16) ≤ k * d := by nlinarith
  have hhigh : k * d ≤ 255 * 2 ^ 16 := by nlinarith
  generalize k * d = m at hlow hhigh
  simp only [ROUND, FIXED_ONE]
  rw [wrapI32_of_bounds (v := m + 2 ^ 15) (by omega) (by omega),
    wrapI32_of_bounds (by omega) (by omega)]
  omega

/-- The studio range of a chroma component, on words. -/
theorem limitedChroma_eq {v : ℤ} (hlow : -300 ≤ v) (hhigh : v ≤ 300) :
    wrapI32 (128 + (wrapI32 ((v + 128 - 128) * 224 + 127)).tdiv 255)
      = 128 + ((v + 128 - 128) * 224 + 127).tdiv 255 := by
  have hscaled := @tdiv_bounds ((v + 128 - 128) * 224 + 127) (by omega) (by omega)
  rw [wrapI32_of_bounds (v := (v + 128 - 128) * 224 + 127) (by omega) (by omega),
    wrapI32_of_bounds (by omega) (by omega)]

theorem coefficients_bounds (matrix : ColorMatrix) :
    (0 ≤ (coefficients matrix).cb ∧ (coefficients matrix).cb ≤ 2 ^ 16) ∧
      (0 ≤ (coefficients matrix).cr ∧ (coefficients matrix).cr ≤ 2 ^ 16) := by
  cases matrix <;> decide

section FixedPoint

variable {r g b : ℤ} (matrix : ColorMatrix) (range : ColorRange) (hr : IsColour r)
  (hg : IsColour g) (hb : IsColour b)
include hr hg hb

/-- The weights of luma add up to one, so luma is a byte. -/
theorem rawLuma_bounds : IsColour (rawLuma (coefficients matrix) r g b) := by
  obtain ⟨hr0, hr1⟩ := hr
  obtain ⟨hg0, hg1⟩ := hg
  obtain ⟨hb0, hb1⟩ := hb
  cases matrix with
  | bt709 => simp only [IsColour, rawLuma, coefficients, BT709, ROUND, FIXED_ONE]; omega
  | bt601 => simp only [IsColour, rawLuma, coefficients, BT601, ROUND, FIXED_ONE]; omega

theorem rawLumaWord_eq :
    rawLumaWord (coefficients matrix) r g b = rawLuma (coefficients matrix) r g b := by
  obtain ⟨hr0, hr1⟩ := hr
  obtain ⟨hg0, hg1⟩ := hg
  obtain ⟨hb0, hb1⟩ := hb
  unfold rawLumaWord rawLuma
  rw [wrapI32_of_bounds]
  · cases matrix <;> simp only [coefficients, BT709, BT601, ROUND] <;> omega
  · cases matrix <;> simp only [coefficients, BT709, BT601, ROUND] <;> omega

theorem lumaWord_eq :
    lumaWord (coefficients matrix) range r g b = luma (coefficients matrix) range r g b := by
  obtain ⟨hy0, hy1⟩ := rawLuma_bounds matrix hr hg hb
  unfold lumaWord luma
  rw [rawLumaWord_eq matrix hr hg hb]
  generalize rawLuma (coefficients matrix) r g b = y at hy0 hy1
  cases range with
  | full => rfl
  | limited =>
      have hscaled := @tdiv_bounds (y * 219 + 127) (by omega) (by omega)
      simp only
      rw [wrapI32_of_bounds (v := y * 219 + 127) (by omega) (by omega),
        wrapI32_of_bounds (by omega) (by omega)]

theorem chromaWord_eq :
    chromaWord (coefficients matrix) range r g b = chroma (coefficients matrix) range r g b := by
  obtain ⟨hy0, hy1⟩ := rawLuma_bounds matrix hr hg hb
  obtain ⟨⟨hcb0, hcb1⟩, hcr0, hcr1⟩ := coefficients_bounds matrix
  obtain ⟨hr0, hr1⟩ := hr
  obtain ⟨hb0, hb1⟩ := hb
  unfold chromaWord chroma
  rw [rawLumaWord_eq matrix ⟨hr0, hr1⟩ hg ⟨hb0, hb1⟩]
  generalize rawLuma (coefficients matrix) r g b = y at hy0 hy1
  obtain ⟨hcb, hcblow, hcbhigh⟩ := @chromaComponent_eq _ (b - y) hcb0 hcb1 (by omega) (by omega)
  obtain ⟨hcr, hcrlow, hcrhigh⟩ := @chromaComponent_eq _ (r - y) hcr0 hcr1 (by omega) (by omega)
  simp only [hcb, hcr]
  cases range with
  | full => rfl
  | limited => simp only [limitedChroma_eq hcblow hcbhigh, limitedChroma_eq hcrlow hcrhigh]

end FixedPoint

/-! ### The reads stay in the source -/

theorem getElem?_eq_some_getD {src : List UInt8} {i : ℕ} (h : i < src.length) :
    src[i]? = some (src.getD i 0) := by
  rw [List.getD_eq_getElem?_getD, List.getElem?_eq_getElem h]
  rfl

theorem samplePixelAt_eq {src : List UInt8} {stride x y : ℕ} (hsrc : src.length < 2 ^ 63)
    (h : y * stride + x * 4 + 2 < src.length) :
    samplePixelAt src stride x y = some (samplePixel src stride x y) := by
  simp only [samplePixelAt, samplePixel, byteAt]
  rw [wrapUsize_of_lt (n := y * stride + x * 4) (by omega), wrapUsize_of_lt (by omega),
    wrapUsize_of_lt (by omega), getElem?_eq_some_getD h, getElem?_eq_some_getD (by omega),
    getElem?_eq_some_getD (by omega)]
  rfl

section Accepted

variable {src : List UInt8} {width height stride : ℕ}

/-- The bytes of a pixel lie in the source. -/
theorem pixel_in_source (hok : validate src width height stride = .ok ()) {x y : ℕ}
    (hx : x < width) (hy : y < height) : y * stride + x * 4 + 3 < src.length := by
  obtain ⟨-, -, -, hneed⟩ := validate_eq_ok_iff.1 hok
  have hrow := Buffer.row_start_le stride hy
  omega

theorem row_in_source (hok : validate src width height stride = .ok ()) {y : ℕ}
    (hy : y < height) : y * stride + width * 4 ≤ src.length := by
  obtain ⟨-, -, -, hneed⟩ := validate_eq_ok_iff.1 hok
  have hrow := Buffer.row_start_le stride hy
  omega

variable (hsrc : src.length < 2 ^ 63) (hok : validate src width height stride = .ok ())
include hsrc hok

/-- The block of a chroma sample lies in the source, also where it is cut off at an odd edge. -/
theorem averageBlockAt_eq {x y : ℕ} (hx : x < width) (hy : y < height) :
    averageBlockAt src stride width height x y
      = some (averageBlock src stride width height x y) := by
  have hx₁ : min (x + 1) (width - 1) < width := by omega
  have hy₁ : min (y + 1) (height - 1) < height := by omega
  have hread : ∀ {x y : ℕ}, x < width → y < height →
      samplePixelAt src stride x y = some (samplePixel src stride x y) := fun hx hy =>
    samplePixelAt_eq hsrc (Nat.lt_of_succ_lt (pixel_in_source hok hx hy))
  simp only [averageBlockAt, averageBlock, List.mapM_cons, List.mapM_nil, hread hx hy,
    hread hx₁ hy, hread hx hy₁, hread hx₁ hy₁]
  rfl

end Accepted

/-! ### The check of the arguments -/

/-- A picture that fits its buffer is accepted: the number of bytes it needs is then a word. -/
theorem validateWord_eq_ok {src : List UInt8} {width height stride : ℕ}
    (hsrc : src.length < 2 ^ 63) (hok : validate src width height stride = .ok ()) :
    validateWord src width height stride = .ok () := by
  obtain ⟨⟨hw, hw'⟩, ⟨hh, hh'⟩, hstride, hneed⟩ := validate_eq_ok_iff.1 hok
  unfold validateWord
  rw [if_neg (by omega), if_neg (by omega)]
  simp only
  rw [wrapUsize_of_lt (n := stride * (height - 1)) (by omega), wrapUsize_of_lt (by omega),
    if_neg (by omega)]

/-- What the check promises of the dimensions, whether or not a word wraps. -/
theorem dimensions_of_validateWord {src : List UInt8} {width height stride : ℕ}
    (hok : validateWord src width height stride = .ok ()) :
    (0 < width ∧ width ≤ 16384) ∧ (0 < height ∧ height ≤ 16384) ∧ width * 4 ≤ stride := by
  unfold validateWord at hok
  split at hok
  · cases hok
  · split at hok
    · cases hok
    · omega

/-- Where no word wraps, what is accepted is a picture that fits its buffer. -/
theorem validate_of_validateWord {src : List UInt8} {width height stride : ℕ}
    (hfits : stride * (height - 1) + width * 4 < 2 ^ 64)
    (hok : validateWord src width height stride = .ok ()) :
    validate src width height stride = .ok () := by
  obtain ⟨hw, hh, hstride⟩ := dimensions_of_validateWord hok
  refine validate_eq_ok_iff.2 ⟨hw, hh, hstride, ?_⟩
  unfold validateWord at hok
  rw [if_neg (by omega), if_neg (by omega)] at hok
  simp only at hok
  rw [wrapUsize_of_lt (n := stride * (height - 1)) (by omega), wrapUsize_of_lt hfits] at hok
  split at hok
  · cases hok
  · omega

/-! ### Colours -/

/-- The three colours of a pixel. -/
def IsPixel (p : ℤ × ℤ × ℤ) : Prop := IsColour p.1 ∧ IsColour p.2.1 ∧ IsColour p.2.2

theorem isPixel_samplePixel (src : List UInt8) (stride x y : ℕ) :
    IsPixel (samplePixel src stride x y) :=
  ⟨isColour_byte _, isColour_byte _, isColour_byte _⟩

theorem IsColour.average {a b c d : ℤ} (ha : IsColour a) (hb : IsColour b) (hc : IsColour c)
    (hd : IsColour d) : IsColour (([a, b, c, d].sum + 2) / 4) := by
  obtain ⟨ha0, ha1⟩ := ha
  obtain ⟨hb0, hb1⟩ := hb
  obtain ⟨hc0, hc1⟩ := hc
  obtain ⟨hd0, hd1⟩ := hd
  simp only [IsColour, List.sum_cons, List.sum_nil]
  omega

theorem isPixel_averageBlock (src : List UInt8) (stride width height x y : ℕ) :
    IsPixel (averageBlock src stride width height x y) := by
  have h := isPixel_samplePixel src stride
  exact ⟨(h _ _).1.average (h _ _).1 (h _ _).1 (h _ _).1,
    (h _ _).2.1.average (h _ _).2.1 (h _ _).2.1 (h _ _).2.1,
    (h _ _).2.2.average (h _ _).2.2 (h _ _).2.2 (h _ _).2.2⟩

/-! ### The loops compute the planes -/

/-- The pixel a chroma sample is computed from, without checks. -/
def chromaPixel (src : List UInt8) (stride width height : ℕ) (filter : ChromaFilter)
    (cx cy : ℕ) : ℤ × ℤ × ℤ :=
  match filter with
  | .nearest => samplePixel src stride (cx * 2) (cy * 2)
  | .box => averageBlock src stride width height (cx * 2) (cy * 2)

theorem isPixel_chromaPixel (src : List UInt8) (stride width height : ℕ) (filter : ChromaFilter)
    (cx cy : ℕ) : IsPixel (chromaPixel src stride width height filter cx cy) := by
  cases filter with
  | box => exact isPixel_averageBlock ..
  | nearest => exact isPixel_samplePixel ..

theorem lumaPlane_eq_grid (src : List UInt8) (width height stride : ℕ) (config : ConvertConfig) :
    lumaPlane src width height stride config = grid height width fun y x =>
      luma (coefficients config.matrix) config.range (samplePixel src stride x y).1
        (samplePixel src stride x y).2.1 (samplePixel src stride x y).2.2 :=
  rfl

theorem chromaSamples_eq_grid (src : List UInt8) (width height stride : ℕ)
    (config : ConvertConfig) :
    chromaSamples src width height stride config
      = grid (chromaExtent height) (chromaExtent width) fun cy cx =>
          let p := chromaPixel src stride width height config.chroma cx cy
          chroma (coefficients config.matrix) config.range p.1 p.2.1 p.2.2 := by
  unfold chromaSamples chromaPixel grid
  cases config.chroma <;> rfl

/-- A chroma sample begins inside the picture. -/
theorem two_mul_lt_of_lt_chromaExtent {n extent : ℕ} (h : n < chromaExtent extent) :
    n * 2 < extent := by
  unfold chromaExtent at h
  omega

@[simp] theorem length_chromaPlane (format : PlanarFormat) (samples : List (UInt8 × UInt8)) :
    (chromaPlane format samples).length = samples.length * 2 := by
  cases format with
  | nv12 => simp [chromaPlane, List.length_flatMap]
  | i420 => simp [chromaPlane, Nat.mul_two]

/-- The indices the chroma loop has written after `k` samples. -/
def chromaWritten (format : PlanarFormat) (plane k i : ℕ) : Prop :=
  match format with
  | .nv12 => i < k * 2
  | .i420 => i < k ∨ (plane ≤ i ∧ i < plane + k)

/-- One chroma sample is written where it belongs. -/
theorem writeChroma_step (format : PlanarFormat) {samples : List (UInt8 × UInt8)}
    {sample : UInt8 × UInt8} {chromaW chromaH cx cy : ℕ} {out : List UInt8}
    (hlen : samples.length = chromaW * chromaH)
    (hsample : samples[cy * chromaW + cx]? = some sample)
    (hout : Agrees (chromaPlane format samples) out
      (chromaWritten format (chromaW * chromaH) (cy * chromaW + cx))) :
    ∃ out', writeChroma format chromaW chromaH cx cy sample out = some out' ∧
      Agrees (chromaPlane format samples) out'
        (chromaWritten format (chromaW * chromaH) (cy * chromaW + cx + 1)) := by
  have hlt := (List.getElem?_eq_some_iff.1 hsample).1
  cases format with
  | nv12 =>
      have hpair := fun c hc => @Buffer.getElem?_flatMap_of_length _ _ samples
        (fun s => [s.1, s.2]) 2 (fun _ => rfl) _ sample hsample c hc
      have hfirst : (chromaPlane .nv12 samples)[(cy * chromaW + cx) * 2]? = some sample.1 :=
        hpair 0 (by decide)
      have hsecond : (chromaPlane .nv12 samples)[(cy * chromaW + cx) * 2 + 1]? = some sample.2 :=
        hpair 1 (by decide)
      obtain ⟨out₁, hwrite₁, hout₁⟩ := hout.write (a := sample.1) hfirst
      obtain ⟨out₂, hwrite₂, hout₂⟩ := hout₁.write (a := sample.2) hsecond
      refine ⟨out₂, by simp only [writeChroma, hwrite₁, Option.bind_some, hwrite₂], ?_⟩
      refine hout₂.mono fun i hi => ?_
      simp only [chromaWritten] at hi ⊢
      omega
  | i420 =>
      have hfirst : (chromaPlane .i420 samples)[cy * chromaW + cx]? = some sample.1 := by
        rw [chromaPlane, List.getElem?_append_left (by rw [List.length_map]; exact hlt),
          List.getElem?_map, hsample]
        rfl
      have hsecond : (chromaPlane .i420 samples)[chromaW * chromaH + cy * chromaW + cx]?
          = some sample.2 := by
        rw [chromaPlane, List.getElem?_append_right (by rw [List.length_map, hlen]; omega),
          List.length_map, hlen, Nat.add_assoc, Nat.add_sub_cancel_left, List.getElem?_map,
          hsample]
        rfl
      obtain ⟨out₁, hwrite₁, hout₁⟩ := hout.write hfirst
      obtain ⟨out₂, hwrite₂, hout₂⟩ := hout₁.write hsecond
      refine ⟨out₂, by simp only [writeChroma, hwrite₁, Option.bind_some, hwrite₂], ?_⟩
      refine hout₂.mono fun i hi => ?_
      simp only [chromaWritten] at hi ⊢
      omega

theorem chromaWritten_all (format : PlanarFormat) {plane i : ℕ} (h : i < plane * 2) :
    chromaWritten format plane plane i := by
  cases format with
  | nv12 => exact h
  | i420 => simp only [chromaWritten]; omega

theorem not_chromaWritten_zero (format : PlanarFormat) (plane i : ℕ) :
    ¬ chromaWritten format plane 0 i := by
  cases format <;> simp only [chromaWritten] <;> omega

section Loops

variable {src : List UInt8} {width height stride : ℕ}
  (hsrc : src.length < 2 ^ 63) (hok : validate src width height stride = .ok ())
include hsrc hok

theorem chromaPixelAt_eq (filter : ChromaFilter) {cx cy : ℕ} (hcx : cx < chromaExtent width)
    (hcy : cy < chromaExtent height) :
    chromaPixelAt src stride width height filter cx cy
      = some (chromaPixel src stride width height filter cx cy) := by
  have hx := two_mul_lt_of_lt_chromaExtent hcx
  have hy := two_mul_lt_of_lt_chromaExtent hcy
  cases filter with
  | box => exact averageBlockAt_eq hsrc hok hx hy
  | nearest =>
      exact samplePixelAt_eq hsrc (Nat.lt_of_succ_lt (pixel_in_source hok hx hy))

omit hsrc in
/-- One pixel of the luma loop: the row of the source shows the pixel, and the element written is
the one that belongs there. -/
theorem lumaPixel_step (config : ConvertConfig) {x y : ℕ} (hx : x < width) (hy : y < height)
    {plane : List UInt8}
    (hplane : Agrees (lumaPlane src width height stride config) plane (· < y * width + x)) :
    let row := (src.take (y * stride + width * 4)).drop (y * stride)
    ∃ plane', (do
        let r ← row[x * 4 + 2]?
        let g ← row[x * 4 + 1]?
        let b ← row[x * 4]?
        Buffer.write plane (y * width + x)
          (lumaWord (coefficients config.matrix) config.range r.toNat g.toNat b.toNat))
        = some plane' ∧
      Agrees (lumaPlane src width height stride config) plane' (· < y * width + (x + 1)) := by
  intro row
  have hpixel := pixel_in_source hok hx hy
  have hread : ∀ {j : ℕ}, j < 3 → row[x * 4 + j]? = some (src.getD (y * stride + x * 4 + j) 0) := by
    intro j hj
    rw [Buffer.getElem?_slice src (by omega), ← Nat.add_assoc,
      getElem?_eq_some_getD (by omega)]
  obtain ⟨hr, hg, hb⟩ := isPixel_samplePixel src stride x y
  have hgoal : (lumaPlane src width height stride config)[y * width + x]?
      = some (lumaWord (coefficients config.matrix) config.range
          (samplePixel src stride x y).1 (samplePixel src stride x y).2.1
          (samplePixel src stride x y).2.2) := by
    rw [lumaPlane_eq_grid, Buffer.getElem?_grid _ hy hx, lumaWord_eq _ _ hr hg hb]
  obtain ⟨plane', hwrite, hagrees⟩ := hplane.write hgoal
  refine ⟨plane', ?_, hagrees.mono fun j hj => by omega⟩
  have hzero := @hread 0 (by omega)
  rw [Nat.add_zero] at hzero
  simp only [hread (j := 2) (by omega), hread (j := 1) (by omega), hzero]
  exact hwrite

/-- The luma loop leaves the luma plane. -/
theorem lumaRows_eq (config : ConvertConfig) {plane : List UInt8}
    (hplane : plane.length = height * width) :
    lumaRows src width height stride config plane
      = some (lumaPlane src width height stride config) := by
  have hlen : (lumaPlane src width height stride config).length = height * width :=
    Buffer.length_grid ..
  obtain ⟨out, hout, hagrees⟩ : ∃ out, lumaRows src width height stride config plane = some out ∧
      Agrees (lumaPlane src width height stride config) out (· < height * width) := by
    refine Buffer.forRange_invariant
      (fun y out => Agrees (lumaPlane src width height stride config) out (· < y * width))
      (Agrees.init (hplane.trans hlen.symm) fun i => by omega) fun y hy out hinv => ?_
    have hrow := row_in_source hok hy
    have hfit : (y + 1) * width ≤ out.length := by
      rw [hinv.length, hlen]
      exact Nat.mul_le_mul_right _ hy
    rw [wrapUsize_of_lt (n := y * stride) (by omega), wrapUsize_of_lt (by omega),
      Buffer.slice_of_le (by omega) hrow, Option.bind_some,
      Buffer.slice_of_le (Nat.mul_le_mul_right _ (Nat.le_succ y)) hfit, Option.bind_some,
      Nat.succ_mul]
    exact Buffer.forRange_invariant
      (fun x out => Agrees (lumaPlane src width height stride config) out (· < y * width + x))
      hinv fun x hx out hinv => lumaPixel_step hok config hx hy hinv
  rw [hout, hagrees.eq fun i hi => hlen ▸ hi]

/-- The chroma loop leaves the chroma plane of the format. -/
theorem chromaRows_eq (format : PlanarFormat) (config : ConvertConfig) {plane : List UInt8}
    (hplane : plane.length = chromaExtent width * chromaExtent height * 2) :
    chromaRows src width height stride format config plane
      = some (chromaPlane format (chromaSamples src width height stride config)) := by
  have hsamples : (chromaSamples src width height stride config).length
      = chromaExtent width * chromaExtent height := by
    rw [chromaSamples_eq_grid, Buffer.length_grid, Nat.mul_comm]
  obtain ⟨out, hout, hagrees⟩ : ∃ out,
      chromaRows src width height stride format config plane = some out ∧
      Agrees (chromaPlane format (chromaSamples src width height stride config)) out
        (chromaWritten format (chromaExtent width * chromaExtent height)
          (chromaExtent height * chromaExtent width)) := by
    refine Buffer.forRange_invariant
      (fun cy out => Agrees (chromaPlane format (chromaSamples src width height stride config)) out
        (chromaWritten format (chromaExtent width * chromaExtent height) (cy * chromaExtent width)))
      (Agrees.init ?_ fun i => ?_) fun cy hcy out hinv => ?_
    · rw [hplane, length_chromaPlane, hsamples]
    · rw [Nat.zero_mul]
      exact not_chromaWritten_zero format _ i
    · rw [Nat.succ_mul]
      refine Buffer.forRange_invariant
        (fun cx out => Agrees
          (chromaPlane format (chromaSamples src width height stride config)) out
          (chromaWritten format (chromaExtent width * chromaExtent height)
            (cy * chromaExtent width + cx)))
        hinv fun cx hcx out hinv => ?_
      obtain ⟨hr, hg, hb⟩ := isPixel_chromaPixel src stride width height config.chroma cx cy
      rw [chromaPixelAt_eq hsrc hok _ hcx hcy, Option.bind_some, chromaWord_eq _ _ hr hg hb]
      refine writeChroma_step format hsamples ?_ hinv
      rw [chromaSamples_eq_grid, Buffer.getElem?_grid _ hcy hcx]
  rw [Nat.mul_comm (chromaExtent height)] at hagrees
  rw [hout, hagrees.eq fun i hi => chromaWritten_all format ?_]
  rwa [length_chromaPlane, hsamples] at hi

/-- **The loops compute the planes**: on a picture that fits its buffer, they end without leaving
any buffer. -/
theorem bgraToPlanarIndexed_eq (format : PlanarFormat) (config : ConvertConfig) :
    bgraToPlanarIndexed src width height stride format config
      = some (bgraToPlanar src width height stride format config) := by
  have hword := validateWord_eq_ok hsrc hok
  have hsize : (List.replicate (format.bufferSize width height) (0 : UInt8)).length
      = width * height + chromaExtent width * chromaExtent height * 2 := List.length_replicate
  have hluma : ((List.replicate (format.bufferSize width height) (0 : UInt8)).take
      (width * height)).length = height * width := by
    rw [List.length_take, hsize, Nat.mul_comm height]
    omega
  have hchroma : ((List.replicate (format.bufferSize width height) (0 : UInt8)).drop
      (width * height)).length = chromaExtent width * chromaExtent height * 2 := by
    rw [List.length_drop, hsize]
    omega
  have hlumas := lumaRows_eq hsrc hok config hluma
  have hchromas := chromaRows_eq hsrc hok format config hchroma
  unfold bgraToPlanarIndexed bgraToPlanar
  cases format with
  | nv12 => simp only [hword, hok, hlumas, hchromas, Option.bind_some, Option.map_some]
  | i420 => simp only [hword, hok, hlumas, hchromas, Option.bind_some, Option.map_some]

end Loops

end Rda
