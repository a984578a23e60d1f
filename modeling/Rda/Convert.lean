/-
**From captured pixels to what an encoder takes.**

A captured frame is BGRA at the size of the display, and an encoder takes planar 4:2:0 at a size of
its own.  A surface of another size is resampled first, by averaging.  The arithmetic is fixed point
on integers, so that every machine produces the same bytes.

Main definitions:

* `Rda.PlanarFrame`, `Rda.ConvertConfig` — a converted frame and the settings of a conversion;
* `Rda.bgraToPlanar`, `Rda.scaleBgra` — converting and resampling;
* `Rda.convertSurface`, `Rda.convertSurfaceScaled` — the same for a captured surface.

Main results:

* `Rda.validate_eq_ok_iff` — the buffers that are converted;
* `Rda.convertSurfaceScaled_eq_ok` — a converted frame has the size, the layout and the settings
  that were asked for.
-/

import Mathlib.Algebra.Ring.Int.Defs
import Mathlib.Algebra.Ring.Nat
import Rda.Capture

set_option relaxedAutoImplicit false
set_option autoImplicit false

namespace Rda

/-! ### Settings -/

/-- Colour matrix. -/
inductive ColorMatrix
  | bt709 | bt601
  deriving DecidableEq, Repr

/-- Whether luma spans 0–255 or the studio 16–235 range. -/
inductive ColorRange
  | full | limited
  deriving DecidableEq, Repr

/-- How the 2×2 chroma block is reduced. -/
inductive ChromaFilter
  | box | nearest
  deriving DecidableEq, Repr

/-- Conversion settings. -/
structure ConvertConfig where
  matrix : ColorMatrix := .bt709
  range : ColorRange := .full
  chroma : ChromaFilter := .box
  deriving DecidableEq, Repr

/-- Why a conversion failed. -/
inductive ConvertError
  | badDimensions (width height : ℕ)
  | sourceTooSmall (need got : ℕ)
  | badStride (stride width : ℕ)
  | unsupportedFormat (format : PixelFormat)
  deriving DecidableEq, Repr

/-- A pixel format as it is printed. -/
def PixelFormat.text : PixelFormat → String
  | .bgra8 => "Bgra8"
  | .rgba8 => "Rgba8"
  | .nv12 => "Nv12"

/-- The text of the error. -/
def ConvertError.text : ConvertError → String
  | .badDimensions width height => "invalid dimensions " ++ toString width ++ "x" ++ toString height
  | .sourceTooSmall need got =>
      "source buffer is " ++ toString got ++ " bytes, need at least " ++ toString need
  | .badStride stride width =>
      "stride " ++ toString stride ++ " is smaller than one row of " ++ toString width ++ " pixels"
  | .unsupportedFormat format => "unsupported source format " ++ format.text

/-- The planar output layout. -/
inductive PlanarFormat
  | nv12 | i420
  deriving DecidableEq, Repr

/-- Half of an extent, rounded up. -/
def chromaExtent (extent : ℕ) : ℕ := (extent + 1) / 2

/-- Total buffer size for the given dimensions. -/
def PlanarFormat.bufferSize (_ : PlanarFormat) (width height : ℕ) : ℕ :=
  width * height + chromaExtent width * chromaExtent height * 2

/-- A converted frame in planar form, ready for the encoder. -/
structure PlanarFrame where
  data : List UInt8
  width : ℕ
  height : ℕ
  format : PlanarFormat
  lumaStride : ℕ
  chromaStride : ℕ
  config : ConvertConfig
  deriving DecidableEq

/-! ### Fixed-point coefficients -/

/-- The unit of the fixed point. -/
def FIXED_ONE : ℤ := 2 ^ 16

/-- Half of it, for rounding. -/
def ROUND : ℤ := 2 ^ 15

/-- The weights of a colour matrix. -/
structure Coefficients where
  yr : ℤ
  yg : ℤ
  yb : ℤ
  cb : ℤ
  cr : ℤ

def BT709 : Coefficients := ⟨13933, 46871, 4732, 35318, 41615⟩

def BT601 : Coefficients := ⟨19595, 38470, 7471, 36985, 46743⟩

def coefficients : ColorMatrix → Coefficients
  | .bt709 => BT709
  | .bt601 => BT601

/-- A value within bounds, as a byte. -/
def clampByte (value low high : ℤ) : UInt8 := UInt8.ofNat (max low (min value high)).toNat

/-- Luma before its range is applied. -/
def rawLuma (c : Coefficients) (r g b : ℤ) : ℤ :=
  (c.yr * r + c.yg * g + c.yb * b + ROUND) / FIXED_ONE

/-- Converts one RGB triple to luma, in the requested range. -/
def luma (c : Coefficients) (range : ColorRange) (r g b : ℤ) : UInt8 :=
  let y := rawLuma c r g b
  match range with
  | .full => clampByte y 0 255
  | .limited => clampByte (16 + (y * 219 + 127).tdiv 255) 16 235

/-- Converts one RGB triple to a chroma pair, in the requested range. -/
def chroma (c : Coefficients) (range : ColorRange) (r g b : ℤ) : UInt8 × UInt8 :=
  let y := rawLuma c r g b
  let cb := (c.cb * (b - y) + ROUND) / FIXED_ONE + 128
  let cr := (c.cr * (r - y) + ROUND) / FIXED_ONE + 128
  match range with
  | .full => (clampByte cb 0 255, clampByte cr 0 255)
  | .limited =>
      (clampByte (128 + ((cb - 128) * 224 + 127).tdiv 255) 16 240,
        clampByte (128 + ((cr - 128) * 224 + 127).tdiv 255) 16 240)

/-! ### Conversion -/

/-- Whether a buffer holds a picture of these dimensions.  The last row need not be a full
stride. -/
def validate (src : List UInt8) (width height stride : ℕ) : Except ConvertError Unit :=
  if width = 0 ∨ height = 0 ∨ width > 16384 ∨ height > 16384 then
    .error (.badDimensions width height)
  else if stride < width * 4 then .error (.badStride stride width)
  else if src.length < stride * (height - 1) + width * 4 then
    .error (.sourceTooSmall (stride * (height - 1) + width * 4) src.length)
  else .ok ()

/-- The byte at an index. -/
def byteAt (src : List UInt8) (i : ℕ) : ℤ := (src.getD i 0).toNat

/-- The colours of a pixel, red first. -/
def samplePixel (src : List UInt8) (stride x y : ℕ) : ℤ × ℤ × ℤ :=
  let i := y * stride + x * 4
  (byteAt src (i + 2), byteAt src (i + 1), byteAt src i)

/-- Averages the 2×2 block, clamping at the right and bottom edges for odd dimensions. -/
def averageBlock (src : List UInt8) (stride width height x y : ℕ) : ℤ × ℤ × ℤ :=
  let x₁ := min (x + 1) (width - 1)
  let y₁ := min (y + 1) (height - 1)
  let block := [(x, y), (x₁, y), (x, y₁), (x₁, y₁)].map fun p => samplePixel src stride p.1 p.2
  (((block.map fun p => p.1).sum + 2) / 4, ((block.map fun p => p.2.1).sum + 2) / 4,
    ((block.map fun p => p.2.2).sum + 2) / 4)

/-- The luma plane, row by row. -/
def lumaPlane (src : List UInt8) (width height stride : ℕ) (config : ConvertConfig) :
    List UInt8 :=
  (List.range height).flatMap fun y => (List.range width).map fun x =>
    let p := samplePixel src stride x y
    luma (coefficients config.matrix) config.range p.1 p.2.1 p.2.2

/-- The chroma samples, row by row. -/
def chromaSamples (src : List UInt8) (width height stride : ℕ) (config : ConvertConfig) :
    List (UInt8 × UInt8) :=
  (List.range (chromaExtent height)).flatMap fun cy =>
    (List.range (chromaExtent width)).map fun cx =>
      let p := match config.chroma with
        | .nearest => samplePixel src stride (cx * 2) (cy * 2)
        | .box => averageBlock src stride width height (cx * 2) (cy * 2)
      chroma (coefficients config.matrix) config.range p.1 p.2.1 p.2.2

/-- The chroma plane: pairs for NV12, one plane after the other for I420. -/
def chromaPlane (format : PlanarFormat) (samples : List (UInt8 × UInt8)) : List UInt8 :=
  match format with
  | .nv12 => samples.flatMap fun s => [s.1, s.2]
  | .i420 => samples.map Prod.fst ++ samples.map Prod.snd

/-- Converts a BGRA8 buffer to a planar format. -/
def bgraToPlanar (src : List UInt8) (width height stride : ℕ) (format : PlanarFormat)
    (config : ConvertConfig) : Except ConvertError PlanarFrame :=
  match validate src width height stride with
  | .error e => .error e
  | .ok () =>
      .ok
        { data := lumaPlane src width height stride config ++
            chromaPlane format (chromaSamples src width height stride config)
          width := width
          height := height
          format := format
          lumaStride := width
          chromaStride := match format with
            | .nv12 => chromaExtent width * 2
            | .i420 => chromaExtent width
          config := config }

/-! ### Resampling -/

/-- The source indices a destination index covers, always at least one. -/
def boxSpan (index src dst : ℕ) : ℕ × ℕ :=
  let start := index * src / dst
  (start, max (min (((index + 1) * src + dst - 1) / dst) src) (start + 1))

/-- The indices of the pixels of a box that lie in the buffer. -/
def boxPixels (src : List UInt8) (stride : ℕ) (xs ys : ℕ × ℕ) : List ℕ :=
  ((List.range' ys.1 (ys.2 - ys.1)).flatMap fun y =>
    (List.range' xs.1 (xs.2 - xs.1)).map fun x => y * stride + x * 4).filter
      fun i => i + 3 < src.length

/-- The average of one channel over some pixels; zero over none. -/
def boxChannel (src : List UInt8) (pixels : List ℕ) (channel : ℕ) : UInt8 :=
  if pixels.isEmpty then 0
  else UInt8.ofNat ((pixels.map fun i => (src.getD (i + channel) 0).toNat).sum / pixels.length)

/-- Resamples a BGRA image to different dimensions, returning a tightly packed buffer. -/
def scaleBgra (src : List UInt8) (srcWidth srcHeight srcStride dstWidth dstHeight : ℕ) :
    List UInt8 :=
  (List.range dstHeight).flatMap fun dy => (List.range dstWidth).flatMap fun dx =>
    let pixels := boxPixels src srcStride (boxSpan dx srcWidth dstWidth)
      (boxSpan dy srcHeight dstHeight)
    [boxChannel src pixels 0, boxChannel src pixels 1, boxChannel src pixels 2,
      boxChannel src pixels 3]

/-! ### Surfaces -/

/-- Converts a captured frame's surface. -/
def convertSurface (surface : Surface) (width height : ℕ) (format : PlanarFormat)
    (config : ConvertConfig) : Except ConvertError PlanarFrame :=
  match surface with
  | .cpu data stride .bgra8 => bgraToPlanar data width height stride format config
  | .cpu _ _ other => .error (.unsupportedFormat other)
  | .ioSurface _ => .error (.unsupportedFormat .nv12)

/-- Converts a captured surface, resampling it to the target dimensions. -/
def convertSurfaceScaled (surface : Surface) (srcWidth srcHeight dstWidth dstHeight : ℕ)
    (format : PlanarFormat) (config : ConvertConfig) : Except ConvertError PlanarFrame :=
  if (srcWidth, srcHeight) = (dstWidth, dstHeight) then
    convertSurface surface dstWidth dstHeight format config
  else
    match surface with
    | .cpu data stride .bgra8 =>
        bgraToPlanar (scaleBgra data srcWidth srcHeight stride dstWidth dstHeight) dstWidth
          dstHeight (dstWidth * 4) format config
    | .cpu _ _ other => .error (.unsupportedFormat other)
    | .ioSurface _ => .error (.unsupportedFormat .nv12)

/-- The buffers that are converted. -/
theorem validate_eq_ok_iff {src : List UInt8} {width height stride : ℕ} :
    validate src width height stride = .ok () ↔
      (0 < width ∧ width ≤ 16384) ∧ (0 < height ∧ height ≤ 16384) ∧ width * 4 ≤ stride ∧
        stride * (height - 1) + width * 4 ≤ src.length := by
  unfold validate
  split_ifs with hdim hstride hsize
  · simp only [false_iff]
    omega
  · simp only [false_iff]
    omega
  · simp only [false_iff]
    omega
  · simp only [true_iff]
    omega

theorem exists_bgraToPlanar {src : List UInt8} {width height stride : ℕ}
    (h : validate src width height stride = .ok ()) (format : PlanarFormat)
    (config : ConvertConfig) :
    ∃ planar, bgraToPlanar src width height stride format config = .ok planar := by
  unfold bgraToPlanar
  rw [h]
  exact ⟨_, rfl⟩

theorem bgraToPlanar_eq_ok {src : List UInt8} {width height stride : ℕ} {format : PlanarFormat}
    {config : ConvertConfig} {planar : PlanarFrame}
    (h : bgraToPlanar src width height stride format config = .ok planar) :
    planar.width = width ∧ planar.height = height ∧ planar.format = format ∧
      planar.config = config := by
  unfold bgraToPlanar at h
  split at h
  · cases h
  · cases h
    exact ⟨rfl, rfl, rfl, rfl⟩

/-- A converted frame has the size, the layout and the settings that were asked for. -/
theorem convertSurfaceScaled_eq_ok {surface : Surface} {srcWidth srcHeight dstWidth dstHeight : ℕ}
    {format : PlanarFormat} {config : ConvertConfig} {planar : PlanarFrame}
    (h : convertSurfaceScaled surface srcWidth srcHeight dstWidth dstHeight format config
      = .ok planar) :
    planar.width = dstWidth ∧ planar.height = dstHeight ∧ planar.format = format ∧
      planar.config = config := by
  unfold convertSurfaceScaled at h
  split at h
  · unfold convertSurface at h
    split at h
    · exact bgraToPlanar_eq_ok h
    · cases h
    · cases h
  · split at h
    · exact bgraToPlanar_eq_ok h
    · cases h
    · cases h

end Rda
