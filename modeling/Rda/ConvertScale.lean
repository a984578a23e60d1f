/-
**Resampling by boxes is exact.**

A destination pixel averages the source pixels of a box.  The edges of the box come from two
divisions, rounded down on the left and up on the right, so neighbouring boxes overlap rather than
leave a gap, and a box is never empty.  The sums are kept in 32-bit words; at the sizes the ladder
scales to, a box has at most 1025 by 1025 pixels and no sum can leave its word.

`Rda/Convert.lean` resamples with numbers of any size and without checks.  Here are the loops of the
code: sums, indices and the size of the destination are words, arithmetic on them wraps as it does
in a release build, and an access outside a buffer ends the process.  While the bytes of source and
destination can be counted, the loops compute what `Rda/Convert.lean` says
(`Rda.scaleBgraWord_eq`), and `Rda.ExactScaling` says what that is, channel by channel, without
speaking of a loop.

Main definitions:

* `Rda.BoxSums`, `Rda.scaleBgraWord` — the running sums, and resampling on words;
* `Rda.boxBytes` — the bytes of one channel in a box;
* `Rda.ExactScaling` — what resampling has to return.

Main results:

* `Rda.boxSpan_bounds`, `Rda.exists_boxSpan_covering` — boxes are not empty, lie in the source and
  leave no gap;
* `Rda.boxSums_eq` — the words hold the sums;
* `Rda.scaleBgraWord_eq` — the loops compute the resampled image;
* `Rda.scale_exact` — **resampling a source with at least one pixel is exact**.
-/

import Mathlib.Algebra.Group.Action.Defs
import Mathlib.Algebra.Order.BigOperators.Group.List
import Mathlib.Algebra.Order.Group.Nat
import Rda.Buffer
import Rda.Convert
import Rda.ConvertIndexed

set_option relaxedAutoImplicit false
set_option autoImplicit false

namespace Rda

open Buffer (forRange Agrees)

/-! ### The loops -/

/-- The running sums of one box: the four channels, and how many pixels were added. -/
structure BoxSums where
  b : UInt32
  g : UInt32
  r : UInt32
  a : UInt32
  n : UInt32

/-- A channel of the sums, in the order of the bytes of a pixel. -/
def BoxSums.channel (s : BoxSums) : ℕ → UInt32
  | 0 => s.b
  | 1 => s.g
  | 2 => s.r
  | _ => s.a

/-- Adds the pixel at an index.  `none` is a read outside the source. -/
def BoxSums.add (src : List UInt8) (s : BoxSums) (i : ℕ) : Option BoxSums := do
  let b ← src[i]?
  let g ← src[wrapUsize (i + 1)]?
  let r ← src[wrapUsize (i + 2)]?
  let a ← src[wrapUsize (i + 3)]?
  return ⟨s.b + b.toUInt32, s.g + g.toUInt32, s.r + r.toUInt32, s.a + a.toUInt32, s.n + 1⟩

/-- The indices of the pixels of a box, those that are skipped left out. -/
def boxPixelsWord (src : List UInt8) (stride : ℕ) (xs ys : ℕ × ℕ) : List ℕ :=
  ((List.range' ys.1 (ys.2 - ys.1)).flatMap fun y =>
    (List.range' xs.1 (xs.2 - xs.1)).map fun x => wrapUsize (wrapUsize (y * stride) + x * 4)).filter
      fun i => wrapUsize (i + 3) < src.length

/-- The sums over some pixels. -/
def boxSums (src : List UInt8) (pixels : List ℕ) : Option BoxSums :=
  pixels.foldlM (BoxSums.add src) ⟨0, 0, 0, 0, 0⟩

/-- Writes the four averages, or leaves the zeros the pixel was initialised with. -/
def BoxSums.writeTo (s : BoxSums) (o : ℕ) (out : List UInt8) : Option (List UInt8) :=
  if s.n = 0 then some out
  else forRange 4 (fun channel out =>
    Buffer.write out (wrapUsize (o + channel)) (s.channel channel / s.n).toUInt8) out

/-- Resamples a BGRA image to different dimensions, on words.  The edges of the boxes are computed
from products of two extents of 32 bits, which are words of 64 bits as they are. -/
def scaleBgraWord (src : List UInt8) (srcWidth srcHeight srcStride dstWidth dstHeight : ℕ) :
    Option (List UInt8) :=
  let size := wrapUsize (wrapUsize (dstWidth * dstHeight) * 4)
  -- No vector is longer than that.
  if 2 ^ 63 ≤ size then none
  else
    forRange dstHeight (fun dy => forRange dstWidth fun dx out =>
      (boxSums src (boxPixelsWord src srcStride (boxSpan dx srcWidth dstWidth)
        (boxSpan dy srcHeight dstHeight))).bind fun s =>
          s.writeTo (wrapUsize (wrapUsize (wrapUsize (dy * dstWidth) + dx) * 4)) out)
      (List.replicate size 0)

/-! ### What resampling has to return -/

/-- The bytes of one channel in a box, row by row. -/
def boxBytes (src : List UInt8) (stride : ℕ) (xs ys : ℕ × ℕ) (channel : ℕ) : List ℕ :=
  (List.range' ys.1 (ys.2 - ys.1)).flatMap fun y =>
    (List.range' xs.1 (xs.2 - xs.1)).map fun x =>
      (src.getD (y * stride + x * 4 + channel) 0).toNat

/-- Indices from `span.1` up to `span.2`: at least one, and all below `extent`. -/
def IsSpan (span : ℕ × ℕ) (extent : ℕ) : Prop := span.1 < span.2 ∧ span.2 ≤ extent

/-- The byte of a tightly packed image. -/
def packedIndex (width y x channel : ℕ) : ℕ := (y * width + x) * 4 + channel

/-- **What resampling has to return.** -/
structure ExactScaling (src : List UInt8) (srcWidth srcHeight stride dstWidth dstHeight : ℕ)
    (out : List UInt8) : Prop where
  /-- Every destination pixel is, channel by channel, the floor of the average over a box in the
  source, whose sum is a word; the boxes leave no pixel out. -/
  box : ∃ xs ys : ℕ → ℕ × ℕ,
    (∀ dx < dstWidth, IsSpan (xs dx) srcWidth) ∧ (∀ dy < dstHeight, IsSpan (ys dy) srcHeight) ∧
    (∀ x < srcWidth, ∀ y < srcHeight, ∃ dx < dstWidth, ∃ dy < dstHeight,
      ((xs dx).1 ≤ x ∧ x < (xs dx).2) ∧ ((ys dy).1 ≤ y ∧ y < (ys dy).2)) ∧
    ∀ dy < dstHeight, ∀ dx < dstWidth, ∀ channel < 4,
      (boxBytes src stride (xs dx) (ys dy) channel).sum < 2 ^ 32 ∧
      ∃ b : UInt8, out[packedIndex dstWidth dy dx channel]? = some b ∧
        b.toNat = (boxBytes src stride (xs dx) (ys dy) channel).sum
          / (boxBytes src stride (xs dx) (ys dy) channel).length
  /-- At equal sizes every visible byte is copied. -/
  identity : srcWidth = dstWidth → srcHeight = dstHeight →
    ∀ y < srcHeight, ∀ x < srcWidth, ∀ channel < 4,
      out[packedIndex dstWidth y x channel]? = src[y * stride + x * 4 + channel]?
  /-- A source of one colour gives that colour everywhere. -/
  solid : ∀ colour : ℕ → UInt8,
    (∀ y < srcHeight, ∀ x < srcWidth, ∀ channel < 4,
      src[y * stride + x * 4 + channel]? = some (colour channel)) →
    ∀ dy < dstHeight, ∀ dx < dstWidth, ∀ channel < 4,
      out[packedIndex dstWidth dy dx channel]? = some (colour channel)

/-! ### The edges of the boxes -/

/-- A box begins in the source, ends behind its beginning and does not reach past the source. -/
theorem boxSpan_bounds {index src dst : ℕ} (hsrc : 0 < src) (hindex : index < dst) :
    IsSpan (boxSpan index src dst) src := by
  have hstart : index * src / dst < src :=
    Nat.div_lt_of_lt_mul (Nat.mul_lt_mul_of_pos_right hindex hsrc)
  simp only [IsSpan, boxSpan]
  omega

/-- The right edge before it is cut off: rounded up. -/
theorem boxSpan_snd {index src dst : ℕ} (hsrc : 0 < src) (hindex : index < dst) :
    (boxSpan index src dst).2 = min (((index + 1) * src + dst - 1) / dst) src := by
  have hstart : index * src / dst < src :=
    Nat.div_lt_of_lt_mul (Nat.mul_lt_mul_of_pos_right hindex hsrc)
  have hceil : index * src / dst + 1 ≤ ((index + 1) * src + dst - 1) / dst := by
    rw [← Nat.add_div_right _ (by omega)]
    refine Nat.div_le_div_right ?_
    rw [Nat.succ_mul]
    omega
  simp only [boxSpan]
  omega

/-- **The boxes leave no gap.**  The last box that begins at or before an index reaches past it. -/
theorem exists_boxSpan_covering {x src dst : ℕ} (hx : x < src) (hdst : 0 < dst) :
    ∃ index < dst, (boxSpan index src dst).1 ≤ x ∧ x < (boxSpan index src dst).2 := by
  have hsrc : 0 < src := by omega
  have hpos : 0 < (x + 1) * dst := Nat.mul_pos (Nat.succ_pos x) hdst
  have hmax : (x + 1) * dst ≤ src * dst := Nat.mul_le_mul_right _ hx
  -- the box whose left edge, before rounding, is the last one below `x + 1`
  have hle := Nat.div_mul_le_self ((x + 1) * dst - 1) src
  have hlt := Nat.lt_div_mul_add (a := (x + 1) * dst - 1) hsrc
  have hindex : ((x + 1) * dst - 1) / src < dst := Nat.div_lt_of_lt_mul (by omega)
  generalize ((x + 1) * dst - 1) / src = index at hle hlt hindex
  refine ⟨index, hindex, ?_, ?_⟩
  · have hstart : index * src / dst < x + 1 := by
      refine Nat.div_lt_of_lt_mul ?_
      rw [Nat.mul_comm dst]
      omega
    exact Nat.le_of_lt_succ hstart
  · have hend : x + 1 ≤ ((index + 1) * src + dst - 1) / dst := by
      rw [Nat.le_div_iff_mul_le hdst, Nat.succ_mul index]
      omega
    rw [boxSpan_snd hsrc hindex, Nat.lt_min]
    exact ⟨hend, hx⟩

/-- A box of a source up to 16384 wide, scaled to at least sixteen, is at most 1025 wide. -/
theorem boxSpan_width_le {index src dst : ℕ} (hsrc : 0 < src) (hsrc' : src ≤ 16384)
    (hdst : 16 ≤ dst) (hindex : index < dst) :
    (boxSpan index src dst).2 - (boxSpan index src dst).1 ≤ 1025 := by
  have hend : (boxSpan index src dst).2 ≤ ((index + 1) * src + dst - 1) / dst := by
    rw [boxSpan_snd hsrc hindex]
    exact min_le_left _ _
  have hdst0 : 0 < dst := by omega
  have hleft := Nat.lt_div_mul_add (a := index * src) hdst0
  have hright := Nat.div_mul_le_self ((index + 1) * src + dst - 1) dst
  have hstart : (boxSpan index src dst).1 = index * src / dst := rfl
  rw [Nat.succ_mul] at hright hend
  rw [hstart]
  generalize (index * src + src + dst - 1) / dst = stop at hend hright
  generalize index * src / dst = start at hleft
  by_contra hwide
  -- then the source would hold more than 1024 times sixteen pixels
  have hmul : (start + 1026) * dst ≤ stop * dst := Nat.mul_le_mul_right _ (by omega)
  have hsixteen : 1024 * 16 ≤ 1024 * dst := Nat.mul_le_mul_left _ hdst
  rw [Nat.add_mul] at hmul
  omega

/-! ### The words hold the sums -/

/-- Adding a word that fits. -/
theorem toNat_add_of_lt {v w : UInt32} (h : v.toNat + w.toNat < 2 ^ 32) :
    (v + w).toNat = v.toNat + w.toNat := by
  rw [UInt32.toNat_add]
  exact Nat.mod_eq_of_lt h

/-- A pixel that lies in the source is added. -/
theorem BoxSums.add_eq_some {src : List UInt8} (hsrc : src.length < 2 ^ 63) (s : BoxSums) {i : ℕ}
    (hi : i + 3 < src.length) :
    ∃ t, s.add src i = some t ∧ t.n = s.n + 1 ∧
      ∀ channel < 4,
        t.channel channel = s.channel channel + (src.getD (i + channel) 0).toUInt32 := by
  refine ⟨⟨s.b + (src.getD i 0).toUInt32, s.g + (src.getD (i + 1) 0).toUInt32,
    s.r + (src.getD (i + 2) 0).toUInt32, s.a + (src.getD (i + 3) 0).toUInt32, s.n + 1⟩, ?_, rfl, ?_⟩
  · simp only [BoxSums.add]
    rw [wrapUsize_of_lt (by omega), wrapUsize_of_lt (by omega), wrapUsize_of_lt (by omega),
      getElem?_eq_some_getD (by omega), getElem?_eq_some_getD (by omega),
      getElem?_eq_some_getD (by omega), getElem?_eq_some_getD hi]
    rfl
  · intro channel hc
    rcases channel with _ | _ | _ | _ | channel
    · rfl
    · rfl
    · rfl
    · rfl
    · omega

/-- A channel sum grows by at most 255 a pixel, so it stays exact while that bound is a word. -/
theorem foldlM_add {src : List UInt8} (hsrc : src.length < 2 ^ 63) {pixels : List ℕ}
    (hpixels : ∀ i ∈ pixels, i + 3 < src.length) (s : BoxSums)
    (hbound : ∀ channel < 4, (s.channel channel).toNat + 255 * pixels.length < 2 ^ 32)
    (hcount : s.n.toNat + pixels.length < 2 ^ 32) :
    ∃ t, pixels.foldlM (BoxSums.add src) s = some t ∧ t.n.toNat = s.n.toNat + pixels.length ∧
      ∀ channel < 4, (t.channel channel).toNat = (s.channel channel).toNat
        + (pixels.map fun i => (src.getD (i + channel) 0).toNat).sum := by
  induction pixels generalizing s with
  | nil => exact ⟨s, rfl, rfl, fun channel hc => rfl⟩
  | cons i pixels ih =>
      simp only [List.length_cons] at hbound hcount
      obtain ⟨t, hadd, hn, hchannel⟩ := s.add_eq_some hsrc (hpixels i List.mem_cons_self)
      have hcount₁ : t.n.toNat = s.n.toNat + 1 := by
        rw [hn]
        exact toNat_add_of_lt (show s.n.toNat + 1 < 2 ^ 32 by omega)
      have hchannel₁ : ∀ channel < 4, (t.channel channel).toNat
          = (s.channel channel).toNat + (src.getD (i + channel) 0).toNat := by
        intro channel hc
        have hbyte : (src.getD (i + channel) 0).toNat ≤ 255 :=
          Nat.le_of_lt_succ (src.getD (i + channel) 0).toNat_lt
        have hroom := hbound channel hc
        rw [hchannel channel hc, toNat_add_of_lt, UInt8.toNat_toUInt32]
        rw [UInt8.toNat_toUInt32]
        omega
      obtain ⟨u, hfold, hun, huchannel⟩ := ih (fun j hj => hpixels j (List.mem_cons_of_mem i hj)) t
        (fun channel hc => by
          have hbyte : (src.getD (i + channel) 0).toNat ≤ 255 :=
            Nat.le_of_lt_succ (src.getD (i + channel) 0).toNat_lt
          have hroom := hbound channel hc
          rw [hchannel₁ channel hc]
          omega)
        (by omega)
      refine ⟨u, ?_, ?_, ?_⟩
      · rw [List.foldlM_cons, hadd]
        exact hfold
      · rw [hun, hcount₁, List.length_cons]
        omega
      · intro channel hc
        rw [huchannel channel hc, hchannel₁ channel hc, List.map_cons, List.sum_cons,
          Nat.add_assoc]

/-- **The words hold the sums**, over any box whose bytes could not fill a word. -/
theorem boxSums_eq {src : List UInt8} (hsrc : src.length < 2 ^ 63) {pixels : List ℕ}
    (hpixels : ∀ i ∈ pixels, i + 3 < src.length) (hbound : 255 * pixels.length < 2 ^ 32) :
    ∃ s, boxSums src pixels = some s ∧ s.n.toNat = pixels.length ∧
      ∀ channel < 4, (s.channel channel).toNat
        = (pixels.map fun i => (src.getD (i + channel) 0).toNat).sum := by
  have hzero : ∀ channel, ((⟨0, 0, 0, 0, 0⟩ : BoxSums).channel channel).toNat = 0 := by
    rintro (_ | _ | _ | channel) <;> rfl
  obtain ⟨s, hs, hn, hsum⟩ := foldlM_add hsrc hpixels ⟨0, 0, 0, 0, 0⟩
    (fun channel hc => by rw [hzero]; omega) (by simp only [UInt32.toNat_zero]; omega)
  refine ⟨s, hs, hn.trans (Nat.zero_add _), fun channel hc => ?_⟩
  rw [hsum channel hc, hzero, Nat.zero_add]

/-- The averages of the words are those of the sums. -/
theorem boxSums_average {src : List UInt8} (hsrc : src.length < 2 ^ 63) {pixels : List ℕ}
    (hpixels : ∀ i ∈ pixels, i + 3 < src.length) (hne : pixels ≠ [])
    (hbound : 255 * pixels.length < 2 ^ 32) :
    ∃ s, boxSums src pixels = some s ∧ s.n ≠ 0 ∧
      ∀ channel < 4, (s.channel channel / s.n).toUInt8 = boxChannel src pixels channel := by
  obtain ⟨s, hs, hn, hsum⟩ := boxSums_eq hsrc hpixels hbound
  refine ⟨s, hs, ?_, fun channel hc => ?_⟩
  · intro hzero
    rw [hzero] at hn
    exact hne (List.length_eq_zero_iff.1 hn.symm)
  · rw [← UInt8.toNat_inj, UInt32.toNat_toUInt8, UInt32.toNat_div, hsum channel hc, hn, boxChannel,
      if_neg (by simpa using hne), UInt8.toNat_ofNat']

/-- A sum of bytes. -/
theorem sum_bytes_le (src : List UInt8) (pixels : List ℕ) (channel : ℕ) :
    (pixels.map fun i => (src.getD (i + channel) 0).toNat).sum ≤ pixels.length * 255 := by
  rw [← smul_eq_mul, ← List.length_map (fun i => (src.getD (i + channel) 0).toNat)]
  refine List.sum_le_card_nsmul _ _ fun v hv => ?_
  obtain ⟨i, -, rfl⟩ := List.mem_map.1 hv
  exact Nat.le_of_lt_succ (UInt8.toNat_lt _)

/-! ### The pixels of a box -/

/-- The number of bytes of one channel in a box. -/
theorem length_boxBytes (src : List UInt8) (stride : ℕ) (xs ys : ℕ × ℕ) (channel : ℕ) :
    (boxBytes src stride xs ys channel).length = (ys.2 - ys.1) * (xs.2 - xs.1) := by
  simp [boxBytes, List.length_flatMap, smul_eq_mul]

theorem mem_boxBytes {src : List UInt8} {stride : ℕ} {xs ys : ℕ × ℕ} {channel v : ℕ} :
    v ∈ boxBytes src stride xs ys channel ↔ ∃ y, (ys.1 ≤ y ∧ y < ys.2) ∧
      ∃ x, (xs.1 ≤ x ∧ x < xs.2) ∧ (src.getD (y * stride + x * 4 + channel) 0).toNat = v := by
  have hrange : ∀ (span : ℕ × ℕ) (i : ℕ),
      span.1 ≤ i ∧ i < span.1 + (span.2 - span.1) ↔ span.1 ≤ i ∧ i < span.2 := by
    intro span i
    omega
  simp only [boxBytes, List.mem_flatMap, List.mem_map, List.mem_range'_1, hrange]

/-- A pixel that is not skipped lies in the source. -/
theorem lt_of_mem_boxPixels {src : List UInt8} {stride : ℕ} {xs ys : ℕ × ℕ} {i : ℕ}
    (hi : i ∈ boxPixels src stride xs ys) : i + 3 < src.length :=
  of_decide_eq_true (List.mem_filter.1 hi).2

section Source

variable {src : List UInt8} {srcWidth srcHeight stride : ℕ}
  (hbytes : stride * (srcHeight - 1) + srcWidth * 4 ≤ src.length)
include hbytes

/-- The bytes of a pixel of the picture lie in the source. -/
theorem sourcePixel_lt {x y : ℕ} (hx : x < srcWidth) (hy : y < srcHeight) :
    y * stride + x * 4 + 3 < src.length := by
  have hrow := Buffer.row_start_le stride hy
  omega

/-- No pixel of a box is skipped. -/
theorem boxPixels_eq {xs ys : ℕ × ℕ} (hxs : IsSpan xs srcWidth) (hys : IsSpan ys srcHeight) :
    boxPixels src stride xs ys = (List.range' ys.1 (ys.2 - ys.1)).flatMap fun y =>
      (List.range' xs.1 (xs.2 - xs.1)).map fun x => y * stride + x * 4 := by
  rw [boxPixels, List.filter_eq_self]
  intro i hi
  simp only [List.mem_flatMap, List.mem_map, List.mem_range'_1] at hi
  obtain ⟨y, hy, x, hx, rfl⟩ := hi
  obtain ⟨hxs₁, hxs₂⟩ := hxs
  obtain ⟨hys₁, hys₂⟩ := hys
  exact decide_eq_true (sourcePixel_lt hbytes (by omega) (by omega))

/-- No index of a pixel of a box wraps. -/
theorem boxPixelsWord_eq (hsrc : src.length < 2 ^ 63) {xs ys : ℕ × ℕ} (hxs : IsSpan xs srcWidth)
    (hys : IsSpan ys srcHeight) :
    boxPixelsWord src stride xs ys = boxPixels src stride xs ys := by
  obtain ⟨hxs₁, hxs₂⟩ := hxs
  obtain ⟨hys₁, hys₂⟩ := hys
  have hindices : ((List.range' ys.1 (ys.2 - ys.1)).flatMap fun y =>
      (List.range' xs.1 (xs.2 - xs.1)).map fun x => wrapUsize (wrapUsize (y * stride) + x * 4))
        = (List.range' ys.1 (ys.2 - ys.1)).flatMap fun y =>
          (List.range' xs.1 (xs.2 - xs.1)).map fun x => y * stride + x * 4 := by
    refine List.flatMap_congr fun y hy => List.map_congr_left fun x hx => ?_
    rw [List.mem_range'_1] at hy hx
    have hpixel := sourcePixel_lt hbytes (x := x) (y := y) (by omega) (by omega)
    rw [wrapUsize_of_lt (n := y * stride) (by omega), wrapUsize_of_lt (by omega)]
  rw [boxPixelsWord, hindices, boxPixels]
  refine List.filter_congr fun i hi => ?_
  simp only [List.mem_flatMap, List.mem_map, List.mem_range'_1] at hi
  obtain ⟨y, hy, x, hx, rfl⟩ := hi
  have hpixel := sourcePixel_lt hbytes (x := x) (y := y) (by omega) (by omega)
  rw [wrapUsize_of_lt (by omega)]

theorem map_boxPixels {xs ys : ℕ × ℕ} (hxs : IsSpan xs srcWidth) (hys : IsSpan ys srcHeight)
    (channel : ℕ) :
    (boxPixels src stride xs ys).map (fun i => (src.getD (i + channel) 0).toNat)
      = boxBytes src stride xs ys channel := by
  rw [boxPixels_eq hbytes hxs hys, List.map_flatMap]
  simp only [boxBytes, List.map_map, Function.comp_def]

omit hbytes in
/-- The number of bytes of a box at the sizes the ladder scales to. -/
theorem length_boxBytes_le {dstWidth dstHeight dx dy : ℕ}
    (hw : 0 < srcWidth ∧ srcWidth ≤ 16384) (hh : 0 < srcHeight ∧ srcHeight ≤ 16384)
    (hdw : 16 ≤ dstWidth) (hdh : 16 ≤ dstHeight) (hdx : dx < dstWidth) (hdy : dy < dstHeight)
    (channel : ℕ) :
    (boxBytes src stride (boxSpan dx srcWidth dstWidth) (boxSpan dy srcHeight dstHeight)
      channel).length ≤ 1025 * 1025 := by
  rw [length_boxBytes]
  exact Nat.mul_le_mul (boxSpan_width_le hh.1 hh.2 hdh hdy) (boxSpan_width_le hw.1 hw.2 hdw hdx)

/-- The number of pixels of a box: at least one, and not more than a word can count. -/
theorem length_boxPixels_bounds {dstWidth dstHeight dx dy : ℕ}
    (hw : 0 < srcWidth ∧ srcWidth ≤ 16384) (hh : 0 < srcHeight ∧ srcHeight ≤ 16384)
    (hdw : 16 ≤ dstWidth) (hdh : 16 ≤ dstHeight) (hdx : dx < dstWidth) (hdy : dy < dstHeight) :
    0 < (boxPixels src stride (boxSpan dx srcWidth dstWidth)
        (boxSpan dy srcHeight dstHeight)).length ∧
      (boxPixels src stride (boxSpan dx srcWidth dstWidth)
        (boxSpan dy srcHeight dstHeight)).length ≤ 1025 * 1025 := by
  have hxs := boxSpan_bounds hw.1 hdx
  have hys := boxSpan_bounds hh.1 hdy
  have hlen := congrArg List.length (map_boxPixels hbytes hxs hys 0)
  rw [List.length_map] at hlen
  rw [hlen]
  refine ⟨?_, length_boxBytes_le hw hh hdw hdh hdx hdy 0⟩
  rw [length_boxBytes]
  exact Nat.mul_pos (Nat.sub_pos_of_lt hys.1) (Nat.sub_pos_of_lt hxs.1)

end Source

/-! ### The resampled image -/

/-- The bytes of the resampled image, pixel by pixel. -/
theorem getElem?_scaleBgra (src : List UInt8) (srcWidth srcHeight stride : ℕ)
    {dstWidth dstHeight dx dy channel : ℕ} (hdx : dx < dstWidth) (hdy : dy < dstHeight)
    (hc : channel < 4) :
    (scaleBgra src srcWidth srcHeight stride dstWidth dstHeight)[
        packedIndex dstWidth dy dx channel]?
      = some (boxChannel src (boxPixels src stride (boxSpan dx srcWidth dstWidth)
          (boxSpan dy srcHeight dstHeight)) channel) := by
  rw [scaleBgra, ← Buffer.flatMap_grid dstHeight dstWidth (fun dy dx =>
      boxPixels src stride (boxSpan dx srcWidth dstWidth) (boxSpan dy srcHeight dstHeight))
      fun pixels => [boxChannel src pixels 0, boxChannel src pixels 1, boxChannel src pixels 2,
        boxChannel src pixels 3], packedIndex,
    Buffer.getElem?_flatMap_of_length (n := 4) (fun _ => rfl) (Buffer.getElem?_grid _ hdy hdx) hc]
  rcases channel with _ | _ | _ | _ | channel
  · rfl
  · rfl
  · rfl
  · rfl
  · omega

@[simp] theorem length_scaleBgra (src : List UInt8)
    (srcWidth srcHeight stride dstWidth dstHeight : ℕ) :
    (scaleBgra src srcWidth srcHeight stride dstWidth dstHeight).length
      = dstWidth * dstHeight * 4 := by
  simp [scaleBgra, List.length_flatMap, Nat.mul_assoc, Nat.mul_left_comm]

/-- The four bytes of a pixel are written where they belong. -/
theorem BoxSums.writeTo_step {goal out : List UInt8} {s : BoxSums} (hn : s.n ≠ 0) {o : ℕ}
    (ho : o + 4 < 2 ^ 64)
    (hgoal : ∀ channel < 4, goal[o + channel]? = some (s.channel channel / s.n).toUInt8)
    (hout : Agrees goal out (· < o)) :
    ∃ out', s.writeTo o out = some out' ∧ Agrees goal out' (· < o + 4) := by
  rw [BoxSums.writeTo, if_neg hn]
  refine Buffer.forRange_invariant (fun channel out => Agrees goal out (· < o + channel)) hout ?_
  intro channel hc out hout
  obtain ⟨out', hwrite, hout'⟩ := hout.write (hgoal channel hc)
  rw [wrapUsize_of_lt (by omega)]
  exact ⟨out', hwrite, hout'.mono fun i hi => by omega⟩

section Source

variable {src : List UInt8} {srcWidth srcHeight stride dstWidth dstHeight : ℕ}
  (hbytes : stride * (srcHeight - 1) + srcWidth * 4 ≤ src.length)
  (hw : 0 < srcWidth ∧ srcWidth ≤ 16384) (hh : 0 < srcHeight ∧ srcHeight ≤ 16384)
  (hdw : 16 ≤ dstWidth) (hdh : 16 ≤ dstHeight)
include hbytes hw hh hdw hdh

/-- One pixel of the destination: its four bytes are written where they belong. -/
theorem scalePixel_step (hsrc : src.length < 2 ^ 63) (hdst : dstWidth * dstHeight * 4 < 2 ^ 63)
    {dx dy : ℕ} (hdx : dx < dstWidth) (hdy : dy < dstHeight) {out : List UInt8}
    (hout : Agrees (scaleBgra src srcWidth srcHeight stride dstWidth dstHeight) out
      (· < (dy * dstWidth + dx) * 4)) :
    ∃ out', ((boxSums src (boxPixelsWord src stride (boxSpan dx srcWidth dstWidth)
        (boxSpan dy srcHeight dstHeight))).bind fun s =>
          s.writeTo (wrapUsize (wrapUsize (wrapUsize (dy * dstWidth) + dx) * 4)) out) = some out' ∧
      Agrees (scaleBgra src srcWidth srcHeight stride dstWidth dstHeight) out'
        (· < (dy * dstWidth + (dx + 1)) * 4) := by
  have hindex := Buffer.index_lt hdy hdx
  rw [Nat.mul_comm dstHeight] at hindex
  obtain ⟨hpos, hcount⟩ := length_boxPixels_bounds hbytes hw hh hdw hdh hdx hdy
  obtain ⟨s, hs, hn, haverage⟩ := boxSums_average hsrc
    (fun i hi => lt_of_mem_boxPixels hi) (List.ne_nil_of_length_pos hpos) (by omega)
  rw [boxPixelsWord_eq hbytes hsrc (boxSpan_bounds hw.1 hdx) (boxSpan_bounds hh.1 hdy), hs,
    Option.bind_some, wrapUsize_of_lt (n := dy * dstWidth) (by omega),
    wrapUsize_of_lt (n := dy * dstWidth + dx) (by omega), wrapUsize_of_lt (by omega)]
  obtain ⟨out', hwrite, hout'⟩ := BoxSums.writeTo_step hn (by omega) (fun channel hc => by
    rw [haverage channel hc]
    exact getElem?_scaleBgra src srcWidth srcHeight stride hdx hdy hc) hout
  exact ⟨out', hwrite, hout'.mono fun i hi => by omega⟩

/-- **The loops compute the resampled image**, while the bytes of source and destination can be
counted. -/
theorem scaleBgraWord_eq (hsrc : src.length < 2 ^ 63) (hdst : dstWidth * dstHeight * 4 < 2 ^ 63) :
    scaleBgraWord src srcWidth srcHeight stride dstWidth dstHeight
      = some (scaleBgra src srcWidth srcHeight stride dstWidth dstHeight) := by
  have hsize : wrapUsize (wrapUsize (dstWidth * dstHeight) * 4) = dstWidth * dstHeight * 4 := by
    rw [wrapUsize_of_lt (n := dstWidth * dstHeight) (by omega), wrapUsize_of_lt (by omega)]
  have hlen := length_scaleBgra src srcWidth srcHeight stride dstWidth dstHeight
  simp only [scaleBgraWord]
  rw [hsize, if_neg (by omega)]
  -- after row `dy` and pixel `dx` the bytes in front of that pixel are there
  obtain ⟨out, hrun, hout⟩ := Buffer.forRange_invariant
    (s := List.replicate (dstWidth * dstHeight * 4) 0)
    (fun dy out => Agrees (scaleBgra src srcWidth srcHeight stride dstWidth dstHeight) out
      (· < dy * dstWidth * 4))
    (Agrees.init (by rw [List.length_replicate, hlen]) (fun i hi => by omega))
    (fun dy hdy out hout => by
      obtain ⟨out', hrow, hout'⟩ := Buffer.forRange_invariant
        (fun dx out => Agrees (scaleBgra src srcWidth srcHeight stride dstWidth dstHeight) out
          (· < (dy * dstWidth + dx) * 4))
        hout (fun dx hdx out hout => scalePixel_step hbytes hw hh hdw hdh hsrc hdst hdx hdy hout)
      exact ⟨out', hrow, hout'.mono fun i hi => by rwa [Nat.succ_mul] at hi⟩)
  rw [hrun, hout.eq fun i hi => by rw [hlen, Nat.mul_comm dstWidth] at hi; exact hi]

/-- **A byte of the image is the floor of the average over its box**, and the sum is a word. -/
theorem scaleBgra_get {dx dy channel : ℕ} (hdx : dx < dstWidth) (hdy : dy < dstHeight)
    (hc : channel < 4) :
    let bytes := boxBytes src stride (boxSpan dx srcWidth dstWidth)
      (boxSpan dy srcHeight dstHeight) channel
    bytes.sum < 2 ^ 32 ∧ ∃ b : UInt8,
      (scaleBgra src srcWidth srcHeight stride dstWidth dstHeight)[
        packedIndex dstWidth dy dx channel]? = some b ∧ b.toNat = bytes.sum / bytes.length := by
  intro bytes
  have hmap : (boxPixels src stride (boxSpan dx srcWidth dstWidth)
      (boxSpan dy srcHeight dstHeight)).map (fun i => (src.getD (i + channel) 0).toNat) = bytes :=
    map_boxPixels hbytes (boxSpan_bounds hw.1 hdx) (boxSpan_bounds hh.1 hdy) channel
  have hlen := congrArg List.length hmap
  rw [List.length_map] at hlen
  have hsum := sum_bytes_le src (boxPixels src stride (boxSpan dx srcWidth dstWidth)
    (boxSpan dy srcHeight dstHeight)) channel
  obtain ⟨hpos, hcount⟩ := length_boxPixels_bounds hbytes hw hh hdw hdh hdx hdy
  refine ⟨?_, _, getElem?_scaleBgra src srcWidth srcHeight stride hdx hdy hc, ?_⟩
  · rw [hmap] at hsum
    omega
  · have hquot := Nat.div_le_of_le_mul hsum
    rw [hmap, hlen] at hquot
    rw [boxChannel, if_neg (by simpa using List.ne_nil_of_length_pos hpos), hmap, hlen,
      UInt8.toNat_ofNat']
    exact Nat.mod_eq_of_lt (Nat.lt_succ_of_le hquot)

end Source

/-! ### Exact scaling -/

/-- At equal sizes a box is one index. -/
theorem boxSpan_self {index extent : ℕ} (h : index < extent) :
    boxSpan index extent extent = (index, index + 1) := by
  have hpos : 0 < extent := by omega
  have hstart : index * extent / extent = index := Nat.mul_div_cancel _ hpos
  have hend : ((index + 1) * extent + extent - 1) / extent = index + 1 := by
    rw [Nat.add_sub_assoc hpos, Nat.mul_comm, Nat.mul_add_div hpos, Nat.div_eq_of_lt (by omega)]
  have hsnd := boxSpan_snd hpos h
  rw [hend, Nat.min_eq_left h] at hsnd
  exact Prod.ext hstart hsnd

/-- A box of one pixel holds that pixel. -/
theorem boxBytes_single (src : List UInt8) (stride x y channel : ℕ) :
    boxBytes src stride (x, x + 1) (y, y + 1) channel
      = [(src.getD (y * stride + x * 4 + channel) 0).toNat] := by
  simp [boxBytes]

/-- The average of equal numbers. -/
theorem average_of_const {vs : List ℕ} {v : ℕ} (hne : vs ≠ []) (h : ∀ w ∈ vs, w = v) :
    vs.sum / vs.length = v := by
  have hpos := List.length_pos_of_ne_nil hne
  rw [List.eq_replicate_of_mem h, List.sum_replicate, List.length_replicate, smul_eq_mul,
    Nat.mul_div_cancel_left _ hpos]

/-- The resampled image is what resampling has to return. -/
theorem exactScaling_scaleBgra {src : List UInt8}
    {srcWidth srcHeight stride dstWidth dstHeight : ℕ}
    (hw : 0 < srcWidth ∧ srcWidth ≤ 16384) (hh : 0 < srcHeight ∧ srcHeight ≤ 16384)
    (hbytes : stride * (srcHeight - 1) + srcWidth * 4 ≤ src.length)
    (hdw : 16 ≤ dstWidth) (hdh : 16 ≤ dstHeight) :
    ExactScaling src srcWidth srcHeight stride dstWidth dstHeight
      (scaleBgra src srcWidth srcHeight stride dstWidth dstHeight) where
  box := by
    refine ⟨fun dx => boxSpan dx srcWidth dstWidth, fun dy => boxSpan dy srcHeight dstHeight,
      fun dx hdx => boxSpan_bounds hw.1 hdx, fun dy hdy => boxSpan_bounds hh.1 hdy, ?_, ?_⟩
    · intro x hx y hy
      obtain ⟨dx, hdx, hcoverx⟩ := exists_boxSpan_covering hx (by omega : 0 < dstWidth)
      obtain ⟨dy, hdy, hcovery⟩ := exists_boxSpan_covering hy (by omega : 0 < dstHeight)
      exact ⟨dx, hdx, dy, hdy, hcoverx, hcovery⟩
    · intro dy hdy dx hdx channel hc
      exact scaleBgra_get hbytes hw hh hdw hdh hdx hdy hc
  identity := by
    rintro rfl rfl y hy x hx channel hc
    obtain ⟨-, b, hb, havg⟩ := scaleBgra_get hbytes hw hh hdw hdh hx hy hc
    rw [boxSpan_self hx, boxSpan_self hy, boxBytes_single] at havg
    have hbyte : b = src.getD (y * stride + x * 4 + channel) 0 := by
      rw [← UInt8.toNat_inj, havg]
      simp
    have hlt := sourcePixel_lt hbytes hx hy
    rw [hb, hbyte, List.getD_eq_getElem?_getD, List.getElem?_eq_getElem (by omega)]
    rfl
  solid := by
    intro colour hsolid dy hdy dx hdx channel hc
    obtain ⟨-, b, hb, havg⟩ := scaleBgra_get hbytes hw hh hdw hdh hdx hdy hc
    have hxs := boxSpan_bounds hw.1 hdx
    have hys := boxSpan_bounds hh.1 hdy
    have hne : boxBytes src stride (boxSpan dx srcWidth dstWidth) (boxSpan dy srcHeight dstHeight)
        channel ≠ [] := by
      refine List.ne_nil_of_length_pos ?_
      rw [length_boxBytes]
      exact Nat.mul_pos (Nat.sub_pos_of_lt hys.1) (Nat.sub_pos_of_lt hxs.1)
    have hconst : ∀ v ∈ boxBytes src stride (boxSpan dx srcWidth dstWidth)
        (boxSpan dy srcHeight dstHeight) channel, v = (colour channel).toNat := by
      intro v hv
      obtain ⟨y, hy, x, hx, rfl⟩ := mem_boxBytes.1 hv
      rw [List.getD_eq_getElem?_getD, hsolid y (Nat.lt_of_lt_of_le hy.2 hys.2) x
        (Nat.lt_of_lt_of_le hx.2 hxs.2) channel hc]
      rfl
    rw [average_of_const hne hconst] at havg
    rw [hb, UInt8.toNat_inj.1 havg]

/-- **Resampling is exact**, for a source of at least one pixel and of at most 16384 by 16384, and a
destination of at least sixteen by sixteen whose bytes can be counted. -/
theorem scale_exact {src : List UInt8} {srcWidth srcHeight stride dstWidth dstHeight : ℕ}
    (hw : 0 < srcWidth ∧ srcWidth ≤ 16384) (hh : 0 < srcHeight ∧ srcHeight ≤ 16384)
    (hsrc : src.length < 2 ^ 63)
    (hbytes : stride * (srcHeight - 1) + srcWidth * 4 ≤ src.length)
    (hdw : 16 ≤ dstWidth) (hdh : 16 ≤ dstHeight) (hdst : dstWidth * dstHeight * 4 < 2 ^ 63) :
    ∃ out, scaleBgraWord src srcWidth srcHeight stride dstWidth dstHeight = some out ∧
      ExactScaling src srcWidth srcHeight stride dstWidth dstHeight out :=
  ⟨_, scaleBgraWord_eq hbytes hw hh hdw hdh hsrc hdst,
    exactScaling_scaleBgra hw hh hbytes hdw hdh⟩

/-- A padded source of seventeen by three pixels, scaled down in one direction and up in the
other. -/
theorem scale_exact_padded :
    ∃ out, scaleBgraWord (List.replicate 260 0x40) 17 3 96 16 16 = some out ∧
      ExactScaling (List.replicate 260 0x40) 17 3 96 16 16 out :=
  scale_exact (by decide) (by decide) (by rw [List.length_replicate]; decide)
    (by rw [List.length_replicate]) (by decide) (by decide) (by decide)

/-- **A source without pixels has no box**, and is not refused: the destination is left as it was
initialised.  And the bytes of a destination of 2³¹ by 2³¹ pixels are too many to count: the vector
that is made for them is empty, and the first pixel is written outside. -/
theorem scale_inexact :
    (¬ ∀ (src : List UInt8) (srcWidth srcHeight stride dstWidth dstHeight : ℕ),
      src.length < 2 ^ 63 → srcWidth ≤ 16384 → srcHeight ≤ 16384 → srcWidth * 4 ≤ stride →
      stride * (srcHeight - 1) + srcWidth * 4 ≤ src.length → 16 ≤ dstWidth → 16 ≤ dstHeight →
      ∃ out, scaleBgraWord src srcWidth srcHeight stride dstWidth dstHeight = some out ∧
        ExactScaling src srcWidth srcHeight stride dstWidth dstHeight out) ∧
    (∀ out, ¬ ExactScaling [] 0 0 0 16 16 out) ∧
    scaleBgraWord [0x10, 0x20, 0x30, 0xFF] 1 1 4 (2 ^ 31) (2 ^ 31) = none := by
  have hempty : ∀ out, ¬ ExactScaling [] 0 0 0 16 16 out := by
    intro out hexact
    obtain ⟨xs, ys, hxs, -⟩ := hexact.box
    obtain ⟨hlt, hle⟩ := hxs 0 (by decide)
    omega
  refine ⟨fun h => ?_, hempty, ?_⟩
  · obtain ⟨out, -, hexact⟩ := h [] 0 0 0 16 16 (by decide) (by decide) (by decide) (by decide)
      (by decide) (by decide) (by decide)
    exact hempty out hexact
  · have hsize : wrapUsize (wrapUsize (2 ^ 31 * 2 ^ 31) * 4) = 0 := by decide
    simp only [scaleBgraWord]
    rw [hsize, if_neg (by decide)]
    refine Buffer.forRange_eq_none_of_zero (by decide) ?_
    exact Buffer.forRange_eq_none_of_zero (by decide) (by decide)

end Rda
