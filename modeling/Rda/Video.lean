/-
**Video frames and their fragments.**

A message on the video channel carries at most `MAX_VIDEO_FRAGMENT` bytes of a compressed frame, so
a frame is cut into windows of that size, and every fragment repeats what belongs to the frame as a
whole.  An empty frame is sent as one empty fragment.

Main definitions:

* `Rda.FrameKind`, `Rda.EncodedFrame` — a compressed frame;
* `Rda.fragmentVideo` — the fragments of a frame;
* `Rda.SentFrame` — a frame the sender may fragment, with its fragments.

Main results:

* `Rda.SentFrame.flatten_chunks` — what the fragments of a frame carry is the frame;
* `Rda.SentFrame.decode_encode_fragment` — a fragment survives the wire.
-/

import Mathlib.Data.List.GetD
import Rda.ControlCodec
import Rda.Windows

set_option relaxedAutoImplicit false
set_option autoImplicit false

namespace Rda

/-! ### Frames -/

/-- What kind of frame the encoder produced. -/
inductive FrameKind
  | keyframe | delta | ltrRecovery
  deriving DecidableEq, Repr

/-- The kind byte of a frame. -/
def FrameKind.code : FrameKind → UInt8
  | .delta => 0
  | .keyframe => 1
  | .ltrRecovery => 2

/-- One compressed frame. -/
structure EncodedFrame where
  data : List UInt8
  kind : FrameKind
  ptsUs : UInt64
  sequence : UInt64
  temporalLayer : UInt8
  ltrIndex : Option UInt8
  qp : Option UInt8
  deriving DecidableEq, Repr

/-- Losing the frame damages nothing else. -/
def EncodedFrame.isDiscardable (frame : EncodedFrame) : Bool :=
  frame.temporalLayer > 0 && frame.ltrIndex.isNone && frame.kind == .delta

/-- What the fragments of a frame carry. -/
def videoChunks (data : List UInt8) : List (List UInt8) :=
  if data.isEmpty then [[]] else Windows.chunks MAX_VIDEO_FRAGMENT data

/-- Splits a compressed frame into fragments. -/
def fragmentVideo (frameId : UInt32) (kind temporalLayer : UInt8) (ptsUs : UInt64)
    (data : List UInt8) : List Payload :=
  let chunks := videoChunks data
  let fragmentCount := UInt16.ofNat chunks.length
  chunks.mapIdx fun i chunk =>
    .videoFrame frameId (.ofNat i) fragmentCount kind temporalLayer ptsUs chunk

/-- A frame the sender may fragment: of a kind the wire has, and within the limit. -/
structure SentFrame where
  frameId : UInt32
  kind : UInt8
  temporalLayer : UInt8
  ptsUs : UInt64
  data : List UInt8
  kind_le : kind ≤ 2
  length_le : data.length ≤ MAX_VIDEO_FRAME

namespace SentFrame

variable (f : SentFrame)

/-- The fragments of the frame. -/
def fragments : List Payload := fragmentVideo f.frameId f.kind f.temporalLayer f.ptsUs f.data

/-- What the fragments carry. -/
def chunks : List (List UInt8) := videoChunks f.data

/-- The `i`-th fragment. -/
def fragment (i : ℕ) : Payload :=
  .videoFrame f.frameId (.ofNat i) (.ofNat f.chunks.length) f.kind f.temporalLayer f.ptsUs
    (f.chunks.getD i [])

theorem flatten_chunks : f.chunks.flatten = f.data := by
  rw [chunks, videoChunks]
  split_ifs with h
  · rw [List.isEmpty_iff.1 h]
    rfl
  · exact Windows.flatten_chunks f.data (by decide)

theorem length_chunks_pos : 0 < f.chunks.length := by
  rw [chunks, videoChunks]
  split_ifs with h
  · exact Nat.one_pos
  · exact Windows.length_chunks_pos f.data (by decide) fun hnil => h (by rw [hnil]; rfl)

theorem length_chunks_le : f.chunks.length ≤ MAX_VIDEO_FRAGMENTS.toNat := by
  rw [chunks, videoChunks]
  split_ifs with h
  · decide
  · exact Windows.length_chunks_le f.data (by decide) f.length_le

theorem length_getD_chunks_le (i : ℕ) : (f.chunks.getD i []).length ≤ MAX_VIDEO_FRAGMENT := by
  rw [chunks, videoChunks]
  split_ifs with h
  · cases i <;> simp
  · by_cases hi : i < (Windows.chunks MAX_VIDEO_FRAGMENT f.data).length
    · rw [List.getD_eq_getElem _ _ hi]
      exact Windows.getElem_chunks_length_le f.data hi
    · rw [List.getD_eq_default _ _ (Nat.le_of_not_lt hi)]
      exact Nat.zero_le _

theorem fragments_eq : f.fragments = (List.range f.chunks.length).map f.fragment := by
  refine List.ext_getElem ?_ fun i h₁ h₂ => ?_
  · rw [fragments, fragmentVideo, List.length_mapIdx, List.length_map, List.length_range]
    rfl
  · have hi : i < f.chunks.length := by simpa using h₂
    simp only [fragments, fragmentVideo, List.getElem_mapIdx, List.getElem_map,
      List.getElem_range, fragment]
    rw [List.getD_eq_getElem _ _ hi]
    rfl

theorem mem_fragments {payload : Payload} :
    payload ∈ f.fragments ↔ ∃ i < f.chunks.length, f.fragment i = payload := by
  rw [fragments_eq]
  simp

theorem toNat_ofNat_of_lt {i : ℕ} (h : i ≤ f.chunks.length) : (UInt16.ofNat i).toNat = i := by
  have hle := f.length_chunks_le
  have hmax : MAX_VIDEO_FRAGMENTS.toNat = 128 := by decide
  rw [UInt16.toNat_ofNat', Nat.mod_eq_of_lt]
  omega

theorem wellFormed_fragment {i : ℕ} (h : i < f.chunks.length) : (f.fragment i).WellFormed := by
  have hcount := f.toNat_ofNat_of_lt le_rfl
  have hindex := f.toNat_ofNat_of_lt h.le
  refine ⟨f.kind_le, ?_, ?_, ?_, f.length_getD_chunks_le i⟩
  · intro hzero
    rw [hzero] at hcount
    exact absurd hcount.symm (Nat.pos_iff_ne_zero.1 f.length_chunks_pos)
  · rw [UInt16.le_iff_toNat_le, hcount]
    exact f.length_chunks_le
  · rw [UInt16.lt_iff_toNat_lt, hcount, hindex]
    exact h

/-- A fragment survives the wire, whatever its sequence number and timestamp. -/
theorem decode_encode_fragment {i : ℕ} (h : i < f.chunks.length) (sequence : UInt16)
    (timestampMs : UInt32) :
    ControlFrame.decode (ControlFrame.new (f.fragment i) sequence timestampMs).encode
      = .ok (ControlFrame.new (f.fragment i) sequence timestampMs) :=
  ControlFrame.decode_encode
    ⟨rfl, (by decide : (0 : UInt8) ≤ 0x0F), rfl, f.wellFormed_fragment h⟩

/-- Two fragments are the same only if their indices are. -/
theorem fragment_injective {i j : ℕ} (hi : i < f.chunks.length) (hj : j < f.chunks.length)
    (h : f.fragment i = f.fragment j) : i = j := by
  rw [fragment, fragment, Payload.videoFrame.injEq] at h
  have hij := congrArg UInt16.toNat h.2.1
  rwa [f.toNat_ofNat_of_lt hi.le, f.toNat_ofNat_of_lt hj.le] at hij

end SentFrame

end Rda
