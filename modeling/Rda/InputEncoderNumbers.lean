/-
**The numbers of the encoder's frames.**

The protocol numbers the frames of every channel apart, and the controller's session loop does so.
The encoder behind the C interface has one counter for both of its channels, so a frame on one
channel leaves a hole in the numbers of the other, which the receiver takes for a loss.

Main definitions:

* `Rda.numbersOn` — the numbers of the frames of a channel, as the host reads them;
* `Rda.InputCall.sentOn`, `Rda.InputLog.channels` — the channels of the calls that are sent.

Main results:

* `Rda.InputLog.numbering_run` — the frames of a run are numbered in the order of the calls;
* `Rda.numbers_successive_iff` — **the frames of every channel are numbered one after the other**
  exactly when frames of the other channel come between them in multiples of `2 ^ 16`.
-/

import Rda.InputEncoder
import Rda.SharedCounter

set_option relaxedAutoImplicit false
set_option autoImplicit false

namespace Rda

open SharedCounter (EvenGaps consecutive_idxsOf_iff)

/-- The channel and the number of the frame, if there is one. -/
def Answered.numbered (a : Answered) : Option (UInt8 × UInt16) :=
  a.produced.bind fun f =>
    (Header.decode f.data).toOption.map fun header => (f.channel, header.sequence)

/-- The numbers of the frames of a channel, in order. -/
def numbersOn (channel : UInt8) (log : List Answered) : List UInt16 :=
  ((log.filterMap (·.numbered)).filter (·.1 = channel)).map (·.2)

theorem numbersOn_append (channel : UInt8) (log more : List Answered) :
    numbersOn channel (log ++ more) = numbersOn channel log ++ numbersOn channel more := by
  simp only [numbersOn, List.filterMap_append, List.filter_append, List.map_append]

/-- Every number is one more than the last, modulo `2 ^ 16`. -/
def Successive (numbers : List UInt16) : Prop := numbers.IsChain fun a b => b = a + 1

instance : DecidablePred Successive := fun numbers =>
  inferInstanceAs (Decidable (List.IsChain _ numbers))

/-- The channel that a call is sent on, unless it is refused or held back. -/
def InputCall.sentOn (enc : RdaInputEncoder) (nowMs : ℕ) (call : InputCall) : Option UInt8 :=
  if call.encoded.isOk ∧ ¬ call.Early enc nowMs then some call.channel else none

/-- A number is the successor of another in the counter when it is modulo `2 ^ 16`. -/
theorem ofNat_eq_succ_iff {a b : ℕ} :
    UInt16.ofNat b = UInt16.ofNat a + 1 ↔ b ≡ a + 1 [MOD 2 ^ 16] := by
  have hsucc : UInt16.ofNat a + 1 = UInt16.ofNat (a + 1) := (UInt16.ofNat_add a 1).symm
  rw [hsucc, ← UInt16.toNat_inj, UInt16.toNat_ofNat', UInt16.toNat_ofNat']
  exact Iff.rfl

/-- Numbers of the counter are successive when they are consecutive modulo `2 ^ 16`. -/
theorem successive_map_ofNat {ns : List ℕ} :
    Successive (ns.map UInt16.ofNat) ↔ SharedCounter.Consecutive (2 ^ 16) ns := by
  rw [Successive, List.isChain_map, SharedCounter.Consecutive]
  exact List.IsChain.iff fun _ _ => ofNat_eq_succ_iff

namespace InputLog

/-- The channels of the calls that are sent, in order. -/
def channels (s : InputLog) : List (ℕ × InputCall) → List UInt8
  | [] => []
  | i :: is => (i.2.sentOn s.encoder i.1).toList ++ channels (s.step i) is

variable {s : InputLog} {i : ℕ × InputCall}

theorem channels_append_singleton (s : InputLog) (is : List (ℕ × InputCall)) (i : ℕ × InputCall) :
    s.channels (is ++ [i]) =
      s.channels is ++ (i.2.sentOn (Machine.run step s is).encoder i.1).toList := by
  induction is generalizing s with
  | nil => simp [channels]
  | cons j is ih =>
      rw [List.cons_append, channels, channels, ih, Machine.run_cons, List.append_assoc]

theorem Refused.sentOn (h : s.Refused i) : i.2.sentOn s.encoder i.1 = none := by
  obtain ⟨e, he, -⟩ := h.answer
  rw [InputCall.sentOn, he]
  exact if_neg fun hsent => (nomatch hsent.1)

theorem Held.sentOn {m : PendingMove} (h : s.Held i m) : i.2.sentOn s.encoder i.1 = none :=
  if_neg fun hsent => hsent.2 h.early

theorem Sent.sentOn {p : Payload} (h : s.Sent i p) :
    i.2.sentOn s.encoder i.1 = some i.2.channel := by
  rw [InputCall.sentOn, h.encoded]
  exact if_pos ⟨rfl, h.late⟩

theorem Refused.numbered (h : s.Refused i) : (s.answer i).numbered = none := by
  rw [Answered.numbered, h.produced, Option.bind_none]

theorem Held.numbered {m : PendingMove} (h : s.Held i m) : (s.answer i).numbered = none := by
  rw [Answered.numbered, h.produced, Option.bind_none]

/-- The host reads the counter in the header, whatever becomes of the payload. -/
theorem Sent.numbered {p : Payload} (h : s.Sent i p) :
    (s.answer i).numbered = some (i.2.channel, s.encoder.sequence) := by
  obtain ⟨hv, hf, -⟩ := Header.carries_new p s.encoder.sequence (.ofNat (i.1 - s.encoder.epochMs))
  rw [Answered.numbered, h.produced, Option.bind_some, RdaInputEncoder.frameOf, ControlFrame.encode,
    Header.decode_encode_append hv hf]
  rfl

/-- The counter, and the numbers of every channel, after calls that were sent on some channels. -/
structure Numbering (s : InputLog) (kinds : List UInt8) : Prop where
  next : s.encoder.sequence = UInt16.ofNat kinds.length
  numbers : ∀ channel, numbersOn channel s.answered = (kinds.idxsOf channel).map UInt16.ofNat

/-- A call that produces nothing takes no number. -/
theorem Numbering.of_silent {kinds : List UInt8} (hs : s.Numbering kinds)
    (hnumbered : (s.answer i).numbered = none)
    (hsequence : (s.step i).encoder.sequence = s.encoder.sequence) :
    (s.step i).Numbering kinds where
  next := hsequence.trans hs.next
  numbers channel := by
    have hlast : numbersOn channel [s.answer i] = [] := by simp [numbersOn, hnumbered]
    rw [answered_step, numbersOn_append, hlast, List.append_nil, hs.numbers channel]

theorem numbering_step {kinds : List UInt8} (hs : s.Numbering kinds) :
    (s.step i).Numbering (kinds ++ (i.2.sentOn s.encoder i.1).toList) := by
  rcases s.step_cases i with h | ⟨m, h⟩ | ⟨p, h⟩
  · rw [h.sentOn, Option.toList_none, List.append_nil]
    exact hs.of_silent h.numbered (by rw [h.encoder])
  · rw [h.sentOn, Option.toList_none, List.append_nil]
    exact hs.of_silent h.numbered (by rw [h.encoder])
  · rw [h.sentOn, Option.toList_some]
    constructor
    · rw [h.encoder, List.length_append]
      change s.encoder.sequence + 1 = _
      rw [hs.next]
      exact (UInt16.ofNat_add kinds.length 1).symm
    · intro channel
      have hlast : numbersOn channel [s.answer i] =
          ([i.2.channel].idxsOf channel kinds.length).map UInt16.ofNat := by
        simp only [numbersOn, List.filterMap_cons, List.filterMap_nil, h.numbered, hs.next]
        by_cases hc : i.2.channel = channel
        · simp [hc, List.idxsOf]
        · simp [hc, List.idxsOf]
      rw [answered_step, numbersOn_append, hs.numbers channel, hlast, List.idxsOf_append,
        List.map_append, Nat.zero_add]

/-- **The frames of a run are numbered in the order of the calls.** -/
theorem numbering_run (epochMs : ℕ) (is : List (ℕ × InputCall)) :
    (Machine.run step (start epochMs) is).Numbering ((start epochMs).channels is) := by
  refine Machine.run_history (fun is (s : InputLog) => s.Numbering ((start epochMs).channels is))
    ⟨rfl, fun _ => rfl⟩ (fun is i hs => ?_) is
  rw [channels_append_singleton]
  exact numbering_step hs

end InputLog

/-- **Which runs number every channel apart.** -/
theorem numbers_successive_iff (epochMs : ℕ) (calls : List (ℕ × InputCall)) :
    (∀ channel, Successive
      (numbersOn channel (Machine.run InputLog.step (InputLog.start epochMs) calls).answered)) ↔
    ∀ channel, EvenGaps (2 ^ 16) channel ((InputLog.start epochMs).channels calls) := by
  refine forall_congr' fun channel => ?_
  rw [(InputLog.numbering_run epochMs calls).numbers channel, successive_map_ofNat,
    consecutive_idxsOf_iff]

/-- A move between two keys leaves a hole in the numbers of the keys. -/
theorem numbers_key_move_key :
    ¬ ∀ channel, Successive (numbersOn channel (Machine.run InputLog.step (InputLog.start 0)
      [(100, .key 0x04 true 0), (110, .pointerMove 0 1000 1000 0),
        (120, .key 0x04 false 0)]).answered) := by
  intro h
  have hkeys := h RDA_CHANNEL_INPUT_KEYS
  revert hkeys
  decide

end Rda
