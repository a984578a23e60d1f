/-
**No frame is made up.**

The video channel may lose, repeat, delay and reorder whatever is sent on it, so that the receiver
has fragments of many frames at once, some of them of frames that it has given up, and ids that are
used again.  It goes by what a fragment says of its frame: the id, the number of fragments and the
timestamp.  If these three tell the frames that were sent apart, then what the receiver holds is
always a part of one frame, and what it hands on is a frame that was sent, put together from
fragments that came within the timeout.

Main definitions:

* `Rda.Distinguishable` — the frames can be told apart by what their fragments say;
* `Rda.Genuine` — a payload that is a fragment of one of them, if it is a fragment at all;
* `Rda.Sound` — what is held is parts of them.

Main results:

* `Rda.Reassembler.accept_sound` — what one fragment does, whatever came before it;
* `Rda.handed_on_was_sent` — **every frame that is handed on was sent**, and is fresh.
-/

import Rda.ReassemblyBounds
import Rda.ReassemblyTransport

set_option relaxedAutoImplicit false
set_option autoImplicit false

namespace Rda

/-- The frames can be told apart by what their fragments say of them. -/
def Distinguishable (frames : List SentFrame) : Prop :=
  ∀ f ∈ frames, ∀ g ∈ frames, f.frameId = g.frameId → f.chunks.length = g.chunks.length →
    f.ptsUs = g.ptsUs → f = g

/-- If the payload is a fragment of a frame, then of one of these. -/
def Genuine (frames : List SentFrame) (payload : Payload) : Prop :=
  ∀ id, Reassembler.frameIdOf payload = some id →
    ∃ f ∈ frames, ∃ i < f.chunks.length, f.fragment i = payload

/-- What is held is parts of the frames, each with a fragment at least, and of every fragment that a
part has, first seen at `t`, `came` tells that it came. -/
def Sound (frames : List SentFrame) (came : SentFrame → ℕ → ℕ → Prop)
    (partials : Std.ExtTreeMap UInt32 Partial) : Prop :=
  ∀ (id : UInt32) (p : Partial), partials[id]? = some p →
    ∃ f ∈ frames, f.frameId = id ∧ ∃ got t, p = f.partialWith got t ∧
      (∃ i < f.chunks.length, got i = true) ∧ ∀ i < f.chunks.length, got i = true → came f i t

namespace Sound

variable {frames : List SentFrame} {came came' : SentFrame → ℕ → ℕ → Prop}
  {partials partials' : Std.ExtTreeMap UInt32 Partial}

theorem empty (frames : List SentFrame) (came : SentFrame → ℕ → ℕ → Prop) :
    Sound frames came ∅ := by
  intro id p hp
  rw [Std.ExtTreeMap.getElem?_empty] at hp
  cases hp

theorem mono (h : Sound frames came partials) (hcame : ∀ f i t, came f i t → came' f i t) :
    Sound frames came' partials := by
  intro id p hp
  obtain ⟨f, hf, hid, got, t, heq, hsome, hgot⟩ := h id p hp
  exact ⟨f, hf, hid, got, t, heq, hsome, fun i hi hi' => hcame f i t (hgot i hi hi')⟩

/-- Nothing is lost by giving frames up. -/
theorem subset (h : Sound frames came partials)
    (hsub : ∀ (id : UInt32) (p : Partial), partials'[id]? = some p → partials[id]? = some p) :
    Sound frames came partials' := fun id p hp => h id p (hsub id p hp)

theorem erase (h : Sound frames came partials) (id : UInt32) :
    Sound frames came (partials.erase id) := by
  refine h.subset fun id' p hp => ?_
  rw [Std.ExtTreeMap.getElem?_erase] at hp
  split at hp
  · cases hp
  · exact hp

theorem insert (h : Sound frames came partials) {f : SentFrame} (hf : f ∈ frames) {got : ℕ → Bool}
    {t : ℕ} (hsome : ∃ i < f.chunks.length, got i = true)
    (hgot : ∀ i < f.chunks.length, got i = true → came f i t) :
    Sound frames came (partials.insert f.frameId (f.partialWith got t)) := by
  intro id p hp
  rw [Std.ExtTreeMap.getElem?_insert] at hp
  split at hp
  · next heq =>
      cases hp
      exact ⟨f, hf, Std.compare_eq_iff_eq.1 heq, got, t, rfl, hsome, hgot⟩
  · exact h id p hp

/-- What is held was first seen no later than a fragment of it came. -/
theorem exists_came (h : Sound frames came partials) {id : UInt32} {p : Partial}
    (hp : partials[id]? = some p) : ∃ f i, came f i p.firstSeenMs := by
  obtain ⟨f, -, -, got, t, rfl, ⟨i, hi, hi'⟩, hgot⟩ := h id p hp
  exact ⟨f, i, hgot i hi hi'⟩

end Sound

namespace Reassembler

variable {r : Reassembler} {nowMs : ℕ} {id : UInt32} {p : Partial}

theorem getElem?_of_foldl_abandon {ids : List UInt32}
    (h : (ids.foldl abandon r).partials[id]? = some p) : r.partials[id]? = some p := by
  induction ids generalizing r with
  | nil => exact h
  | cons x ids ih =>
      have hrest := ih h
      rw [abandon, Std.ExtTreeMap.getElem?_erase] at hrest
      split at hrest
      · cases hrest
      · exact hrest

/-- What is still held when a fragment arrives was held before, and is not too old. -/
theorem getElem?_of_noted (h : (r.noted nowMs).partials[id]? = some p) :
    r.partials[id]? = some p ∧ nowMs - p.firstSeenMs ≤ FRAGMENT_TIMEOUT_MS := by
  have hheld : r.partials[id]? = some p := getElem?_of_foldl_abandon h
  refine ⟨hheld, ?_⟩
  by_contra hold
  refine (mem_noted.1 (mem_of_getElem? h)).2 (List.mem_map.2 ⟨(id, p), ?_, rfl⟩)
  rw [List.mem_filter]
  exact ⟨Std.ExtTreeMap.mem_toList_iff_getElem?_eq_some.2 hheld, decide_eq_true (not_le.1 hold)⟩

theorem getElem?_of_enforceCap {rounds : ℕ} (h : (enforceCap rounds r).partials[id]? = some p) :
    r.partials[id]? = some p := by
  induction rounds generalizing r with
  | zero => exact h
  | succ rounds ih =>
      rw [enforceCap] at h
      split at h
      · split at h
        · next oldest _ =>
            have hrest : ([oldest].foldl abandon r).partials[id]? = some p := ih h
            exact getElem?_of_foldl_abandon hrest
        · exact h
      · exact h

section Accept

variable {frames : List SentFrame} {came came' : SentFrame → ℕ → ℕ → Prop} {f : SentFrame} {i : ℕ}

/-- What has been handed on is the frame, and all its fragments came within the timeout. -/
def Whole (came : SentFrame → ℕ → ℕ → Prop) (f : SentFrame) (nowMs : ℕ) (e : EncodedFrame) :
    Prop :=
  e = f.encoded ∧ ∃ t, nowMs - t ≤ FRAGMENT_TIMEOUT_MS ∧ ∀ i < f.chunks.length, came f i t

/-- A fragment of the frame that is under construction. -/
theorem fill_sound (h : Sound frames came r.partials) (hf : f ∈ frames) (hi : i < f.chunks.length)
    {got : ℕ → Bool} {t : ℕ} (hgot : ∀ j < f.chunks.length, got j = true → came f j t)
    (hcame : came f i t) (hrecent : nowMs - t ≤ FRAGMENT_TIMEOUT_MS) :
    ∃ out, r.fill? f.frameId (f.partialWith got t) i (f.chunks.getD i []) = some out ∧
      Sound frames came out.2.partials ∧ ∀ e ∈ out.1, Whole came f nowMs e := by
  cases hslot : got i with
  | true =>
      have hslots : (f.partialWith got t).slots[i]? = some (some (f.chunks.getD i [])) := by
        simp [SentFrame.partialWith, hi, hslot]
      rw [fill?, hslots]
      exact ⟨_, rfl, h.insert hf ⟨i, hi, hslot⟩ hgot, fun e he => by cases he⟩
  | false =>
      have hgot' : ∀ j < f.chunks.length, (j == i || got j) = true → came f j t := by
        intro j hj hj'
        rcases Bool.or_eq_true_iff.1 hj' with heq | hold
        · rw [beq_iff_eq.1 heq]
          exact hcame
        · exact hgot j hj hold
      rw [fill_fragment hi hslot]
      split
      · next hcomplete =>
          have hall := SentFrame.isComplete_partialWith.1 hcomplete
          refine ⟨_, rfl, h.erase _, fun e he => ?_⟩
          cases he
          exact ⟨SentFrame.assemble_partialWith hall, t, hrecent,
            fun j hj => hgot' j hj (hall j hj)⟩
      · refine ⟨_, rfl, (h.insert hf ⟨i, hi, by simp⟩ hgot').subset fun id p hp => ?_,
          fun e he => by cases he⟩
        exact getElem?_of_enforceCap hp

/-- **One fragment.**  Whatever is held, a fragment of a frame that was sent leaves only parts of
frames that were sent, and what it completes is its frame. -/
theorem accept_sound (hd : Distinguishable frames) (h : Sound frames came r.partials) (nowMs : ℕ)
    (hmono : ∀ f i t, came f i t → came' f i t) (hf : f ∈ frames) (hi : i < f.chunks.length)
    (hnow : came' f i nowMs) (hlater : ∀ g j t, came g j t → came' f i t) :
    Sound frames came' (r.accept (f.fragment i) nowMs).2.partials ∧
      ∀ e ∈ (r.accept (f.fragment i) nowMs).1, Whole came' f nowMs e := by
  have hnoted : Sound frames came' (r.noted nowMs).partials :=
    (h.subset fun id p hp => (getElem?_of_noted hp).1).mono hmono
  suffices hplaced : ∃ out, (r.noted nowMs).place? f.frameId (.ofNat i) (.ofNat f.chunks.length)
      f.kind f.temporalLayer f.ptsUs (f.chunks.getD i []) nowMs = some out ∧
      Sound frames came' out.2.partials ∧ ∀ e ∈ out.1, Whole came' f nowMs e by
    obtain ⟨out, hplace, hout⟩ := hplaced
    rw [accept_fragment_of_place hplace]
    exact hout
  by_cases hsingle : f.chunks.length = 1 ∧ f.frameId ∉ (r.noted nowMs).partials
  · -- the only fragment of its frame
    obtain ⟨hone, hmem⟩ := hsingle
    have hall : ∀ j < f.chunks.length, (j == i || false) = true := by
      intro j hj
      have hji : j = i := by omega
      simp [hji]
    have hentry : (r.noted nowMs).partials.getD f.frameId
        (fresh (.ofNat f.chunks.length) f.kind f.temporalLayer f.ptsUs nowMs) =
          f.partialWith (fun _ => false) nowMs := by
      rw [Std.ExtTreeMap.getD_eq_fallback hmem, f.fresh_eq_partialWith]
    obtain ⟨out, hplace, hout, hpartials⟩ := place_last hi rfl hentry hall
    refine ⟨out, hplace, ?_, fun e he => ?_⟩
    · rw [hpartials]
      exact hnoted.erase _
    rw [hout] at he
    cases he
    refine ⟨rfl, nowMs, by simp, fun j hj => ?_⟩
    have hji : j = i := by omega
    rwa [hji]
  · cases hget : (r.noted nowMs).partials[f.frameId]? with
    | none =>
        have hmem : f.frameId ∉ (r.noted nowMs).partials := by
          rw [Std.ExtTreeMap.mem_iff_isSome_getElem?, hget]
          simp
        have hentry : (r.noted nowMs).partials.getD f.frameId
            (fresh (.ofNat f.chunks.length) f.kind f.temporalLayer f.ptsUs nowMs) =
              f.partialWith (fun _ => false) nowMs := by
          rw [Std.ExtTreeMap.getD_eq_fallback hmem, f.fresh_eq_partialWith]
        rw [place_fragment hi hentry hsingle]
        exact fill_sound hnoted hf hi (fun j _ hj => by cases hj) hnow (by simp)
    | some entry =>
        obtain ⟨g, hg, hid, got, t, rfl, hsome, hgot⟩ := hnoted _ _ hget
        have hentry : (r.noted nowMs).partials.getD f.frameId
            (fresh (.ofNat f.chunks.length) f.kind f.temporalLayer f.ptsUs nowMs) =
              g.partialWith got t := by
          rw [Std.ExtTreeMap.getD_eq_getD_getElem?, hget, Option.getD_some]
        by_cases hsame : g.chunks.length = f.chunks.length ∧ g.ptsUs = f.ptsUs
        · -- the fragment says the same of its frame, so that the frame is the same
          obtain rfl : g = f := hd g hg f hf hid hsame.1 hsame.2
          obtain ⟨hheld, hrecent⟩ := getElem?_of_noted hget
          rw [place_fragment hi hentry hsingle]
          obtain ⟨g', j, hcame⟩ := h.exists_came hheld
          exact fill_sound hnoted hf hi hgot (hlater g' j _ hcame) hrecent
        · have hdiffers : (g.partialWith got t).slots.length ≠
              (UInt16.ofNat f.chunks.length).toNat ∨ (g.partialWith got t).ptsUs ≠ f.ptsUs := by
            rw [f.toNat_ofNat_of_lt le_rfl, ← not_and_or]
            simpa [SentFrame.partialWith] using hsame
          rw [place?, if_neg (by rwa [ofNat_length_eq_one_iff])]
          dsimp only
          rw [hentry, if_pos hdiffers]
          refine ⟨_, rfl, ?_, fun e he => by cases he⟩
          dsimp only
          rw [insert_of_getElem? hget]
          exact hnoted

end Accept

end Reassembler

/-! ### Runs -/

/-- The `i`-th fragment is among the arrivals, and came at `t` or later. -/
def CameSince (past : List Receiver.Arrival) (f : SentFrame) (i t : ℕ) : Prop :=
  ∃ a ∈ past, a.1 = f.fragment i ∧ t ≤ a.2

theorem CameSince.append {past : List Receiver.Arrival} {f : SentFrame} {i t : ℕ}
    (h : CameSince past f i t) (a : Receiver.Arrival) : CameSince (past ++ [a]) f i t := by
  obtain ⟨b, hb, hpayload, ht⟩ := h
  exact ⟨b, List.mem_append_left _ hb, hpayload, ht⟩

/-- A payload that is no fragment is left alone. -/
theorem Reassembler.accept_of_frameIdOf_eq_none {payload : Payload}
    (h : Reassembler.frameIdOf payload = none) (r : Reassembler) (nowMs : ℕ) :
    r.accept payload nowMs = (none, r) := by
  cases payload with
  | videoFrame => cases h
  | _ => rfl

/-- One arrival. -/
theorem sound_step {frames : List SentFrame} (hd : Distinguishable frames)
    {past : List Receiver.Arrival} {r : Reassembler} (h : Sound frames (CameSince past) r.partials)
    {a : Receiver.Arrival} (hgenuine : Genuine frames a.1) (hclock : ∀ b ∈ past, b.2 ≤ a.2) :
    Sound frames (CameSince (past ++ [a])) (r.accept a.1 a.2).2.partials ∧
      ∀ e ∈ (r.accept a.1 a.2).1, ∃ f ∈ frames, a.1 ∈ f.fragments ∧
        Reassembler.Whole (CameSince (past ++ [a])) f a.2 e := by
  have hmono : ∀ f i t, CameSince past f i t → CameSince (past ++ [a]) f i t :=
    fun f i t hcame => hcame.append a
  cases hid : Reassembler.frameIdOf a.1 with
  | none =>
      rw [Reassembler.accept_of_frameIdOf_eq_none hid]
      exact ⟨h.mono hmono, fun e he => by cases he⟩
  | some id =>
      obtain ⟨f, hf, i, hi, hpayload⟩ := hgenuine id hid
      have hlater : ∀ g j t, CameSince past g j t → CameSince (past ++ [a]) f i t := by
        rintro g j t ⟨b, hb, -, ht⟩
        exact ⟨a, by simp, hpayload.symm, ht.trans (hclock b hb)⟩
      obtain ⟨hsound, hwhole⟩ := Reassembler.accept_sound hd h a.2 hmono hf hi
        ⟨a, by simp, hpayload.symm, le_rfl⟩ hlater
      rw [← hpayload]
      exact ⟨hsound, fun e he => ⟨f, hf, f.mem_fragments.2 ⟨i, hi, rfl⟩, hwhole e he⟩⟩

theorem sound_run {frames : List SentFrame} (hd : Distinguishable frames)
    {arrivals : List Receiver.Arrival} (hgenuine : ∀ a ∈ arrivals, Genuine frames a.1)
    (hclock : (arrivals.map Prod.snd).Pairwise (· ≤ ·)) :
    Sound frames (CameSince arrivals)
      (Machine.run Reassembler.acceptStep .new arrivals).partials := by
  induction arrivals using List.reverseRecOn with
  | nil => exact Sound.empty frames _
  | append_singleton past a ih =>
      rw [List.map_append, List.pairwise_append] at hclock
      obtain ⟨hpast, -, hlast⟩ := hclock
      have hbefore : ∀ b ∈ past, b.2 ≤ a.2 :=
        fun b hb => hlast b.2 (List.mem_map_of_mem hb) a.2 (by simp)
      have hsound := ih (fun b hb => hgenuine b (List.mem_append_left _ hb)) hpast
      rw [Machine.run_append]
      exact (sound_step hd hsound (hgenuine a (by simp)) hbefore).1

/-- **Every frame that is handed on was sent.**  Whatever the channel loses, repeats, delays and
reorders: if the frames that were sent can be told apart by id, count and timestamp, then what the
receiver hands on is one of them, byte for byte and with its metadata, it is one that the last
fragment belongs to, and all its fragments came within the last 400 milliseconds. -/
theorem handed_on_was_sent {frames : List SentFrame} (hd : Distinguishable frames)
    {past : List Receiver.Arrival} {a : Receiver.Arrival}
    (hgenuine : ∀ b ∈ past ++ [a], Genuine frames b.1)
    (hclock : ((past ++ [a]).map Prod.snd).Pairwise (· ≤ ·)) {e : EncodedFrame}
    (he : e ∈ ((Machine.run Reassembler.acceptStep .new past).accept a.1 a.2).1) :
    ∃ f ∈ frames, e = f.encoded ∧ a.1 ∈ f.fragments ∧ ∀ i < f.chunks.length,
      ∃ b ∈ past ++ [a], b.1 = f.fragment i ∧ a.2 ≤ b.2 + FRAGMENT_TIMEOUT_MS := by
  rw [List.map_append, List.pairwise_append] at hclock
  obtain ⟨hpast, -, hlast⟩ := hclock
  have hbefore : ∀ b ∈ past, b.2 ≤ a.2 :=
    fun b hb => hlast b.2 (List.mem_map_of_mem hb) a.2 (by simp)
  have hsound := sound_run hd (fun b hb => hgenuine b (List.mem_append_left _ hb)) hpast
  obtain ⟨f, hf, hmem, heq, t, hrecent, hcame⟩ :=
    (sound_step hd hsound (hgenuine a (by simp)) hbefore).2 e he
  refine ⟨f, hf, heq, hmem, fun i hi => ?_⟩
  obtain ⟨b, hb, hpayload, ht⟩ := hcame i hi
  exact ⟨b, hb, hpayload, by omega⟩

namespace Sample

/-- A frame of one byte that was sent under the id of an earlier frame. -/
def reusedId : SentFrame :=
  { emptyFrame with ptsUs := 66666, data := [9], length_le := by decide }

/-- The second fragment of the keyframe, and the empty frame. -/
def heard : List Receiver.Arrival := [(keyframe.fragment 1, 0), (emptyFrame.fragment 0, 3)]

theorem distinguishable_pair {f g : SentFrame} (h : f.frameId = g.frameId → f.ptsUs ≠ g.ptsUs) :
    Distinguishable [f, g] := by
  intro f' hf' g' hg' hid _ hpts
  simp only [List.mem_cons, List.not_mem_nil, or_false] at hf' hg'
  rcases hf' with rfl | rfl <;> rcases hg' with rfl | rfl
  · rfl
  · exact absurd hpts (h hid)
  · exact absurd hpts.symm (h hid.symm)
  · rfl

theorem genuine_fragment {frames : List SentFrame} {f : SentFrame} (hf : f ∈ frames) {i : ℕ}
    (hi : i < f.chunks.length) : Genuine frames (f.fragment i) :=
  fun _ _ => ⟨f, hf, i, hi, rfl⟩

theorem handed_on_keyframe : keyframe.encoded ∈
    ((Machine.run Reassembler.acceptStep .new heard).accept (keyframe.fragment 0) 9).1 := by
  have hlen := length_chunks_keyframe
  have hpre : heard ++ [(keyframe.fragment 0, 9)] <+: messages.map VideoMessage.arrival :=
    ⟨[], rfl⟩
  have hcomplete : keyframe.Complete (heard ++ [(keyframe.fragment 0, 9)]) := by
    intro j hj
    rw [hlen] at hj
    rw [SentFrame.got_iff]
    have hcases : j = 0 ∨ j = 1 := by omega
    rcases hcases with rfl | rfl
    · simp [heard]
    · simp [heard]
  have haccept := Delivery.delivery_messages.accept_eq hpre (f := keyframe) (by simp)
    (keyframe.mem_fragments.2 ⟨0, by omega, rfl⟩)
  rw [haccept, if_pos hcomplete]
  rfl

end Sample

/-- Two frames with one id, one after the other; and a frame of two fragments that come in the wrong
order, with another frame between them. -/
theorem handed_on_samples :
    (∃ f ∈ [Sample.emptyFrame, Sample.reusedId],
      Sample.reusedId.encoded = f.encoded ∧ Sample.reusedId.fragment 0 ∈ f.fragments ∧
        ∀ i < f.chunks.length,
          ∃ b ∈ [(Sample.emptyFrame.fragment 0, 0)] ++ [(Sample.reusedId.fragment 0, 40)],
            b.1 = f.fragment i ∧ 40 ≤ b.2 + FRAGMENT_TIMEOUT_MS) ∧
    ∃ f ∈ [Sample.keyframe, Sample.emptyFrame],
      Sample.keyframe.encoded = f.encoded ∧ Sample.keyframe.fragment 0 ∈ f.fragments ∧
        ∀ i < f.chunks.length, ∃ b ∈ Sample.heard ++ [(Sample.keyframe.fragment 0, 9)],
          b.1 = f.fragment i ∧ 9 ≤ b.2 + FRAGMENT_TIMEOUT_MS := by
  have hpair : Distinguishable [Sample.emptyFrame, Sample.reusedId] :=
    Sample.distinguishable_pair fun _ => by decide
  have hother : Distinguishable [Sample.keyframe, Sample.emptyFrame] :=
    Sample.distinguishable_pair fun hid => absurd hid (by decide)
  constructor
  · refine handed_on_was_sent (a := (Sample.reusedId.fragment 0, 40)) hpair ?_ (by decide) rfl
    intro b hb
    simp only [List.cons_append, List.nil_append, List.mem_cons, List.not_mem_nil, or_false] at hb
    rcases hb with rfl | rfl
    · exact Sample.genuine_fragment (by simp) (by decide)
    · exact Sample.genuine_fragment (by simp) (by decide)
  · refine handed_on_was_sent (a := (Sample.keyframe.fragment 0, 9)) hother ?_ (by decide)
      Sample.handed_on_keyframe
    have hlen := Sample.length_chunks_keyframe
    intro b hb
    simp only [Sample.heard, List.cons_append, List.nil_append, List.mem_cons, List.not_mem_nil,
      or_false] at hb
    rcases hb with rfl | rfl | rfl
    · exact Sample.genuine_fragment (by simp) (by omega)
    · exact Sample.genuine_fragment (by simp) (by decide)
    · exact Sample.genuine_fragment (by simp) (by omega)

end Rda
