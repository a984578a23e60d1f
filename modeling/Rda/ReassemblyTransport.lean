/-
**The transport of frames in fragments.**

Frames with different ids are cut into fragments, the fragments are encoded, and whatever order they
arrive in, the receiver hands every frame on at its last fragment and nothing else, as long as each
fragment arrives once, every frame arrives within the timeout and not too many frames are incomplete
at once.

The proof is a simulation.  What the receiver holds is determined by what has arrived: of a frame of
which some fragments have arrived, and some have not, it holds the partial frame with just these
slots filled, and of the other frames nothing.

Main definitions:

* `Rda.SentFrame.encoded` — a frame as the receiver hands it on;
* `Rda.SentFrame.partialWith` — a frame of which some fragments have arrived;
* `Rda.SentFrame.inFlight` — what the receiver holds of a frame;
* `Rda.Delivery` — the arrivals the result is about.

Main results:

* `Rda.Reassembler.accept_fragment` — what one fragment does;
* `Rda.Delivery.exact_transport` — **exact transport** of every frame.
-/

import Mathlib.Data.List.Induction
import Mathlib.Data.List.Nodup
import Rda.Reassembly

set_option relaxedAutoImplicit false
set_option autoImplicit false

namespace Rda

namespace SentFrame

variable (f : SentFrame)

/-- The frame as the receiver hands it on. -/
def encoded : EncodedFrame where
  data := f.data
  kind := Partial.kindOf f.kind
  ptsUs := f.ptsUs
  sequence := 0
  temporalLayer := f.temporalLayer
  ltrIndex := none
  qp := none

/-- The frame under construction, first seen at `t`, when the fragments that `got` tells of have
arrived. -/
def partialWith (got : ℕ → Bool) (t : ℕ) : Partial where
  kind := f.kind
  temporalLayer := f.temporalLayer
  ptsUs := f.ptsUs
  slots := (List.range f.chunks.length).map fun i =>
    if got i then some (f.chunks.getD i []) else none
  filled := (List.range f.chunks.length).countP got
  firstSeenMs := t

variable {f} {got got' : ℕ → Bool} {t i : ℕ}

theorem partialWith_congr (h : ∀ j < f.chunks.length, got j = got' j) :
    f.partialWith got t = f.partialWith got' t := by
  have hslots : (List.range f.chunks.length).map
      (fun i => if got i then some (f.chunks.getD i []) else none)
      = (List.range f.chunks.length).map
        fun i => if got' i then some (f.chunks.getD i []) else none :=
    List.map_congr_left fun j hj => by rw [h j (List.mem_range.1 hj)]
  have hfilled : (List.range f.chunks.length).countP got
      = (List.range f.chunks.length).countP got' :=
    List.countP_congr fun j hj => by rw [h j (List.mem_range.1 hj)]
  rw [partialWith, partialWith, hslots, hfilled]

theorem fresh_eq_partialWith (f : SentFrame) (nowMs : ℕ) :
    Reassembler.fresh (.ofNat f.chunks.length) f.kind f.temporalLayer f.ptsUs nowMs
      = f.partialWith (fun _ => false) nowMs := by
  have hcount : (UInt16.ofNat f.chunks.length).toNat = f.chunks.length :=
    f.toNat_ofNat_of_lt le_rfl
  simp [Reassembler.fresh, partialWith, hcount, List.map_const']

/-- Of a list without repetitions, one more member counts. -/
theorem countP_insert {l : List ℕ} (hl : l.Nodup) (hi : i ∈ l) (hgot : got i = false) :
    l.countP (fun j => j == i || got j) = l.countP got + 1 := by
  induction l with
  | nil => cases hi
  | cons x l ih =>
      obtain ⟨hx, hl⟩ := List.nodup_cons.1 hl
      by_cases hxi : x = i
      · subst hxi
        have hrest : l.countP (fun j => j == x || got j) = l.countP got :=
          List.countP_congr fun j hj => by
            have hne : j ≠ x := fun h => hx (h ▸ hj)
            simp [hne]
        rw [List.countP_cons, List.countP_cons, hrest, hgot]
        simp
      · have hi := (List.mem_cons.1 hi).resolve_left (Ne.symm hxi)
        rw [List.countP_cons, List.countP_cons, ih hl hi]
        simp [hxi]
        omega

/-- Putting a fragment that was missing into its slot. -/
theorem partialWith_set (hi : i < f.chunks.length) (hgot : got i = false) :
    { f.partialWith got t with
        slots := (f.partialWith got t).slots.set i (some (f.chunks.getD i [])),
        filled := (f.partialWith got t).filled + 1 }
      = f.partialWith (fun j => j == i || got j) t := by
  have hslots : (f.partialWith got t).slots.set i (some (f.chunks.getD i []))
      = (f.partialWith (fun j => j == i || got j) t).slots := by
    refine List.ext_getElem (by simp [partialWith]) fun j h₁ h₂ => ?_
    rw [List.getElem_set]
    simp only [partialWith, List.getElem_map, List.getElem_range]
    by_cases hij : i = j
    · subst hij
      simp
    · simp [hij, Ne.symm hij]
  have hfilled : (f.partialWith got t).filled + 1
      = (f.partialWith (fun j => j == i || got j) t).filled :=
    (countP_insert List.nodup_range (List.mem_range.2 hi) hgot).symm
  rw [hslots, hfilled]
  rfl

theorem isComplete_partialWith :
    (f.partialWith got t).isComplete = true ↔ ∀ j < f.chunks.length, got j = true := by
  have hall := List.countP_eq_length (p := got) (l := List.range f.chunks.length)
  rw [List.length_range] at hall
  simp [Partial.isComplete, partialWith, hall]

theorem assemble_partialWith (h : ∀ j < f.chunks.length, got j = true) :
    (f.partialWith got t).assemble = f.encoded := by
  have hslots : ((f.partialWith got t).slots.filterMap id).flatten = f.data := by
    have hmap : (f.partialWith got t).slots = f.chunks.map some := by
      refine List.ext_getElem (by simp [partialWith]) fun j h₁ h₂ => ?_
      have hj : j < f.chunks.length := by simpa using h₂
      simp only [partialWith, List.getElem_map, List.getElem_range]
      rw [h j hj, if_pos rfl, List.getD_eq_getElem _ _ hj]
    rw [hmap, List.filterMap_map]
    simp [f.flatten_chunks]
  rw [Partial.assemble, hslots]
  rfl

end SentFrame

/-! ### One fragment -/

namespace Reassembler

variable {r : Reassembler} {f : SentFrame} {got : ℕ → Bool} {t i nowMs : ℕ}

theorem noted_partials_of_recent
    (h : ∀ (id : UInt32) (p : Partial), r.partials[id]? = some p →
      nowMs - p.firstSeenMs ≤ FRAGMENT_TIMEOUT_MS) :
    (r.noted nowMs).partials = r.partials := by
  have hexpired : r.expired nowMs = [] := by
    rw [expired, List.map_eq_nil_iff, List.filter_eq_nil_iff]
    rintro ⟨id, p⟩ hmem
    have hle := h id p (Std.ExtTreeMap.mem_toList_iff_getElem?_eq_some.1 hmem)
    simpa using hle
  rw [noted, expire, hexpired, List.foldl_nil]

theorem slots_partialWith (hi : i < f.chunks.length) (hgot : got i = false) :
    (f.partialWith got t).slots[i]? = some none := by
  simp [SentFrame.partialWith, hi, hgot]

/-- What a fragment does that is neither contradictory nor a duplicate. -/
theorem fill_fragment (hi : i < f.chunks.length) (hgot : got i = false) :
    r.fill? f.frameId (f.partialWith got t) i (f.chunks.getD i []) =
      if (f.partialWith (fun j => j == i || got j) t).isComplete then
        some (some (f.partialWith (fun j => j == i || got j) t).assemble,
          { partials := r.partials.erase f.frameId,
            stats := { r.stats with completed := r.stats.completed + 1 } })
      else
        some (none, enforceCap
          (r.partials.insert f.frameId (f.partialWith (fun j => j == i || got j) t)).size
          { r with
            partials :=
              r.partials.insert f.frameId (f.partialWith (fun j => j == i || got j) t) }) := by
  rw [fill?, slots_partialWith hi hgot]
  dsimp only
  rw [SentFrame.partialWith_set hi hgot]

theorem ofNat_length_eq_one_iff (f : SentFrame) :
    UInt16.ofNat f.chunks.length = 1 ↔ f.chunks.length = 1 := by
  rw [← UInt16.toNat_inj, f.toNat_ofNat_of_lt le_rfl]
  rfl

theorem place_fragment (hi : i < f.chunks.length)
    (hentry : r.partials.getD f.frameId
      (fresh (.ofNat f.chunks.length) f.kind f.temporalLayer f.ptsUs nowMs) = f.partialWith got t)
    (hmany : ¬ (f.chunks.length = 1 ∧ f.frameId ∉ r.partials)) :
    r.place? f.frameId (.ofNat i) (.ofNat f.chunks.length) f.kind f.temporalLayer f.ptsUs
        (f.chunks.getD i []) nowMs
      = r.fill? f.frameId (f.partialWith got t) i (f.chunks.getD i []) := by
  have hcount := f.toNat_ofNat_of_lt le_rfl
  have hindex := f.toNat_ofNat_of_lt hi.le
  have hconsistent : ¬ ((f.partialWith got t).slots.length ≠ (UInt16.ofNat f.chunks.length).toNat ∨
      (f.partialWith got t).ptsUs ≠ f.ptsUs) := by
    rw [hcount]
    simp [SentFrame.partialWith]
  rw [place?, if_neg (by rwa [ofNat_length_eq_one_iff])]
  dsimp only
  rw [hentry, if_neg hconsistent, hindex]

/-- The last fragment of a frame. -/
theorem place_last (hi : i < f.chunks.length) (hgot : got i = false)
    (hentry : r.partials.getD f.frameId
      (fresh (.ofNat f.chunks.length) f.kind f.temporalLayer f.ptsUs nowMs) = f.partialWith got t)
    (hall : ∀ j < f.chunks.length, (j == i || got j) = true) :
    ∃ out, r.place? f.frameId (.ofNat i) (.ofNat f.chunks.length) f.kind f.temporalLayer f.ptsUs
        (f.chunks.getD i []) nowMs = some out ∧ out.1 = some f.encoded ∧
      out.2.partials = r.partials.erase f.frameId := by
  by_cases hsingle : f.chunks.length = 1 ∧ f.frameId ∉ r.partials
  · obtain ⟨hone, hmem⟩ := hsingle
    have hi0 : i = 0 := by omega
    have hpartial : (⟨f.kind, f.temporalLayer, f.ptsUs, [some (f.chunks.getD i [])], 1, nowMs⟩ :
        Partial) = f.partialWith (fun _ => true) nowMs := by
      simp [SentFrame.partialWith, hone, hi0]
    have herase : r.partials.erase f.frameId = r.partials := by
      refine Std.ExtTreeMap.ext_getElem? fun id => ?_
      rw [Std.ExtTreeMap.getElem?_erase]
      split
      · next heq =>
          rw [← Std.compare_eq_iff_eq.1 heq, Std.ExtTreeMap.getElem?_eq_none hmem]
      · rfl
    rw [place?, if_pos ⟨(ofNat_length_eq_one_iff f).2 hone, hmem⟩, hpartial,
      SentFrame.assemble_partialWith fun _ _ => rfl, herase]
    exact ⟨_, rfl, rfl, rfl⟩
  · rw [place_fragment hi hentry hsingle, fill_fragment hi hgot,
      if_pos (SentFrame.isComplete_partialWith.2 hall), SentFrame.assemble_partialWith hall]
    exact ⟨_, rfl, rfl, rfl⟩

/-- A fragment after which others are missing, if there is room for the frame. -/
theorem place_more (hi : i < f.chunks.length) (hgot : got i = false)
    (hentry : r.partials.getD f.frameId
      (fresh (.ofNat f.chunks.length) f.kind f.temporalLayer f.ptsUs nowMs) = f.partialWith got t)
    (hmore : ¬ ∀ j < f.chunks.length, (j == i || got j) = true)
    (hroom : (r.partials.insert f.frameId (f.partialWith (fun j => j == i || got j) t)).size
      ≤ MAX_PARTIAL_FRAMES) :
    ∃ out, r.place? f.frameId (.ofNat i) (.ofNat f.chunks.length) f.kind f.temporalLayer f.ptsUs
        (f.chunks.getD i []) nowMs = some out ∧ out.1 = none ∧
      out.2.partials
        = r.partials.insert f.frameId (f.partialWith (fun j => j == i || got j) t) := by
  have hsingle : ¬ (f.chunks.length = 1 ∧ f.frameId ∉ r.partials) := by
    rintro ⟨hone, -⟩
    refine hmore fun j hj => ?_
    have hji : j = i := by omega
    simp [hji]
  rw [place_fragment hi hentry hsingle, fill_fragment hi hgot,
    if_neg fun hcomplete => hmore (SentFrame.isComplete_partialWith.1 hcomplete)]
  exact ⟨_, rfl, rfl, by rw [enforceCap_of_le hroom]⟩

/-- What a call leaves that places the fragment. -/
theorem accept_fragment_of_place {out : Option EncodedFrame × Reassembler}
    (h : (r.noted nowMs).place? f.frameId (.ofNat i) (.ofNat f.chunks.length) f.kind
      f.temporalLayer f.ptsUs (f.chunks.getD i []) nowMs = some out) :
    r.accept (f.fragment i) nowMs = out := by
  change ((r.noted nowMs).place? f.frameId (.ofNat i) (.ofNat f.chunks.length) f.kind
    f.temporalLayer f.ptsUs (f.chunks.getD i []) nowMs).getD (none, r.noted nowMs) = out
  rw [h, Option.getD_some]

end Reassembler

/-! ### What has arrived -/

namespace SentFrame

/-- Whether the `i`-th fragment is among the arrivals. -/
def got (f : SentFrame) (pre : List Receiver.Arrival) (i : ℕ) : Bool :=
  (pre.map Prod.fst).contains (f.fragment i)

/-- Some fragments of the frame have arrived, and some have not. -/
def Incomplete (f : SentFrame) (pre : List Receiver.Arrival) : Prop :=
  (∃ i < f.chunks.length, f.got pre i = true) ∧ ∃ i < f.chunks.length, f.got pre i = false

instance (f : SentFrame) (pre : List Receiver.Arrival) : Decidable (f.Incomplete pre) :=
  inferInstanceAs (Decidable (_ ∧ _))

/-- Every fragment of the frame has arrived. -/
def Complete (f : SentFrame) (pre : List Receiver.Arrival) : Prop :=
  ∀ i < f.chunks.length, f.got pre i = true

instance (f : SentFrame) (pre : List Receiver.Arrival) : Decidable (f.Complete pre) :=
  inferInstanceAs (Decidable (∀ i < _, _))

/-- When the first fragment of the frame arrived. -/
def firstSeen (f : SentFrame) (pre : List Receiver.Arrival) : Option ℕ :=
  (pre.find? fun a => f.fragments.contains a.1).map Prod.snd

/-- What the receiver holds of the frame. -/
def inFlight (f : SentFrame) (pre : List Receiver.Arrival) : Option Partial :=
  if f.Incomplete pre then some (f.partialWith (f.got pre) ((f.firstSeen pre).getD 0)) else none

variable {f g : SentFrame} {pre : List Receiver.Arrival} {a : Receiver.Arrival} {i : ℕ}

theorem got_iff : f.got pre i = true ↔ f.fragment i ∈ pre.map Prod.fst := List.contains_iff_mem

theorem got_append (hi : i < f.chunks.length) {j : ℕ} (hj : j < f.chunks.length) {nowMs : ℕ} :
    f.got (pre ++ [(f.fragment i, nowMs)]) j = (j == i || f.got pre j) := by
  rw [Bool.eq_iff_iff, got_iff, Bool.or_eq_true, beq_iff_eq, got_iff, List.map_append,
    List.mem_append, List.map_singleton, List.mem_singleton, or_comm]
  exact or_congr ⟨f.fragment_injective hj hi, fun h => by rw [h]⟩ Iff.rfl

/-- A fragment of another frame. -/
theorem got_append_of_ne (hne : a.1 ∉ f.fragments) {j : ℕ} (hj : j < f.chunks.length) :
    f.got (pre ++ [a]) j = f.got pre j := by
  rw [Bool.eq_iff_iff, got_iff, got_iff, List.map_append, List.mem_append, List.map_singleton,
    List.mem_singleton]
  refine or_iff_left fun h => hne ?_
  rw [← h, mem_fragments]
  exact ⟨j, hj, rfl⟩

theorem incomplete_congr {pre' : List Receiver.Arrival}
    (h : ∀ j < f.chunks.length, f.got pre j = f.got pre' j) :
    f.Incomplete pre ↔ f.Incomplete pre' := by
  constructor
  · rintro ⟨⟨i, hi, hgot⟩, j, hj, hmissing⟩
    exact ⟨⟨i, hi, (h i hi).symm.trans hgot⟩, j, hj, (h j hj).symm.trans hmissing⟩
  · rintro ⟨⟨i, hi, hgot⟩, j, hj, hmissing⟩
    exact ⟨⟨i, hi, (h i hi).trans hgot⟩, j, hj, (h j hj).trans hmissing⟩

theorem firstSeen_append_of_ne (hne : a.1 ∉ f.fragments) :
    f.firstSeen (pre ++ [a]) = f.firstSeen pre := by
  have hcontains : f.fragments.contains a.1 = false := by
    rw [← Bool.not_eq_true, List.contains_iff_mem]
    exact hne
  rw [firstSeen, List.find?_append, List.find?_cons_of_neg (by simpa using hcontains),
    List.find?_nil, Option.or_none]
  rfl

theorem inFlight_append_of_ne (hne : a.1 ∉ f.fragments) :
    f.inFlight (pre ++ [a]) = f.inFlight pre := by
  have hgot : ∀ j < f.chunks.length, f.got (pre ++ [a]) j = f.got pre j :=
    fun j hj => got_append_of_ne hne hj
  rw [inFlight, inFlight, firstSeen_append_of_ne hne, partialWith_congr hgot]
  exact if_congr (incomplete_congr hgot) rfl rfl

theorem firstSeen_eq_none_iff :
    f.firstSeen pre = none ↔ ∀ j < f.chunks.length, f.got pre j = false := by
  rw [firstSeen, Option.map_eq_none_iff, List.find?_eq_none]
  constructor
  · intro h j hj
    rw [← Bool.not_eq_true, got_iff]
    intro hmem
    obtain ⟨b, hb, hbj⟩ := List.mem_map.1 hmem
    refine h b hb ?_
    rw [List.contains_iff_mem, hbj, mem_fragments]
    exact ⟨j, hj, rfl⟩
  · intro h b hb hcontains
    rw [List.contains_iff_mem, mem_fragments] at hcontains
    obtain ⟨j, hj, hbj⟩ := hcontains
    have hgot := got_iff.2 (hbj ▸ List.mem_map_of_mem hb : f.fragment j ∈ pre.map Prod.fst)
    rw [h j hj] at hgot
    cases hgot

theorem firstSeen_append (hi : i < f.chunks.length) {nowMs : ℕ} :
    f.firstSeen (pre ++ [(f.fragment i, nowMs)]) = some ((f.firstSeen pre).getD nowMs) := by
  have hcontains : f.fragments.contains (f.fragment i) = true := by
    rw [List.contains_iff_mem, mem_fragments]
    exact ⟨i, hi, rfl⟩
  have hfind : [(f.fragment i, nowMs)].find? (fun a => f.fragments.contains a.1)
      = some (f.fragment i, nowMs) := List.find?_cons_of_pos hcontains
  rw [firstSeen, List.find?_append, hfind, firstSeen]
  cases pre.find? fun a => f.fragments.contains a.1 with
  | none => rfl
  | some b => rfl

end SentFrame

/-! ### The simulation -/

/-- The reassembler after an arrival. -/
def Reassembler.acceptStep (r : Reassembler) (a : Receiver.Arrival) : Reassembler :=
  (r.accept a.1 a.2).2

/-- The frames that are handed on, in order. -/
def Reassembler.emissions (r : Reassembler) : List Receiver.Arrival → List EncodedFrame
  | [] => []
  | a :: arrivals => (r.accept a.1 a.2).1.toList ++ emissions (r.acceptStep a) arrivals

theorem Reassembler.emissions_append (r : Reassembler) (pre post : List Receiver.Arrival) :
    r.emissions (pre ++ post)
      = r.emissions pre ++ (Machine.run acceptStep r pre).emissions post := by
  induction pre generalizing r with
  | nil => rfl
  | cons a pre ih => rw [List.cons_append, emissions, ih, ← List.append_assoc]; rfl

/-- What the receiver holds is what has arrived of the incomplete frames. -/
structure Holds (frames : List SentFrame) (pre : List Receiver.Arrival)
    (partials : Std.ExtTreeMap UInt32 Partial) : Prop where
  frame : ∀ f ∈ frames, partials[f.frameId]? = f.inFlight pre
  only : ∀ id ∈ partials, ∃ f ∈ frames, f.frameId = id

theorem Holds.empty (frames : List SentFrame) : Holds frames [] ∅ where
  frame f _ := by
    have hnot : ¬ f.Incomplete [] := by
      rintro ⟨⟨i, -, hgot⟩, -⟩
      cases hgot
    rw [Std.ExtTreeMap.getElem?_empty, SentFrame.inFlight, if_neg hnot]
  only id hid := absurd hid Std.ExtTreeMap.not_mem_empty

/-- The receiver holds as many frames as are incomplete. -/
theorem Holds.size_le {frames : List SentFrame} {pre : List Receiver.Arrival}
    {partials : Std.ExtTreeMap UInt32 Partial} (h : Holds frames pre partials) :
    partials.size ≤ (frames.filter fun f => f.Incomplete pre).length := by
  have hsub : partials.keys ⊆ (frames.filter fun f => f.Incomplete pre).map SentFrame.frameId := by
    intro id hid
    obtain ⟨f, hf, rfl⟩ := h.only id (Std.ExtTreeMap.mem_keys.1 hid)
    refine List.mem_map.2 ⟨f, List.mem_filter.2 ⟨hf, ?_⟩, rfl⟩
    rw [decide_eq_true_eq]
    by_contra hnot
    have hsome := Std.ExtTreeMap.mem_iff_isSome_getElem?.1 (Std.ExtTreeMap.mem_keys.1 hid)
    rw [h.frame f hf, SentFrame.inFlight, if_neg hnot] at hsome
    cases hsome
  have hle := Std.ExtTreeMap.nodup_keys.length_le_of_subset hsub
  rwa [Std.ExtTreeMap.length_keys, List.length_map] at hle

/-- **The arrivals**: the frames have different ids, every fragment of every frame arrives once, in
any order, at times that do not decrease; at no moment are more frames incomplete than the receiver
keeps; and the fragments of a frame arrive within the timeout. -/
structure Delivery (frames : List SentFrame) (arrivals : List Receiver.Arrival) : Prop where
  ids : (frames.map SentFrame.frameId).Nodup
  once : (arrivals.map Prod.fst).Perm (frames.flatMap SentFrame.fragments)
  ordered : (arrivals.map Prod.snd).Pairwise (· ≤ ·)
  room : ∀ pre, pre <+: arrivals →
    (frames.filter fun f => f.Incomplete pre).length ≤ MAX_PARTIAL_FRAMES
  timely : ∀ f ∈ frames, ∀ a ∈ arrivals, ∀ b ∈ arrivals, a.1 ∈ f.fragments → b.1 ∈ f.fragments →
    b.2 ≤ a.2 + FRAGMENT_TIMEOUT_MS

namespace Delivery

variable {frames : List SentFrame} {arrivals pre post : List Receiver.Arrival}
  {a : Receiver.Arrival} {f g : SentFrame}

theorem exists_frame (h : Delivery frames arrivals) (ha : a ∈ arrivals) :
    ∃ f ∈ frames, ∃ i < f.chunks.length, f.fragment i = a.1 := by
  obtain ⟨f, hf, hmem⟩ := List.mem_flatMap.1 (h.once.mem_iff.1 (List.mem_map_of_mem ha))
  exact ⟨f, hf, f.mem_fragments.1 hmem⟩

theorem frameIdOf_of_mem_fragments {payload : Payload} (h : payload ∈ f.fragments) :
    Reassembler.frameIdOf payload = some f.frameId := by
  obtain ⟨i, -, rfl⟩ := f.mem_fragments.1 h
  rfl

theorem eq_of_frameId_eq (h : Delivery frames arrivals) (hf : f ∈ frames) (hg : g ∈ frames)
    (hid : f.frameId = g.frameId) : f = g :=
  List.inj_on_of_nodup_map h.ids hf hg hid

/-- A fragment belongs to one frame only. -/
theorem eq_of_mem_fragments (h : Delivery frames arrivals) (hf : f ∈ frames) (hg : g ∈ frames)
    {payload : Payload} (hpf : payload ∈ f.fragments) (hpg : payload ∈ g.fragments) : f = g := by
  refine h.eq_of_frameId_eq hf hg (Option.some.inj ?_)
  rw [← frameIdOf_of_mem_fragments hpf, ← frameIdOf_of_mem_fragments hpg]

theorem nodup_arrivals (h : Delivery frames arrivals) : (arrivals.map Prod.fst).Nodup := by
  rw [h.once.nodup_iff, List.nodup_flatMap]
  refine ⟨fun f _ => ?_, (List.pairwise_map.1 h.ids).imp ?_⟩
  · rw [f.fragments_eq, List.nodup_map_iff_inj_on List.nodup_range]
    intro i hi j hj hij
    exact f.fragment_injective (List.mem_range.1 hi) (List.mem_range.1 hj) hij
  · intro f g hne payload hf hg
    refine hne (Option.some.inj ?_)
    rw [← frameIdOf_of_mem_fragments hf, ← frameIdOf_of_mem_fragments hg]

/-- The arrival after a prefix has not arrived before. -/
theorem not_mem_prefix (h : Delivery frames arrivals) (hpre : pre ++ [a] <+: arrivals) :
    a.1 ∉ pre.map Prod.fst := by
  have hnodup := ((hpre.map Prod.fst).sublist.nodup h.nodup_arrivals)
  rw [List.map_append, List.map_singleton, List.nodup_append] at hnodup
  intro hmem
  exact hnodup.2.2 _ hmem _ List.mem_cons_self rfl

/-- The first fragment of a frame of which something has arrived. -/
theorem exists_first {i : ℕ} (hi : i < f.chunks.length) (hgot : f.got pre i = true) :
    ∃ b ∈ pre, b.1 ∈ f.fragments ∧ f.firstSeen pre = some b.2 := by
  cases hfind : pre.find? fun a => f.fragments.contains a.1 with
  | none =>
      have hnone : f.firstSeen pre = none := by rw [SentFrame.firstSeen, hfind]; rfl
      rw [SentFrame.firstSeen_eq_none_iff.1 hnone i hi] at hgot
      cases hgot
  | some b =>
      refine ⟨b, List.mem_of_find?_eq_some hfind, ?_, by rw [SentFrame.firstSeen, hfind]; rfl⟩
      simpa using List.find?_some hfind

/-- A fragment that is still missing arrives with the next one, or later. -/
theorem exists_later (h : Delivery frames arrivals) (hpre : pre ++ [a] <+: arrivals)
    (hf : f ∈ frames) {j : ℕ} (hj : j < f.chunks.length) (hmissing : f.got pre j = false) :
    ∃ c ∈ arrivals, c.1 ∈ f.fragments ∧ a.2 ≤ c.2 := by
  obtain ⟨post, rfl⟩ := hpre
  have hfragment : f.fragment j ∈ f.fragments := f.mem_fragments.2 ⟨j, hj, rfl⟩
  have hmem := h.once.mem_iff.2 (List.mem_flatMap.2 ⟨f, hf, hfragment⟩)
  obtain ⟨c, hc, hcj⟩ := List.mem_map.1 hmem
  refine ⟨c, hc, hcj ▸ hfragment, ?_⟩
  have hnot : c ∉ pre := by
    intro hcpre
    have hgot :=
      SentFrame.got_iff.2 (hcj ▸ List.mem_map_of_mem hcpre : f.fragment j ∈ pre.map Prod.fst)
    rw [hmissing] at hgot
    cases hgot
  have hordered := h.ordered
  rw [List.append_assoc, List.map_append, List.pairwise_append] at hordered
  rw [List.append_assoc, List.mem_append, or_iff_right hnot] at hc
  rcases List.mem_cons.1 hc with rfl | hc
  · exact le_rfl
  · exact (List.pairwise_cons.1 hordered.2.1).1 c.2 (List.mem_map_of_mem hc)

/-- Whatever is incomplete when the next fragment arrives is still within the timeout. -/
theorem recent (h : Delivery frames arrivals) (hpre : pre ++ [a] <+: arrivals) (hf : f ∈ frames)
    {p : Partial} (hp : f.inFlight pre = some p) : a.2 - p.firstSeenMs ≤ FRAGMENT_TIMEOUT_MS := by
  rw [SentFrame.inFlight] at hp
  split at hp
  · next hincomplete =>
      obtain ⟨⟨i, hi, hgot⟩, j, hj, hmissing⟩ := hincomplete
      obtain ⟨b, hb, hbf, hfirst⟩ := exists_first hi hgot
      obtain ⟨c, hc, hcf, hlater⟩ := h.exists_later hpre hf hj hmissing
      obtain ⟨post, hpost⟩ := hpre
      have hbin : b ∈ arrivals := by
        rw [← hpost]
        simp [hb]
      have htimely := h.timely f hf b hbin c hc hbf hcf
      rw [← Option.some.inj hp, SentFrame.partialWith, hfirst]
      dsimp only [Option.getD_some]
      omega
  · cases hp

section Step

variable {r : Reassembler} {i nowMs : ℕ}

theorem not_mem_fragments (h : Delivery frames arrivals) (hf : f ∈ frames)
    (hi : i < f.chunks.length) (hg : g ∈ frames) (hne : g ≠ f) : f.fragment i ∉ g.fragments :=
  fun hmem => hne (h.eq_of_mem_fragments hg hf hmem (f.mem_fragments.2 ⟨i, hi, rfl⟩))

theorem noted_partials (h : Delivery frames arrivals) (hpre : pre ++ [a] <+: arrivals)
    (hr : Holds frames pre r.partials) : (r.noted a.2).partials = r.partials := by
  refine Reassembler.noted_partials_of_recent fun id p hp => ?_
  obtain ⟨g, hg, rfl⟩ := hr.only id (Std.ExtTreeMap.mem_iff_isSome_getElem?.2 (by rw [hp]; rfl))
  rw [hr.frame g hg] at hp
  exact h.recent hpre hg hp

/-- The frame as a fragment that is missing finds it. -/
theorem getD_partials (hf : f ∈ frames) (hi : i < f.chunks.length) (hgot : f.got pre i = false)
    (hr : Holds frames pre r.partials) :
    r.partials.getD f.frameId
        (Reassembler.fresh (.ofNat f.chunks.length) f.kind f.temporalLayer f.ptsUs nowMs)
      = f.partialWith (f.got pre) ((f.firstSeen pre).getD nowMs) := by
  rw [Std.ExtTreeMap.getD_eq_getD_getElem?, hr.frame f hf, SentFrame.inFlight]
  cases hfirst : f.firstSeen pre with
  | none =>
      have hnone := SentFrame.firstSeen_eq_none_iff.1 hfirst
      have hnot : ¬ f.Incomplete pre := by
        rintro ⟨⟨j, hj, hgot⟩, -⟩
        rw [hnone j hj] at hgot
        cases hgot
      rw [if_neg hnot, Option.getD_none, SentFrame.fresh_eq_partialWith]
      exact SentFrame.partialWith_congr fun j hj => (hnone j hj).symm
  | some t =>
      have hstarted : ∃ j < f.chunks.length, f.got pre j = true := by
        by_contra hnone
        have hfalse : ∀ j < f.chunks.length, f.got pre j = false := fun j hj =>
          Bool.eq_false_iff.2 fun hgot => hnone ⟨j, hj, hgot⟩
        rw [SentFrame.firstSeen_eq_none_iff.2 hfalse] at hfirst
        cases hfirst
      rw [if_pos ⟨hstarted, i, hi, hgot⟩]
      rfl

/-- The other frames are not concerned. -/
theorem holds_of_update (h : Delivery frames arrivals) (hf : f ∈ frames)
    (hi : i < f.chunks.length) {partials : Std.ExtTreeMap UInt32 Partial}
    (hr : Holds frames pre r.partials)
    (hframe : partials[f.frameId]? = f.inFlight (pre ++ [(f.fragment i, nowMs)]))
    (hother : ∀ id, id ≠ f.frameId → partials[id]? = r.partials[id]?) :
    Holds frames (pre ++ [(f.fragment i, nowMs)]) partials := by
  constructor
  · intro g hg
    by_cases hgf : g = f
    · rw [hgf]
      exact hframe
    · have hid : g.frameId ≠ f.frameId := fun hid => hgf (h.eq_of_frameId_eq hg hf hid)
      rw [hother _ hid, hr.frame g hg,
        SentFrame.inFlight_append_of_ne (h.not_mem_fragments hf hi hg hgf)]
  · intro id hid
    by_cases hidf : id = f.frameId
    · exact ⟨f, hf, hidf.symm⟩
    · refine hr.only id (Std.ExtTreeMap.mem_iff_isSome_getElem?.2 ?_)
      rw [← hother id hidf]
      exact Std.ExtTreeMap.mem_iff_isSome_getElem?.1 hid

/-- What is held of a frame after a fragment that leaves others missing. -/
theorem inFlight_append (hi : i < f.chunks.length)
    (hmore : ¬ ∀ j < f.chunks.length, (j == i || f.got pre j) = true) :
    f.inFlight (pre ++ [(f.fragment i, nowMs)])
      = some (f.partialWith (fun j => j == i || f.got pre j)
          ((f.firstSeen pre).getD nowMs)) := by
  have hgot : ∀ j < f.chunks.length,
      f.got (pre ++ [(f.fragment i, nowMs)]) j = (j == i || f.got pre j) :=
    fun j hj => SentFrame.got_append hi hj
  have hincomplete : f.Incomplete (pre ++ [(f.fragment i, nowMs)]) := by
    refine ⟨⟨i, hi, by rw [hgot i hi]; simp⟩, ?_⟩
    by_contra hnone
    refine hmore fun j hj => ?_
    rw [← hgot j hj, ← Bool.not_eq_false]
    exact fun hfalse => hnone ⟨j, hj, hfalse⟩
  rw [SentFrame.inFlight, if_pos hincomplete, SentFrame.firstSeen_append hi, Option.getD_some,
    SentFrame.partialWith_congr hgot]

theorem inFlight_append_last (hi : i < f.chunks.length)
    (hall : ∀ j < f.chunks.length, (j == i || f.got pre j) = true) :
    f.inFlight (pre ++ [(f.fragment i, nowMs)]) = none := by
  refine if_neg ?_
  rintro ⟨-, j, hj, hmissing⟩
  rw [SentFrame.got_append hi hj, hall j hj] at hmissing
  cases hmissing

/-- **One step of the simulation.** -/
theorem holds_step (h : Delivery frames arrivals)
    (hpre : pre ++ [(f.fragment i, nowMs)] <+: arrivals) (hf : f ∈ frames)
    (hi : i < f.chunks.length) (hr : Holds frames pre r.partials) :
    (r.accept (f.fragment i) nowMs).1
        = (if f.Complete (pre ++ [(f.fragment i, nowMs)]) then some f.encoded else none) ∧
      Holds frames (pre ++ [(f.fragment i, nowMs)]) (r.accept (f.fragment i) nowMs).2.partials := by
  have hgot : f.got pre i = false := by
    rw [← Bool.not_eq_true, SentFrame.got_iff]
    exact h.not_mem_prefix hpre
  have hnoted : (r.noted nowMs).partials = r.partials := h.noted_partials hpre hr
  have hentry : (r.noted nowMs).partials.getD f.frameId
      (Reassembler.fresh (.ofNat f.chunks.length) f.kind f.temporalLayer f.ptsUs nowMs) = _ :=
    getD_partials hf hi hgot (by rwa [hnoted])
  have hall_iff : f.Complete (pre ++ [(f.fragment i, nowMs)]) ↔
      ∀ j < f.chunks.length, (j == i || f.got pre j) = true :=
    forall₂_congr fun j hj => by rw [SentFrame.got_append hi hj]
  by_cases hall : ∀ j < f.chunks.length, (j == i || f.got pre j) = true
  · -- The last fragment: the frame is handed on and its entry goes.
    obtain ⟨out, hplace, hout, hpartials⟩ := Reassembler.place_last hi hgot hentry hall
    rw [if_pos (hall_iff.2 hall), Reassembler.accept_fragment_of_place hplace, hpartials, hnoted]
    refine ⟨hout, h.holds_of_update hf hi hr ?_ ?_⟩
    · rw [inFlight_append_last hi hall, Std.ExtTreeMap.getElem?_erase_self]
    · intro id hid
      rw [Std.ExtTreeMap.getElem?_erase, if_neg]
      exact fun heq => hid (Std.compare_eq_iff_eq.1 heq).symm
  · -- One of several: its slot is filled, and there is room for the entry.
    have hholds : Holds frames (pre ++ [(f.fragment i, nowMs)]) (r.partials.insert f.frameId
        (f.partialWith (fun j => j == i || f.got pre j) ((f.firstSeen pre).getD nowMs))) := by
      refine h.holds_of_update hf hi hr ?_ ?_
      · rw [inFlight_append hi hall, Std.ExtTreeMap.getElem?_insert_self]
      · intro id hid
        rw [Std.ExtTreeMap.getElem?_insert, if_neg]
        exact fun heq => hid (Std.compare_eq_iff_eq.1 heq).symm
    have hroom := hholds.size_le.trans (h.room _ hpre)
    rw [← hnoted] at hroom hholds
    obtain ⟨out, hplace, hout, hpartials⟩ := Reassembler.place_more hi hgot hentry hall hroom
    rw [if_neg fun hn => hall (hall_iff.1 hn), Reassembler.accept_fragment_of_place hplace,
      hpartials]
    exact ⟨hout, hholds⟩

end Step

/-- Whatever has arrived, the receiver holds what has arrived of the incomplete frames. -/
theorem holds_run (h : Delivery frames arrivals) (hpre : pre <+: arrivals) :
    Holds frames pre (Machine.run Reassembler.acceptStep .new pre).partials := by
  induction pre using List.reverseRecOn with
  | nil => exact .empty frames
  | append_singleton pre a ih =>
      have hr := ih ((List.prefix_append pre [a]).trans hpre)
      obtain ⟨f, hf, i, hi, hfi⟩ := h.exists_frame (hpre.subset (List.mem_append_right pre
        List.mem_cons_self))
      obtain ⟨payload, nowMs⟩ := a
      obtain rfl := hfi
      rw [Machine.run_append]
      exact (h.holds_step hpre hf hi hr).2

/-- A frame is complete with an arrival of it exactly when none of its fragments is still to
come. -/
theorem complete_iff (h : Delivery frames arrivals) (harrivals : arrivals = pre ++ a :: post)
    (hf : f ∈ frames) : f.Complete (pre ++ [a]) ↔ ∀ b ∈ post, b.1 ∉ f.fragments := by
  have happend : arrivals = (pre ++ [a]) ++ post := by simp [harrivals]
  have hnodup := h.nodup_arrivals
  rw [happend, List.map_append, List.nodup_append] at hnodup
  constructor
  · intro hcomplete b hb hmem
    obtain ⟨j, hj, hbj⟩ := f.mem_fragments.1 hmem
    exact hnodup.2.2 _ (SentFrame.got_iff.1 (hcomplete j hj)) _ (List.mem_map_of_mem hb) hbj
  · intro hpost j hj
    have hmem := h.once.mem_iff.2 (List.mem_flatMap.2 ⟨f, hf, f.mem_fragments.2 ⟨j, hj, rfl⟩⟩)
    rw [happend, List.map_append, List.mem_append] at hmem
    refine SentFrame.got_iff.2 (hmem.resolve_right fun hn => ?_)
    obtain ⟨b, hb, hbj⟩ := List.mem_map.1 hn
    exact hpost b hb (hbj ▸ f.mem_fragments.2 ⟨j, hj, rfl⟩)

/-- What is handed on at an arrival. -/
theorem accept_eq (h : Delivery frames arrivals) (hpre : pre ++ [a] <+: arrivals) (hf : f ∈ frames)
    (ha : a.1 ∈ f.fragments) :
    ((Machine.run Reassembler.acceptStep .new pre).accept a.1 a.2).1
      = if f.Complete (pre ++ [a]) then some f.encoded else none := by
  have hr := h.holds_run ((List.prefix_append pre [a]).trans hpre)
  obtain ⟨payload, nowMs⟩ := a
  obtain ⟨i, hi, rfl⟩ := f.mem_fragments.1 ha
  exact (h.holds_step hpre hf hi hr).1

theorem complete_append_of_ne (hne : a.1 ∉ g.fragments) :
    g.Complete (pre ++ [a]) ↔ g.Complete pre :=
  forall₂_congr fun _ hj => by rw [SentFrame.got_append_of_ne hne hj]

/-- An arrival completes at most its own frame. -/
theorem filter_complete_perm (h : Delivery frames arrivals) (hpre : pre ++ [a] <+: arrivals)
    (hf : f ∈ frames) (ha : a.1 ∈ f.fragments) :
    (frames.filter fun g => g.Complete (pre ++ [a])).Perm
      ((frames.filter fun g => g.Complete pre) ++ if f.Complete (pre ++ [a]) then [f] else []) := by
  have hother : ∀ g ∈ frames, g ≠ f → (g.Complete (pre ++ [a]) ↔ g.Complete pre) := fun g hg hgf =>
    complete_append_of_ne fun hmem => hgf (h.eq_of_mem_fragments hg hf hmem ha)
  have hbefore : ¬ f.Complete pre := by
    obtain ⟨i, hi, hai⟩ := f.mem_fragments.1 ha
    intro hcomplete
    exact h.not_mem_prefix hpre (hai ▸ SentFrame.got_iff.1 (hcomplete i hi))
  have hframes : frames.Nodup := List.Nodup.of_map _ h.ids
  have hnodup : ((frames.filter fun g => g.Complete pre) ++
      if f.Complete (pre ++ [a]) then [f] else []).Nodup := by
    rw [List.nodup_append]
    refine ⟨hframes.filter _, by split <;> simp, ?_⟩
    intro g hg g' hg' heq
    split at hg'
    · rw [heq, List.mem_singleton.1 hg', List.mem_filter, decide_eq_true_eq] at hg
      exact hbefore hg.2
    · cases hg'
  rw [List.perm_ext_iff_of_nodup (hframes.filter _) hnodup]
  intro g
  by_cases hgf : g = f
  · subst hgf
    by_cases hcomplete : g.Complete (pre ++ [a])
    · simp [hf, hcomplete]
    · simp [hcomplete, hbefore]
  · have hnot : g ∉ if f.Complete (pre ++ [a]) then [f] else [] := by
      split <;> simp [hgf]
    rw [List.mem_append, or_iff_left hnot, List.mem_filter, List.mem_filter, decide_eq_true_eq,
      decide_eq_true_eq]
    exact and_congr_right fun hg => hother g hg hgf

/-- What has been handed on are the frames that are complete. -/
theorem emissions_perm (h : Delivery frames arrivals) (hpre : pre <+: arrivals) :
    (Reassembler.new.emissions pre).Perm
      ((frames.filter fun f => f.Complete pre).map SentFrame.encoded) := by
  induction pre using List.reverseRecOn with
  | nil =>
      have hnone : (frames.filter fun f => f.Complete []) = [] := by
        rw [List.filter_eq_nil_iff]
        intro f _ hcomplete
        have hgot := of_decide_eq_true hcomplete 0 f.length_chunks_pos
        cases hgot
      rw [hnone]
      exact .nil
  | append_singleton pre a ih =>
      have hprefix := (List.prefix_append pre [a]).trans hpre
      obtain ⟨f, hf, i, hi, hfi⟩ := h.exists_frame (hpre.subset (List.mem_append_right pre
        List.mem_cons_self))
      have ha : a.1 ∈ f.fragments := f.mem_fragments.2 ⟨i, hi, hfi⟩
      rw [Reassembler.emissions_append]
      refine .trans ?_ ((h.filter_complete_perm hpre hf ha).map _).symm
      rw [List.map_append]
      refine (ih hprefix).append ?_
      rw [Reassembler.emissions, Reassembler.emissions, h.accept_eq hpre hf ha, List.append_nil]
      split <;> exact .rfl

end Delivery

/-! ### The wire -/

/-- A fragment as it is sent, and when it arrives. -/
structure VideoMessage where
  payload : Payload
  sequence : UInt16
  timestampMs : UInt32
  nowMs : ℕ

namespace VideoMessage

/-- The bytes of the message. -/
def bytes (m : VideoMessage) : List UInt8 :=
  (ControlFrame.new m.payload m.sequence m.timestampMs).encode

/-- The fragment with the moment of its arrival. -/
def arrival (m : VideoMessage) : Receiver.Arrival := (m.payload, m.nowMs)

end VideoMessage

namespace Reassembler

/-- Accepts the bytes of one message. -/
def receive (r : Reassembler) (m : VideoMessage) : Option EncodedFrame × Reassembler :=
  match ControlFrame.decode m.bytes with
  | .ok frame => r.accept frame.payload m.nowMs
  | .error _ => (none, r)

/-- The reassembler after one message. -/
def receiveStep (r : Reassembler) (m : VideoMessage) : Reassembler := (r.receive m).2

/-- The frames that are handed on, in order. -/
def handedOn (r : Reassembler) : List VideoMessage → List EncodedFrame
  | [] => []
  | m :: messages => (r.receive m).1.toList ++ handedOn (r.receiveStep m) messages

theorem receive_eq {r : Reassembler} {m : VideoMessage} {f : SentFrame}
    (h : m.payload ∈ f.fragments) :
    r.receive m = r.accept m.payload m.nowMs := by
  obtain ⟨i, hi, hm⟩ := f.mem_fragments.1 h
  rw [receive, VideoMessage.bytes, ← hm, f.decode_encode_fragment hi]
  rfl

end Reassembler

namespace Delivery

variable {frames : List SentFrame} {messages : List VideoMessage}

/-- On the fragments of frames, the wire makes no difference. -/
theorem run_receiveStep (r : Reassembler)
    (h : ∀ m ∈ messages, ∃ f ∈ frames, m.payload ∈ f.fragments) :
    Machine.run Reassembler.receiveStep r messages
      = Machine.run Reassembler.acceptStep r (messages.map VideoMessage.arrival) := by
  induction messages generalizing r with
  | nil => rfl
  | cons m messages ih =>
      obtain ⟨f, -, hm⟩ := h m List.mem_cons_self
      rw [Machine.run_cons, List.map_cons, Machine.run_cons, Reassembler.receiveStep,
        Reassembler.receive_eq hm]
      exact ih _ fun m' hm' => h m' (List.mem_cons_of_mem m hm')

theorem handedOn_eq (r : Reassembler)
    (h : ∀ m ∈ messages, ∃ f ∈ frames, m.payload ∈ f.fragments) :
    r.handedOn messages = r.emissions (messages.map VideoMessage.arrival) := by
  induction messages generalizing r with
  | nil => rfl
  | cons m messages ih =>
      obtain ⟨f, -, hm⟩ := h m List.mem_cons_self
      rw [Reassembler.handedOn, List.map_cons, Reassembler.emissions, Reassembler.receiveStep,
        Reassembler.receive_eq hm, ih _ fun m' hm' => h m' (List.mem_cons_of_mem m hm')]
      rfl

theorem exists_frame_of_message (h : Delivery frames (messages.map VideoMessage.arrival)) :
    ∀ m ∈ messages, ∃ f ∈ frames, m.payload ∈ f.fragments := by
  intro m hm
  obtain ⟨f, hf, i, hi, hmi⟩ := h.exists_frame (List.mem_map_of_mem hm)
  exact ⟨f, hf, f.mem_fragments.2 ⟨i, hi, hmi⟩⟩

/-- **Exact transport.**  If frames with different ids are fragmented, and every fragment is encoded
and arrives once, in any order, then at every message the receiver hands on the frame that the
message is the last fragment of, with the bytes, the kind, the temporal layer and the timestamp it
was sent with, and nothing at the other messages; so that every frame is handed on exactly once.
The kind is the one whose byte was sent. -/
theorem exact_transport (h : Delivery frames (messages.map VideoMessage.arrival)) :
    (∀ pre m post, messages = pre ++ m :: post → ∀ f ∈ frames, m.payload ∈ f.fragments →
      ((Machine.run Reassembler.receiveStep .new pre).receive m).1
        = if ∃ m' ∈ post, m'.payload ∈ f.fragments then none else some f.encoded) ∧
    (Reassembler.new.handedOn messages).Perm (frames.map SentFrame.encoded) ∧
    ∀ f ∈ frames, f.encoded.kind.code = f.kind := by
  have hframes := h.exists_frame_of_message
  refine ⟨?_, ?_, fun f _ => code_kindOf f.kind_le⟩
  · intro pre m post hmessages f hf hm
    have hprefix : ∀ m ∈ pre, ∃ f ∈ frames, m.payload ∈ f.fragments := fun m' hm' =>
      hframes m' (by rw [hmessages]; exact List.mem_append_left _ hm')
    have harrivals : messages.map VideoMessage.arrival
        = pre.map VideoMessage.arrival ++ m.arrival :: post.map VideoMessage.arrival := by
      rw [hmessages, List.map_append, List.map_cons]
    have hpre :
        pre.map VideoMessage.arrival ++ [m.arrival] <+: messages.map VideoMessage.arrival := by
      rw [harrivals]
      exact ⟨post.map VideoMessage.arrival, by simp⟩
    rw [Reassembler.receive_eq hm, run_receiveStep _ hprefix]
    refine (h.accept_eq hpre hf hm).trans ?_
    rw [if_congr (h.complete_iff harrivals hf) rfl rfl]
    by_cases hlast : ∃ m' ∈ post, m'.payload ∈ f.fragments
    · obtain ⟨m', hm', hmem⟩ := hlast
      rw [if_neg fun hn => hn m'.arrival (List.mem_map_of_mem hm') hmem, if_pos ⟨m', hm', hmem⟩]
    · rw [if_neg hlast, if_pos]
      intro b hb hmem
      obtain ⟨m', hm', rfl⟩ := List.mem_map.1 hb
      exact hlast ⟨m', hm', hmem⟩
  · rw [handedOn_eq _ hframes]
    refine (h.emissions_perm (List.prefix_refl _)).trans ?_
    rw [List.filter_eq_self.2]
    intro f hf
    refine decide_eq_true fun i hi => SentFrame.got_iff.2 (h.once.mem_iff.2 ?_)
    exact List.mem_flatMap.2 ⟨f, hf, f.mem_fragments.2 ⟨i, hi, rfl⟩⟩

end Delivery

/-- A keyframe of two fragments. -/
def Sample.keyframe : SentFrame where
  frameId := 1
  kind := 1
  temporalLayer := 0
  ptsUs := 0
  data := List.replicate 16385 7
  kind_le := by decide
  length_le := by
    rw [List.length_replicate]
    decide

/-- An empty frame, which is one fragment. -/
def Sample.emptyFrame : SentFrame where
  frameId := 2
  kind := 0
  temporalLayer := 1
  ptsUs := 33333
  data := []
  kind_le := by decide
  length_le := by decide

theorem Sample.length_chunks_keyframe : Sample.keyframe.chunks.length = 2 := by
  rw [SentFrame.chunks, videoChunks, if_neg (by decide), Windows.chunks, List.length_map,
    List.length_range, keyframe, List.length_replicate]
  decide

/-- The fragments of the two frames, the keyframe's in the wrong order. -/
def Sample.messages : List VideoMessage :=
  [⟨Sample.keyframe.fragment 1, 1, 0, 0⟩, ⟨Sample.emptyFrame.fragment 0, 2, 0, 3⟩,
    ⟨Sample.keyframe.fragment 0, 0, 0, 9⟩]

namespace Delivery

theorem delivery_messages :
    Delivery [Sample.keyframe, Sample.emptyFrame] (Sample.messages.map VideoMessage.arrival) where
  ids := by decide
  once := by
    have hkeyframe : Sample.keyframe.fragments
        = [Sample.keyframe.fragment 0, Sample.keyframe.fragment 1] := by
      rw [SentFrame.fragments_eq, Sample.length_chunks_keyframe]
      rfl
    have hempty : Sample.emptyFrame.fragments = [Sample.emptyFrame.fragment 0] :=
      Sample.emptyFrame.fragments_eq
    have hcomm : ([Sample.keyframe.fragment 1, Sample.emptyFrame.fragment 0] ++
        [Sample.keyframe.fragment 0]).Perm _ := List.perm_append_comm
    rw [List.flatMap_cons, List.flatMap_singleton, hkeyframe, hempty]
    exact hcomm
  ordered := by decide
  room pre _ := (List.length_filter_le _ _).trans (by decide)
  timely f _ a _ b hb _ _ := by
    have hle : ∀ c ∈ Sample.messages.map VideoMessage.arrival, c.2 ≤ FRAGMENT_TIMEOUT_MS := by
      decide
    exact (hle b hb).trans (Nat.le_add_left _ _)

/-- The two frames are handed on. -/
theorem exact_transport_messages :
    Delivery [Sample.keyframe, Sample.emptyFrame] (Sample.messages.map VideoMessage.arrival) ∧
      (Reassembler.new.handedOn Sample.messages).Perm
        [Sample.keyframe.encoded, Sample.emptyFrame.encoded] :=
  ⟨delivery_messages, (exact_transport delivery_messages).2.1⟩

end Delivery

end Rda
