/-
**What the reassembler holds, whatever arrives.**

A sender may choose ids, counts, indices and times as it likes; what reaches the reassembler is only
what the decoder lets through.  The decoder bounds the count of fragments and the size of each and
checks the index against the count, and the reassembler refuses a fragment whose count differs from
the frame's.  So every frame it holds has a table of at most 128 slots with an empty one among them,
there are at most sixteen such frames, and every frame of several fragments that was ever started
was completed, was given up or is still held.

Main definitions:

* `Rda.Partial.WellFormed` — a frame under construction with its slots in order;
* `Rda.Partial.bytes`, `Rda.Reassembler.held` — the bytes of the fragments that are held;
* `Rda.Tally`, `Rda.Tally.step` — a reassembler with the frames of several fragments that were
  started and completed;
* `Rda.Tally.Inv` — the invariant.

Main results:

* `Rda.Reassembler.place_cases` — what one fragment does to the frames that are held;
* `Rda.Reassembler.accept?_eq_some` — a decoded payload causes no panic;
* `Rda.Tally.inv_step` — every decoded payload keeps the invariant;
* `Rda.reassembler_bounded` — **the invariant of every run**.
-/

import Mathlib.Algebra.BigOperators.Group.List.Basic
import Mathlib.Algebra.Order.BigOperators.Group.List
import Rda.Reassembly

set_option relaxedAutoImplicit false
set_option autoImplicit false

namespace Rda

/-! ### Frames under construction -/

namespace Partial

/-- The bytes of the fragments that have arrived. -/
def bytes (p : Partial) : ℕ := ((p.slots.filterMap id).map List.length).sum

/-- A table of slots as the decoder allows it, counted right, with a slot still empty. -/
structure WellFormed (p : Partial) : Prop where
  two_le : 2 ≤ p.slots.length
  le_max : p.slots.length ≤ MAX_VIDEO_FRAGMENTS.toNat
  filled_eq : p.filled = p.slots.countP Option.isSome
  filled_lt : p.filled < p.slots.length
  data_le : ∀ data, some data ∈ p.slots → data.length ≤ MAX_VIDEO_FRAGMENT

theorem length_filterMap_id (slots : List (Option (List UInt8))) :
    (slots.filterMap id).length = slots.countP Option.isSome := by
  induction slots with
  | nil => rfl
  | cons slot slots ih =>
      cases slot with
      | none => simpa using ih
      | some data => simpa using ih

/-- One fragment is missing at least, so that there are less than 128 of at most 16 KiB each. -/
theorem WellFormed.bytes_le {p : Partial} (h : p.WellFormed) :
    p.bytes ≤ MAX_VIDEO_FRAME - MAX_VIDEO_FRAGMENT := by
  have hsum : p.bytes ≤ (p.slots.filterMap id).length * MAX_VIDEO_FRAGMENT := by
    rw [bytes]
    refine (List.sum_le_card_nsmul _ MAX_VIDEO_FRAGMENT ?_).trans (by simp)
    intro n hn
    obtain ⟨data, hdata, rfl⟩ := List.mem_map.1 hn
    obtain ⟨slot, hslot, hsome⟩ := List.mem_filterMap.1 hdata
    exact h.data_le data (hsome ▸ hslot)
  have hcount : (p.slots.filterMap id).length ≤ 127 := by
    have hmax : MAX_VIDEO_FRAGMENTS.toNat = 128 := rfl
    have := h.filled_lt
    have := h.filled_eq
    have := h.le_max
    rw [length_filterMap_id]
    omega
  have hmul := Nat.mul_le_mul_right MAX_VIDEO_FRAGMENT hcount
  have hframe : MAX_VIDEO_FRAME - MAX_VIDEO_FRAGMENT = 127 * MAX_VIDEO_FRAGMENT := rfl
  omega

variable {p : Partial} {i : ℕ} {data : List UInt8}

/-- One more fragment in a slot that was empty. -/
def withSlot (p : Partial) (i : ℕ) (data : List UInt8) : Partial :=
  { p with slots := p.slots.set i (some data), filled := p.filled + 1 }

/-- A fragment in an empty slot counts once more; the table stays well formed unless that was the
last empty slot. -/
theorem WellFormed.withSlot (h : p.WellFormed) (hslot : p.slots[i]? = some none)
    (hdata : data.length ≤ MAX_VIDEO_FRAGMENT) (hmore : (p.withSlot i data).isComplete = false) :
    (p.withSlot i data).WellFormed := by
  obtain ⟨hi, hnone⟩ := List.getElem?_eq_some_iff.1 hslot
  have hlen : (p.withSlot i data).slots.length = p.slots.length := List.length_set
  have hcount : (p.withSlot i data).filled
      = (p.withSlot i data).slots.countP Option.isSome := by
    simp only [Partial.withSlot]
    rw [List.countP_set hi, hnone, h.filled_eq]
    simp
  have hne : (p.withSlot i data).filled ≠ (p.withSlot i data).slots.length := by
    simpa [isComplete] using hmore
  have hle : (p.withSlot i data).filled ≤ p.slots.length := h.filled_lt
  refine ⟨hlen ▸ h.two_le, hlen ▸ h.le_max, hcount, by omega, ?_⟩
  intro d hd
  rcases List.mem_or_eq_of_mem_set hd with hd | hd
  · exact h.data_le d hd
  · rw [Option.some.inj hd]
    exact hdata

theorem wellFormed_fresh {count : UInt16} {kind layer : UInt8} {pts : UInt64} {nowMs : ℕ}
    (htwo : 2 ≤ count.toNat) (hmax : count ≤ MAX_VIDEO_FRAGMENTS) :
    (Reassembler.fresh count kind layer pts nowMs).WellFormed where
  two_le := by simpa [Reassembler.fresh] using htwo
  le_max := by simpa [Reassembler.fresh] using UInt16.le_iff_toNat_le.1 hmax
  filled_eq := by
    simp only [Reassembler.fresh]
    rw [List.countP_replicate]
    rfl
  filled_lt := by
    simp only [Reassembler.fresh, List.length_replicate]
    omega
  data_le := by
    intro d hd
    cases (List.mem_replicate.1 hd).2

end Partial

/-! ### The frames that are held -/

/-- Every frame that is held is well formed. -/
def AllWellFormed (partials : Std.ExtTreeMap UInt32 Partial) : Prop :=
  ∀ (id : UInt32) (p : Partial), partials[id]? = some p → p.WellFormed

theorem AllWellFormed.erase {partials : Std.ExtTreeMap UInt32 Partial} (h : AllWellFormed partials)
    (frameId : UInt32) : AllWellFormed (partials.erase frameId) := by
  intro id p hp
  rw [Std.ExtTreeMap.getElem?_erase] at hp
  split at hp
  · cases hp
  · exact h id p hp

theorem AllWellFormed.insert {partials : Std.ExtTreeMap UInt32 Partial} (h : AllWellFormed partials)
    (frameId : UInt32) {p : Partial} (hp : p.WellFormed) :
    AllWellFormed (partials.insert frameId p) := by
  intro id q hq
  rw [Std.ExtTreeMap.getElem?_insert] at hq
  split at hq
  · rw [← Option.some.inj hq]
    exact hp
  · exact h id q hq

namespace Reassembler

/-- The bytes of all fragments that are held. -/
def held (r : Reassembler) : ℕ := (r.partials.toList.map fun e => e.2.bytes).sum

/-- The frames that were given up and those that are held. -/
def unfinished (r : Reassembler) : ℕ := r.stats.incomplete + r.partials.size

variable {r : Reassembler} {id frameId : UInt32} {nowMs : ℕ}

theorem held_le (h : AllWellFormed r.partials) :
    r.held ≤ r.partials.size * (MAX_VIDEO_FRAME - MAX_VIDEO_FRAGMENT) := by
  rw [held]
  refine (List.sum_le_card_nsmul _ (MAX_VIDEO_FRAME - MAX_VIDEO_FRAGMENT) ?_).trans ?_
  · intro n hn
    obtain ⟨⟨id, p⟩, hmem, rfl⟩ := List.mem_map.1 hn
    exact (h id p (Std.ExtTreeMap.mem_toList_iff_getElem?_eq_some.1 hmem)).bytes_le
  · rw [List.length_map, Std.ExtTreeMap.length_toList, nsmul_eq_mul, Nat.cast_id]

/-- A frame that is given up is no longer held. -/
theorem unfinished_abandon (h : id ∈ r.partials) : (r.abandon id).unfinished = r.unfinished := by
  have hsize : 0 < r.partials.size := by
    refine Nat.pos_of_ne_zero fun h0 => ?_
    rw [Std.ExtTreeMap.eq_empty_iff_size_eq_zero.2 h0] at h
    exact Std.ExtTreeMap.not_mem_empty h
  simp only [unfinished, abandon, Std.ExtTreeMap.size_erase,
    Std.ExtTreeMap.contains_iff_mem.2 h, if_true]
  omega

theorem foldl_abandon {ids : List UInt32} (hids : ids.Nodup) (hmem : ∀ id ∈ ids, id ∈ r.partials)
    (hall : AllWellFormed r.partials) :
    AllWellFormed (ids.foldl abandon r).partials ∧
      (ids.foldl abandon r).partials.size ≤ r.partials.size ∧
      (ids.foldl abandon r).unfinished = r.unfinished := by
  induction ids generalizing r with
  | nil => exact ⟨hall, le_rfl, rfl⟩
  | cons id ids ih =>
      obtain ⟨hnotin, hids⟩ := List.nodup_cons.1 hids
      have hmem' : ∀ id' ∈ ids, id' ∈ (r.abandon id).partials := by
        intro id' hid'
        refine Std.ExtTreeMap.mem_erase.2 ⟨?_, hmem id' (List.mem_cons_of_mem id hid')⟩
        intro heq
        rw [Std.compare_eq_iff_eq.1 heq] at hnotin
        exact hnotin hid'
      obtain ⟨hall', hsize, hunfinished⟩ := ih hids hmem' (hall.erase id)
      refine ⟨hall', hsize.trans Std.ExtTreeMap.size_erase_le, hunfinished.trans ?_⟩
      exact unfinished_abandon (hmem id List.mem_cons_self)

/-- The frames that expire are held, and each of them once. -/
theorem expired_spec : (r.expired nowMs).Nodup ∧ ∀ id ∈ r.expired nowMs, id ∈ r.partials := by
  constructor
  · have hkeys : (r.partials.toList.map Prod.fst).Nodup := by
      refine List.pairwise_map.2 (Std.ExtTreeMap.distinct_keys_toList.imp ?_)
      intro a b hne heq
      exact hne (Std.compare_eq_iff_eq.2 heq)
    exact hkeys.sublist (List.filter_sublist.map Prod.fst)
  · intro id hid
    obtain ⟨⟨id', p⟩, hmem, rfl⟩ := List.mem_map.1 hid
    have hget := Std.ExtTreeMap.mem_toList_iff_getElem?_eq_some.1 (List.mem_filter.1 hmem).1
    exact Std.ExtTreeMap.mem_iff_isSome_getElem?.2 (by rw [hget]; rfl)

/-- Dropping what has expired keeps everything but the size, which does not grow. -/
theorem noted_spec (hall : AllWellFormed r.partials) (nowMs : ℕ) :
    AllWellFormed (r.noted nowMs).partials ∧ (r.noted nowMs).partials.size ≤ r.partials.size ∧
      (r.noted nowMs).unfinished = r.unfinished :=
  foldl_abandon expired_spec.1 expired_spec.2 hall

/-- Above the cap there is an oldest frame, and it is held. -/
theorem oldest_spec (h : MAX_PARTIAL_FRAMES < r.partials.size) :
    ∃ id, r.oldest = some id ∧ id ∈ r.partials := by
  rw [← Std.ExtTreeMap.length_toList] at h
  have hne : r.partials.toList ≠ [] := by
    intro hnil
    rw [hnil] at h
    cases h
  obtain ⟨⟨id, p⟩, hmin⟩ := Option.isSome_iff_exists.1
    (List.isSome_minOn?_iff.2 hne : (r.partials.toList.minOn? fun e => e.2.firstSeenMs).isSome)
  have hget := Std.ExtTreeMap.mem_toList_iff_getElem?_eq_some.1 (List.minOn?_mem hmin)
  refine ⟨id, by rw [oldest, hmin]; rfl, ?_⟩
  exact Std.ExtTreeMap.mem_iff_isSome_getElem?.2 (by rw [hget]; rfl)

/-- Enforcing the cap leaves at most sixteen frames and forgets none. -/
theorem enforceCap_spec {rounds : ℕ} (hall : AllWellFormed r.partials)
    (hrounds : r.partials.size ≤ MAX_PARTIAL_FRAMES + rounds) :
    AllWellFormed (enforceCap rounds r).partials ∧
      (enforceCap rounds r).partials.size ≤ MAX_PARTIAL_FRAMES ∧
      (enforceCap rounds r).unfinished = r.unfinished := by
  induction rounds generalizing r with
  | zero => exact ⟨hall, hrounds, rfl⟩
  | succ rounds ih =>
      rw [enforceCap]
      by_cases hover : MAX_PARTIAL_FRAMES < r.partials.size
      · obtain ⟨id, holdest, hmem⟩ := oldest_spec hover
        have hsize : (r.abandon id).partials.size = r.partials.size - 1 := by
          simp only [abandon, Std.ExtTreeMap.size_erase, Std.ExtTreeMap.contains_iff_mem.2 hmem,
            if_true]
        have hfewer : (r.abandon id).partials.size ≤ MAX_PARTIAL_FRAMES + rounds := by omega
        have hall' : AllWellFormed (r.abandon id).partials := hall.erase id
        obtain ⟨hall', hsize', hunfinished⟩ := ih hall' hfewer
        rw [if_pos hover, holdest]
        exact ⟨hall', hsize', hunfinished.trans (unfinished_abandon hmem)⟩
      · rw [if_neg hover]
        exact ⟨hall, not_lt.1 hover, rfl⟩

theorem insert_of_getElem? {partials : Std.ExtTreeMap UInt32 Partial} {entry : Partial}
    (h : partials[frameId]? = some entry) : partials.insert frameId entry = partials := by
  refine Std.ExtTreeMap.ext_getElem? fun id => ?_
  rw [Std.ExtTreeMap.getElem?_insert]
  split
  · next heq => rw [← Std.compare_eq_iff_eq.1 heq, h]
  · rfl

/-! ### One fragment -/

/-- What one fragment does to the frames that are held: nothing, it completes one, or it is stored
in a frame that is or becomes one of them. -/
inductive Placed (r : Reassembler) (frameId : UInt32) (count : UInt16) :
    Option EncodedFrame × Reassembler → Prop where
  | kept (out : Option EncodedFrame × Reassembler) (partials : out.2.partials = r.partials)
      (incomplete : out.2.stats.incomplete = r.stats.incomplete)
      (single : out.1.isSome = true → count = 1) (known : count = 1 ∨ frameId ∈ r.partials) :
      Placed r frameId count out
  | completed (out : Option EncodedFrame × Reassembler) (mem : frameId ∈ r.partials)
      (several : count ≠ 1) (isSome : out.1.isSome = true)
      (partials : out.2.partials = r.partials.erase frameId)
      (incomplete : out.2.stats.incomplete = r.stats.incomplete) : Placed r frameId count out
  | stored (entry : Partial) (wellFormed : entry.WellFormed) (several : count ≠ 1) :
      Placed r frameId count (none,
        { r with partials := r.partials.insert frameId entry }.enforceCap
          (r.partials.insert frameId entry).size)

variable {index count : UInt16} {kind layer : UInt8} {pts : UInt64} {data : List UInt8}

/-- The frame a fragment is for: the one that is held under its id, or a fresh one. -/
def entryFor (r : Reassembler) (frameId : UInt32) (count : UInt16) (kind layer : UInt8)
    (pts : UInt64) (nowMs : ℕ) : Partial :=
  r.partials.getD frameId (fresh count kind layer pts nowMs)

/-- It is held, or it is fresh. -/
theorem entryFor_cases (r : Reassembler) (frameId : UInt32) (count : UInt16) (kind layer : UInt8)
    (pts : UInt64) (nowMs : ℕ) :
    r.partials[frameId]? = some (r.entryFor frameId count kind layer pts nowMs) ∨
      frameId ∉ r.partials ∧
        r.entryFor frameId count kind layer pts nowMs = fresh count kind layer pts nowMs := by
  rw [entryFor, Std.ExtTreeMap.getD_eq_getD_getElem?]
  cases hget : r.partials[frameId]? with
  | some entry => exact .inl rfl
  | none =>
      refine .inr ⟨?_, rfl⟩
      rw [Std.ExtTreeMap.mem_iff_isSome_getElem?, hget]
      simp

theorem mem_of_getElem? {entry : Partial} (h : r.partials[frameId]? = some entry) :
    frameId ∈ r.partials := Std.ExtTreeMap.mem_iff_isSome_getElem?.2 (by rw [h]; rfl)

/-- A fragment for a slot that is empty. -/
theorem fill_empty {entry : Partial} {i : ℕ} (hslot : entry.slots[i]? = some none) :
    r.fill? frameId entry i data =
      if (entry.withSlot i data).isComplete then
        some (some (entry.withSlot i data).assemble,
          { partials := r.partials.erase frameId,
            stats := { r.stats with completed := r.stats.completed + 1 } })
      else
        some (none,
          { r with partials := r.partials.insert frameId (entry.withSlot i data) }.enforceCap
            (r.partials.insert frameId (entry.withSlot i data)).size) := by
  rw [fill?, hslot]
  rfl

/-- A fragment whose metadata agree with the frame's, and whose index is within the table, finds its
slot. -/
theorem fill_cases {entry : Partial} {i : ℕ} (hwf : entry.WellFormed)
    (hentry : r.partials[frameId]? = some entry ∨
      entry = fresh count kind layer pts nowMs) (hseveral : count ≠ 1)
    (hi : i < entry.slots.length) (hdata : data.length ≤ MAX_VIDEO_FRAGMENT) :
    ∃ out, r.fill? frameId entry i data = some out ∧ Placed r frameId count out := by
  cases hslot : entry.slots[i]? with
  | none => exact absurd (List.getElem?_eq_none_iff.1 hslot) (Nat.not_le.2 hi)
  | some slot =>
      cases slot with
      | some old =>
          -- A slot of a fresh frame is empty, so the frame is one that is held.
          rcases hentry with hget | hfresh
          · rw [fill?, hslot]
            exact ⟨_, rfl, .kept _ (insert_of_getElem? hget) rfl (fun h => by cases h)
              (.inr (mem_of_getElem? hget))⟩
          · rw [hfresh] at hslot
            simp [fresh, List.getElem?_replicate] at hslot
      | none =>
          rw [fill_empty hslot]
          cases hcomplete : (entry.withSlot i data).isComplete with
          | true =>
              rcases hentry with hget | hfresh
              · exact ⟨_, rfl, .completed _ (mem_of_getElem? hget) hseveral rfl rfl rfl⟩
              · -- One fragment does not complete a fresh frame of several.
                have hfilled : (entry.withSlot i data).filled = 1 := by
                  rw [hfresh]
                  rfl
                have hslots : (entry.withSlot i data).slots.length = entry.slots.length :=
                  List.length_set
                have htwo := hwf.two_le
                rw [Partial.isComplete, beq_iff_eq] at hcomplete
                omega
          | false => exact ⟨_, rfl, .stored _ (hwf.withSlot hslot hdata hcomplete) hseveral⟩

/-- **One fragment**, as the decoder lets it through: it does not make the code panic. -/
theorem place_cases (hall : AllWellFormed r.partials)
    (hdecoded : (Payload.videoFrame frameId index count kind layer pts data).WellFormed)
    (nowMs : ℕ) :
    ∃ out, r.place? frameId index count kind layer pts data nowMs = some out ∧
      Placed r frameId count out := by
  obtain ⟨-, hzero, hmax, hindex, hdata⟩ := hdecoded
  have hentry := r.entryFor_cases frameId count kind layer pts nowMs
  rw [place?]
  by_cases hsingle : count = 1 ∧ frameId ∉ r.partials
  · rw [if_pos hsingle]
    exact ⟨_, rfl, .kept _ rfl rfl (fun _ => hsingle.1) (.inl hsingle.1)⟩
  rw [if_neg hsingle]
  -- The frame is held, or it is a fresh one of several fragments.
  have hwf : (r.entryFor frameId count kind layer pts nowMs).WellFormed := by
    rcases hentry with hget | ⟨hmem, hfresh⟩
    · exact hall _ _ hget
    · have hone : count.toNat ≠ 1 := fun h => hsingle ⟨UInt16.toNat_inj.1 h, hmem⟩
      have h0 : count.toNat ≠ 0 := fun h => hzero (UInt16.toNat_inj.1 h)
      rw [hfresh]
      exact Partial.wellFormed_fresh (by omega) hmax
  change ∃ out, (if
      (r.entryFor frameId count kind layer pts nowMs).slots.length ≠ count.toNat ∨
        (r.entryFor frameId count kind layer pts nowMs).ptsUs ≠ pts
    then _ else r.fill? frameId (r.entryFor frameId count kind layer pts nowMs) index.toNat data)
      = some out ∧ Placed r frameId count out
  by_cases hdiffers : (r.entryFor frameId count kind layer pts nowMs).slots.length ≠ count.toNat ∨
      (r.entryFor frameId count kind layer pts nowMs).ptsUs ≠ pts
  · rw [if_pos hdiffers]
    rcases hentry with hget | ⟨-, hfresh⟩
    · exact ⟨_, rfl, .kept _ (insert_of_getElem? hget) rfl (fun h => by cases h)
        (.inr (mem_of_getElem? hget))⟩
    · rw [hfresh] at hdiffers
      simp [fresh] at hdiffers
  · rw [if_neg hdiffers]
    have hlen := not_not.1 (not_or.1 hdiffers).1
    have hcount : count ≠ 1 := by
      rintro rfl
      have htwo := hwf.two_le
      rw [hlen] at htwo
      exact absurd htwo (by decide)
    have hlt : index.toNat < (r.entryFor frameId count kind layer pts nowMs).slots.length := by
      rw [hlen]
      exact UInt16.lt_iff_toNat_lt.1 hindex
    exact fill_cases hwf (hentry.imp id And.right) hcount hlt hdata

/-- The fragment is the first one of a frame of several fragments. -/
def starts (r : Reassembler) (payload : Payload) (nowMs : ℕ) : Bool :=
  match payload with
  | .videoFrame frameId _ count _ _ _ _ =>
      count != 1 && !(r.noted nowMs).partials.contains frameId
  | _ => false

/-- The fragment completes a frame of several fragments. -/
def completes (r : Reassembler) (payload : Payload) (nowMs : ℕ) : Bool :=
  match payload with
  | .videoFrame _ _ count _ _ _ _ => count != 1 && (r.accept payload nowMs).1.isSome
  | _ => false

/-- A decoded payload is accepted without a panic: the index of its slot is within the table. -/
theorem accept?_eq_some (hall : AllWellFormed r.partials) {payload : Payload}
    (h : payload.WellFormed) (nowMs : ℕ) :
    r.accept? payload nowMs = some (r.accept payload nowMs) := by
  cases payload with
  | videoFrame frameId index count kind layer pts data =>
      obtain ⟨out, hplace, -⟩ := place_cases (noted_spec hall nowMs).1 h nowMs
      have haccept : r.accept? (.videoFrame frameId index count kind layer pts data) nowMs
          = some out := hplace
      rw [accept, haccept, Option.getD_some]
  | _ => rfl

end Reassembler

/-! ### Runs -/

/-- A reassembler, with how many frames of several fragments were started and completed. -/
structure Tally where
  reassembler : Reassembler := .new
  started : ℕ := 0
  completed : ℕ := 0

namespace Tally

/-- A payload arrives. -/
def step (s : Tally) (a : Receiver.Arrival) : Tally where
  reassembler := (s.reassembler.accept a.1 a.2).2
  started := s.started + if s.reassembler.starts a.1 a.2 then 1 else 0
  completed := s.completed + if s.reassembler.completes a.1 a.2 then 1 else 0

/-- The frames that are held are in order and not too many, and every frame that was started was
completed, was given up or is held. -/
structure Inv (s : Tally) : Prop where
  wellFormed : AllWellFormed s.reassembler.partials
  size_le : s.reassembler.partials.size ≤ MAX_PARTIAL_FRAMES
  balance : s.started = s.completed + s.reassembler.unfinished

theorem inv_new : Inv {} := by
  refine ⟨?_, Nat.zero_le _, rfl⟩
  intro id p hp
  rw [show (({} : Tally).reassembler.partials)[id]? = none from Std.ExtTreeMap.getElem?_empty] at hp
  cases hp

/-- A fragment that is put into a frame keeps the invariant. -/
theorem inv_placed {r : Reassembler} {frameId : UInt32} {count : UInt16}
    {out : Option EncodedFrame × Reassembler} {started completed : ℕ}
    (hall : AllWellFormed r.partials) (hsize : r.partials.size ≤ MAX_PARTIAL_FRAMES)
    (hbalance : started = completed + r.unfinished) (hplaced : r.Placed frameId count out) :
    Inv ⟨out.2, started + if count != 1 && !r.partials.contains frameId then 1 else 0,
      completed + if count != 1 && out.1.isSome then 1 else 0⟩ := by
  cases hplaced with
  | kept _ partials incomplete single known =>
      have hstarts : (count != 1 && !r.partials.contains frameId) = false := by
        rcases known with rfl | hmem
        · rfl
        · rw [Std.ExtTreeMap.contains_iff_mem.2 hmem, Bool.not_true, Bool.and_false]
      have hcompletes : (count != 1 && out.1.isSome) = false := by
        cases hsome : out.1.isSome with
        | false => rw [Bool.and_false]
        | true => rw [single hsome]; rfl
      rw [hstarts, hcompletes]
      refine ⟨?_, ?_, ?_⟩
      · rw [partials]
        exact hall
      · rw [partials]
        exact hsize
      · simp only [Reassembler.unfinished, partials, incomplete] at hbalance ⊢
        simpa using hbalance
  | completed _ mem several isSome partials incomplete =>
      have hne : (count != 1) = true := bne_iff_ne.2 several
      have herase := r.unfinished_abandon mem
      rw [Std.ExtTreeMap.contains_iff_mem.2 mem, hne, isSome]
      refine ⟨?_, ?_, ?_⟩
      · rw [partials]
        exact hall.erase frameId
      · rw [partials]
        exact Std.ExtTreeMap.size_erase_le.trans hsize
      · -- One frame held less, one completed more.
        simp only [Reassembler.unfinished, Reassembler.abandon, partials, incomplete]
          at hbalance herase ⊢
        simp only [Bool.not_true, Bool.and_false, Bool.false_eq_true, if_false, Bool.and_true,
          if_true]
        omega
  | stored entry wellFormed several =>
      have hne : (count != 1) = true := bne_iff_ne.2 several
      have hinsert : (r.partials.insert frameId entry).size
          = if r.partials.contains frameId then r.partials.size else r.partials.size + 1 :=
        Std.ExtTreeMap.size_insert
      have hall' : AllWellFormed
          ({ r with partials := r.partials.insert frameId entry } : Reassembler).partials :=
        hall.insert frameId wellFormed
      obtain ⟨hkept, hcap, hunfinished⟩ :=
        Reassembler.enforceCap_spec hall' (Nat.le_add_left _ MAX_PARTIAL_FRAMES)
      refine ⟨hkept, hcap, ?_⟩
      dsimp only
      rw [hunfinished, hne]
      simp only [Reassembler.unfinished] at hbalance ⊢
      rw [hinsert]
      cases r.partials.contains frameId with
      | true => simpa using hbalance
      | false =>
          simp only [Bool.not_false, Bool.and_true, if_true, Bool.false_eq_true, if_false,
            Option.isSome_none, Bool.and_false]
          omega

/-- **One arrival.**  Every payload the decoder lets through keeps the invariant. -/
theorem inv_step {s : Tally} {a : Receiver.Arrival} (h : s.Inv) (hdecoded : a.1.WellFormed) :
    (s.step a).Inv := by
  obtain ⟨payload, nowMs⟩ := a
  cases payload with
  | videoFrame frameId index count kind layer pts data =>
      obtain ⟨hall, hsize, hunfinished⟩ := Reassembler.noted_spec h.wellFormed nowMs
      have hbalance := h.balance
      rw [← hunfinished] at hbalance
      obtain ⟨out, hplace, hplaced⟩ := Reassembler.place_cases hall hdecoded nowMs
      have haccept :
          s.reassembler.accept (.videoFrame frameId index count kind layer pts data) nowMs = out := by
        rw [← Option.some.injEq, ← Reassembler.accept?_eq_some h.wellFormed hdecoded]
        exact hplace
      have hinv := inv_placed hall (hsize.trans h.size_le) hbalance hplaced
      rw [← haccept] at hinv
      exact hinv
  | _ => exact ⟨h.wellFormed, h.size_le, h.balance⟩

/-- Every run of decoded payloads has the invariant. -/
theorem inv_run {arrivals : List Receiver.Arrival} (h : ∀ a ∈ arrivals, a.1.WellFormed) :
    Inv (Machine.run step {} arrivals) := by
  refine Machine.run_history (fun as s => (∀ a ∈ as, a.1.WellFormed) → Inv s)
    (fun _ => inv_new) ?_ arrivals h
  intro as a ih hall
  exact inv_step (ih fun b hb => hall b (List.mem_append_left _ hb)) (hall a (by simp))

end Tally

/-- **The reassembler's invariant**, for every sequence of payloads the decoder can return, at any
times.  At most sixteen frames are held; each has 2 to 128 slots, of which `filled` are occupied and
one at least is empty; the next payload is accepted without a panic, since the index of its slot is
within the table; the bytes held stay below 16 times 2 MiB, also with that fragment; and every frame
of several fragments that was started was completed, was given up or is held. -/
theorem reassembler_bounded (arrivals : List Receiver.Arrival)
    (h : ∀ a ∈ arrivals, ∃ msgType body, decodePayload msgType body = .ok a.1) :
    let s := Machine.run Tally.step {} arrivals
    s.reassembler.partials.size ≤ MAX_PARTIAL_FRAMES ∧
    (∀ (id : UInt32) (p : Partial), s.reassembler.partials[id]? = some p →
      2 ≤ p.slots.length ∧ p.slots.length ≤ 128 ∧ p.filled = p.slots.countP Option.isSome ∧
        p.filled < p.slots.length) ∧
    (∀ msgType body payload nowMs, decodePayload msgType body = .ok payload →
      s.reassembler.accept? payload nowMs = some (s.reassembler.accept payload nowMs)) ∧
    s.reassembler.held + MAX_VIDEO_FRAGMENT ≤ 16 * (2 * 1024 * 1024) ∧
    s.started = s.completed + s.reassembler.stats.incomplete + s.reassembler.partials.size := by
  intro s
  have hinv : s.Inv := Tally.inv_run fun a ha => by
    obtain ⟨msgType, body, hdecode⟩ := h a ha
    exact (decodePayload_wellFormed hdecode).1
  refine ⟨hinv.size_le, ?_, ?_, ?_, ?_⟩
  · intro id p hp
    have hwf := hinv.wellFormed id p hp
    exact ⟨hwf.two_le, hwf.le_max, hwf.filled_eq, hwf.filled_lt⟩
  · intro msgType body payload nowMs hdecode
    exact Reassembler.accept?_eq_some hinv.wellFormed (decodePayload_wellFormed hdecode).1 nowMs
  · have hheld := Reassembler.held_le hinv.wellFormed
    have hsize := Nat.mul_le_mul_right (MAX_VIDEO_FRAME - MAX_VIDEO_FRAGMENT) hinv.size_le
    simp only [MAX_PARTIAL_FRAMES, MAX_VIDEO_FRAME, MAX_VIDEO_FRAGMENT] at hheld hsize ⊢
    omega
  · have hbalance := hinv.balance
    rw [Reassembler.unfinished] at hbalance
    omega

/-- A frame of two fragments of which one is late: the frame was given up and started again. -/
theorem reassembler_bounded_delayed :
    (Machine.run Tally.step {} Receiver.Sample.delayed).started
      = (Machine.run Tally.step {} Receiver.Sample.delayed).completed + 1 := by
  have hdecoded : ∀ a ∈ Receiver.Sample.delayed, ∃ msgType body,
      decodePayload msgType body = .ok a.1 := by
    have hwf : ∀ a ∈ Receiver.Sample.delayed, a.1.WellFormed := by decide
    intro a ha
    exact ⟨a.1.typeByte, encodePayload a.1 ++ [],
      decodePayload_encodePayload (hwf a ha) [] fun _ => rfl⟩
  obtain ⟨-, -, -, -, hbalance⟩ := reassembler_bounded Receiver.Sample.delayed hdecoded
  rw [hbalance, Nat.add_assoc]
  decide

end Rda
