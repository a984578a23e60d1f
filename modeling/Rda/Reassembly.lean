/-
**Putting fragmented video frames back together.**

The receiver keeps the frames of which it has some fragments, by frame id.  A frame is given up once
it is older than `FRAGMENT_TIMEOUT_MS`, and the oldest one when there are more than
`MAX_PARTIAL_FRAMES`; nothing is remembered of a frame that was handed on or given up.

Main definitions:

* `Rda.Partial` — one frame under construction;
* `Rda.Reassembler`, with `accept?` and `expire`: a call that panics has no answer;
* `Rda.Reassembler.accept` — what a call leaves in a run that goes on;
* `Rda.Receiver` — a reassembler with the ids of the frames that it handed on or gave up;
* `Rda.Receiver.Late` — the fragments of such frames.

Main results:

* `Rda.Receiver.noResurrection_iff` — **no frame comes back** in a run exactly when no late
  fragment arrives.
-/

import Rda.Machine
import Rda.Video

set_option relaxedAutoImplicit false
set_option autoImplicit false

namespace Rda

/-- How long an incomplete frame is held before it is written off. -/
def FRAGMENT_TIMEOUT_MS : ℕ := 400

/-- How many partially received frames may be in flight at once. -/
def MAX_PARTIAL_FRAMES : ℕ := 16

/-- What happened to the fragments. -/
structure ReassemblyStats where
  fragments : ℕ := 0
  completed : ℕ := 0
  incomplete : ℕ := 0
  stale : ℕ := 0
  inconsistent : ℕ := 0
  deriving DecidableEq, Repr

/-- One frame under construction. -/
structure Partial where
  kind : UInt8
  temporalLayer : UInt8
  ptsUs : UInt64
  /-- Fragment slots, as many as the first fragment seen announced. -/
  slots : List (Option (List UInt8))
  filled : ℕ
  firstSeenMs : ℕ
  deriving DecidableEq, Repr

namespace Partial

def isComplete (p : Partial) : Bool := p.filled == p.slots.length

/-- The kind a byte of the wire stands for. -/
def kindOf (kind : UInt8) : FrameKind :=
  if kind = 1 then .keyframe else if kind = 2 then .ltrRecovery else .delta

/-- Concatenates the fragments in index order. -/
def assemble (p : Partial) : EncodedFrame where
  data := (p.slots.filterMap id).flatten
  kind := kindOf p.kind
  ptsUs := p.ptsUs
  sequence := 0
  temporalLayer := p.temporalLayer
  ltrIndex := none
  qp := none

end Partial

/-- The receiver reads the byte that the sender writes. -/
theorem kindOf_code (kind : FrameKind) : Partial.kindOf kind.code = kind := by
  cases kind <;> rfl

/-- Each byte of a well-formed fragment is one that the sender writes. -/
theorem code_kindOf {kind : UInt8} (h : kind ≤ 2) : (Partial.kindOf kind).code = kind := by
  have hcases : kind = 0 ∨ kind = 1 ∨ kind = 2 := by
    rw [← UInt8.toNat_inj, ← UInt8.toNat_inj, ← UInt8.toNat_inj]
    rw [UInt8.le_iff_toNat_le] at h
    have htwo : (2 : UInt8).toNat = 2 := rfl
    have hone : (1 : UInt8).toNat = 1 := rfl
    have hzero : (0 : UInt8).toNat = 0 := rfl
    omega
  rcases hcases with rfl | rfl | rfl
  · rfl
  · rfl
  · rfl

/-- Reassembles fragmented video frames. -/
structure Reassembler where
  partials : Std.ExtTreeMap UInt32 Partial := ∅
  stats : ReassemblyStats := {}

namespace Reassembler

/-- An empty reassembler. -/
def new : Reassembler := {}

/-- The frames that can no longer be shown in time. -/
def expired (r : Reassembler) (nowMs : ℕ) : List UInt32 :=
  (r.partials.toList.filter fun e => FRAGMENT_TIMEOUT_MS < nowMs - e.2.firstSeenMs).map Prod.fst

/-- Gives a frame up. -/
def abandon (r : Reassembler) (frameId : UInt32) : Reassembler where
  partials := r.partials.erase frameId
  stats := { r.stats with incomplete := r.stats.incomplete + 1 }

/-- Drops frames that can no longer be shown in time. -/
def expire (r : Reassembler) (nowMs : ℕ) : Reassembler := (r.expired nowMs).foldl abandon r

/-- The frame that has been in flight for the longest time. -/
def oldest (r : Reassembler) : Option UInt32 :=
  (r.partials.toList.minOn? fun e => e.2.firstSeenMs).map Prod.fst

/-- Gives the oldest frames up until there are not too many.  Each round gives one up, so that the
number of frames bounds the number of rounds. -/
def enforceCap : ℕ → Reassembler → Reassembler
  | 0, r => r
  | rounds + 1, r =>
      if MAX_PARTIAL_FRAMES < r.partials.size then
        match r.oldest with
        | some frameId => enforceCap rounds (r.abandon frameId)
        | none => r
      else r

/-- A frame of which nothing has arrived yet. -/
def fresh (fragmentCount : UInt16) (kind temporalLayer : UInt8) (ptsUs : UInt64) (nowMs : ℕ) :
    Partial where
  kind := kind
  temporalLayer := temporalLayer
  ptsUs := ptsUs
  slots := List.replicate fragmentCount.toNat none
  filled := 0
  firstSeenMs := nowMs

/-- Puts a fragment into its place, in a frame that its metadata agree with.  The index of the slot
is not checked here: out of range it is a panic, for which there is no answer. -/
def fill? (r : Reassembler) (frameId : UInt32) (entry : Partial) (fragmentIndex : ℕ)
    (data : List UInt8) : Option (Option EncodedFrame × Reassembler) :=
  match entry.slots[fragmentIndex]? with
  | some none =>
      let entry :=
        { entry with
          slots := entry.slots.set fragmentIndex (some data), filled := entry.filled + 1 }
      if entry.isComplete then
        some (some entry.assemble,
          { partials := r.partials.erase frameId,
            stats := { r.stats with completed := r.stats.completed + 1 } })
      else
        -- The cap comes last, so that a fragment that completes an old frame still does.
        let r := { r with partials := r.partials.insert frameId entry }
        some (none, r.enforceCap r.partials.size)
  | some (some _) =>
      -- A duplicate: the first copy is as good as the second.
      some (none,
        { partials := r.partials.insert frameId entry,
          stats := { r.stats with stale := r.stats.stale + 1 } })
  | none => none

/-- Puts a fragment into its frame, which it may be the first fragment of. -/
def place? (r : Reassembler) (frameId : UInt32) (fragmentIndex fragmentCount : UInt16)
    (kind temporalLayer : UInt8) (ptsUs : UInt64) (data : List UInt8) (nowMs : ℕ) :
    Option (Option EncodedFrame × Reassembler) :=
  if fragmentCount = 1 ∧ frameId ∉ r.partials then
    -- The common case of a delta frame: no need of the map.
    some (some { kind, temporalLayer, ptsUs, slots := [some data], filled := 1,
                 firstSeenMs := nowMs : Partial }.assemble,
      { r with stats := { r.stats with completed := r.stats.completed + 1 } })
  else
    let entry := r.partials.getD frameId (fresh fragmentCount kind temporalLayer ptsUs nowMs)
    if entry.slots.length ≠ fragmentCount.toNat ∨ entry.ptsUs ≠ ptsUs then
      some (none,
        { partials := r.partials.insert frameId entry,
          stats := { r.stats with inconsistent := r.stats.inconsistent + 1 } })
    else r.fill? frameId entry fragmentIndex.toNat data

/-- The reassembler when a fragment arrives: what can no longer be shown is dropped, and the
fragment is counted. -/
def noted (r : Reassembler) (nowMs : ℕ) : Reassembler :=
  let r := r.expire nowMs
  { r with stats := { r.stats with fragments := r.stats.fragments + 1 } }

/-- Accepts one fragment, returning the frame if it completed it; no answer is a panic. -/
def accept? (r : Reassembler) (payload : Payload) (nowMs : ℕ) :
    Option (Option EncodedFrame × Reassembler) :=
  match payload with
  | .videoFrame frameId fragmentIndex fragmentCount kind temporalLayer ptsUs data =>
      (r.noted nowMs).place? frameId fragmentIndex fragmentCount kind temporalLayer ptsUs data nowMs
  | _ => some (none, r)

/-- What a call of `accept?` leaves, in a run that goes on.  After a panic, to which no decoded
payload leads, nothing is taken to have happened but the expiry. -/
def accept (r : Reassembler) (payload : Payload) (nowMs : ℕ) : Option EncodedFrame × Reassembler :=
  (r.accept? payload nowMs).getD (none, r.noted nowMs)

/-! ### What is in flight afterwards -/

section Frames

variable {r : Reassembler} {nowMs : ℕ} {id frameId : UInt32}

theorem mem_foldl_abandon {ids : List UInt32} :
    id ∈ (ids.foldl abandon r).partials ↔ id ∈ r.partials ∧ id ∉ ids := by
  induction ids generalizing r with
  | nil => simp
  | cons x ids ih =>
      rw [List.foldl_cons, ih, abandon, Std.ExtTreeMap.mem_erase, ne_eq, Std.compare_eq_iff_eq,
        List.mem_cons, not_or, and_assoc, and_left_comm, eq_comm]

theorem mem_expire : id ∈ (r.expire nowMs).partials ↔ id ∈ r.partials ∧ id ∉ r.expired nowMs :=
  mem_foldl_abandon

theorem stale_foldl_abandon (ids : List UInt32) :
    (ids.foldl abandon r).stats.stale = r.stats.stale := by
  induction ids generalizing r with
  | nil => rfl
  | cons x ids ih => exact ih

theorem stale_enforceCap (rounds : ℕ) :
    (enforceCap rounds r).stats.stale = r.stats.stale := by
  induction rounds generalizing r with
  | zero => rfl
  | succ rounds ih =>
      rw [enforceCap]
      split
      · split
        · rw [ih]
          rfl
        · rfl
      · rfl

theorem mem_of_mem_enforceCap {rounds : ℕ} (h : id ∈ (enforceCap rounds r).partials) :
    id ∈ r.partials := by
  induction rounds generalizing r with
  | zero => exact h
  | succ rounds ih =>
      rw [enforceCap] at h
      split at h
      · split at h
        · exact (Std.ExtTreeMap.mem_erase.1 (ih h)).2
        · exact h
      · exact h

theorem enforceCap_of_le {rounds : ℕ} (h : r.partials.size ≤ MAX_PARTIAL_FRAMES) :
    enforceCap rounds r = r := by
  cases rounds with
  | zero => rfl
  | succ rounds => rw [enforceCap, if_neg (Nat.not_lt.2 h)]

variable {entry : Partial} {i : ℕ} {data : List UInt8}

theorem mem_of_mem_insert {partials : Std.ExtTreeMap UInt32 Partial}
    (h : id ∈ partials.insert frameId entry) : id = frameId ∨ id ∈ partials := by
  rw [Std.ExtTreeMap.mem_insert, Std.compare_eq_iff_eq, eq_comm] at h
  exact h

variable {out : Option EncodedFrame × Reassembler}

theorem mem_of_mem_fill (hout : r.fill? frameId entry i data = some out)
    (h : id ∈ out.2.partials) : id = frameId ∨ id ∈ r.partials := by
  rw [fill?] at hout
  split at hout
  · dsimp only at hout
    split at hout <;> cases hout
    · exact .inr (Std.ExtTreeMap.mem_erase.1 h).2
    · exact mem_of_mem_insert (mem_of_mem_enforceCap h)
  · cases hout
    exact mem_of_mem_insert h
  · cases hout

theorem not_mem_of_fill_isSome (hout : r.fill? frameId entry i data = some out)
    (h : out.1.isSome = true) : frameId ∉ out.2.partials := by
  rw [fill?] at hout
  split at hout
  · dsimp only at hout
    split at hout <;> cases hout
    · exact fun hmem => (Std.ExtTreeMap.mem_erase.1 hmem).1 Std.compare_self
    · cases h
  · cases hout
    cases h
  · cases hout

theorem stale_fill_of_empty (hout : r.fill? frameId entry i data = some out)
    (h : ∀ x, entry.slots[i]? ≠ some (some x)) : out.2.stats.stale = r.stats.stale := by
  rw [fill?] at hout
  split at hout
  · dsimp only at hout
    split at hout <;> cases hout
    · rfl
    · exact stale_enforceCap _
  · next hslot => exact absurd hslot (h _)
  · cases hout

end Frames

/-! ### Fragments -/

/-- The frame a payload is a fragment of. -/
def frameIdOf : Payload → Option UInt32
  | .videoFrame frameId _ _ _ _ _ _ => some frameId
  | _ => none

theorem mem_noted {r : Reassembler} {nowMs : ℕ} {id : UInt32} :
    id ∈ (r.noted nowMs).partials ↔ id ∈ r.partials ∧ id ∉ r.expired nowMs := mem_expire

theorem stale_noted (r : Reassembler) (nowMs : ℕ) : (r.noted nowMs).stats.stale = r.stats.stale :=
  stale_foldl_abandon _

section Accept

variable {r : Reassembler} {payload : Payload} {nowMs : ℕ} {id frameId : UInt32}
  {index count : UInt16} {kind layer : UInt8} {pts : UInt64} {data : List UInt8}

section Place

variable {out : Option EncodedFrame × Reassembler}
  (hout : r.place? frameId index count kind layer pts data nowMs = some out)

include hout

theorem mem_of_mem_place (h : id ∈ out.2.partials) : id = frameId ∨ id ∈ r.partials := by
  rw [place?] at hout
  split at hout
  · cases hout
    exact .inr h
  · dsimp only at hout
    split at hout
    · cases hout
      exact mem_of_mem_insert h
    · exact mem_of_mem_fill hout h

theorem not_mem_of_place_isSome (h : out.1.isSome = true) : frameId ∉ out.2.partials := by
  rw [place?] at hout
  split at hout
  · next hsingle =>
      cases hout
      exact hsingle.2
  · dsimp only at hout
    split at hout
    · cases hout
      cases h
    · exact not_mem_of_fill_isSome hout h

theorem stale_place_of_not_mem (hmem : frameId ∉ r.partials) :
    out.2.stats.stale = r.stats.stale := by
  rw [place?] at hout
  split at hout
  · cases hout
    rfl
  · dsimp only at hout
    rw [Std.ExtTreeMap.getD_eq_fallback hmem] at hout
    split at hout
    · cases hout
      rfl
    · refine stale_fill_of_empty hout fun x => ?_
      simp [fresh, List.getElem?_replicate]

end Place

/-- A call places the fragment, or it panics. -/
theorem accept_eq_of_place (r : Reassembler) (nowMs : ℕ)
    (h : payload = .videoFrame frameId index count kind layer pts data) :
    r.accept payload nowMs = (none, r.noted nowMs) ∨
      (r.noted nowMs).place? frameId index count kind layer pts data nowMs
        = some (r.accept payload nowMs) := by
  subst h
  rw [accept, accept?]
  cases (r.noted nowMs).place? frameId index count kind layer pts data nowMs with
  | none => exact .inl rfl
  | some out => exact .inr rfl

/-- A fragment brings no frame into flight but its own. -/
theorem mem_of_mem_accept (hpayload : frameIdOf payload = some frameId)
    (h : id ∈ (r.accept payload nowMs).2.partials) :
    id = frameId ∨ id ∈ (r.noted nowMs).partials := by
  cases payload with
  | videoFrame =>
      cases hpayload
      rcases accept_eq_of_place r nowMs rfl with hpanic | hout
      · rw [hpanic] at h
        exact .inr h
      · exact mem_of_mem_place hout h
  | _ => cases hpayload

/-- A frame that is handed on is no longer in flight. -/
theorem not_mem_of_accept_isSome (hpayload : frameIdOf payload = some frameId)
    (h : (r.accept payload nowMs).1.isSome = true) :
    frameId ∉ (r.accept payload nowMs).2.partials := by
  cases payload with
  | videoFrame =>
      cases hpayload
      rcases accept_eq_of_place r nowMs rfl with hpanic | hout
      · rw [hpanic] at h
        cases h
      · exact not_mem_of_place_isSome hout h
  | _ => cases hpayload

/-- The fragment of a frame that is not in flight is never counted as stale. -/
theorem stale_accept_of_not_mem (hpayload : frameIdOf payload = some frameId)
    (hmem : frameId ∉ (r.noted nowMs).partials) :
    (r.accept payload nowMs).2.stats.stale = r.stats.stale := by
  cases payload with
  | videoFrame =>
      cases hpayload
      rcases accept_eq_of_place r nowMs rfl with hpanic | hout
      · rw [hpanic]
        exact stale_noted r nowMs
      · exact (stale_place_of_not_mem hout hmem).trans (stale_noted r nowMs)
  | _ => cases hpayload

end Accept

end Reassembler

/-! ### Frames that came back -/

/-- A reassembler with what it forgets: the ids of the frames it handed on, and of those that it
handed on or gave up. -/
structure Receiver where
  reassembler : Reassembler := .new
  emitted : List UInt32 := []
  gone : List UInt32 := []

namespace Receiver

/-- A payload that arrives at a moment. -/
abbrev Arrival : Type := Payload × ℕ

/-- The receiver after an arrival. -/
def step (s : Receiver) (a : Arrival) : Receiver :=
  match Reassembler.frameIdOf a.1 with
  | some frameId =>
      let noted := s.reassembler.noted a.2
      let (frame, reassembler) := s.reassembler.accept a.1 a.2
      { reassembler := reassembler
        emitted := s.emitted ++ if frame.isSome then [frameId] else []
        gone := s.gone ++ s.reassembler.expired a.2 ++
          (frameId :: noted.partials.keys).filter fun id => !reassembler.partials.contains id }
  | none => s

/-- The arrival is a fragment of a frame that was handed on or given up, or is given up now. -/
def Late (s : Receiver) (a : Arrival) : Prop :=
  ∃ frameId, Reassembler.frameIdOf a.1 = some frameId ∧
    (frameId ∈ s.gone ∨ frameId ∈ s.reassembler.expired a.2)

/-- A late fragment is counted as stale, brings no frame into flight and completes none. -/
def Discards (s : Receiver) (a : Arrival) : Prop :=
  s.Late a → ∀ frameId, Reassembler.frameIdOf a.1 = some frameId →
    (s.reassembler.accept a.1 a.2).1 = none ∧
      (s.reassembler.accept a.1 a.2).2.stats.stale = s.reassembler.stats.stale + 1 ∧
      frameId ∉ (s.reassembler.accept a.1 a.2).2.partials

/-- Nothing that was handed on or given up is in flight, and nothing was handed on twice. -/
structure Inv (s : Receiver) : Prop where
  not_mem : ∀ id ∈ s.gone, id ∉ s.reassembler.partials
  subset : s.emitted ⊆ s.gone
  nodup : s.emitted.Nodup

theorem inv_new : Inv {} := ⟨by simp, by simp, by simp⟩

/-- The code never discards a late fragment of a frame that is not in flight. -/
theorem discards_iff {s : Receiver} (h : s.Inv) (a : Arrival) : s.Discards a ↔ ¬ s.Late a := by
  refine ⟨fun hdiscards hlate => ?_, fun hlate hn => absurd hn hlate⟩
  obtain ⟨frameId, hpayload, hgone⟩ := hlate
  have hmem : frameId ∉ (s.reassembler.noted a.2).partials := by
    intro hmem
    obtain ⟨hin, hexpired⟩ := Reassembler.mem_noted.1 hmem
    exact hgone.elim (fun hgone => h.not_mem frameId hgone hin) hexpired
  obtain ⟨-, hstale, -⟩ := hdiscards ⟨frameId, hpayload, hgone⟩ frameId hpayload
  rw [Reassembler.stale_accept_of_not_mem hpayload hmem] at hstale
  omega

theorem inv_step {s : Receiver} (h : s.Inv) (a : Arrival) (hlate : ¬ s.Late a) :
    (s.step a).Inv := by
  cases hpayload : Reassembler.frameIdOf a.1 with
  | none =>
      rw [step, hpayload]
      exact h
  | some frameId =>
      have hgone : frameId ∉ s.gone := fun hn => hlate ⟨frameId, hpayload, .inl hn⟩
      rw [step, hpayload]
      dsimp only
      refine ⟨?_, ?_, ?_⟩
      · -- What was gone, what expires now, and what is gone after this arrival.
        intro id hid hmem
        rw [List.mem_append, List.mem_append, List.mem_filter] at hid
        rcases hid with (hid | hid) | ⟨-, hid⟩
        · rcases Reassembler.mem_of_mem_accept hpayload hmem with rfl | hin
          · exact hgone hid
          · exact h.not_mem id hid (Reassembler.mem_noted.1 hin).1
        · rcases Reassembler.mem_of_mem_accept hpayload hmem with rfl | hin
          · exact hlate ⟨id, hpayload, .inr hid⟩
          · exact (Reassembler.mem_noted.1 hin).2 hid
        · rw [Std.ExtTreeMap.contains_iff_mem.2 hmem] at hid
          cases hid
      · intro id hid
        rcases List.mem_append.1 hid with hid | hid
        · exact List.mem_append_left _ (List.mem_append_left _ (h.subset hid))
        · split at hid
          · next hemitted =>
              obtain rfl := List.mem_singleton.1 hid
              -- A frame that is handed on is in flight no more.
              have hmem := Reassembler.not_mem_of_accept_isSome hpayload hemitted
              refine List.mem_append_right _ (List.mem_filter.2 ⟨List.mem_cons_self, ?_⟩)
              rw [Bool.not_eq_true', ← Bool.not_eq_true, Std.ExtTreeMap.contains_iff_mem]
              exact hmem
          · cases hid
      · refine List.nodup_append.2 ⟨h.nodup, ?_, ?_⟩
        · split <;> simp
        · intro id hid id' hid' heq
          split at hid'
          · rw [List.mem_singleton.1 hid'] at heq
            exact hgone (heq ▸ h.subset hid)
          · cases hid'

/-- In a run, every fragment of a frame that was handed on or given up is discarded, and no frame is
handed on twice. -/
def NoResurrection (arrivals : List Arrival) : Prop :=
  (∀ js a, js ++ [a] <+: arrivals → (Machine.run step {} js).Discards a) ∧
    (Machine.run step {} arrivals).emitted.Nodup

/-- **No frame comes back**, whatever arrives and whenever, exactly when no fragment of a frame that
was handed on or given up arrives at all. -/
theorem noResurrection_iff (arrivals : List Arrival) :
    NoResurrection arrivals ↔ Machine.Along step (fun s a => ¬ s.Late a) {} arrivals := by
  have hkeep : ∀ (s : Receiver) (a : Arrival), s.Inv → ¬ s.Late a → (s.step a).Inv :=
    fun s a h hlate => inv_step h a hlate
  have hiff := Machine.forall_step_iff_along Inv Discards hkeep (fun s a h => discards_iff h a)
    inv_new arrivals
  constructor
  · rintro ⟨hdiscards, -⟩
    exact hiff.1 hdiscards
  · intro halong
    exact ⟨hiff.2 halong, (Machine.run_invariant_along Inv hkeep inv_new halong).nodup⟩

/-- A frame of one fragment, and its duplicate. -/
def Sample.duplicate : List Arrival :=
  [(.videoFrame 7 0 1 0 0 0 [1], 0), (.videoFrame 7 0 1 0 0 0 [1], 5)]

/-- A frame of two fragments of which the second is late, and a duplicate of the first. -/
def Sample.delayed : List Arrival :=
  [(.videoFrame 7 0 2 0 0 0 [1], 0), (.videoFrame 7 1 2 0 0 0 [2], 500),
    (.videoFrame 7 0 2 0 0 0 [1], 600)]

/-- The duplicate is handed on a second time, and the late fragment brings the frame that was given
up back. -/
theorem frames_come_back :
    ¬ NoResurrection Sample.duplicate ∧ ¬ NoResurrection Sample.delayed := by
  refine ⟨fun h => ?_, fun h => ?_⟩
  · have hnodup := h.2
    revert hnodup
    decide
  · have hstale := (h.1 [(.videoFrame 7 0 2 0 0 0 [1], 0)] (.videoFrame 7 1 2 0 0 0 [2], 500)
      (by decide) ⟨7, rfl, .inr (by decide)⟩ 7 rfl).2.1
    revert hstale
    decide

end Receiver

end Rda
