/-
**Serial numbers on the control channel.**

Frames carry the low 16 bits of the sender's count.  A receiver that has applied one frame takes
another to be newer when it is less than half the number space ahead of it, and drops it otherwise.
As long as no frame is half the space or more away from the last one that was accepted, this is the
order in which the sender counted, however often the 16 bits wrap.

Main definitions:

* `Rda.Serial`, `Rda.Serial.isNewerThan` — a number on the wire, and its order;
* `Rda.SerialTracker.accept` — the filter on one channel;
* `Rda.Followed` — the filter together with the sender's own numbers of what it let through;
* `Rda.Followed.Near` — the next frame is within half the number space.

Main results:

* `Rda.Serial.isNewerThan_ofIndex` — within half the space the order is the sender's;
* `Rda.serial_tracking_follows_order` — exactly the frames that are newer than everything accepted
  before are accepted, in increasing order and never twice.
-/

import Rda.Machine
import Mathlib.Algebra.Ring.Nat
import Mathlib.Data.List.Basic
import Mathlib.Data.Option.Basic

set_option relaxedAutoImplicit false
set_option autoImplicit false

namespace Rda

/-- A 16-bit sequence number compared under serial arithmetic. -/
structure Serial where
  val : UInt16
  deriving DecidableEq, Repr

namespace Serial

/-- Half the sequence space.  Differences at or beyond this are not newer. -/
def HALF : UInt16 := (1 : UInt16) <<< 15

/-- Returns the next sequence number, wrapping. -/
def next (self : Serial) : Serial := ⟨self.val + 1⟩

/-- Is the number strictly newer than the other one in the circular sequence space? -/
def isNewerThan (self other : Serial) : Bool :=
  let diff := self.val - other.val
  diff ≠ 0 && diff < HALF

/-- Is the number to be discarded as stale relative to the last applied one? -/
def isStaleAgainst (self lastApplied : Serial) : Bool := !self.isNewerThan lastApplied

/-- The number on the wire of the sender's `i`-th frame. -/
def ofIndex (i : ℕ) : Serial := ⟨UInt16.ofNat i⟩

/-- The sender counts by `next`. -/
theorem next_ofIndex (i : ℕ) : (ofIndex i).next = ofIndex (i + 1) := by
  simp only [next, ofIndex, UInt16.ofNat_add, UInt16.ofNat_one]

/-- The circular difference of two counts. -/
theorem toNat_sub_ofIndex (i k : ℕ) :
    ((ofIndex i).val - (ofIndex k).val).toNat = (2 ^ 16 - k % 2 ^ 16 + i % 2 ^ 16) % 2 ^ 16 := by
  simp only [ofIndex]
  rw [UInt16.toNat_sub, UInt16.toNat_ofNat', UInt16.toNat_ofNat']

/-- A frame is newer than another exactly when their circular difference is in the first half. -/
theorem isNewerThan_iff (a b : Serial) :
    a.isNewerThan b = true ↔ (a.val - b.val).toNat ≠ 0 ∧ (a.val - b.val).toNat < 2 ^ 15 := by
  have hhalf : HALF.toNat = 2 ^ 15 := rfl
  simp only [isNewerThan, Bool.and_eq_true, decide_eq_true_eq]
  rw [UInt16.lt_iff_toNat_lt, hhalf, ne_eq, ne_eq, ← UInt16.toNat_inj, UInt16.toNat_zero]

/-- **Within half the space the order on the wire is the sender's.** -/
theorem isNewerThan_ofIndex {i k : ℕ} (hik : i < k + 2 ^ 15) (hki : k < i + 2 ^ 15) :
    (ofIndex i).isNewerThan (ofIndex k) = true ↔ k < i := by
  rw [isNewerThan_iff, toNat_sub_ofIndex]
  constructor
  · rintro ⟨hne, hlt⟩
    -- A count that is behind by `d` shows up `2 ^ 16 - d` ahead, beyond the half.
    by_contra hle
    omega
  · intro hlt
    omega

end Serial

/-- Tracks the highest sequence number applied on one channel in one direction. -/
structure SerialTracker where
  last : Option Serial := none
  deriving DecidableEq, Repr

/-- Records a number if it is newer than everything seen so far.  The first frame of a session is
always accepted. -/
def SerialTracker.accept (self : SerialTracker) (seq : Serial) : Bool × SerialTracker :=
  match self.last with
  | none => (true, { self with last := some seq })
  | some last =>
      if seq.isNewerThan last then (true, { self with last := some seq }) else (false, self)

/-- What is accepted becomes the last number, and what is not leaves the tracker as it was. -/
theorem SerialTracker.accept_snd (t : SerialTracker) (seq : Serial) :
    (t.accept seq).2 = if (t.accept seq).1 then ⟨some seq⟩ else t := by
  rw [accept]
  cases t.last with
  | none => rfl
  | some last =>
      by_cases hnew : seq.isNewerThan last = true
      · simp only [hnew, if_true]
      · simp only [hnew, Bool.false_eq_true, if_false]

/-! ### The sender's own order -/

/-- A tracker, with the sender's own numbers of the frames it has accepted, in the order of
acceptance. -/
structure Followed where
  tracker : SerialTracker := {}
  accepted : List ℕ := []
  deriving DecidableEq, Repr

namespace Followed

/-- Would the sender's `i`-th frame be accepted? -/
def accepts (x : Followed) (i : ℕ) : Bool := (x.tracker.accept (.ofIndex i)).1

/-- The sender's `i`-th frame arrives. -/
def arrive (x : Followed) (i : ℕ) : Followed where
  tracker := (x.tracker.accept (.ofIndex i)).2
  accepted := if x.accepts i then x.accepted ++ [i] else x.accepted

/-- The frame is less than half the number space away from the last one that was accepted. -/
def Near (x : Followed) (i : ℕ) : Prop :=
  ∀ last ∈ x.accepted.getLast?, i < last + 2 ^ 15 ∧ last < i + 2 ^ 15

instance (x : Followed) (i : ℕ) : Decidable (x.Near i) :=
  inferInstanceAs (Decidable (∀ last ∈ x.accepted.getLast?, _))

/-- The tracker remembers the last frame that was accepted, accepted frames are in increasing
order, and no frame that has arrived is newer than the last one accepted. -/
structure Inv (arrived : List ℕ) (x : Followed) : Prop where
  last : x.tracker.last = x.accepted.getLast?.map Serial.ofIndex
  increasing : x.accepted.Pairwise (· < ·)
  arrived_le : ∀ i ∈ arrived, ∃ k ∈ x.accepted, i ≤ k

variable {arrived : List ℕ} {x : Followed} {i : ℕ}

/-- In an increasing list everything is below a number exactly when the last entry is. -/
theorem forall_lt_iff_getLast {ks : List ℕ} (h : ks.Pairwise (· < ·)) (i : ℕ) :
    (∀ k ∈ ks, k < i) ↔ ∀ last ∈ ks.getLast?, last < i := by
  constructor
  · intro hall last hlast
    exact hall last (List.mem_of_getLast? hlast)
  · intro hlast k hk
    induction ks using List.reverseRec with
    | nil => simp at hk
    | append_singleton ks last _ =>
        have hl : last < i := hlast last (by simp)
        rcases List.mem_append.1 hk with hk | hk
        · exact lt_trans ((List.pairwise_append.1 h).2.2 k hk last (by simp)) hl
        · rwa [List.mem_singleton.1 hk]

/-- **One arrival.**  A frame within half the space is accepted exactly when it is newer than every
frame accepted before. -/
theorem accepts_iff (h : Inv arrived x) (hnear : x.Near i) :
    x.accepts i = true ↔ ∀ k ∈ x.accepted, k < i := by
  rw [forall_lt_iff_getLast h.increasing, accepts, SerialTracker.accept, h.last]
  cases hlast : x.accepted.getLast? with
  | none => simp
  | some last =>
      obtain ⟨hfar, hback⟩ := hnear last hlast
      have hnewer := Serial.isNewerThan_ofIndex hfar hback
      by_cases hlt : last < i
      · simp [hnewer.2 hlt, hlt]
      · have hold : (Serial.ofIndex i).isNewerThan (Serial.ofIndex last) = false :=
          Bool.eq_false_iff.2 (mt hnewer.1 hlt)
        simp [hold, hlt]

/-- An arrival keeps the invariant. -/
theorem inv_arrive (h : Inv arrived x) (hnear : x.Near i) :
    Inv (arrived ++ [i]) (x.arrive i) := by
  have hsnd := x.tracker.accept_snd (.ofIndex i)
  have hiff := accepts_iff h hnear
  cases hacc : x.accepts i with
  | true =>
      have hnew := hiff.1 hacc
      rw [accepts] at hacc
      refine ⟨?_, ?_, ?_⟩
      · simp only [arrive, accepts, hsnd, hacc, if_true, List.getLast?_concat, Option.map_some]
      · simp only [arrive, accepts, hacc, if_true]
        refine List.pairwise_append.2 ⟨h.increasing, List.pairwise_singleton _ _, ?_⟩
        intro k hk j hj
        rw [List.mem_singleton.1 hj]
        exact hnew k hk
      · simp only [arrive, accepts, hacc, if_true]
        intro j hj
        rcases List.mem_append.1 hj with hj | hj
        · obtain ⟨k, hk, hjk⟩ := h.arrived_le j hj
          exact ⟨k, List.mem_append_left _ hk, hjk⟩
        · exact ⟨i, by simp, le_of_eq (List.mem_singleton.1 hj)⟩
  | false =>
      -- What is not accepted is not newer than something that was.
      have hold : ∃ k ∈ x.accepted, i ≤ k := by
        by_contra hn
        push Not at hn
        rw [hiff.2 hn] at hacc
        cases hacc
      rw [accepts] at hacc
      simp only [hacc, Bool.false_eq_true, if_false] at hsnd
      refine ⟨?_, ?_, ?_⟩
      · simp only [arrive, accepts, hsnd, hacc, Bool.false_eq_true, if_false, h.last]
      · simp only [arrive, accepts, hacc, Bool.false_eq_true, if_false, h.increasing]
      · simp only [arrive, accepts, hacc, Bool.false_eq_true, if_false]
        intro j hj
        rcases List.mem_append.1 hj with hj | hj
        · exact h.arrived_le j hj
        · rw [List.mem_singleton.1 hj]
          exact hold

/-- Every run of near arrivals has the invariant. -/
theorem inv_run {is : List ℕ} (h : Machine.Along arrive Near {} is) :
    Inv is (Machine.run arrive {} is) := by
  refine Machine.run_history
    (fun is x => Machine.Along arrive Near {} is → Inv is x) ?_ ?_ is h
  · intro _
    exact ⟨rfl, List.Pairwise.nil, by simp⟩
  · intro js i ih halong
    obtain ⟨hjs, hi⟩ := Machine.along_append.1 halong
    exact inv_arrive (ih hjs) hi.1

end Followed

/-- **Serial tracking follows the sender's order.**  In every sequence of arrivals that are each
less than half the number space away from the last accepted one, exactly the arrivals that are newer
than all accepted before are accepted; the accepted ones are strictly increasing, and nothing that
has arrived before is accepted. -/
theorem serial_tracking_follows_order (is : List ℕ)
    (h : Machine.Along Followed.arrive Followed.Near {} is) :
    (∀ js i, js ++ [i] <+: is →
      ((Machine.run Followed.arrive {} js).accepts i = true ↔
        ∀ k ∈ (Machine.run Followed.arrive {} js).accepted, k < i)) ∧
    (Machine.run Followed.arrive {} is).accepted.Pairwise (· < ·) ∧
    (∀ js i, js ++ [i] <+: is → i ∈ js →
      (Machine.run Followed.arrive {} js).accepts i = false) := by
  have hstep : ∀ js i, js ++ [i] <+: is →
      Followed.Inv js (Machine.run Followed.arrive {} js) ∧
        (Machine.run Followed.arrive {} js).Near i := by
    rintro js i ⟨ks, rfl⟩
    obtain ⟨hjs, hi⟩ := Machine.along_append.1 (Machine.along_append.1 h).1
    exact ⟨Followed.inv_run hjs, hi.1⟩
  refine ⟨?_, (Followed.inv_run h).increasing, ?_⟩
  · intro js i hpre
    obtain ⟨hinv, hnear⟩ := hstep js i hpre
    exact Followed.accepts_iff hinv hnear
  · intro js i hpre hmem
    obtain ⟨hinv, hnear⟩ := hstep js i hpre
    obtain ⟨k, hk, hik⟩ := hinv.arrived_le i hmem
    refine Bool.eq_false_iff.2 ?_
    intro hacc
    exact not_lt.2 hik ((Followed.accepts_iff hinv hnear).1 hacc k hk)

/-- A run across the wrap, with a late frame and a repeated one. -/
theorem serial_tracking_across_wrap :
    (Machine.run Followed.arrive {} [65534, 65537, 65535, 65537, 98000]).accepted.Pairwise
      (· < ·) ∧
    (Machine.run Followed.arrive {} [65534, 65537, 65535]).accepts 65537 = false := by
  obtain ⟨-, hincreasing, htwice⟩ := serial_tracking_follows_order
    [65534, 65537, 65535, 65537, 98000] (by decide)
  exact ⟨hincreasing, htwice [65534, 65537, 65535] 65537 (by decide) (by decide)⟩

end Rda
