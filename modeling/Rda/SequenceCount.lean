/-
**Counted losses against the numbers that never arrived.**

The sender counts without bound and the wire carries the low 16 bits of each count.  As long as
every arrival is new, not below the first one and within 256 of the highest so far, the tracker's
counts are about the sender's own numbers: every arrival is counted once, and the losses come to the
numbers missing between the first arrival and the highest.  A report in the middle clears the count,
so that a late arrival may find nothing to take back; from then on the losses are an upper bound.

The counts are 32 bits wide.  An arrival counts at most 255 losses, so that they hold what is
counted for 16,843,009 arrivals; two arrivals more, each 256 ahead of the one before, are too many.

Main definitions:

* `Rda.Counting`, `Rda.Counting.step` — the tracker, what arrived, and what has been reported;
* `Rda.Counting.Admissible` — an arrival is new and within reach of the highest so far;
* `Rda.Counting.missing` — how many numbers between the first and the highest never arrived;
* `Rda.Counting.Roomy` — not too many arrivals wait to be reported;
* `Rda.Counting.Uninterrupted` — no report stands between two arrivals.

Main results:

* `Rda.SequenceTracker.observe_unwrapped` — what an arrival does, in the sender's numbers;
* `Rda.loss_counting_exact` — received counts are exact, lost counts are never too low, and exact
  when no report stands between two arrivals;
* `Rda.Counting.run_spread` — arrivals that are as far apart as they may be.
-/

import Rda.Machine
import Rda.SequenceTracker
import Mathlib.Algebra.BigOperators.Group.List.Basic
import Mathlib.Data.Finset.Card
import Mathlib.Order.Interval.Finset.Nat

set_option relaxedAutoImplicit false
set_option autoImplicit false

namespace Rda

/-! ### The sender's numbers -/

namespace SequenceTracker

/-- Numbers that differ by a bounded amount, as the wire carries them. -/
theorem ofNat_add_ofNat (h n : ℕ) : UInt16.ofNat h + UInt16.ofNat n = UInt16.ofNat (h + n) :=
  (UInt16.ofNat_add h n).symm

/-- A number behind the highest one is far ahead of it on the wire. -/
theorem ofNat_behind {i h : ℕ} (hih : i < h) (hback : h ≤ i + 256) :
    UInt16.ofNat h + UInt16.ofNat (2 ^ 16 - (h - i)) = UInt16.ofNat i := by
  rw [ofNat_add_ofNat]
  have hsum : h + (2 ^ 16 - (h - i)) = i + 2 ^ 16 := by omega
  rw [← UInt16.toNat_inj, UInt16.toNat_ofNat', UInt16.toNat_ofNat', hsum, Nat.add_mod_right]

/-- **What an arrival does, in the sender's numbers**: ahead of the highest number it counts what it
skips as lost, behind it it takes one loss back. -/
theorem observe_unwrapped {t : SequenceTracker} {i h : ℕ} (hh : t.highest = some (.ofNat h))
    (hahead : i ≤ h + 256) (hback : h ≤ i + 256) (hne : i ≠ h) :
    (h < i ∧ t.observe (.ofNat i)
      = ⟨some (.ofNat i), t.received + 1, t.lost + .ofNat (i - h - 1)⟩) ∨
    (i < h ∧ t.observe (.ofNat i)
      = { t with received := t.received + 1, lost := saturatingSubU32 t.lost 1 }) := by
  rcases Nat.lt_or_gt_of_ne hne with hlt | hgt
  · have hmod : (2 ^ 16 - (h - i)) % 2 ^ 16 = 2 ^ 16 - (h - i) := Nat.mod_eq_of_lt (by omega)
    rcases observe_ahead hh (2 ^ 16 - (h - i)) with
      ⟨hn, -⟩ | ⟨-, hn, -⟩ | ⟨-, hn, -⟩ | ⟨-, heq⟩
    · omega
    · omega
    · omega
    · rw [ofNat_behind hlt hback] at heq
      exact .inr ⟨hlt, heq⟩
  · have hmod : (i - h) % 2 ^ 16 = i - h := Nat.mod_eq_of_lt (by omega)
    rcases observe_ahead hh (i - h) with
      ⟨hn, -⟩ | ⟨-, -, heq⟩ | ⟨hn, -, -⟩ | ⟨hn, -⟩
    · omega
    · have hsum : h + (i - h) = i := by omega
      rw [ofNat_add_ofNat, hmod, hsum] at heq
      exact .inl ⟨hgt, heq⟩
    · omega
    · omega

/-- An arrival counts at most 255 losses. -/
theorem observe_lost_le (t : SequenceTracker) (sequence : UInt16) :
    (t.observe sequence).lost.toNat ≤ t.lost.toNat + 255 := by
  cases h : t.highest with
  | none => rw [(observe_first h sequence).2]; omega
  | some highest =>
      have hseq : highest + UInt16.ofNat (sequence - highest).toNat = sequence := by
        rw [UInt16.ofNat_toNat, UInt16.add_comm, UInt16.sub_add_cancel]
      have hcases := observe_ahead h (sequence - highest).toNat
      rw [hseq] at hcases
      rcases hcases with ⟨hn, heq⟩ | ⟨hlow, hhigh, heq⟩ | ⟨hlow, hhigh, heq⟩ | ⟨hlow, heq⟩
      · rw [heq]
        exact Nat.le_add_right _ _
      · rw [heq, UInt32.toNat_add, UInt32.toNat_ofNat']
        refine (Nat.mod_le _ _).trans (Nat.add_le_add_left ((Nat.mod_le _ _).trans ?_) _)
        omega
      · rw [heq]
        exact Nat.le_add_right _ _
      · rw [heq, toNat_saturatingSubU32]
        omega

/-- Every arrival is counted. -/
theorem observe_received (t : SequenceTracker) (sequence : UInt16) :
    (t.observe sequence).received = t.received + 1 := by
  simp only [observe]
  cases t.highest with
  | none => rfl
  | some highest => dsimp only; split_ifs <;> rfl

/-- A sum that fits is the sum. -/
theorem toNat_add_of_fits {a b : UInt32} {n : ℕ} (hb : b.toNat = n) (h : a.toNat + n < 2 ^ 32) :
    (a + b).toNat = a.toNat + n := by
  rw [UInt32.toNat_add, hb, Nat.mod_eq_of_lt h]

end SequenceTracker

/-! ### A run of the tracker -/

/-- What happens to a tracker. -/
inductive CountEvent where
  /-- The sender's frame with this number arrives. -/
  | arrive (i : ℕ)
  /-- The counts are reported and cleared. -/
  | take
  deriving DecidableEq, Repr

/-- A tracker, with the sender's numbers of what arrived, how many arrivals wait to be reported, and
the counts that were reported. -/
structure Counting where
  tracker : SequenceTracker := {}
  arrived : List ℕ := []
  unreported : ℕ := 0
  reports : List (UInt32 × UInt32) := []
  deriving DecidableEq, Repr

namespace Counting

/-- How many arrivals may wait to be reported: 255 losses for each come to 2^32 - 1. -/
def capacity : ℕ := 16843009

/-- One event. -/
def step (x : Counting) : CountEvent → Counting
  | .arrive i =>
      { x with
        tracker := x.tracker.observe (.ofNat i)
        arrived := x.arrived ++ [i]
        unreported := x.unreported + 1 }
  | .take =>
      { x with
        tracker := x.tracker.take.2
        unreported := 0
        reports := x.reports ++ [x.tracker.take.1] }

/-- The arrival is new, not below the first one, and within reach of the highest so far. -/
def Admissible (x : Counting) : CountEvent → Prop
  | .arrive i =>
      i ∉ x.arrived ∧ (∀ first ∈ x.arrived.head?, first ≤ i) ∧
        ∀ highest ∈ x.arrived.max?,
          i ≤ highest + MAX_REORDER.toNat ∧ highest ≤ i + MAX_REORDER.toNat
  | .take => True

instance (x : Counting) : (e : CountEvent) → Decidable (x.Admissible e)
  | .arrive _ => inferInstanceAs (Decidable (_ ∧ _ ∧ _))
  | .take => isTrue trivial

/-- An arrival has room among those that wait to be reported. -/
def Roomy (x : Counting) : CountEvent → Prop
  | .arrive _ => x.unreported < capacity
  | .take => True

instance (x : Counting) : (e : CountEvent) → Decidable (x.Roomy e)
  | .arrive _ => inferInstanceAs (Decidable (_ < _))
  | .take => isTrue trivial

/-- The arrivals that were counted, reported or not. -/
def totalReceived (x : Counting) : ℕ :=
  (x.reports.map fun r => r.1.toNat).sum + x.tracker.received.toNat

/-- The losses that were reported. -/
def reportedLost (x : Counting) : ℕ := (x.reports.map fun r => r.2.toNat).sum

/-- The losses that were counted, reported or not. -/
def totalLost (x : Counting) : ℕ := x.reportedLost + x.tracker.lost.toNat

/-- How many numbers between the first arrival and the highest never arrived. -/
def missing (x : Counting) : ℕ :=
  match x.arrived.head?, x.arrived.max? with
  | some first, some highest => (Finset.Icc first highest \ x.arrived.toFinset).card
  | _, _ => 0

/-- No report stands between two arrivals. -/
def Uninterrupted (events : List CountEvent) : Prop :=
  ∀ js ks, events = js ++ .take :: ks →
    (∀ e ∈ js, e = .take) ∨ ∀ e ∈ ks, e = .take

variable {x : Counting} {i first highest : ℕ} {events : List CountEvent}

theorem reportedLost_take (x : Counting) :
    (x.step .take).reportedLost = x.reportedLost + x.tracker.lost.toNat := by
  simp [step, reportedLost, SequenceTracker.take]

theorem totalLost_take (x : Counting) : (x.step .take).totalLost = x.totalLost := by
  rw [totalLost, reportedLost_take]
  rfl

theorem totalReceived_take (x : Counting) : (x.step .take).totalReceived = x.totalReceived := by
  simp [step, totalReceived, SequenceTracker.take]

theorem reportedLost_arrive (x : Counting) (i : ℕ) :
    (x.step (.arrive i)).reportedLost = x.reportedLost := rfl

/-- The counters hold what is counted: the arrivals that wait, and at most 255 losses for each. -/
structure Fits (x : Counting) : Prop where
  received : x.tracker.received.toNat = x.unreported
  lost : x.tracker.lost.toNat ≤ 255 * x.unreported

theorem fits_step (x : Counting) (e : CountEvent) (h : Fits x) (hroom : x.Roomy e) :
    Fits (x.step e) := by
  cases e with
  | arrive i =>
      have hroom : x.unreported < 16843009 := hroom
      have hfits : x.tracker.received.toNat + 1 < 2 ^ 32 := by
        rw [h.received]
        omega
      refine ⟨?_, ?_⟩
      · rw [step, SequenceTracker.observe_received,
          SequenceTracker.toNat_add_of_fits UInt32.toNat_one hfits, h.received]
      · have hlost := x.tracker.observe_lost_le (.ofNat i)
        have hle := h.lost
        simp only [step]
        omega
  | take => exact ⟨rfl, Nat.zero_le _⟩

/-- So no counter runs over at an arrival that has room. -/
theorem Fits.room (h : Fits x) (hroom : x.Roomy (.arrive i)) :
    x.tracker.received.toNat + 1 < 2 ^ 32 ∧ x.tracker.lost.toNat + 255 < 2 ^ 32 := by
  have hroom : x.unreported < 16843009 := hroom
  have hle := h.lost
  rw [h.received]
  omega

theorem totalReceived_arrive (h : Fits x) (hroom : x.Roomy (.arrive i)) :
    (x.step (.arrive i)).totalReceived = x.totalReceived + 1 := by
  simp only [totalReceived, step, SequenceTracker.observe_received]
  rw [SequenceTracker.toNat_add_of_fits UInt32.toNat_one (h.room hroom).1, Nat.add_assoc]

/-! ### Missing numbers -/

/-- The first arrival, the highest one, and where everything else lies. -/
structure Spans (arrived : List ℕ) (first highest : ℕ) : Prop where
  nodup : arrived.Nodup
  head : arrived.head? = some first
  top : arrived.max? = some highest
  first_le : ∀ i ∈ arrived, first ≤ i

theorem Spans.le_highest {arrived : List ℕ} (h : Spans arrived first highest) :
    ∀ i ∈ arrived, i ≤ highest := (List.max?_eq_some_iff.1 h.top).2

theorem Spans.first_le_highest {arrived : List ℕ} (h : Spans arrived first highest) :
    first ≤ highest := h.first_le highest (List.max?_eq_some_iff.1 h.top).1

/-- Distinct numbers between the first and the highest leave the rest missing. -/
theorem Spans.missing_add (h : Spans x.arrived first highest) :
    x.missing + x.arrived.length = highest + 1 - first := by
  have hsub : x.arrived.toFinset ⊆ Finset.Icc first highest := by
    intro i hi
    have hmem := List.mem_toFinset.1 hi
    exact Finset.mem_Icc.2 ⟨h.first_le i hmem, h.le_highest i hmem⟩
  have hcard := Finset.card_le_card hsub
  rw [List.toFinset_card_of_nodup h.nodup, Nat.card_Icc] at hcard
  rw [missing, h.head, h.top]
  dsimp only
  rw [Finset.card_sdiff_of_subset hsub, Nat.card_Icc, List.toFinset_card_of_nodup h.nodup]
  omega

/-- An admissible arrival extends what has been seen. -/
theorem Spans.concat {arrived : List ℕ} (h : Spans arrived first highest) (hnew : i ∉ arrived)
    (hfirst : first ≤ i) : Spans (arrived ++ [i]) first (max highest i) where
  nodup := List.nodup_append.2 ⟨h.nodup, List.nodup_singleton i, by
    intro a ha b hb hab
    rw [List.mem_singleton.1 hb] at hab
    exact hnew (hab ▸ ha)⟩
  head := by rw [List.head?_append, h.head]; rfl
  top := by
    refine List.max?_eq_some_iff.2 ⟨?_, ?_⟩
    · rcases Nat.le_total highest i with hle | hle
      · exact List.mem_append_right _ (by simp [max_eq_right hle])
      · exact List.mem_append_left _
          (by rw [max_eq_left hle]; exact (List.max?_eq_some_iff.1 h.top).1)
    · intro b hb
      rcases List.mem_append.1 hb with hb | hb
      · exact le_trans (h.le_highest b hb) (le_max_left _ _)
      · rw [List.mem_singleton.1 hb]
        exact le_max_right _ _
  first_le := by
    intro j hj
    rcases List.mem_append.1 hj with hj | hj
    · exact h.first_le j hj
    · rw [List.mem_singleton.1 hj]
      exact hfirst

/-- Nothing has arrived yet, or the tracker's highest number is the highest arrival's. -/
inductive Seen (x : Counting) : Prop where
  | nothing (arrived : x.arrived = []) (highest : x.tracker.highest = none)
  | span (first highest : ℕ) (spans : Spans x.arrived first highest)
      (tracked : x.tracker.highest = some (.ofNat highest))

/-- What is true of every admissible run. -/
structure Inv (x : Counting) : Prop where
  seen : Seen x
  fits : Fits x
  received : x.totalReceived = x.arrived.length
  missing_le : x.missing ≤ x.totalLost

theorem missing_of_arrived_nil (h : x.arrived = []) : x.missing = 0 := by
  rw [missing, h]
  rfl

/-- **One arrival.**  What an admissible arrival does to the tracker and to the missing numbers: it
is the first one, it adds as many losses as numbers it leaves out, or it fills in a missing one. -/
theorem arrive_cases (h : Seen x) (hadm : x.Admissible (.arrive i))
    (hfits : x.tracker.lost.toNat + 255 < 2 ^ 32) :
    Seen (x.step (.arrive i)) ∧
      ((x.step (.arrive i)).missing = x.missing ∧
          (x.step (.arrive i)).tracker.lost.toNat = x.tracker.lost.toNat ∨
        (∃ n, (x.step (.arrive i)).missing = x.missing + n ∧
          (x.step (.arrive i)).tracker.lost.toNat = x.tracker.lost.toNat + n) ∨
        (x.step (.arrive i)).missing + 1 = x.missing ∧
          (x.step (.arrive i)).tracker.lost.toNat = x.tracker.lost.toNat - 1) := by
  obtain ⟨hnew, hfirst, hreach⟩ := hadm
  cases h with
  | nothing harr hhigh =>
      obtain ⟨hobs, hlost⟩ := SequenceTracker.observe_first hhigh (.ofNat i)
      have hspans : Spans (x.step (.arrive i)).arrived i i := by
        simp only [step, harr, List.nil_append]
        exact ⟨List.nodup_singleton i, rfl, rfl, by simp⟩
      have hmiss := hspans.missing_add
      have hlen : (x.step (.arrive i)).arrived.length = 1 := by simp [step, harr]
      refine ⟨.span i i hspans hobs, .inl ⟨?_, congrArg UInt32.toNat hlost⟩⟩
      rw [missing_of_arrived_nil harr]
      omega
  | span first highest hspans htracked =>
      have hge : first ≤ i := hfirst first hspans.head
      obtain ⟨hahead, hback⟩ : i ≤ highest + 256 ∧ highest ≤ i + 256 := hreach highest hspans.top
      have hne : i ≠ highest := fun heq => hnew (heq ▸ (List.max?_eq_some_iff.1 hspans.top).1)
      have hspans' : Spans (x.step (.arrive i)).arrived first (max highest i) :=
        hspans.concat hnew hge
      have hmiss := hspans.missing_add
      have hmiss' := hspans'.missing_add
      have hle := hspans.first_le_highest
      have hlen : (x.step (.arrive i)).arrived.length = x.arrived.length + 1 := by simp [step]
      rcases SequenceTracker.observe_unwrapped htracked hahead hback hne with
        ⟨hlt, hobs⟩ | ⟨hlt, hobs⟩
      · rw [show max highest i = i from max_eq_right hlt.le] at hspans' hmiss'
        refine ⟨.span first i hspans' ?_, .inr (.inl ⟨i - highest - 1, by omega, ?_⟩)⟩
        · simp only [step, hobs]
        · have hcount : (UInt32.ofNat (i - highest - 1)).toNat = i - highest - 1 := by
            rw [UInt32.toNat_ofNat', Nat.mod_eq_of_lt (by omega)]
          simp only [step, hobs]
          exact SequenceTracker.toNat_add_of_fits hcount (by omega)
      · rw [show max highest i = highest from max_eq_left hlt.le] at hspans' hmiss'
        refine ⟨.span first highest hspans' ?_, .inr (.inr ⟨by omega, ?_⟩)⟩
        · simp only [step, hobs, htracked]
        · simp only [step, hobs, toNat_saturatingSubU32, UInt32.toNat_one]

/-- A report changes nothing about what has arrived. -/
theorem seen_take (h : Seen x) : Seen (x.step .take) := by
  cases h with
  | nothing harr hhigh => exact .nothing harr hhigh
  | span first highest hspans htracked => exact .span first highest hspans htracked

/-- Every admissible event that has room keeps the invariant. -/
theorem inv_step (x : Counting) (e : CountEvent) (h : Inv x)
    (hgood : x.Admissible e ∧ x.Roomy e) : Inv (x.step e) := by
  obtain ⟨hadm, hroom⟩ := hgood
  have hfits := fits_step x e h.fits hroom
  cases e with
  | arrive i =>
      obtain ⟨hseen, hcases⟩ := arrive_cases h.seen hadm (h.fits.room hroom).2
      refine ⟨hseen, hfits, ?_, ?_⟩
      · rw [totalReceived_arrive h.fits hroom, h.received]
        simp [step]
      · have hle := h.missing_le
        rw [totalLost, reportedLost_arrive]
        rw [totalLost] at hle
        rcases hcases with ⟨hmiss, hlost⟩ | ⟨n, hmiss, hlost⟩ | ⟨hmiss, hlost⟩
        all_goals omega
  | take =>
      refine ⟨seen_take h.seen, hfits, ?_, ?_⟩
      · rw [totalReceived_take, h.received]
        rfl
      · rw [totalLost_take]
        exact h.missing_le

theorem inv_empty : Inv {} := ⟨.nothing rfl rfl, ⟨rfl, Nat.zero_le _⟩, rfl, Nat.zero_le _⟩

/-! ### Reports outside the arrivals -/

/-- Without an arrival nothing is lost. -/
theorem lost_of_takes (h : ∀ e ∈ events, e = CountEvent.take) :
    (Machine.run step {} events).tracker.lost = 0 := by
  refine Machine.run_history
    (fun is (x : Counting) => (∀ e ∈ is, e = CountEvent.take) → x.tracker.lost = 0)
    (fun _ => rfl) ?_ events h
  intro is e _ hall
  rw [hall e (by simp)]
  rfl

/-- A report before the first arrival reports no loss. -/
theorem reportedLost_of_before
    (h : ∀ js ks, events = js ++ CountEvent.take :: ks → ∀ e ∈ js, e = .take) :
    (Machine.run step {} events).reportedLost = 0 := by
  refine Machine.run_history
    (fun is (x : Counting) => (∀ js ks, is = js ++ CountEvent.take :: ks → ∀ e ∈ js, e = .take) →
      x.reportedLost = 0) (fun _ => rfl) ?_ events h
  intro is e ih hall
  have hprev : (Machine.run step {} is).reportedLost = 0 := by
    refine ih ?_
    intro js ks heq
    exact hall js (ks ++ [e]) (by rw [heq, List.append_assoc, List.cons_append])
  cases e with
  | arrive i => rw [reportedLost_arrive, hprev]
  | take =>
      rw [reportedLost_take, hprev, lost_of_takes (hall is [] rfl)]
      rfl

/-- A run without reports between two arrivals counts exactly the missing numbers. -/
theorem totalLost_eq_missing
    (h : Machine.Along step (fun x e => x.Admissible e ∧ x.Roomy e) {} events)
    (hun : Uninterrupted events) :
    (Machine.run step {} events).totalLost = (Machine.run step {} events).missing := by
  refine Machine.run_history
    (fun is (x : Counting) =>
      Machine.Along step (fun x e => x.Admissible e ∧ x.Roomy e) {} is → Uninterrupted is →
        x.totalLost = x.missing) (fun _ _ => rfl) ?_ events h hun
  intro is e ih halong hun
  obtain ⟨his, ⟨hadm, hroom⟩, -⟩ := Machine.along_append.1 halong
  have hinv := Machine.run_invariant_along Inv inv_step inv_empty his
  have hprev := ih his (by
    intro js ks heq
    rcases hun js (ks ++ [e]) (by rw [heq, List.append_assoc, List.cons_append]) with hb | ha
    · exact .inl hb
    · exact .inr fun e' he' => ha e' (List.mem_append_left _ he'))
  cases e with
  | take =>
      rw [totalLost_take, hprev]
      rfl
  | arrive i =>
      -- All reports so far were made before the first arrival, so the count is still whole.
      have hzero : (Machine.run step {} is).reportedLost = 0 := by
        refine reportedLost_of_before ?_
        intro js ks heq
        rcases hun js (ks ++ [.arrive i])
          (by rw [heq, List.append_assoc, List.cons_append]) with hb | ha
        · exact hb
        · exact absurd (ha (.arrive i) (by simp)) (by simp)
      obtain ⟨-, hcases⟩ := arrive_cases hinv.seen hadm (hinv.fits.room hroom).2
      rw [totalLost, hzero] at hprev
      rw [totalLost, reportedLost_arrive, hzero]
      rcases hcases with ⟨hmiss, hlost⟩ | ⟨n, hmiss, hlost⟩ | ⟨hmiss, hlost⟩
      all_goals omega

/-! ### Arrivals that are far apart -/

/-- So many arrivals after the first, each as far ahead as it may be.  The list is never
computed. -/
@[irreducible] def spread (n : ℕ) : List CountEvent :=
  (List.range (n + 1)).map fun k => .arrive (256 * k)

theorem spread_succ (n : ℕ) : spread (n + 1) = spread n ++ [.arrive (256 * (n + 1))] := by
  rw [spread, spread, List.range_succ, List.map_append]
  rfl

theorem uninterrupted_spread (n : ℕ) : Uninterrupted (spread n) := by
  intro js ks heq
  have hmem : CountEvent.take ∈ spread n := by
    rw [heq]
    exact List.mem_append_right js List.mem_cons_self
  rw [spread] at hmem
  obtain ⟨k, -, hk⟩ := List.mem_map.1 hmem
  cases hk

/-- Every one of these arrivals is admissible, and counts 255 losses in 32 bits. -/
theorem run_spread (n : ℕ) :
    Machine.Along step Admissible {} (spread n) ∧
      Spans (Machine.run step {} (spread n)).arrived 0 (256 * n) ∧
      (Machine.run step {} (spread n)).arrived.length = n + 1 ∧
      (Machine.run step {} (spread n)).reports = [] ∧
      (Machine.run step {} (spread n)).tracker.highest = some (.ofNat (256 * n)) ∧
      (Machine.run step {} (spread n)).tracker.lost = .ofNat (255 * n) := by
  induction n with
  | zero =>
      rw [spread]
      refine ⟨by decide, ?_, rfl, rfl, rfl, rfl⟩
      exact ⟨List.nodup_singleton 0, rfl, rfl, by simp⟩
  | succ n ih =>
      obtain ⟨halong, hspans, hlen, hreports, hhigh, hlost⟩ := ih
      generalize hx : Machine.run step {} (spread n) = x at *
      have hrun : Machine.run step {} (spread (n + 1)) = x.step (.arrive (256 * (n + 1))) := by
        rw [spread_succ, Machine.run_append, hx]
        rfl
      have hnew : 256 * (n + 1) ∉ x.arrived := fun hmem => by
        have hle := hspans.le_highest _ hmem
        omega
      have hadm : x.Admissible (.arrive (256 * (n + 1))) := by
        refine ⟨hnew, fun first hfirst => ?_, fun highest hhighest => ?_⟩
        · rw [hspans.head] at hfirst
          cases hfirst
          exact Nat.zero_le _
        · rw [hspans.top] at hhighest
          cases hhighest
          change 256 * (n + 1) ≤ 256 * n + 256 ∧ 256 * n ≤ 256 * (n + 1) + 256
          omega
      have hspans' := hspans.concat hnew (Nat.zero_le _)
      rw [max_eq_right (show 256 * n ≤ 256 * (n + 1) by omega)] at hspans'
      rcases SequenceTracker.observe_unwrapped (i := 256 * (n + 1)) hhigh (by omega) (by omega)
        (by omega) with ⟨-, hobs⟩ | ⟨hlt, -⟩
      · rw [hrun, spread_succ]
        refine ⟨Machine.along_append.2 ⟨halong, ?_⟩, hspans', ?_, hreports, ?_, ?_⟩
        · rw [hx]
          exact ⟨hadm, trivial⟩
        · simp [step, hlen]
        · simp only [step, hobs]
        · have hskipped : 256 * (n + 1) - 256 * n - 1 = 255 := by omega
          have hsum : 255 * (n + 1) = 255 * n + 255 := by omega
          simp only [step, hobs]
          rw [hlost, hskipped, hsum, UInt32.ofNat_add]
      · omega

theorem admissible_spread (n : ℕ) : Machine.Along step Admissible {} (spread n) := (run_spread n).1

theorem missing_spread (n : ℕ) : (Machine.run step {} (spread n)).missing = 255 * n := by
  obtain ⟨-, hspans, hlen, -⟩ := run_spread n
  have hmiss := hspans.missing_add
  omega

theorem totalLost_spread (n : ℕ) :
    (Machine.run step {} (spread n)).totalLost = 255 * n % 2 ^ 32 := by
  obtain ⟨-, -, -, hreports, -, hlost⟩ := run_spread n
  rw [totalLost, reportedLost, hreports, hlost, UInt32.toNat_ofNat', List.map_nil, List.sum_nil,
    Nat.zero_add]

end Counting

/-- **Loss counting is exact up to reporting.**  In every admissible run in which the arrivals that
wait to be reported never are too many, the received counts sum to the number of arrivals and the
lost counts to at least the number of indices missing between the first and the highest, and to
exactly that number when no report stands between two arrivals. -/
theorem loss_counting_exact (events : List CountEvent)
    (h : Machine.Along Counting.step Counting.Admissible {} events)
    (hroom : Machine.Along Counting.step Counting.Roomy {} events) :
    (Machine.run Counting.step {} events).totalReceived
      = (Machine.run Counting.step {} events).arrived.length ∧
    (Machine.run Counting.step {} events).missing
      ≤ (Machine.run Counting.step {} events).totalLost ∧
    (Counting.Uninterrupted events →
      (Machine.run Counting.step {} events).totalLost
        = (Machine.run Counting.step {} events).missing) := by
  have hgood := Machine.along_and.2 ⟨h, hroom⟩
  have hinv := Machine.run_invariant_along Counting.Inv Counting.inv_step Counting.inv_empty hgood
  exact ⟨hinv.received, hinv.missing_le, Counting.totalLost_eq_missing hgood⟩

/-- A run across the wrap with a gap, a report and a late arrival: the loss that was reported is not
taken back. -/
theorem loss_counting_across_wrap :
    (Machine.run Counting.step {}
      [.arrive 65534, .arrive 65538, .take, .arrive 65536, .arrive 65539]).totalReceived = 4 ∧
    (Machine.run Counting.step {}
      [.arrive 65534, .arrive 65538, .take, .arrive 65536, .arrive 65539]).missing ≤ 3 := by
  obtain ⟨hreceived, hmissing, -⟩ := loss_counting_exact
    [.arrive 65534, .arrive 65538, .take, .arrive 65536, .arrive 65539] (by decide)
    (by decide)
  exact ⟨hreceived, hmissing⟩

/-- Of 16,843,011 arrivals, each 256 ahead of the one before, the last counts its losses past the
end of 32 bits: 254 are left of the 4,294,967,550 that are missing. -/
theorem loss_counting_overflows :
    Machine.Along Counting.step Counting.Admissible {} (Counting.spread 16843010) ∧
      Counting.Uninterrupted (Counting.spread 16843010) ∧
      (Machine.run Counting.step {} (Counting.spread 16843010)).missing = 4294967550 ∧
      (Machine.run Counting.step {} (Counting.spread 16843010)).totalLost = 254 :=
  ⟨Counting.admissible_spread 16843010, Counting.uninterrupted_spread 16843010,
    Counting.missing_spread 16843010, (Counting.totalLost_spread 16843010).trans (by decide)⟩

end Rda
