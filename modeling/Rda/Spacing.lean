/-
**Events with waits between them.**

A source lets an event through once it has waited long enough since the last one.  Whether the
events keep a sliding limit is then a question about sums of waits: the event that is one too many
for an interval must come a whole span after the first one in it.

Main definitions:

* `Spacing.Spaced` — the event after `limit` more comes at least a span later;
* `Spacing.arrivals` — the times of events with given waits between them.

Main results:

* `Spacing.sparse_iff_spaced` — events in order keep a sliding limit exactly when they are spaced;
* `Spacing.sparse_arrivals_iff` — **the waits of the events**: every `limit` of them in a row, the
  first one apart, add up to the span.
-/

import Rda.FixedWindow
import Mathlib.Algebra.BigOperators.Group.List.Basic
import Mathlib.Algebra.Ring.Nat

set_option relaxedAutoImplicit false
set_option autoImplicit false

namespace Spacing

open FixedWindow (Sparse)

variable {limit span : ℕ}

/-- The event that comes after `limit` more comes at least a span later. -/
def Spaced (limit span : ℕ) (times : List ℕ) : Prop :=
  ∀ i t u, times[i]? = some t → times[i + limit]? = some u → t + span ≤ u

theorem Spaced.tail {x : ℕ} {times : List ℕ} (h : Spaced limit span (x :: times)) :
    Spaced limit span times := by
  intro i t u ht hu
  refine h (i + 1) t u ht ?_
  rwa [Nat.add_right_comm, List.getElem?_cons_succ]

theorem le_of_getElem? {times : List ℕ} (hsorted : times.Pairwise (· ≤ ·)) {i j t u : ℕ}
    (ht : times[i]? = some t) (hu : times[j]? = some u) (hij : i ≤ j) : t ≤ u := by
  obtain ⟨hi, rfl⟩ := List.getElem?_eq_some_iff.1 ht
  obtain ⟨hj, rfl⟩ := List.getElem?_eq_some_iff.1 hu
  rcases Nat.eq_or_lt_of_le hij with rfl | hlt
  · exact Nat.le_refl _
  · exact List.pairwise_iff_getElem.1 hsorted i j hi hj hlt

/-- Events in order keep a sliding limit exactly when they are spaced. -/
theorem sparse_iff_spaced {times : List ℕ} (hsorted : times.Pairwise (· ≤ ·)) :
    Sparse limit span times ↔ Spaced limit span times := by
  constructor
  · intro h i t u ht hu
    by_contra hlt
    -- The events from `t` to `u` all lie in the interval of the span that begins with `t`.
    have hall : ((times.drop i).take (limit + 1)).countP (fun v => t ≤ v ∧ v < t + span)
        = limit + 1 := by
      obtain ⟨hlen, -⟩ := List.getElem?_eq_some_iff.1 hu
      rw [List.countP_eq_length.2, List.length_take, List.length_drop]
      · omega
      · intro v hv
        obtain ⟨k, hk⟩ := List.mem_iff_getElem?.1 hv
        rw [List.getElem?_take] at hk
        split_ifs at hk with hle
        rw [List.getElem?_drop] at hk
        have htv := le_of_getElem? hsorted ht hk (Nat.le_add_right i k)
        have hvu := le_of_getElem? hsorted hk hu (Nat.add_le_add_left (Nat.le_of_lt_succ hle) i)
        simp only [decide_eq_true_eq]
        omega
    have hsub : ((times.drop i).take (limit + 1)).Sublist times :=
      (List.take_sublist ..).trans (List.drop_sublist ..)
    have hcount := Nat.le_trans (hsub.countP_le) (h t)
    omega
  · intro h a
    induction times with
    | nil => exact Nat.zero_le limit
    | cons x times ih =>
        obtain ⟨hx, hsorted⟩ := List.pairwise_cons.1 hsorted
        by_cases hin : a ≤ x ∧ x < a + span
        · -- From the `limit`-th event on the interval is over.
          rw [← List.take_append_drop limit (x :: times), List.countP_append]
          have hlate : ((x :: times).drop limit).countP (fun t => a ≤ t ∧ t < a + span) = 0 := by
            refine List.countP_eq_zero.2 fun u hu => ?_
            obtain ⟨j, hj⟩ := List.mem_iff_getElem?.1 hu
            rw [List.getElem?_drop, Nat.add_comm] at hj
            obtain ⟨hlen, -⟩ := List.getElem?_eq_some_iff.1 hj
            have ht := List.getElem?_eq_getElem (Nat.lt_of_le_of_lt (Nat.le_add_right j limit) hlen)
            have hspan := h j _ u ht hj
            have hfirst : x ≤ _ :=
              le_of_getElem? (List.pairwise_cons.2 ⟨hx, hsorted⟩) rfl ht (Nat.zero_le j)
            simp only [decide_eq_true_eq]
            omega
          rw [hlate, Nat.add_zero]
          exact Nat.le_trans List.countP_le_length (List.length_take_le ..)
        · rw [List.countP_cons_of_neg (by simpa using hin)]
          exact ih hsorted h.tail

/-- The times of events with given waits between them. -/
def arrivals : ℕ → List ℕ → List ℕ
  | _, [] => []
  | start, wait :: waits => (start + wait) :: arrivals (start + wait) waits

theorem le_of_mem_arrivals {start t : ℕ} {waits : List ℕ} (h : t ∈ arrivals start waits) :
    start ≤ t := by
  induction waits generalizing start with
  | nil => cases h
  | cons wait waits ih =>
      rcases List.mem_cons.1 h with rfl | h
      · exact Nat.le_add_right _ _
      · exact Nat.le_trans (Nat.le_add_right _ _) (ih h)

theorem pairwise_arrivals (start : ℕ) (waits : List ℕ) :
    (arrivals start waits).Pairwise (· ≤ ·) := by
  induction waits generalizing start with
  | nil => exact .nil
  | cons wait waits ih => exact .cons (fun _ ht => le_of_mem_arrivals ht) (ih _)

theorem getElem?_arrivals (start : ℕ) (waits : List ℕ) (i : ℕ) :
    (arrivals start waits)[i]? =
      if i < waits.length then some (start + (waits.take (i + 1)).sum) else none := by
  induction waits generalizing start i with
  | nil => rfl
  | cons wait waits ih =>
      cases i with
      | zero => simp [arrivals]
      | succ i =>
          rw [arrivals, List.getElem?_cons_succ, ih]
          simp [Nat.add_assoc]

theorem spaced_arrivals_iff {start : ℕ} {waits : List ℕ} :
    Spaced limit span (arrivals start waits) ↔
      ∀ i, i + limit < waits.length → span ≤ ((waits.drop (i + 1)).take limit).sum := by
  have hsum : ∀ i, (waits.take (i + limit + 1)).sum
      = (waits.take (i + 1)).sum + ((waits.drop (i + 1)).take limit).sum := by
    intro i
    rw [Nat.add_right_comm, List.take_add, List.sum_append]
  constructor
  · intro h i hi
    have hi' : i < waits.length := Nat.lt_of_le_of_lt (Nat.le_add_right i limit) hi
    have hspan := h i _ _ ((getElem?_arrivals start waits i).trans (if_pos hi'))
      ((getElem?_arrivals start waits (i + limit)).trans (if_pos hi))
    rw [hsum] at hspan
    omega
  · intro h i t u ht hu
    rw [getElem?_arrivals] at ht hu
    split_ifs at ht hu with hi hj
    have hspan := h i hj
    rw [← Option.some.inj ht, ← Option.some.inj hu, hsum]
    omega

/-- **The waits of the events.** -/
theorem sparse_arrivals_iff {start : ℕ} {waits : List ℕ} :
    Sparse limit span (arrivals start waits) ↔
      ∀ i, i + limit < waits.length → span ≤ ((waits.drop (i + 1)).take limit).sum :=
  (sparse_iff_spaced (pairwise_arrivals start waits)).trans spaced_arrivals_iff

end Spacing
