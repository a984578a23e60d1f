/-
**A first-in first-out server.**

Jobs arrive one after another and are served in that order, one at a time: the service of a job
starts when the job has arrived and the jobs before it are done.  A busy period is what happens from
an arrival at an idle server until the server is idle again.

What has not been served by a time is a matter of the whole history.  While the server is busy only
the current busy period matters, since everything before it is done; and once the server is free
nothing is left.

Main definitions:

* `Bottleneck.Server`, `Bottleneck.Server.accept` — the server, and the arrival of a job;
* `Bottleneck.Server.unfinished` — the total size of the jobs not served by a time;
* `Bottleneck.Server.Valid` — what holds of a server whose last job arrived at a time.

Main results:

* `Bottleneck.Server.valid_accept` — arrivals in order keep a server valid;
* `Bottleneck.Server.unfinished_of_free_le` — **nothing is left once the server is free**;
* `Bottleneck.Server.unfinished_eq` — **what is left is left of the busy period**;
* `Bottleneck.total_filter_eq_iff` — a part of the jobs is all of them exactly when it has every job
  of some size.
-/

import Mathlib.Algebra.Ring.Nat
import Mathlib.Data.List.Basic
import Mathlib.Tactic.Common

set_option relaxedAutoImplicit false
set_option autoImplicit false

namespace Bottleneck

/-- A job that arrives. -/
structure Job where
  arrival : ℕ
  service : ℕ
  size : ℕ

/-- A job with the time at which it is done. -/
structure Served where
  size : ℕ
  finish : ℕ
  deriving DecidableEq

/-- The total size of some jobs. -/
def total (xs : List Served) : ℕ := (xs.map Served.size).sum

@[simp] theorem total_nil : total [] = 0 := rfl

@[simp] theorem total_cons (x : Served) (xs : List Served) : total (x :: xs) = x.size + total xs :=
  List.sum_cons

@[simp] theorem total_append (xs ys : List Served) : total (xs ++ ys) = total xs + total ys := by
  rw [total, List.map_append, List.sum_append, total, total]

theorem total_filter_le (p : Served → Bool) (xs : List Served) :
    total (xs.filter p) ≤ total xs := by
  induction xs with
  | nil => exact Nat.le_refl 0
  | cons x xs ih =>
      cases hx : p x with
      | true =>
          rw [List.filter_cons_of_pos hx, total_cons, total_cons]
          omega
      | false =>
          rw [List.filter_cons_of_neg (by simp [hx]), total_cons]
          omega

/-- A part of the jobs is as large as all of them exactly when it has every job of some size. -/
theorem total_filter_eq_iff (p : Served → Bool) (xs : List Served) :
    total (xs.filter p) = total xs ↔ ∀ x ∈ xs, 0 < x.size → p x = true := by
  induction xs with
  | nil => simp
  | cons x xs ih =>
      rw [List.forall_mem_cons, ← ih]
      have hle := total_filter_le p xs
      cases hx : p x with
      | true =>
          rw [List.filter_cons_of_pos hx, total_cons, total_cons]
          constructor
          · intro h
            exact ⟨fun _ => rfl, by omega⟩
          · rintro ⟨-, h⟩
            omega
      | false =>
          rw [List.filter_cons_of_neg (by simp [hx]), total_cons]
          constructor
          · intro h
            refine ⟨fun hpos => ?_, by omega⟩
            omega
          · rintro ⟨hpos, h⟩
            have hzero : x.size = 0 := by
              by_contra hne
              exact absurd (hpos (by omega)) (by simp)
            omega

/-- A server: when it is free, the jobs of the last busy period, and all jobs. -/
structure Server where
  free : ℕ := 0
  period : List Served := []
  served : List Served := []

namespace Server

variable {s : Server} {j : Job} {now t : ℕ}

/-- When an arriving job is done. -/
def finish (s : Server) (j : Job) : ℕ := max j.arrival s.free + j.service

/-- The arrival of a job.  An idle server starts a busy period with it. -/
def accept (s : Server) (j : Job) : Server where
  free := s.finish j
  period := (if s.free ≤ j.arrival then [] else s.period) ++ [⟨j.size, s.finish j⟩]
  served := s.served ++ [⟨j.size, s.finish j⟩]

/-- The total size of the jobs that are not done at a time. -/
def unfinished (s : Server) (t : ℕ) : ℕ := total (s.served.filter fun x => t < x.finish)

/-- What holds of a server at the arrival of its last job and later: it is free when all jobs are
done, and the jobs before the last busy period are done. -/
structure Valid (s : Server) (now : ℕ) : Prop where
  finish_le : ∀ x ∈ s.served, x.finish ≤ s.free
  earlier : ∃ before, s.served = before ++ s.period ∧ ∀ x ∈ before, x.finish ≤ now

theorem valid_new : ({} : Server).Valid 0 where
  finish_le := by simp
  earlier := ⟨[], rfl, by simp⟩

theorem Valid.mono (h : s.Valid now) (ht : now ≤ t) : s.Valid t where
  finish_le := h.finish_le
  earlier := by
    obtain ⟨before, hserved, hdone⟩ := h.earlier
    exact ⟨before, hserved, fun x hx => Nat.le_trans (hdone x hx) ht⟩

/-- **Arrivals in order keep a server valid.** -/
theorem valid_accept (h : s.Valid now) (ht : now ≤ j.arrival) : (s.accept j).Valid j.arrival := by
  have hle : s.free ≤ s.finish j := by
    unfold finish
    omega
  constructor
  · intro x hx
    rcases List.mem_append.1 hx with hx | hx
    · exact Nat.le_trans (h.finish_le x hx) hle
    · rw [List.mem_singleton.1 hx]
      exact Nat.le_refl (s.finish j)
  · by_cases hidle : s.free ≤ j.arrival
    · -- Everything is done when the new busy period starts.
      refine ⟨s.served, ?_, fun x hx => Nat.le_trans (h.finish_le x hx) hidle⟩
      simp [accept, hidle]
    · obtain ⟨before, hserved, hdone⟩ := h.earlier
      refine ⟨before, ?_, fun x hx => Nat.le_trans (hdone x hx) ht⟩
      simp [accept, hidle, hserved]

/-- **Nothing is left** once the server is free. -/
theorem unfinished_of_free_le (h : s.Valid now) (hfree : s.free ≤ t) : s.unfinished t = 0 := by
  have hnone : (s.served.filter fun x => t < x.finish) = [] := by
    rw [List.filter_eq_nil_iff]
    intro x hx
    have := h.finish_le x hx
    simp only [decide_eq_true_eq]
    omega
  rw [unfinished, hnone, total_nil]

/-- **What is left** after the last arrival is left of the busy period. -/
theorem unfinished_eq (h : s.Valid now) (ht : now ≤ t) :
    s.unfinished t = total (s.period.filter fun x => t < x.finish) := by
  obtain ⟨before, hserved, hdone⟩ := h.earlier
  have hnone : (before.filter fun x => t < x.finish) = [] := by
    rw [List.filter_eq_nil_iff]
    intro x hx
    have := hdone x hx
    simp only [decide_eq_true_eq]
    omega
  rw [unfinished, hserved, List.filter_append, hnone, List.nil_append]

theorem unfinished_accept :
    (s.accept j).unfinished t = s.unfinished t + if t < s.finish j then j.size else 0 := by
  simp only [unfinished, accept, List.filter_append, total_append]
  split_ifs with h
  · simp [h]
  · simp [h]

end Server

end Bottleneck
