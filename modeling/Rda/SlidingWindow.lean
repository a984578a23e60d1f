/-
**Sliding windows.**

A sliding window keeps samples with the times at which they were taken.  A new sample is put at the
end, and then old ones are dropped from the front, up to the first that is recent enough.  As long
as the clock does not go back this is the window it is meant to be: it holds the samples that are
recent, all of them, in the order in which they came.

Main definitions:

* `SlidingWindow.push` — a sample at a time;
* `SlidingWindow.Ordered` — the times of a list of samples do not go back.

Main results:

* `SlidingWindow.dropWhile_eq_filter` — on ordered samples, dropping from the front is filtering;
* `SlidingWindow.run_eq_filter` — **after any run the window holds exactly the recent samples**.
-/

import Mathlib.Data.List.Basic
import Rda.Machine

set_option relaxedAutoImplicit false
set_option autoImplicit false

namespace SlidingWindow

variable {α : Type} (width : ℕ)

/-- A sample is put at the end, and what is older than the window is dropped from the front. -/
def push (window : List (ℕ × α)) (sample : ℕ × α) : List (ℕ × α) :=
  (window ++ [sample]).dropWhile fun s => width < sample.1 - s.1

/-- The times do not go back. -/
def Ordered (samples : List (ℕ × α)) : Prop := samples.Pairwise fun s t => s.1 ≤ t.1

/-- The samples that are recent at a time. -/
def recent (nowMs : ℕ) (samples : List (ℕ × α)) : List (ℕ × α) :=
  samples.filter fun s => nowMs - s.1 ≤ width

theorem ordered_append_singleton {samples : List (ℕ × α)} {s : ℕ × α} :
    Ordered (samples ++ [s]) ↔ Ordered samples ∧ ∀ t ∈ samples, t.1 ≤ s.1 := by
  simp [Ordered, List.pairwise_append]

/-- On ordered samples, dropping what is too old from the front is dropping all that is too old. -/
theorem dropWhile_eq_filter {samples : List (ℕ × α)} (h : Ordered samples) (nowMs : ℕ) :
    samples.dropWhile (fun s => width < nowMs - s.1) = recent width nowMs samples := by
  induction samples with
  | nil => rfl
  | cons s samples ih =>
      obtain ⟨hs, hrest⟩ := List.pairwise_cons.1 h
      by_cases hold : width < nowMs - s.1
      · rw [List.dropWhile_cons_of_pos (by simpa using hold), ih hrest, recent, recent,
          List.filter_cons_of_neg (by simpa only [decide_eq_true_eq, Nat.not_le] using hold)]
      · -- the first one is recent, and so are the later ones
        rw [List.dropWhile_cons_of_neg (by simpa using hold), recent,
          List.filter_eq_self.2]
        intro t ht
        rcases List.mem_cons.1 ht with rfl | ht
        · simpa using hold
        · have := hs t ht
          simp only [decide_eq_true_eq]
          omega

/-- A recent sample of a later time is one of an earlier time. -/
theorem recent_recent {n m : ℕ} (h : n ≤ m) (samples : List (ℕ × α)) :
    recent width m (recent width n samples) = recent width m samples := by
  unfold recent
  rw [List.filter_filter]
  refine List.filter_congr fun s _ => ?_
  rw [← Bool.decide_and]
  exact decide_eq_decide.2 ⟨fun hs => hs.1, fun hs => ⟨hs, by omega⟩⟩

/-- The newest sample is in the window. -/
theorem mem_push (window : List (ℕ × α)) (s : ℕ × α) : s ∈ push width window s := by
  unfold push
  induction window with
  | nil => simp
  | cons t window ih =>
      by_cases hold : width < s.1 - t.1
      · rw [List.cons_append, List.dropWhile_cons_of_pos (by simpa using hold)]
        exact ih
      · rw [List.cons_append, List.dropWhile_cons_of_neg (by simpa using hold)]
        simp

/-- One more sample. -/
theorem push_recent {samples : List (ℕ × α)} {s : ℕ × α} (h : Ordered (samples ++ [s])) {n : ℕ}
    (hn : n ≤ s.1) :
    push width (recent width n samples) s = recent width s.1 (samples ++ [s]) := by
  obtain ⟨hsamples, hs⟩ := ordered_append_singleton.1 h
  have hordered : Ordered (recent width n samples ++ [s]) := by
    refine ordered_append_singleton.2 ⟨List.Pairwise.filter _ hsamples, ?_⟩
    intro t ht
    exact hs t (List.mem_of_mem_filter ht)
  rw [push, dropWhile_eq_filter width hordered, recent, List.filter_append, ← recent, ← recent,
    recent_recent width hn, recent, recent, recent, List.filter_append]

/-- **The window is the recent samples.**  If the clock does not go back, then after any run the
window holds the samples that are recent at the last one, in their order. -/
theorem run_eq_filter {samples : List (ℕ × α)} {s : ℕ × α} (h : Ordered (samples ++ [s])) :
    Machine.run (push width) [] (samples ++ [s]) = recent width s.1 (samples ++ [s]) := by
  induction samples using List.reverseRecOn generalizing s with
  | nil => exact push_recent width h (Nat.zero_le _)
  | append_singleton samples t ih =>
      obtain ⟨hsamples, hs⟩ := ordered_append_singleton.1 h
      rw [Machine.run_append, ih hsamples]
      exact push_recent width h (hs t (by simp))

end SlidingWindow
