/-
**Windows of a list.**

A list cut into windows of a fixed width: the `i`-th window is what stands at the places
`i * n, …, i * n + n - 1`, and only the last window may be shorter.

Main definitions:

* `Windows.window` — one window;
* `Windows.chunks` — the windows of a list.

Main results:

* `Windows.flatten_chunks` — the windows of a list, one after the other, are the list;
* `Windows.length_chunks_le`, `Windows.length_chunks_pos` — how many there are.
-/

import Mathlib.Tactic.Common

set_option relaxedAutoImplicit false
set_option autoImplicit false

namespace Windows

variable {α : Type} (n : ℕ) (l : List α)

/-- The `i`-th window of width `n`. -/
def window (i : ℕ) : List α := (l.drop (i * n)).take n

/-- The windows of a list; the last one may be shorter. -/
def chunks : List (List α) := (List.range ((l.length + n - 1) / n)).map (window n l)

theorem length_window_le (i : ℕ) : (window n l i).length ≤ n := by
  rw [window, List.length_take]
  exact Nat.min_le_left _ _

theorem flatten_windows (k : ℕ) :
    ((List.range k).map (window n l)).flatten = l.take (k * n) := by
  induction k with
  | zero => simp
  | succ k ih =>
      rw [List.range_succ, List.map_append, List.flatten_append, ih, Nat.succ_mul, List.take_add]
      simp [window]

variable {n}

/-- The windows of a list, one after the other, are the list. -/
theorem flatten_chunks (hn : 0 < n) : (chunks n l).flatten = l := by
  rw [chunks, flatten_windows]
  refine List.take_of_length_le ?_
  have hmod := Nat.div_add_mod (l.length + n - 1) n
  have hlt := Nat.mod_lt (l.length + n - 1) hn
  rw [Nat.mul_comm] at hmod
  omega

theorem length_chunks_le {k : ℕ} (hn : 0 < n) (h : l.length ≤ k * n) :
    (chunks n l).length ≤ k := by
  rw [chunks, List.length_map, List.length_range]
  refine Nat.le_of_lt_succ ((Nat.div_lt_iff_lt_mul hn).2 ?_)
  rw [Nat.succ_mul]
  omega

theorem length_chunks_pos (hn : 0 < n) (h : l ≠ []) : 0 < (chunks n l).length := by
  rw [chunks, List.length_map, List.length_range]
  refine Nat.div_pos ?_ hn
  have := List.length_pos_iff.2 h
  omega

theorem getElem_chunks_length_le {i : ℕ} (h : i < (chunks n l).length) :
    (chunks n l)[i].length ≤ n := by
  simp only [chunks, List.getElem_map]
  exact length_window_le n l _

end Windows
