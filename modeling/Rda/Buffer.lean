/-
**Loops that fill a buffer through checked accesses.**

Code that converts an image runs nested counting loops and writes an output buffer one element at a
time.  Every access is checked: an index outside its buffer stops the run.  A run that does not stop
has therefore stayed inside every buffer, and to say what it has written it is enough to know, for
each index, the element that belongs there.

The rules here are stated that way.  `Buffer.Agrees goal out P` says that `out` holds the elements
of `goal` at the indices in `P`; a write of the right element adds its index
(`Buffer.Agrees.write`), a loop carries an invariant (`Buffer.forRange_invariant`), and a buffer
that agrees everywhere is the goal.

Main definitions:

* `Buffer.write`, `Buffer.slice` — accesses that fail outside the bounds;
* `Buffer.forRange` — a counting loop whose body may fail;
* `Buffer.grid` — the elements of a two-dimensional family, row by row.

Main results:

* `Buffer.forRange_invariant`, `Buffer.forRange_eq_none`, `Buffer.forRange_eq_none_of_zero` — the
  loop rule, and how a loop fails;
* `Buffer.Agrees.write`, `Buffer.Agrees.eq` — one write, and the end of a run.
-/

import Mathlib.Data.List.Basic
import Mathlib.Tactic.Common

set_option relaxedAutoImplicit false
set_option autoImplicit false

namespace Buffer

variable {α σ : Type}

/-! ### Checked accesses -/

/-- Writes one element, inside the bounds only. -/
def write (out : List α) (i : ℕ) (a : α) : Option (List α) :=
  if i < out.length then some (out.set i a) else none

/-- The elements from `start` up to `stop`, inside the bounds only. -/
def slice (data : List α) (start stop : ℕ) : Option (List α) :=
  if start ≤ stop ∧ stop ≤ data.length then some ((data.take stop).drop start) else none

theorem slice_of_le {data : List α} {start stop : ℕ} (h : start ≤ stop)
    (hstop : stop ≤ data.length) : slice data start stop = some ((data.take stop).drop start) :=
  if_pos ⟨h, hstop⟩

/-- An element of a slice is an element of the buffer. -/
theorem getElem?_slice (data : List α) {start stop i : ℕ} (h : start + i < stop) :
    ((data.take stop).drop start)[i]? = data[start + i]? := by
  rw [List.getElem?_drop, List.getElem?_take_of_lt h]

/-! ### Counting loops -/

/-- Runs `body 0`, `body 1`, … `body (n - 1)` in this order, and stops where one of them fails. -/
def forRange : ℕ → (ℕ → σ → Option σ) → σ → Option σ
  | 0, _, s => some s
  | n + 1, body, s => (forRange n body s).bind (body n)

/-- **The loop rule.**  An invariant that the body carries from one count to the next holds at the
end, and the loop does reach its end. -/
theorem forRange_invariant {n : ℕ} {body : ℕ → σ → Option σ} {s : σ} (I : ℕ → σ → Prop)
    (hinit : I 0 s)
    (hstep : ∀ i < n, ∀ t, I i t → ∃ t', body i t = some t' ∧ I (i + 1) t') :
    ∃ s', forRange n body s = some s' ∧ I n s' := by
  induction n with
  | zero => exact ⟨s, rfl, hinit⟩
  | succ n ih =>
      obtain ⟨t, ht, hI⟩ := ih fun i hi => hstep i (Nat.lt_succ_of_lt hi)
      obtain ⟨t', ht', hI'⟩ := hstep n (Nat.lt_succ_self n) t hI
      exact ⟨t', by rw [forRange, ht, Option.bind_some, ht'], hI'⟩

/-- A loop with a count at which the body fails, whatever the state, fails. -/
theorem forRange_eq_none {n i : ℕ} {body : ℕ → σ → Option σ} (hi : i < n)
    (h : ∀ t, body i t = none) (s : σ) : forRange n body s = none := by
  induction n with
  | zero => omega
  | succ n ih =>
      rw [forRange]
      rcases Nat.lt_succ_iff_lt_or_eq.1 hi with hlt | rfl
      · rw [ih hlt, Option.bind_none]
      · cases forRange i body s with
        | none => rfl
        | some t => exact h t

/-- A loop whose body fails at once fails. -/
theorem forRange_eq_none_of_zero {n : ℕ} {body : ℕ → σ → Option σ} {s : σ} (hn : 0 < n)
    (h : body 0 s = none) : forRange n body s = none := by
  induction n with
  | zero => omega
  | succ n ih =>
      rw [forRange]
      rcases Nat.eq_zero_or_pos n with rfl | hpos
      · exact h
      · rw [ih hpos, Option.bind_none]

/-! ### Filling a buffer -/

/-- `out` is as long as `goal` and holds its elements at the indices in `P`. -/
structure Agrees (goal out : List α) (P : ℕ → Prop) : Prop where
  length : out.length = goal.length
  get : ∀ i, P i → out[i]? = goal[i]?

theorem Agrees.init {goal out : List α} (h : out.length = goal.length) {P : ℕ → Prop}
    (hP : ∀ i, ¬ P i) : Agrees goal out P :=
  ⟨h, fun i hi => absurd hi (hP i)⟩

theorem Agrees.mono {goal out : List α} {P Q : ℕ → Prop} (h : Agrees goal out P)
    (hPQ : ∀ i, Q i → P i) : Agrees goal out Q :=
  ⟨h.length, fun i hi => h.get i (hPQ i hi)⟩

/-- **One write.**  The element that belongs at an index can be written there. -/
theorem Agrees.write {goal out : List α} {P : ℕ → Prop} (h : Agrees goal out P) {i : ℕ} {a : α}
    (ha : goal[i]? = some a) :
    ∃ out', Buffer.write out i a = some out' ∧ Agrees goal out' fun j => P j ∨ j = i := by
  have hlt : i < goal.length := (List.getElem?_eq_some_iff.1 ha).1
  refine ⟨out.set i a, if_pos (by rw [h.length]; exact hlt), ?_, ?_⟩
  · rw [List.length_set, h.length]
  · intro j hj
    by_cases hij : j = i
    · rw [hij, List.getElem?_set_self (by rw [h.length]; exact hlt), ha]
    · rw [List.getElem?_set_ne (Ne.symm hij)]
      exact h.get j (hj.resolve_right hij)

/-- A buffer that agrees everywhere is the goal. -/
theorem Agrees.eq {goal out : List α} {P : ℕ → Prop} (h : Agrees goal out P)
    (hall : ∀ i < goal.length, P i) : out = goal := by
  refine List.ext_getElem? fun i => ?_
  rcases Nat.lt_or_ge i goal.length with hlt | hge
  · exact h.get i (hall i hlt)
  · rw [List.getElem?_eq_none hge, List.getElem?_eq_none (by rw [h.length]; exact hge)]

/-! ### Grids -/

/-- The elements of a family with `rows` rows of `cols` elements, row by row. -/
def grid (rows cols : ℕ) (f : ℕ → ℕ → α) : List α :=
  (List.range rows).flatMap fun y => (List.range cols).map (f y)

theorem grid_succ (rows cols : ℕ) (f : ℕ → ℕ → α) :
    grid (rows + 1) cols f = grid rows cols f ++ (List.range cols).map (f rows) := by
  simp [grid, List.range_succ]

@[simp] theorem length_grid (rows cols : ℕ) (f : ℕ → ℕ → α) :
    (grid rows cols f).length = rows * cols := by
  induction rows with
  | zero => simp [grid]
  | succ rows ih => rw [grid_succ, List.length_append, ih]; simp [Nat.succ_mul]

/-- An index of a row lies inside the grid. -/
theorem index_lt {rows cols y x : ℕ} (hy : y < rows) (hx : x < cols) :
    y * cols + x < rows * cols := by
  calc y * cols + x < y * cols + cols := Nat.add_lt_add_left hx _
    _ = (y + 1) * cols := (Nat.succ_mul y cols).symm
    _ ≤ rows * cols := Nat.mul_le_mul_right _ hy

/-- No row starts after the last one. -/
theorem row_start_le {rows y : ℕ} (stride : ℕ) (hy : y < rows) :
    y * stride ≤ stride * (rows - 1) := by
  rw [Nat.mul_comm]
  exact Nat.mul_le_mul_left stride (Nat.le_sub_one_of_lt hy)

theorem getElem?_grid {rows cols : ℕ} (f : ℕ → ℕ → α) {y x : ℕ} (hy : y < rows) (hx : x < cols) :
    (grid rows cols f)[y * cols + x]? = some (f y x) := by
  induction rows with
  | zero => omega
  | succ rows ih =>
      rw [grid_succ]
      rcases Nat.lt_succ_iff_lt_or_eq.1 hy with hlt | rfl
      · rw [List.getElem?_append_left (by rw [length_grid]; exact index_lt hlt hx), ih hlt]
      · rw [List.getElem?_append_right (by rw [length_grid]; omega), length_grid,
          Nat.add_sub_cancel_left]
        simp [hx]

theorem grid_congr {rows cols : ℕ} {f g : ℕ → ℕ → α}
    (h : ∀ y < rows, ∀ x < cols, f y x = g y x) : grid rows cols f = grid rows cols g := by
  induction rows with
  | zero => rfl
  | succ rows ih =>
      rw [grid_succ, grid_succ, ih fun y hy => h y (Nat.lt_succ_of_lt hy)]
      congr 1
      exact List.map_congr_left fun x hx => h rows (Nat.lt_succ_self _) x (List.mem_range.1 hx)

/-- A list of blocks of one length, element by element. -/
theorem getElem?_flatMap_of_length {β : Type} {as : List β} {f : β → List α} {n : ℕ}
    (hf : ∀ a, (f a).length = n) {k : ℕ} {a : β} (ha : as[k]? = some a) {c : ℕ} (hc : c < n) :
    (as.flatMap f)[k * n + c]? = (f a)[c]? := by
  induction as generalizing k with
  | nil => cases ha
  | cons b as ih =>
      rw [List.flatMap_cons]
      cases k with
      | zero =>
          rw [List.getElem?_cons_zero, Option.some_inj] at ha
          rw [ha, Nat.zero_mul, Nat.zero_add, List.getElem?_append_left (by rw [hf]; exact hc)]
      | succ k =>
          rw [List.getElem?_cons_succ] at ha
          rw [Nat.succ_mul, List.getElem?_append_right (by rw [hf]; omega), hf,
            ← ih ha]
          congr 1
          omega

/-- Blocks row by row are the blocks of a grid. -/
theorem flatMap_grid {β : Type} (rows cols : ℕ) (f : ℕ → ℕ → β) (g : β → List α) :
    (grid rows cols f).flatMap g
      = (List.range rows).flatMap fun y => (List.range cols).flatMap fun x => g (f y x) := by
  simp [grid, List.flatMap_assoc, List.flatMap_map]

theorem mem_grid {rows cols : ℕ} {f : ℕ → ℕ → α} {a : α} :
    a ∈ grid rows cols f ↔ ∃ y < rows, ∃ x < cols, f y x = a := by
  simp [grid]

end Buffer
