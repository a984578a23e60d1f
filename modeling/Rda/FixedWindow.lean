/-
**Fixed windows.**

A counter with a fixed window lets so many events through and turns the others away until the window
is over; the next window starts with the first event that comes a whole span after the start of the
last one.  A limit that slides asks for more: no interval of that span may hold more events than the
limit, wherever it begins.  The events let through keep the sliding limit exactly when every event
that finds room in its window also finds room among the recent events of the windows before.

Main definitions:

* `FixedWindow.Sparse` — no interval of the span holds more events than the limit;
* `FixedWindow.Counter`, `FixedWindow.Counter.step` — the counter, with the times of the events;
* `FixedWindow.Counter.Roomy` — an event that finds room in its window finds room in the last span.

Main results:

* `FixedWindow.sparse_append_singleton` — a sliding limit event by event;
* `FixedWindow.sparse_through_iff` — **the events let through** keep the sliding limit exactly when
  all events are roomy;
* `FixedWindow.sparse_until_refused_iff` — so do all events, as long as none is turned away.
-/

import Rda.Machine
import Mathlib.Data.List.Count

set_option relaxedAutoImplicit false
set_option autoImplicit false

namespace FixedWindow

/-! ### A sliding limit -/

/-- No interval of the span holds more events than the limit. -/
def Sparse (limit span : ℕ) (times : List ℕ) : Prop :=
  ∀ a, times.countP (fun t => a ≤ t ∧ t < a + span) ≤ limit

/-- The number of events less than the span ago. -/
def recent (span now : ℕ) (times : List ℕ) : ℕ := times.countP fun t => now < t + span

theorem recent_append (span now : ℕ) (times more : List ℕ) :
    recent span now (times ++ more) = recent span now times + recent span now more :=
  List.countP_append

theorem recent_eq_length {span now : ℕ} {times : List ℕ} (h : ∀ t ∈ times, now < t + span) :
    recent span now times = times.length :=
  List.countP_eq_length.2 fun t ht => decide_eq_true (h t ht)

theorem sparse_nil (limit span : ℕ) : Sparse limit span [] := fun _ => Nat.zero_le limit

/-- The same for intervals with both ends. -/
theorem sparse_iff {limit span : ℕ} (hspan : 0 < span) {times : List ℕ} :
    Sparse limit span times ↔
      ∀ a b, b < a + span → times.countP (fun t => a ≤ t ∧ t ≤ b) ≤ limit := by
  constructor
  · intro h a b hb
    refine Nat.le_trans (List.countP_mono_left fun t _ hin => ?_) (h a)
    simp only [decide_eq_true_eq] at hin ⊢
    omega
  · intro h a
    refine Nat.le_trans (List.countP_mono_left fun t _ hin => ?_) (h a (a + span - 1) (by omega))
    simp only [decide_eq_true_eq] at hin ⊢
    omega

/-- A sliding limit is kept by one more event exactly when the interval that ends with it has
room. -/
theorem sparse_append_singleton {limit span now : ℕ} {times : List ℕ}
    (hspan : 0 < span) (hpast : ∀ t ∈ times, t ≤ now) :
    Sparse limit span (times ++ [now]) ↔
      Sparse limit span times ∧ recent span now times < limit := by
  constructor
  · intro h
    refine ⟨fun a => ?_, ?_⟩
    · have ha := h a
      rw [List.countP_append] at ha
      omega
    · -- The interval that ends with the event.
      have hlast := h (now + 1 - span)
      have hrecent : recent span now times ≤
          times.countP fun t => now + 1 - span ≤ t ∧ t < now + 1 - span + span := by
        refine List.countP_mono_left fun t ht hnow => ?_
        have hle := hpast t ht
        simp only [decide_eq_true_eq] at hnow ⊢
        omega
      have hself : [now].countP (fun t => now + 1 - span ≤ t ∧ t < now + 1 - span + span) = 1 := by
        rw [List.countP_singleton, if_pos]
        simp only [decide_eq_true_eq]
        omega
      rw [List.countP_append, hself] at hlast
      omega
  · rintro ⟨hsparse, hroom⟩ a
    rw [List.countP_append, List.countP_singleton]
    split_ifs with hnow
    · have hrecent : times.countP (fun t => a ≤ t ∧ t < a + span) ≤ recent span now times := by
        refine List.countP_mono_left fun t _ hin => ?_
        simp only [decide_eq_true_eq] at hnow hin ⊢
        omega
      omega
    · exact hsparse a

/-! ### The counter -/

/-- A counter with a fixed window: when the window started, the events let through in earlier
windows and in this one, and the events turned away. -/
structure Counter where
  start : ℕ := 0
  earlier : List ℕ := []
  current : List ℕ := []
  refused : List ℕ := []

namespace Counter

/-- The counter with the window that an event falls into. -/
def opened (span : ℕ) (c : Counter) (now : ℕ) : Counter :=
  if span ≤ now - c.start then
    { c with start := now, earlier := c.earlier ++ c.current, current := [] }
  else c

/-- An event is let through or turned away. -/
def step (limit span : ℕ) (c : Counter) (now : ℕ) : Counter :=
  if (c.opened span now).current.length < limit then
    { c.opened span now with current := (c.opened span now).current ++ [now] }
  else { c.opened span now with refused := (c.opened span now).refused ++ [now] }

/-- The events let through. -/
def through (c : Counter) : List ℕ := c.earlier ++ c.current

/-- If the event finds room in its window, then it finds room in the last span. -/
def Roomy (limit span : ℕ) (c : Counter) (now : ℕ) : Prop :=
  (c.opened span now).current.length < limit →
    recent span now (c.opened span now).earlier + (c.opened span now).current.length < limit

instance (limit span : ℕ) (c : Counter) (now : ℕ) : Decidable (c.Roomy limit span now) :=
  inferInstanceAs (Decidable (_ → _))

section Step

variable {limit span now : ℕ} {c : Counter}

@[simp] theorem through_opened : (c.opened span now).through = c.through := by
  unfold opened through
  split_ifs
  · exact List.append_nil _
  · rfl

@[simp] theorem refused_opened : (c.opened span now).refused = c.refused := by
  unfold opened
  split_ifs
  · rfl
  · rfl

theorem step_of_room (h : (c.opened span now).current.length < limit) :
    (c.step limit span now).through = c.through ++ [now] ∧
      (c.step limit span now).refused = c.refused := by
  rw [step, if_pos h]
  refine ⟨?_, refused_opened⟩
  rw [← @through_opened span now c, through, through, List.append_assoc]

theorem step_of_full (h : ¬ (c.opened span now).current.length < limit) :
    (c.step limit span now).through = c.through ∧
      (c.step limit span now).refused = c.refused ++ [now] := by
  rw [step, if_neg h]
  exact ⟨through_opened, congrArg (· ++ [now]) refused_opened⟩

/-- What is in the window came after its start. -/
def Inv (c : Counter) : Prop := ∀ t ∈ c.current, c.start ≤ t

theorem inv_opened (h : c.Inv) : (c.opened span now).Inv := by
  unfold opened
  split_ifs
  · rintro t ⟨⟩
  · exact h

variable (limit span) in
theorem inv_step (h : c.Inv) (hnow : c.start ≤ now) : (c.step limit span now).Inv := by
  have hopened : (c.opened span now).start ≤ now := by
    unfold opened
    split_ifs
    · exact Nat.le_refl now
    · exact hnow
  unfold step
  split_ifs
  · intro t ht
    rcases List.mem_append.1 ht with ht | ht
    · exact inv_opened h t ht
    · rwa [List.mem_singleton.1 ht]
  · exact inv_opened h

/-- Everything in the window is recent. -/
theorem recent_through (h : c.Inv) :
    recent span now c.through =
      recent span now (c.opened span now).earlier + (c.opened span now).current.length := by
  rw [← @through_opened span now c, through, recent_append]
  congr 1
  refine recent_eq_length fun t ht => ?_
  have hstart := inv_opened h t ht
  revert ht hstart
  unfold opened
  split_ifs with hlong
  · rintro ⟨⟩
  · intro _ hstart
    omega

variable (limit) in
theorem sparse_step_iff (hspan : 0 < span) (h : c.Inv) (hpast : ∀ t ∈ c.through, t ≤ now) :
    Sparse limit span (c.step limit span now).through ↔
      Sparse limit span c.through ∧ c.Roomy limit span now := by
  by_cases hroom : (c.opened span now).current.length < limit
  · rw [(step_of_room hroom).1, sparse_append_singleton hspan hpast, recent_through h, Roomy,
      imp_iff_right hroom]
  · rw [(step_of_full hroom).1]
    exact (and_iff_left fun hn => absurd hn hroom).symm

end Step

end Counter

/-! ### Runs -/

section Runs

open Counter

variable {limit span : ℕ} {times : List ℕ}

/-- What is known of a counter after a run. -/
structure Ran (times : List ℕ) (c : Counter) : Prop where
  inv : c.Inv
  start : ∀ t, (∀ u ∈ times, u ≤ t) → c.start ≤ t
  through : ∀ t ∈ c.through, t ∈ times
  unrefused : c.refused = [] → c.through = times

variable (limit span) in
theorem start_step (c : Counter) (now : ℕ) :
    (c.step limit span now).start = c.start ∨ (c.step limit span now).start = now := by
  unfold step opened
  split_ifs
  · exact .inr rfl
  · exact .inr rfl
  · exact .inl rfl
  · exact .inl rfl

variable (limit span) in
theorem Ran.step {c : Counter} {now : ℕ} (h : Ran times c) (hpast : ∀ t ∈ times, t ≤ now) :
    Ran (times ++ [now]) (c.step limit span now) := by
  have hstart : ∀ t, (∀ u ∈ times ++ [now], u ≤ t) → (c.step limit span now).start ≤ t := by
    intro t ht
    rcases start_step limit span c now with hstart | hstart
    · rw [hstart]
      exact h.start t fun u hu => ht u (List.mem_append_left _ hu)
    · rw [hstart]
      exact ht now (by simp)
  have hinv := inv_step limit span h.inv (h.start now hpast)
  by_cases hroom : (c.opened span now).current.length < limit
  · obtain ⟨hthrough, hrefused⟩ := step_of_room hroom
    refine ⟨hinv, hstart, fun t ht => ?_, fun hnone => ?_⟩
    · rw [hthrough] at ht
      rcases List.mem_append.1 ht with ht | ht
      · exact List.mem_append_left _ (h.through t ht)
      · exact List.mem_append_right _ ht
    · rw [hrefused] at hnone
      rw [hthrough, h.unrefused hnone]
  · obtain ⟨hthrough, hrefused⟩ := step_of_full hroom
    refine ⟨hinv, hstart, fun t ht => ?_, fun hnone => ?_⟩
    · rw [hthrough] at ht
      exact List.mem_append_left _ (h.through t ht)
    · rw [hrefused] at hnone
      simp at hnone

variable (limit span) in
theorem ran_run (htimes : times.Pairwise (· ≤ ·)) :
    Ran times (Machine.run (Counter.step limit span) {} times) := by
  induction times using List.reverseRec with
  | nil => exact ⟨by rintro t ⟨⟩, fun t _ => Nat.zero_le t, by rintro t ⟨⟩, fun _ => rfl⟩
  | append_singleton times now ih =>
      obtain ⟨htimes, -, hlast⟩ := List.pairwise_append.1 htimes
      rw [Machine.run_append]
      exact (ih htimes).step limit span fun t ht => hlast t ht now (by simp)

/-- **The events let through.**  In a run of events at non-decreasing times, the events that a
counter lets through keep the sliding limit exactly when all events are roomy. -/
theorem sparse_through_iff (hspan : 0 < span) (htimes : times.Pairwise (· ≤ ·)) :
    Sparse limit span (Machine.run (Counter.step limit span) {} times).through ↔
      Machine.Along (Counter.step limit span) (Roomy limit span) {} times := by
  induction times using List.reverseRec with
  | nil => exact iff_of_true (sparse_nil limit span) trivial
  | append_singleton times now ih =>
      obtain ⟨htimes, -, hlast⟩ := List.pairwise_append.1 htimes
      have hran := ran_run limit span htimes
      rw [Machine.run_append, Machine.along_append, ← ih htimes]
      refine (sparse_step_iff limit hspan hran.inv fun t ht => ?_).trans ?_
      · exact hlast t (hran.through t ht) now (by simp)
      · exact and_congr Iff.rfl (and_iff_left trivial).symm

variable (limit) in
/-- One more event, if all of them keep the sliding limit as long as none is turned away. -/
theorem sparse_unrefused_step_iff {c : Counter} {now : ℕ} (hspan : 0 < span) (hran : Ran times c)
    (hpast : ∀ t ∈ times, t ≤ now) (hsparse : c.refused = [] → Sparse limit span times) :
    ((c.step limit span now).refused = [] → Sparse limit span (times ++ [now])) ↔
      (c.refused = [] → c.Roomy limit span now) := by
  by_cases hroom : (c.opened span now).current.length < limit
  · have hrefused := (step_of_room hroom).2
    rw [hrefused]
    refine imp_congr_right fun hnone => ?_
    have hstep := sparse_step_iff limit hspan hran.inv
      fun t ht => hpast t (hran.through t ht)
    rw [← (hran.step limit span hpast).unrefused (hrefused.trans hnone), hstep,
      hran.unrefused hnone, and_iff_right (hsparse hnone)]
  · rw [(step_of_full hroom).2]
    exact iff_of_true (fun hnone => by simp at hnone) fun _ hn => absurd hn hroom

/-- **Until an event is turned away.**  In a run of events at non-decreasing times, at every point
up to which no event has been turned away all events keep the sliding limit, exactly when every
event before which none has been turned away is roomy. -/
theorem sparse_until_refused_iff (hspan : 0 < span) (htimes : times.Pairwise (· ≤ ·)) :
    (∀ past, past <+: times →
        (Machine.run (Counter.step limit span) {} past).refused = [] → Sparse limit span past) ↔
      Machine.Along (Counter.step limit span)
        (fun c now => c.refused = [] → c.Roomy limit span now) {} times := by
  induction times using List.reverseRec with
  | nil =>
      refine iff_of_true (fun past hpast _ => ?_) trivial
      rw [List.prefix_nil.1 hpast]
      exact sparse_nil limit span
  | append_singleton times now ih =>
      obtain ⟨htimes, -, hlast⟩ := List.pairwise_append.1 htimes
      have hwhole := fun h => sparse_unrefused_step_iff limit hspan
        (ran_run limit span htimes) (fun t ht => hlast t ht now (by simp)) h
      rw [Machine.along_append, ← ih htimes]
      constructor
      · intro h
        have hpast := fun past hprefix =>
          h past (List.IsPrefix.trans hprefix (List.prefix_append times [now]))
        refine ⟨hpast, (hwhole (hpast times List.prefix_rfl)).1 fun hnone => ?_, trivial⟩
        refine h _ List.prefix_rfl ?_
        rwa [Machine.run_append]
      · rintro ⟨hpast, hroomy, -⟩ past hprefix hnone
        rcases List.prefix_concat_iff.1 hprefix with rfl | hprefix
        · rw [Machine.run_append] at hnone
          exact (hwhole (hpast times List.prefix_rfl)).2 hroomy hnone
        · exact hpast past hprefix hnone

end Runs

end FixedWindow
