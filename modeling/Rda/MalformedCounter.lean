/-
**The budget for malformed frames.**

A peer that sends more malformed frames than the limit within the window is to be cut off.  The
counter's window is a fixed one: it starts with the first malformed frame that comes more than the
window after the last start, and frames on the two sides of a start are not counted together.

Main definitions:

* `Rda.MalformedCounter`, `Rda.MalformedCounter.record` — the counter;
* `Rda.MalformedCounter.Terminates` — some call of a run has asked for the end of the session;
* `Rda.MalformedCounter.Counts` — a counter that agrees with one that keeps the times.

Main results:

* `Rda.MalformedCounter.terminates_iff` — the calls that ask for the end are those that find the
  window full;
* `Rda.malformed_budget_iff` — **the runs that keep the budget**.
-/

import Rda.FixedWindow

set_option relaxedAutoImplicit false
set_option autoImplicit false

namespace Rda

open FixedWindow

/-- The malformed frames of the current window.  The times wrap around as the source's do; the count
does not reach the end of its range. -/
structure MalformedCounter where
  windowMs : UInt32
  limit : UInt32
  windowStartMs : UInt32 := 0
  count : ℕ := 0

namespace MalformedCounter

/-- A counter that permits so many malformed frames in a window. -/
def new (limit windowMs : UInt32) : MalformedCounter := { windowMs := windowMs, limit := limit }

/-- The budget of the protocol. -/
def default : MalformedCounter := new 100 10000

/-- The counter with the window that a frame falls into. -/
def opened (m : MalformedCounter) (nowMs : UInt32) : MalformedCounter :=
  if m.windowMs < nowMs - m.windowStartMs then { m with windowStartMs := nowMs, count := 0 } else m

/-- Records one malformed frame.  The answer is whether the session must be terminated. -/
def record (m : MalformedCounter) (nowMs : UInt32) : Bool × MalformedCounter :=
  let m := { m.opened nowMs with count := (m.opened nowMs).count + 1 }
  (decide (m.limit.toNat < m.count), m)

/-- The counter after a call. -/
def step (m : MalformedCounter) (nowMs : UInt32) : MalformedCounter := (m.record nowMs).2

/-- Some call of a run on a new counter has asked for the end of the session. -/
def Terminates (limit windowMs : UInt32) (times : List UInt32) : Prop :=
  Machine.Sometime step (fun m nowMs => (m.record nowMs).1 = true) (new limit windowMs) times

/-! ### The times behind the counter -/

/-- The counter is that of one that keeps the times. -/
structure Counts (limit windowMs : UInt32) (m : MalformedCounter) (c : Counter) : Prop where
  limit : m.limit = limit
  windowMs : m.windowMs = windowMs
  start : m.windowStartMs.toNat = c.start
  count : m.count = c.current.length

section Step

variable {limit windowMs nowMs : UInt32} {m : MalformedCounter} {c : Counter}

theorem counts_opened (h : Counts limit windowMs m c) (hnow : c.start ≤ nowMs.toNat) :
    Counts limit windowMs (m.opened nowMs) (c.opened (windowMs.toNat + 1) nowMs.toNat) := by
  have hstart : m.windowStartMs ≤ nowMs := by
    rw [UInt32.le_iff_toNat_le, h.start]
    exact hnow
  -- Time has not run backwards, so the difference did not wrap around.
  have hlong : m.windowMs < nowMs - m.windowStartMs ↔
      windowMs.toNat + 1 ≤ nowMs.toNat - c.start := by
    rw [UInt32.lt_iff_toNat_lt, UInt32.toNat_sub_of_le _ _ hstart, h.windowMs, h.start]
    exact Iff.rfl
  unfold opened Counter.opened
  by_cases hopen : m.windowMs < nowMs - m.windowStartMs
  · rw [if_pos hopen, if_pos (hlong.1 hopen)]
    exact ⟨h.limit, h.windowMs, rfl, rfl⟩
  · rw [if_neg hopen, if_neg (mt hlong.2 hopen)]
    exact h

theorem record_iff_full (h : Counts limit windowMs m c) (hnow : c.start ≤ nowMs.toNat) :
    (m.record nowMs).1 = true ↔
      ¬ (c.opened (windowMs.toNat + 1) nowMs.toNat).current.length < limit.toNat := by
  have hopened := counts_opened h hnow
  have hrecord : (m.record nowMs).1 = true ↔
      (m.opened nowMs).limit.toNat < (m.opened nowMs).count + 1 := decide_eq_true_iff
  rw [hrecord, hopened.limit, hopened.count]
  omega

theorem counts_step (h : Counts limit windowMs m c) (hnow : c.start ≤ nowMs.toNat)
    (hroom : (c.opened (windowMs.toNat + 1) nowMs.toNat).current.length < limit.toNat) :
    Counts limit windowMs (m.step nowMs)
      (c.step limit.toNat (windowMs.toNat + 1) nowMs.toNat) := by
  obtain ⟨hlimit, hwindow, hstart, hcount⟩ := counts_opened h hnow
  rw [Counter.step, if_pos hroom]
  refine ⟨hlimit, hwindow, hstart, ?_⟩
  change (m.opened nowMs).count + 1 = _
  rw [hcount, List.length_append]
  rfl

end Step

/-! ### Runs -/

section Runs

variable {limit windowMs : UInt32} {times : List UInt32}

theorem pairwise_toNat (htimes : times.Pairwise (· ≤ ·)) :
    (times.map UInt32.toNat).Pairwise (· ≤ ·) :=
  List.pairwise_map.2 (htimes.imp UInt32.le_iff_toNat_le.1)

/-- A run asks for the end exactly when a counter that keeps the times turns something away, and
agrees with it until then. -/
structure Follows (limit windowMs : UInt32) (times : List UInt32) (c : Counter) : Prop where
  terminates : Terminates limit windowMs times ↔ c.refused ≠ []
  counts : c.refused = [] → Counts limit windowMs (Machine.run step (new limit windowMs) times) c

theorem Follows.step {c : Counter} {nowMs : UInt32} (h : Follows limit windowMs times c)
    (hnow : c.start ≤ nowMs.toNat) :
    Follows limit windowMs (times ++ [nowMs])
      (c.step limit.toNat (windowMs.toNat + 1) nowMs.toNat) := by
  have hterminates : Terminates limit windowMs (times ++ [nowMs]) ↔
      Terminates limit windowMs times ∨
        ((Machine.run MalformedCounter.step (new limit windowMs) times).record nowMs).1 = true :=
    Machine.sometime_append.trans (or_congr Iff.rfl (or_iff_left id))
  by_cases hroom : (c.opened (windowMs.toNat + 1) nowMs.toNat).current.length < limit.toNat
  · have hrefused := (Counter.step_of_room hroom).2
    refine ⟨?_, fun hnone => ?_⟩
    · rw [hterminates, h.terminates, hrefused]
      refine ⟨fun hn hnone => ?_, .inl⟩
      rcases hn with hn | hn
      · exact hn hnone
      · exact (record_iff_full (h.counts hnone) hnow).1 hn hroom
    · rw [Machine.run_append]
      exact counts_step (h.counts (hrefused.symm.trans hnone)) hnow hroom
  · have hrefused := (Counter.step_of_full hroom).2
    have hsome : (c.step limit.toNat (windowMs.toNat + 1) nowMs.toNat).refused ≠ [] := by
      rw [hrefused]
      simp
    refine ⟨iff_of_true (hterminates.2 ?_) hsome, fun hnone => absurd hnone hsome⟩
    by_cases hnone : c.refused = []
    · exact .inr ((record_iff_full (h.counts hnone) hnow).2 hroom)
    · exact .inl (h.terminates.2 hnone)

theorem follows_run (htimes : times.Pairwise (· ≤ ·)) :
    Follows limit windowMs times
      (Machine.run (Counter.step limit.toNat (windowMs.toNat + 1)) {}
        (times.map UInt32.toNat)) := by
  induction times using List.reverseRec with
  | nil => exact ⟨iff_of_false id fun hn => hn rfl, fun _ => ⟨rfl, rfl, rfl, rfl⟩⟩
  | append_singleton times nowMs ih =>
      obtain ⟨htimes, -, hlast⟩ := List.pairwise_append.1 htimes
      have hran := ran_run limit.toNat (windowMs.toNat + 1) (pairwise_toNat htimes)
      rw [List.map_append, Machine.run_append]
      refine (ih htimes).step (hran.start nowMs.toNat fun u hu => ?_)
      obtain ⟨t, ht, rfl⟩ := List.mem_map.1 hu
      exact UInt32.le_iff_toNat_le.1 (hlast t ht nowMs (by simp))

/-- The calls that ask for the end are those that find the window full. -/
theorem terminates_iff (htimes : times.Pairwise (· ≤ ·)) :
    Terminates limit windowMs times ↔
      (Machine.run (Counter.step limit.toNat (windowMs.toNat + 1)) {}
        (times.map UInt32.toNat)).refused ≠ [] := (follows_run htimes).terminates

/-- More frames in some interval than the budget permits. -/
theorem not_sparse_iff :
    ¬ Sparse limit.toNat (windowMs.toNat + 1) (times.map UInt32.toNat) ↔
      ∃ a b, b ≤ a + windowMs.toNat ∧
        limit.toNat < times.countP fun t => a ≤ t.toNat ∧ t.toNat ≤ b := by
  rw [sparse_iff (Nat.succ_pos windowMs.toNat)]
  simp only [List.countP_map, not_forall, exists_prop]
  exact exists_congr fun a => exists_congr fun b => and_congr Nat.lt_succ_iff Nat.not_le

end Runs

end MalformedCounter

open MalformedCounter in
/-- **The runs that keep the budget.**  For every limit and every window, in every run of calls at
non-decreasing times on a new counter: at every point at which more calls than the limit have come
within some span of at most the window, some call has asked for the end of the session, exactly when
every call before which none has been turned away and that finds room in its fixed window also finds
room in the window that ends with it. -/
theorem malformed_budget_iff (limit windowMs : UInt32) {times : List UInt32}
    (htimes : times.Pairwise (· ≤ ·)) :
    (∀ past, past <+: times → ∀ a b, b ≤ a + windowMs.toNat →
        limit.toNat < past.countP (fun t => a ≤ t.toNat ∧ t.toNat ≤ b) →
          Terminates limit windowMs past) ↔
      Machine.Along (Counter.step limit.toNat (windowMs.toNat + 1))
        (fun c nowMs => c.refused = [] → c.Roomy limit.toNat (windowMs.toNat + 1) nowMs) {}
        (times.map UInt32.toNat) := by
  rw [← sparse_until_refused_iff (Nat.succ_pos _) (pairwise_toNat htimes)]
  constructor
  · intro h past hpast hnone
    obtain ⟨past, hprior, rfl⟩ := List.prefix_map_iff.1 hpast
    have hsorted := htimes.sublist hprior.sublist
    by_contra hn
    obtain ⟨a, b, hb, hmany⟩ := not_sparse_iff.1 hn
    exact (terminates_iff hsorted).1 (h past hprior a b hb hmany) hnone
  · intro h past hprior a b hb hmany
    have hsorted := htimes.sublist hprior.sublist
    by_contra hn
    have hnone := not_not.1 (mt (terminates_iff hsorted).2 hn)
    exact not_sparse_iff.2 ⟨a, b, hb, hmany⟩ (h _ (hprior.map _) hnone)

open MalformedCounter in
/-- Two frames within a second, where one is permitted. -/
theorem malformed_budget_sample : Terminates 1 1000 [0, 500] :=
  (malformed_budget_iff 1 1000 (show [(0 : UInt32), 500, 2000].Pairwise (· ≤ ·) by decide)).2
    (by decide) [0, 500] (by decide) 0 1000 (by decide) (by decide)

/-- A hundred malformed frames at the end of the first ten seconds, and a hundred more a millisecond
later. -/
def Sample.probes : List UInt32 := List.replicate 100 10000 ++ List.replicate 100 10001

open MalformedCounter in
/-- Two hundred malformed frames come within two milliseconds, and the session goes on. -/
theorem probes_across_windows :
    Sample.probes.Pairwise (· ≤ ·) ∧ MalformedCounter.default = new 100 10000 ∧
      Sample.probes.countP (fun t => 10000 ≤ t.toNat ∧ t.toNat ≤ 10001) = 200 ∧
      ¬ Terminates 100 10000 Sample.probes := by
  refine ⟨by decide +kernel, rfl, by decide +kernel, ?_⟩
  rw [terminates_iff (by decide +kernel)]
  decide +kernel

end Rda
