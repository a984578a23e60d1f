/-
**The rate guard as a sliding limit.**

The rate guard is described as a limiter with a sliding window.  Each of its windows is a fixed one
that starts with the first event after a second, and two bursts on the two sides of a start are both
let through.  The classes of events have windows of their own.

Main definitions:

* `Rda.RateGuard.timesOf`, `Rda.RateGuard.allowed` — the events of a class in a run of calls, and
  those let through;
* `Rda.Window.Counts` — a window that agrees with a counter that keeps the times.

Main results:

* `Rda.RateGuard.allowed_new` — what a class is allowed depends on its own events and its own limit;
* `Rda.sliding_limit_iff` — **the runs that keep the sliding limit**.
-/

import Rda.FixedWindow
import Rda.InputGuard

set_option relaxedAutoImplicit false
set_option autoImplicit false

namespace Rda

open FixedWindow

/-! ### One window -/

namespace Window

variable {w : Window} {c : Counter} {limit nowMs : ℕ}

theorem allow_snd (w : Window) (limit nowMs : ℕ) :
    (w.allow limit nowMs).2.startMs = (w.at nowMs).startMs ∧
      (w.allow limit nowMs).2.count = (w.at nowMs).count + 1 := by
  rw [allow]
  split
  · exact ⟨rfl, rfl⟩
  · exact ⟨rfl, rfl⟩

/-- The window is that of a counter that keeps the times.  The window also counts the events it
turns away. -/
structure Counts (limit : ℕ) (w : Window) (c : Counter) : Prop where
  start : c.start = w.startMs
  current : c.current.length = min w.count limit

theorem counts_opened (h : Counts limit w c) (nowMs : ℕ) :
    Counts limit (w.at nowMs) (c.opened 1000 nowMs) := by
  unfold Window.at Counter.opened
  rw [h.start]
  split_ifs
  · exact ⟨rfl, (Nat.zero_min limit).symm⟩
  · exact h

theorem allow_iff_room (h : Counts limit w c) :
    (w.allow limit nowMs).1 = true ↔ (c.opened 1000 nowMs).current.length < limit := by
  rw [allow_fst, (counts_opened h nowMs).current]
  omega

theorem counts_allow (h : Counts limit w c) :
    Counts limit (w.allow limit nowMs).2 (c.step limit 1000 nowMs) := by
  obtain ⟨hstart, hcurrent⟩ := counts_opened h nowMs
  obtain ⟨hstart', hcount⟩ := allow_snd w limit nowMs
  unfold Counter.step
  split_ifs with hroom
  · refine ⟨hstart.trans hstart'.symm, ?_⟩
    rw [hcurrent] at hroom
    rw [List.length_append, hcurrent, hcount, List.length_singleton]
    omega
  · refine ⟨hstart.trans hstart'.symm, ?_⟩
    rw [hcurrent] at hroom
    rw [hcurrent, hcount]
    omega

end Window

/-! ### The classes -/

namespace RateGuard

variable {g : RateGuard} {cls cls' : EventClass} {nowMs : ℕ}

theorem allow_fst_eq :
    (g.allow cls nowMs).1 = ((g.window cls).allow (g.limit cls) nowMs).1 := by
  cases cls with
  | pointer | key | clipboard => rfl

theorem window_allow_self :
    (g.allow cls nowMs).2.window cls = ((g.window cls).allow (g.limit cls) nowMs).2 := by
  cases cls with
  | pointer | key | clipboard => rfl

/-- A call leaves the windows of the other classes alone. -/
theorem window_allow_of_ne (h : cls' ≠ cls) :
    (g.allow cls nowMs).2.window cls' = g.window cls' := by
  cases cls with
  | pointer | key | clipboard =>
      cases cls' with
      | pointer | key | clipboard => first | rfl | exact absurd rfl h

theorem limit_allow : (g.allow cls nowMs).2.limit cls' = g.limit cls' := by
  cases cls with
  | pointer | key | clipboard => rfl

/-- The times of the events of a class. -/
def timesOf (cls : EventClass) (calls : List (EventClass × ℕ)) : List ℕ :=
  (calls.filter fun call => call.1 = cls).map Prod.snd

/-- The times of the events of a class that are let through. -/
def allowed (cls : EventClass) : RateGuard → List (EventClass × ℕ) → List ℕ
  | _, [] => []
  | g, call :: calls =>
      if call.1 = cls ∧ (g.allow call.1 call.2).1 = true then
        call.2 :: allowed cls (g.allow call.1 call.2).2 calls
      else allowed cls (g.allow call.1 call.2).2 calls

/-- The events of a class are let through as its own counter does. -/
theorem through_run {c : Counter} (h : Window.Counts (g.limit cls) (g.window cls) c)
    (calls : List (EventClass × ℕ)) :
    (Machine.run (Counter.step (g.limit cls) 1000) c (timesOf cls calls)).through
      = c.through ++ allowed cls g calls := by
  induction calls generalizing g c with
  | nil => exact (List.append_nil _).symm
  | cons call calls ih =>
      obtain ⟨cls', nowMs⟩ := call
      by_cases hcls : cls' = cls
      · subst hcls
        have hnext : Window.Counts ((g.allow cls' nowMs).2.limit cls')
            ((g.allow cls' nowMs).2.window cls') (c.step (g.limit cls') 1000 nowMs) := by
          rw [limit_allow, window_allow_self]
          exact Window.counts_allow h
        have hrun := ih hnext
        have htimes : timesOf cls' ((cls', nowMs) :: calls) = nowMs :: timesOf cls' calls := by
          simp [timesOf]
        rw [limit_allow] at hrun
        rw [htimes, Machine.run_cons, hrun, allowed]
        by_cases hroom : (c.opened 1000 nowMs).current.length < g.limit cls'
        · have hallow : (g.allow cls' nowMs).1 = true := by
            rw [allow_fst_eq]
            exact (Window.allow_iff_room h).2 hroom
          rw [if_pos ⟨rfl, hallow⟩, (Counter.step_of_room hroom).1, List.append_assoc]
          rfl
        · have hallow : ¬ (g.allow cls' nowMs).1 = true := by
            rw [allow_fst_eq]
            exact mt (Window.allow_iff_room h).1 hroom
          rw [if_neg fun hn => hallow hn.2, (Counter.step_of_full hroom).1]
      · have hnext : Window.Counts ((g.allow cls' nowMs).2.limit cls)
            ((g.allow cls' nowMs).2.window cls) c := by
          rw [limit_allow, window_allow_of_ne (Ne.symm hcls)]
          exact h
        have hrun := ih hnext
        have htimes : timesOf cls ((cls', nowMs) :: calls) = timesOf cls calls := by
          simp [timesOf, hcls]
        rw [limit_allow] at hrun
        rw [htimes, hrun, allowed, if_neg fun hn => hcls hn.1]

/-- **The classes do not affect one another.**  What a new guard allows a class depends on the
events and the limit of the class alone. -/
theorem allowed_new (limits : RateLimits) (cls : EventClass) (calls : List (EventClass × ℕ)) :
    allowed cls (.new limits) calls =
      (Machine.run (Counter.step ((RateGuard.new limits).limit cls) 1000) {}
        (timesOf cls calls)).through := by
  have hnew : Window.Counts ((RateGuard.new limits).limit cls) ((RateGuard.new limits).window cls)
      {} := by
    cases cls with
    | pointer | key | clipboard => exact ⟨rfl, (Nat.zero_min _).symm⟩
  rw [through_run hnew]
  rfl

end RateGuard

open RateGuard in
/-- **The runs that keep the sliding limit.**  For all limits and every class, in every run of calls
at non-decreasing times on a new guard: what the class is allowed is the same in every run with the
same events of the class and the same limit of it, and no interval shorter than a second holds more
events allowed than the limit, exactly when every event of the class that finds room in its fixed
window finds fewer events allowed than the limit in the last second. -/
theorem sliding_limit_iff (limits : RateLimits) (cls : EventClass)
    {calls : List (EventClass × ℕ)} (htimes : (calls.map Prod.snd).Pairwise (· ≤ ·)) :
    ((∀ limits' calls', (RateGuard.new limits').limit cls = (RateGuard.new limits).limit cls →
        timesOf cls calls' = timesOf cls calls →
          allowed cls (.new limits') calls' = allowed cls (.new limits) calls) ∧
      ∀ a b, b < a + 1000 → (allowed cls (.new limits) calls).countP (fun t => a ≤ t ∧ t ≤ b) ≤
        (RateGuard.new limits).limit cls) ↔
      Machine.Along (Counter.step ((RateGuard.new limits).limit cls) 1000)
        (Counter.Roomy ((RateGuard.new limits).limit cls) 1000) {} (timesOf cls calls) := by
  have hsorted : (timesOf cls calls).Pairwise (· ≤ ·) :=
    htimes.sublist (List.filter_sublist.map Prod.snd)
  have hspan : 0 < 1000 := by decide
  rw [← sparse_through_iff hspan hsorted, sparse_iff hspan, allowed_new]
  refine and_iff_right fun limits' calls' hlimit hcalls => ?_
  rw [allowed_new, hlimit, hcalls]

open RateGuard in
theorem sliding_limit_sample :
    (∀ limits' calls', (RateGuard.new limits').limit .key
          = (RateGuard.new { keyPerS := 2 }).limit .key →
        timesOf .key calls' = timesOf .key [(.key, 0), (.pointer, 5), (.key, 400), (.key, 1400)] →
          allowed .key (.new limits') calls' = allowed .key (.new { keyPerS := 2 })
            [(.key, 0), (.pointer, 5), (.key, 400), (.key, 1400)]) ∧
      ∀ a b, b < a + 1000 → (allowed .key (.new { keyPerS := 2 })
          [(.key, 0), (.pointer, 5), (.key, 400), (.key, 1400)]).countP
            (fun t => a ≤ t ∧ t ≤ b) ≤ (RateGuard.new { keyPerS := 2 }).limit .key :=
  (sliding_limit_iff { keyPerS := 2 } .key (by decide)).2 (by decide)

/-- A hundred keys at the end of a second, and a hundred more a millisecond later. -/
def Sample.burst : List (EventClass × ℕ) :=
  List.replicate 100 (.key, 999) ++ List.replicate 100 (.key, 1000)

open RateGuard in
/-- Two hundred keys are let through within two milliseconds, with a limit of a hundred a second. -/
theorem burst_across_windows :
    (Sample.burst.map Prod.snd).Pairwise (· ≤ ·) ∧ (RateGuard.new {}).limit .key = 100 ∧
      (allowed .key (.new {}) Sample.burst).countP (fun t => 999 ≤ t ∧ t ≤ 1000) = 200 ∧
      ¬ ∀ a b, b < a + 1000 → (allowed .key (.new {}) Sample.burst).countP
          (fun t => a ≤ t ∧ t ≤ b) ≤ (RateGuard.new {}).limit .key := by
  have hcount : (allowed .key (.new {}) Sample.burst).countP (fun t => 999 ≤ t ∧ t ≤ 1000)
      = 200 := by decide +kernel
  refine ⟨by decide +kernel, rfl, hcount, fun h => ?_⟩
  have hlimit : 200 ≤ 100 := hcount ▸ h 999 1000 (by decide)
  exact absurd hlimit (by decide)

end Rda
