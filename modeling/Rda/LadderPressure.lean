/-
**Pressure that is sustained.**

A controller under pressure waits until one rung has been recommended for two seconds.  Pressure
that wavers between two worse rungs starts the wait again each time, and a link that is too bad for
the rung in force all the time may stay on it for ever.

Main results:

* `Rda.LadderController.exists_change` — a rung that is no longer in force has been left by an
  update;
* `Rda.LadderController.lt_current_of_steady` — a rung that is recommended for two seconds brings
  the controller below every better one;
* `Rda.pressure_demotes_iff` — **the pressure that demotes**.
-/

import Rda.Ladder

set_option relaxedAutoImplicit false
set_option autoImplicit false

namespace Rda

namespace LadderController

/-- If the rung in force at the end of a run is another one, some update of the run changed it. -/
theorem exists_change {c : LadderController} {us : List (Rung × ℕ)}
    (h : (Machine.run step c us).current ≠ c.current) :
    ∃ past u after, us = past ++ u :: after ∧ (Machine.run step c past).Changes u := by
  induction us generalizing c with
  | nil => exact absurd rfl h
  | cons u us ih =>
      by_cases hu : c.Changes u
      · exact ⟨[], u, us, rfl, hu⟩
      · have hsame : (c.step u).current = c.current := not_not.1 hu
        rw [Machine.run_cons, ← hsame] at h
        obtain ⟨past, v, after, rfl, hv⟩ := ih h
        exact ⟨u :: past, v, after, rfl, hv⟩

/-- An update keeps the rung in force or changes it to the one recommended. -/
theorem current_step (c : LadderController) (u : Rung × ℕ) :
    (c.step u).current = c.current ∨ (c.step u).current = u.1 := by
  by_cases hu : c.Changes u
  · exact .inr (by rw [step_of_changes hu])
  · exact .inl (not_not.1 hu)

/-- Under pressure the rung in force stays worse than another one. -/
theorem lt_current_run {c : LadderController} {rung : Rung} (h : rung < c.current)
    {us : List (Rung × ℕ)} (hworse : ∀ u ∈ us, rung < u.1) :
    rung < (Machine.run step c us).current := by
  induction us generalizing c with
  | nil => exact h
  | cons u us ih =>
      refine ih ?_ fun v hv => hworse v (List.mem_cons_of_mem u hv)
      rcases c.current_step u with hsame | htarget
      · rwa [hsame]
      · rw [htarget]
        exact hworse u List.mem_cons_self

/-- The rung is in force, or has been pending since this time at the latest. -/
def Awaits (target : Rung) (since : ℕ) (c : LadderController) : Prop :=
  c.current = target ∨ ∃ s ≤ since, c.pending = some (target, s)

/-- A recommendation makes its rung awaited. -/
theorem awaits_step {c : LadderController} {target : Rung} {since : ℕ}
    (h : ∀ s, c.pending = some (target, s) → s ≤ since) :
    (c.step (target, since)).Awaits target since := by
  rcases c.step_cases (target, since) with ⟨hcurrent, hstep⟩ | ⟨-, s, hpending, -, hstep⟩ |
    ⟨-, -, hstep⟩ | ⟨-, _, -, -, hstep⟩
  · exact .inl (hstep ▸ hcurrent.symm)
  · exact .inr ⟨s, h s hpending, by rw [hstep, hpending]⟩
  · exact .inr ⟨since, le_rfl, by rw [hstep]⟩
  · exact .inl (by rw [hstep])

/-- Another recommendation of the same rung keeps it awaited. -/
theorem Awaits.step {c : LadderController} {target : Rung} {since : ℕ} (h : c.Awaits target since)
    (nowMs : ℕ) : (c.step (target, nowMs)).Awaits target since := by
  rcases c.step_cases (target, nowMs) with ⟨hcurrent, hstep⟩ | ⟨-, s, hpending, -, hstep⟩ |
    ⟨hne, hother, hstep⟩ | ⟨-, _, -, -, hstep⟩
  · exact .inl (hstep ▸ hcurrent.symm)
  · rwa [hstep]
  · rcases h with hcurrent | ⟨s, -, hpending⟩
    · exact absurd hcurrent.symm hne
    · exact absurd hpending (hother s)
  · exact .inl (by rw [hstep])

theorem Awaits.run {c : LadderController} {target : Rung} {since : ℕ} (h : c.Awaits target since)
    {us : List (Rung × ℕ)} (hsame : ∀ u ∈ us, u.1 = target) :
    (Machine.run LadderController.step c us).Awaits target since := by
  induction us generalizing c with
  | nil => exact h
  | cons u us ih =>
      refine ih ?_ fun v hv => hsame v (List.mem_cons_of_mem u hv)
      obtain ⟨target', nowMs⟩ := u
      obtain rfl : target' = target := hsame _ List.mem_cons_self
      exact h.step nowMs

/-- When a rung that has been awaited for two seconds is recommended once more, the controller comes
below every better one. -/
theorem lt_current_of_awaits {c : LadderController} (hdemote : c.demoteAfterMs = 2000)
    {target rung : Rung} {since nowMs : ℕ} (h : c.Awaits target since)
    (hlong : since + 2000 ≤ nowMs) (hrung : rung < target) :
    rung < (c.step (target, nowMs)).current := by
  by_cases hworse : c.current < target
  · rcases h with hcurrent | ⟨s, hs, hpending⟩
    · exact absurd hcurrent hworse.ne
    · have hchanges : c.Changes (target, nowMs) := by
        refine changes_iff.2 ⟨hworse.ne', s, hpending, ?_⟩
        rw [requiredMs, if_pos hworse, hdemote]
        omega
      rw [step_of_changes hchanges]
      exact hrung
  · rcases c.current_step (target, nowMs) with hsame | htarget
    · rw [hsame]
      exact hrung.trans_le (not_lt.1 hworse)
    · rw [htarget]
      exact hrung

/-- A rung that is recommended for two seconds brings the controller below every better one. -/
theorem lt_current_of_steady {before rest : List (Rung × ℕ)} {target rung : Rung}
    {since nowMs : ℕ}
    (htimes : ((before ++ (target, since) :: rest).map Prod.snd).Pairwise (· ≤ ·))
    (hrest : ∀ v ∈ rest, v.1 = target) (hlong : since + 2000 ≤ nowMs) (hrung : rung < target) :
    rung < (Machine.run step new
      (before ++ (target, since) :: (rest ++ [(target, nowMs)]))).current := by
  have hfirst : ((Machine.run step new before).step (target, since)).Awaits target since := by
    refine awaits_step fun s hpending => ?_
    obtain ⟨past, span, rfl, -⟩ := eq_append_of_pending rfl hpending
    rw [List.map_append] at htimes
    exact (List.pairwise_append.1 htimes).2.2 s (by simp) since (by simp)
  have hdemote := congrArg Prod.fst (delays_run new (before ++ (target, since) :: rest))
  rw [Machine.run_append, Machine.run_cons, Machine.run_append, Machine.run_cons, Machine.run_nil]
  rw [Machine.run_append, Machine.run_cons] at hdemote
  exact lt_current_of_awaits hdemote (hfirst.run hrest) hlong hrung

end LadderController

open LadderController in
/-- **The pressure that demotes.**  In every run of updates at non-decreasing times, if all updates
of its last part recommend a rung worse than the one in force before them, then the rung in force at
the end is worse as well exactly when one and the same rung was recommended for two seconds without
a break, up to an update of that last part. -/
theorem pressure_demotes_iff {past span : List (Rung × ℕ)}
    (htimes : ((past ++ span).map Prod.snd).Pairwise (· ≤ ·))
    (hworse : ∀ u ∈ span, (Machine.run step new past).current < u.1) :
    (Machine.run step new past).current < (Machine.run step new (past ++ span)).current ↔
      ∃ before target since rest nowMs after,
        past ++ span = before ++ (target, since) :: (rest ++ (target, nowMs) :: after) ∧
        (∀ v ∈ rest, v.1 = target) ∧ since + 2000 ≤ nowMs ∧ after.length < span.length := by
  constructor
  · intro h
    rw [Machine.run_append] at h
    obtain ⟨first, u, after, rfl, hu⟩ := exists_change h.ne'
    rw [← Machine.run_append] at hu
    obtain ⟨before, since, rest, hpast, hrest, hlong⟩ := eq_append_of_changes rfl hu
    rw [requiredMs_run] at hlong
    refine ⟨before, u.1, since, rest, u.2, after, ?_, hrest, ?_, ?_⟩
    · rw [← List.append_assoc, hpast, List.append_assoc, List.cons_append]
    · split_ifs at hlong
      · omega
      · omega
    · rw [List.length_append, List.length_cons]
      omega
  · rintro ⟨before, target, since, rest, nowMs, after, hsplit, hrest, hlong, hafter⟩
    -- The last recommendation of the rung, and what comes after it, are part of the span.
    have hsuffix : (target, nowMs) :: after <:+ span := by
      refine List.suffix_of_suffix_length_le ?_ (List.suffix_append past span) hafter
      rw [hsplit]
      exact ⟨before ++ (target, since) :: rest, by simp⟩
    have hworse' : ∀ u ∈ (target, nowMs) :: after, (Machine.run step new past).current < u.1 :=
      fun u hu => hworse u (hsuffix.subset hu)
    have hsteady : (Machine.run step new past).current < (Machine.run step new
        (before ++ (target, since) :: (rest ++ [(target, nowMs)]))).current := by
      refine lt_current_of_steady ?_ hrest hlong (hworse' _ List.mem_cons_self)
      refine htimes.sublist (List.Sublist.map _ ?_)
      rw [hsplit]
      exact List.Sublist.append_left (.cons_cons _ (List.sublist_append_left _ _)) _
    have hall := lt_current_run hsteady fun u hu => hworse' u (List.mem_cons_of_mem _ hu)
    rw [← Machine.run_append] at hall
    rw [hsplit]
    simpa using hall

open LadderController in
/-- Two seconds on the fifth rung, after a look at the fourth. -/
theorem pressure_demotes_sample :
    (Machine.run step new [(0, 0)]).current <
      (Machine.run step new ([(0, 0)] ++ [(4, 100), (5, 600), (5, 2700)])).current :=
  (pressure_demotes_iff (by decide) (by decide)).2
    ⟨[(0, 0), (4, 100)], 5, 600, [], 2700, [], rfl, by decide, by decide, by decide⟩

/-- A link that is good for the fourth or the fifth rung, in turns of half a second for ten
seconds. -/
def Sample.wavering : List (Rung × ℕ) :=
  (List.range 21).map fun i => (if i % 2 = 0 then 4 else 5, 500 * i)

open LadderController in
/-- For ten seconds every recommendation is a worse rung than the first one, and the first one stays
in force. -/
theorem pressure_without_demotion :
    (Sample.wavering.map Prod.snd).Pairwise (· ≤ ·) ∧
      Sample.wavering.head? = some (4, 0) ∧ Sample.wavering.getLast? = some (4, 10000) ∧
      (∀ u ∈ Sample.wavering, new.current < u.1) ∧
      (Machine.run step new Sample.wavering).current = new.current := by
  decide

end Rda
