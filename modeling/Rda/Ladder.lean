/-
**The ladder with hysteresis.**

Every look at the link recommends a rung of the degradation ladder.  The rung in force follows only
when the same rung has been recommended for a while without a break: two seconds if it is a worse
one, ten if it is a better one.  A recommendation of another rung starts the wait again, and one of
the rung in force ends it.

How a rung is selected is floating-point work; here a recommendation is any rung.

Main definitions:

* `Rda.LadderController`, `Rda.LadderController.update` — the controller;
* `Rda.LadderController.Changes`, `Rda.LadderController.Promotes` — an update that moves the rung in
  force, and one that moves it to a better one;
* `Rda.LadderController.requiredMs` — how long a rung must have been recommended.

Main results:

* `Rda.LadderController.changes_iff` — when an update changes the rung;
* `Rda.LadderController.eq_append_of_pending` — a pending rung has been recommended ever since;
* `Rda.ladder_hysteresis` — **why and how often the rung changes**.
-/

import Mathlib.Order.Fin.Basic
import Rda.Machine
import Rda.Rate

set_option relaxedAutoImplicit false
set_option autoImplicit false

namespace Rda

/-- A place on the ladder; a greater one is worse. -/
abbrev Rung : Type := Fin LADDER.length

instance : NeZero LADDER.length := ⟨by decide⟩

/-- Applies hysteresis to the transitions of the ladder. -/
structure LadderController where
  current : Rung
  pending : Option (Rung × ℕ)
  demoteAfterMs : ℕ
  promoteAfterMs : ℕ

namespace LadderController

/-- A controller starting at full quality. -/
def new : LadderController where
  current := 0
  pending := none
  demoteAfterMs := 2000
  promoteAfterMs := 10000

/-- How long a rung must have been recommended before it comes into force. -/
def requiredMs (c : LadderController) (target : Rung) : ℕ :=
  if c.current < target then c.demoteAfterMs else c.promoteAfterMs

/-- Takes a recommendation and gives the rung to use. -/
def update (c : LadderController) (target : Rung) (nowMs : ℕ) : LadderRung × LadderController :=
  if target = c.current then (LADDER[c.current], { c with pending := none })
  else
    let c := match c.pending with
      | some (pendingTarget, since) =>
          if pendingTarget = target then
            if c.requiredMs target ≤ nowMs - since then
              { c with current := target, pending := none }
            else c
          else { c with pending := some (target, nowMs) }
      | none => { c with pending := some (target, nowMs) }
    (LADDER[c.current], c)

/-- A recommendation that arrives at a time, as one step. -/
def step (c : LadderController) (u : Rung × ℕ) : LadderController := (c.update u.1 u.2).2

/-- The update changes the rung in force. -/
def Changes (c : LadderController) (u : Rung × ℕ) : Prop := (c.step u).current ≠ c.current

instance (c : LadderController) (u : Rung × ℕ) : Decidable (c.Changes u) :=
  inferInstanceAs (Decidable (_ ≠ _))

/-- The update changes the rung in force to a better one. -/
def Promotes (c : LadderController) (u : Rung × ℕ) : Prop := (c.step u).current < c.current

instance (c : LadderController) (u : Rung × ℕ) : Decidable (c.Promotes u) :=
  inferInstanceAs (Decidable (_ < _))

/-! ### What an update does -/

/-- The rung that an update gives is the one in force. -/
theorem update_fst (c : LadderController) (target : Rung) (nowMs : ℕ) :
    (c.update target nowMs).1 = LADDER[(c.update target nowMs).2.current] := by
  unfold update
  split_ifs
  · rfl
  · rfl

/-- What an update can do: drop the pending rung, wait on, start waiting, or change the rung. -/
theorem step_cases (c : LadderController) (u : Rung × ℕ) :
    (u.1 = c.current ∧ c.step u = { c with pending := none }) ∨
    (u.1 ≠ c.current ∧ ∃ since, c.pending = some (u.1, since) ∧ u.2 - since < c.requiredMs u.1 ∧
      c.step u = c) ∨
    (u.1 ≠ c.current ∧ (∀ since, c.pending ≠ some (u.1, since)) ∧
      c.step u = { c with pending := some u }) ∨
    (u.1 ≠ c.current ∧ ∃ since, c.pending = some (u.1, since) ∧ c.requiredMs u.1 ≤ u.2 - since ∧
      c.step u = { c with current := u.1, pending := none }) := by
  obtain ⟨target, nowMs⟩ := u
  by_cases hcurrent : target = c.current
  · exact .inl ⟨hcurrent, by simp [step, update, hcurrent]⟩
  · refine .inr ?_
    cases hpending : c.pending with
    | none => exact .inr (.inl ⟨hcurrent, by simp, by simp [step, update, hcurrent, hpending]⟩)
    | some p =>
        obtain ⟨pendingTarget, since⟩ := p
        by_cases hsame : pendingTarget = target
        · subst hsame
          by_cases hlong : c.requiredMs pendingTarget ≤ nowMs - since
          · refine .inr (.inr ⟨hcurrent, since, rfl, hlong, ?_⟩)
            simp [step, update, hcurrent, hpending, hlong]
          · refine .inl ⟨hcurrent, since, rfl, Nat.not_le.1 hlong, ?_⟩
            simp [step, update, hcurrent, hpending, hlong]
        · refine .inr (.inl ⟨hcurrent, ?_, ?_⟩)
          · intro since' heq
            cases heq
            exact hsame rfl
          · simp [step, update, hcurrent, hpending, hsame]

/-- An update changes the rung exactly when another rung than the one in force, which is the pending
one, has been pending for long enough. -/
theorem changes_iff {c : LadderController} {u : Rung × ℕ} :
    c.Changes u ↔ u.1 ≠ c.current ∧
      ∃ since, c.pending = some (u.1, since) ∧ c.requiredMs u.1 ≤ u.2 - since := by
  unfold Changes
  rcases c.step_cases u with ⟨hcurrent, hstep⟩ | ⟨-, since, hpending, hshort, hstep⟩ |
    ⟨-, hother, hstep⟩ | ⟨hne, since, hpending, hlong, hstep⟩
  · exact iff_of_false (by simp [hstep]) fun h => h.1 hcurrent
  · refine iff_of_false (by simp [hstep]) ?_
    rintro ⟨-, since', hpending', hlong⟩
    rw [hpending] at hpending'
    cases hpending'
    omega
  · refine iff_of_false (by simp [hstep]) ?_
    rintro ⟨-, since, hpending, -⟩
    exact hother since hpending
  · exact iff_of_true (by simpa [hstep] using hne) ⟨hne, since, hpending, hlong⟩

/-- An update that changes the rung changes it to the one recommended, and nothing is pending
then. -/
theorem step_of_changes {c : LadderController} {u : Rung × ℕ} (h : c.Changes u) :
    c.step u = { c with current := u.1, pending := none } := by
  obtain ⟨hne, since, hpending, hlong⟩ := changes_iff.1 h
  simp [step, update, hne, hpending, hlong]

/-- The waiting times of a controller. -/
def delays (c : LadderController) : ℕ × ℕ := (c.demoteAfterMs, c.promoteAfterMs)

theorem delays_step (c : LadderController) (u : Rung × ℕ) : (c.step u).delays = c.delays := by
  rcases c.step_cases u with ⟨-, hstep⟩ | ⟨-, _, -, -, hstep⟩ | ⟨-, -, hstep⟩ | ⟨-, _, -, -, hstep⟩
  all_goals exact (congrArg delays hstep).trans rfl

/-- No update changes the waiting times. -/
theorem delays_run (c : LadderController) (us : List (Rung × ℕ)) :
    (Machine.run step c us).delays = c.delays :=
  Machine.run_invariant (fun c' => c'.delays = c.delays)
    (fun c' u h => (delays_step c' u).trans h) rfl us

/-- How long a rung must have been recommended in a run. -/
theorem requiredMs_run (us : List (Rung × ℕ)) (target : Rung) :
    (Machine.run step new us).requiredMs target =
      if (Machine.run step new us).current < target then 2000 else 10000 := by
  obtain ⟨hdemote, hpromote⟩ := Prod.mk.inj (delays_run new us)
  rw [requiredMs, hdemote, hpromote]
  rfl

/-! ### What is pending has been recommended ever since -/

/-- If nothing was pending at the start of a run, then the rung that is pending at its end has been
recommended by every update since. -/
theorem eq_append_of_pending {c : LadderController} (hc : c.pending = none)
    {us : List (Rung × ℕ)} {target : Rung} {since : ℕ}
    (h : (Machine.run step c us).pending = some (target, since)) :
    ∃ before span, us = before ++ (target, since) :: span ∧ ∀ v ∈ span, v.1 = target := by
  revert target since
  refine @Machine.run_history _ _ step (fun us c' => ∀ {target : Rung} {since : ℕ},
    c'.pending = some (target, since) →
      ∃ before span, us = before ++ (target, since) :: span ∧ ∀ v ∈ span, v.1 = target) c ?_ ?_ us
  · intro target since h
    rw [hc] at h
    cases h
  · intro us u ih target since h
    generalize Machine.run step c us = c' at ih h
    rcases c'.step_cases u with ⟨-, hstep⟩ | ⟨-, since', hpending, -, hstep⟩ | ⟨-, -, hstep⟩ |
      ⟨-, _, -, -, hstep⟩
    · rw [hstep] at h
      cases h
    · rw [hstep, hpending] at h
      cases h
      obtain ⟨before, span, rfl, hspan⟩ := ih hpending
      refine ⟨before, span ++ [u], by simp, ?_⟩
      intro v hv
      rcases List.mem_append.1 hv with hv | hv
      · exact hspan v hv
      · rw [List.mem_singleton.1 hv]
    · rw [hstep] at h
      cases h
      exact ⟨us, [], rfl, by simp⟩
    · rw [hstep] at h
      cases h

/-- An update that changes the rung has the same recommendation before it, without a break, from at
least as long ago as the change requires. -/
theorem eq_append_of_changes {c : LadderController} (hc : c.pending = none)
    {us : List (Rung × ℕ)} {u : Rung × ℕ} (h : (Machine.run step c us).Changes u) :
    ∃ before since span, us = before ++ (u.1, since) :: span ∧ (∀ v ∈ span, v.1 = u.1) ∧
      (Machine.run step c us).requiredMs u.1 ≤ u.2 - since := by
  obtain ⟨-, since, hpending, hlong⟩ := changes_iff.1 h
  obtain ⟨before, span, hus, hspan⟩ := eq_append_of_pending hc hpending
  exact ⟨before, since, span, hus, hspan, hlong⟩

end LadderController

open LadderController in
/-- **Why and how often the rung changes.**  In every run of updates at non-decreasing times, the
rung in force changes only to the rung that is recommended, and only if every update of a span of at
least two seconds before, or ten for a better rung, recommended exactly that one.  Hence two changes
are never closer than two seconds, and a change and a promotion after it never closer than ten. -/
theorem ladder_hysteresis {updates : List (Rung × ℕ)}
    (htimes : (updates.map Prod.snd).Pairwise (· ≤ ·)) :
    (∀ past u, past ++ [u] <+: updates → (Machine.run step new past).Changes u →
      (Machine.run step new (past ++ [u])).current = u.1 ∧
      ∃ before since span, past = before ++ (u.1, since) :: span ∧ (∀ v ∈ span, v.1 = u.1) ∧
        since + (if (Machine.run step new past).current < u.1 then 2000 else 10000) ≤ u.2) ∧
    ∀ past u between v, past ++ u :: (between ++ [v]) <+: updates →
      (Machine.run step new past).Changes u →
      (Machine.run step new (past ++ u :: between)).Changes v →
        u.2 + 2000 ≤ v.2 ∧
        ((Machine.run step new (past ++ u :: between)).Promotes v → u.2 + 10000 ≤ v.2) := by
  refine ⟨?_, ?_⟩
  · intro past u _ hchanges
    refine ⟨?_, ?_⟩
    · rw [Machine.run_append, Machine.run_cons, Machine.run_nil, step_of_changes hchanges]
    · obtain ⟨before, since, span, hpast, hspan, hlong⟩ := eq_append_of_changes rfl hchanges
      refine ⟨before, since, span, hpast, hspan, ?_⟩
      rw [requiredMs_run] at hlong
      split_ifs at hlong ⊢
      · omega
      · omega
  · intro past u between v hprior hu hv
    -- After the first change nothing is pending, so the wait for the second one comes after it.
    have hrequired := requiredMs_run (past ++ u :: between) v.1
    rw [Machine.run_append, Machine.run_cons] at hv hrequired ⊢
    have hnone : ((Machine.run step new past).step u).pending = none := by
      rw [step_of_changes hu]
    obtain ⟨before, since, span, rfl, -, hlong⟩ := eq_append_of_changes hnone hv
    have hsince : u.2 ≤ since := by
      have hsorted := htimes.sublist (hprior.sublist.map Prod.snd)
      rw [List.map_append, List.map_cons] at hsorted
      have hfirst := (List.pairwise_cons.1 (List.pairwise_append.1 hsorted).2.1).1
      exact hfirst since (by simp)
    rw [hrequired] at hlong
    constructor
    · split_ifs at hlong
      · omega
      · omega
    · intro hpromotes
      have hbetter : ¬ (Machine.run step ((Machine.run step new past).step u)
          (before ++ (v.1, since) :: span)).current < v.1 := by
        have hcurrent := step_of_changes hv
        rw [Promotes, hcurrent] at hpromotes
        exact hpromotes.asymm
      rw [if_neg hbetter] at hlong
      omega

/-- The link collapses for a while and recovers. -/
def Sample.collapse : List (Rung × ℕ) :=
  [(0, 0), (4, 100), (4, 2200), (0, 5000), (0, 12000), (0, 15100)]

open LadderController in
/-- The rung becomes worse after two seconds, and good again after ten. -/
theorem ladder_hysteresis_sample :
    ((Machine.run step new [(0, 0), (4, 100), (4, 2200)]).current = 4 ∧
      ∃ before since span, [(0, 0), (4, 100)] = before ++ ((4 : Rung), since) :: span ∧
        (∀ v ∈ span, v.1 = 4) ∧
        since + (if (Machine.run step new [(0, 0), (4, 100)]).current < 4 then 2000 else 10000)
          ≤ 2200) ∧
    2200 + 10000 ≤ 15100 :=
  have h := ladder_hysteresis (show (Sample.collapse.map Prod.snd).Pairwise (· ≤ ·) by decide)
  ⟨h.1 [(0, 0), (4, 100)] (4, 2200) (by decide) (by decide),
    (h.2 [(0, 0), (4, 100)] (4, 2200) [(0, 5000), (0, 12000)] (0, 15100) (by decide) (by decide)
      (by decide)).2 (by decide)⟩

end Rda
