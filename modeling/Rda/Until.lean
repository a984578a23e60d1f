/-
**Loops that run until they leave.**

The body of the loop is a function that returns the next state and says whether the loop leaves with
it.  Whether it ever does may depend on what the body reads, so that the loop is run for a number of
turns, and has no result if that was not enough.

Main definitions:

* `Until.run` — the state in which the loop leaves, if it does so in time.

Main results:

* `Until.run_keeps` — the rule for partial correctness;
* `Until.exists_run_iff` — **when a loop leaves**: in the first turn that leaves, for a loop whose
  turns can be told from their number.
-/

import Mathlib.Tactic.Common

set_option relaxedAutoImplicit false
set_option autoImplicit false

namespace Until

variable {σ : Type} (turn : σ → σ × Bool)

/-- The state in which the loop leaves, if it does so within a number of turns. -/
def run : ℕ → σ → Option σ
  | 0, _ => none
  | turns + 1, s => if (turn s).2 then some (turn s).1 else run turns (turn s).1

variable {turn}

theorem run_succ_of_leaves {s : σ} (h : (turn s).2 = true) (turns : ℕ) :
    run turn (turns + 1) s = some (turn s).1 := by
  rw [run, if_pos h]

theorem run_succ_of_stays {s : σ} (h : (turn s).2 = false) (turns : ℕ) :
    run turn (turns + 1) s = run turn turns (turn s).1 := by
  rw [run, if_neg (by simp [h])]

/-- What turns that stay keep, and what the turn that leaves makes of it. -/
theorem run_keeps {I Q : σ → Prop} (hstay : ∀ s, I s → (turn s).2 = false → I (turn s).1)
    (hleave : ∀ s, I s → (turn s).2 = true → Q (turn s).1) {turns : ℕ} {s left : σ} (hs : I s)
    (h : run turn turns s = some left) : Q left := by
  induction turns generalizing s with
  | zero => cases h
  | succ turns ih =>
      cases hturn : (turn s).2 with
      | true =>
          rw [run_succ_of_leaves hturn] at h
          obtain rfl := Option.some.inj h
          exact hleave s hs hturn
      | false =>
          rw [run_succ_of_stays hturn] at h
          exact ih (hstay s hs hturn) h

/-- What a turn increases by at most one, a run increases by at most the number of its turns. -/
theorem run_le {m : σ → ℕ} (hm : ∀ s, m (turn s).1 ≤ m s + 1) {turns : ℕ} {s left : σ}
    (h : run turn turns s = some left) : m left ≤ m s + turns := by
  induction turns generalizing s with
  | zero => cases h
  | succ turns ih =>
      have hone := hm s
      cases hturn : (turn s).2 with
      | true =>
          rw [run_succ_of_leaves hturn] at h
          obtain rfl := Option.some.inj h
          omega
      | false =>
          rw [run_succ_of_stays hturn] at h
          have hrest := ih h
          omega

/-- **When a loop leaves.**  If the state before each turn is known as long as the loop stays, and
from it whether the turn leaves, then the loop leaves in time exactly when one of its turns does. -/
theorem exists_run_iff (At : ℕ → σ → Prop) (leaves : ℕ → Prop)
    (hleaves : ∀ k s, At k s → ((turn s).2 = true ↔ leaves k))
    (hstays : ∀ k s, At k s → ¬ leaves k → At (k + 1) (turn s).1) {k : ℕ} {s : σ} (hs : At k s)
    (turns : ℕ) :
    (∃ left, run turn turns s = some left) ↔ ∃ n, n < turns ∧ leaves (k + n) := by
  induction turns generalizing k s with
  | zero => simp [run]
  | succ turns ih =>
      by_cases hk : leaves k
      · refine iff_of_true ?_ ⟨0, Nat.succ_pos _, hk⟩
        exact ⟨_, run_succ_of_leaves ((hleaves k s hs).2 hk) turns⟩
      · have hturn : (turn s).2 = false := by
          rw [Bool.eq_false_iff]
          exact fun h => hk ((hleaves k s hs).1 h)
        rw [run_succ_of_stays hturn, ih (hstays k s hs hk)]
        constructor
        · rintro ⟨n, hn, hleave⟩
          refine ⟨n + 1, Nat.succ_lt_succ hn, ?_⟩
          rwa [Nat.add_right_comm, Nat.add_assoc] at hleave
        · rintro ⟨n, hn, hleave⟩
          cases n with
          | zero => exact absurd hleave hk
          | succ n =>
              refine ⟨n, Nat.lt_of_succ_lt_succ hn, ?_⟩
              rwa [Nat.add_right_comm, Nat.add_assoc]

end Until
