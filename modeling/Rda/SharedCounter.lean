/-
**One counter for several streams.**

Events of several kinds are numbered by one counter, and the numbers are told apart only modulo some
number.  Seen from one kind, the numbers are consecutive only by chance: the events of the other
kinds that came between two of its own must have taken a multiple of the modulus.

Main definitions:

* `SharedCounter.Consecutive` — every number is one more than the last, modulo `m`;
* `SharedCounter.EvenGaps` — between two events of a kind there is a multiple of `m` of others.

Main results:

* `SharedCounter.consecutive_idxsOf_iff` — **the numbers of one kind are consecutive** exactly when
  its gaps are even.
-/

import Mathlib.Data.List.Chain
import Mathlib.Data.Nat.ModEq

set_option relaxedAutoImplicit false
set_option autoImplicit false

namespace SharedCounter

variable {α : Type} {m n y : ℕ} {c x : α} {kinds : List α}

/-- Every number is one more than the last, modulo `m`. -/
def Consecutive (m : ℕ) (ns : List ℕ) : Prop := ns.IsChain fun a b => b ≡ a + 1 [MOD m]

/-- Events of other kinds that come between two of kind `c` come in multiples of `m`. -/
def EvenGaps (m : ℕ) (c : α) (kinds : List α) : Prop :=
  ∀ before between after, kinds = before ++ c :: (between ++ c :: after) → c ∉ between →
    m ∣ between.length

instance (m : ℕ) (ns : List ℕ) : Decidable (Consecutive m ns) :=
  inferInstanceAs (Decidable (List.IsChain _ ns))

/-- The first number of a kind counts the events of other kinds before it. -/
theorem mem_head?_idxsOf [DecidableEq α] :
    y ∈ (kinds.idxsOf c n).head? ↔
      ∃ between after, kinds = between ++ c :: after ∧ c ∉ between ∧ y = n + between.length := by
  induction kinds generalizing n with
  | nil => simp [List.idxsOf]
  | cons x kinds ih =>
      rw [List.idxsOf_cons]
      by_cases hx : x = c
      · subst hx
        simp only [beq_self_eq_true, if_true, List.head?_cons, Option.mem_some_iff]
        constructor
        · rintro rfl
          exact ⟨[], kinds, rfl, by simp, rfl⟩
        · rintro ⟨between, after, heq, hout, rfl⟩
          cases between with
          | nil => rfl
          | cons z between => exact absurd (List.mem_cons_self ..) ((List.cons.inj heq).1 ▸ hout)
      · rw [if_neg (by simpa using hx), ih]
        constructor
        · rintro ⟨between, after, rfl, hout, rfl⟩
          refine ⟨x :: between, after, rfl, ?_, ?_⟩
          · exact List.not_mem_cons_of_ne_of_not_mem (Ne.symm hx) hout
          · simp only [List.length_cons]
            omega
        · rintro ⟨between, after, heq, hout, rfl⟩
          cases between with
          | nil => exact absurd (List.cons.inj heq).1 hx
          | cons z between =>
              obtain ⟨-, rfl⟩ := List.cons.inj heq
              refine ⟨between, after, rfl, fun h => hout (List.mem_cons_of_mem _ h), ?_⟩
              simp only [List.length_cons]
              omega

theorem evenGaps_nil : EvenGaps m c [] := by
  intro before between after h
  simp at h

theorem evenGaps_cons :
    EvenGaps m c (x :: kinds) ↔
      (x = c → ∀ between after, kinds = between ++ c :: after → c ∉ between → m ∣ between.length) ∧
        EvenGaps m c kinds := by
  constructor
  · intro h
    constructor
    · rintro rfl between after rfl hout
      exact h [] between after rfl hout
    · rintro before between after rfl hout
      exact h (x :: before) between after rfl hout
  · rintro ⟨hfirst, hrest⟩ before between after heq hout
    cases before with
    | nil =>
        obtain ⟨hx, htail⟩ := List.cons.inj heq
        exact hfirst hx between after htail hout
    | cons z before =>
        exact hrest before between after (List.cons.inj heq).2 hout

/-- A gap of `k` others is even exactly when the next number follows. -/
theorem modEq_succ_add_iff (k : ℕ) : n + 1 + k ≡ n + 1 [MOD m] ↔ m ∣ k := by
  rw [Nat.ModEq.comm, Nat.modEq_iff_dvd' (Nat.le_add_right _ _), Nat.add_sub_cancel_left]

/-- **The numbers of one kind.** -/
theorem consecutive_idxsOf_iff [DecidableEq α] :
    Consecutive m (kinds.idxsOf c n) ↔ EvenGaps m c kinds := by
  induction kinds generalizing n with
  | nil => exact iff_of_true List.isChain_nil evenGaps_nil
  | cons x kinds ih =>
      rw [List.idxsOf_cons, evenGaps_cons, ← @ih (n + 1)]
      by_cases hx : x = c
      · rw [if_pos (by simpa using hx), Consecutive, List.isChain_cons]
        refine and_congr_left fun _ => ?_
        constructor
        · rintro hhead - between after heq hout
          rw [← modEq_succ_add_iff]
          exact hhead _ (mem_head?_idxsOf.2 ⟨between, after, heq, hout, rfl⟩)
        · intro hgaps y hy
          obtain ⟨between, after, heq, hout, rfl⟩ := mem_head?_idxsOf.1 hy
          exact (modEq_succ_add_iff _).2 (hgaps hx between after heq hout)
      · rw [if_neg (by simpa using hx)]
        exact ⟨fun h => ⟨fun heq => absurd heq hx, h⟩, fun h => h.2⟩

end SharedCounter
