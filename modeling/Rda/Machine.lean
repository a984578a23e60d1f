/-
**Runs of a state machine.**

A machine is a step function `σ → ι → σ`: everything the outside world decides is in the input,
everything worth remembering is in the state.  The rules below take a fact about one step to a
fact about a whole run:

* `Machine.run_invariant` — what every step keeps, every run keeps;
* `Machine.run_relates` — a reflexive and transitive relation between the two ends of a step holds
  between the two ends of a run;
* `Machine.forall_prefix_iff_along` — if the good steps keep an invariant that gives `Q`, and a
  bad step breaks `Q` at once, then `Q` holds all along a run exactly when all its steps are good;
* `Machine.forall_step_iff_along` — the same for a property of the single steps;
* `Machine.run_history` — the same for invariants that also speak about the steps taken so far;
* `Machine.not_run_iff_undone` — something that steps set and clear is clear at the end of a run
  exactly when every step that set it is followed by one that clears it.

Main definitions:

* `Machine.run` — the state a list of inputs leads to;
* `Machine.Along` — every step of a run satisfies a condition on the state it is taken from;
* `Machine.Sometime` — some step of a run does;
* `Machine.Undone` — every step of one kind is followed by one of another kind;
* `Machine.pair` — two machines side by side.
-/

import Mathlib.Data.List.Basic
import Mathlib.Data.List.Induction
import Mathlib.Tactic.Common

set_option relaxedAutoImplicit false
set_option autoImplicit false

namespace Machine

variable {σ ι : Type} (step : σ → ι → σ)

/-- The state a list of inputs leads to. -/
def run (s : σ) (is : List ι) : σ := is.foldl step s

@[simp] theorem run_nil (s : σ) : run step s [] = s := rfl

@[simp] theorem run_cons (s : σ) (i : ι) (is : List ι) :
    run step s (i :: is) = run step (step s i) is := rfl

theorem run_append (s : σ) (is js : List ι) :
    run step s (is ++ js) = run step (run step s is) js := List.foldl_append

/-- Every step of the run satisfies `good` at the state it is taken from. -/
def Along (good : σ → ι → Prop) : σ → List ι → Prop
  | _, [] => True
  | s, i :: is => good s i ∧ Along good (step s i) is

variable {step} {good : σ → ι → Prop}

/-- What every good step keeps, every run of good steps keeps. -/
theorem run_invariant_along (Inv : σ → Prop)
    (hstep : ∀ s i, Inv s → good s i → Inv (step s i)) {s : σ} {is : List ι} (hs : Inv s)
    (h : Along step good s is) : Inv (run step s is) := by
  induction is generalizing s with
  | nil => exact hs
  | cons i is ih => exact ih (hstep s i hs h.1) h.2

/-- What every step keeps, every run keeps. -/
theorem run_invariant (Inv : σ → Prop) (hstep : ∀ s i, Inv s → Inv (step s i)) {s : σ}
    (hs : Inv s) (is : List ι) : Inv (run step s is) := by
  induction is generalizing s with
  | nil => exact hs
  | cons i is ih => exact ih (hstep s i hs)

/-- What the steps with the inputs of a run keep, the run keeps. -/
theorem run_invariant_mem (Inv : σ → Prop) {s : σ} {is : List ι}
    (hstep : ∀ s, ∀ i ∈ is, Inv s → Inv (step s i)) (hs : Inv s) : Inv (run step s is) := by
  induction is generalizing s with
  | nil => exact hs
  | cons i is ih =>
      exact ih (fun s j hj => hstep s j (List.mem_cons_of_mem _ hj)) (hstep s i (by simp) hs)

/-- A reflexive and transitive relation that every step from an invariant state satisfies holds
between the ends of every run from such a state. -/
theorem run_relates {Inv : σ → Prop} {R : σ → σ → Prop} (hrefl : ∀ s, R s s)
    (htrans : ∀ s t u, R s t → R t u → R s u) (hinv : ∀ s i, Inv s → Inv (step s i))
    (hstep : ∀ s i, Inv s → R s (step s i)) {s : σ} (hs : Inv s) (is : List ι) :
    R s (run step s is) := by
  induction is generalizing s with
  | nil => exact hrefl s
  | cons i is ih => exact htrans _ _ _ (hstep s i hs) (ih (hinv s i hs))

/-- **The good runs.**  If good steps keep an invariant that gives `Q`, and a bad step breaks `Q`
at once, then `Q` holds at every point of a run exactly when every step of the run is good. -/
theorem forall_prefix_iff_along (Inv Q : σ → Prop) (hQ : ∀ s, Inv s → Q s)
    (hgood : ∀ s i, Inv s → good s i → Inv (step s i))
    (hbad : ∀ s i, Inv s → ¬ good s i → ¬ Q (step s i)) {s : σ} (hs : Inv s) (is : List ι) :
    (∀ js, js <+: is → Q (run step s js)) ↔ Along step good s is := by
  induction is generalizing s with
  | nil =>
      refine ⟨fun _ => trivial, ?_⟩
      intro _ js hjs
      rw [List.prefix_nil.1 hjs]
      exact hQ s hs
  | cons i is ih =>
      constructor
      · intro h
        -- A bad first step would break `Q` right after it.
        have hi : good s i := by
          by_contra hn
          exact hbad s i hs hn (h [i] (by simp))
        refine ⟨hi, (ih (hgood s i hs hi)).1 ?_⟩
        intro js hjs
        exact h (i :: js) (List.cons_prefix_cons.2 ⟨rfl, hjs⟩)
      · rintro ⟨hi, hrest⟩ js hjs
        cases js with
        | nil => exact hQ s hs
        | cons j js =>
            obtain ⟨rfl, hjs'⟩ := List.cons_prefix_cons.1 hjs
            exact (ih (hgood s j hs hi)).2 hrest js hjs'

/-- If good steps keep an invariant, and a step from an invariant state has a property exactly when
it is good, then every step of a run has the property exactly when every step of it is good. -/
theorem forall_step_iff_along (Inv : σ → Prop) (P : σ → ι → Prop)
    (hgood : ∀ s i, Inv s → good s i → Inv (step s i))
    (hP : ∀ s i, Inv s → (P s i ↔ good s i)) {s : σ} (hs : Inv s) (is : List ι) :
    (∀ js i, js ++ [i] <+: is → P (run step s js) i) ↔ Along step good s is := by
  induction is generalizing s with
  | nil =>
      refine ⟨fun _ => trivial, ?_⟩
      intro _ js i hjs
      simp at hjs
  | cons i is ih =>
      constructor
      · intro h
        have hi : good s i := (hP s i hs).1 (h [] i (by simp))
        refine ⟨hi, (ih (hgood s i hs hi)).1 ?_⟩
        intro js j hjs
        exact h (i :: js) j (List.cons_prefix_cons.2 ⟨rfl, hjs⟩)
      · rintro ⟨hi, hrest⟩ js j hjs
        cases js with
        | nil =>
            obtain ⟨rfl, -⟩ := List.cons_prefix_cons.1 hjs
            exact (hP s j hs).2 hi
        | cons k js =>
            obtain ⟨rfl, hjs'⟩ := List.cons_prefix_cons.1 hjs
            exact (ih (hgood s k hs hi)).2 hrest js j hjs'

variable (step) in
/-- Some step of the run satisfies `good` at the state it is taken from. -/
def Sometime (good : σ → ι → Prop) : σ → List ι → Prop
  | _, [] => False
  | s, i :: is => good s i ∨ Sometime good (step s i) is

variable (step) in
/-- Every step of the run that sets something is followed by a step that clears it. -/
def Undone (sets clears : σ → ι → Prop) : σ → List ι → Prop
  | _, [] => True
  | s, i :: is => (sets s i → Sometime step clears (step s i) is) ∧ Undone sets clears (step s i) is

/-- Something happens in a run of two parts when it happens in one of them. -/
theorem sometime_append {s : σ} {is js : List ι} :
    Sometime step good s (is ++ js) ↔
      Sometime step good s is ∨ Sometime step good (run step s is) js := by
  induction is generalizing s with
  | nil => simp [Sometime]
  | cons i is ih => rw [List.cons_append, Sometime, Sometime, ih, run_cons, or_assoc]

/-- What has happened stays so. -/
theorem Sometime.append {s : σ} {is : List ι} (h : Sometime step good s is) (js : List ι) :
    Sometime step good s (is ++ js) := sometime_append.2 (Or.inl h)

/-- The last step of a run happens in it. -/
theorem sometime_of_last {s : σ} {is : List ι} {i : ι} (h : good (run step s is) i) :
    Sometime step good s (is ++ [i]) := sometime_append.2 (Or.inr (Or.inl h))

/-- What happens may be weakened. -/
theorem Sometime.imp {good' : σ → ι → Prop} (hgood : ∀ s i, good s i → good' s i) {s : σ}
    {is : List ι} (h : Sometime step good s is) : Sometime step good' s is := by
  induction is generalizing s with
  | nil => exact h
  | cons i is ih => exact Or.imp (hgood s i) ih h

/-- What happens in a run happens at some state. -/
theorem Sometime.exists {s : σ} {is : List ι} (h : Sometime step good s is) : ∃ s i, good s i := by
  induction is generalizing s with
  | nil => exact h.elim
  | cons i is ih => exact h.elim (fun hi => ⟨s, i, hi⟩) ih

theorem along_append {s : σ} {is js : List ι} :
    Along step good s (is ++ js) ↔ Along step good s is ∧ Along step good (run step s is) js := by
  induction is generalizing s with
  | nil => simp [Along]
  | cons i is ih => rw [List.cons_append, Along, Along, ih, run_cons, and_assoc]

/-- **Invariants about the past.**  What holds of the empty run and is kept when a step is added to
a run holds of every run and the state it leads to. -/
theorem run_history (Inv : List ι → σ → Prop) {s : σ} (hs : Inv [] s)
    (hstep : ∀ is i, Inv is (run step s is) → Inv (is ++ [i]) (step (run step s is) i))
    (is : List ι) : Inv is (run step s is) := by
  induction is using List.reverseRec with
  | nil => exact hs
  | append_singleton is i ih =>
      rw [run_append]
      exact hstep is i ih

/-- Along a run from an invariant state a condition may be weakened to what it gives there. -/
theorem Along.imp {good' : σ → ι → Prop} (Inv : σ → Prop)
    (hstep : ∀ s i, Inv s → Inv (step s i)) (h : ∀ s i, Inv s → good s i → good' s i) {s : σ}
    {is : List ι} (hs : Inv s) (hgood : Along step good s is) : Along step good' s is := by
  induction is generalizing s with
  | nil => trivial
  | cons i is ih => exact ⟨h s i hs hgood.1, ih (hstep s i hs) hgood.2⟩

instance decidableAlong [∀ s i, Decidable (good s i)] :
    ∀ (s : σ) (is : List ι), Decidable (Along step good s is)
  | _, [] => isTrue trivial
  | s, i :: is =>
      haveI := decidableAlong (step s i) is
      inferInstanceAs (Decidable (good s i ∧ Along step good (step s i) is))

/-- Two conditions hold along a run when both do. -/
theorem along_and {good' : σ → ι → Prop} {s : σ} {is : List ι} :
    Along step (fun s i => good s i ∧ good' s i) s is ↔
      Along step good s is ∧ Along step good' s is := by
  induction is generalizing s with
  | nil => exact ⟨fun _ => ⟨trivial, trivial⟩, fun _ => trivial⟩
  | cons i is ih => rw [Along, Along, Along, ih, and_and_and_comm]

theorem along_of_forall (h : ∀ s i, good s i) (s : σ) (is : List ι) : Along step good s is := by
  induction is generalizing s with
  | nil => trivial
  | cons i is ih => exact ⟨h s i, ih (step s i)⟩

/-- If a good step sets a flag, clears it or leaves it alone, then the flag is clear at the end of a
run of good steps exactly when a step clears it, if it was set at the start, and every step that
sets it is followed by one that clears it. -/
theorem not_run_iff_undone (Inv flag : σ → Prop) {sets clears : σ → ι → Prop}
    (hinv : ∀ s i, Inv s → good s i → Inv (step s i))
    (hstep : ∀ s i, Inv s → good s i → (flag (step s i) ↔ sets s i ∨ flag s ∧ ¬ clears s i))
    {s : σ} {is : List ι} (hs : Inv s) (h : Along step good s is) :
    ¬ flag (run step s is) ↔
      (flag s → Sometime step clears s is) ∧ Undone step sets clears s is := by
  induction is generalizing s with
  | nil => exact ⟨fun h => ⟨h, trivial⟩, fun h => h.1⟩
  | cons i is ih =>
      rw [run_cons, ih (hinv s i hs h.1) h.2, hstep s i hs h.1, Sometime, Undone]
      tauto

/-! ### Two machines side by side -/

section Pair

variable {τ κ : Type} {step' : τ → κ → τ} (f : ι → Option κ)

variable (step step') in
/-- Two machines side by side; the second one is given what `f` leaves of an input, if anything. -/
def pair (x : σ × τ) (i : ι) : σ × τ :=
  (step x.1 i, match f i with
    | some k => step' x.2 k
    | none => x.2)

variable {f} in
theorem pair_of_some {i : ι} {k : κ} (h : f i = some k) (x : σ × τ) :
    pair step step' f x i = (step x.1 i, step' x.2 k) := by
  rw [pair, h]

variable {f} in
theorem pair_of_none {i : ι} (h : f i = none) (x : σ × τ) :
    pair step step' f x i = (step x.1 i, x.2) := by
  rw [pair, h]

theorem run_pair (x : σ × τ) (is : List ι) :
    run (pair step step' f) x is = (run step x.1 is, run step' x.2 (is.filterMap f)) := by
  induction is generalizing x with
  | nil => rfl
  | cons i is ih =>
      rw [run_cons, ih, run_cons]
      cases hf : f i with
      | none => rw [pair_of_none hf, List.filterMap_cons_none hf]
      | some k => rw [pair_of_some hf, List.filterMap_cons_some hf, run_cons]

/-- A condition on the first machine alone. -/
theorem along_pair_iff (x : σ × τ) (is : List ι) :
    Along (pair step step' f) (fun x i => good x.1 i) x is ↔ Along step good x.1 is := by
  induction is generalizing x with
  | nil => exact Iff.rfl
  | cons i is ih => exact and_congr Iff.rfl (ih (pair step step' f x i))

end Pair

end Machine
