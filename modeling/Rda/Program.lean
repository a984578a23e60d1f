/-
**Programs that fail without forgetting.**

A program over a state `σ` that returns an `α` or fails with an `ε` is Lean's `EStateM ε σ α`; the
state it has reached survives a failure, so that what was sent before an error is still known to
have been sent.  Three kinds of rules are enough to reason about straight-line code:

* inversion: what a successful run of a sequence says about its parts
  (`Program.run_bind_eq_ok_iff`, `Program.run_lift_bind_eq_ok_iff`,
  `Program.run_check_bind_eq_ok_iff`);
* invariance: what a program keeps whether it returns or fails (`Program.Keeps`), and the rule that
  blames a broken invariant on the part that may break it (`Program.ok_of_broken`);
* blindness: a change of the state that a program does not notice (`Program.Blind`).

Main definitions:

* `Program.final` — the state a run leaves behind, in either case;
* `Program.lift`, `Program.check` — a fallible computation, and a test, as programs;
* `Program.Keeps` — programs that keep a property of the state;
* `Program.Blind` — programs that do not notice a change of the state.
-/

import Mathlib.Tactic.Common

set_option relaxedAutoImplicit false
set_option autoImplicit false

namespace Program

variable {ε σ α β : Type}

/-! ### Running -/

/-- The state a run leaves behind, whether it returns or fails. -/
def final (x : EStateM ε σ α) (s : σ) : σ :=
  match x.run s with
  | .ok _ s' => s'
  | .error _ s' => s'

/-- A computation that may fail and does not touch the state. -/
def lift (r : Except ε α) : EStateM ε σ α := fun s =>
  match r with
  | .ok a => .ok a s
  | .error e => .error e s

/-- Fails with `e` unless the test passes. -/
def check (c : Prop) [Decidable c] (e : ε) : EStateM ε σ Unit :=
  lift (if c then .ok () else .error e)

@[simp] theorem run_lift_ok (a : α) (s : σ) : (lift (.ok a) : EStateM ε σ α).run s = .ok a s := rfl

@[simp] theorem run_lift_error (e : ε) (s : σ) :
    (lift (.error e) : EStateM ε σ α).run s = .error e s := rfl

/-- A sequence succeeds exactly when its first part does and its second part succeeds from there. -/
theorem run_bind_eq_ok_iff {x : EStateM ε σ α} {f : α → EStateM ε σ β} {s s'' : σ} {b : β} :
    (x >>= f).run s = .ok b s'' ↔ ∃ a s', x.run s = .ok a s' ∧ (f a).run s' = .ok b s'' := by
  rw [EStateM.run_bind]
  cases x.run s with
  | ok a s' => simp
  | error e s' => simp

/-- A sequence fails exactly when its first part does, or succeeds and its second part fails. -/
theorem run_bind_eq_error_iff {x : EStateM ε σ α} {f : α → EStateM ε σ β} {s s'' : σ} {e : ε} :
    (x >>= f).run s = .error e s'' ↔
      x.run s = .error e s'' ∨ ∃ a s', x.run s = .ok a s' ∧ (f a).run s' = .error e s'' := by
  rw [EStateM.run_bind]
  cases x.run s with
  | ok a s' => simp
  | error e' s' => simp

theorem run_bind_of_ok {x : EStateM ε σ α} {f : α → EStateM ε σ β} {s s' : σ} {a : α}
    (h : x.run s = .ok a s') : (x >>= f).run s = (f a).run s' := by
  rw [EStateM.run_bind, h]

theorem run_bind_of_error {x : EStateM ε σ α} {f : α → EStateM ε σ β} {s s' : σ} {e : ε}
    (h : x.run s = .error e s') : (x >>= f).run s = .error e s' := by
  rw [EStateM.run_bind, h]

theorem run_lift_eq_ok_iff {r : Except ε α} {s s' : σ} {a : α} :
    (lift r).run s = .ok a s' ↔ r = .ok a ∧ s' = s := by
  cases r with
  | ok b => simp [eq_comm]
  | error e => simp

/-- A lifted computation in front of a program. -/
theorem run_lift_bind_eq_ok_iff {r : Except ε α} {f : α → EStateM ε σ β} {s s' : σ} {b : β} :
    (lift r >>= f).run s = .ok b s' ↔ ∃ a, r = .ok a ∧ (f a).run s = .ok b s' := by
  rw [run_bind_eq_ok_iff]
  constructor
  · rintro ⟨a, s₁, hlift, hrun⟩
    obtain ⟨hr, rfl⟩ := run_lift_eq_ok_iff.1 hlift
    exact ⟨a, hr, hrun⟩
  · rintro ⟨a, hr, hrun⟩
    exact ⟨a, s, run_lift_eq_ok_iff.2 ⟨hr, rfl⟩, hrun⟩

/-- A test in front of a program. -/
theorem run_check_bind_eq_ok_iff {c : Prop} [Decidable c] {e : ε} {f : Unit → EStateM ε σ β}
    {s s' : σ} {b : β} :
    (check c e >>= f).run s = .ok b s' ↔ c ∧ (f ()).run s = .ok b s' := by
  rw [check, run_lift_bind_eq_ok_iff]
  split_ifs with hc
  · exact ⟨fun ⟨_, _, hrun⟩ => ⟨hc, hrun⟩, fun ⟨_, hrun⟩ => ⟨(), rfl, hrun⟩⟩
  · simp [hc]

theorem ok_eq_ok_iff {s s' : σ} {u v : Unit} :
    (EStateM.Result.ok u s : EStateM.Result ε σ Unit) = .ok v s' ↔ s' = s := by
  simp [eq_comm]

theorem run_modify_bind_eq_ok_iff {g : σ → σ} {f : Unit → EStateM ε σ β} {s s' : σ} {b : β} :
    (modify g >>= f).run s = .ok b s' ↔ (f ()).run (g s) = .ok b s' := Iff.rfl

theorem run_modify_eq_ok_iff {g : σ → σ} {s s' : σ} {u : PUnit} :
    (modify g : EStateM ε σ PUnit).run s = .ok u s' ↔ g s = s' := by
  constructor
  · intro h
    cases h
    rfl
  · rintro rfl
    rfl

theorem run_throw_eq_ok_iff {e : ε} {s s' : σ} {a : α} :
    (throw e : EStateM ε σ α).run s = .ok a s' ↔ False := by
  refine iff_of_false (fun h => ?_) id
  cases h

theorem run_pure_eq_ok_iff {a b : α} {s s' : σ} :
    (pure a : EStateM ε σ α).run s = .ok b s' ↔ a = b ∧ s = s' := by
  simp

/-- A loop whose rounds all succeed from the states that satisfy `I`, and lead to such states again,
succeeds and folds the states. -/
theorem run_forM_eq_ok {γ : Type} {I : σ → Prop} {f : γ → EStateM ε σ PUnit} {g : σ → γ → σ}
    (hround : ∀ s a, I s → (f a).run s = .ok () (g s a)) (hkeep : ∀ s a, I s → I (g s a))
    (l : List γ) {s : σ} (hs : I s) : (l.forM f).run s = .ok () (l.foldl g s) := by
  induction l generalizing s with
  | nil => rfl
  | cons a l ih =>
      have hcons : (a :: l).forM f = (f a >>= fun _ => l.forM f) := rfl
      rw [hcons, run_bind_of_ok (hround s a hs), ih (hkeep s a hs)]
      rfl

/-! ### Invariance -/

/-- `x` keeps `I`, whether it returns or fails. -/
def Keeps (I : σ → Prop) (x : EStateM ε σ α) : Prop := ∀ s, I s → I (final x s)

theorem final_of_ok {x : EStateM ε σ α} {s s' : σ} {a : α} (h : x.run s = .ok a s') :
    final x s = s' := by
  rw [final, h]

theorem final_of_error {x : EStateM ε σ α} {s s' : σ} {e : ε} (h : x.run s = .error e s') :
    final x s = s' := by
  rw [final, h]

theorem final_eq_of_run_eq {x y : EStateM ε σ α} {s s' : σ} (h : x.run s = y.run s') :
    final x s = final y s' := by
  rw [final, h, final]

theorem final_bind_of_ok {x : EStateM ε σ α} {f : α → EStateM ε σ β} {s s' : σ} {a : α}
    (h : x.run s = .ok a s') : final (x >>= f) s = final (f a) s' :=
  final_eq_of_run_eq (run_bind_of_ok h)

/-- The state a sequence leaves is the state its first part leaves, if that part fails, and the
state the second part leaves otherwise. -/
theorem final_bind (x : EStateM ε σ α) (f : α → EStateM ε σ β) (s : σ) :
    (∃ e, x.run s = .error e (final x s) ∧ final (x >>= f) s = final x s) ∨
      ∃ a, x.run s = .ok a (final x s) ∧ final (x >>= f) s = final (f a) (final x s) := by
  cases h : x.run s with
  | ok a s' =>
      rw [final_of_ok h]
      exact .inr ⟨a, rfl, final_bind_of_ok h⟩
  | error e s' =>
      rw [final_of_error h]
      refine .inl ⟨e, rfl, ?_⟩
      rw [final, EStateM.run_bind, h]

theorem Keeps.pure {I : σ → Prop} (a : α) : Keeps I (pure a : EStateM ε σ α) := fun _ h => h

theorem Keeps.lift {I : σ → Prop} (r : Except ε α) : Keeps I (lift r : EStateM ε σ α) := by
  intro s h
  cases r with
  | ok a => exact h
  | error e => exact h

theorem Keeps.check {I : σ → Prop} (c : Prop) [Decidable c] (e : ε) :
    Keeps I (Program.check c e) := Keeps.lift _

theorem Keeps.modify {I : σ → Prop} {g : σ → σ} (h : ∀ s, I s → I (g s)) :
    Keeps I (modify g : EStateM ε σ PUnit) := h

theorem Keeps.throw {I : σ → Prop} (e : ε) : Keeps I (throw e : EStateM ε σ α) := fun _ h => h

theorem Keeps.bind {I : σ → Prop} {x : EStateM ε σ α} {f : α → EStateM ε σ β} (hx : Keeps I x)
    (hf : ∀ a, Keeps I (f a)) : Keeps I (x >>= f) := by
  intro s hs
  rcases final_bind x f s with ⟨e, -, h⟩ | ⟨a, -, h⟩
  · rw [h]
    exact hx s hs
  · rw [h]
    exact hf a _ (hx s hs)

/-- A program that begins by reading the state. -/
theorem Keeps.get_bind {I : σ → Prop} {f : σ → EStateM ε σ α} (h : ∀ s, I s → I (final (f s) s)) :
    Keeps I (get >>= f) := h

theorem Keeps.forM {γ : Type} {I : σ → Prop} {f : γ → EStateM ε σ PUnit} {l : List γ}
    (h : ∀ a ∈ l, Keeps I (f a)) : Keeps I (l.forM f) := by
  induction l with
  | nil => exact fun _ h => h
  | cons a l ih =>
      exact Keeps.bind (h a List.mem_cons_self) fun _ =>
        ih fun b hb => h b (List.mem_cons_of_mem a hb)

/-- If a sequence breaks an invariant that its first part keeps, then the first part returned, and
the second part broke it. -/
theorem ok_of_broken {I : σ → Prop} {x : EStateM ε σ α} {f : α → EStateM ε σ β} {s : σ}
    (hx : Keeps I x) (hs : I s) (hbroken : ¬ I (final (x >>= f) s)) :
    ∃ a s', x.run s = .ok a s' ∧ I s' ∧ ¬ I (final (f a) s') := by
  rcases final_bind x f s with ⟨e, -, h⟩ | ⟨a, hrun, h⟩
  · rw [h] at hbroken
    exact absurd (hx s hs) hbroken
  · rw [h] at hbroken
    exact ⟨a, final x s, hrun, hx s hs, hbroken⟩

/-! ### Blindness -/

/-- Changes the state of a result. -/
def onState (g : σ → σ) : EStateM.Result ε σ α → EStateM.Result ε σ α
  | .ok a s => .ok a (g s)
  | .error e s => .error e (g s)

/-- `x` does not notice what `g` changes: it returns or fails alike, and the change is still there
afterwards. -/
def Blind (g : σ → σ) (x : EStateM ε σ α) : Prop := ∀ s, x.run (g s) = onState g (x.run s)

theorem Blind.pure {g : σ → σ} (a : α) : Blind g (pure a : EStateM ε σ α) := fun _ => rfl

theorem Blind.throw {g : σ → σ} (e : ε) : Blind g (throw e : EStateM ε σ α) := fun _ => rfl

theorem Blind.modify {g f : σ → σ} (h : ∀ s, f (g s) = g (f s)) :
    Blind g (modify f : EStateM ε σ PUnit) := by
  intro s
  change EStateM.Result.ok () (f (g s)) = .ok () (g (f s))
  rw [h]

theorem Blind.bind {g : σ → σ} {x : EStateM ε σ α} {f : α → EStateM ε σ β} (hx : Blind g x)
    (hf : ∀ a, Blind g (f a)) : Blind g (x >>= f) := by
  intro s
  rw [EStateM.run_bind, EStateM.run_bind, hx]
  cases x.run s with
  | ok a s' => exact hf a s'
  | error e s' => rfl

end Program
