/-
**The guards in front of the input injector.**

Before an event reaches the machine it is checked against the session's grant, against a budget of
events per second of its class, and against the host's policy over key combinations.

Main definitions:

* `Rda.GuardError` — why an event is refused;
* `Rda.RateLimits`, `Rda.EventClass`, `Rda.RateGuard` — the budgets;
* `Rda.CombinationPolicy` — blocked combinations.

Main results:

* `Rda.RateGuard.allow_fst` — when an event is within its budget;
* `Rda.CombinationPolicy.permits_eq_false_iff` — what a policy blocks;
* `Rda.CombinationPolicy.permits_of_within` — fewer modifiers are never blocked where more are not.
-/

import Rda.Grant
import Rda.KeyState

set_option relaxedAutoImplicit false
set_option autoImplicit false

namespace Rda

/-- Whether a grant permits input injection. -/
def SessionGrant.mayInjectInput (grant : SessionGrant) : Bool := grant.caps.input

/-- Why an injection attempt was refused. -/
inductive GuardError
  | inputNotGranted
  | clipboardNotGranted
  | rateLimited
  | invalidField (field : String)
  | unknownDisplay
  | disallowedUsage
  | blockedCombination
  | localUserActive
  deriving DecidableEq, Repr

/-! ### Budgets -/

/-- Events per second of each class. -/
structure RateLimits where
  pointerPerS : ℕ := 1000
  keyPerS : ℕ := 100
  clipboardPerS : ℕ := 20

/-- Which budget an event draws from. -/
inductive EventClass
  | pointer | key | clipboard
  deriving DecidableEq, Repr

/-- The events of one class since the window was last started. -/
structure Window where
  startMs : ℕ := 0
  count : ℕ := 0
  dropped : ℕ := 0

/-- The window an event at `nowMs` falls into. -/
def Window.at (w : Window) (nowMs : ℕ) : Window :=
  if 1000 ≤ nowMs - w.startMs then { w with startMs := nowMs, count := 0 } else w

/-- Counts an event and tells whether it is within the limit. -/
def Window.allow (w : Window) (limit nowMs : ℕ) : Bool × Window :=
  let w := { w.at nowMs with count := (w.at nowMs).count + 1 }
  if limit < w.count then (false, { w with dropped := w.dropped + 1 }) else (true, w)

/-- The budgets of a session. -/
structure RateGuard where
  limits : RateLimits
  pointer : Window := {}
  key : Window := {}
  clipboard : Window := {}

/-- Builds a guard with the given limits. -/
def RateGuard.new (limits : RateLimits) : RateGuard := { limits := limits }

/-- Counts an event of a class and tells whether it is within its budget. -/
def RateGuard.allow (g : RateGuard) (cls : EventClass) (nowMs : ℕ) : Bool × RateGuard :=
  match cls with
  | .pointer =>
      let (ok, w) := g.pointer.allow g.limits.pointerPerS nowMs
      (ok, { g with pointer := w })
  | .key =>
      let (ok, w) := g.key.allow g.limits.keyPerS nowMs
      (ok, { g with key := w })
  | .clipboard =>
      let (ok, w) := g.clipboard.allow g.limits.clipboardPerS nowMs
      (ok, { g with clipboard := w })

/-- The window of a class. -/
def RateGuard.window (g : RateGuard) : EventClass → Window
  | .pointer => g.pointer
  | .key => g.key
  | .clipboard => g.clipboard

/-- The limit of a class. -/
def RateGuard.limit (g : RateGuard) : EventClass → ℕ
  | .pointer => g.limits.pointerPerS
  | .key => g.limits.keyPerS
  | .clipboard => g.limits.clipboardPerS

theorem Window.allow_fst {w : Window} {limit nowMs : ℕ} :
    (w.allow limit nowMs).1 = true ↔ (w.at nowMs).count < limit := by
  have hallow : (w.allow limit nowMs).1
      = if limit < (w.at nowMs).count + 1 then false else true := by
    rw [Window.allow]
    split <;> rfl
  rw [hallow]
  by_cases h : limit < (w.at nowMs).count + 1
  · rw [if_pos h]
    exact iff_of_false Bool.false_ne_true (by omega)
  · rw [if_neg h]
    exact iff_of_true rfl (by omega)

/-- An event is within its budget exactly when fewer events of its class than the limit were counted
in the window it falls into. -/
theorem RateGuard.allow_fst {g : RateGuard} {cls : EventClass} {nowMs : ℕ} :
    (g.allow cls nowMs).1 = true ↔ ((g.window cls).at nowMs).count < g.limit cls := by
  cases cls with
  | pointer => exact Window.allow_fst
  | key => exact Window.allow_fst
  | clipboard => exact Window.allow_fst

/-! ### Policy -/

/-- Host policy over key combinations: pairs of a modifier mask and a key. -/
structure CombinationPolicy where
  blocked : List (UInt16 × UInt16)

namespace CombinationPolicy

/-- A policy that blocks nothing. -/
def permissive : CombinationPolicy := ⟨[]⟩

/-- Blocks a combination. -/
def block (p : CombinationPolicy) (modifiers usage : UInt16) : CombinationPolicy :=
  ⟨p.blocked ++ [(modifiers, usage)]⟩

/-- Whether a key event is permitted. -/
def permits (p : CombinationPolicy) (modifiers usage : UInt16) : Bool :=
  !p.blocked.any fun b => b.2 == usage && modifiers &&& b.1 == b.1

theorem permits_eq_false_iff {p : CombinationPolicy} {modifiers usage : UInt16} :
    p.permits modifiers usage = false ↔
      ∃ mask, (mask, usage) ∈ p.blocked ∧ modifiers &&& mask = mask := by
  simp [permits]

/-- Fewer modifiers are never blocked where more are not. -/
theorem permits_of_within {p : CombinationPolicy} {modifiers modifiers' usage : UInt16}
    (hwithin : modifiers' &&& modifiers = modifiers') (h : p.permits modifiers usage = true) :
    p.permits modifiers' usage = true := by
  by_contra hn
  obtain ⟨mask, hmem, hmask⟩ := permits_eq_false_iff.1 (Bool.eq_false_iff.2 hn)
  have hfull : modifiers &&& mask = mask := by
    rw [← hmask, ← hwithin, UInt16.and_comm modifiers', UInt16.and_assoc, ← UInt16.and_assoc,
      UInt16.and_self]
  rw [permits_eq_false_iff.2 ⟨mask, hmem, hfull⟩] at h
  cases h

end CombinationPolicy

end Rda
