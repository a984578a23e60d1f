/-
**Session capabilities.**

What a host lets a session do: five independent permissions.  A grant only ever narrows, and the
operation that narrows is the meet of the lattice of capability sets, so "is a subset of" is the
order of that lattice and the rest of the development speaks of `≤` and `⊓`.

Main definitions:

* `Rda.SessionCaps`, with `fromNames`, `toNames` and `clampTo` as the source has them;
* the order on capability sets, in which `clampTo` is the meet.

Main results:

* `Rda.SessionCaps.fromNames_toNames` — the wire names of a capability set read back as the set.
-/

import Mathlib.Order.Lattice
import Mathlib.Tactic.Common

set_option relaxedAutoImplicit false
set_option autoImplicit false

namespace Rda

/-- Per-session permissions granted by the host. -/
structure SessionCaps where
  view : Bool
  input : Bool
  clipboard : Bool
  file : Bool
  audio : Bool
  deriving DecidableEq, Repr

namespace SessionCaps

/-- Nothing is permitted. -/
def default : SessionCaps := ⟨false, false, false, false, false⟩

/-- A view-only session: the safe default when a host has not decided otherwise. -/
def viewOnly : SessionCaps := { default with view := true }

/-- One name of the wire representation; a name that is not recognised changes nothing. -/
def addName (c : SessionCaps) (n : String) : SessionCaps :=
  if n = "view" then { c with view := true }
  else if n = "input" then { c with input := true }
  else if n = "clipboard" then { c with clipboard := true }
  else if n = "file" then { c with file := true }
  else if n = "audio" then { c with audio := true }
  else c

/-- Parses the wire representation, ignoring names it does not recognise. -/
def fromNames (names : List String) : SessionCaps := names.foldl addName default

/-- The wire representation. -/
def toNames (c : SessionCaps) : List String :=
  (if c.view then ["view"] else []) ++ (if c.input then ["input"] else []) ++
    (if c.clipboard then ["clipboard"] else []) ++ (if c.file then ["file"] else []) ++
    (if c.audio then ["audio"] else [])

/-- Restricts the capabilities to what `granted` allows. -/
def clampTo (c granted : SessionCaps) : SessionCaps where
  view := c.view && granted.view
  input := c.input && granted.input
  clipboard := c.clipboard && granted.clipboard
  file := c.file && granted.file
  audio := c.audio && granted.audio

theorem fromNames_toNames (c : SessionCaps) : fromNames c.toNames = c := by
  obtain ⟨v, i, cl, f, a⟩ := c
  cases v <;> cases i <;> cases cl <;> cases f <;> cases a <;> decide

/-! ### The lattice of capability sets -/

instance : Min SessionCaps := ⟨clampTo⟩

/-- Capability sets under `clampTo`: `c ≤ d` says that `d` permits everything `c` does. -/
instance : SemilatticeInf SessionCaps :=
  SemilatticeInf.mk'
    (by
      intro c d
      simp only [min, clampTo, Bool.and_comm])
    (by
      intro c d e
      simp only [min, clampTo, Bool.and_assoc])
    (by
      intro c
      simp only [min, clampTo, Bool.and_self])

theorem clampTo_eq_inf (c d : SessionCaps) : c.clampTo d = c ⊓ d := rfl

/-- The order, one permission at a time. -/
theorem le_iff {c d : SessionCaps} :
    c ≤ d ↔ (c.view → d.view) ∧ (c.input → d.input) ∧ (c.clipboard → d.clipboard) ∧
      (c.file → d.file) ∧ (c.audio → d.audio) := by
  rw [← inf_eq_left, ← clampTo_eq_inf]
  obtain ⟨v, i, cl, f, a⟩ := c
  simp only [clampTo, mk.injEq, Bool.and_eq_left_iff_imp]

instance (c d : SessionCaps) : Decidable (c ≤ d) := decidable_of_iff _ le_iff.symm

end SessionCaps

end Rda
