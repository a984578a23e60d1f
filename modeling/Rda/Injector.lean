/-
**The input injector.**

Everything that reaches an input API of the machine goes through `Rda.Injector.apply`, which takes
the session's grant and one control frame.  The frame is checked, the key state is brought up to
date, and the backend is called; a call that is refused leaves the keys and the backend alone.

The backend is what the platform provides: each call may fail, and what it answers is part of the
injector's surroundings.  The backend keeps a log of the calls, with the keys that were tracked as
held when the call was made; the code keeps no such log, but it is what the statements about a run
speak of.

Main definitions:

* `Rda.BackendCall`, `Rda.Backend` — the platform's input API;
* `Rda.Injector`, with `apply`, `setLocalControl`, `setDisplays` and `releaseAll`;
* `Rda.Injector.Passes` — every guard lets an event through;
* `Rda.Injector.after` — what such an event does if no call fails;
* `Rda.Injector.Call`, `Rda.Injector.step` — a call with its arguments, as one step.

Main results:

* `Rda.Injector.run_apply_of_passes` — **an event that passes** is applied;
* `Rda.Injector.run_apply_of_not_passes` — **an event that does not pass** is refused before the
  keys or the backend are touched, whatever the backend.
-/

import Rda.InputGuard
import Rda.Machine
import Rda.Program

set_option relaxedAutoImplicit false
set_option autoImplicit false

namespace Rda

/-! ### The platform -/

/-- A mouse button of the platform. -/
inductive Button
  | left | right | middle | back | forward
  deriving DecidableEq, Repr

/-- Why a backend call failed. -/
inductive BackendError
  | permissionDenied (what : String)
  | unavailable (what : String)
  | unmappedUsage (usage : UInt16)
  | injectionFailed (what : String)
  | unsupported
  deriving DecidableEq, Repr

/-- A call to the platform's input API.  Relative motion is in eighths of a pixel, which the source
hands over as an exact quotient. -/
inductive BackendCall
  | pointerAbsolute (x y : Int32)
  | pointerRelative (dxEighths dyEighths : Int16)
  | button (button : Button) (down : Bool)
  | scroll (vertical horizontal : Int16)
  | key (usage : UInt16) (down : Bool)
  | text (text : String)
  deriving DecidableEq

/-- A call that was made: the keys tracked as held at that moment, and whether it succeeded. -/
structure LogEntry where
  call : BackendCall
  keys : KeyState
  ok : Bool

/-- The platform's input API: its answer to the `n`-th call, and the calls so far. -/
structure Backend where
  answers : ℕ → Except BackendError Unit
  log : List LogEntry

namespace Backend

/-- A backend nobody has called yet. -/
def new (answers : ℕ → Except BackendError Unit) : Backend := ⟨answers, []⟩

/-- A backend whose calls all succeed. -/
def NeverFails (b : Backend) : Prop := ∀ n, b.answers n = .ok ()

/-- Makes a call. -/
def call (b : Backend) (c : BackendCall) (keys : KeyState) : Except BackendError Unit × Backend :=
  let answer := b.answers b.log.length
  (answer, { b with log := b.log ++ [⟨c, keys, answer.isOk⟩] })

end Backend

/-! ### The injector -/

/-- A display the host is sharing. -/
structure DisplayGeometry where
  id : UInt8
  x : Int32
  y : Int32
  width : UInt32
  height : UInt32

/-- Addition that stops at the ends of the range. -/
def saturatingAdd (a b : Int32) : Int32 :=
  Int32.ofInt (max (-2147483648) (min 2147483647 (a.toInt + b.toInt)))

/-- Converts normalised coordinates to a position on this display. -/
def DisplayGeometry.denormalise (g : DisplayGeometry) (xNorm yNorm : UInt16) : Int32 × Int32 :=
  let px := xNorm.toNat * (g.width.toNat - 1) / 65535
  let py := yNorm.toNat * (g.height.toNat - 1) / 65535
  (saturatingAdd g.x (Int32.ofNat px), saturatingAdd g.y (Int32.ofNat py))

/-- Whether the physical user at the host has taken control back. -/
inductive LocalControl
  | remote | local
  deriving DecidableEq, Repr

/-- Counters. -/
structure InjectorStats where
  injected : ℕ := 0
  refused : ℕ := 0
  reconciled : ℕ := 0

/-- The injection facade. -/
structure Injector where
  backend : Backend
  displays : List DisplayGeometry
  rate : RateGuard
  policy : CombinationPolicy
  keys : KeyState
  localControl : LocalControl
  stats : InjectorStats

/-- A program of the injector. -/
abbrev Inject (ε α : Type) : Type := EStateM ε Injector α

/-- The platform's name of a wire button. -/
def mapButton : MouseButtonId → Button
  | .left => .left
  | .right => .right
  | .middle => .middle
  | .x1 => .back
  | .x2 => .forward

namespace Injector

/-- Builds an injector with the default limits and no policy. -/
def new (backend : Backend) (displays : List DisplayGeometry) : Injector where
  backend := backend
  displays := displays
  rate := .new {}
  policy := .permissive
  keys := .new
  localControl := .remote
  stats := {}

/-- Replaces the rate limits. -/
def withRateLimits (inj : Injector) (limits : RateLimits) : Injector :=
  { inj with rate := .new limits }

/-- Replaces the combination policy. -/
def withPolicy (inj : Injector) (policy : CombinationPolicy) : Injector :=
  { inj with policy := policy }

/-- Updates the display topology. -/
def setDisplays (inj : Injector) (displays : List DisplayGeometry) : Injector :=
  { inj with displays := displays }

/-- The display with an id. -/
def display (inj : Injector) (id : UInt8) : Option DisplayGeometry :=
  inj.displays.find? fun d => d.id == id

/-- Counts a refusal. -/
def countRefused (inj : Injector) : Injector :=
  { inj with stats := { inj.stats with refused := inj.stats.refused + 1 } }

/-- Counts a synthetic key action. -/
def countReconciled (inj : Injector) : Injector :=
  { inj with stats := { inj.stats with reconciled := inj.stats.reconciled + 1 } }

/-- Counts an injected event. -/
def countInjected (inj : Injector) : Injector :=
  { inj with stats := { inj.stats with injected := inj.stats.injected + 1 } }

variable {ε : Type}

/-- A backend call, whose failure is the program's failure. -/
def attempt (c : BackendCall) (asError : BackendError → ε) : Inject ε Unit := fun inj =>
  match inj.backend.call c inj.keys with
  | (.ok (), backend) => .ok () { inj with backend := backend }
  | (.error e, backend) => .error (asError e) { inj with backend := backend }

/-- A backend call of which a failure is not noticed. -/
def send (c : BackendCall) : Inject ε Unit :=
  modify fun inj => { inj with backend := (inj.backend.call c inj.keys).2 }

/-- A backend call whose failure is blamed on a field of the event. -/
def guarded (c : BackendCall) (field : String) : Inject GuardError Unit :=
  attempt c fun _ => .invalidField field

/-- Refuses the event and counts the refusal. -/
def refuse (e : GuardError) : Inject GuardError Unit := do
  modify countRefused
  throw e

/-- The session must grant input. -/
def requireInput (grant : SessionGrant) : Inject GuardError Unit := do
  if grant.mayInjectInput then pure () else refuse .inputNotGranted

/-- A check that checks nothing; the budget is looked at in `rateOk`. -/
def checkRate (_ : EventClass) : Inject GuardError Unit := pure ()

/-- The event must be within the budget of its class. -/
def rateOk (cls : EventClass) (nowMs : ℕ) : Inject GuardError Unit := do
  let inj ← get
  let (ok, rate) := inj.rate.allow cls nowMs
  set { inj with rate := rate }
  if ok then pure () else refuse .rateLimited

/-- The display an event names. -/
def requireDisplay (id : UInt8) : Inject GuardError DisplayGeometry := do
  let inj ← get
  match inj.display id with
  | some geom => pure geom
  | none => throw .unknownDisplay

/-- The policy must permit the key with the modifiers the event carries. -/
def requirePolicy (modifiers usage : UInt16) : Inject GuardError Unit := do
  if (← get).policy.permits modifiers usage then pure () else refuse .blockedCombination

/-- Releases modifiers the peer says are no longer held. -/
def syncModifiers (modifiers : UInt16) : Inject GuardError Unit := do
  let inj ← get
  let (actions, keys) := inj.keys.reconcileModifiers modifiers
  set { inj with keys := keys }
  actions.forM fun action => do
    modify countReconciled
    send (.key action.usage false)

/-- Performs one action that a snapshot asks for. -/
def perform (action : KeyState.Action) : Inject GuardError Unit := do
  modify countReconciled
  guarded (.key action.usage action.isPress) "usage_id"

/-- What the arms of `apply` do after their guards. -/
def carryOut : Payload → Inject GuardError Unit
  | .mouseMove displayId _ xNorm yNorm modifiers => do
      let geom ← requireDisplay displayId
      syncModifiers modifiers
      guarded (.pointerAbsolute (geom.denormalise xNorm yNorm).1
        (geom.denormalise xNorm yNorm).2) "pointer"
      modify countInjected
  | .mouseMoveRelative dx dy modifiers _ => do
      syncModifiers modifiers
      guarded (.pointerRelative dx dy) "delta"
      modify countInjected
  | .mouseButton button action xNorm yNorm modifiers displayId _ => do
      let geom ← requireDisplay displayId
      syncModifiers modifiers
      -- The click carries its own coordinates: a preceding move may have been lost.
      guarded (.pointerAbsolute (geom.denormalise xNorm yNorm).1
        (geom.denormalise xNorm yNorm).2) "pointer"
      guarded (.button (mapButton button) (action == .down)) "button"
      modify countInjected
  | .mouseWheel deltaV deltaH modifiers _ _ => do
      syncModifiers modifiers
      guarded (.scroll deltaV deltaH) "scroll"
      modify countInjected
  | .keyEvent _ usageId action _ modifiers => do
      syncModifiers modifiers
      modify fun inj =>
        { inj with
          keys := if action != .up then (inj.keys.press usageId).2
            else (inj.keys.release usageId).2 }
      guarded (.key usageId (action != .up)) "usage_id"
      modify countInjected
  | .keyStateSync _ _ pressed => do
      let inj ← get
      set { inj with keys := (inj.keys.reconcile pressed).2 }
      (inj.keys.reconcile pressed).1.forM perform
      modify countInjected
  | .textInput commit _ text => do
      if commit then guarded (.text text) "text" else pure ()
      modify countInjected
  | _ => pure ()

/-- Applies one control frame.  Every arm has guards of its own in front of what it does. -/
def apply (grant : SessionGrant) (frame : ControlFrame) (nowMs : ℕ) : Inject GuardError Unit := do
  if (← get).localControl = .local then refuse .localUserActive
  else
    match frame.payload with
    | .mouseMove .. =>
        requireInput grant
        checkRate .pointer
        rateOk .pointer nowMs
        carryOut frame.payload
    | .mouseMoveRelative .. =>
        requireInput grant
        rateOk .pointer nowMs
        carryOut frame.payload
    | .mouseButton .. | .mouseWheel .. | .keyStateSync .. | .textInput .. =>
        requireInput grant
        rateOk .key nowMs
        carryOut frame.payload
    | .keyEvent usagePage usageId _ _ modifiers =>
        requireInput grant
        rateOk .key nowMs
        Program.check (usagePage = USAGE_PAGE_KEYBOARD) .disallowedUsage
        Program.check (Hid.isValidKeyboardUsage usageId = true ∧ Hid.lookup usageId ≠ none)
          .disallowedUsage
        requirePolicy modifiers usageId
        carryOut frame.payload
    | _ => pure ()

/-- Releases every held key. -/
def releaseAll : Inject BackendError ℕ := do
  let inj ← get
  let (actions, keys) := inj.keys.releaseAll
  set { inj with keys := keys }
  actions.forM fun action => attempt (.key action.usage false) id
  return actions.length

/-- Hands control to the physical user, or back to the remote peer.  Taking control releases every
held key. -/
def setLocalControl (control : LocalControl) : Inject BackendError Unit := do
  let inj ← get
  if control = .local ∧ inj.keys.held.isEmpty = false then
    let (actions, keys) := inj.keys.releaseAll
    set { inj with keys := keys }
    actions.forM fun action => attempt (.key action.usage action.isPress) id
  modify fun inj => { inj with localControl := control }

/-! ### What a call does -/

/-- The budget an event draws from; other frames are not the injector's business. -/
def eventClass : Payload → Option EventClass
  | .mouseMove .. | .mouseMoveRelative .. => some .pointer
  | .mouseButton .. | .mouseWheel .. | .keyEvent .. | .keyStateSync .. | .textInput .. => some .key
  | _ => none

/-- The checks of an event's own fields. -/
def FieldsOk (inj : Injector) : Payload → Prop
  | .mouseMove displayId _ _ _ _ => (inj.display displayId).isSome = true
  | .mouseButton _ _ _ _ _ displayId _ => (inj.display displayId).isSome = true
  | .keyEvent usagePage usageId _ _ modifiers =>
      usagePage = USAGE_PAGE_KEYBOARD ∧
        (Hid.isValidKeyboardUsage usageId = true ∧ Hid.lookup usageId ≠ none) ∧
        inj.policy.permits modifiers usageId = true
  | _ => True

instance (inj : Injector) : DecidablePred inj.FieldsOk := by
  intro payload
  cases payload <;> unfold FieldsOk <;> infer_instance

/-- An event of this class is within its budget. -/
def InBudget (inj : Injector) (cls : EventClass) (nowMs : ℕ) : Prop :=
  (inj.rate.allow cls nowMs).1 = true

instance (inj : Injector) (cls : EventClass) (nowMs : ℕ) : Decidable (inj.InBudget cls nowMs) :=
  inferInstanceAs (Decidable (_ = true))

/-- Every guard lets the event through. -/
structure Passes (inj : Injector) (grant : SessionGrant) (payload : Payload) (nowMs : ℕ) :
    Prop where
  remote : inj.localControl = .remote
  granted : grant.mayInjectInput = true
  budget : ∃ cls, eventClass payload = some cls ∧ inj.InBudget cls nowMs
  fields : inj.FieldsOk payload

/-- The injector after calls that all succeeded, made with the keys as they are. -/
def logged (inj : Injector) (calls : List BackendCall) : Injector :=
  { inj with
    backend :=
      { inj.backend with log := inj.backend.log ++ calls.map fun c => ⟨c, inj.keys, true⟩ } }

/-- The injector after `calls` that were made to reconcile the keys. -/
def reconciledBy (inj : Injector) (calls : List BackendCall) : Injector :=
  { inj with
    stats := { inj.stats with reconciled := inj.stats.reconciled + calls.length } }.logged calls

/-- The injector after an event of a class was counted. -/
def rated (inj : Injector) (cls : EventClass) (nowMs : ℕ) : Injector :=
  { inj with rate := (inj.rate.allow cls nowMs).2 }

/-- The injector after the modifiers an event no longer carries were released. -/
def synced (inj : Injector) (modifiers : UInt16) : Injector :=
  { inj with keys := (inj.keys.reconcileModifiers modifiers).2 }.reconciledBy
    ((inj.keys.lost modifiers).map fun usage => .key usage false)

/-- The injector after the key of an event went down or up. -/
def struck (inj : Injector) (usage : UInt16) (down : Bool) : Injector :=
  { inj with
    keys := if down then (inj.keys.press usage).2 else (inj.keys.release usage).2 }.logged
    [.key usage down]

/-- The injector after a snapshot of the keys. -/
def snapshotted (inj : Injector) (pressed : List UInt16) : Injector :=
  { inj with keys := (inj.keys.reconcile pressed).2 }.reconciledBy
    ((inj.keys.reconcile pressed).1.map fun action : KeyState.Action =>
      .key action.usage action.isPress)

/-- The injector after everything was released. -/
def released (inj : Injector) : Injector :=
  { inj with keys := .new }.logged
    (inj.keys.releaseAll.1.map fun action : KeyState.Action => .key action.usage false)

/-- The pointer moved to a place on a display. -/
def movedTo (inj : Injector) (displayId : UInt8) (xNorm yNorm : UInt16) : Injector :=
  match inj.display displayId with
  | some geom =>
      inj.logged [.pointerAbsolute (geom.denormalise xNorm yNorm).1
        (geom.denormalise xNorm yNorm).2]
  | none => inj

/-- What an event does to an injector whose guards let it through, if no call fails. -/
def effect (inj : Injector) : Payload → Injector
  | .mouseMove displayId _ xNorm yNorm modifiers =>
      (inj.synced modifiers).movedTo displayId xNorm yNorm
  | .mouseMoveRelative dx dy modifiers _ => (inj.synced modifiers).logged [.pointerRelative dx dy]
  | .mouseButton button action xNorm yNorm modifiers displayId _ =>
      ((inj.synced modifiers).movedTo displayId xNorm yNorm).logged
        [.button (mapButton button) (action == .down)]
  | .mouseWheel deltaV deltaH modifiers _ _ => (inj.synced modifiers).logged [.scroll deltaV deltaH]
  | .keyEvent _ usageId action _ modifiers => (inj.synced modifiers).struck usageId (action != .up)
  | .keyStateSync _ _ pressed => inj.snapshotted pressed
  | .textInput commit _ text => if commit then inj.logged [.text text] else inj
  | _ => inj

section Runs

variable {inj : Injector}

theorem run_attempt (h : inj.backend.NeverFails) (c : BackendCall) (asError : BackendError → ε) :
    (attempt c asError).run inj = .ok () (inj.logged [c]) := by
  simp only [EStateM.run, attempt, Backend.call, logged]
  rw [h]
  rfl

theorem run_send (h : inj.backend.NeverFails) (c : BackendCall) :
    (send c : Inject ε Unit).run inj = .ok () (inj.logged [c]) := by
  have hsend : (send c : Inject ε Unit).run inj
      = .ok () { inj with backend := (inj.backend.call c inj.keys).2 } := rfl
  rw [hsend, Backend.call, h]
  rfl

theorem logged_nil (inj : Injector) : inj.logged [] = inj := by
  simp [logged]

theorem logged_logged (inj : Injector) (calls more : List BackendCall) :
    (inj.logged calls).logged more = inj.logged (calls ++ more) := by
  simp [logged]

theorem foldl_logged (inj : Injector) (calls : List BackendCall) :
    calls.foldl (fun inj c => inj.logged [c]) inj = inj.logged calls := by
  induction calls generalizing inj with
  | nil => rw [List.foldl_nil, logged_nil]
  | cons c calls ih => rw [List.foldl_cons, ih, logged_logged, List.singleton_append]

theorem reconciledBy_nil (inj : Injector) : inj.reconciledBy [] = inj := by
  simp [reconciledBy, logged]

theorem reconciledBy_cons (inj : Injector) (c : BackendCall) (calls : List BackendCall) :
    inj.reconciledBy (c :: calls) = (inj.countReconciled.logged [c]).reconciledBy calls := by
  have hcount : inj.stats.reconciled + (calls.length + 1)
      = inj.stats.reconciled + 1 + calls.length := by omega
  simp [reconciledBy, logged, countReconciled, hcount]

theorem foldl_reconciled (inj : Injector) (calls : List BackendCall) :
    calls.foldl (fun inj c => inj.countReconciled.logged [c]) inj = inj.reconciledBy calls := by
  induction calls generalizing inj with
  | nil => rw [List.foldl_nil, reconciledBy_nil]
  | cons c calls ih => rw [List.foldl_cons, ih, reconciledBy_cons]

/-- A loop that makes one call a round. -/
theorem run_forM_attempt {γ : Type} (call : γ → BackendCall) (asError : BackendError → ε)
    (l : List γ) (h : inj.backend.NeverFails) :
    (l.forM fun a => attempt (call a) asError).run inj = .ok () (inj.logged (l.map call)) := by
  have hrun := Program.run_forM_eq_ok (fun inj a h => run_attempt h (call a) asError)
    (fun _ _ h => h) l h
  rw [hrun, ← foldl_logged, List.foldl_map]

/-- A loop that makes and counts one call a round. -/
theorem run_forM_reconcile {γ : Type} {call : γ → BackendCall} {f : γ → Inject ε PUnit}
    (hround : ∀ inj a, inj.backend.NeverFails →
      (f a).run inj = .ok () (inj.countReconciled.logged [call a]))
    (l : List γ) (h : inj.backend.NeverFails) :
    (l.forM f).run inj = .ok () (inj.reconciledBy (l.map call)) := by
  rw [Program.run_forM_eq_ok hround (fun _ _ h => h) l h, ← foldl_reconciled, List.foldl_map]

theorem run_syncModifiers (h : inj.backend.NeverFails) (modifiers : UInt16) :
    (syncModifiers modifiers).run inj = .ok () (inj.synced modifiers) := by
  have hkeys : ({ inj with keys := (inj.keys.reconcileModifiers modifiers).2 } :
      Injector).backend.NeverFails := h
  have hround : ∀ (inj : Injector) (action : KeyState.Action), inj.backend.NeverFails →
      (do modify countReconciled; send (.key action.usage false) : Inject GuardError PUnit).run inj
        = .ok () (inj.countReconciled.logged [.key action.usage false]) :=
    fun inj action h => run_send (show inj.countReconciled.backend.NeverFails from h) _
  have hloop := run_forM_reconcile hround (inj.keys.reconcileModifiers modifiers).1 hkeys
  have hcalls : (inj.keys.reconcileModifiers modifiers).1.map
      (fun action : KeyState.Action => BackendCall.key action.usage false)
      = (inj.keys.lost modifiers).map fun usage => .key usage false := by
    rw [KeyState.reconcileModifiers, List.map_map]
    rfl
  rw [hcalls] at hloop
  exact hloop

theorem run_perform (inj : Injector) (action : KeyState.Action) (h : inj.backend.NeverFails) :
    (perform action).run inj
      = .ok () (inj.countReconciled.logged [.key action.usage action.isPress]) :=
  run_attempt (show inj.countReconciled.backend.NeverFails from h) _ _

theorem run_requireInput {grant : SessionGrant} (h : grant.mayInjectInput = true) :
    (requireInput grant).run inj = .ok () inj := by
  rw [requireInput, if_pos h]
  rfl

theorem run_requireInput_of_not {grant : SessionGrant} (h : ¬ grant.mayInjectInput = true) :
    (requireInput grant).run inj = .error .inputNotGranted inj.countRefused := by
  rw [requireInput, if_neg h]
  rfl

theorem run_rateOk {cls : EventClass} {nowMs : ℕ} (h : inj.InBudget cls nowMs) :
    (rateOk cls nowMs).run inj = .ok () (inj.rated cls nowMs) := by
  have hrun : (rateOk cls nowMs).run inj
      = ((if (inj.rate.allow cls nowMs).1 then pure () else refuse .rateLimited :
          Inject GuardError Unit)).run (inj.rated cls nowMs) := rfl
  rw [InBudget] at h
  rw [hrun, if_pos h]
  rfl

theorem run_rateOk_of_not {cls : EventClass} {nowMs : ℕ} (h : ¬ inj.InBudget cls nowMs) :
    (rateOk cls nowMs).run inj = .error .rateLimited (inj.rated cls nowMs).countRefused := by
  have hrun : (rateOk cls nowMs).run inj
      = ((if (inj.rate.allow cls nowMs).1 then pure () else refuse .rateLimited :
          Inject GuardError Unit)).run (inj.rated cls nowMs) := rfl
  rw [InBudget] at h
  rw [hrun, if_neg h]
  rfl

theorem run_requirePolicy {modifiers usage : UInt16}
    (h : inj.policy.permits modifiers usage = true) :
    (requirePolicy modifiers usage).run inj = .ok () inj := by
  have hrun : (requirePolicy modifiers usage).run inj
      = (if inj.policy.permits modifiers usage = true then pure () else
          refuse .blockedCombination : Inject GuardError Unit).run inj := rfl
  rw [hrun, if_pos h]
  rfl

theorem run_requirePolicy_of_not {modifiers usage : UInt16}
    (h : ¬ inj.policy.permits modifiers usage = true) :
    (requirePolicy modifiers usage).run inj = .error .blockedCombination inj.countRefused := by
  have hrun : (requirePolicy modifiers usage).run inj
      = (if inj.policy.permits modifiers usage = true then pure () else
          refuse .blockedCombination : Inject GuardError Unit).run inj := rfl
  rw [hrun, if_neg h]
  rfl

theorem run_requireDisplay {id : UInt8} {geom : DisplayGeometry} (h : inj.display id = some geom) :
    (requireDisplay id).run inj = .ok geom inj := by
  have hrun : (requireDisplay id).run inj = (match inj.display id with
    | some geom => pure geom
    | none => throw .unknownDisplay : Inject GuardError DisplayGeometry).run inj := rfl
  rw [hrun, h]
  rfl

theorem run_requireDisplay_none {id : UInt8} (h : inj.display id = none) :
    (requireDisplay id).run inj = .error .unknownDisplay inj := by
  have hrun : (requireDisplay id).run inj = (match inj.display id with
    | some geom => pure geom
    | none => throw .unknownDisplay : Inject GuardError DisplayGeometry).run inj := rfl
  rw [hrun, h]
  rfl

/-- The injector after an event that the guards let through, if no call fails. -/
def after (inj : Injector) (payload : Payload) (nowMs : ℕ) : Injector :=
  match eventClass payload with
  | some cls => ((inj.rated cls nowMs).effect payload).countInjected
  | none => inj

theorem run_apply_of_local {grant : SessionGrant} {frame : ControlFrame} {nowMs : ℕ}
    (h : inj.localControl = .local) :
    (apply grant frame nowMs).run inj = .error .localUserActive inj.countRefused := by
  have hrun : (apply grant frame nowMs).run inj = (if inj.localControl = .local then
    refuse .localUserActive else _ : Inject GuardError Unit).run inj := rfl
  rw [hrun, if_pos h]
  rfl

theorem movedTo_neverFails {displayId : UInt8} {xNorm yNorm : UInt16}
    (h : inj.backend.NeverFails) : (inj.movedTo displayId xNorm yNorm).backend.NeverFails := by
  rw [movedTo]
  split
  · exact h
  · exact h

theorem run_check {c : Prop} [Decidable c] (h : c) {e : GuardError} :
    (Program.check c e : Inject GuardError Unit).run inj = .ok () inj := by
  rw [Program.check, if_pos h]
  rfl

theorem run_check_of_not {c : Prop} [Decidable c] (h : ¬ c) {e : GuardError} :
    (Program.check c e : Inject GuardError Unit).run inj = .error e inj := by
  rw [Program.check, if_neg h]
  rfl

theorem run_movedTo {displayId : UInt8} {xNorm yNorm : UInt16} {geom : DisplayGeometry}
    (h : inj.backend.NeverFails) (hgeom : inj.display displayId = some geom) :
    (guarded (.pointerAbsolute (geom.denormalise xNorm yNorm).1 (geom.denormalise xNorm yNorm).2)
      "pointer").run inj = .ok () (inj.movedTo displayId xNorm yNorm) := by
  rw [guarded, run_attempt h, movedTo, hgeom]

/-- The guards let an event that passes on to its second part, whatever the backend answers. -/
theorem run_apply_eq_run_carryOut {grant : SessionGrant} {frame : ControlFrame} {nowMs : ℕ}
    {cls : EventClass} (hpass : inj.Passes grant frame.payload nowMs)
    (hcls : eventClass frame.payload = some cls) :
    (apply grant frame nowMs).run inj = (carryOut frame.payload).run (inj.rated cls nowMs) := by
  obtain ⟨hremote, hgrant, ⟨cls', hcls', hbudget⟩, hfields⟩ := hpass
  rw [hcls] at hcls'
  cases hcls'
  obtain ⟨header, payload⟩ := frame
  have hrun : (apply grant ⟨header, payload⟩ nowMs).run inj = (if inj.localControl = .local then
    refuse .localUserActive else _ : Inject GuardError Unit).run inj := rfl
  rw [hrun, if_neg (by simp [hremote])]
  cases payload with
  | keyEvent usagePage usageId action flags modifiers =>
      cases hcls
      obtain ⟨hpage, husage, hpolicy⟩ := hfields
      refine (Program.run_bind_of_ok (run_requireInput hgrant)).trans ?_
      refine (Program.run_bind_of_ok (run_rateOk hbudget)).trans ?_
      refine (Program.run_bind_of_ok (run_check hpage)).trans ?_
      refine (Program.run_bind_of_ok (run_check husage)).trans ?_
      exact Program.run_bind_of_ok (run_requirePolicy
        (show (inj.rated .key nowMs).policy.permits modifiers usageId = true from hpolicy))
  | mouseMove | mouseMoveRelative | mouseButton | mouseWheel | keyStateSync | textInput =>
      cases hcls
      refine (Program.run_bind_of_ok (run_requireInput hgrant)).trans ?_
      exact Program.run_bind_of_ok (run_rateOk hbudget)
  | _ => cases hcls

/-- What an event asks for is done, if no call fails. -/
theorem run_carryOut {payload : Payload} (hb : inj.backend.NeverFails)
    (hclass : eventClass payload ≠ none) (hfields : inj.FieldsOk payload) :
    (carryOut payload).run inj = .ok () (inj.effect payload).countInjected := by
  have hsynced : ∀ modifiers, (inj.synced modifiers).backend.NeverFails := fun _ => hb
  cases payload with
  | mouseMove displayId flags xNorm yNorm modifiers =>
      obtain ⟨geom, hgeom⟩ := Option.isSome_iff_exists.1 hfields
      refine (Program.run_bind_of_ok (run_requireDisplay hgeom)).trans ?_
      refine (Program.run_bind_of_ok (run_syncModifiers hb modifiers)).trans ?_
      refine (Program.run_bind_of_ok (run_movedTo (hsynced modifiers) hgeom)).trans ?_
      rfl
  | mouseMoveRelative dx dy modifiers displayId =>
      refine (Program.run_bind_of_ok (run_syncModifiers hb modifiers)).trans ?_
      refine (Program.run_bind_of_ok (run_attempt (hsynced modifiers) _ _)).trans ?_
      rfl
  | mouseButton button action xNorm yNorm modifiers displayId clickCount =>
      obtain ⟨geom, hgeom⟩ := Option.isSome_iff_exists.1 hfields
      have hmoved := @movedTo_neverFails _ displayId xNorm yNorm (hsynced modifiers)
      refine (Program.run_bind_of_ok (run_requireDisplay hgeom)).trans ?_
      refine (Program.run_bind_of_ok (run_syncModifiers hb modifiers)).trans ?_
      refine (Program.run_bind_of_ok (run_movedTo (hsynced modifiers) hgeom)).trans ?_
      refine (Program.run_bind_of_ok (run_attempt hmoved _ _)).trans ?_
      rfl
  | mouseWheel deltaV deltaH modifiers displayId flags =>
      refine (Program.run_bind_of_ok (run_syncModifiers hb modifiers)).trans ?_
      refine (Program.run_bind_of_ok (run_attempt (hsynced modifiers) _ _)).trans ?_
      rfl
  | keyEvent usagePage usageId action flags modifiers =>
      refine (Program.run_bind_of_ok (run_syncModifiers hb modifiers)).trans ?_
      refine Program.run_modify_bind_eq_ok_iff.2 ?_
      refine (Program.run_bind_of_ok (run_attempt ?_ _ _)).trans ?_
      · exact hsynced modifiers
      · rfl
  | keyStateSync modifiers authoritative pressed =>
      have hkeys : ({ inj with keys := (inj.keys.reconcile pressed).2 } :
          Injector).backend.NeverFails := hb
      refine (Program.run_bind_of_ok (run_forM_reconcile run_perform
        (inj.keys.reconcile pressed).1 hkeys)).trans ?_
      rfl
  | textInput commit preedit text =>
      -- Text that is not committed yet is counted and goes nowhere.
      cases commit with
      | false => rfl
      | true => exact Program.run_bind_of_ok (run_attempt hb _ _)
  | _ => exact absurd rfl hclass

/-- **An event that passes.**  Over a backend that does not fail, an event that every guard lets
through is applied. -/
theorem run_apply_of_passes {grant : SessionGrant} {frame : ControlFrame} {nowMs : ℕ}
    (hb : inj.backend.NeverFails) (h : inj.Passes grant frame.payload nowMs) :
    (apply grant frame nowMs).run inj = .ok () (inj.after frame.payload nowMs) := by
  obtain ⟨cls, hcls, -⟩ := h.budget
  have hrated : (inj.rated cls nowMs).backend.NeverFails := hb
  have hfields : (inj.rated cls nowMs).FieldsOk frame.payload := h.fields
  have hclass : eventClass frame.payload ≠ none := by
    rw [hcls]
    exact Option.some_ne_none cls
  rw [run_apply_eq_run_carryOut h hcls, run_carryOut hrated hclass hfields, after, hcls]

/-- The checks left an injector alone, but for its budgets and counters. -/
def Untouched (inj inj' : Injector) : Prop :=
  inj' = { inj with rate := inj'.rate, stats := inj'.stats }

theorem untouched_refl : inj.Untouched inj := rfl

theorem untouched_countRefused : inj.Untouched inj.countRefused := rfl

theorem untouched_rated (cls : EventClass) (nowMs : ℕ) : inj.Untouched (inj.rated cls nowMs) := rfl

theorem untouched_rated_countRefused (cls : EventClass) (nowMs : ℕ) :
    inj.Untouched (inj.rated cls nowMs).countRefused := rfl

/-- The two guards every arm begins with: either one of them refuses, or both let the event on. -/
theorem run_guards (inj : Injector) (grant : SessionGrant) (cls : EventClass) (nowMs : ℕ)
    (rest : Inject GuardError Unit) :
    (∃ e inj', (do requireInput grant; rateOk cls nowMs; rest).run inj = .error e inj' ∧
        inj.Untouched inj') ∨
      (grant.mayInjectInput = true ∧ inj.InBudget cls nowMs ∧
        (do requireInput grant; rateOk cls nowMs; rest).run inj
          = rest.run (inj.rated cls nowMs)) := by
  by_cases hgrant : grant.mayInjectInput = true
  · by_cases hbudget : inj.InBudget cls nowMs
    · refine .inr ⟨hgrant, hbudget, ?_⟩
      rw [Program.run_bind_of_ok (run_requireInput hgrant),
        Program.run_bind_of_ok (run_rateOk hbudget)]
    · refine .inl ⟨.rateLimited, _, ?_, untouched_rated_countRefused cls nowMs⟩
      rw [Program.run_bind_of_ok (run_requireInput hgrant),
        Program.run_bind_of_error (run_rateOk_of_not hbudget)]
  · exact .inl ⟨_, _, Program.run_bind_of_error (run_requireInput_of_not hgrant),
      untouched_countRefused⟩

theorem run_guards_error {grant : SessionGrant} {cls : EventClass} {nowMs : ℕ}
    {rest : Inject GuardError Unit}
    (h : grant.mayInjectInput = true → ¬ inj.InBudget cls nowMs) :
    ∃ e inj', (do requireInput grant; rateOk cls nowMs; rest).run inj = .error e inj' ∧
      inj.Untouched inj' := by
  rcases run_guards inj grant cls nowMs rest with herr | ⟨hgrant, hbudget, -⟩
  · exact herr
  · exact absurd hbudget (h hgrant)

/-- An event that names a display which is not shared. -/
theorem run_guards_display_error {grant : SessionGrant} {cls : EventClass} {nowMs : ℕ} {id : UInt8}
    {rest : DisplayGeometry → Inject GuardError Unit}
    (h : grant.mayInjectInput = true → inj.InBudget cls nowMs → inj.display id = none) :
    ∃ e inj', (do
        requireInput grant; rateOk cls nowMs; let geom ← requireDisplay id; rest geom).run inj
          = .error e inj' ∧ inj.Untouched inj' := by
  -- Either a common guard refuses, or the display does.
  rcases run_guards inj grant cls nowMs (requireDisplay id >>= rest) with
    herr | ⟨hgrant, hbudget, hrest⟩
  · exact herr
  · have hnone : (inj.rated cls nowMs).display id = none := h hgrant hbudget
    exact ⟨_, _, hrest.trans (Program.run_bind_of_error (run_requireDisplay_none hnone)),
      untouched_rated cls nowMs⟩

/-- **An event that does not pass.**  Whatever the backend, an event that some guard holds back is
refused before the keys or the backend are touched. -/
theorem run_apply_of_not_passes {grant : SessionGrant} {frame : ControlFrame} {nowMs : ℕ}
    {cls : EventClass} (hcls : eventClass frame.payload = some cls)
    (h : ¬ inj.Passes grant frame.payload nowMs) :
    ∃ e inj', (apply grant frame nowMs).run inj = .error e inj' ∧ inj.Untouched inj' := by
  by_cases hlocal : inj.localControl = .local
  · exact ⟨_, _, run_apply_of_local hlocal, untouched_countRefused⟩
  obtain ⟨header, payload⟩ := frame
  have hremote : inj.localControl = .remote := by
    cases hctl : inj.localControl with
    | remote => rfl
    | «local» => exact absurd hctl hlocal
  have hfields : grant.mayInjectInput = true → inj.InBudget cls nowMs → ¬ inj.FieldsOk payload :=
    fun hgrant hbudget hfields => h ⟨hremote, hgrant, ⟨cls, hcls, hbudget⟩, hfields⟩
  have hrun : (apply grant ⟨header, payload⟩ nowMs).run inj = (if inj.localControl = .local then
    refuse .localUserActive else _ : Inject GuardError Unit).run inj := rfl
  rw [hrun, if_neg hlocal]
  -- An arm without checks of its own was stopped by one of the common guards.
  cases payload with
  | mouseMove displayId flags xNorm yNorm modifiers =>
      cases hcls
      exact run_guards_display_error fun hgrant hbudget =>
        Option.not_isSome_iff_eq_none.1 (hfields hgrant hbudget)
  | mouseMoveRelative dx dy modifiers displayId =>
      cases hcls
      exact run_guards_error fun hgrant hbudget => hfields hgrant hbudget trivial
  | mouseButton button action xNorm yNorm modifiers displayId clickCount =>
      cases hcls
      exact run_guards_display_error fun hgrant hbudget =>
        Option.not_isSome_iff_eq_none.1 (hfields hgrant hbudget)
  | mouseWheel deltaV deltaH modifiers displayId flags =>
      cases hcls
      exact run_guards_error fun hgrant hbudget => hfields hgrant hbudget trivial
  | keyEvent usagePage usageId action flags modifiers =>
      cases hcls
      rcases run_guards inj grant .key nowMs _ with herr | ⟨hgrant, hbudget, hrest⟩
      · exact herr
      · have hchecks := hfields hgrant hbudget
        by_cases hpage : usagePage = USAGE_PAGE_KEYBOARD
        · by_cases husage : Hid.isValidKeyboardUsage usageId = true ∧ Hid.lookup usageId ≠ none
          · have hpolicy : ¬ inj.policy.permits modifiers usageId = true :=
              fun hpolicy => hchecks ⟨hpage, husage, hpolicy⟩
            refine ⟨_, _, hrest.trans ((Program.run_bind_of_ok (run_check hpage)).trans
              ((Program.run_bind_of_ok (run_check husage)).trans
                (Program.run_bind_of_error (run_requirePolicy_of_not ?_)))), ?_⟩
            · exact hpolicy
            · exact untouched_rated_countRefused _ _
          · exact ⟨_, _, hrest.trans ((Program.run_bind_of_ok (run_check hpage)).trans
              (Program.run_bind_of_error (run_check_of_not husage))), untouched_rated _ _⟩
        · exact ⟨_, _, hrest.trans (Program.run_bind_of_error (run_check_of_not hpage)),
            untouched_rated _ _⟩
  | keyStateSync modifiers authoritative pressed =>
      cases hcls
      exact run_guards_error fun hgrant hbudget => hfields hgrant hbudget trivial
  | textInput commit preedit text =>
      cases hcls
      exact run_guards_error fun hgrant hbudget => hfields hgrant hbudget trivial
  | _ => cases hcls

/-- Frames that are no input events are accepted and ignored while the peer has control. -/
theorem run_apply_of_other {grant : SessionGrant} {frame : ControlFrame} {nowMs : ℕ}
    (hcls : eventClass frame.payload = none) (hremote : inj.localControl = .remote) :
    (apply grant frame nowMs).run inj = .ok () inj := by
  obtain ⟨header, payload⟩ := frame
  have hrun : (apply grant ⟨header, payload⟩ nowMs).run inj = (if inj.localControl = .local then
    refuse .localUserActive else _ : Inject GuardError Unit).run inj := rfl
  rw [hrun, if_neg (by simp [hremote])]
  cases payload <;> first | rfl | cases hcls

theorem releaseAll_of_isEmpty (h : inj.keys.held.isEmpty = true) : inj.released = inj := by
  have hheld : inj.keys = .new := by
    rw [KeyState.new, ← Std.ExtTreeSet.isEmpty_iff.1 h]
  have hnone : inj.keys.releaseAll.1 = [] := by
    rw [hheld]
    rfl
  rw [released, hnone, List.map_nil, logged_nil, ← hheld]

theorem run_releaseAll (h : inj.backend.NeverFails) :
    ∃ n, releaseAll.run inj = .ok n inj.released := by
  have hkeys : ({ inj with keys := .new } : Injector).backend.NeverFails := h
  exact ⟨_, Program.run_bind_of_ok (run_forM_attempt
    (fun action : KeyState.Action => .key action.usage false) id inj.keys.releaseAll.1 hkeys)⟩

theorem run_setLocalControl_local (h : inj.backend.NeverFails) :
    (setLocalControl .local).run inj = .ok () { inj.released with localControl := .local } := by
  have hrun : (setLocalControl .local).run inj
      = (if LocalControl.local = .local ∧ inj.keys.held.isEmpty = false then _ else _ :
          Inject BackendError Unit).run inj := rfl
  by_cases hempty : inj.keys.held.isEmpty = true
  · rw [hrun, if_neg (by simp [hempty]), releaseAll_of_isEmpty hempty]
    rfl
  · rw [hrun, if_pos ⟨rfl, by simpa using hempty⟩]
    have hcalls : inj.keys.releaseAll.1.map
        (fun action : KeyState.Action => BackendCall.key action.usage action.isPress)
        = inj.keys.releaseAll.1.map fun action : KeyState.Action => .key action.usage false := by
      rw [KeyState.releaseAll, List.map_map, List.map_map]
      rfl
    have hkeys : ({ inj with keys := .new } : Injector).backend.NeverFails := h
    refine (Program.run_bind_of_ok (run_forM_attempt
      (fun action : KeyState.Action => .key action.usage action.isPress) id
      inj.keys.releaseAll.1 hkeys)).trans ?_
    rw [hcalls]
    rfl

end Runs

/-! ### Calls -/

/-- A call to the injector. -/
inductive Call
  | apply (grant : SessionGrant) (frame : ControlFrame) (nowMs : ℕ)
  | setLocalControl (control : LocalControl)
  | setDisplays (displays : List DisplayGeometry)
  | releaseAll

/-- The injector after a call, whatever the call answered. -/
def step (inj : Injector) : Call → Injector
  | .apply grant frame nowMs => Program.final (Injector.apply grant frame nowMs) inj
  | .setLocalControl control => Program.final (Injector.setLocalControl control) inj
  | .setDisplays displays => inj.setDisplays displays
  | .releaseAll => Program.final Injector.releaseAll inj

section Steps

variable {inj : Injector} {grant : SessionGrant} {frame : ControlFrame} {nowMs : ℕ}

theorem step_apply_of_passes (hb : inj.backend.NeverFails)
    (h : inj.Passes grant frame.payload nowMs) :
    inj.step (.apply grant frame nowMs) = inj.after frame.payload nowMs :=
  Program.final_of_ok (run_apply_of_passes hb h)

theorem step_apply_of_not_passes (h : ¬ inj.Passes grant frame.payload nowMs) :
    inj.Untouched (inj.step (.apply grant frame nowMs)) := by
  cases hcls : eventClass frame.payload with
  | some cls =>
      obtain ⟨e, inj', hrun, huntouched⟩ := run_apply_of_not_passes hcls h
      rw [step, Program.final_of_error hrun]
      exact huntouched
  | none =>
      cases hctl : inj.localControl with
      | remote =>
          rw [step, Program.final_of_ok (run_apply_of_other hcls hctl)]
          exact untouched_refl
      | «local» =>
          rw [step, Program.final_of_error (run_apply_of_local hctl)]
          exact untouched_countRefused

theorem step_releaseAll (hb : inj.backend.NeverFails) : inj.step .releaseAll = inj.released := by
  obtain ⟨n, hrun⟩ := run_releaseAll hb
  exact Program.final_of_ok hrun

theorem step_setLocalControl_local (hb : inj.backend.NeverFails) :
    inj.step (.setLocalControl .local) = { inj.released with localControl := .local } :=
  Program.final_of_ok (run_setLocalControl_local hb)

theorem effect_answers (inj : Injector) (payload : Payload) :
    (inj.effect payload).backend.answers = inj.backend.answers := by
  cases payload with
  | mouseMove | mouseButton =>
      simp only [effect, movedTo]
      split <;> rfl
  | textInput commit preedit text =>
      cases commit <;> rfl
  | _ => rfl

theorem after_answers (inj : Injector) (payload : Payload) (nowMs : ℕ) :
    (inj.after payload nowMs).backend.answers = inj.backend.answers := by
  rw [after]
  split
  · exact effect_answers _ payload
  · rfl

/-- A backend that does not fail stays one. -/
theorem neverFails_step (hb : inj.backend.NeverFails) (call : Call) :
    (inj.step call).backend.NeverFails := by
  cases call with
  | apply grant frame nowMs =>
      by_cases hpass : inj.Passes grant frame.payload nowMs
      · rw [step_apply_of_passes hb hpass, Backend.NeverFails, after_answers]
        exact hb
      · rw [step_apply_of_not_passes hpass]
        exact hb
  | setLocalControl control =>
      cases control with
      | remote => exact hb
      | «local» =>
          rw [step_setLocalControl_local hb]
          exact hb
  | setDisplays displays => exact hb
  | releaseAll =>
      rw [step_releaseAll hb]
      exact hb

end Steps

end Injector

/-- A grant. -/
def Sample.grant (input : Bool) : SessionGrant :=
  .issue "sess_1" ((Sample.device 1).deviceId .sample) { SessionCaps.viewOnly with input := input }
    .sessionPin 0

/-- An injector over a backend that does not fail, with one display. -/
def Sample.injector : Injector := .new (.new fun _ => .ok ()) [⟨0, 0, 0, 1920, 1080⟩]

/-- A call that hands one event over, with the input granted. -/
def Sample.event (payload : Payload) (nowMs : ℕ) : Injector.Call :=
  .apply (Sample.grant true) (.new payload 0 0) nowMs

end Rda
