/-
**What is down at the machine.**

A key or a mouse button is down at the machine if the last call for it pressed it.  The injector
releases what it tracks as held, so that nothing stays down after a release exactly when everything
that is down is tracked.  Two kinds of events bring something down that is not tracked: a mouse
button, and a key that is pressed while the key state is full.

Main definitions:

* `Rda.Switch` — a key or a mouse button;
* `Rda.Injector.down` — whether it is down at the machine;
* `Rda.Injector.Tracked` — everything that is down is tracked as held;
* `Rda.Injector.Trackable` — the calls that bring nothing down that is not tracked.

Main results:

* `Rda.Injector.nothingStuck_iff_tracked` — a release leaves nothing down exactly when everything
  that is down is tracked;
* `Rda.Injector.nothingStuck_iff_trackable` — **nothing gets stuck** all along a run exactly when
  every call of the run is trackable;
* `Rda.Injector.up_after_release_iff` — **a release that was asked for** takes place exactly when
  the guards let it through.
-/

import Rda.Injector

set_option relaxedAutoImplicit false
set_option autoImplicit false

namespace Rda

/-! ### Down and up -/

/-- Something that is down or up. -/
inductive Switch
  | key (usage : UInt16)
  | button (button : Button)
  deriving DecidableEq

/-- Whether a switch is down after a call, given whether it was before. -/
def BackendCall.strike (x : Switch) (wasDown : Bool) : BackendCall → Bool
  | .key usage down => if x = .key usage then down else wasDown
  | .button which down => if x = .button which then down else wasDown
  | _ => wasDown

/-- Whether a switch is down after the calls of a log; a call that failed changes nothing. -/
def downAfter (log : List LogEntry) (x : Switch) : Bool :=
  log.foldl (fun down e => if e.ok then e.call.strike x down else down) false

namespace Injector

/-- Whether a switch is down at the machine. -/
def down (inj : Injector) (x : Switch) : Bool := downAfter inj.backend.log x

theorem down_logged (inj : Injector) (calls : List BackendCall) (x : Switch) :
    (inj.logged calls).down x = calls.foldl (fun down c => c.strike x down) (inj.down x) := by
  rw [down, logged, downAfter, List.foldl_append, List.foldl_map]
  rfl

/-- Striking a list of keys: the ones on the list change, the others do not. -/
theorem foldl_strike_keys (usages : List UInt16) (d : Bool) (x : Switch) (wasDown : Bool) :
    (usages.map fun usage => BackendCall.key usage d).foldl (fun down c => c.strike x down) wasDown
      = if ∃ usage ∈ usages, x = .key usage then d else wasDown := by
  induction usages generalizing wasDown with
  | nil => simp
  | cons usage usages ih =>
      rw [List.map_cons, List.foldl_cons, ih]
      by_cases hx : x = .key usage
      · subst hx
        simp [BackendCall.strike]
      · simp [BackendCall.strike, hx]

theorem down_released_keys {inj : Injector} {usages : List UInt16} {x : Switch} :
    (inj.logged (usages.map fun usage => .key usage false)).down x = true ↔
      inj.down x = true ∧ ∀ usage ∈ usages, x ≠ .key usage := by
  rw [down_logged, foldl_strike_keys]
  by_cases h : ∃ usage ∈ usages, x = .key usage
  · rw [if_pos h]
    obtain ⟨usage, hmem, hx⟩ := h
    exact iff_of_false Bool.false_ne_true fun hn => hn.2 usage hmem hx
  · rw [if_neg h]
    refine ⟨fun hdown => ⟨hdown, fun usage hmem hx => h ⟨usage, hmem, hx⟩⟩, And.left⟩

theorem down_synced {inj : Injector} {modifiers : UInt16} {x : Switch} :
    (inj.synced modifiers).down x = true ↔
      inj.down x = true ∧ ∀ usage ∈ inj.keys.lost modifiers, x ≠ .key usage :=
  down_released_keys

theorem down_movedTo (inj : Injector) (displayId : UInt8) (xNorm yNorm : UInt16) (x : Switch) :
    (inj.movedTo displayId xNorm yNorm).down x = inj.down x := by
  rw [movedTo]
  split
  · rw [down_logged]
    rfl
  · rfl

theorem keys_movedTo (inj : Injector) (displayId : UInt8) (xNorm yNorm : UInt16) :
    (inj.movedTo displayId xNorm yNorm).keys = inj.keys := by
  rw [movedTo]
  split <;> rfl

theorem down_struck (inj : Injector) (usage : UInt16) (d : Bool) (x : Switch) :
    (inj.struck usage d).down x = if x = .key usage then d else inj.down x := by
  rw [struck, down_logged]
  rfl

theorem mem_releaseAll {s : KeyState} {usage : UInt16} :
    (∃ action ∈ s.releaseAll.1, action.usage = usage) ↔ usage ∈ s.held := by
  constructor
  · rintro ⟨action, haction, rfl⟩
    obtain ⟨u, hu, rfl⟩ := KeyState.mem_releaseAll.1 haction
    exact hu
  · intro h
    exact ⟨.release usage, KeyState.mem_releaseAll.2 ⟨usage, h, rfl⟩, rfl⟩

theorem down_released {inj : Injector} {x : Switch} :
    inj.released.down x = true ↔ inj.down x = true ∧ ∀ usage ∈ inj.keys.held, x ≠ .key usage := by
  have hcalls : inj.keys.releaseAll.1.map
      (fun action : KeyState.Action => BackendCall.key action.usage false)
      = (inj.keys.releaseAll.1.map KeyState.Action.usage).map fun usage => .key usage false := by
    rw [List.map_map]
    rfl
  rw [released, hcalls, down_released_keys]
  refine and_congr Iff.rfl ⟨?_, ?_⟩
  · intro h usage hmem
    exact h usage (List.mem_map.2 (mem_releaseAll.2 hmem))
  · intro h usage hmem
    exact h usage (mem_releaseAll.1 (List.mem_map.1 hmem))

theorem down_snapshotted {inj : Injector} {pressed : List UInt16} {x : Switch} :
    (inj.snapshotted pressed).down x = true ↔
      (∃ usage ∈ KeyState.target pressed, usage ∉ inj.keys.held ∧ x = .key usage) ∨
        inj.down x = true ∧
          ∀ usage ∈ inj.keys.held, usage ∉ KeyState.target pressed → x ≠ .key usage := by
  have hcalls : (inj.keys.reconcile pressed).1.map
      (fun action : KeyState.Action => BackendCall.key action.usage action.isPress)
      = ((inj.keys.held.toList.filter fun usage => !(KeyState.target pressed).contains usage).map
          fun usage => .key usage false) ++
        ((KeyState.target pressed).toList.filter fun usage => !inj.keys.held.contains usage).map
          fun usage => .key usage true := by
    rw [KeyState.reconcile, List.map_append, List.map_map, List.map_map]
    rfl
  rw [snapshotted, reconciledBy, hcalls, ← logged_logged, down_logged, foldl_strike_keys]
  split_ifs with hpress
  · obtain ⟨usage, hmem, hx⟩ := hpress
    obtain ⟨htarget, hheld⟩ := KeyState.mem_filter_not_contains.1 hmem
    exact iff_of_true rfl (.inl ⟨usage, htarget, hheld, hx⟩)
  · rw [down_released_keys]
    have hnot : ¬ ∃ usage ∈ KeyState.target pressed, usage ∉ inj.keys.held ∧ x = .key usage := by
      rintro ⟨usage, htarget, hheld, hx⟩
      exact hpress ⟨usage, KeyState.mem_filter_not_contains.2 ⟨htarget, hheld⟩, hx⟩
    rw [or_iff_right hnot]
    simp only [KeyState.mem_filter_not_contains, and_imp]
    rfl

/-! ### What is tracked -/

/-- Everything that is down is a key tracked as held. -/
def Tracked (inj : Injector) : Prop :=
  ∀ x, inj.down x = true → ∃ usage ∈ inj.keys.held, x = .key usage

/-- Neither releasing everything nor handing control to the physical user leaves anything down. -/
def NothingStuck (inj : Injector) : Prop :=
  (∀ x, (inj.step .releaseAll).down x = false) ∧
    ∀ x, (inj.step (.setLocalControl .local)).down x = false

theorem not_down_released_iff_tracked {inj : Injector} :
    (∀ x, inj.released.down x = false) ↔ inj.Tracked := by
  constructor
  · intro h x hx
    by_contra hn
    have hdown : inj.released.down x = true :=
      down_released.2 ⟨hx, fun usage hmem hkey => hn ⟨usage, hmem, hkey⟩⟩
    rw [h x] at hdown
    cases hdown
  · intro h x
    rw [← Bool.not_eq_true, down_released]
    rintro ⟨hx, hkeys⟩
    obtain ⟨usage, hmem, hkey⟩ := h x hx
    exact hkeys usage hmem hkey

/-- Over a backend that does not fail, a release leaves nothing down exactly when everything that is
down is tracked. -/
theorem nothingStuck_iff_tracked {inj : Injector} (hb : inj.backend.NeverFails) :
    inj.NothingStuck ↔ inj.Tracked := by
  rw [NothingStuck, step_releaseAll hb, step_setLocalControl_local hb,
    ← not_down_released_iff_tracked]
  exact and_self_iff

/-- The event brings nothing down that is not tracked: it presses no mouse button, and if it is a
key going down, the key is held already or there is room for it. -/
def EventTrackable (inj : Injector) : Payload → Prop
  | .mouseButton _ action _ _ _ _ _ => action ≠ .down
  | .keyEvent _ usageId action _ modifiers =>
      action ≠ .up →
        (inj.keys.reconcileModifiers modifiers).2.held.size < MAX_HELD_KEYS ∨
          usageId ∈ (inj.keys.reconcileModifiers modifiers).2.held
  | _ => True

/-- The call brings nothing down that is not tracked, because a guard holds it back or because of
what it asks for. -/
def Trackable (inj : Injector) : Call → Prop
  | .apply grant frame nowMs =>
      inj.Passes grant frame.payload nowMs → inj.EventTrackable frame.payload
  | _ => True

theorem tracked_synced {inj : Injector} (h : inj.Tracked) (modifiers : UInt16) :
    (inj.synced modifiers).Tracked := by
  intro x hx
  obtain ⟨hdown, hlost⟩ := down_synced.1 hx
  obtain ⟨usage, hmem, rfl⟩ := h x hdown
  exact ⟨usage, KeyState.mem_reconcileModifiers.2 ⟨hmem, fun hl => hlost usage hl rfl⟩, rfl⟩

theorem tracked_movedTo {inj : Injector} (h : inj.Tracked) (displayId : UInt8)
    (xNorm yNorm : UInt16) : (inj.movedTo displayId xNorm yNorm).Tracked := by
  intro x hx
  rw [down_movedTo] at hx
  rw [keys_movedTo]
  exact h x hx

theorem tracked_snapshotted {inj : Injector} (h : inj.Tracked) (pressed : List UInt16) :
    (inj.snapshotted pressed).Tracked := by
  intro x hx
  rcases down_snapshotted.1 hx with ⟨usage, htarget, -, rfl⟩ | ⟨hdown, hkept⟩
  · exact ⟨usage, htarget, rfl⟩
  · obtain ⟨usage, hmem, rfl⟩ := h x hdown
    refine ⟨usage, ?_, rfl⟩
    by_contra htarget
    exact hkept usage hmem htarget rfl

theorem tracked_struck_down_iff {inj : Injector} (h : inj.Tracked) (usage : UInt16) :
    (inj.struck usage true).Tracked ↔
      inj.keys.held.size < MAX_HELD_KEYS ∨ usage ∈ inj.keys.held := by
  constructor
  · intro htracked
    obtain ⟨u, hmem, hu⟩ := htracked (.key usage) (by rw [down_struck, if_pos rfl])
    cases hu
    by_contra hfull
    rw [not_or, not_lt] at hfull
    have hkeys : (inj.struck usage true).keys = (inj.keys.press usage).2 := rfl
    rw [hkeys, KeyState.press_of_full hfull.1 hfull.2] at hmem
    exact hfull.2 hmem
  · intro hroom x hx
    rw [down_struck] at hx
    split_ifs at hx with hkey
    · exact ⟨usage, (KeyState.mem_press_of_room hroom).2 (.inl rfl), hkey⟩
    · obtain ⟨u, hmem, rfl⟩ := h x hx
      exact ⟨u, KeyState.mem_press_of_mem hmem, rfl⟩

theorem tracked_struck_up {inj : Injector} (h : inj.Tracked) (usage : UInt16) :
    (inj.struck usage false).Tracked := by
  intro x hx
  rw [down_struck] at hx
  split_ifs at hx with hkey
  obtain ⟨u, hmem, rfl⟩ := h x hx
  exact ⟨u, KeyState.mem_release.2 ⟨fun hu => hkey (by rw [hu]), hmem⟩, rfl⟩

/-- A call that strikes nothing. -/
theorem tracked_logged {inj : Injector} (h : inj.Tracked) {c : BackendCall}
    (hc : ∀ x d, c.strike x d = d) : (inj.logged [c]).Tracked := by
  intro x hx
  rw [down_logged, List.foldl_cons, hc] at hx
  exact h x hx

theorem tracked_logged_button_iff {inj : Injector} (h : inj.Tracked) (button : Button) (d : Bool) :
    (inj.logged [.button button d]).Tracked ↔ d = false := by
  constructor
  · intro htracked
    by_contra hd
    have hdown : (inj.logged [.button button d]).down (.button button) = true := by
      rw [down_logged]
      simpa [BackendCall.strike] using hd
    obtain ⟨usage, -, hkey⟩ := htracked _ hdown
    cases hkey
  · rintro rfl x hx
    rw [down_logged, List.foldl_cons, List.foldl_nil, BackendCall.strike] at hx
    split_ifs at hx
    exact h x hx

/-- An event that is let through leaves everything tracked exactly when it is trackable. -/
theorem tracked_effect_iff {inj : Injector} (h : inj.Tracked) (payload : Payload) :
    (inj.effect payload).Tracked ↔ inj.EventTrackable payload := by
  have hsynced := tracked_synced h
  cases payload with
  | mouseMove displayId flags xNorm yNorm modifiers =>
      exact iff_of_true (tracked_movedTo (hsynced modifiers) displayId xNorm yNorm) trivial
  | mouseMoveRelative dx dy modifiers displayId =>
      exact iff_of_true (tracked_logged (hsynced modifiers) fun _ _ => rfl) trivial
  | mouseButton button action xNorm yNorm modifiers displayId clickCount =>
      rw [effect, tracked_logged_button_iff
        (tracked_movedTo (hsynced modifiers) displayId xNorm yNorm)]
      exact beq_eq_false_iff_ne
  | mouseWheel deltaV deltaH modifiers displayId flags =>
      exact iff_of_true (tracked_logged (hsynced modifiers) fun _ _ => rfl) trivial
  | keyEvent usagePage usageId action flags modifiers =>
      rw [effect, EventTrackable]
      by_cases hup : action = .up
      · subst hup
        exact iff_of_true (tracked_struck_up (hsynced modifiers) usageId) fun hn => absurd rfl hn
      · rw [bne_iff_ne.2 hup, tracked_struck_down_iff (hsynced modifiers)]
        exact ⟨fun hroom _ => hroom, fun hroom => hroom hup⟩
  | keyStateSync modifiers authoritative pressed =>
      exact iff_of_true (tracked_snapshotted h pressed) trivial
  | textInput commit preedit text =>
      refine iff_of_true ?_ trivial
      cases commit with
      | false => exact h
      | true => exact tracked_logged h fun _ _ => rfl
  | _ => exact iff_of_true h trivial

/-- A call leaves everything tracked exactly when it is trackable. -/
theorem tracked_step_iff {inj : Injector} (hb : inj.backend.NeverFails) (h : inj.Tracked)
    (call : Call) : (inj.step call).Tracked ↔ inj.Trackable call := by
  have hreleased : inj.released.Tracked := by
    intro x hx
    rw [not_down_released_iff_tracked.2 h x] at hx
    cases hx
  cases call with
  | apply grant frame nowMs =>
      by_cases hpass : inj.Passes grant frame.payload nowMs
      · obtain ⟨cls, hcls, -⟩ := hpass.budget
        rw [step_apply_of_passes hb hpass, after, hcls, Trackable, imp_iff_right hpass]
        exact tracked_effect_iff (show (inj.rated cls nowMs).Tracked from h) frame.payload
      · rw [step_apply_of_not_passes hpass, Trackable]
        exact iff_of_true h fun hn => absurd hn hpass
  | setLocalControl control =>
      refine iff_of_true ?_ trivial
      cases control with
      | remote => exact h
      | «local» =>
          rw [step_setLocalControl_local hb]
          exact hreleased
  | setDisplays displays => exact iff_of_true h trivial
  | releaseAll =>
      rw [step_releaseAll hb]
      exact iff_of_true hreleased trivial

/-- An injector over a backend that nobody has called yet. -/
def Fresh (inj : Injector) : Prop := inj.backend.log = [] ∧ inj.keys = .new

theorem tracked_of_fresh {inj : Injector} (h : inj.Fresh) : inj.Tracked := by
  intro x hx
  rw [down, h.1] at hx
  cases hx

/-- **Nothing gets stuck** all along a run exactly when no call of the run brings something down
that is not tracked. -/
theorem nothingStuck_iff_trackable {inj : Injector} (hfresh : inj.Fresh)
    (hb : inj.backend.NeverFails) (calls : List Call) :
    (∀ js, js <+: calls → (Machine.run step inj js).NothingStuck) ↔
      Machine.Along step Trackable inj calls := by
  refine Machine.forall_prefix_iff_along (fun inj => inj.backend.NeverFails ∧ inj.Tracked)
    NothingStuck ?_ ?_ ?_ ⟨hb, tracked_of_fresh hfresh⟩ calls
  · rintro inj ⟨hb, htracked⟩
    exact (nothingStuck_iff_tracked hb).2 htracked
  · rintro inj call ⟨hb, htracked⟩ hgood
    exact ⟨neverFails_step hb call, (tracked_step_iff hb htracked call).2 hgood⟩
  · rintro inj call ⟨hb, htracked⟩ hbad hstuck
    rw [nothingStuck_iff_tracked (neverFails_step hb call), tracked_step_iff hb htracked] at hstuck
    exact hbad hstuck

/-- The conditions of `nothingStuck_iff_trackable` on a run that types one letter. -/
theorem nothingStuck_of_one_letter :
    Machine.Along step Trackable Sample.injector
      [Sample.event (.keyEvent USAGE_PAGE_KEYBOARD 0x04 .down 0 0) 0] ∧
    ∀ js, js <+: [Sample.event (.keyEvent USAGE_PAGE_KEYBOARD 0x04 .down 0 0) 0] →
      (Machine.run step Sample.injector js).NothingStuck := by
  have halong : Machine.Along step Trackable Sample.injector
      [Sample.event (.keyEvent USAGE_PAGE_KEYBOARD 0x04 .down 0 0) 0] :=
    ⟨fun _ _ => .inl (by decide), trivial⟩
  exact ⟨halong, (nothingStuck_iff_trackable ⟨rfl, rfl⟩ (fun _ => rfl) _).2 halong⟩

/-- The letters and digits, and a few keys more: one key more than is tracked. -/
def Sample.manyKeys : List Call :=
  (List.range 33).map fun i =>
    Sample.event (.keyEvent USAGE_PAGE_KEYBOARD (.ofNat (4 + i)) .down 0 0) 0

/-- A mouse button that was pressed stays down when everything is released, and so does the last of
33 keys. -/
theorem button_and_key_stuck :
    Sample.injector.Fresh ∧ Sample.injector.backend.NeverFails ∧
      ¬ (Machine.run step Sample.injector
        [Sample.event (.mouseButton .left .down 0 0 0 0 1) 0]).NothingStuck ∧
      ¬ (Machine.run step Sample.injector Sample.manyKeys).NothingStuck := by
  refine ⟨⟨rfl, rfl⟩, fun _ => rfl, ?_, ?_⟩
  · intro h
    have hstuck := h.1 (.button .left)
    revert hstuck
    decide
  · intro h
    have hstuck := h.1 (.key 36)
    revert hstuck
    decide +kernel

/-! ### Releases -/

/-- What a frame releases: a key whose event is `up`, or a mouse button. -/
def releaseOf : Payload → Option Switch
  | .keyEvent _ usageId .up _ _ => some (.key usageId)
  | .mouseButton button .up _ _ _ _ _ => some (.button (mapButton button))
  | _ => none

theorem up_after_effect {inj : Injector} {payload : Payload} {x : Switch}
    (h : releaseOf payload = some x) : (inj.effect payload).down x = false := by
  cases payload with
  | keyEvent usagePage usageId action flags modifiers =>
      cases action with
      | up =>
          cases h
          exact (down_struck _ _ _ _).trans (if_pos rfl)
      | _ => cases h
  | mouseButton button action xNorm yNorm modifiers displayId clickCount =>
      cases action with
      | up =>
          cases h
          rw [effect, down_logged]
          exact if_pos rfl
      | _ => cases h
  | _ => cases h

theorem up_after_step_iff {inj : Injector} {grant : SessionGrant} {frame : ControlFrame}
    {nowMs : ℕ} {x : Switch} (hb : inj.backend.NeverFails)
    (hrelease : releaseOf frame.payload = some x) (hdown : inj.down x = true) :
    (inj.step (.apply grant frame nowMs)).down x = false ↔
      inj.Passes grant frame.payload nowMs := by
  by_cases hpass : inj.Passes grant frame.payload nowMs
  · obtain ⟨cls, hcls, -⟩ := hpass.budget
    rw [step_apply_of_passes hb hpass, after, hcls]
    exact iff_of_true (up_after_effect hrelease) hpass
  · refine iff_of_false ?_ hpass
    rw [step_apply_of_not_passes hpass]
    exact fun hup => Bool.false_ne_true (hup.symm.trans hdown)

theorem eventClass_of_releaseOf {payload : Payload} {x : Switch} (h : releaseOf payload = some x) :
    eventClass payload = some .key := by
  cases payload with
  | keyEvent | mouseButton => rfl
  | _ => cases h

theorem neverFails_run {inj : Injector} (hb : inj.backend.NeverFails) (calls : List Call) :
    (Machine.run step inj calls).backend.NeverFails :=
  Machine.run_invariant (fun inj : Injector => inj.backend.NeverFails)
    (fun _ call hb => neverFails_step hb call) hb calls

/-- **A release that was asked for.**  At any point of a run over a backend that does not fail, a
key or a button that is down is up after its release arrived, in a session that grants input and
while the peer has control, exactly when the release is within its budget and its fields are in
order: the display of a button event is known, and the key of a key event is one of the table that
the policy permits with the modifiers the event carries. -/
theorem up_after_release_iff {inj : Injector} {calls : List Call} {grant : SessionGrant}
    {frame : ControlFrame} {nowMs : ℕ} {x : Switch} (hb : inj.backend.NeverFails)
    (hgrant : grant.mayInjectInput = true)
    (hremote : (Machine.run step inj calls).localControl = .remote)
    (hrelease : releaseOf frame.payload = some x)
    (hdown : (Machine.run step inj calls).down x = true) :
    ((Machine.run step inj calls).step (.apply grant frame nowMs)).down x = false ↔
      (Machine.run step inj calls).InBudget .key nowMs ∧
        (Machine.run step inj calls).FieldsOk frame.payload := by
  rw [up_after_step_iff (neverFails_run hb calls) hrelease hdown]
  constructor
  · intro hpass
    obtain ⟨cls, hcls, hbudget⟩ := hpass.budget
    rw [eventClass_of_releaseOf hrelease] at hcls
    cases hcls
    exact ⟨hbudget, hpass.fields⟩
  · rintro ⟨hbudget, hfields⟩
    exact ⟨hremote, hgrant, ⟨.key, eventClass_of_releaseOf hrelease, hbudget⟩, hfields⟩

/-- A letter that was typed is released. -/
theorem up_after_release_of_one_letter :
    (Machine.run step Sample.injector
      [Sample.event (.keyEvent USAGE_PAGE_KEYBOARD 0x04 .down 0 0) 0]).down (.key 0x04) = true ∧
    ((Machine.run step Sample.injector
      [Sample.event (.keyEvent USAGE_PAGE_KEYBOARD 0x04 .down 0 0) 0]).step
        (Sample.event (.keyEvent USAGE_PAGE_KEYBOARD 0x04 .up 0 0) 1)).down (.key 0x04)
        = false := by
  have hdown : (Machine.run step Sample.injector
      [Sample.event (.keyEvent USAGE_PAGE_KEYBOARD 0x04 .down 0 0) 0]).down (.key 0x04) = true := by
    decide
  refine ⟨hdown, (up_after_release_iff (fun _ => rfl) rfl ?_ rfl hdown).2 ⟨?_, ?_⟩⟩
  · decide
  · decide
  · decide

/-- A release that exceeds the budget of one event per second is dropped. -/
theorem release_dropped :
    ¬ ∀ (inj : Injector) (calls : List Call) (grant : SessionGrant) (frame : ControlFrame)
        (nowMs : ℕ) (x : Switch), inj.Fresh → inj.backend.NeverFails →
      grant.mayInjectInput = true → (Machine.run step inj calls).localControl = .remote →
      releaseOf frame.payload = some x → (Machine.run step inj calls).down x = true →
      ((Machine.run step inj calls).step (.apply grant frame nowMs)).down x = false := by
  intro h
  have hup := h (Sample.injector.withRateLimits { keyPerS := 1 })
    [Sample.event (.keyEvent USAGE_PAGE_KEYBOARD 0x04 .down 0 0) 0] (Sample.grant true)
    (.new (.keyEvent USAGE_PAGE_KEYBOARD 0x04 .up 0 0) 0 0) 1 (.key 0x04) ⟨rfl, rfl⟩ (fun _ => rfl)
    rfl (by decide) rfl (by decide)
  revert hup
  decide

end Injector

end Rda
