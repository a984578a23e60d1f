/-
**What the guards guarantee.**

A call to the machine's input API is made only for an event that every guard let through, whatever
the backend answers.  The policy over key combinations is the weaker guard: it reads the modifiers
that the event carries, and it is not asked about a snapshot of the keys, so that a combination that
it blocks is kept from the machine only in runs whose events avoid these two cases.

Main definitions:

* `Rda.Injector.calling` — the injector after one call, whatever it answered;
* `Rda.Injector.Obeyed` — no key of a blocked combination went down while the modifiers of the
  combination were tracked as held;
* `Rda.Injector.reached` — the calls of a sequence that are made, up to the first one that fails;
* `Rda.Injector.Obedient` — the calls that press no key of a blocked combination.

Main results:

* `Rda.Injector.calls_of_apply` — **the gate**: what a call of `apply` to the machine implies;
* `Rda.Injector.obeyed_iff_obedient` — **the policy holds** all along a run exactly when every
  call of the run is obedient.
-/

import Rda.Injector

set_option relaxedAutoImplicit false
set_option autoImplicit false

namespace Rda

namespace Injector

open Program (Keeps)

variable {ε : Type}

/-! ### Any backend -/

/-- The injector after one call, whatever it answered. -/
def calling (inj : Injector) (c : BackendCall) : Injector :=
  { inj with backend := (inj.backend.call c inj.keys).2 }

theorem final_attempt (inj : Injector) (c : BackendCall) (asError : BackendError → ε) :
    Program.final (attempt c asError) inj = inj.calling c := by
  rw [Program.final, EStateM.run, attempt, calling]
  rcases inj.backend.call c inj.keys with ⟨answer, backend⟩
  cases answer with
  | ok => rfl
  | error e => rfl

theorem keeps_guarded {I : Injector → Prop} {c : BackendCall}
    (h : ∀ inj, I inj → I (inj.calling c)) (field : String) : Keeps I (guarded c field) := by
  intro inj hinj
  rw [guarded, final_attempt]
  exact h inj hinj

theorem run_attempt_of_ok {inj : Injector}
    (h : inj.backend.answers inj.backend.log.length = .ok ()) (c : BackendCall)
    (asError : BackendError → ε) : (attempt c asError).run inj = .ok () (inj.calling c) := by
  simp only [EStateM.run, attempt, calling, Backend.call]
  rw [h]

theorem run_attempt_of_error {inj : Injector} {e : BackendError}
    (h : inj.backend.answers inj.backend.log.length = .error e) (c : BackendCall)
    (asError : BackendError → ε) :
    (attempt c asError).run inj = .error (asError e) (inj.calling c) := by
  simp only [EStateM.run, attempt, calling, Backend.call]
  rw [h]

/-- The injector after the modifiers that an event no longer carries were released, whatever the
backend answered. -/
def swept (inj : Injector) (modifiers : UInt16) : Injector :=
  (inj.keys.reconcileModifiers modifiers).1.foldl
    (fun s action => s.countReconciled.calling (.key action.usage false))
    { inj with keys := (inj.keys.reconcileModifiers modifiers).2 }

theorem run_syncModifiers_any (inj : Injector) (modifiers : UInt16) :
    (syncModifiers modifiers).run inj = .ok () (inj.swept modifiers) := by
  have hround : ∀ (s : Injector) (action : KeyState.Action), True →
      (do modify countReconciled; send (.key action.usage false) : Inject GuardError PUnit).run s
        = .ok () (s.countReconciled.calling (.key action.usage false)) := fun _ _ _ => rfl
  exact Program.run_forM_eq_ok hround (fun _ _ h => h) _ trivial

/-- An event that passes the guards is carried out, whatever the backend answers. -/
theorem final_apply_of_passes {inj : Injector} {grant : SessionGrant} {frame : ControlFrame}
    {nowMs : ℕ} {cls : EventClass} (hpass : inj.Passes grant frame.payload nowMs)
    (hcls : eventClass frame.payload = some cls) :
    inj.step (.apply grant frame nowMs)
      = Program.final (carryOut frame.payload) (inj.rated cls nowMs) :=
  Program.final_eq_of_run_eq (run_apply_eq_run_carryOut hpass hcls)

/-- A property that is not about the budgets, the counters or the keys, and that a call which
presses no key keeps. -/
structure Stable (I : Injector → Prop) : Prop where
  rate : ∀ inj rate, I inj → I { inj with rate := rate }
  stats : ∀ inj stats, I inj → I { inj with stats := stats }
  keys : ∀ inj keys, I inj → I { inj with keys := keys }
  call : ∀ inj c, (∀ usage, c ≠ .key usage true) → I inj → I (inj.calling c)

section Stability

variable {I : Injector → Prop}

theorem keeps_requireDisplay (id : UInt8) : Keeps I (requireDisplay id) := by
  refine Keeps.get_bind fun inj hinj => ?_
  cases inj.display id with
  | some geom => exact hinj
  | none => exact hinj

theorem keeps_syncModifiers (hI : Stable I) (modifiers : UInt16) :
    Keeps I (syncModifiers modifiers) := by
  refine Keeps.get_bind fun inj hinj => ?_
  have hround : ∀ action : KeyState.Action, Keeps I (do
      modify countReconciled; send (.key action.usage false) : Inject GuardError PUnit) :=
    fun action => Keeps.bind (Keeps.modify fun inj h => hI.stats inj _ h)
      fun _ => Keeps.modify fun inj h => hI.call inj _ (by simp) h
  exact Keeps.forM (fun action _ => hround action) _ (hI.keys inj _ hinj)

theorem keeps_countInjected (hI : Stable I) :
    Keeps I (modify countInjected : Inject GuardError Unit) :=
  Keeps.modify fun inj h => hI.stats inj _ h

/-- Whether an event may press a key. -/
def pressesKeys : Payload → Bool
  | .keyEvent _ _ action _ _ => action != .up
  | .keyStateSync .. => true
  | _ => false

/-- What every call keeps is kept when an event is carried out; an event that presses no key need
only keep what the other calls keep. -/
theorem keeps_carryOut (hI : Stable I) {payload : Payload}
    (hpress : pressesKeys payload = true →
      ∀ inj usage, I inj → I (inj.calling (.key usage true))) :
    Keeps I (carryOut payload) := by
  have hguarded : ∀ c field, (∀ usage, c ≠ .key usage true) → Keeps I (guarded c field) :=
    fun c field hc => keeps_guarded (fun inj => hI.call inj c hc) field
  have hend := keeps_countInjected hI
  cases payload with
  | mouseMove displayId flags xNorm yNorm modifiers =>
      exact Keeps.bind (keeps_requireDisplay displayId) fun geom =>
        Keeps.bind (keeps_syncModifiers hI modifiers) fun _ =>
        Keeps.bind (hguarded _ _ (by simp)) fun _ => hend
  | mouseMoveRelative dx dy modifiers displayId =>
      exact Keeps.bind (keeps_syncModifiers hI modifiers) fun _ =>
        Keeps.bind (hguarded _ _ (by simp)) fun _ => hend
  | mouseButton button action xNorm yNorm modifiers displayId clickCount =>
      exact Keeps.bind (keeps_requireDisplay displayId) fun geom =>
        Keeps.bind (keeps_syncModifiers hI modifiers) fun _ =>
        Keeps.bind (hguarded _ _ (by simp)) fun _ =>
        Keeps.bind (hguarded _ _ (by simp)) fun _ => hend
  | mouseWheel deltaV deltaH modifiers displayId flags =>
      exact Keeps.bind (keeps_syncModifiers hI modifiers) fun _ =>
        Keeps.bind (hguarded _ _ (by simp)) fun _ => hend
  | keyEvent usagePage usageId action flags modifiers =>
      have hkey : Keeps I (guarded (.key usageId (action != .up)) "usage_id") := by
        by_cases hup : action = .up
        · subst hup
          exact hguarded _ _ (by simp)
        · rw [bne_iff_ne.2 hup]
          exact keeps_guarded (fun inj => hpress (bne_iff_ne.2 hup) inj usageId) _
      exact Keeps.bind (keeps_syncModifiers hI modifiers) fun _ =>
        Keeps.bind (Keeps.modify fun inj h => hI.keys inj _ h) fun _ =>
        Keeps.bind hkey fun _ => hend
  | keyStateSync modifiers authoritative pressed =>
      have hround : ∀ action : KeyState.Action, Keeps I (do
          modify countReconciled; guarded (.key action.usage action.isPress) "usage_id") := by
        refine fun action => Keeps.bind (Keeps.modify fun inj h => hI.stats inj _ h) fun _ => ?_
        cases action with
        | press usage => exact keeps_guarded (fun inj => hpress rfl inj usage) _
        | release usage => exact hguarded _ _ (by simp [KeyState.Action.isPress])
      refine Keeps.get_bind fun inj hinj => ?_
      exact (Keeps.bind (Keeps.forM fun action _ => hround action) fun _ => hend : Keeps I _) _
        (hI.keys inj _ hinj)
  | textInput commit preedit text =>
      cases commit with
      | false => exact hend
      | true => exact Keeps.bind (hguarded _ _ (by simp)) fun _ => hend
  | _ => exact Keeps.pure ()

/-- What every call keeps, `apply` keeps: an event that does not pass makes no call at all. -/
theorem keeps_apply (hI : Stable I) {grant : SessionGrant} {frame : ControlFrame} {nowMs : ℕ}
    (hpress : pressesKeys frame.payload = true →
      ∀ inj usage, I inj → I (inj.calling (.key usage true))) :
    Keeps I (apply grant frame nowMs) := by
  intro inj hinj
  change I (inj.step (.apply grant frame nowMs))
  by_cases hpass : inj.Passes grant frame.payload nowMs
  · obtain ⟨cls, hcls, -⟩ := hpass.budget
    rw [final_apply_of_passes hpass hcls]
    exact keeps_carryOut hI hpress _ (hI.rate inj _ hinj)
  · rw [step_apply_of_not_passes hpass]
    have hrate := hI.rate inj (inj.step (.apply grant frame nowMs)).rate hinj
    exact hI.stats _ _ hrate

end Stability

/-! ### The gate -/

/-- The display an event names, if it has to be one that is shared. -/
def displayOf : Payload → Option UInt8
  | .mouseMove displayId _ _ _ _ => some displayId
  | .mouseButton _ _ _ _ _ displayId _ => some displayId
  | _ => none

/-- The mask that an event brings the held modifiers in line with. -/
def maskOf : Payload → Option UInt16
  | .mouseMove _ _ _ _ modifiers | .mouseMoveRelative _ _ modifiers _
  | .mouseButton _ _ _ _ modifiers _ _ | .mouseWheel _ _ modifiers _ _
  | .keyEvent _ _ _ _ modifiers => some modifiers
  | _ => none

/-- The normalised position an event carries. -/
def positionOf : Payload → Option (UInt16 × UInt16)
  | .mouseMove _ _ xNorm yNorm _ | .mouseButton _ _ xNorm yNorm _ _ _ => some (xNorm, yNorm)
  | _ => none

/-- A display that is shared has the id that the event names. -/
def Names (inj : Injector) (payload : Payload) (geom : DisplayGeometry) : Prop :=
  geom ∈ inj.displays ∧ displayOf payload = some geom.id

/-- The call is one that the event asks for.  The pointer goes to the event's position on a display
that is shared, and a button is pressed or released on one; a key that goes down or up is the key of
a key event, on the keyboard page and in the table, or a held modifier that the event's mask lacks,
or one of the changes to a snapshot. -/
def Asks (inj : Injector) (payload : Payload) : BackendCall → Prop
  | .pointerAbsolute x y =>
      ∃ geom xNorm yNorm, inj.Names payload geom ∧ positionOf payload = some (xNorm, yNorm) ∧
        geom.denormalise xNorm yNorm = (x, y)
  | .pointerRelative dx dy =>
      ∃ modifiers displayId, payload = .mouseMoveRelative dx dy modifiers displayId
  | .button b down =>
      (∃ geom, inj.Names payload geom) ∧
        ∃ button action xNorm yNorm modifiers displayId clickCount,
          payload = .mouseButton button action xNorm yNorm modifiers displayId clickCount ∧
            b = mapButton button ∧ down = (action == .down)
  | .scroll vertical horizontal =>
      ∃ modifiers displayId flags,
        payload = .mouseWheel vertical horizontal modifiers displayId flags
  | .key usage down =>
      (∃ usagePage action flags modifiers,
        payload = .keyEvent usagePage usage action flags modifiers ∧ down = (action != .up) ∧
          usagePage = USAGE_PAGE_KEYBOARD ∧ ∃ row ∈ Hid.KEY_TABLE, row.usage = usage) ∨
      (∃ mask, maskOf payload = some mask ∧ usage ∈ inj.keys.lost mask ∧ down = false) ∨
      ∃ modifiers authoritative pressed, payload = .keyStateSync modifiers authoritative pressed ∧
        ∃ action ∈ (inj.keys.reconcile pressed).1, action.usage = usage ∧ action.isPress = down
  | .text text => ∃ preedit, payload = .textInput true preedit text

theorem exists_names_of_fieldsOk {inj : Injector} {payload : Payload} {id : UInt8}
    (h : inj.FieldsOk payload) (hid : displayOf payload = some id) :
    ∃ geom, inj.display id = some geom ∧ inj.Names payload geom := by
  have hsome : (inj.display id).isSome = true := by
    cases payload with
    | mouseMove | mouseButton =>
        cases hid
        exact h
    | _ => cases hid
  obtain ⟨geom, hgeom⟩ := Option.isSome_iff_exists.1 hsome
  have hgid : geom.id = id := by simpa using List.find?_some hgeom
  exact ⟨geom, hgeom, List.mem_of_find?_eq_some hgeom, by rw [hid, hgid]⟩

theorem keyEvent_fieldsOk {inj : Injector} {usagePage usageId modifiers : UInt16}
    {action : KeyAction} {flags : UInt8}
    (h : inj.FieldsOk (.keyEvent usagePage usageId action flags modifiers)) :
    usagePage = USAGE_PAGE_KEYBOARD ∧ ∃ row ∈ Hid.KEY_TABLE, row.usage = usageId := by
  obtain ⟨hpage, ⟨-, hlookup⟩, -⟩ := h
  obtain ⟨row, hrow⟩ := Option.ne_none_iff_exists'.1 hlookup
  exact ⟨hpage, row, List.mem_of_find?_eq_some hrow, by simpa using List.find?_some hrow⟩

/-- The log of an injector only grows. -/
theorem log_calling (inj : Injector) (c : BackendCall) :
    ∃ ok, (inj.calling c).backend.log = inj.backend.log ++ [⟨c, inj.keys, ok⟩] := ⟨_, rfl⟩

/-- The log has grown by calls of a kind. -/
def Grown (log : List LogEntry) (P : BackendCall → Prop) (inj : Injector) : Prop :=
  ∃ made, inj.backend.log = log ++ made ∧ ∀ e ∈ made, P e.call

section Growth

variable {log : List LogEntry} {P : BackendCall → Prop} {inj : Injector}

theorem grown_calling (h : inj.Grown log P) {c : BackendCall} (hc : P c) :
    (inj.calling c).Grown log P := by
  obtain ⟨made, hlog, hmade⟩ := h
  obtain ⟨ok, hcall⟩ := log_calling inj c
  refine ⟨made ++ [⟨c, inj.keys, ok⟩], by rw [hcall, hlog, List.append_assoc], fun e he => ?_⟩
  rcases List.mem_append.1 he with he | he
  · exact hmade e he
  · rw [List.mem_singleton.1 he]
    exact hc

theorem keeps_grown_guarded {c : BackendCall} (hc : P c) (field : String) :
    Keeps (Grown log P) (guarded c field) :=
  keeps_guarded (I := Grown log P) (fun _ h => grown_calling h hc) field

theorem keeps_grown_perform {action : KeyState.Action} (hc : P (.key action.usage action.isPress)) :
    Keeps (Grown log P) (perform action) :=
  Keeps.bind (Keeps.modify fun _ h => h) fun _ => keeps_grown_guarded hc _

/-- The releases of the modifiers that a mask lacks, and what follows them. -/
theorem grown_syncModifiers_bind {modifiers : UInt16} {rest : Inject GuardError Unit}
    (hlost : ∀ usage ∈ inj.keys.lost modifiers, P (.key usage false))
    (hrest : Keeps (Grown log P) rest) (h : inj.Grown log P) :
    (Program.final (syncModifiers modifiers >>= fun _ => rest) inj).Grown log P := by
  have hround : ∀ action ∈ (inj.keys.reconcileModifiers modifiers).1, Keeps (Grown log P) (do
      modify countReconciled; send (.key action.usage false) : Inject GuardError PUnit) := by
    intro action haction
    obtain ⟨usage, husage, rfl⟩ := List.mem_map.1 haction
    exact Keeps.bind (Keeps.modify fun _ h => h) fun _ =>
      Keeps.modify fun _ h => grown_calling h (hlost usage husage)
  exact (Keeps.bind (Keeps.forM hround) fun _ => hrest : Keeps (Grown log P) _)
    { inj with keys := (inj.keys.reconcileModifiers modifiers).2 } h

/-- Once the guards have let an event through, every call is one that the event asks for. -/
theorem grown_carryOut {payload : Payload} (hfields : inj.FieldsOk payload) :
    (Program.final (carryOut payload) inj).Grown inj.backend.log (inj.Asks payload) := by
  have hstart : inj.Grown inj.backend.log (inj.Asks payload) := ⟨[], by simp, by simp⟩
  have hend : Keeps (Grown inj.backend.log (inj.Asks payload))
      (modify countInjected : Inject GuardError Unit) := Keeps.modify fun _ h => h
  have hlost : ∀ mask, maskOf payload = some mask → ∀ usage ∈ inj.keys.lost mask,
      inj.Asks payload (.key usage false) :=
    fun mask hmask usage husage => .inr (.inl ⟨mask, hmask, husage, rfl⟩)
  cases payload with
  | mouseMove displayId flags xNorm yNorm modifiers =>
      obtain ⟨geom, hgeom, hnames⟩ := exists_names_of_fieldsOk hfields rfl
      rw [carryOut, Program.final_bind_of_ok (run_requireDisplay hgeom)]
      refine grown_syncModifiers_bind (hlost modifiers rfl) ?_ hstart
      exact Keeps.bind (keeps_grown_guarded ⟨geom, xNorm, yNorm, hnames, rfl, rfl⟩ _) fun _ => hend
  | mouseMoveRelative dx dy modifiers displayId =>
      refine grown_syncModifiers_bind (hlost modifiers rfl) ?_ hstart
      exact Keeps.bind (keeps_grown_guarded ⟨modifiers, displayId, rfl⟩ _) fun _ => hend
  | mouseButton button action xNorm yNorm modifiers displayId clickCount =>
      obtain ⟨geom, hgeom, hnames⟩ := exists_names_of_fieldsOk hfields rfl
      rw [carryOut, Program.final_bind_of_ok (run_requireDisplay hgeom)]
      refine grown_syncModifiers_bind (hlost modifiers rfl) ?_ hstart
      refine Keeps.bind (keeps_grown_guarded ⟨geom, xNorm, yNorm, hnames, rfl, rfl⟩ _) fun _ => ?_
      exact Keeps.bind (keeps_grown_guarded ⟨⟨geom, hnames⟩, button, action, xNorm, yNorm,
        modifiers, displayId, clickCount, rfl, rfl, rfl⟩ _) fun _ => hend
  | mouseWheel deltaV deltaH modifiers displayId flags =>
      refine grown_syncModifiers_bind (hlost modifiers rfl) ?_ hstart
      exact Keeps.bind (keeps_grown_guarded ⟨modifiers, displayId, flags, rfl⟩ _) fun _ => hend
  | keyEvent usagePage usageId action flags modifiers =>
      have hkey : inj.Asks (.keyEvent usagePage usageId action flags modifiers)
          (.key usageId (action != .up)) :=
        .inl ⟨usagePage, action, flags, modifiers, rfl, rfl, keyEvent_fieldsOk hfields⟩
      refine grown_syncModifiers_bind (hlost modifiers rfl) ?_ hstart
      exact Keeps.bind (Keeps.modify fun _ h => h) fun _ =>
        Keeps.bind (keeps_grown_guarded hkey _) fun _ => hend
  | keyStateSync modifiers authoritative pressed =>
      have hround : ∀ action ∈ (inj.keys.reconcile pressed).1,
          Keeps (Grown inj.backend.log (inj.Asks (.keyStateSync modifiers authoritative pressed)))
            (perform action) := fun action haction =>
        keeps_grown_perform (.inr (.inr ⟨modifiers, authoritative, pressed, rfl, action, haction,
          rfl, rfl⟩))
      exact (Keeps.bind (Keeps.forM hround) fun _ => hend : Keeps (Grown _ _) _)
        { inj with keys := (inj.keys.reconcile pressed).2 } hstart
  | textInput commit preedit text =>
      cases commit with
      | false => exact hend inj hstart
      | true =>
          exact (Keeps.bind (keeps_grown_guarded ⟨preedit, rfl⟩ _) fun _ => hend :
            Keeps (Grown _ _) _) inj hstart
  | _ => exact hstart

end Growth

/-- **The gate.**  Whatever the state, the grant, the frame and the backend's answers: without an
input grant, or while the physical user has control, `apply` makes no call and leaves the keys
alone; and if it makes a call, input is granted, the peer has control, fewer events of the class
than its limit were counted in the current window, the display of an absolute move or a button is
shared, the key of a key event is of the keyboard page and in the table, and the call is one that
the frame asks for. -/
theorem calls_of_apply (inj : Injector) (grant : SessionGrant) (frame : ControlFrame) (nowMs : ℕ) :
    (grant.mayInjectInput = false ∨ inj.localControl = .local →
      (inj.step (.apply grant frame nowMs)).backend = inj.backend ∧
        (inj.step (.apply grant frame nowMs)).keys = inj.keys) ∧
    ∃ made, (inj.step (.apply grant frame nowMs)).backend.log = inj.backend.log ++ made ∧
      ∀ e ∈ made,
        grant.mayInjectInput = true ∧ inj.localControl = .remote ∧
        (∃ cls, eventClass frame.payload = some cls ∧
          ((inj.rate.window cls).at nowMs).count < inj.rate.limit cls) ∧
        (∀ id, displayOf frame.payload = some id → ∃ d ∈ inj.displays, d.id = id) ∧
        (∀ usagePage usageId action flags modifiers,
          frame.payload = .keyEvent usagePage usageId action flags modifiers →
          usagePage = USAGE_PAGE_KEYBOARD ∧ ∃ row ∈ Hid.KEY_TABLE, row.usage = usageId) ∧
        inj.Asks frame.payload e.call := by
  by_cases hpass : inj.Passes grant frame.payload nowMs
  · refine ⟨?_, ?_⟩
    · rintro (hgrant | hlocal)
      · rw [hpass.granted] at hgrant
        cases hgrant
      · rw [hpass.remote] at hlocal
        cases hlocal
    · obtain ⟨cls, hcls, hbudget⟩ := hpass.budget
      have hrated : (inj.rated cls nowMs).FieldsOk frame.payload := hpass.fields
      obtain ⟨made, hlog, hmade⟩ := grown_carryOut hrated
      rw [← final_apply_of_passes hpass hcls] at hlog
      refine ⟨made, hlog, fun e he => ⟨hpass.granted, hpass.remote,
        ⟨cls, hcls, RateGuard.allow_fst.1 hbudget⟩, ?_, ?_, hmade e he⟩⟩
      · intro id hid
        obtain ⟨geom, -, hmem, hgid⟩ := exists_names_of_fieldsOk hpass.fields hid
        exact ⟨geom, hmem, Option.some.inj (hgid.symm.trans hid)⟩
      · intro usagePage usageId action flags modifiers hpayload
        have hfields := hpass.fields
        rw [hpayload] at hfields
        exact keyEvent_fieldsOk hfields
  · have huntouched := step_apply_of_not_passes hpass
    refine ⟨fun _ => ?_, [], ?_, by simp⟩
    · rw [huntouched]
      exact ⟨rfl, rfl⟩
    · rw [huntouched, List.append_nil]

/-! ### The policy -/

/-- The call presses no key of a blocked combination whose modifiers are tracked as held. -/
def Obeys (policy : CombinationPolicy) (e : LogEntry) : Prop :=
  ∀ mask usage, (mask, usage) ∈ policy.blocked → e.call = .key usage true →
    e.keys.modifiers &&& mask ≠ mask

/-- No call so far pressed a key of a blocked combination whose modifiers were tracked as held. -/
def Obeyed (inj : Injector) : Prop := ∀ e ∈ inj.backend.log, Obeys inj.policy e

theorem obeys_press_iff {policy : CombinationPolicy} {usage : UInt16} {keys : KeyState}
    {ok : Bool} :
    Obeys policy ⟨.key usage true, keys, ok⟩ ↔ policy.permits keys.modifiers usage = true := by
  rw [← not_iff_not, Bool.not_eq_true, CombinationPolicy.permits_eq_false_iff, Obeys]
  simp only [BackendCall.key.injEq, and_true, ne_eq, not_forall, not_not]
  constructor
  · rintro ⟨mask, u, hmem, rfl, hmask⟩
    exact ⟨mask, hmem, hmask⟩
  · rintro ⟨mask, hmem, hmask⟩
    exact ⟨mask, usage, hmem, rfl, hmask⟩

theorem obeyed_calling_iff {inj : Injector} {c : BackendCall} :
    (inj.calling c).Obeyed ↔ inj.Obeyed ∧ ∀ ok, Obeys inj.policy ⟨c, inj.keys, ok⟩ := by
  obtain ⟨ok, hlog⟩ := log_calling inj c
  rw [Obeyed, hlog]
  simp only [List.forall_mem_append, List.forall_mem_singleton]
  exact and_congr Iff.rfl ⟨fun h _ => h, fun h => h ok⟩

theorem obeyed_press_iff {inj : Injector} {usage : UInt16} :
    (inj.calling (.key usage true)).Obeyed ↔
      inj.Obeyed ∧ inj.policy.permits inj.keys.modifiers usage = true := by
  rw [obeyed_calling_iff]
  exact and_congr Iff.rfl ⟨fun h => obeys_press_iff.1 (h true), fun h _ => obeys_press_iff.2 h⟩

theorem stable_obeyed : Stable Obeyed where
  rate _ _ h := h
  stats _ _ h := h
  keys _ _ h := h
  call _ _ hc h := obeyed_calling_iff.2 ⟨h, fun _ _ usage _ hcall => absurd hcall (hc usage)⟩

/-- The actions of a reconciliation that reach the backend: up to and including the first one that
fails. -/
def reached (answers : ℕ → Except BackendError Unit) :
    ℕ → List KeyState.Action → List KeyState.Action
  | _, [] => []
  | n, action :: actions =>
      action :: if (answers n).isOk then reached answers (n + 1) actions else []

/-- The event presses no key of a combination that the policy blocks with the modifiers that will be
tracked as held. -/
def EventObedient (inj : Injector) : Payload → Prop
  | .keyEvent _ usageId action _ modifiers =>
      action ≠ .up →
        inj.policy.permits ((inj.keys.reconcileModifiers modifiers).2.press usageId).2.modifiers
          usageId = true
  | .keyStateSync _ _ pressed =>
      ∀ action ∈ reached inj.backend.answers inj.backend.log.length (inj.keys.reconcile pressed).1,
        action.isPress = true →
          inj.policy.permits (inj.keys.reconcile pressed).2.modifiers action.usage = true
  | _ => True

/-- The call presses no such key, because a guard holds it back or because of what it asks for. -/
def Obedient (inj : Injector) : Call → Prop
  | .apply grant frame nowMs =>
      inj.Passes grant frame.payload nowMs → inj.EventObedient frame.payload
  | _ => True

/-- The policy's own check is enough for a key event whose mask has the bit of its key, and so for
every key that is no modifier. -/
theorem keyEvent_obedient {inj : Injector} {usagePage usageId modifiers : UInt16}
    {action : KeyAction} {flags : UInt8}
    (hfields : inj.FieldsOk (.keyEvent usagePage usageId action flags modifiers))
    (hbit : (Hid.modifierBit usageId).getD 0 &&& modifiers = (Hid.modifierBit usageId).getD 0) :
    inj.EventObedient (.keyEvent usagePage usageId action flags modifiers) := fun _ =>
  CombinationPolicy.permits_of_within (KeyState.modifiers_press_reconcileModifiers hbit)
    hfields.2.2

section Obedience

variable {inj : Injector}

/-- What the loop that releases modifiers keeps in sight: the keys, the policy, the displays, and a
log that grows by releases. -/
structure Sweeping (inj : Injector) (keys : KeyState) (inj' : Injector) : Prop where
  keys : inj'.keys = keys
  policy : inj'.policy = inj.policy
  displays : inj'.displays = inj.displays
  log : ∃ made, inj'.backend.log = inj.backend.log ++ made ∧
    ∀ e ∈ made, ∃ usage, e.call = .key usage false

theorem sweeping_foldl {keys : KeyState} {s : Injector} (h : Sweeping inj keys s)
    (actions : List KeyState.Action) :
    Sweeping inj keys (actions.foldl
      (fun s action => s.countReconciled.calling (.key action.usage false)) s) := by
  induction actions generalizing s with
  | nil => exact h
  | cons action actions ih =>
      obtain ⟨hkeys, hpolicy, hdisplays, made, hlog, hmade⟩ := h
      refine ih ⟨hkeys, hpolicy, hdisplays, ?_⟩
      obtain ⟨ok, hcall⟩ := log_calling s.countReconciled (.key action.usage false)
      refine ⟨made ++ [⟨.key action.usage false, s.countReconciled.keys, ok⟩], ?_, ?_⟩
      · rw [hcall, ← List.append_assoc, ← hlog]
        rfl
      · intro e he
        rcases List.mem_append.1 he with he | he
        · exact hmade e he
        · exact ⟨action.usage, by rw [List.mem_singleton.1 he]⟩

theorem sweeping_swept (inj : Injector) (modifiers : UInt16) :
    Sweeping inj (inj.keys.reconcileModifiers modifiers).2 (inj.swept modifiers) := by
  have hstart : Sweeping inj (inj.keys.reconcileModifiers modifiers).2
      { inj with keys := (inj.keys.reconcileModifiers modifiers).2 } :=
    ⟨rfl, rfl, rfl, [], by simp, by simp⟩
  exact sweeping_foldl hstart _

/-- Counting the event does not matter. -/
theorem obeyed_countInjected_iff {x : Inject GuardError Unit} :
    (Program.final (x >>= fun _ => modify countInjected) inj).Obeyed ↔
      (Program.final x inj).Obeyed := by
  rcases Program.final_bind x (fun _ => modify countInjected) inj with ⟨e, -, h⟩ | ⟨_, -, h⟩
  · rw [h]
  · rw [h]
    rfl

theorem obeyed_keyEvent_iff {grant : SessionGrant} {header : Header} {nowMs : ℕ}
    {usagePage usageId modifiers : UInt16} {action : KeyAction} {flags : UInt8}
    (hobeyed : inj.Obeyed) (hup : action ≠ .up)
    (hpass : inj.Passes grant (.keyEvent usagePage usageId action flags modifiers) nowMs) :
    (inj.step (.apply grant ⟨header, .keyEvent usagePage usageId action flags modifiers⟩
        nowMs)).Obeyed ↔
      inj.policy.permits ((inj.keys.reconcileModifiers modifiers).2.press usageId).2.modifiers
        usageId = true := by
  have hswept := sweeping_swept (inj.rated .key nowMs) modifiers
  have hsync := run_syncModifiers_any (inj.rated .key nowMs) modifiers
  have hobeyed' : ((inj.rated .key nowMs).swept modifiers).Obeyed := by
    have hkeeps := keeps_syncModifiers stable_obeyed modifiers (inj.rated .key nowMs) hobeyed
    rwa [Program.final_of_ok hsync] at hkeeps
  have hfinal : Program.final (carryOut (.keyEvent usagePage usageId action flags modifiers))
      (inj.rated .key nowMs) = Program.final (do
        guarded (.key usageId (action != .up)) "usage_id"
        modify countInjected : Inject GuardError Unit)
          { (inj.rated .key nowMs).swept modifiers with
            keys := if action != .up
              then (((inj.rated .key nowMs).swept modifiers).keys.press usageId).2
              else (((inj.rated .key nowMs).swept modifiers).keys.release usageId).2 } :=
    Program.final_bind_of_ok hsync
  rw [bne_iff_ne.2 hup, if_pos rfl, hswept.keys] at hfinal
  rw [final_apply_of_passes hpass rfl, hfinal, obeyed_countInjected_iff, guarded, final_attempt,
    obeyed_press_iff]
  exact (and_iff_right hobeyed').trans (by rw [hswept.policy]; rfl)

theorem obeyed_action_iff {action : KeyState.Action} :
    (inj.calling (.key action.usage action.isPress)).Obeyed ↔ inj.Obeyed ∧
      (action.isPress = true → inj.policy.permits inj.keys.modifiers action.usage = true) := by
  cases action with
  | press usage =>
      rw [KeyState.Action.isPress, KeyState.Action.usage, obeyed_press_iff, imp_iff_right rfl]
  | release usage =>
      rw [KeyState.Action.isPress, obeyed_calling_iff]
      refine and_congr Iff.rfl (iff_of_true ?_ ?_)
      · intro ok mask u _ hcall
        simp at hcall
      · intro h
        cases h

/-- A reconciliation obeys the policy exactly when every press that reaches the backend does. -/
theorem obeyed_forM_iff (actions : List KeyState.Action) :
    (Program.final (actions.forM perform) inj).Obeyed ↔
      inj.Obeyed ∧ ∀ action ∈ reached inj.backend.answers inj.backend.log.length actions,
        action.isPress = true → inj.policy.permits inj.keys.modifiers action.usage = true := by
  induction actions generalizing inj with
  | nil => exact ⟨fun h => ⟨h, by simp [reached]⟩, And.left⟩
  | cons action actions ih =>
      have hcons : (action :: actions).forM perform
          = (perform action >>= fun _ => actions.forM perform) := rfl
      have hround : (inj.countReconciled.calling (.key action.usage action.isPress)).Obeyed ↔ _ :=
        obeyed_action_iff
      have hanswer' := fun {answer} (h : inj.backend.answers inj.backend.log.length = answer) =>
        show inj.countReconciled.backend.answers inj.countReconciled.backend.log.length = answer
          from h
      have hlen : (inj.countReconciled.calling
          (.key action.usage action.isPress)).backend.log.length = inj.backend.log.length + 1 :=
        List.length_append
      rw [hcons, reached, List.forall_mem_cons, ← and_assoc]
      cases hanswer : inj.backend.answers inj.backend.log.length with
      | ok =>
          have hrun : (perform action).run inj
              = .ok () (inj.countReconciled.calling (.key action.usage action.isPress)) :=
            run_attempt_of_ok (hanswer' hanswer) _ _
          rw [Program.final_bind_of_ok hrun, ih, hlen]
          exact and_congr hround Iff.rfl
      | error e =>
          have hrun : (perform action).run inj = .error (.invalidField "usage_id")
              (inj.countReconciled.calling (.key action.usage action.isPress)) :=
            run_attempt_of_error (hanswer' hanswer) _ _
          rw [Program.final_of_error (Program.run_bind_of_error hrun)]
          exact hround.trans (and_iff_left (by simp [Except.isOk, Except.toBool])).symm

theorem obeyed_keyStateSync_iff {grant : SessionGrant} {header : Header} {nowMs : ℕ}
    {modifiers : UInt16} {authoritative : Bool} {pressed : List UInt16} (hobeyed : inj.Obeyed)
    (hpass : inj.Passes grant (.keyStateSync modifiers authoritative pressed) nowMs) :
    (inj.step (.apply grant ⟨header, .keyStateSync modifiers authoritative pressed⟩ nowMs)).Obeyed ↔
      inj.EventObedient (.keyStateSync modifiers authoritative pressed) := by
  have hfinal : Program.final (carryOut (.keyStateSync modifiers authoritative pressed))
      (inj.rated .key nowMs) = Program.final (do
        (inj.keys.reconcile pressed).1.forM perform
        modify countInjected : Inject GuardError Unit)
          { inj.rated .key nowMs with keys := (inj.keys.reconcile pressed).2 } := rfl
  rw [final_apply_of_passes hpass rfl, hfinal, obeyed_countInjected_iff, obeyed_forM_iff]
  exact and_iff_right hobeyed

theorem isPress_of_mem_releaseAll {s : KeyState} {action : KeyState.Action}
    (h : action ∈ s.releaseAll.1) : action.isPress = false := by
  obtain ⟨usage, -, rfl⟩ := List.mem_map.1 h
  rfl

theorem keeps_attempt_release {asError : BackendError → BackendError} {usage : UInt16} :
    Keeps Obeyed (attempt (.key usage false) asError) := by
  intro inj hinj
  rw [final_attempt]
  exact stable_obeyed.call inj _ (by simp) hinj

theorem keeps_releaseAll : Keeps Obeyed releaseAll := by
  refine Keeps.get_bind fun inj hinj => ?_
  exact (Keeps.bind (Keeps.forM fun _ _ => keeps_attempt_release) fun _ => Keeps.pure _ :
    Keeps Obeyed _) _ (stable_obeyed.keys inj _ hinj)

theorem keeps_setLocalControl (control : LocalControl) :
    Keeps Obeyed (setLocalControl control) := by
  have hend : Keeps Obeyed (modify fun inj => { inj with localControl := control } :
      Inject BackendError Unit) := Keeps.modify fun _ h => h
  refine Keeps.get_bind fun inj hinj => ?_
  by_cases hc : control = .local ∧ inj.keys.held.isEmpty = false
  · rw [if_pos hc]
    refine (Keeps.bind (Keeps.forM fun action haction => ?_) fun _ => hend : Keeps Obeyed _) _
      (stable_obeyed.keys inj _ hinj)
    rw [isPress_of_mem_releaseAll haction]
    exact keeps_attempt_release
  · rw [if_neg hc]
    exact hend inj hinj

theorem obeyed_step_iff (hobeyed : inj.Obeyed) (call : Call) :
    (inj.step call).Obeyed ↔ inj.Obedient call := by
  cases call with
  | apply grant frame nowMs =>
      by_cases hpass : inj.Passes grant frame.payload nowMs
      · obtain ⟨header, payload⟩ := frame
        rw [Obedient, imp_iff_right hpass]
        by_cases hpress : pressesKeys payload = true
        · cases payload with
          | keyEvent usagePage usageId action flags modifiers =>
              have hup : action ≠ .up := bne_iff_ne.1 hpress
              rw [obeyed_keyEvent_iff hobeyed hup hpass]
              exact ⟨fun h _ => h, fun h => h hup⟩
          | keyStateSync modifiers authoritative pressed =>
              exact obeyed_keyStateSync_iff hobeyed hpass
          | _ => cases hpress
        · -- An event that presses no key cannot break the policy.
          refine iff_of_true (keeps_apply stable_obeyed (fun h => absurd h hpress) inj hobeyed) ?_
          cases payload with
          | keyEvent usagePage usageId action flags modifiers =>
              exact fun hup => absurd (bne_iff_ne.2 hup) hpress
          | keyStateSync => exact absurd rfl hpress
          | _ => trivial
      · rw [step_apply_of_not_passes hpass]
        exact iff_of_true hobeyed fun h => absurd h hpass
  | setLocalControl control => exact iff_of_true (keeps_setLocalControl control inj hobeyed) trivial
  | setDisplays displays => exact iff_of_true hobeyed trivial
  | releaseAll => exact iff_of_true (keeps_releaseAll inj hobeyed) trivial

end Obedience

/-- **The policy.**  Whatever the backend answers, the limits and the policy: no key of a blocked
combination goes down while the modifiers of the combination are tracked as held, all along a run,
exactly when no event of the run that passes the guards presses such a key.  A snapshot is not
checked against the policy at all, and a key event is checked with the modifiers it carries, which
need not have the bit of the modifier key it presses itself. -/
theorem obeyed_iff_obedient (answers : ℕ → Except BackendError Unit)
    (displays : List DisplayGeometry) (limits : RateLimits) (policy : CombinationPolicy)
    (calls : List Call) :
    (∀ js, js <+: calls → (Machine.run step
        (((Injector.new (.new answers) displays).withRateLimits limits).withPolicy policy)
        js).Obeyed) ↔
      Machine.Along step Obedient
        (((Injector.new (.new answers) displays).withRateLimits limits).withPolicy policy)
        calls := by
  refine Machine.forall_prefix_iff_along Obeyed Obeyed (fun _ h => h) ?_ ?_ ?_ calls
  · intro inj call hobeyed hgood
    exact (obeyed_step_iff hobeyed call).2 hgood
  · intro inj call hobeyed hbad h
    exact hbad ((obeyed_step_iff hobeyed call).1 h)
  · intro e he
    cases he

/-- A policy that blocks Ctrl+Alt+Delete, and the left Ctrl key with itself. -/
def Sample.policy : CombinationPolicy :=
  (CombinationPolicy.permissive.block 0x05 0x4C).block 0x01 0xE0

/-- A snapshot presses Ctrl, Alt and Delete in spite of the policy, and a key event that does not
carry the bit of its own key presses Ctrl. -/
theorem policy_not_obeyed :
    ¬ (Machine.run step (Sample.injector.withPolicy Sample.policy)
        [Sample.event (.keyStateSync 0x05 true [0xE0, 0xE2, 0x4C]) 0]).Obeyed ∧
      ¬ (Machine.run step (Sample.injector.withPolicy Sample.policy)
        [Sample.event (.keyEvent USAGE_PAGE_KEYBOARD 0xE0 .down 0 0) 0]).Obeyed := by
  have hobeyed : (Sample.injector.withPolicy Sample.policy).Obeyed := by
    intro e he
    cases he
  refine ⟨fun h => ?_, fun h => ?_⟩
  · have hpermits := (obeyed_step_iff hobeyed
      (Sample.event (.keyStateSync 0x05 true [0xE0, 0xE2, 0x4C]) 0)).1 h
      ⟨rfl, rfl, ⟨.key, rfl, by decide⟩, trivial⟩ (.press 0x4C) (by decide) rfl
    revert hpermits
    decide
  · have hpermits := (obeyed_step_iff hobeyed
      (Sample.event (.keyEvent USAGE_PAGE_KEYBOARD 0xE0 .down 0 0) 0)).1 h
      ⟨rfl, rfl, ⟨.key, rfl, by decide⟩, by decide⟩ (by decide)
    revert hpermits
    decide

end Injector

end Rda
