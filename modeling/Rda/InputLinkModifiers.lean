/-
**Modifiers and pointer frames that are late.**

Every input frame makes the host release the modifiers that the frame's mask lacks.  A pointer frame
may have been sent before a modifier went down and arrive after it, and then the host releases a
modifier that the user still holds.  Nothing presses it again.

Main definitions:

* `Rda.InputLink.Converged` — the host tracks the modifiers that the user holds;
* `Rda.InputLink.Drops` — the arrivals that make the host lose a modifier;
* `Rda.InputLink.Restores` — the arrivals that settle a modifier again.

Main results:

* `Rda.InputLink.converged_iff` — **the modifiers converge** exactly when every arrival that makes
  the host lose a modifier is followed by one that settles it.
-/

import Rda.InputLink

set_option relaxedAutoImplicit false
set_option autoImplicit false

namespace Rda

/-! ### What a frame does to a modifier -/

namespace Injector

variable {inj : Injector} {grant : SessionGrant} {f : ControlFrame × ℕ} {m : UInt16}

/-- What is left of a modifier after an event whose mask was looked at. -/
theorem mem_reconcileModifiers_iff (hm : m ∈ Hid.MODIFIER_USAGES) (mask : UInt16) :
    m ∈ (inj.keys.reconcileModifiers mask).2.held ↔
      m ∈ inj.keys.held ∧ mask &&& (Hid.modifierBit m).getD 0 ≠ 0 := by
  rw [KeyState.mem_reconcileModifiers_iff]
  tauto

/-- An event that is not the modifier's own releases it if its mask lacks it. -/
theorem mem_held_effect_iff (hm : m ∈ Hid.MODIFIER_USAGES) {payload : Payload}
    (hcarries : payload.Carries) (habout : ¬ payload.About m) :
    m ∈ (inj.effect payload).keys.held ↔ m ∈ inj.keys.held ∧ ¬ payload.Lacks m := by
  have hsync := @mem_reconcileModifiers_iff inj m hm
  cases payload with
  | mouseMove displayId flags xNorm yNorm modifiers =>
      rw [effect, keys_movedTo]
      exact hsync modifiers
  | mouseMoveRelative dx dy modifiers displayId => exact hsync modifiers
  | mouseButton button action xNorm yNorm modifiers displayId clickCount =>
      have hkeys : (inj.effect (.mouseButton button action xNorm yNorm modifiers displayId
          clickCount)).keys = ((inj.synced modifiers).movedTo displayId xNorm yNorm).keys := rfl
      rw [hkeys, keys_movedTo]
      exact hsync modifiers
  | mouseWheel deltaV deltaH modifiers displayId flags => exact hsync modifiers
  | keyEvent usagePage usageId action flags modifiers =>
      have hne : m ≠ usageId := fun h => habout h.symm
      refine Iff.trans ?_ (hsync modifiers)
      by_cases hup : action = .up
      · subst hup
        exact KeyState.mem_release.trans (and_iff_right hne)
      · have hkeys : (inj.effect (.keyEvent usagePage usageId action flags modifiers)).keys
            = ((inj.keys.reconcileModifiers modifiers).2.press usageId).2 := by
          rw [effect, bne_iff_ne.2 hup]
          rfl
        rw [hkeys]
        exact ⟨fun h => (KeyState.mem_of_mem_press h).resolve_left hne, KeyState.mem_press_of_mem⟩
  | _ => cases hcarries

/-- The modifier's own event decides about it. -/
theorem mem_held_effect_iff_of_about {payload : Payload} (habout : payload.About m) :
    m ∈ (inj.effect payload).keys.held ↔ ¬ payload.Lifts m ∧ inj.EventTrackable payload := by
  cases payload with
  | keyEvent usagePage usageId action flags modifiers =>
      cases habout
      by_cases hup : action = .up
      · subst hup
        refine iff_of_false (fun h => ?_) fun h => h.1 ⟨rfl, rfl⟩
        exact (KeyState.mem_release.1 h).1 rfl
      · have hkeys : (inj.effect (.keyEvent usagePage m action flags modifiers)).keys
            = ((inj.keys.reconcileModifiers modifiers).2.press m).2 := by
          rw [effect, bne_iff_ne.2 hup]
          rfl
        have hlifts : ¬ (Payload.keyEvent usagePage m action flags modifiers).Lifts m :=
          fun h => hup h.2
        rw [hkeys, and_iff_right hlifts, EventTrackable, imp_iff_right hup]
        constructor
        · intro h
          by_contra hfull
          rw [not_or, not_lt] at hfull
          rw [KeyState.press_of_full hfull.1 hfull.2] at h
          exact hfull.2 h
        · intro hroom
          exact (KeyState.mem_press_of_room hroom).2 (.inl rfl)
  | _ => cases habout

/-- Counting an event against its budget does not change what it does to the keys. -/
theorem keys_effect_rated (inj : Injector) (cls : EventClass) (nowMs : ℕ) (payload : Payload) :
    ((inj.rated cls nowMs).effect payload).keys = (inj.effect payload).keys := by
  cases payload with
  | mouseMove displayId flags xNorm yNorm modifiers =>
      rw [effect, keys_movedTo, effect, keys_movedTo]
      rfl
  | mouseButton button action xNorm yNorm modifiers displayId clickCount =>
      have hkeys : ∀ inj : Injector, (inj.effect (.mouseButton button action xNorm yNorm modifiers
          displayId clickCount)).keys
            = ((inj.synced modifiers).movedTo displayId xNorm yNorm).keys := fun _ => rfl
      rw [hkeys, keys_movedTo, hkeys, keys_movedTo]
      rfl
  | textInput commit preedit text => cases commit <;> rfl
  | _ => rfl

theorem keys_hear (hb : inj.backend.NeverFails) (hpass : inj.Passes grant f.1.payload f.2) :
    (inj.hear grant f).keys = (inj.effect f.1.payload).keys := by
  obtain ⟨cls, hcls, -⟩ := hpass.budget
  rw [hear, step_apply_of_passes hb hpass, after, hcls]
  exact keys_effect_rated inj cls f.2 f.1.payload

end Injector

/-! ### Convergence -/

namespace InputLink

/-- The host tracks a modifier as held exactly when the user holds it. -/
def Converged (s : InputLink) : Prop :=
  ∀ m ∈ Hid.MODIFIER_USAGES, m ∈ s.host.keys.held ↔ s.controller.viewer.holds m = true

instance (s : InputLink) : Decidable s.Converged :=
  decidable_of_iff ((Hid.MODIFIER_USAGES.all fun m =>
      decide (m ∈ s.host.keys.held ↔ s.controller.viewer.holds m = true)) = true)
    (by simp only [Converged, List.all_eq_true, decide_eq_true_eq])

/-- A key is pressed, as far as the frames of keys that have arrived say. -/
def pressed (s : InputLink) (usage : UInt16) : Bool :=
  saidBy (((s.controller.framesOn .inputKeys).take s.applied).map ControlFrame.payload) usage false

/-- The host loses a modifier that is pressed: to a pointer frame whose mask lacks it, or to a key
state that has no room for it. -/
def Drops (m : UInt16) (s : InputLink) : Event → Prop
  | .arriveKey nowMs =>
      ∃ f, s.arrival (.arriveKey nowMs) = some f ∧ f.1.payload.About m ∧
        ¬ s.host.EventTrackable f.1.payload
  | .arrivePointer i nowMs =>
      ∃ f, s.arrival (.arrivePointer i nowMs) = some f ∧ s.pressed m = true ∧ f.1.payload.Lacks m
  | _ => False

/-- The key event of a modifier arrives, and the key state has room for it if it is a press. -/
def Restores (m : UInt16) (s : InputLink) : Event → Prop
  | .arriveKey nowMs =>
      ∃ f, s.arrival (.arriveKey nowMs) = some f ∧ f.1.payload.About m ∧
        s.host.EventTrackable f.1.payload
  | _ => False

/-- The host has lost a modifier that is pressed. -/
def Lost (m : UInt16) (s : InputLink) : Prop := s.pressed m = true ∧ m ∉ s.host.keys.held

/-- The host loses a modifier to a frame of keys that is not the modifier's own. -/
def LosesToKey (m : UInt16) (s : InputLink) : Event → Prop
  | .arriveKey nowMs =>
      ∃ f, s.arrival (.arriveKey nowMs) = some f ∧ ¬ f.1.payload.About m ∧ s.pressed m = true ∧
        f.1.payload.Lacks m
  | _ => False

/-- A payload whose mask lacks a key that is pressed is followed by one that lifts the key. -/
def Settles (m : UInt16) (history : List Payload) : Prop :=
  ∀ before payload after, history = before ++ payload :: after → payload.Lacks m →
    saidBy (before ++ [payload]) m false = true → ∃ q ∈ after, q.Lifts m

/-- What holds of every state that is reached over a link that does not fail. -/
structure Inv (s : InputLink) : Prop where
  neverFails : s.host.backend.NeverFails
  sent : ∀ x ∈ s.controller.wire, Controller.WellSent x
  applied : s.applied ≤ (s.controller.framesOn .inputKeys).length
  said : ∀ m ∈ Hid.MODIFIER_USAGES,
    saidBy s.controller.history m false = s.controller.viewer.holds m
  settles : ∀ m ∈ Hid.MODIFIER_USAGES, Settles m s.controller.history
  pressed : ∀ m ∈ Hid.MODIFIER_USAGES, m ∈ s.host.keys.held → s.pressed m = true

section Steps

variable {grant : SessionGrant} {link : ℕ → SendAnswer} {s : InputLink} {m : UInt16}

/-- The payloads of a turn settle, because they all carry the mask of what is held at its end. -/
theorem settles_turn {c : Controller} (hm : m ∈ Hid.MODIFIER_USAGES) (h : Settles m c.history)
    (hsaid : saidBy c.history m false = c.viewer.holds m) (w : Viewer.Window) :
    Settles m (c.turn w).history := by
  intro before payload after hsplit hlacks hpressed
  rw [Controller.history_turn] at hsplit
  obtain ⟨key, -, -, hkey, husage, -⟩ := exists_modifierKey m hm
  -- A payload of the turn itself: the key is up at the turn's end, so something after it says so.
  have hlate : payload ∈ keyPayloads (c.viewer.turn w).1 → ∃ q ∈ after, q.Lifts m := by
    intro hmem
    have hend := Viewer.saidBy_turn c.viewer w hkey husage
    rw [Viewer.not_holds_of_lacks c.viewer w hm hmem hlacks, ← hsaid, ← saidBy_append, hsplit,
      ← List.singleton_append, ← List.append_assoc, saidBy_append, hpressed] at hend
    exact exists_lifts_of_saidBy hend
  rcases List.append_eq_append_iff.1 hsplit with ⟨more, -, hturn⟩ | ⟨rest, hhistory, hrest⟩
  · apply hlate
    rw [hturn]
    exact List.mem_append_right _ List.mem_cons_self
  · -- An earlier payload: what settled it before still does.
    cases rest with
    | nil =>
        apply hlate
        rw [List.nil_append] at hrest
        rw [← hrest]
        exact List.mem_cons_self
    | cons q rest =>
        rw [List.cons_append, List.cons.injEq] at hrest
        obtain ⟨rfl, rfl⟩ := hrest
        obtain ⟨q, hq, hlifts⟩ := h before payload rest hhistory hlacks hpressed
        exact ⟨q, List.mem_append_left _ hq, hlifts⟩

/-- More frames do not change what those that have arrived say. -/
theorem pressed_eq_of_prefix {s' : InputLink} (happlied : s'.applied = s.applied)
    (hlen : s.applied ≤ (s.controller.framesOn .inputKeys).length)
    (hkeys : s.controller.framesOn .inputKeys <+: s'.controller.framesOn .inputKeys) :
    s'.pressed m = s.pressed m := by
  obtain ⟨more, hmore⟩ := hkeys
  rw [pressed, pressed, happlied, ← hmore, List.take_append_of_le_length hlen]

/-- What the next frame of keys says. -/
theorem pressed_arriveKey {f : ControlFrame}
    (hf : (s.controller.framesOn .inputKeys)[s.applied]? = some f) (host : Injector) :
    ({ s with host := host, applied := s.applied + 1 } : InputLink).pressed m
      = f.payload.tells m (s.pressed m) := by
  rw [pressed, List.take_add_one, hf, List.map_append, saidBy_append]
  rfl

theorem tells_of_not_about {payload : Payload} (h : ¬ payload.About m) (was : Bool) :
    payload.tells m was = was := by
  cases payload with
  | keyEvent usagePage u action flags modifiers => exact if_neg h
  | _ => rfl

theorem tells_of_about {payload : Payload} (h : payload.About m) (was : Bool) :
    payload.tells m was = true ↔ ¬ payload.Lifts m := by
  cases payload with
  | keyEvent usagePage u action flags modifiers =>
      cases h
      simp [Payload.tells, Payload.Lifts]
  | _ => cases h

theorem trackable_of_lifts {payload : Payload} (h : payload.Lifts m) (inj : Injector) :
    payload.About m ∧ inj.EventTrackable payload := by
  cases payload with
  | keyEvent usagePage u action flags modifiers => exact ⟨h.1, fun hup => absurd h.2 hup⟩
  | _ => cases h

/-- The four kinds of steps. -/
theorem step_cases (grant : SessionGrant) (link : ℕ → SendAnswer) (s : InputLink) (e : Event) :
    (s.arrival e = none ∧ s.step grant link e = s) ∨
      (∃ w, e = .turn w ∧
        s.step grant link e = { s with controller := s.controller.turn w }) ∨
      (∃ nowMs, e = .drain nowMs ∧
        s.step grant link e = { s with controller := s.controller.drain link nowMs }) ∨
      (∃ nowMs f, e = .arriveKey nowMs ∧ s.arrival e = some (f, nowMs) ∧
        (s.controller.framesOn .inputKeys)[s.applied]? = some f ∧
        s.step grant link e
          = { s with host := s.host.hear grant (f, nowMs), applied := s.applied + 1 }) ∨
      ∃ i nowMs f, e = .arrivePointer i nowMs ∧ s.arrival e = some (f, nowMs) ∧
        (s.controller.framesOn .inputPointer)[i]? = some f ∧
        s.step grant link e = { s with host := s.host.hear grant (f, nowMs) } := by
  cases e with
  | turn w => exact .inr (.inl ⟨w, rfl, rfl⟩)
  | drain nowMs => exact .inr (.inr (.inl ⟨nowMs, rfl, rfl⟩))
  | arriveKey nowMs =>
      cases hf : (s.controller.framesOn .inputKeys)[s.applied]? with
      | none =>
          have harrival : s.arrival (.arriveKey nowMs) = none := by rw [arrival, hf]; rfl
          refine .inl ⟨harrival, ?_⟩
          simp only [step, harrival]
      | some f =>
          have harrival : s.arrival (.arriveKey nowMs) = some (f, nowMs) := by rw [arrival, hf]; rfl
          refine .inr (.inr (.inr (.inl ⟨nowMs, f, rfl, harrival, rfl, ?_⟩)))
          simp only [step, harrival]
  | arrivePointer i nowMs =>
      cases hf : (s.controller.framesOn .inputPointer)[i]? with
      | none =>
          have harrival : s.arrival (.arrivePointer i nowMs) = none := by rw [arrival, hf]; rfl
          refine .inl ⟨harrival, ?_⟩
          simp only [step, harrival]
      | some f =>
          have harrival : s.arrival (.arrivePointer i nowMs) = some (f, nowMs) := by
            rw [arrival, hf]
            rfl
          refine .inr (.inr (.inr (.inr ⟨i, nowMs, f, rfl, harrival, hf, ?_⟩)))
          simp only [step, harrival]

theorem mem_wire_of_framesOn {c : Controller} {channel : Channel} {i : ℕ} {f : ControlFrame}
    (h : (c.framesOn channel)[i]? = some f) : (channel, f) ∈ c.wire := by
  obtain ⟨x, hx, rfl⟩ := List.mem_map.1 (List.mem_of_getElem? h)
  obtain ⟨hmem, hchannel⟩ := List.mem_filter.1 hx
  rw [← of_decide_eq_true hchannel]
  exact hmem

theorem inv_step (hlink : ∀ n, link n = .sent) (h : Inv s) {e : Event}
    (haccepts : s.Accepts grant e) : Inv (s.step grant link e) := by
  obtain ⟨hb, hsent, happlied, hsaid, hsettles, hpressed⟩ := h
  rcases step_cases grant link s e with ⟨-, hstep⟩ | ⟨w, -, hstep⟩ | ⟨nowMs, -, hstep⟩ |
    ⟨nowMs, f, -, harrival, hf, hstep⟩ | ⟨i, nowMs, f, -, harrival, hf, hstep⟩
  · rw [hstep]
    exact ⟨hb, hsent, happlied, hsaid, hsettles, hpressed⟩
  · -- The window says something, and nothing of it is on its way yet.
    rw [hstep]
    refine ⟨hb, hsent, happlied, ?_, ?_, hpressed⟩
    · intro m hm
      obtain ⟨key, -, -, hkey, husage, -⟩ := exists_modifierKey m hm
      rw [Controller.history_turn, saidBy_append, hsaid m hm]
      exact Viewer.saidBy_turn s.controller.viewer w hkey husage
    · intro m hm
      exact settles_turn hm (hsettles m hm) (hsaid m hm) w
  · -- What was in the queue is on its way now.
    rw [hstep]
    obtain ⟨hviewer, hhistory, hkeys, hsent'⟩ :=
      Controller.forwarded_drain hlink nowMs s.controller
    refine ⟨hb, hsent' hsent, happlied.trans hkeys.length_le, ?_, ?_, ?_⟩
    · intro m hm
      rw [hhistory, hviewer]
      exact hsaid m hm
    · intro m hm
      rw [hhistory]
      exact hsettles m hm
    · intro m hm hheld
      have hsame : ({ s with controller := s.controller.drain link nowMs } : InputLink).pressed m
          = s.pressed m := pressed_eq_of_prefix rfl happlied hkeys
      exact hsame.trans (hpressed m hm hheld)
  · rw [hstep]
    have hkeys := Injector.keys_hear hb (haccepts _ harrival)
    have hcarries := (hsent _ (mem_wire_of_framesOn hf)).1
    refine ⟨Injector.neverFails_step hb _, hsent, ?_, hsaid, hsettles, ?_⟩
    · exact (List.getElem?_eq_some_iff.1 hf).1
    · intro m hm hheld
      rw [pressed_arriveKey hf]
      rw [hkeys] at hheld
      by_cases habout : f.payload.About m
      · rw [tells_of_about habout]
        exact ((Injector.mem_held_effect_iff_of_about habout).1 hheld).1
      · rw [tells_of_not_about habout]
        exact hpressed m hm ((Injector.mem_held_effect_iff hm hcarries habout).1 hheld).1
  · rw [hstep]
    have hkeys := Injector.keys_hear hb (haccepts _ harrival)
    obtain ⟨hcarries, habout⟩ := hsent _ (mem_wire_of_framesOn hf)
    -- A pointer frame presses nothing.
    refine ⟨Injector.neverFails_step hb _, hsent, happlied, hsaid, hsettles, ?_⟩
    intro m hm hheld
    rw [hkeys] at hheld
    exact hpressed m hm ((Injector.mem_held_effect_iff hm hcarries (habout rfl m)).1 hheld).1

/-- How a step changes whether a modifier is lost. -/
theorem lost_step_iff (hlink : ∀ n, link n = .sent) (hm : m ∈ Hid.MODIFIER_USAGES) (h : Inv s)
    {e : Event} (haccepts : s.Accepts grant e) :
    Lost m (s.step grant link e) ↔
      (Drops m s e ∨ LosesToKey m s e) ∨ Lost m s ∧ ¬ Restores m s e := by
  rcases step_cases grant link s e with ⟨hnone, hstep⟩ | ⟨w, rfl, hstep⟩ | ⟨nowMs, rfl, hstep⟩ |
    ⟨nowMs, f, rfl, harrival, hf, hstep⟩ | ⟨i, nowMs, f, rfl, harrival, hf, hstep⟩
  · rw [hstep]
    cases e with
    | arriveKey | arrivePointer => simp [Drops, LosesToKey, Restores, hnone]
    | _ => simp [Drops, LosesToKey, Restores]
  · rw [hstep]
    simp only [Drops, LosesToKey, Restores, or_self, false_or, not_false_eq_true, and_true]
    rfl
  · rw [hstep]
    have hsame : ({ s with controller := s.controller.drain link nowMs } : InputLink).pressed m
        = s.pressed m :=
      pressed_eq_of_prefix rfl h.applied (Controller.forwarded_drain hlink nowMs s.controller).keys
    simp only [Drops, LosesToKey, Restores, or_self, false_or, not_false_eq_true, and_true, Lost,
      hsame]
  · have hkeys := Injector.keys_hear h.neverFails (haccepts _ harrival)
    have hcarries := (h.sent _ (mem_wire_of_framesOn hf)).1
    simp only [hstep, Drops, LosesToKey, Restores, harrival, Option.some.injEq, exists_eq_left',
      Lost, pressed_arriveKey hf, hkeys]
    by_cases habout : f.payload.About m
    · rw [tells_of_about habout, Injector.mem_held_effect_iff_of_about habout]
      -- A release is always trackable, so that it restores.
      have htrack := fun hlifts : f.payload.Lifts m => (trackable_of_lifts hlifts s.host).2
      tauto
    · rw [tells_of_not_about habout, Injector.mem_held_effect_iff hm hcarries habout]
      tauto
  · have hkeys := Injector.keys_hear h.neverFails (haccepts _ harrival)
    obtain ⟨hcarries, habout⟩ := h.sent _ (mem_wire_of_framesOn hf)
    have hsame : ({ s with host := s.host.hear grant (f, nowMs) } : InputLink).pressed m
        = s.pressed m := rfl
    simp only [hstep, Drops, LosesToKey, Restores, harrival, Option.some.injEq, exists_eq_left',
      Lost, hsame, hkeys, Injector.mem_held_effect_iff hm hcarries (habout rfl m)]
    tauto

/-- What was said is not taken back. -/
theorem history_step (hlink : ∀ n, link n = .sent) (s : InputLink) (e : Event) :
    s.controller.history <+: (s.step grant link e).controller.history := by
  have hsame (h : (s.step grant link e).controller.history = s.controller.history) :
      s.controller.history <+: (s.step grant link e).controller.history := h ▸ List.prefix_rfl
  rcases step_cases grant link s e with ⟨-, hstep⟩ | ⟨w, -, hstep⟩ | ⟨nowMs, -, hstep⟩ |
    ⟨nowMs, f, -, -, -, hstep⟩ | ⟨i, nowMs, f, -, -, -, hstep⟩
  · exact hsame (by rw [hstep])
  · rw [hstep, Controller.history_turn]
    exact List.prefix_append _ _
  · apply hsame
    rw [hstep, (Controller.forwarded_drain hlink nowMs s.controller).history]
  · exact hsame (by rw [hstep])
  · exact hsame (by rw [hstep])

/-- A frame of keys arrives when it is its turn. -/
theorem applied_step_le {e : Event} {j : ℕ} {q : Payload}
    (hq : s.controller.history[j]? = some q) (hlifts : q.Lifts m) (hj : s.applied ≤ j)
    (hnot : ¬ Restores m s e) : (s.step grant link e).applied ≤ j := by
  rcases step_cases grant link s e with ⟨-, hstep⟩ | ⟨w, -, hstep⟩ | ⟨nowMs, -, hstep⟩ |
    ⟨nowMs, f, rfl, harrival, hf, hstep⟩ | ⟨i, nowMs, f, -, -, -, hstep⟩
  · rwa [hstep]
  · rwa [hstep]
  · rwa [hstep]
  · rw [hstep]
    refine Nat.lt_of_le_of_ne hj ?_
    -- If it were its turn now, this arrival would restore the modifier.
    rintro rfl
    have hlt : s.applied < (s.controller.framesOn .inputKeys).length :=
      (List.getElem?_eq_some_iff.1 hf).1
    rw [Controller.history, List.getElem?_append_left (by simpa using hlt), List.getElem?_map,
      hf] at hq
    obtain ⟨habout, htrack⟩ := trackable_of_lifts hlifts s.host
    cases hq
    exact hnot ⟨(f, nowMs), harrival, habout, htrack⟩
  · rwa [hstep]

/-- A key event on its way arrives before everything is quiet. -/
theorem sometime_restores (hlink : ∀ n, link n = .sent) {es : List Event} {j : ℕ} {q : Payload}
    (hq : s.controller.history[j]? = some q) (hlifts : q.Lifts m) (hj : s.applied ≤ j)
    (hquiet : (Machine.run (step grant link) s es).Quiet) :
    Machine.Sometime (step grant link) (Restores m) s es := by
  induction es generalizing s with
  | nil =>
      rw [Machine.run_nil] at hquiet
      have hlen := (List.getElem?_eq_some_iff.1 hq).1
      rw [Controller.history, hquiet.1, keyPayloads, List.filterMap_nil, List.append_nil,
        List.length_map, ← hquiet.2] at hlen
      exact absurd hj (Nat.not_le.2 hlen)
  | cons e es ih =>
      by_cases hnow : Restores m s e
      · exact .inl hnow
      · refine .inr (ih ?_ (applied_step_le hq hlifts hj hnow) hquiet)
        have hprefix : s.controller.history <+: (s.step grant link e).controller.history :=
          history_step hlink s e
        obtain ⟨more, hmore⟩ := hprefix
        rw [← hmore, List.getElem?_append_left (List.getElem?_eq_some_iff.1 hq).1]
        exact hq

/-- A modifier that is lost to a frame of keys is on its way up. -/
theorem sometime_restores_of_losesToKey (hlink : ∀ n, link n = .sent)
    (hm : m ∈ Hid.MODIFIER_USAGES) (h : Inv s) {e : Event} {es : List Event}
    (hlost : LosesToKey m s e)
    (hquiet : (Machine.run (step grant link) (s.step grant link e) es).Quiet) :
    Machine.Sometime (step grant link) (Restores m) (s.step grant link e) es := by
  cases e with
  | arriveKey nowMs =>
      obtain ⟨x, harrival, habout, hpressed, hlacks⟩ := hlost
      obtain ⟨f, hf, rfl⟩ := Option.map_eq_some_iff.1 harrival
      have hsplit : s.controller.history
          = ((s.controller.framesOn .inputKeys).take s.applied).map ControlFrame.payload ++
            f.payload :: (((s.controller.framesOn .inputKeys).drop (s.applied + 1)).map
              ControlFrame.payload ++ keyPayloads s.controller.queue) := by
        obtain ⟨hlt, hget⟩ := List.getElem?_eq_some_iff.1 hf
        rw [Controller.history, ← List.cons_append, ← List.map_cons, ← hget,
          List.getElem_cons_drop, ← List.append_assoc, ← List.map_append, List.take_append_drop]
      have hsaid : saidBy (((s.controller.framesOn .inputKeys).take s.applied).map
          ControlFrame.payload ++ [f.payload]) m false = true := by
        rw [saidBy_append]
        exact (tells_of_not_about habout _).trans hpressed
      obtain ⟨q, hq, hlifts⟩ := h.settles m hm _ _ _ hsplit hlacks hsaid
      obtain ⟨k, hk⟩ := List.mem_iff_getElem?.1 hq
      have hstep : s.step grant link (.arriveKey nowMs)
          = { s with host := s.host.hear grant (f, nowMs), applied := s.applied + 1 } := by
        simp only [step, harrival]
      have hlen : (((s.controller.framesOn .inputKeys).take s.applied).map
          ControlFrame.payload).length = s.applied := by
        rw [List.length_map, List.length_take, min_eq_left h.applied]
      refine sometime_restores hlink (j := s.applied + 1 + k) ?_ hlifts ?_ hquiet
      · rw [hstep]
        change s.controller.history[s.applied + 1 + k]? = some q
        rw [hsplit, List.getElem?_append_right (by omega), hlen,
          show s.applied + 1 + k - s.applied = k + 1 by omega, List.getElem?_cons_succ]
        exact hk
      · rw [hstep]
        exact Nat.le_add_right _ _
  | _ => cases hlost

/-- The frames of keys need not be looked at: whatever they make the host lose is settled. -/
theorem undone_iff (hlink : ∀ n, link n = .sent) (hm : m ∈ Hid.MODIFIER_USAGES) {es : List Event}
    (h : Inv s) (haccepts : Machine.Along (step grant link) (Accepts grant) s es)
    (hquiet : (Machine.run (step grant link) s es).Quiet) :
    Machine.Undone (step grant link) (fun s e => Drops m s e ∨ LosesToKey m s e) (Restores m) s es ↔
      Machine.Undone (step grant link) (Drops m) (Restores m) s es := by
  induction es generalizing s with
  | nil => exact Iff.rfl
  | cons e es ih =>
      rw [Machine.Undone, Machine.Undone, ih (inv_step hlink h haccepts.1) haccepts.2 hquiet]
      refine and_congr ⟨fun hundone hdrops => hundone (.inl hdrops), ?_⟩ Iff.rfl
      rintro hundone (hdrops | hlost)
      · exact hundone hdrops
      · exact sometime_restores_of_losesToKey hlink hm h hlost hquiet

/-- When everything is quiet, the modifiers have converged unless the host has lost one. -/
theorem converged_iff_not_lost (h : Inv s) (hquiet : s.Quiet) :
    s.Converged ↔ ∀ m ∈ Hid.MODIFIER_USAGES, ¬ Lost m s := by
  refine forall₂_congr fun m hm => ?_
  have hpressed : s.pressed m = s.controller.viewer.holds m := by
    rw [← h.said m hm, pressed, hquiet.2, List.take_length, Controller.history, hquiet.1,
      keyPayloads, List.filterMap_nil, List.append_nil]
  have hheld := h.pressed m hm
  rw [Lost, hpressed] at *
  tauto

end Steps

/-- **The modifiers converge.**  Over a link that does not fail, a backend that does not fail and
guards that let every frame through, for every sequence of turns of the window, of turns of the
session loop and of arrivals, with the frames of keys arriving in order and the pointer frames in
any order, repeatedly or not at all: when everything is quiet, the host tracks the modifiers that
the user holds exactly when every arrival of a pointer frame that lacks a modifier which is pressed,
and every press that finds no room, is followed by the arrival of another key event of that
modifier. -/
theorem converged_iff (grant : SessionGrant) (link : ℕ → SendAnswer) (host : Injector)
    (es : List Event) (hlink : ∀ n, link n = .sent) (hb : host.backend.NeverFails)
    (hnew : host.keys = .new)
    (haccepts : Machine.Along (step grant link) (Accepts grant) { host := host } es)
    (hquiet : (Machine.run (step grant link) { host := host } es).Quiet) :
    (Machine.run (step grant link) { host := host } es).Converged ↔
      ∀ m ∈ Hid.MODIFIER_USAGES,
        Machine.Undone (step grant link) (Drops m) (Restores m) { host := host } es := by
  have hstart : Inv { host := host } := by
    refine ⟨hb, ?_, Nat.le_refl _, ?_, ?_, ?_⟩
    · intro x hx
      cases hx
    · intro m _
      exact (List.any_eq_false.2 (by simp)).symm
    · intro m _ before payload after hsplit
      simp [Controller.history, Controller.framesOn, keyPayloads] at hsplit
    · intro m _ hheld
      rw [hnew] at hheld
      exact absurd hheld Std.ExtTreeSet.not_mem_empty
  have hinv := Machine.run_invariant_along Inv (fun _ _ h hgood => inv_step hlink h hgood) hstart
    haccepts
  rw [converged_iff_not_lost hinv hquiet]
  refine forall₂_congr fun m hm => ?_
  rw [← undone_iff hlink hm hstart haccepts hquiet]
  have hrun := Machine.not_run_iff_undone Inv (Lost m) (fun _ _ h hgood => inv_step hlink h hgood)
    (fun _ _ h hgood => lost_step_iff hlink hm h hgood) hstart haccepts
  refine hrun.trans (and_iff_right fun hlost => ?_)
  cases hlost.1

/-- A window in which some keys are held and the pointer is at a place. -/
def Sample.window (keys : List Key) (pointer : UInt16 × UInt16) : Viewer.Window where
  isOpen := true
  sessionOver := false
  isKeyDown key := keys.contains key
  pointer := some pointer
  mouseDown _ := false
  scroll := none

/-- The pointer moves and then the left Ctrl key goes down; the pointer frame arrives last. -/
def Sample.lateMove : List Event :=
  [.turn (Sample.window [] (0, 0)), .turn (Sample.window [.leftCtrl] (0, 0)), .drain 0,
    .arriveKey 0, .arrivePointer 0 0]

theorem Sample.accepts_lateMove :
    Machine.Along (step (Sample.grant true) fun _ => .sent) (Accepts (Sample.grant true))
      { host := Sample.injector } Sample.lateMove := by
  refine ⟨?_, ?_, ?_, ?_, ?_, trivial⟩
  · intro f hf
    cases hf
  · intro f hf
    cases hf
  · intro f hf
    cases hf
  · intro f hf
    have hframe : f = (.new (.keyEvent USAGE_PAGE_KEYBOARD 0xE0 .down 0 0x01) 1 0, 0) :=
      Option.some.inj (hf.symm.trans rfl)
    rw [hframe]
    exact ⟨rfl, rfl, ⟨.key, rfl, by decide⟩, by decide⟩
  · intro f hf
    have hframe : f = (.new (.mouseMove 0 0 0 0 0) 1 0, 0) := Option.some.inj (hf.symm.trans rfl)
    rw [hframe]
    exact ⟨by decide, rfl, ⟨.pointer, rfl, by decide⟩, by decide⟩

/-- The host releases a modifier that the user holds, and then the user releases it too. -/
theorem converged_of_one_key :
    (Machine.run (step (Sample.grant true) fun _ => .sent) { host := Sample.injector }
      (Sample.lateMove ++ [.turn (Sample.window [] (0, 0)), .drain 1, .arriveKey 1])).Converged ∧
    ∀ m ∈ Hid.MODIFIER_USAGES, Machine.Undone (step (Sample.grant true) fun _ => .sent) (Drops m)
      (Restores m) { host := Sample.injector }
      (Sample.lateMove ++ [.turn (Sample.window [] (0, 0)), .drain 1, .arriveKey 1]) := by
  have hconverged : (Machine.run (step (Sample.grant true) fun _ => .sent)
      { host := Sample.injector }
      (Sample.lateMove ++ [.turn (Sample.window [] (0, 0)), .drain 1, .arriveKey 1])).Converged := by
    decide
  refine ⟨hconverged, (converged_iff (Sample.grant true) (fun _ => .sent) Sample.injector _
    (fun _ => rfl) (fun _ => rfl) rfl ?_ ?_).1 hconverged⟩
  · refine Machine.along_append.2 ⟨Sample.accepts_lateMove, ?_, ?_, ?_, trivial⟩
    · intro f hf
      cases hf
    · intro f hf
      cases hf
    · intro f hf
      have hframe : f = (.new (.keyEvent USAGE_PAGE_KEYBOARD 0xE0 .up 0 0) 2 1, 1) :=
        Option.some.inj (hf.symm.trans rfl)
      rw [hframe]
      exact ⟨rfl, rfl, ⟨.key, rfl, by decide⟩, by decide⟩
  · exact ⟨by decide, by decide⟩

/-- The host releases a modifier that the user holds. -/
theorem modifier_lost :
    Sample.injector.backend.NeverFails ∧
    Machine.Along (step (Sample.grant true) fun _ => .sent) (Accepts (Sample.grant true))
      { host := Sample.injector } Sample.lateMove ∧
    (Machine.run (step (Sample.grant true) fun _ => .sent) { host := Sample.injector }
      Sample.lateMove).Quiet ∧
    ¬ (Machine.run (step (Sample.grant true) fun _ => .sent) { host := Sample.injector }
      Sample.lateMove).Converged := by
  refine ⟨fun _ => rfl, Sample.accepts_lateMove, ⟨?_, ?_⟩, ?_⟩
  · decide
  · decide
  · decide

end InputLink

end Rda
