/-
**The strokes of an event.**

What an event does to the keys of the machine can be read off the keys that are tracked as held and
the backend's answers, before the event is applied: it releases the modifiers that its mask lacks,
and presses or releases a key of its own; a snapshot releases and presses the difference, up to the
first call that fails.

Main definitions:

* `Rda.Injector.asked`, `Rda.Injector.landing` — the strokes an event asks for, and those that
  succeed;
* `Rda.Injector.hear` — an input frame that arrives at a time, as one step;
* `Rda.Injector.Strikes` — the last stroke of a key in a frame is a press, or a release.

Main results:

* `Rda.Injector.down_step_of_passes` — **the keys after an event**, whatever the backend;
* `Rda.Injector.up_run_iff_undone` — a key is up after a run of frames exactly when every frame
  that presses it is followed by one that releases it.
-/

import Rda.InjectorGuards
import Rda.InjectorHeld

set_option relaxedAutoImplicit false
set_option autoImplicit false

namespace Rda

namespace Injector

/-! ### Strokes -/

/-- The strokes an event makes at the machine, successful or not, given the keys tracked as held. -/
def asked (inj : Injector) : Payload → List KeyState.Action
  | .mouseMove _ _ _ _ modifiers => (inj.keys.reconcileModifiers modifiers).1
  | .mouseMoveRelative _ _ modifiers _ => (inj.keys.reconcileModifiers modifiers).1
  | .mouseButton _ _ _ _ modifiers _ _ => (inj.keys.reconcileModifiers modifiers).1
  | .mouseWheel _ _ modifiers _ _ => (inj.keys.reconcileModifiers modifiers).1
  | .keyEvent _ usageId action _ modifiers =>
      (inj.keys.reconcileModifiers modifiers).1 ++
        [if action = .up then .release usageId else .press usageId]
  | .keyStateSync _ _ pressed =>
      reached inj.backend.answers inj.backend.log.length (inj.keys.reconcile pressed).1
  | _ => []

/-- The strokes of a list that succeed, if the first one is the `n`-th call. -/
def landed (answers : ℕ → Except BackendError Unit) : ℕ → List KeyState.Action →
    List KeyState.Action
  | _, [] => []
  | n, action :: actions =>
      if (answers n).isOk then action :: landed answers (n + 1) actions
      else landed answers (n + 1) actions

/-- The strokes of an event that succeed. -/
def landing (inj : Injector) (payload : Payload) : List KeyState.Action :=
  landed inj.backend.answers inj.backend.log.length (inj.asked payload)

theorem landed_append (answers : ℕ → Except BackendError Unit) (n : ℕ)
    (actions more : List KeyState.Action) :
    landed answers n (actions ++ more)
      = landed answers n actions ++ landed answers (n + actions.length) more := by
  induction actions generalizing n with
  | nil => rfl
  | cons action actions ih =>
      have hlen : n + (action :: actions).length = n + 1 + actions.length := by
        rw [List.length_cons]
        omega
      rw [List.cons_append, landed, landed, ih, hlen]
      split <;> rfl

/-- Whether a key is down after strokes that all succeeded. -/
def strikeAll (usage : UInt16) (actions : List KeyState.Action) (wasDown : Bool) : Bool :=
  actions.foldl (fun down action => if usage = action.usage then action.isPress else down) wasDown

section Calls

variable {inj : Injector} {usage : UInt16}

theorem down_calling (c : BackendCall) :
    (inj.calling c).down (.key usage)
      = if (inj.backend.answers inj.backend.log.length).isOk
          then c.strike (.key usage) (inj.down (.key usage)) else inj.down (.key usage) := by
  rw [down, calling, Backend.call, downAfter, List.foldl_append]
  rfl

/-- A call that is no stroke leaves the keys of the machine alone. -/
theorem down_calling_of_not_key {c : BackendCall} (hc : ∀ u d, c ≠ .key u d) :
    (inj.calling c).down (.key usage) = inj.down (.key usage) := by
  rw [down_calling]
  split
  · cases c with
    | key u d => exact absurd rfl (hc u d)
    | button which d => rfl
    | _ => rfl
  · rfl

/-- A call that is a stroke. -/
theorem down_calling_action (action : KeyState.Action) :
    (inj.calling (.key action.usage action.isPress)).down (.key usage)
      = strikeAll usage (landed inj.backend.answers inj.backend.log.length [action])
          (inj.down (.key usage)) := by
  rw [down_calling, landed]
  split
  · rw [BackendCall.strike]
    simp only [Switch.key.injEq]
    rfl
  · rfl

theorem strikeAll_append (actions more : List KeyState.Action) (wasDown : Bool) :
    strikeAll usage (actions ++ more) wasDown
      = strikeAll usage more (strikeAll usage actions wasDown) := List.foldl_append

theorem landed_cons (answers : ℕ → Except BackendError Unit) (n : ℕ) (action : KeyState.Action)
    (actions : List KeyState.Action) :
    landed answers n (action :: actions)
      = landed answers n [action] ++ landed answers (n + 1) actions :=
  landed_append answers n [action] actions

theorem length_log_calling (c : BackendCall) :
    (inj.calling c).backend.log.length = inj.backend.log.length + 1 := List.length_append

/-- A loop of strokes whose failures are not noticed. -/
theorem down_foldl_calling (actions : List KeyState.Action)
    (h : ∀ action ∈ actions, action.isPress = false) :
    let s := actions.foldl (fun s action => s.countReconciled.calling (.key action.usage false)) inj
    s.backend.answers = inj.backend.answers ∧
      s.backend.log.length = inj.backend.log.length + actions.length ∧
      s.down (.key usage)
        = strikeAll usage (landed inj.backend.answers inj.backend.log.length actions)
            (inj.down (.key usage)) := by
  induction actions generalizing inj with
  | nil => exact ⟨rfl, rfl, rfl⟩
  | cons action actions ih =>
      obtain ⟨hanswers, hlen, hdown⟩ := @ih
        (inj.countReconciled.calling (.key action.usage false))
        fun a ha => h a (List.mem_cons_of_mem _ ha)
      rw [length_log_calling] at hlen hdown
      refine ⟨hanswers, ?_, ?_⟩
      · rw [List.foldl_cons, hlen, List.length_cons, Nat.add_assoc, Nat.add_comm 1]
        rfl
      · have hstroke := @down_calling_action inj.countReconciled usage action
        rw [h action List.mem_cons_self] at hstroke
        rw [List.foldl_cons, hdown, hstroke,
          landed_cons inj.backend.answers inj.backend.log.length action actions, strikeAll_append]
        rfl

/-- Releasing the modifiers that an event no longer carries. -/
theorem down_swept (inj : Injector) (modifiers : UInt16) :
    (inj.swept modifiers).backend.answers = inj.backend.answers ∧
      (inj.swept modifiers).backend.log.length
        = inj.backend.log.length + (inj.keys.reconcileModifiers modifiers).1.length ∧
      (inj.swept modifiers).down (.key usage)
        = strikeAll usage (landed inj.backend.answers inj.backend.log.length
            (inj.keys.reconcileModifiers modifiers).1) (inj.down (.key usage)) := by
  refine @down_foldl_calling { inj with keys := (inj.keys.reconcileModifiers modifiers).2 } usage
    (inj.keys.reconcileModifiers modifiers).1 ?_
  intro action haction
  obtain ⟨u, -, rfl⟩ := List.mem_map.1 haction
  rfl

/-- A loop of strokes that ends with the first one that fails. -/
theorem down_forM_attempt {ε : Type} {f : KeyState.Action → Inject ε PUnit}
    {asError : BackendError → ε} {count : Injector → Injector} {actions : List KeyState.Action}
    (hcount : ∀ inj, (count inj).backend = inj.backend)
    (hround : ∀ inj, ∀ action ∈ actions, (f action).run inj
      = (attempt (.key action.usage action.isPress) asError).run (count inj)) :
    (Program.final (actions.forM f) inj).down (.key usage)
      = strikeAll usage (landed inj.backend.answers inj.backend.log.length
          (reached inj.backend.answers inj.backend.log.length actions))
          (inj.down (.key usage)) := by
  induction actions generalizing inj with
  | nil => rfl
  | cons action actions ih =>
      have hcons : (action :: actions).forM f = (f action >>= fun _ => actions.forM f) := rfl
      have hanswers : ∀ {answer}, inj.backend.answers inj.backend.log.length = answer →
          (count inj).backend.answers (count inj).backend.log.length = answer := by
        intro answer h
        rw [hcount]
        exact h
      have hnext : ((count inj).calling (.key action.usage action.isPress)).backend.answers
          = inj.backend.answers := by
        change (count inj).backend.answers = inj.backend.answers
        rw [hcount]
      have hstroke := @down_calling_action (count inj) usage action
      have hdown : (count inj).down (.key usage) = inj.down (.key usage) := by
        rw [down, down, hcount]
      have hfirst := hround inj action List.mem_cons_self
      have hrest := fun inj a ha => hround inj a (List.mem_cons_of_mem action ha)
      rw [hcount, hdown] at hstroke
      rw [hcons, reached, landed_cons, strikeAll_append, ← hstroke]
      cases hanswer : inj.backend.answers inj.backend.log.length with
      | ok =>
          have hrun := hfirst.trans (run_attempt_of_ok (hanswers hanswer) _ _)
          rw [Program.final_bind_of_ok hrun, ih hrest, length_log_calling, hnext, hcount]
          rfl
      | error e =>
          -- The loop ends here, and the strokes after it are not made.
          have hrun := hfirst.trans (run_attempt_of_error (hanswers hanswer) _ _)
          rw [Program.final_of_error (Program.run_bind_of_error hrun)]
          rfl

/-- The strokes of a snapshot. -/
theorem down_forM_perform (actions : List KeyState.Action) :
    (Program.final (actions.forM perform) inj).down (.key usage)
      = strikeAll usage (landed inj.backend.answers inj.backend.log.length
          (reached inj.backend.answers inj.backend.log.length actions))
          (inj.down (.key usage)) :=
  @down_forM_attempt inj usage _ perform (fun _ => .invalidField "usage_id") countReconciled
    actions (fun _ => rfl) fun _ _ _ => rfl

end Calls

/-! ### Events -/

section Events

variable {inj : Injector} {grant : SessionGrant} {frame : ControlFrame} {nowMs : ℕ} {usage : UInt16}

/-- What follows the release of the modifiers in an event without a stroke of its own. -/
theorem down_final_of_sync {x : Inject GuardError Unit} {modifiers : UInt16} {b : Bool}
    (hx : Program.Keeps (fun s => s.down (.key usage) = b) x)
    (hb : strikeAll usage (landed inj.backend.answers inj.backend.log.length
      (inj.keys.reconcileModifiers modifiers).1) (inj.down (.key usage)) = b) :
    (Program.final (syncModifiers modifiers >>= fun _ => x) inj).down (.key usage) = b := by
  rw [Program.final_bind_of_ok (run_syncModifiers_any inj modifiers)]
  exact hx _ ((down_swept inj modifiers).2.2.trans hb)

theorem keeps_down_guarded {b : Bool} {c : BackendCall} (hc : ∀ u d, c ≠ .key u d)
    (field : String) :
    Program.Keeps (fun s => s.down (.key usage) = b) (guarded c field) :=
  keeps_guarded (fun _ h => (down_calling_of_not_key hc).trans h) field

theorem keeps_down_countInjected {b : Bool} :
    Program.Keeps (fun s => s.down (.key usage) = b)
      (modify countInjected : Inject GuardError Unit) :=
  Program.Keeps.modify fun _ h => h

theorem down_countInjected {x : Inject GuardError Unit} :
    (Program.final (x >>= fun _ => modify countInjected) inj).down (.key usage)
      = (Program.final x inj).down (.key usage) := by
  rcases Program.final_bind x (fun _ => modify countInjected) inj with ⟨e, -, h⟩ | ⟨_, -, h⟩
  · rw [h]
  · rw [h]
    rfl

/-- Carrying out an event makes its strokes, as far as they succeed. -/
theorem down_carryOut {payload : Payload} (hfields : inj.FieldsOk payload) :
    (Program.final (carryOut payload) inj).down (.key usage)
      = strikeAll usage (inj.landing payload) (inj.down (.key usage)) := by
  have hend := fun b => @keeps_down_countInjected usage b
  cases payload with
  | mouseMove displayId flags xNorm yNorm modifiers =>
      obtain ⟨geom, hgeom⟩ := Option.isSome_iff_exists.1 hfields
      rw [carryOut, Program.final_bind_of_ok (run_requireDisplay hgeom)]
      exact down_final_of_sync
        (Program.Keeps.bind (keeps_down_guarded (by simp) _) fun _ => hend _) rfl
  | mouseMoveRelative dx dy modifiers displayId =>
      exact down_final_of_sync
        (Program.Keeps.bind (keeps_down_guarded (by simp) _) fun _ => hend _) rfl
  | mouseButton button action xNorm yNorm modifiers displayId clickCount =>
      obtain ⟨geom, hgeom⟩ := Option.isSome_iff_exists.1 hfields
      rw [carryOut, Program.final_bind_of_ok (run_requireDisplay hgeom)]
      exact down_final_of_sync
        (Program.Keeps.bind (keeps_down_guarded (by simp) _) fun _ =>
          Program.Keeps.bind (keeps_down_guarded (by simp) _) fun _ => hend _) rfl
  | mouseWheel deltaV deltaH modifiers displayId flags =>
      exact down_final_of_sync
        (Program.Keeps.bind (keeps_down_guarded (by simp) _) fun _ => hend _) rfl
  | keyEvent usagePage usageId action flags modifiers =>
      obtain ⟨hanswers, hlen, hdown⟩ := @down_swept usage inj modifiers
      -- The event's own stroke comes after those of its mask.
      have hstroke : BackendCall.key usageId (action != .up) =
          .key (if action = .up then KeyState.Action.release usageId else .press usageId).usage
            (if action = .up then KeyState.Action.release usageId else .press usageId).isPress := by
        cases action <;> rfl
      have hfinal :
          Program.final (carryOut (.keyEvent usagePage usageId action flags modifiers)) inj
            = Program.final (do
            guarded (.key usageId (action != .up)) "usage_id"
            modify countInjected : Inject GuardError Unit)
              { inj.swept modifiers with
                keys := if action != .up then ((inj.swept modifiers).keys.press usageId).2
                  else ((inj.swept modifiers).keys.release usageId).2 } :=
        Program.final_bind_of_ok (run_syncModifiers_any inj modifiers)
      rw [hfinal, down_countInjected, guarded, final_attempt, hstroke, down_calling_action, landing,
        asked, landed_append, strikeAll_append, ← hdown, ← hlen, ← hanswers]
      rfl
  | keyStateSync modifiers authoritative pressed =>
      refine down_countInjected.trans ?_
      exact down_forM_perform (inj.keys.reconcile pressed).1
  | textInput commit preedit text =>
      cases commit with
      | false => rfl
      | true =>
          have htext :=
            @keeps_down_guarded usage (inj.down (.key usage)) (.text text) (by simp) "text"
          exact (Program.Keeps.bind htext fun _ => hend _) inj rfl
  | _ => rfl

/-- **The keys after an event** that passes the guards, whatever the backend answers. -/
theorem down_step_of_passes (hpass : inj.Passes grant frame.payload nowMs) :
    (inj.step (.apply grant frame nowMs)).down (.key usage)
      = strikeAll usage (inj.landing frame.payload) (inj.down (.key usage)) := by
  obtain ⟨cls, hcls, -⟩ := hpass.budget
  rw [final_apply_of_passes hpass hcls]
  exact @down_carryOut (inj.rated cls nowMs) usage _ hpass.fields

end Events

/-! ### Runs of input frames -/

/-- The injector after an input frame that arrived at a time. -/
def hear (grant : SessionGrant) (inj : Injector) (f : ControlFrame × ℕ) : Injector :=
  inj.step (.apply grant f.1 f.2)

/-- The frame passes the guards, and its last stroke of the key that succeeds is a press, or a
release. -/
def Strikes (grant : SessionGrant) (usage : UInt16) (pressed : Bool) (inj : Injector)
    (f : ControlFrame × ℕ) : Prop :=
  inj.Passes grant f.1.payload f.2 ∧
    ∃ action ∈ ((inj.landing f.1.payload).filter fun action => usage = action.usage).getLast?,
      action.isPress = pressed

theorem strikeAll_eq (usage : UInt16) (actions : List KeyState.Action) (wasDown : Bool) :
    strikeAll usage actions wasDown
      = (((actions.filter fun action => usage = action.usage).getLast?).map
          KeyState.Action.isPress).getD wasDown := by
  induction actions generalizing wasDown with
  | nil => rfl
  | cons action actions ih =>
      rw [strikeAll, List.foldl_cons]
      refine (ih _).trans ?_
      by_cases hu : usage = action.usage
      · rw [if_pos hu, List.filter_cons_of_pos (by simpa using hu), List.getLast?_cons]
        cases (actions.filter fun action => usage = action.usage).getLast? with
        | none => rfl
        | some last => rfl
      · rw [if_neg hu, List.filter_cons_of_neg (by simpa using hu)]

theorem down_hear_iff (grant : SessionGrant) (usage : UInt16) (inj : Injector)
    (f : ControlFrame × ℕ) :
    (inj.hear grant f).down (.key usage) = true ↔
      inj.Strikes grant usage true f ∨
        inj.down (.key usage) = true ∧ ¬ inj.Strikes grant usage false f := by
  by_cases hpass : inj.Passes grant f.1.payload f.2
  · rw [hear, down_step_of_passes hpass, strikeAll_eq, Strikes, Strikes]
    cases ((inj.landing f.1.payload).filter fun action => usage = action.usage).getLast? with
    | none => simp
    | some action => simp [hpass]
  · have hdown : (inj.hear grant f).down (.key usage) = inj.down (.key usage) := by
      rw [hear, down, step_apply_of_not_passes hpass]
      rfl
    rw [hdown]
    exact ⟨fun h => .inr ⟨h, fun hs => hpass hs.1⟩, fun h => h.elim (fun hs => absurd hs.1 hpass)
      And.left⟩

/-- A key that nobody has struck yet is up after a run of input frames exactly when every frame that
presses it is followed by one that releases it. -/
theorem up_run_iff_undone {grant : SessionGrant} {usage : UInt16} {inj : Injector}
    (hinj : inj.down (.key usage) = false) (fs : List (ControlFrame × ℕ)) :
    (Machine.run (hear grant) inj fs).down (.key usage) = false ↔
      Machine.Undone (hear grant) (fun inj f => inj.Strikes grant usage true f)
        (fun inj f => inj.Strikes grant usage false f) inj fs := by
  have hall : Machine.Along (hear grant) (fun _ _ => True) inj fs :=
    Machine.along_of_forall (fun _ _ => trivial) inj fs
  have hrun := Machine.not_run_iff_undone (fun _ => True)
    (fun inj : Injector => inj.down (.key usage) = true) (fun _ _ _ _ => trivial)
    (fun inj f _ _ => down_hear_iff grant usage inj f) trivial hall
  rw [Bool.not_eq_true] at hrun
  refine hrun.trans (and_iff_right fun h => ?_)
  rw [hinj] at h
  cases h

end Injector

end Rda
