/-
**The key state after a failure.**

The injector forgets the keys it is about to release, or takes over the keys of a snapshot, before
it makes the first call, and gives up at the first call that fails.  The releases that it does not
get to are then of keys that are down and that it no longer knows of.

Main definitions:

* `Rda.Injector.KeysTracked` — every key that is down is tracked as held;
* `Rda.Injector.Answers`, `Rda.Injector.Lands` — the next calls succeed, and a stroke of a list that
  is made before anything fails;
* `Rda.Injector.Undoes` — the strokes of an operation on the key state release every key that is
  down and is no longer tracked.

Main results:

* `Rda.Injector.mem_landed_reached` — the strokes that reach the machine;
* `Rda.Injector.keysTracked_iff_undoes` — what a loop of strokes leaves tracked;
* `Rda.keys_stay_tracked_iff` — **the failures after which the key state is honest**.
-/

import Rda.InjectorStrokes

set_option relaxedAutoImplicit false
set_option autoImplicit false

namespace Rda

namespace Injector

open Program (Keeps)

/-- Every key that is down at the machine is tracked as held. -/
def KeysTracked (inj : Injector) : Prop :=
  ∀ usage, inj.down (.key usage) = true → usage ∈ inj.keys.held

/-- The next calls, as many as this, all succeed. -/
def Answers (inj : Injector) (count : ℕ) : Prop :=
  ∀ j < count, (inj.backend.answers (inj.backend.log.length + j)).isOk = true

/-- The stroke is one of a list of strokes, and if they are made from here on, it succeeds and so do
those before it. -/
def Lands (inj : Injector) (actions : List KeyState.Action) (action : KeyState.Action) : Prop :=
  ∃ i, actions[i]? = some action ∧ inj.Answers (i + 1)

/-- Every key that is down and is not tracked after an operation on the key state has a release
among the strokes of the operation that lands. -/
def Undoes (inj : Injector) (o : List KeyState.Action × KeyState) : Prop :=
  ∀ usage, usage ∉ o.2.held → inj.down (.key usage) = true → inj.Lands o.1 (.release usage)

/-! ### The strokes that reach the machine -/

/-- The strokes that reach the machine are those before the first call that fails. -/
theorem mem_landed_reached {answers : ℕ → Except BackendError Unit} {n : ℕ}
    {actions : List KeyState.Action} {action : KeyState.Action} :
    action ∈ landed answers n (reached answers n actions) ↔
      ∃ i, actions[i]? = some action ∧ ∀ j < i + 1, (answers (n + j)).isOk = true := by
  induction actions generalizing n with
  | nil => simp [reached, landed]
  | cons first actions ih =>
      rw [reached, landed]
      cases hfirst : (answers n).isOk with
      | false =>
          refine iff_of_false (by simp [landed]) ?_
          rintro ⟨i, -, hok⟩
          have hzero := hok 0 (Nat.succ_pos i)
          rw [Nat.add_zero, hfirst] at hzero
          cases hzero
      | true =>
          rw [if_pos rfl, if_pos rfl, List.mem_cons, ih]
          constructor
          · rintro (rfl | ⟨i, hi, hok⟩)
            · refine ⟨0, rfl, fun j hj => ?_⟩
              obtain rfl : j = 0 := by omega
              exact hfirst
            · refine ⟨i + 1, hi, fun j hj => ?_⟩
              cases j with
              | zero => exact hfirst
              | succ j =>
                  have hnext := hok j (by omega)
                  rwa [Nat.add_right_comm] at hnext
          · rintro ⟨i, hi, hok⟩
            cases i with
            | zero => exact .inl (Option.some.inj hi).symm
            | succ i =>
                refine .inr ⟨i, hi, fun j hj => ?_⟩
                rw [Nat.add_right_comm]
                exact hok (j + 1) (by omega)

/-- Releases leave a key down exactly when it was down and is none of theirs. -/
theorem strikeAll_releases {usage : UInt16} {actions : List KeyState.Action} {wasDown : Bool}
    (h : ∀ action ∈ actions, action.usage = usage → action.isPress = false) :
    strikeAll usage actions wasDown = true ↔
      wasDown = true ∧ ∀ action ∈ actions, action.usage ≠ usage := by
  induction actions generalizing wasDown with
  | nil => simp [strikeAll]
  | cons first actions ih =>
      have hrest := fun action ha => h action (List.mem_cons_of_mem first ha)
      rw [strikeAll, List.foldl_cons, List.forall_mem_cons]
      refine (ih hrest).trans ?_
      by_cases hfirst : first.usage = usage
      · rw [if_pos hfirst.symm, h first List.mem_cons_self hfirst]
        simp [hfirst]
      · rw [if_neg (Ne.symm hfirst)]
        tauto

/-- **What a loop of strokes leaves tracked.**  If the strokes press only keys that are tracked at
the end and release only others, then every key that is down is tracked exactly when the strokes
undo what is no longer tracked. -/
theorem keysTracked_iff_undoes {inj' : Injector} (inj : Injector) (actions : List KeyState.Action)
    (hpress : ∀ action ∈ actions, action.isPress = true ↔ action.usage ∈ inj'.keys.held)
    (hdown : ∀ usage, inj'.down (.key usage)
      = strikeAll usage (landed inj.backend.answers inj.backend.log.length
          (reached inj.backend.answers inj.backend.log.length actions)) (inj.down (.key usage))) :
    inj'.KeysTracked ↔ inj.Undoes (actions, inj'.keys) := by
  refine forall_congr' fun usage => ?_
  rw [hdown, Lands]
  by_cases hmem : usage ∈ inj'.keys.held
  · exact iff_of_true (fun _ => hmem) fun hnot => absurd hmem hnot
  · have hrelease : ∀ action ∈ landed inj.backend.answers inj.backend.log.length
        (reached inj.backend.answers inj.backend.log.length actions),
        action.usage = usage → action = .release usage := by
      intro action haction husage
      obtain ⟨i, hi, -⟩ := mem_landed_reached.1 haction
      have hnot := mt (hpress action (List.mem_of_getElem? hi)).1 (husage ▸ hmem)
      cases action with
      | press u => exact absurd rfl hnot
      | release u => exact congrArg _ husage
    rw [strikeAll_releases fun action haction husage => by rw [hrelease action haction husage]; rfl]
    constructor
    · intro h _ hwas
      by_contra hn
      refine hmem (h ⟨hwas, fun action haction husage => hn ?_⟩)
      rw [hrelease action haction husage] at haction
      exact mem_landed_reached.1 haction
    · rintro h ⟨hwas, hothers⟩
      exact absurd rfl (hothers _ (mem_landed_reached.2 (h hmem hwas)))

/-! ### Releasing everything -/

section Release

variable {inj : Injector} {f : KeyState.Action → Inject BackendError PUnit}

/-- A stroke of a loop of releases is a call that releases its key. -/
def ReleasesBy (f : KeyState.Action → Inject BackendError PUnit)
    (actions : List KeyState.Action) : Prop :=
  ∀ inj, ∀ action ∈ actions,
    (f action).run inj = (attempt (.key action.usage action.isPress) id).run inj

/-- A loop of calls succeeds exactly when they all do. -/
theorem run_forM_eq_ok_iff {actions : List KeyState.Action} (hf : ReleasesBy f actions) :
    (∃ inj', (actions.forM f).run inj = .ok () inj') ↔ inj.Answers actions.length := by
  induction actions generalizing inj with
  | nil => exact iff_of_true ⟨inj, rfl⟩ fun j hj => absurd hj (Nat.not_lt_zero j)
  | cons action actions ih =>
      have hcons : (action :: actions).forM f = (f action >>= fun _ => actions.forM f) := rfl
      have hfirst := hf inj action List.mem_cons_self
      rw [hcons]
      cases hanswer : inj.backend.answers inj.backend.log.length with
      | ok =>
          rw [Program.run_bind_of_ok (hfirst.trans (run_attempt_of_ok hanswer _ _)),
            ih fun inj a ha => hf inj a (List.mem_cons_of_mem action ha)]
          constructor
          · intro h j hj
            cases j with
            | zero => simp [hanswer, Except.isOk, Except.toBool]
            | succ j =>
                have hnext := h j (Nat.lt_of_succ_lt_succ hj)
                rwa [length_log_calling, Nat.add_right_comm] at hnext
          · intro h j hj
            rw [length_log_calling, Nat.add_right_comm]
            exact h (j + 1) (Nat.succ_lt_succ hj)
      | error e =>
          rw [Program.run_bind_of_error (hfirst.trans (run_attempt_of_error hanswer _ _))]
          refine iff_of_false (by simp) fun h => ?_
          have hzero := h 0 (Nat.succ_pos _)
          rw [Nat.add_zero, hanswer] at hzero
          cases hzero

theorem keeps_forM {I : Injector → Prop} {actions : List KeyState.Action}
    (hI : ∀ inj c, I inj → I (inj.calling c)) (hf : ReleasesBy f actions) :
    Keeps I (actions.forM f) := by
  refine Keeps.forM fun action haction inj hinj => ?_
  rw [Program.final_eq_of_run_eq (hf inj action haction), final_attempt]
  exact hI inj _ hinj

/-- What is tracked after a loop that releases everything, with nothing tracked any more. -/
theorem keysTracked_released_iff (hf : ReleasesBy f inj.keys.releaseAll.1) :
    (Program.final (inj.keys.releaseAll.1.forM f) { inj with keys := .new }).KeysTracked ↔
      inj.Undoes inj.keys.releaseAll := by
  have hkeys := keeps_forM (I := fun s => s.keys = .new) (fun _ _ h => h) hf
    { inj with keys := .new } rfl
  refine (keysTracked_iff_undoes inj inj.keys.releaseAll.1 ?_ ?_).trans ?_
  · intro action haction
    rw [hkeys, isPress_of_mem_releaseAll haction]
    exact iff_of_false Bool.false_ne_true Std.ExtTreeSet.not_mem_empty
  · intro usage
    exact down_forM_attempt (fun s => (rfl : (id s).backend = s.backend)) hf
  · rw [hkeys]
    rfl

theorem keysTracked_releaseAll_iff :
    (inj.step .releaseAll).KeysTracked ↔ inj.Undoes inj.keys.releaseAll := by
  have hf : ReleasesBy (fun action => attempt (.key action.usage false) id)
      inj.keys.releaseAll.1 := by
    intro inj' action haction
    rw [isPress_of_mem_releaseAll haction]
  rw [← keysTracked_released_iff hf]
  have hrun : (releaseAll).run inj = ((inj.keys.releaseAll.1.forM
      fun action => attempt (.key action.usage false) id) >>= fun _ =>
        pure inj.keys.releaseAll.1.length : Inject BackendError ℕ).run
          { inj with keys := .new } := rfl
  rw [step, Program.final_eq_of_run_eq hrun]
  rcases Program.final_bind _ _ _ with ⟨e, -, h⟩ | ⟨_, -, h⟩
  · rw [h]
  · rw [h]
    rfl

/-- The loop in which the physical user takes control. -/
def takeOver (actions : List KeyState.Action) : Inject BackendError PUnit :=
  actions.forM fun action => attempt (.key action.usage action.isPress) id

theorem releasesBy_takeOver (actions : List KeyState.Action) :
    ReleasesBy (fun action => attempt (.key action.usage action.isPress) id) actions :=
  fun _ _ _ => rfl

/-- Control is taken after the loop, also when nothing is held. -/
theorem run_setLocalControl_local_eq (inj : Injector) :
    (setLocalControl .local).run inj
      = (takeOver inj.keys.releaseAll.1 >>= fun _ => modify fun inj =>
          { inj with localControl := .local } : Inject BackendError Unit).run
            { inj with keys := .new } := by
  have hrun : (setLocalControl .local).run inj
      = (if LocalControl.local = .local ∧ inj.keys.held.isEmpty = false then _ else _ :
          Inject BackendError Unit).run inj := rfl
  by_cases hempty : inj.keys.held.isEmpty = true
  · have hkeys : inj.keys = .new := by
      rw [KeyState.new, ← Std.ExtTreeSet.isEmpty_iff.1 hempty]
    have hnone : inj.keys.releaseAll.1 = [] := by
      rw [hkeys]
      rfl
    rw [hrun, if_neg (by simp [hempty]), hnone, ← hkeys]
    rfl
  · rw [hrun, if_pos ⟨rfl, by simpa using hempty⟩]
    rfl

theorem keysTracked_setLocalControl_iff :
    (inj.step (.setLocalControl .local)).KeysTracked ↔ inj.Undoes inj.keys.releaseAll := by
  rw [← keysTracked_released_iff (releasesBy_takeOver inj.keys.releaseAll.1), step,
    Program.final_eq_of_run_eq (run_setLocalControl_local_eq inj)]
  rcases Program.final_bind (takeOver inj.keys.releaseAll.1) (fun _ => modify fun inj =>
      { inj with localControl := .local } : PUnit → Inject BackendError Unit)
      { inj with keys := .new } with ⟨e, -, h⟩ | ⟨_, -, h⟩
  · rw [h]
    rfl
  · rw [h]
    exact Iff.rfl

/-- The peer is shut out when control was taken before, or when no release fails. -/
theorem localControl_setLocalControl_iff :
    (inj.step (.setLocalControl .local)).localControl = .local ↔
      inj.localControl = .local ∨ inj.Answers inj.keys.releaseAll.1.length := by
  have hok := @run_forM_eq_ok_iff { inj with keys := .new } _ _
    (releasesBy_takeOver inj.keys.releaseAll.1)
  have hkept := keeps_forM (I := fun s => s.localControl = inj.localControl) (fun _ _ h => h)
    (releasesBy_takeOver inj.keys.releaseAll.1) { inj with keys := .new } rfl
  rw [step, Program.final_eq_of_run_eq (run_setLocalControl_local_eq inj)]
  rcases Program.final_bind (takeOver inj.keys.releaseAll.1) (fun _ => modify fun inj =>
      { inj with localControl := .local } : PUnit → Inject BackendError Unit)
      { inj with keys := .new } with ⟨e, hrun, h⟩ | ⟨_, hrun, h⟩
  · have hfails : ¬ inj.Answers inj.keys.releaseAll.1.length := by
      rintro hanswers
      obtain ⟨inj', hrun'⟩ := hok.2 hanswers
      cases hrun.symm.trans hrun'
    rw [h, or_iff_left hfails]
    exact Eq.congr hkept rfl
  · rw [h]
    exact iff_of_true rfl (.inr (hok.1 ⟨_, hrun⟩))

end Release

/-! ### Snapshots -/

theorem keysTracked_keyStateSync_iff {inj : Injector} {grant : SessionGrant} {header : Header}
    {nowMs : ℕ} {modifiers : UInt16} {authoritative : Bool} {pressed : List UInt16}
    (hpass : inj.Passes grant (.keyStateSync modifiers authoritative pressed) nowMs) :
    (inj.step (.apply grant ⟨header, .keyStateSync modifiers authoritative pressed⟩
        nowMs)).KeysTracked ↔ inj.Undoes (inj.keys.reconcile pressed) := by
  obtain ⟨cls, hcls, -⟩ := hpass.budget
  have hkeys : (inj.step (.apply grant ⟨header, .keyStateSync modifiers authoritative pressed⟩
      nowMs)).keys = (inj.keys.reconcile pressed).2 := by
    have hkeep : Keeps (fun s => s.keys = (inj.keys.reconcile pressed).2) (do
        (inj.keys.reconcile pressed).1.forM perform
        modify countInjected : Inject GuardError Unit) :=
      Keeps.bind (Keeps.forM fun action _ => Keeps.bind (Keeps.modify fun _ h => h) fun _ =>
        keeps_guarded (fun _ h => h) "usage_id") fun _ => Keeps.modify fun _ h => h
    rw [final_apply_of_passes hpass hcls]
    exact hkeep { inj.rated cls nowMs with keys := (inj.keys.reconcile pressed).2 } rfl
  refine (keysTracked_iff_undoes inj (inj.keys.reconcile pressed).1 ?_ ?_).trans ?_
  · intro action haction
    rw [hkeys]
    rcases List.mem_append.1 haction with hrelease | hpress
    · obtain ⟨usage, hmem, rfl⟩ := List.mem_map.1 hrelease
      exact iff_of_false Bool.false_ne_true (KeyState.mem_filter_not_contains.1 hmem).2
    · obtain ⟨usage, hmem, rfl⟩ := List.mem_map.1 hpress
      exact iff_of_true rfl (KeyState.mem_filter_not_contains.1 hmem).1
  · intro usage
    exact down_step_of_passes hpass
  · rw [hkeys]

theorem keysTracked_of_not_passes {inj : Injector} {grant : SessionGrant} {frame : ControlFrame}
    {nowMs : ℕ} (h : ¬ inj.Passes grant frame.payload nowMs) :
    (inj.step (.apply grant frame nowMs)).KeysTracked ↔ inj.KeysTracked := by
  rw [step_apply_of_not_passes h]
  exact Iff.rfl

end Injector

open Injector in
/-- **The failures after which the key state is honest.**  For every injector and every backend,
after everything was released, and after the physical user took control, every key that is down is
tracked exactly when every key that was down has a release among the calls before the first one that
fails; after a snapshot that the guards let through, exactly when every key that was down and is not
asked for by the snapshot has.  The peer is shut out after the physical user took control exactly
when it was before or all the releases succeed. -/
theorem keys_stay_tracked_iff (inj : Injector) :
    ((inj.step .releaseAll).KeysTracked ↔ inj.Undoes inj.keys.releaseAll) ∧
      ((inj.step (.setLocalControl .local)).KeysTracked ↔ inj.Undoes inj.keys.releaseAll) ∧
      ((inj.step (.setLocalControl .local)).localControl = .local ↔
        inj.localControl = .local ∨ inj.Answers inj.keys.releaseAll.1.length) ∧
      ∀ grant header modifiers authoritative pressed nowMs,
        ((inj.step (.apply grant ⟨header, .keyStateSync modifiers authoritative pressed⟩
            nowMs)).KeysTracked ↔
          (inj.Passes grant (.keyStateSync modifiers authoritative pressed) nowMs →
            inj.Undoes (inj.keys.reconcile pressed)) ∧
          (¬ inj.Passes grant (.keyStateSync modifiers authoritative pressed) nowMs →
            inj.KeysTracked)) := by
  refine ⟨keysTracked_releaseAll_iff, keysTracked_setLocalControl_iff,
    localControl_setLocalControl_iff, ?_⟩
  intro grant header modifiers authoritative pressed nowMs
  by_cases hpass : inj.Passes grant (.keyStateSync modifiers authoritative pressed) nowMs
  · rw [keysTracked_keyStateSync_iff hpass, imp_iff_right hpass]
    exact (and_iff_left fun hn => absurd hpass hn).symm
  · rw [keysTracked_of_not_passes hpass, imp_iff_right hpass]
    exact (and_iff_right fun hp => absurd hp hpass).symm

/-- Two letters are typed, and the third call to the backend will fail. -/
def Sample.typed : Injector :=
  Machine.run Injector.step
    (.new (.new fun n => if n = 2 then .error (.injectionFailed "busy") else .ok ())
      [⟨0, 0, 0, 1920, 1080⟩])
    [Sample.event (.keyEvent USAGE_PAGE_KEYBOARD 0x04 .down 0 0) 0,
      Sample.event (.keyEvent USAGE_PAGE_KEYBOARD 0x05 .down 0 0) 1]

open Injector in
/-- The release of the first letter fails, and the second letter stays down and is forgotten,
however it comes to be released.  The peer keeps control. -/
theorem keys_forgotten_after_failure :
    ¬ (Sample.typed.step .releaseAll).KeysTracked ∧
      ¬ (Sample.typed.step (.setLocalControl .local)).KeysTracked ∧
      (Sample.typed.step (.setLocalControl .local)).localControl = .remote ∧
      ¬ (Sample.typed.step (Sample.event (.keyStateSync 0 true []) 2)).KeysTracked := by
  refine ⟨fun h => ?_, fun h => ?_, by decide, fun h => ?_⟩
  all_goals
    have hheld := h 0x05
    revert hheld
    decide

end Rda
