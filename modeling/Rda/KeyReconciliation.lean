/-
**What reconciling asks for.**

Each of the three ways to reconcile the key state changes the set of keys held and returns the
strokes that are to be made at the machine.  The strokes are exact: made one after the other on the
keys that were held they leave the keys that are held afterwards, each one changes something, and no
key is struck twice.

Main definitions:

* `Rda.KeyState.Action.apply` — a stroke on a set of keys;
* `Rda.KeyState.Action.Needed` — a stroke that changes the set;
* `Rda.KeyState.Exact` — the strokes of an operation are those between the two states.

Main results:

* `Rda.KeyState.exact_of_strokes` — releases of keys that are held and presses of keys that are not,
  in this order, are exact;
* `Rda.KeyState.exact_reconcile`, `Rda.KeyState.exact_reconcileModifiers`,
  `Rda.KeyState.exact_releaseAll` — so are those of the three operations;
* `Rda.key_reconciliation_exact` — **reconciliation is exact**.
-/

import Rda.KeyState
import Rda.Machine

set_option relaxedAutoImplicit false
set_option autoImplicit false

namespace Rda

namespace KeyState

/-! ### Strokes on a set of keys -/

/-- The keys that are down after a stroke. -/
def Action.apply (held : Std.ExtTreeSet UInt16) : Action → Std.ExtTreeSet UInt16
  | .press usage => held.insert usage
  | .release usage => held.erase usage

/-- The stroke is not redundant: it presses a key that is up or releases one that is down. -/
def Action.Needed (held : Std.ExtTreeSet UInt16) : Action → Prop
  | .press usage => usage ∉ held
  | .release usage => usage ∈ held

/-- The strokes of an operation are those between the state before and the state after it. -/
structure Exact (s : KeyState) (o : List Action × KeyState) : Prop where
  applied : Machine.run Action.apply s.held o.1 = o.2.held
  needed : Machine.Along Action.apply Action.Needed s.held o.1
  once : (o.1.map Action.usage).Nodup

/-- Releases, and then presses. -/
def strokes (releases presses : List UInt16) : List Action :=
  releases.map .release ++ presses.map .press

section Strokes

variable {held : Std.ExtTreeSet UInt16} {usage : UInt16} {usages releases presses : List UInt16}

theorem mem_run_releases :
    usage ∈ Machine.run Action.apply held (usages.map .release) ↔
      usage ∈ held ∧ usage ∉ usages := by
  rw [Machine.run, List.foldl_map]
  exact mem_foldl_erase

theorem mem_run_presses :
    usage ∈ Machine.run Action.apply held (usages.map .press) ↔
      usage ∈ usages ∨ usage ∈ held := by
  induction usages generalizing held with
  | nil => simp
  | cons u usages ih =>
      rw [List.map_cons, Machine.run_cons, ih, Action.apply, Std.ExtTreeSet.mem_insert,
        Std.compare_eq_iff_eq, List.mem_cons, eq_comm, or_assoc, or_left_comm]

theorem mem_run_strokes :
    usage ∈ Machine.run Action.apply held (strokes releases presses) ↔
      usage ∈ presses ∨ usage ∈ held ∧ usage ∉ releases := by
  rw [strokes, Machine.run_append, mem_run_presses, mem_run_releases]

theorem needed_releases (hnodup : usages.Nodup) (h : ∀ usage ∈ usages, usage ∈ held) :
    Machine.Along Action.apply Action.Needed held (usages.map .release) := by
  induction usages generalizing held with
  | nil => trivial
  | cons u usages ih =>
      obtain ⟨hu, hnodup⟩ := List.nodup_cons.1 hnodup
      refine ⟨h u List.mem_cons_self, ih hnodup fun v hv => ?_⟩
      -- The other keys are still held when the first one has been released.
      rw [Action.apply, Std.ExtTreeSet.mem_erase, ne_eq, Std.compare_eq_iff_eq]
      refine ⟨?_, h v (List.mem_cons_of_mem u hv)⟩
      rintro rfl
      exact hu hv

theorem needed_presses (hnodup : usages.Nodup) (h : ∀ usage ∈ usages, usage ∉ held) :
    Machine.Along Action.apply Action.Needed held (usages.map .press) := by
  induction usages generalizing held with
  | nil => trivial
  | cons u usages ih =>
      obtain ⟨hu, hnodup⟩ := List.nodup_cons.1 hnodup
      refine ⟨h u List.mem_cons_self, ih hnodup fun v hv => ?_⟩
      rw [Action.apply, Std.ExtTreeSet.mem_insert, Std.compare_eq_iff_eq, not_or]
      refine ⟨?_, h v (List.mem_cons_of_mem u hv)⟩
      rintro rfl
      exact hu hv

theorem map_usage_strokes : (strokes releases presses).map Action.usage = releases ++ presses := by
  simp [strokes, Function.comp_def, Action.usage]

/-- A press is not followed by a release. -/
theorem pairwise_isPress_strokes :
    (strokes releases presses).Pairwise fun a b => a.isPress = true → b.isPress = true := by
  have hrelease : ∀ a ∈ releases.map Action.release, a.isPress ≠ true := by
    intro a ha
    obtain ⟨usage, -, rfl⟩ := List.mem_map.1 ha
    exact Bool.false_ne_true
  have hpress : ∀ b ∈ presses.map Action.press, b.isPress = true := by
    intro b hb
    obtain ⟨usage, -, rfl⟩ := List.mem_map.1 hb
    rfl
  refine List.pairwise_append.2 ⟨?_, ?_, fun a ha b _ h => absurd h (hrelease a ha)⟩
  · exact List.pairwise_of_forall_mem_list fun a ha b _ h => absurd h (hrelease a ha)
  · exact List.pairwise_of_forall_mem_list fun a _ b hb _ => hpress b hb

/-- **Exact strokes.**  Releases of keys that are held and presses of keys that are not, no key
twice. -/
theorem exact_of_strokes {s s' : KeyState} (hreleases : releases.Nodup) (hpresses : presses.Nodup)
    (hheld : ∀ usage ∈ releases, usage ∈ s.held) (hfree : ∀ usage ∈ presses, usage ∉ s.held)
    (hafter : ∀ usage, usage ∈ s'.held ↔
      usage ∈ presses ∨ usage ∈ s.held ∧ usage ∉ releases) :
    Exact s (strokes releases presses, s') where
  applied := Std.ExtTreeSet.ext_mem fun usage => mem_run_strokes.trans (hafter usage).symm
  needed := by
    refine Machine.along_append.2 ⟨needed_releases hreleases hheld, ?_⟩
    refine needed_presses hpresses fun usage hmem hrun => ?_
    exact hfree usage hmem (mem_run_releases.1 hrun).1
  once := by
    rw [map_usage_strokes]
    refine List.nodup_append.2 ⟨hreleases, hpresses, ?_⟩
    rintro usage hrelease _ hpress rfl
    exact hfree usage hpress (hheld usage hrelease)

end Strokes

/-! ### The three operations -/

theorem nodup_toList (held : Std.ExtTreeSet UInt16) : held.toList.Nodup :=
  held.distinct_toList.imp fun h heq => h (Std.compare_eq_iff_eq.2 heq)

theorem mem_target {authoritative : List UInt16} {usage : UInt16} :
    usage ∈ target authoritative ↔
      usage ∈ (authoritative.filter Hid.isValidKeyboardUsage).take MAX_HELD_KEYS := by
  rw [target, Std.ExtTreeSet.mem_ofList, List.contains_iff_mem]

variable (s : KeyState)

theorem exact_reconcile (authoritative : List UInt16) : Exact s (s.reconcile authoritative) := by
  refine exact_of_strokes ((nodup_toList s.held).filter _) ((nodup_toList _).filter _) ?_ ?_ ?_
  · intro usage h
    exact (mem_filter_not_contains.1 h).1
  · intro usage h
    exact (mem_filter_not_contains.1 h).2
  · intro usage
    rw [mem_filter_not_contains, mem_filter_not_contains]
    change usage ∈ target authoritative ↔ _
    tauto

theorem exact_reconcileModifiers (mask : UInt16) : Exact s (s.reconcileModifiers mask) := by
  have hstrokes : (s.reconcileModifiers mask).1 = strokes (s.lost mask) [] :=
    (List.append_nil _).symm
  have hexact : Exact s (strokes (s.lost mask) [], (s.reconcileModifiers mask).2) := by
    refine exact_of_strokes ?_ List.nodup_nil ?_ (by simp) ?_
    · exact (by decide : Hid.MODIFIER_USAGES.Nodup).filter _
    · intro usage h
      exact (mem_lost.1 h).2.1
    · intro usage
      rw [mem_reconcileModifiers]
      simp
  rwa [← hstrokes] at hexact

/-- The order in which everything is released. -/
def releaseOrder : List UInt16 :=
  (s.held.toList.filter fun usage => !Hid.isModifier usage) ++ s.held.toList.filter Hid.isModifier

theorem mem_releaseOrder {s : KeyState} {usage : UInt16} :
    usage ∈ s.releaseOrder ↔ usage ∈ s.held := by
  rw [releaseOrder, List.mem_append, List.mem_filter, List.mem_filter, Std.ExtTreeSet.mem_toList]
  cases Hid.isModifier usage <;> simp

theorem nodup_releaseOrder : s.releaseOrder.Nodup := by
  refine List.nodup_append.2
    ⟨(nodup_toList s.held).filter _, (nodup_toList s.held).filter _, ?_⟩
  rintro usage hplain _ hmodifier rfl
  have hnot := (List.mem_filter.1 hplain).2
  rw [(List.mem_filter.1 hmodifier).2] at hnot
  cases hnot

/-- A modifier is not followed by another key. -/
theorem modifiers_last_releaseOrder : s.releaseOrder.Pairwise fun a b =>
    Hid.isModifier a = true → Hid.isModifier b = true := by
  have hplain : ∀ a ∈ s.held.toList.filter (fun usage => !Hid.isModifier usage),
      ¬ Hid.isModifier a = true := by
    intro a ha
    simpa using (List.mem_filter.1 ha).2
  refine List.pairwise_append.2 ⟨?_, ?_, fun a ha b _ h => absurd h (hplain a ha)⟩
  · exact List.pairwise_of_forall_mem_list fun a ha b _ h => absurd h (hplain a ha)
  · exact List.pairwise_of_forall_mem_list fun a _ b hb _ => (List.mem_filter.1 hb).2

theorem exact_releaseAll : Exact s s.releaseAll := by
  have hstrokes : s.releaseAll.1 = strokes s.releaseOrder [] := (List.append_nil _).symm
  have hexact : Exact s (strokes s.releaseOrder [], s.releaseAll.2) := by
    refine exact_of_strokes s.nodup_releaseOrder List.nodup_nil ?_ (by simp) ?_
    · intro usage h
      exact mem_releaseOrder.1 h
    · intro usage
      rw [mem_releaseOrder]
      simp [releaseAll, new]
  rwa [← hstrokes] at hexact

theorem reconcile_reconcile (authoritative : List UInt16) :
    ((s.reconcile authoritative).2.reconcile authoritative).1 = [] := by
  have hnone : ((target authoritative).toList.filter
      fun usage => !(target authoritative).contains usage) = [] := by
    refine List.eq_nil_iff_forall_not_mem.2 fun usage h => ?_
    obtain ⟨hmem, hnot⟩ := mem_filter_not_contains.1 h
    exact hnot hmem
  simp only [reconcile, hnone, List.map_nil, List.append_nil]

end KeyState

open KeyState in
/-- **Reconciliation is exact.**  The strokes of a reconciliation with a snapshot are exact,
releases come first, the keys held afterwards are the first valid ones of the snapshot, and the same
snapshot asks for nothing more.  Those of a reconciliation with a mask are exact, only release, and
only modifiers that the mask does not have; what is held afterwards is within the mask.  Releasing
everything is exact, releases each key that is held, modifiers last, and leaves none. -/
theorem key_reconciliation_exact (s : KeyState) :
    (∀ authoritative, Exact s (s.reconcile authoritative) ∧
      (∀ usage, usage ∈ (s.reconcile authoritative).2.held ↔
        usage ∈ (authoritative.filter Hid.isValidKeyboardUsage).take MAX_HELD_KEYS) ∧
      ((s.reconcile authoritative).1.Pairwise fun a b => a.isPress = true → b.isPress = true) ∧
      ((s.reconcile authoritative).2.reconcile authoritative).1 = []) ∧
    (∀ mask, Exact s (s.reconcileModifiers mask) ∧
      (∀ action ∈ (s.reconcileModifiers mask).1,
        action.isPress = false ∧ action.usage ∈ Hid.MODIFIER_USAGES) ∧
      (s.reconcileModifiers mask).2.modifiers &&& mask = (s.reconcileModifiers mask).2.modifiers ∧
      ∀ usage, usage ∈ (s.reconcileModifiers mask).2.held ↔ usage ∈ s.held ∧
        ¬ (usage ∈ Hid.MODIFIER_USAGES ∧ mask &&& (Hid.modifierBit usage).getD 0 = 0)) ∧
    Exact s s.releaseAll ∧
      (∀ action, action ∈ s.releaseAll.1 ↔ ∃ usage ∈ s.held, action = .release usage) ∧
      (s.releaseAll.1.Pairwise fun a b =>
        Hid.isModifier a.usage = true → Hid.isModifier b.usage = true) ∧
      s.releaseAll.2.held = ∅ := by
  refine ⟨fun authoritative => ?_, fun mask => ?_, s.exact_releaseAll,
    fun _ => mem_releaseAll, ?_, rfl⟩
  · exact ⟨s.exact_reconcile authoritative, fun _ => mem_target, pairwise_isPress_strokes,
      s.reconcile_reconcile authoritative⟩
  · refine ⟨s.exact_reconcileModifiers mask, ?_, ?_, fun _ => mem_reconcileModifiers_iff⟩
    · intro action h
      obtain ⟨usage, hlost, rfl⟩ := List.mem_map.1 h
      exact ⟨rfl, (mem_lost.1 hlost).1⟩
    · exact modifiers_within fun _ h => bit_within_of_mem_reconcileModifiers h
  · exact List.pairwise_map.2 s.modifiers_last_releaseOrder

end Rda
