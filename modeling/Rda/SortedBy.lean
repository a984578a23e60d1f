/-
**Sorting by a key.**

A list sorted by a key is a rearrangement of the list in which smaller keys stand before larger
ones.  Where no two entries share a key nothing else can be said of the order, so "stands before"
and "has the smaller key" are the same.

Main definitions:

* `SortedBy.sortBy` — the stable sort by a key;
* `SortedBy.Before` — one entry stands before another.

Main results:

* `SortedBy.before_total` — of two entries of a list one stands before the other;
* `SortedBy.before_sortBy_iff` — **in a list sorted by a key that tells its entries apart, an entry
  stands before another exactly when its key is smaller**.
-/

import Mathlib.Data.List.Nodup
import Mathlib.Order.Lattice
import Mathlib.Tactic.Common

set_option relaxedAutoImplicit false
set_option autoImplicit false

namespace SortedBy

variable {α κ : Type}

/-- One entry stands before another. -/
def Before (l : List α) (a b : α) : Prop := [a, b].Sublist l

/-- Of two entries of a list one stands before the other. -/
theorem before_total {l : List α} {a b : α} (ha : a ∈ l) (hb : b ∈ l) (hne : a ≠ b) :
    Before l a b ∨ Before l b a := by
  induction l with
  | nil => simp at ha
  | cons x l ih =>
      rcases List.mem_cons.1 ha with rfl | ha'
      · have hbl : b ∈ l := (List.mem_cons.1 hb).resolve_left (Ne.symm hne)
        exact Or.inl ((List.singleton_sublist.2 hbl).cons_cons a)
      · rcases List.mem_cons.1 hb with rfl | hb'
        · exact Or.inr ((List.singleton_sublist.2 ha').cons_cons b)
        · exact (ih ha' hb').imp (fun h => h.cons x) fun h => h.cons x

/-- Entries that a map tells apart keep their order under it. -/
theorem before_map_iff {β : Type} {f : α → β} {l : List α} {a b : α}
    (hf : ∀ x ∈ l, ∀ y ∈ l, f x = f y → x = y) (ha : a ∈ l) (hb : b ∈ l) :
    Before (l.map f) (f a) (f b) ↔ Before l a b := by
  constructor
  · intro h
    obtain ⟨xs, hxs, heq⟩ := List.sublist_map_iff.1 h
    obtain ⟨x, xs, rfl, hxa, hrest⟩ := List.map_eq_cons_iff.1 heq.symm
    obtain ⟨y, ys, rfl, hyb, hnil⟩ := List.map_eq_cons_iff.1 hrest
    obtain rfl := List.map_eq_nil_iff.1 hnil
    have hx : x ∈ l := hxs.subset (by simp)
    have hy : y ∈ l := hxs.subset (by simp)
    rw [← hf x hx a ha hxa, ← hf y hy b hb hyb]
    exact hxs
  · intro h
    exact h.map f

variable [LinearOrder κ]

/-- The stable sort by a key. -/
def sortBy (key : α → κ) (l : List α) : List α :=
  l.mergeSort fun a b => decide (key a ≤ key b)

theorem sortBy_perm (key : α → κ) (l : List α) : (sortBy key l).Perm l :=
  List.mergeSort_perm l _

@[simp] theorem mem_sortBy {key : α → κ} {l : List α} {a : α} : a ∈ sortBy key l ↔ a ∈ l :=
  (sortBy_perm key l).mem_iff

/-- Smaller keys stand before larger ones. -/
theorem sortBy_pairwise (key : α → κ) (l : List α) :
    (sortBy key l).Pairwise fun a b => key a ≤ key b := by
  have htrans : ∀ a b c : α, decide (key a ≤ key b) = true → decide (key b ≤ key c) = true →
      decide (key a ≤ key c) = true := by
    intro a b c hab hbc
    simp only [decide_eq_true_eq] at hab hbc ⊢
    exact le_trans hab hbc
  have htotal : ∀ a b : α, (decide (key a ≤ key b) || decide (key b ≤ key a)) = true := by
    intro a b
    simp only [Bool.or_eq_true, decide_eq_true_eq]
    exact le_total (key a) (key b)
  exact (List.pairwise_mergeSort htrans htotal l).imp fun h => by simpa using h

/-- **The order of a sorted list**: where the key tells the entries apart, an entry stands before
another exactly when its key is smaller. -/
theorem before_sortBy_iff {key : α → κ} {l : List α} {a b : α} (hnd : (l.map key).Nodup)
    (ha : a ∈ l) (hb : b ∈ l) : Before (sortBy key l) a b ↔ key a < key b := by
  have hinj : ∀ x ∈ l, ∀ y ∈ l, key x = key y → x = y := by
    intro x hx y hy hxy
    exact List.inj_on_of_nodup_map hnd hx hy hxy
  constructor
  · intro h
    have hle : key a ≤ key b := (sortBy_pairwise key l).forall_sublist h
    refine lt_of_le_of_ne hle ?_
    intro heq
    -- The two would be the same entry, and it occurs once.
    have hab : a = b := hinj a ha b hb heq
    subst hab
    have hnodup : (sortBy key l).Nodup :=
      (sortBy_perm key l).nodup_iff.2 (List.Nodup.of_map key hnd)
    have := hnodup.sublist h
    simp at this
  · intro h
    have hne : a ≠ b := by
      rintro rfl
      exact lt_irrefl _ h
    have ha' : a ∈ sortBy key l := mem_sortBy.2 ha
    have hb' : b ∈ sortBy key l := mem_sortBy.2 hb
    rcases before_total ha' hb' hne with hab | hba
    · exact hab
    · exact absurd ((sortBy_pairwise key l).forall_sublist hba) (not_le.2 h)

end SortedBy
