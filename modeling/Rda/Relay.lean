/-
**Ranking the relays.**

The signaling server ranks its points of presence for two peers by what it costs to go through each:
the sum of the two round trip times.  A point of presence a peer has not measured counts as ten
seconds for that peer, so one that neither has measured stands at twenty.

The round trip times come from the peers, and a measured sum may be larger than twenty seconds: then
the unmeasured one comes first.  Sums stop at the largest `u32`, where two different ones are a tie.

Main definitions:

* `Rda.Signal.Pop`, `Rda.Signal.rankPops` — the fleet, and its ranking;
* `Rda.Signal.Ranked` — the order the ranking is for;
* `Rda.Signal.Rankable` — the round trip times it is right for.

Main results:

* `Rda.Signal.before_rankPops_iff` — what stands before what;
* `Rda.Signal.ranked_iff` — **the ranking is in order exactly for these round trip times**.
-/

import Mathlib.Data.Prod.Lex
import Mathlib.Data.String.Basic
import Rda.SignalMessages
import Rda.SortedBy

set_option relaxedAutoImplicit false
set_option autoImplicit false

namespace Rda

namespace Signal

open SortedBy (Before sortBy)

/-- One point of presence. -/
structure Pop where
  code : String
  location : String
  stunUrl : String
  turnUrls : List String

/-- What an unmeasured leg counts as, in milliseconds. -/
def UNMEASURED : UInt32 := 10000

/-- Addition that stops at the largest value. -/
def saturatingAddU32 (a b : UInt32) : UInt32 := UInt32.ofNat (min (a.toNat + b.toNat) 0xffffffff)

theorem toNat_saturatingAddU32 (a b : UInt32) :
    (saturatingAddU32 a b).toNat = min (a.toNat + b.toNat) 0xffffffff := by
  rw [saturatingAddU32, UInt32.toNat_ofNat']
  omega

/-- The score of a point of presence, with its code. -/
def score (controllerRtt hostRtt : PopRtt) (p : Pop) : UInt32 × String :=
  let c := (controllerRtt.lookup p.code).getD UNMEASURED
  let h := (hostRtt.lookup p.code).getD UNMEASURED
  (saturatingAddU32 c h, p.code)

/-- Scores are compared first, then codes. -/
def scoreKey (x : UInt32 × String) : ℕ ×ₗ String := toLex (x.1.toNat, x.2)

/-- The codes of the fleet, best first. -/
def rankPops (pops : List Pop) (controllerRtt hostRtt : PopRtt) : List String :=
  (sortBy scoreKey (pops.map (score controllerRtt hostRtt))).map Prod.snd

/-! ### What the ranking is for -/

section Ranking

variable (controllerRtt hostRtt : PopRtt)

/-- What it costs to go through a point of presence both peers have measured. -/
def rttSum (p : Pop) : Option ℕ := do
  let c ← controllerRtt.lookup p.code
  let h ← hostRtt.lookup p.code
  return c.toNat + h.toNat

/-- A point of presence that neither peer has measured. -/
def MeasuredByNeither (p : Pop) : Prop :=
  controllerRtt.lookup p.code = none ∧ hostRtt.lookup p.code = none

/-- The order the ranking is for. -/
structure Ranked (pops : List Pop) (ranked : List String) : Prop where
  perm : ranked.Perm (pops.map Pop.code)
  measured_first : ∀ p ∈ pops, ∀ q ∈ pops, ∀ a, rttSum controllerRtt hostRtt p = some a →
    MeasuredByNeither controllerRtt hostRtt q → Before ranked p.code q.code
  by_sum : ∀ p ∈ pops, ∀ q ∈ pops, ∀ a b, rttSum controllerRtt hostRtt p = some a →
    rttSum controllerRtt hostRtt q = some b → (a < b ∨ a = b ∧ p.code < q.code) →
      Before ranked p.code q.code

/-- The round trip times the ranking is right for: no measured sum reaches past the two unmeasured
legs, unless nothing is unmeasured; and where sums are too large to be told apart, the codes happen
to be in the right order. -/
structure Rankable (pops : List Pop) : Prop where
  below_unmeasured : ∀ p ∈ pops, ∀ q ∈ pops, ∀ a, rttSum controllerRtt hostRtt p = some a →
    MeasuredByNeither controllerRtt hostRtt q → a < 20000 ∨ a = 20000 ∧ p.code < q.code
  told_apart : ∀ p ∈ pops, ∀ q ∈ pops, ∀ a b, rttSum controllerRtt hostRtt p = some a →
    rttSum controllerRtt hostRtt q = some b → 0xffffffff ≤ a → a < b → p.code < q.code

variable {controllerRtt hostRtt} {pops : List Pop} {p q : Pop}

theorem snd_score (p : Pop) : (score controllerRtt hostRtt p).2 = p.code := rfl

theorem score_of_rttSum {a : ℕ} (h : rttSum controllerRtt hostRtt p = some a) :
    (score controllerRtt hostRtt p).1.toNat = min a 0xffffffff := by
  unfold rttSum at h
  cases hc : controllerRtt.lookup p.code with
  | none => simp [hc] at h
  | some c =>
      cases hh : hostRtt.lookup p.code with
      | none => simp [hc, hh] at h
      | some d =>
          have ha : c.toNat + d.toNat = a := by simpa [hc, hh] using h
          simp only [score, hc, hh, Option.getD_some, toNat_saturatingAddU32, ha]

theorem score_of_neither (h : MeasuredByNeither controllerRtt hostRtt p) :
    (score controllerRtt hostRtt p).1.toNat = 20000 := by
  simp only [score, h.1, h.2, Option.getD_none, toNat_saturatingAddU32]
  rfl

theorem scoreKey_lt_iff {x y : UInt32 × String} :
    scoreKey x < scoreKey y ↔ x.1.toNat < y.1.toNat ∨ x.1.toNat = y.1.toNat ∧ x.2 < y.2 :=
  Prod.Lex.toLex_lt_toLex

theorem rankPops_perm : (rankPops pops controllerRtt hostRtt).Perm (pops.map Pop.code) := by
  have h := (SortedBy.sortBy_perm scoreKey (pops.map (score controllerRtt hostRtt))).map Prod.snd
  rw [List.map_map] at h
  exact h

/-- **What stands before what** in the ranking of a fleet with distinct codes. -/
theorem before_rankPops_iff (hnd : (pops.map Pop.code).Nodup) (hp : p ∈ pops) (hq : q ∈ pops) :
    Before (rankPops pops controllerRtt hostRtt) p.code q.code ↔
      scoreKey (score controllerRtt hostRtt p) < scoreKey (score controllerRtt hostRtt q) := by
  have hcodes : ((pops.map (score controllerRtt hostRtt)).map Prod.snd).Nodup := by
    rw [List.map_map]
    exact hnd
  have hkeys : ((pops.map (score controllerRtt hostRtt)).map scoreKey).Nodup := by
    refine List.Nodup.of_map (fun k : ℕ ×ₗ String => (ofLex k).2) ?_
    rw [List.map_map]
    exact hcodes
  have hinj : ∀ x ∈ sortBy scoreKey (pops.map (score controllerRtt hostRtt)),
      ∀ y ∈ sortBy scoreKey (pops.map (score controllerRtt hostRtt)), x.2 = y.2 → x = y := by
    intro x hx y hy hxy
    exact List.inj_on_of_nodup_map hcodes (SortedBy.mem_sortBy.1 hx) (SortedBy.mem_sortBy.1 hy) hxy
  have hp' := List.mem_map_of_mem (f := score controllerRtt hostRtt) hp
  have hq' := List.mem_map_of_mem (f := score controllerRtt hostRtt) hq
  have hmap := SortedBy.before_map_iff hinj (SortedBy.mem_sortBy.2 hp') (SortedBy.mem_sortBy.2 hq')
  exact hmap.trans (SortedBy.before_sortBy_iff hkeys hp' hq')

/-- A ranking that is in order has round trip times it can be in order for. -/
theorem rankable_of_ranked (hnd : (pops.map Pop.code).Nodup)
    (h : Ranked controllerRtt hostRtt pops (rankPops pops controllerRtt hostRtt)) :
    Rankable controllerRtt hostRtt pops := by
  constructor
  · intro p hp q hq a ha hneither
    have hlt := (before_rankPops_iff hnd hp hq).1 (h.measured_first p hp q hq a ha hneither)
    rw [scoreKey_lt_iff, score_of_rttSum ha, score_of_neither hneither, snd_score, snd_score] at hlt
    rcases hlt with hlt | ⟨heq, hcode⟩
    · exact Or.inl (by omega)
    · exact Or.inr ⟨by omega, hcode⟩
  · intro p hp q hq a b ha hb hlarge hab
    have hlt := (before_rankPops_iff hnd hp hq).1 (h.by_sum p hp q hq a b ha hb (Or.inl hab))
    rw [scoreKey_lt_iff, score_of_rttSum ha, score_of_rttSum hb, snd_score, snd_score] at hlt
    rcases hlt with hlt | ⟨-, hcode⟩
    · omega
    · exact hcode

/-- Round trip times within the bounds are ranked in order. -/
theorem ranked_of_rankable (hnd : (pops.map Pop.code).Nodup)
    (h : Rankable controllerRtt hostRtt pops) :
    Ranked controllerRtt hostRtt pops (rankPops pops controllerRtt hostRtt) := by
  refine ⟨rankPops_perm, ?_, ?_⟩
  · intro p hp q hq a ha hneither
    rw [before_rankPops_iff hnd hp hq, scoreKey_lt_iff, score_of_rttSum ha,
      score_of_neither hneither, snd_score, snd_score]
    rcases h.below_unmeasured p hp q hq a ha hneither with hlt | ⟨heq, hcode⟩
    · exact Or.inl (by omega)
    · exact Or.inr ⟨by omega, hcode⟩
  · intro p hp q hq a b ha hb horder
    rw [before_rankPops_iff hnd hp hq, scoreKey_lt_iff, score_of_rttSum ha, score_of_rttSum hb,
      snd_score, snd_score]
    rcases horder with hlt | ⟨rfl, hcode⟩
    · rcases Nat.lt_or_ge a 0xffffffff with hsmall | hlarge
      · exact Or.inl (by omega)
      · -- Both sums stand at the largest value, and the codes decide.
        exact Or.inr ⟨by omega, h.told_apart p hp q hq a b ha hb hlarge hlt⟩
    · exact Or.inr ⟨rfl, hcode⟩

/-- **The ranking** of a fleet with distinct codes is in order exactly for the round trip times it
is right for. -/
theorem ranked_iff (hnd : (pops.map Pop.code).Nodup) :
    Ranked controllerRtt hostRtt pops (rankPops pops controllerRtt hostRtt) ↔
      Rankable controllerRtt hostRtt pops :=
  ⟨rankable_of_ranked hnd, ranked_of_rankable hnd⟩

end Ranking

/-! ### Two points of presence -/

/-- A point of presence with the URLs the fleet gives it. -/
def Sample.pop (code : String) : Pop where
  code := code
  location := code
  stunUrl := "stun:stun." ++ code ++ ".example.net:3478"
  turnUrls := ["turn:turn." ++ code ++ ".example.net:3478?transport=udp"]

theorem ranked_iff_sample :
    (["iad", "mrs"].Nodup) ∧
      (Ranked [("iad", 10)] [("iad", 240)] [Sample.pop "iad", Sample.pop "mrs"]
          (rankPops [Sample.pop "iad", Sample.pop "mrs"] [("iad", 10)] [("iad", 240)]) ↔
        Rankable [("iad", 10)] [("iad", 240)] [Sample.pop "iad", Sample.pop "mrs"]) :=
  ⟨by decide, ranked_iff (by decide)⟩

/-- Two legs of twelve seconds each, and a point of presence nobody has measured goes first. -/
theorem ranked_fails :
    ¬ Ranked [("iad", 12000)] [("iad", 12000)] [Sample.pop "iad", Sample.pop "mrs"]
      (rankPops [Sample.pop "iad", Sample.pop "mrs"] [("iad", 12000)] [("iad", 12000)]) := by
  intro h
  have hnd : ([Sample.pop "iad", Sample.pop "mrs"].map Pop.code).Nodup := by decide
  have hsum : rttSum [("iad", 12000)] [("iad", 12000)] (Sample.pop "iad") = some 24000 := by decide
  have hnone : MeasuredByNeither [("iad", 12000)] [("iad", 12000)] (Sample.pop "mrs") :=
    ⟨by decide, by decide⟩
  rcases (rankable_of_ranked hnd h).below_unmeasured _ (by simp) _ (by simp) _ hsum hnone with
    hlt | ⟨heq, -⟩
  · omega
  · omega

end Signal

end Rda
