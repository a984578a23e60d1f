/-
**Copies that are played twice.**

A frame that is not later than the one played last is rejected when it arrives.  A copy that arrives
while the first one is still queued is not: it is put in its place behind it, and nothing looks at
the timestamps again when it is due.  So the timestamps of what is played never go back, but they
need not go on.

Main definitions:

* `Rda.JitterBuffer.NoCopyDue` — a poll that finds no copy of the frame played last due.

Main results:

* `Rda.JitterBuffer.noCopyDue_iff` — such a poll plays a later frame than the last one, if any;
* `Rda.plays_increasing_iff` — **the runs that play every picture once**.
-/

import Rda.JitterPlayout

set_option relaxedAutoImplicit false
set_option autoImplicit false

namespace Rda

variable {J : Type} {est : Estimator J}

namespace JitterBuffer

/-- At a poll, a queued frame with the timestamp of the frame played last is not due yet, or it is
overdue and will be skipped. -/
def NoCopyDue (b : JitterBuffer J) : JitterCall → Prop
  | .push _ _ => True
  | .poll nowMs => ∀ before q after, b.queue = before ++ q :: after →
      q.frame.ptsUs ∈ b.lastPlayedPtsUs → q.dueMs ≤ nowMs → Overdue nowMs q after

/-- A frame that is not overdue is left, behind others perhaps. -/
theorem left_of_not_overdue {b : JitterBuffer J} {nowMs : ℕ} {before after : List Queued}
    {q : Queued} (hqueue : b.queue = before ++ q :: after) (hq : ¬ Overdue nowMs q after) :
    ∃ kept, b.left nowMs = kept ++ q :: after := by
  have hsplit := (b.late_append_left nowMs).trans hqueue
  rcases List.append_eq_append_iff.1 hsplit with ⟨kept, -, hleft⟩ | ⟨skipped, hlate, hafter⟩
  · exact ⟨kept, hleft⟩
  · cases skipped with
    | nil => exact ⟨[], hafter.symm⟩
    | cons q' skipped =>
        obtain ⟨rfl, hrest⟩ := List.cons.inj hafter
        have hoverdue := b.allOverdue_late nowMs
        rw [hlate] at hoverdue
        exact absurd (hrest ▸ (allOverdue_append.1 hoverdue).2.1) hq

/-- A poll finds no copy of the last frame due exactly when the frame that it is about to play, if
any, is later than the last one. -/
theorem noCopyDue_iff {b : JitterBuffer J} (h : b.Inv) {nowMs : ℕ} :
    b.NoCopyDue (.poll nowMs) ↔
      ∀ front rest, b.left nowMs = front :: rest → front.dueMs ≤ nowMs →
        ∀ played ∈ b.lastPlayedPtsUs, played < front.frame.ptsUs := by
  constructor
  · intro hcopy front rest hleft hdue played hplayed
    have hqueue : b.queue = b.late nowMs ++ front :: rest := by
      rw [← hleft, b.late_append_left]
    have hahead : played ≤ front.frame.ptsUs := h.ahead played hplayed front (by simp [hqueue])
    refine UInt64.lt_of_le_of_ne hahead ?_
    rintro rfl
    exact not_overdue_of_left hleft (hcopy _ front rest hqueue hplayed hdue)
  · intro hlater before q after hqueue hcopy hdue
    by_contra hq
    obtain ⟨kept, hleft⟩ := left_of_not_overdue hqueue hq
    have hsub := b.left_sublist nowMs
    cases kept with
    | nil => exact UInt64.lt_irrefl _ (hlater q after hleft hdue _ hcopy)
    | cons front kept =>
        -- The first frame that is left is due as well, and not later than the copy.
        rw [hleft] at hsub
        have hmem : q ∈ kept ++ q :: after := List.mem_append_right _ List.mem_cons_self
        have hfrontDue := (List.pairwise_cons.1 (h.due.sublist hsub)).1 q hmem
        have hfrontPts := (List.pairwise_cons.1 (h.pts.sublist hsub)).1 q.frame
          (List.mem_map_of_mem hmem)
        have hlt := hlater front _ hleft (hfrontDue.trans hdue) _ hcopy
        exact UInt64.lt_irrefl _ (UInt64.lt_of_lt_of_le hlt hfrontPts)

/-- What is played in a run is later than what was played before it, and each frame later than the
one before, exactly when no poll of the run finds a copy due. -/
theorem plays_later_iff {b : JitterBuffer J} (h : b.Inv) (calls : List JitterCall) :
    ((∀ played ∈ b.lastPlayedPtsUs, ∀ f ∈ plays est b calls, played < f.ptsUs) ∧
        ((plays est b calls).map EncodedFrame.ptsUs).Pairwise (· < ·)) ↔
      Machine.Along (call est) NoCopyDue b calls := by
  induction calls generalizing b with
  | nil => simp [plays, Machine.Along]
  | cons c calls ih =>
      have hrest := @ih (b.call est c) (inv_call h c)
      rw [plays, Machine.Along, ← hrest]
      cases c with
      | push frame nowMs =>
          have hplayed : (b.call est (.push frame nowMs)).lastPlayedPtsUs = b.lastPlayedPtsUs := by
            by_cases hfresh : b.Fresh frame
            · exact (push_of_fresh est hfresh nowMs).2.2
            · exact (push_of_not_fresh est hfresh nowMs).2.2
          rw [hplayed, played, List.nil_append, NoCopyDue, true_and]
      | poll nowMs =>
          rw [noCopyDue_iff h]
          rcases b.poll_cases nowMs with ⟨front, rest, hleft, hdue, hplay, -, hplayed⟩ |
            ⟨hearly, hnoplay, -, hplayed⟩
          · have hcall : (b.call est (.poll nowMs)).lastPlayedPtsUs = some front.frame.ptsUs :=
              hplayed
            rw [hcall, played_eq_of_left hleft hdue]
            simp only [List.singleton_append, List.mem_cons, forall_eq_or_imp, List.map_cons,
              List.pairwise_cons, List.forall_mem_map, Option.mem_some_iff, forall_eq']
            constructor
            · rintro ⟨hbefore, hafter, hsorted⟩
              refine ⟨?_, hafter, hsorted⟩
              intro front' rest' hleft' _ played hlast
              rw [hleft] at hleft'
              cases hleft'
              exact (hbefore played hlast).1
            · rintro ⟨hlater, hafter, hsorted⟩
              refine ⟨?_, hafter, hsorted⟩
              intro played hlast
              have hlt := hlater front rest hleft hdue played hlast
              exact ⟨hlt, fun f hf => UInt64.lt_trans hlt (hafter f hf)⟩
          · have hcall : (b.call est (.poll nowMs)).lastPlayedPtsUs = b.lastPlayedPtsUs := hplayed
            rw [hcall, played_eq_nil hnoplay, List.nil_append]
            refine (and_iff_right ?_).symm
            intro front rest hleft hdue
            have hlate := hearly front (by rw [hleft]; rfl)
            omega

end JitterBuffer

/-- **The runs that play every picture once.**  Whatever happened before, the timestamps of the
frames that are played after a reset are strictly increasing exactly when no poll finds a queued
copy of the frame played last due and not yet overdue. -/
theorem plays_increasing_iff (est : Estimator J) (b : JitterBuffer J) (calls : List JitterCall) :
    ((b.reset.plays est calls).map EncodedFrame.ptsUs).Pairwise (· < ·) ↔
      Machine.Along (JitterBuffer.call est) JitterBuffer.NoCopyDue b.reset calls := by
  rw [← JitterBuffer.plays_later_iff (JitterBuffer.inv_reset b) calls, and_iff_right]
  simp [JitterBuffer.reset]

namespace Sample

/-- A keyframe that arrives twice before it is due, and two polls. -/
def repeated : List JitterCall :=
  [.push (baseFrame .keyframe 33333) 1000, .push (baseFrame .keyframe 33333) 1001, .poll 1015,
    .poll 1016]

end Sample

/-- Both copies of the frame are played. -/
theorem copy_played_twice :
    InOrder Sample.repeated ∧
      (JitterBuffer.reset (.new jitterEstimator)).plays jitterEstimator Sample.repeated =
        [Sample.baseFrame .keyframe 33333, Sample.baseFrame .keyframe 33333] ∧
      ¬ (((JitterBuffer.reset (.new jitterEstimator)).plays jitterEstimator Sample.repeated).map
        EncodedFrame.ptsUs).Pairwise (· < ·) := by
  refine ⟨?_, ?_, ?_⟩
  · simp [InOrder, Sample.repeated, JitterCall.nowMs]
  · decide
  · decide

end Rda
