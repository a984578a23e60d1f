/-
**The viewer's loss account.**

The viewer feeds its tracker the numbers of the video fragments that arrive, and takes the counts
once an interval for the report it sends to the host.  When other messages are numbered by the same
counter, the numbers of consecutive fragments are as far apart as there are messages in between.
What the account comes to is decided by these gaps.  Usually a jump is measured from the fragment
before; only when a gap is so large that the numbering nearly comes round does the viewer take the
next fragment for a late one and goes on measuring from the older one, whose distance is kept here.

Main definitions:

* `Rda.LossAccount`, `Rda.LossAccount.step` — the viewer's tracker and what it reports;
* `Rda.LossAccount.numbersAfter` — the numbers of the fragments after one, by the gaps;
* `Rda.LossAccount.drift` — how far the newest fragment is ahead of the one the viewer measures
  from;
* `Rda.LossAccount.Contiguous` — the fragment after a gap is not taken for one that skips numbers.

Main results:

* `Rda.LossAccount.clean_of_along` — **contiguous fragments report no loss**, whenever the counts
  are taken;
* `Rda.LossAccount.along_of_eachReported` — a loss shows when every fragment is reported at once;
* `Rda.LossAccount.along_drift_iff` — what contiguous comes to unless a gap is that large.
-/

import Rda.SequenceTracker
import Rda.Machine
import Rda.Signaling

set_option relaxedAutoImplicit false
set_option autoImplicit false

namespace Rda

/-! ### The viewer -/

/-- The payload is a video fragment. -/
def Payload.isVideoFrame : Payload → Bool
  | .videoFrame .. => true
  | _ => false

/-- The viewer's tracker, and the delivered and lost counts of its reports. -/
structure LossAccount where
  sequences : SequenceTracker := {}
  reports : List (UInt32 × UInt32) := []
  deriving DecidableEq

namespace LossAccount

/-- What the viewer's loop does with the tracker. -/
inductive Event
  /-- Something arrives. -/
  | receive (event : TransportEvent)
  /-- The interval is over, and the counts are taken for the report. -/
  | report

/-- A fragment has arrived. -/
def observe (a : LossAccount) (sequence : UInt16) : LossAccount :=
  { a with sequences := a.sequences.observe sequence }

/-- The counts are taken. -/
def report (a : LossAccount) : LossAccount :=
  { sequences := a.sequences.take.2, reports := a.reports ++ [a.sequences.take.1] }

/-- One step of the loop. -/
def step (a : LossAccount) : Event → LossAccount
  | .receive (.frame .video frame) =>
      if frame.payload.isVideoFrame then a.observe frame.header.sequence else a
  | .receive _ => a
  | .report => a.report

/-- The video fragment that arrives. -/
def Event.fragment : Event → Option ControlFrame
  | .receive (.frame .video frame) => if frame.payload.isVideoFrame then some frame else none
  | _ => none

/-- Its number. -/
def Event.observed (e : Event) : Option UInt16 := e.fragment.map (·.header.sequence)

theorem step_fragment {frame : ControlFrame} (h : frame.payload.isVideoFrame = true)
    (a : LossAccount) :
    a.step (.receive (.frame .video frame)) = a.observe frame.header.sequence := by
  simp only [step, h, if_true]

theorem step_of_observed {e : Event} {sequence : UInt16} (h : e.observed = some sequence)
    (a : LossAccount) : a.step e = a.observe sequence := by
  simp only [Event.observed, Option.map_eq_some_iff] at h
  obtain ⟨frame, hfragment, rfl⟩ := h
  unfold Event.fragment at hfragment
  split at hfragment
  · split at hfragment
    · rename_i hvideo
      obtain rfl := Option.some.inj hfragment
      exact step_fragment hvideo a
    · cases hfragment
  · cases hfragment

/-- Everything else leaves the tracker as it is or takes its counts. -/
theorem step_of_not_observed {e : Event} (h : e.observed = none) (a : LossAccount) :
    a.step e = a ∨ a.step e = a.report := by
  cases e with
  | report => exact .inr rfl
  | receive event =>
      left
      unfold step
      split
      · rename_i frame heq
        obtain rfl := (Event.receive.inj heq)
        split
        · rename_i hvideo
          simp [Event.observed, Event.fragment, hvideo] at h
        · rfl
      · rfl
      · rename_i heq
        cases heq

/-- What was reported stays reported. -/
theorem reports_prefix_step (a : LossAccount) (e : Event) : a.reports <+: (a.step e).reports := by
  cases he : e.observed with
  | some sequence =>
      rw [step_of_observed he]
      exact List.prefix_refl _
  | none =>
      rcases step_of_not_observed he a with heq | heq
      · exact heq.symm ▸ List.prefix_refl _
      · exact heq.symm ▸ List.prefix_append _ _

theorem reports_prefix_run (a : LossAccount) (es : List Event) :
    a.reports <+: (Machine.run step a es).reports := by
  induction es generalizing a with
  | nil => exact List.prefix_refl _
  | cons e es ih => exact (reports_prefix_step a e).trans (ih (a.step e))

/-! ### What the viewer observes -/

/-- The numbers of the fragments after the one numbered `last`, when so many messages come in
between. -/
def numbersAfter (last : UInt16) : List ℕ → List UInt16
  | [] => []
  | gap :: gaps => (last + .ofNat (gap + 1)) :: numbersAfter (last + .ofNat (gap + 1)) gaps

/-- How far the newest fragment is ahead of the one the viewer measures from. -/
def drift (behind gap : ℕ) : ℕ :=
  if SequenceTracker.Stays (behind + gap + 1) then behind + gap + 1 else 0

/-- The fragment after the gap is not taken for one that skips numbers. -/
def Contiguous (behind gap : ℕ) : Prop := ¬ SequenceTracker.Skips (behind + gap + 1)

instance (behind gap : ℕ) : Decidable (Contiguous behind gap) := inferInstanceAs (Decidable (¬ _))

/-- The newest fragment is numbered `last`, and it is so far ahead of the highest number. -/
def Tracks (a : LossAccount) (last : UInt16) (behind : ℕ) : Prop :=
  ∃ highest, a.sequences.highest = some highest ∧ last = highest + .ofNat behind

/-- Nothing was counted as lost in this interval or in an earlier one. -/
def Clean (a : LossAccount) : Prop := a.sequences.lost = 0 ∧ ∀ r ∈ a.reports, r.2 = 0

variable {a : LossAccount} {last : UInt16} {behind gap : ℕ}

theorem ahead_eq (h : a.Tracks last behind) (gap : ℕ) :
    ∃ highest, a.sequences.highest = some highest ∧
      last + .ofNat (gap + 1) = highest + UInt16.ofNat (behind + gap + 1) := by
  obtain ⟨highest, hhighest, rfl⟩ := h
  refine ⟨highest, hhighest, ?_⟩
  rw [Nat.add_assoc behind, UInt16.ofNat_add behind, UInt16.add_assoc]

/-- The next fragment moves the viewer on, or leaves it measuring from where it was. -/
theorem tracks_observe (h : a.Tracks last behind) (gap : ℕ) :
    (a.observe (last + .ofNat (gap + 1))).Tracks (last + .ofNat (gap + 1)) (drift behind gap) := by
  obtain ⟨highest, hhighest, heq⟩ := ahead_eq h gap
  rw [heq]
  refine ⟨_, SequenceTracker.observe_highest hhighest _, ?_⟩
  rw [drift]
  split
  · rfl
  · exact (UInt16.add_zero _).symm

/-- The first fragment is where the viewer measures from. -/
theorem tracks_first (h : a.sequences.highest = none) (first : UInt16) :
    (a.observe first).Tracks first 0 :=
  ⟨first, (SequenceTracker.observe_first h first).1, (UInt16.add_zero _).symm⟩

/-- A report changes nothing about where the viewer measures from. -/
theorem tracks_report (h : a.Tracks last behind) : a.report.Tracks last behind := h

/-- From a clean count the next fragment counts a loss unless it is contiguous. -/
theorem observe_lost_eq_zero_iff (h : a.Tracks last behind) (hlost : a.sequences.lost = 0)
    (gap : ℕ) :
    (a.sequences.observe (last + .ofNat (gap + 1))).lost = 0 ↔ Contiguous behind gap := by
  obtain ⟨highest, hhighest, heq⟩ := ahead_eq h gap
  rw [heq, Contiguous, ← SequenceTracker.observe_lost_pos_iff hhighest hlost, not_not]

theorem clean_start : LossAccount.Clean {} := ⟨rfl, fun _ hr => absurd hr List.not_mem_nil⟩

/-- A report of a clean count is clean. -/
theorem clean_report (h : a.Clean) : a.report.Clean := by
  refine ⟨rfl, ?_⟩
  intro r hr
  rcases List.mem_append.1 hr with hr | hr
  · exact h.2 r hr
  · rw [List.mem_singleton.1 hr]
    exact h.1

/-- **Reports of contiguous fragments.**  Whenever the counts are taken, they are zero. -/
theorem clean_of_along (htracks : a.Tracks last behind) (hclean : a.Clean) {gaps : List ℕ}
    (hgaps : Machine.Along drift Contiguous behind gaps) {es : List Event}
    (hes : es.filterMap Event.observed = numbersAfter last gaps) :
    (Machine.run step a es).Clean := by
  induction es generalizing a last behind gaps with
  | nil => exact hclean
  | cons e es ih =>
      rw [Machine.run_cons]
      cases he : e.observed with
      | none =>
          rw [List.filterMap_cons_none he] at hes
          rcases step_of_not_observed he a with heq | heq
          · rw [heq]
            exact ih htracks hclean hgaps hes
          · rw [heq]
            exact ih (tracks_report htracks) (clean_report hclean) hgaps hes
      | some sequence =>
          rw [List.filterMap_cons_some he] at hes
          cases gaps with
          | nil => cases hes
          | cons gap gaps =>
              obtain ⟨rfl, hrest⟩ := List.cons.inj hes
              rw [step_of_observed he]
              exact ih (tracks_observe htracks gap)
                ⟨(observe_lost_eq_zero_iff htracks hclean.1 gap).2 hgaps.1, hclean.2⟩ hgaps.2 hrest

/-- While no fragment arrives, the account stays clean and the viewer measures from where it was. -/
theorem clean_of_silent (hclean : a.Clean) {es : List Event}
    (hes : ∀ e ∈ es, e.observed = none) :
    (Machine.run step a es).Clean ∧
      (Machine.run step a es).sequences.highest = a.sequences.highest := by
  induction es generalizing a with
  | nil => exact ⟨hclean, rfl⟩
  | cons e es ih =>
      have hrest : ∀ e' ∈ es, e'.observed = none := fun e' h' => hes e' (List.mem_cons_of_mem _ h')
      rw [Machine.run_cons]
      rcases step_of_not_observed (hes e List.mem_cons_self) a with heq | heq
      · rw [heq]
        exact ih hclean hrest
      · rw [heq]
        exact ih (clean_report hclean) hrest

/-- Nothing has arrived yet; the first fragment has any number, the others follow it. -/
theorem clean_of_first {es : List Event} {first : UInt16} {gaps : List ℕ}
    (hes : es.filterMap Event.observed = first :: numbersAfter first gaps)
    (hgaps : Machine.Along drift Contiguous 0 gaps) : (Machine.run step {} es).Clean := by
  obtain ⟨es₁, e, es₂, rfl, hsilent, he, hrest⟩ := List.filterMap_eq_cons_iff.1 hes
  rw [Machine.run_append, Machine.run_cons]
  obtain ⟨hclean, hhighest⟩ := clean_of_silent clean_start hsilent
  have hlost := (SequenceTracker.observe_first hhighest first).2
  rw [step_of_observed he]
  exact clean_of_along (tracks_first hhighest first) ⟨hlost.trans hclean.1, hclean.2⟩ hgaps hrest

/-- Every fragment arrives and is reported at once. -/
def eachReported (frames : List ControlFrame) : List Event :=
  frames.flatMap fun frame => [.receive (.frame .video frame), .report]

theorem filterMap_eachReported {frames : List ControlFrame}
    (h : ∀ frame ∈ frames, frame.payload.isVideoFrame = true) :
    (eachReported frames).filterMap Event.fragment = frames := by
  induction frames with
  | nil => rfl
  | cons frame frames ih =>
      have hframe := h frame List.mem_cons_self
      have hrest := ih fun frame' h' => h frame' (List.mem_cons_of_mem _ h')
      rw [eachReported] at hrest ⊢
      simp only [List.flatMap_cons, List.cons_append, List.nil_append]
      have hfragment : (Event.receive (.frame .video frame)).fragment = some frame := by
        simp only [Event.fragment, hframe, if_true]
      rw [List.filterMap_cons_some hfragment, List.filterMap_cons_none rfl, hrest]

/-- The first of these fragments is observed and reported; its report is among the reports of the
run. -/
theorem run_eachReported_cons {frame : ControlFrame} (h : frame.payload.isVideoFrame = true)
    (frames : List ControlFrame) (a : LossAccount) :
    Machine.run step a (eachReported (frame :: frames))
      = Machine.run step (a.observe frame.header.sequence).report (eachReported frames) := by
  rw [← step_fragment h]
  rfl

theorem lost_eq_zero_of_report {es : List Event}
    (h : ∀ r ∈ (Machine.run step a.report es).reports, r.2 = 0) : a.sequences.lost = 0 := by
  have hreported : a.sequences.take.1 ∈ a.report.reports :=
    List.mem_append_right _ (List.mem_singleton_self _)
  exact h _ ((reports_prefix_run _ _).subset hreported)

/-- When every fragment is reported at once and no report shows a loss, the fragments are
contiguous. -/
theorem along_of_eachReported (htracks : a.Tracks last behind) (hlost : a.sequences.lost = 0)
    {frames : List ControlFrame} (hvideo : ∀ frame ∈ frames, frame.payload.isVideoFrame = true)
    {gaps : List ℕ} (hframes : frames.map (·.header.sequence) = numbersAfter last gaps)
    (hzero : ∀ r ∈ (Machine.run step a (eachReported frames)).reports, r.2 = 0) :
    Machine.Along drift Contiguous behind gaps := by
  induction gaps generalizing a last behind frames with
  | nil => exact trivial
  | cons gap gaps ih =>
      cases frames with
      | nil => cases hframes
      | cons frame frames =>
          obtain ⟨hsequence, hrest⟩ := List.cons.inj hframes
          dsimp only at hsequence
          obtain ⟨hframe, hvideo'⟩ := List.forall_mem_cons.1 hvideo
          rw [run_eachReported_cons hframe, hsequence] at hzero
          have hcontiguous : Contiguous behind gap :=
            (observe_lost_eq_zero_iff htracks hlost gap).1 (lost_eq_zero_of_report hzero)
          exact ⟨hcontiguous,
            ih (tracks_report (tracks_observe htracks gap)) rfl hvideo' hrest hzero⟩

/-- From the first fragment on, when nothing has arrived yet. -/
theorem along_of_eachReported_first {frames : List ControlFrame}
    (hvideo : ∀ frame ∈ frames, frame.payload.isVideoFrame = true) {first : UInt16}
    {gaps : List ℕ} (hframes : frames.map (·.header.sequence) = first :: numbersAfter first gaps)
    (hzero : ∀ r ∈ (Machine.run step {} (eachReported frames)).reports, r.2 = 0) :
    Machine.Along drift Contiguous 0 gaps := by
  cases frames with
  | nil => cases hframes
  | cons frame frames =>
      obtain ⟨hsequence, hrest⟩ := List.cons.inj hframes
      dsimp only at hsequence
      obtain ⟨hframe, hvideo'⟩ := List.forall_mem_cons.1 hvideo
      rw [run_eachReported_cons hframe, hsequence] at hzero
      exact along_of_eachReported (tracks_report (tracks_first rfl first)) rfl hvideo' hrest hzero

/-- As long as the gaps are below 65279, the viewer measures from the fragment before, and the
fragments are contiguous exactly when no gap has between 1 and 255 messages. -/
theorem along_drift_iff {gaps : List ℕ} (h : ∀ gap ∈ gaps, gap < 65279) :
    Machine.Along drift Contiguous 0 gaps ↔ ∀ gap ∈ gaps, gap = 0 ∨ 255 < gap := by
  induction gaps with
  | nil => simp [Machine.Along]
  | cons gap gaps ih =>
      have hgap := h gap List.mem_cons_self
      have hmod : (0 + gap + 1) % 2 ^ 16 = gap + 1 := by
        rw [Nat.zero_add]
        exact Nat.mod_eq_of_lt (by omega)
      have hmax : MAX_REORDER.toNat = 256 := rfl
      have hdrift : drift 0 gap = 0 := by
        rw [drift, if_neg]
        rw [SequenceTracker.Stays, hmod, hmax]
        omega
      have hcontiguous : Contiguous 0 gap ↔ gap = 0 ∨ 255 < gap := by
        rw [Contiguous, SequenceTracker.Skips, hmod, hmax]
        omega
      rw [Machine.Along, hdrift, ih fun gap' h' => h gap' (List.mem_cons_of_mem _ h'), hcontiguous,
        List.forall_mem_cons]

end LossAccount

end Rda
