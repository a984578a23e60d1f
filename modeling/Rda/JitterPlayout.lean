/-
**What a dropped frame does to the frames played after it.**

A frame that others refer to may be dropped by the buffer: skipped or abandoned by a poll, or given
up when the buffer is over-full.  The picture stays intact if the next frame played with a later
timestamp starts afresh, as a keyframe or as a recovery frame.  Only the capacity rule looks at what
a frame is before it drops it, and none looks at what is played next.

Whether a run is harmed by a drop depends on what comes after it.  The drops that are harmless
whatever comes are those where the same poll plays a frame that starts afresh; after any other one
there is a continuation in which the next frame is a delta frame.

Main definitions:

* `Rda.JitterCall`, `Rda.JitterBuffer.call` — an operation with its arguments;
* `Rda.JitterBuffer.lost`, `Rda.JitterBuffer.plays` — the frames that one call loses, read off the
  queue before and after it, and what a run plays;
* `Rda.Mended` — the next later frame played starts afresh;
* `Rda.JitterBuffer.Harmless` — a call that drops nothing that is missed.

Main results:

* `Rda.JitterBuffer.call_perm`, `Rda.JitterBuffer.lost_perm` — what a call drops, plays and keeps is
  what there was, and what it drops is lost;
* `Rda.JitterBuffer.mended_of_harmless` — what a harmless call drops is not missed;
* `Rda.JitterBuffer.exists_damage` — from every state a delta frame can come next;
* `Rda.playout_decodable_iff` — **the runs in which playout stays decodable**.
-/

import Mathlib.Algebra.Order.BigOperators.Group.List
import Mathlib.Data.Multiset.AddSub
import Rda.JitterBuffer
import Rda.Machine

set_option relaxedAutoImplicit false
set_option autoImplicit false

namespace Rda

/-- An operation of the buffer with its arguments. -/
inductive JitterCall
  | push (frame : EncodedFrame) (nowMs : ℕ)
  | poll (nowMs : ℕ)

/-- When the call is made. -/
def JitterCall.nowMs : JitterCall → ℕ
  | .push _ nowMs => nowMs
  | .poll nowMs => nowMs

/-- The calls are made one after the other. -/
def InOrder (calls : List JitterCall) : Prop :=
  (calls.map JitterCall.nowMs).Pairwise (· ≤ ·)

/-- The frame that is displayed, if any. -/
def PlayoutDecision.frames : PlayoutDecision → List EncodedFrame
  | .play frame => [frame]
  | _ => []

/-- The next frame played that is later than this one is a keyframe or a recovery frame. -/
def Mended (frame : EncodedFrame) (plays : List EncodedFrame) : Prop :=
  ∀ next ∈ plays.find? (fun g => frame.ptsUs < g.ptsUs), next.kind ≠ .delta

instance (frame : EncodedFrame) (plays : List EncodedFrame) : Decidable (Mended frame plays) :=
  inferInstanceAs (Decidable (∀ next ∈ plays.find? (fun g => frame.ptsUs < g.ptsUs),
    next.kind ≠ .delta))

/-- No timestamp is later than that of the frame. -/
def NoneLater (frame : EncodedFrame) : Prop :=
  ∀ ptsUs : UInt64, ptsUs ≤ frame.ptsUs

theorem NoneLater.mended {frame : EncodedFrame} (h : NoneLater frame) (plays : List EncodedFrame) :
    Mended frame plays := by
  intro next hnext
  have hlater := List.find?_some hnext
  exact absurd (h next.ptsUs) (UInt64.not_le.2 (by simpa using hlater))

namespace JitterBuffer

variable {J : Type} (est : Estimator J)

/-- One call. -/
def call (b : JitterBuffer J) : JitterCall → JitterBuffer J
  | .push frame nowMs => (b.push est frame nowMs).2
  | .poll nowMs => (b.poll nowMs).2

/-- What the call drops to catch up, as stale, or for lack of room. -/
def dropped (b : JitterBuffer J) : JitterCall → List Queued
  | .push frame nowMs =>
      if b.Fresh frame then (enforceCapacity (b.enqueued est frame nowMs)).1 else []
  | .poll nowMs => b.late nowMs

/-- The frame that the call adds to the queue, if any. -/
def accepted (b : JitterBuffer J) : JitterCall → List EncodedFrame
  | .push frame _ => if b.Fresh frame then [frame] else []
  | .poll _ => []

/-- What the call plays, after it has dropped what it drops. -/
def played (b : JitterBuffer J) : JitterCall → List EncodedFrame
  | .push _ _ => []
  | .poll nowMs => (b.poll nowMs).1.frames

/-- The frames that the call loses: those that were queued or are accepted by it, less those that it
plays and those that are queued afterwards. -/
def lost (b : JitterBuffer J) (c : JitterCall) : List EncodedFrame :=
  (b.accepted c ++ b.queue.map Queued.frame).diff
    (b.played c ++ (b.call est c).queue.map Queued.frame)

/-- What is played in a run. -/
def plays : JitterBuffer J → List JitterCall → List EncodedFrame
  | _, [] => []
  | b, c :: calls => b.played c ++ plays (b.call est c) calls

/-- Among the frames behind a dropped one, the first that is not overdue is due, later than the
dropped one, and starts afresh. -/
def Replaced (nowMs : ℕ) (q : Queued) (after : List Queued) : Prop :=
  ∃ between next rest, after = between ++ next :: rest ∧
    (∀ x ∈ between, x.dueMs + CATCHUP_SLACK_MS < nowMs) ∧ next.dueMs ≤ nowMs ∧
    ¬ Overdue nowMs next rest ∧ q.frame.ptsUs < next.frame.ptsUs ∧ next.frame.kind ≠ .delta

/-- A push to a full queue finds a discardable frame, and a poll finds each overdue frame
discardable or replaced.  Frames that nothing can be later than do not matter. -/
def Harmless (b : JitterBuffer J) : JitterCall → Prop
  | .push frame _ => b.Fresh frame → MAX_QUEUED_FRAMES ≤ b.queue.length →
      frame.isDiscardable = true ∨ (∃ q ∈ b.queue, q.frame.isDiscardable = true) ∨
        NoneLater frame ∧ ∀ q ∈ b.queue, NoneLater q.frame
  | .poll nowMs => ∀ before q after, b.queue = before ++ q :: after → Overdue nowMs q after →
      q.frame.isDiscardable = true ∨ NoneLater q.frame ∨ Replaced nowMs q after

variable {est}

theorem inv_call {b : JitterBuffer J} (h : b.Inv) (c : JitterCall) : (b.call est c).Inv := by
  cases c with
  | push frame nowMs => exact inv_push h frame nowMs
  | poll nowMs => exact inv_poll h nowMs

/-- Every run keeps the invariant. -/
theorem inv_run {b : JitterBuffer J} (h : b.Inv) (calls : List JitterCall) :
    (Machine.run (call est) b calls).Inv :=
  Machine.run_invariant Inv (fun _ c h => inv_call h c) h calls

/-! ### What a call drops -/

theorem played_eq_of_left {b : JitterBuffer J} {nowMs : ℕ} {front : Queued} {rest : List Queued}
    (hleft : b.left nowMs = front :: rest) (hdue : front.dueMs ≤ nowMs) :
    b.played (.poll nowMs) = [front.frame] := by
  rcases b.poll_cases nowMs with ⟨front', rest', hleft', -, hplay, -⟩ | ⟨hearly, -⟩
  · rw [hleft] at hleft'
    cases hleft'
    rw [played, hplay]
    rfl
  · have hlate := hearly front (by rw [hleft]; rfl)
    omega

theorem played_eq_nil {b : JitterBuffer J} {nowMs : ℕ}
    (h : ∀ frame, (b.poll nowMs).1 ≠ .play frame) : b.played (.poll nowMs) = [] := by
  rw [played]
  cases hpoll : (b.poll nowMs).1 with
  | play frame => exact absurd hpoll (h frame)
  | wait => rfl
  | starved => rfl

/-- Nothing is lost from sight: what was queued, and the frame that is accepted, is dropped, played
or still queued. -/
theorem call_perm (b : JitterBuffer J) (c : JitterCall) :
    ((b.dropped est c).map Queued.frame ++ (b.played c ++
        (b.call est c).queue.map Queued.frame)).Perm
      (b.accepted c ++ b.queue.map Queued.frame) := by
  cases c with
  | push frame nowMs =>
      by_cases hfresh : b.Fresh frame
      · obtain ⟨-, hqueue, -⟩ := push_of_fresh est hfresh nowMs
        rw [dropped, accepted, if_pos hfresh, if_pos hfresh, played, call, hqueue,
          List.nil_append, ← List.map_append]
        exact ((giveUp_perm _ _).map _).trans (enqueue_perm b.queue frame nowMs _)
      · obtain ⟨-, hqueue, -⟩ := push_of_not_fresh est hfresh nowMs
        rw [dropped, accepted, if_neg hfresh, if_neg hfresh, played, call, hqueue]
        exact List.Perm.refl _
  | poll nowMs =>
      rw [accepted, List.nil_append, ← b.late_append_left nowMs, List.map_append]
      refine List.Perm.append_left _ ?_
      rcases b.poll_cases nowMs with ⟨front, rest, hleft, -, hplay, hqueue, -⟩ |
        ⟨-, hnoplay, hqueue, -⟩
      · rw [played, hplay, call, hqueue, hleft]
        exact List.Perm.refl _
      · rw [played_eq_nil hnoplay, call, hqueue]
        exact List.Perm.refl _

/-- What a call loses is what it drops. -/
theorem lost_perm (b : JitterBuffer J) (c : JitterCall) :
    (b.lost est c).Perm ((b.dropped est c).map Queued.frame) := by
  have hperm := Multiset.coe_eq_coe.2 (@call_perm J est b c)
  rw [← Multiset.coe_add] at hperm
  rw [← Multiset.coe_eq_coe, lost, ← Multiset.coe_sub, ← hperm,
    Multiset.add_sub_cancel_right]

theorem mem_lost_iff {b : JitterBuffer J} {c : JitterCall} {f : EncodedFrame} :
    f ∈ b.lost est c ↔ ∃ q ∈ b.dropped est c, q.frame = f := by
  rw [(b.lost_perm c).mem_iff, List.mem_map]

/-- A push gives a frame up only if the queue is full, and then the victim of the queue with the new
frame in it. -/
theorem dropped_push {b : JitterBuffer J} (h : b.Inv) {frame : EncodedFrame}
    (hfresh : b.Fresh frame) (nowMs : ℕ) :
    b.dropped est (.push frame nowMs) =
      if MAX_QUEUED_FRAMES ≤ b.queue.length then
        (b.enqueued est frame nowMs)[victim (b.enqueued est frame nowMs)]?.toList
      else [] := by
  have hlength : (b.enqueued est frame nowMs).length = b.queue.length + 1 :=
    length_enqueue b.queue frame nowMs _
  have hbounded := h.bounded
  rw [dropped, if_pos hfresh]
  split_ifs with hfull
  · have hone : b.queue.length + 1 - MAX_QUEUED_FRAMES = 1 := by omega
    rw [enforceCapacity, hlength, hone]
    simp [giveUp]
  · rw [enforceCapacity_of_length_le (by omega)]

/-- A victim that is not discardable is the earliest frame of all, and none is discardable. -/
theorem victim_of_not_discardable {b : JitterBuffer J} (h : b.Inv) {frame : EncodedFrame}
    {nowMs : ℕ} {v : Queued}
    (hvictim : (b.enqueued est frame nowMs)[victim (b.enqueued est frame nowMs)]? = some v)
    (hv : v.frame.isDiscardable = false) :
    (∀ f, f = frame ∨ (∃ q ∈ b.queue, q.frame = f) →
      f.isDiscardable = false ∧ v.frame.ptsUs ≤ f.ptsUs) ∧
    (v.frame = frame ∨ ∃ q ∈ b.queue, q.frame = v.frame) := by
  refine ⟨?_, mem_enqueued_iff.1 ⟨v, List.mem_of_getElem? hvictim, rfl⟩⟩
  intro f hf
  obtain ⟨q, hq, rfl⟩ : ∃ q ∈ b.enqueued est frame nowMs, q.frame = f := mem_enqueued_iff.2 hf
  rcases victim_cases (b.enqueued est frame nowMs) with ⟨v', hv', hdiscardable⟩ | ⟨hnone, hhead⟩
  · rw [hvictim] at hv'
    cases hv'
    rw [hv] at hdiscardable
    cases hdiscardable
  · refine ⟨hnone q hq, ?_⟩
    -- The victim is the first frame, and the queue is in the order of the timestamps.
    have hsorted := ptsSorted_enqueued est h frame nowMs
    obtain ⟨rest, hrest⟩ := List.head?_eq_some_iff.1 (hhead.symm.trans hvictim)
    rw [hrest] at hq hsorted
    rcases List.mem_cons.1 hq with rfl | hq
    · exact UInt64.le_refl _
    · exact (List.pairwise_cons.1 hsorted).1 _ (List.mem_map_of_mem hq)

/-! ### What is dropped harmlessly is not missed -/

theorem find?_of_replaced {q : Queued} {next : EncodedFrame}
    (hlater : q.frame.ptsUs < next.ptsUs) (hfresh : next.kind ≠ .delta)
    (plays : List EncodedFrame) : Mended q.frame (next :: plays) := by
  intro next' hnext'
  rw [List.find?_cons_of_pos (by simpa using hlater)] at hnext'
  cases hnext'
  exact hfresh

/-- The frame that replaces a dropped one is the one that the poll plays. -/
theorem left_of_replaced {b : JitterBuffer J} (h : b.Inv) {nowMs : ℕ} {first skipped : List Queued}
    {q : Queued} (hlate : b.late nowMs = first ++ q :: skipped) {between rest : List Queued}
    {next : Queued} (hafter : skipped ++ b.left nowMs = between ++ next :: rest)
    (hbetween : ∀ x ∈ between, x.dueMs + CATCHUP_SLACK_MS < nowMs) (hdue : next.dueMs ≤ nowMs)
    (hkept : ¬ Overdue nowMs next rest) : b.left nowMs = next :: rest := by
  have hoverdue := b.allOverdue_late nowMs
  rw [hlate] at hoverdue
  obtain ⟨-, -, hskipped⟩ := allOverdue_append.1 hoverdue
  rcases List.append_eq_append_iff.1 hafter with ⟨more, rfl, hleft⟩ | ⟨more, rfl, hleft⟩
  · cases more with
    | nil => exact hleft
    | cons x more =>
        -- The first frame that is left would be overdue, with a due one behind it.
        refine absurd ?_ (not_overdue_of_left hleft)
        have hsorted : DueSorted (x :: (more ++ next :: rest)) := by
          have hsub := b.left_sublist nowMs
          rw [hleft] at hsub
          exact h.due.sublist hsub
        have hslack := slack_of_mem_due nowMs (List.pairwise_cons.1 hsorted).2
          (List.mem_append_right more List.mem_cons_self) hdue
        change x.dueMs + slack nowMs (more ++ next :: rest) < nowMs
        rw [hslack]
        exact hbetween x (by simp)
  · cases more with
    | nil => exact hleft.symm
    | cons x more =>
        obtain ⟨rfl, hrest⟩ := List.cons.inj hleft
        obtain ⟨-, hx, -⟩ := allOverdue_append.1 hskipped
        exact absurd (hrest ▸ hx) hkept

/-- What a harmless call loses is discardable or not missed, whatever comes after the call. -/
theorem mended_of_harmless {b : JitterBuffer J} (h : b.Inv) {c : JitterCall}
    (hharmless : b.Harmless c) {f : EncodedFrame} (hf : f ∈ b.lost est c)
    (hneeded : f.isDiscardable = false) (calls : List JitterCall) :
    Mended f (plays est b (c :: calls)) := by
  obtain ⟨q, hq, rfl⟩ := mem_lost_iff.1 hf
  cases c with
  | push frame nowMs =>
      by_cases hfresh : b.Fresh frame
      · rw [dropped_push h hfresh] at hq
        split_ifs at hq with hfull
        · rw [Option.mem_toList] at hq
          obtain ⟨hall, hold⟩ := victim_of_not_discardable h hq hneeded
          rcases hharmless hfresh hfull with hd | ⟨q', hq', hd⟩ | ⟨hframe, hqueue⟩
          · rw [(hall frame (.inl rfl)).1] at hd
            cases hd
          · rw [(hall q'.frame (.inr ⟨q', hq', rfl⟩)).1] at hd
            cases hd
          · rcases hold with hsame | ⟨q', hq', hsame⟩
            · exact hsame ▸ hframe.mended _
            · exact hsame ▸ (hqueue q' hq').mended _
        · simp at hq
      · rw [dropped, if_neg hfresh] at hq
        simp at hq
  | poll nowMs =>
      obtain ⟨first, skipped, hlate⟩ : ∃ first skipped, b.late nowMs = first ++ q :: skipped :=
        List.append_of_mem hq
      have hqueue : b.queue = first ++ q :: (skipped ++ b.left nowMs) := by
        rw [← b.late_append_left nowMs, hlate, List.append_assoc, List.cons_append]
      have hoverdue : Overdue nowMs q (skipped ++ b.left nowMs) := by
        have hall := b.allOverdue_late nowMs
        rw [hlate] at hall
        exact (allOverdue_append.1 hall).2.1
      rcases hharmless first q _ hqueue hoverdue with hd | hnone | hreplaced
      · rw [hneeded] at hd
        cases hd
      · exact hnone.mended _
      · obtain ⟨between, next, rest, hafter, hbetween, hdue, hkept, hlater, hkind⟩ := hreplaced
        have hleft := left_of_replaced h hlate hafter hbetween hdue hkept
        rw [plays, played_eq_of_left hleft hdue]
        exact find?_of_replaced hlater hkind _

/-! ### A delta frame can come next -/

/-- Late enough, a poll drops everything and plays nothing. -/
theorem poll_drains {b : JitterBuffer J} {nowMs : ℕ}
    (h : ∀ q ∈ b.queue, q.dueMs + STALE_AFTER_MS < nowMs) :
    b.played (.poll nowMs) = [] ∧ (b.poll nowMs).2.queue = [] ∧
      (b.poll nowMs).2.lastPlayedPtsUs = b.lastPlayedPtsUs := by
  have hleft : b.left nowMs = [] := by
    cases hcons : b.left nowMs with
    | nil => rfl
    | cons q rest =>
        refine absurd ?_ (not_overdue_of_left hcons)
        have hq := h q ((b.left_sublist nowMs).subset (by simp [hcons]))
        have hless : CATCHUP_SLACK_MS ≤ STALE_AFTER_MS := by decide
        rw [Overdue]
        rcases slack_cases nowMs rest with hslack | hslack
        · rw [hslack]
          omega
        · rw [hslack]
          exact hq
  rcases b.poll_cases nowMs with ⟨front, rest, hcons, -⟩ | ⟨-, hnoplay, hqueue, hplayed⟩
  · rw [hleft] at hcons
    cases hcons
  · exact ⟨played_eq_nil hnoplay, hqueue.trans hleft, hplayed⟩

variable (est)

/-- A frame pushed to an empty buffer is played once the largest playout delay has passed. -/
theorem plays_push_poll {b : JitterBuffer J} (hempty : b.queue = []) {frame : EncodedFrame}
    (hfresh : b.Fresh frame) (nowMs : ℕ) :
    plays est b [.push frame nowMs, .poll (nowMs + MAX_TARGET_MS)] = [frame] := by
  obtain ⟨-, hqueue, -⟩ := push_of_fresh est hfresh nowMs
  -- The frame is the only one in the queue, due after a delay within bounds.
  obtain ⟨target, htarget, henqueued⟩ : ∃ target ≤ MAX_TARGET_MS,
      b.enqueued est frame nowMs = [⟨frame, nowMs, nowMs + target⟩] := by
    refine ⟨_, (targetMs_adaptTarget est (b.arrive est frame nowMs) nowMs).2, ?_⟩
    rw [enqueued, hempty]
    rfl
  have hroom : [(⟨frame, nowMs, nowMs + target⟩ : Queued)].length ≤ MAX_QUEUED_FRAMES := by
    simp [MAX_QUEUED_FRAMES]
  rw [henqueued, enforceCapacity_of_length_le hroom] at hqueue
  have hless : MAX_TARGET_MS ≤ STALE_AFTER_MS := by decide
  have hleft : (b.push est frame nowMs).2.left (nowMs + MAX_TARGET_MS) =
      [⟨frame, nowMs, nowMs + target⟩] := by
    rw [left, hqueue]
    simp only [catchUp, abandonStale_cons]
    rw [if_neg (by omega)]
  simp only [plays, call, played_eq_of_left hleft (by simp only; omega)]
  rfl

/-- From every state, and for every frame that a timestamp can be later than, there are calls after
which a delta frame is the only frame played, and it is later than that frame. -/
theorem exists_damage (b : JitterBuffer J) {frame : EncodedFrame} (hlater : ¬ NoneLater frame)
    (hlast : ∀ played ∈ b.lastPlayedPtsUs, played ≤ frame.ptsUs) (nowMs : ℕ) :
    ∃ calls, InOrder calls ∧ (∀ c ∈ calls, nowMs ≤ c.nowMs) ∧
      ∃ delta : EncodedFrame, plays est b calls = [delta] ∧ frame.ptsUs < delta.ptsUs ∧
        delta.kind = .delta := by
  obtain ⟨ptsUs, hpts⟩ := not_forall.1 hlater
  have hpts : frame.ptsUs < ptsUs := UInt64.not_le.1 hpts
  -- By then every frame in the queue is stale.
  let drained := nowMs + (b.queue.map Queued.dueMs).sum + STALE_AFTER_MS + 1
  have hstale : ∀ q ∈ b.queue, q.dueMs + STALE_AFTER_MS < drained := by
    intro q hq
    have hle := List.single_le_sum (l := b.queue.map Queued.dueMs) (by simp) q.dueMs
      (List.mem_map_of_mem hq)
    omega
  obtain ⟨hplayed, hempty, hkept⟩ := poll_drains hstale
  let delta : EncodedFrame := ⟨[], .delta, ptsUs, 0, 0, none, none⟩
  have hfresh : (b.poll drained).2.Fresh delta := by
    intro played hin
    rw [hkept] at hin
    exact UInt64.lt_of_le_of_lt (hlast played hin) hpts
  refine ⟨[.poll drained, .push delta drained, .poll (drained + MAX_TARGET_MS)], ?_, ?_, delta, ?_,
    hpts, rfl⟩
  · simp [InOrder, JitterCall.nowMs]
  · simp only [List.mem_cons, List.not_mem_nil, or_false, forall_eq_or_imp, forall_eq,
      JitterCall.nowMs]
    omega
  · have hrest := plays_push_poll est hempty hfresh drained
    rw [plays, hplayed, List.nil_append]
    exact hrest

/-! ### The harmless calls -/

/-- Whatever comes after the call, no frame that it loses and that is not discardable is missed. -/
def NothingMissed (b : JitterBuffer J) (c : JitterCall) : Prop :=
  ∀ calls, InOrder (c :: calls) → ∀ f ∈ b.lost est c, f.isDiscardable = false →
    Mended f (plays est b (c :: calls))

variable {est}

/-- A drop after which nothing later is played in the same call is missed in some continuation. -/
theorem missed_of_nothing_later {b : JitterBuffer J} {c : JitterCall} {q : Queued}
    (hq : q ∈ b.dropped est c) (hneeded : q.frame.isDiscardable = false)
    (hlater : ¬ NoneLater q.frame)
    (hplayed : ∀ f ∈ b.played c, f.ptsUs ≤ q.frame.ptsUs)
    (hlast : ∀ played ∈ (b.call est c).lastPlayedPtsUs, played ≤ q.frame.ptsUs) :
    ¬ b.NothingMissed est c := by
  intro hnothing
  obtain ⟨calls, horder, hafter, delta, hplays, hpts, hkind⟩ :=
    exists_damage est (b.call est c) hlater hlast c.nowMs
  have hin : InOrder (c :: calls) := by
    refine List.pairwise_cons.2 ⟨?_, horder⟩
    intro nowMs hnow
    obtain ⟨c', hc', rfl⟩ := List.mem_map.1 hnow
    exact hafter c' hc'
  refine hnothing calls hin q.frame (mem_lost_iff.2 ⟨q, hq, rfl⟩) hneeded delta ?_ hkind
  -- The delta frame is the first one that is later.
  have hnone : (b.played c).find? (fun g => q.frame.ptsUs < g.ptsUs) = none := by
    rw [List.find?_eq_none]
    intro f hf
    simpa using hplayed f hf
  rw [plays, hplays, List.find?_append, hnone, Option.none_or]
  simpa using hpts

/-- A frame that was in the queue, or has just been accepted, is no older than what was played. -/
theorem played_le_of_mem {b : JitterBuffer J} (h : b.Inv) {frame : EncodedFrame}
    (hfresh : b.Fresh frame) {f : EncodedFrame}
    (hf : f = frame ∨ ∃ q ∈ b.queue, q.frame = f) :
    ∀ played ∈ b.lastPlayedPtsUs, played ≤ f.ptsUs := by
  intro played hplayed
  rcases hf with rfl | ⟨q, hq, rfl⟩
  · exact UInt64.le_of_lt (hfresh played hplayed)
  · exact h.ahead played hplayed q hq

theorem harmless_push {b : JitterBuffer J} (h : b.Inv) {frame : EncodedFrame} {nowMs : ℕ}
    (hnothing : b.NothingMissed est (.push frame nowMs)) : b.Harmless (.push frame nowMs) := by
  intro hfresh hfull
  obtain ⟨v, hv⟩ : ∃ v,
      (b.enqueued est frame nowMs)[victim (b.enqueued est frame nowMs)]? = some v := by
    rcases victim_cases (b.enqueued est frame nowMs) with ⟨v, hv, -⟩ | ⟨-, hhead⟩
    · exact ⟨v, hv⟩
    · obtain ⟨q, hq, -⟩ : ∃ q ∈ b.enqueued est frame nowMs, q.frame = frame :=
        mem_enqueued_iff.2 (.inl rfl)
      exact ⟨_, hhead.trans (List.head?_eq_some_head (List.ne_nil_of_mem hq))⟩
  have hdropped : v ∈ b.dropped est (.push frame nowMs) := by
    rw [dropped_push h hfresh, if_pos hfull, hv]
    exact List.mem_singleton_self v
  cases hneeded : v.frame.isDiscardable with
  | true =>
      rcases mem_enqueued_iff.1 ⟨v, List.mem_of_getElem? hv, rfl⟩ with hsame | ⟨q, hq, hsame⟩
      · exact .inl (hsame ▸ hneeded)
      · exact .inr (.inl ⟨q, hq, hsame ▸ hneeded⟩)
  | false =>
      obtain ⟨hall, hold⟩ := victim_of_not_discardable h hv hneeded
      have hnone : NoneLater v.frame := by
        by_contra hlater
        refine missed_of_nothing_later hdropped hneeded hlater (by simp [played]) ?_ hnothing
        intro last hlast
        obtain ⟨-, -, hkept⟩ := push_of_fresh est hfresh nowMs
        refine played_le_of_mem h hfresh hold last ?_
        rw [← hkept]
        exact hlast
      -- The victim is the earliest frame, so nothing can be later than any of them.
      have hnever : ∀ f, f = frame ∨ (∃ q ∈ b.queue, q.frame = f) → NoneLater f := by
        intro f hf ptsUs
        exact UInt64.le_trans (hnone ptsUs) (hall f hf).2
      exact .inr (.inr ⟨hnever frame (.inl rfl), fun q hq => hnever q.frame (.inr ⟨q, hq, rfl⟩)⟩)

theorem harmless_poll {b : JitterBuffer J} (h : b.Inv) {nowMs : ℕ}
    (hnothing : b.NothingMissed est (.poll nowMs)) : b.Harmless (.poll nowMs) := by
  intro first q after hqueue hoverdue
  obtain ⟨skipped, hlate, hafter⟩ := late_of_overdue h.due hqueue hoverdue
  have hdropped : q ∈ b.dropped est (.poll nowMs) := by
    change q ∈ b.late nowMs
    rw [hlate]
    simp
  have hq : q ∈ b.queue := by
    rw [hqueue]
    simp
  cases hneeded : q.frame.isDiscardable with
  | true => exact .inl rfl
  | false =>
      by_cases hnone : NoneLater q.frame
      · exact .inr (.inl hnone)
      · refine .inr (.inr ?_)
        rcases b.poll_cases nowMs with ⟨front, rest, hleft, hdue, -, -, hlast⟩ |
          ⟨-, hnoplay, -, hlast⟩
        · have hplayed := played_eq_of_left hleft hdue
          by_cases hlater : q.frame.ptsUs < front.frame.ptsUs
          · refine ⟨skipped, front, rest, hleft ▸ hafter, ?_, hdue, not_overdue_of_left hleft,
              hlater, ?_⟩
            · -- Each of the frames between is overdue.
              intro x hx
              obtain ⟨before, behind, rfl⟩ := List.append_of_mem hx
              have hall := b.allOverdue_late nowMs
              rw [hlate] at hall
              have hlatex := (allOverdue_append.1 (allOverdue_append.1 hall).2.2).2.1
              have hless := catchup_le_slack nowMs (behind ++ b.left nowMs)
              exact lt_of_le_of_lt (Nat.add_le_add_left hless _) hlatex
            · -- This frame is the next later one.
              have hmended := hnothing [] (by simp [InOrder]) q.frame
                (mem_lost_iff.2 ⟨q, hdropped, rfl⟩) hneeded front.frame
              refine hmended ?_
              rw [plays, hplayed]
              simpa [plays] using hlater
          · refine absurd hnothing (missed_of_nothing_later hdropped hneeded hnone ?_ ?_)
            · rw [hplayed]
              simpa using UInt64.not_lt.1 hlater
            · intro last hin
              rw [call, hlast] at hin
              cases hin
              exact UInt64.not_lt.1 hlater
        · refine absurd hnothing (missed_of_nothing_later hdropped hneeded hnone ?_ ?_)
          · simp [played_eq_nil hnoplay]
          · intro last hin
            rw [call, hlast] at hin
            exact h.ahead last hin q hq

/-- A call loses nothing that is missed, whatever comes after it, exactly when it is harmless. -/
theorem nothingMissed_iff_harmless {b : JitterBuffer J} (h : b.Inv) (c : JitterCall) :
    b.NothingMissed est c ↔ b.Harmless c := by
  constructor
  · intro hnothing
    cases c with
    | push frame nowMs => exact harmless_push h hnothing
    | poll nowMs => exact harmless_poll h hnothing
  · intro hharmless calls _ f hf hneeded
    exact mended_of_harmless h hharmless hf hneeded calls

end JitterBuffer

/-- **Decodable playout.**  In every run whose calls are all harmless, whenever a frame is lost from
the queue that is not discardable, the next frame played with a later timestamp is a keyframe or a
recovery frame.  And being harmless is what it takes: the calls of a run are all harmless exactly
when after each of them that is so whatever the calls that come next. -/
theorem playout_decodable_iff {J : Type} (est : Estimator J) (calls : List JitterCall) :
    (Machine.Along (JitterBuffer.call est) JitterBuffer.Harmless (.new est) calls →
      ∀ past c rest, calls = past ++ c :: rest →
        ∀ f ∈ (Machine.run (JitterBuffer.call est) (.new est) past).lost est c,
          f.isDiscardable = false →
          Mended f ((Machine.run (JitterBuffer.call est) (.new est) past).plays est
            (c :: rest))) ∧
    ((∀ past c, past ++ [c] <+: calls →
        (Machine.run (JitterBuffer.call est) (.new est) past).NothingMissed est c) ↔
      Machine.Along (JitterBuffer.call est) JitterBuffer.Harmless (.new est) calls) := by
  have hnew : (JitterBuffer.new est).Inv := JitterBuffer.inv_new est
  constructor
  · rintro halong past c rest rfl f hf hneeded
    obtain ⟨-, hharmless, -⟩ := Machine.along_append.1 halong
    exact JitterBuffer.mended_of_harmless (JitterBuffer.inv_run hnew past) hharmless hf hneeded rest
  · exact Machine.forall_step_iff_along JitterBuffer.Inv (JitterBuffer.NothingMissed est)
      (fun _ c h _ => JitterBuffer.inv_call h c)
      (fun _ c h => JitterBuffer.nothingMissed_iff_harmless h c) hnew calls

namespace Sample

/-- A frame of the base layer. -/
def baseFrame (kind : FrameKind) (ptsUs : UInt64) : EncodedFrame :=
  ⟨List.replicate 100 0xAB, kind, ptsUs, 0, 0, none, none⟩

/-- A keyframe and two delta frames, as they come in on a healthy link. -/
def healthy : List JitterCall :=
  [.push (baseFrame .keyframe 0) 1000, .push (baseFrame .delta 33333) 1033,
    .push (baseFrame .delta 66666) 1066]

/-- The buffer with these three frames in it. -/
def threeQueued : JitterBuffer (List (ℕ × ℕ)) :=
  Machine.run (JitterBuffer.call jitterEstimator) (.new jitterEstimator) healthy

end Sample

/-- The render loop is held up for a fifth of a second.  Then the poll skips the keyframe and the
delta frame after it, and plays the delta frame that refers to them. -/
theorem references_skipped :
    InOrder (Sample.healthy ++ [.poll 1300]) ∧
      Sample.threeQueued.lost jitterEstimator (.poll 1300) =
        [Sample.baseFrame .keyframe 0, Sample.baseFrame .delta 33333] ∧
      (Sample.baseFrame .keyframe 0).isDiscardable = false ∧
      (Sample.baseFrame .delta 33333).isDiscardable = false ∧
      Sample.threeQueued.plays jitterEstimator [.poll 1300] = [Sample.baseFrame .delta 66666] ∧
      ¬ Mended (Sample.baseFrame .delta 33333)
        (Sample.threeQueued.plays jitterEstimator [.poll 1300]) := by
  refine ⟨?_, ?_, by decide, by decide, ?_, ?_⟩
  · simp [InOrder, Sample.healthy, JitterCall.nowMs]
  · decide
  · decide
  · decide

end Rda
