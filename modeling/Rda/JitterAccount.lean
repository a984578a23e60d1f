/-
**What becomes of the frames.**

Every frame that arrives is counted, and so is what becomes of it: it is played, dropped as late or
for lack of room, rejected because a later one has been played, or still queued.  Only a reset
empties the queue without counting, so that the counters balance if what resets have cleared is
added.

A push answers whether the frame was accepted.  The answer is given before the capacity is enforced,
and the new frame may be the one that is given up then.

Main definitions:

* `Rda.JitterOp`, `Rda.Metered.step` — an operation of the buffer with its arguments, and the buffer
  with the number of frames that resets have cleared;
* `Rda.Metered.Balanced` — the counters balance;
* `Rda.JitterBuffer.Placed` — the frame of a push is in the queue afterwards if the push says so.

Main results:

* `Rda.jitter_buffer_invariant` — **the invariant of the buffer** over every run;
* `Rda.push_truthful_iff` — **the pushes whose answer is right**.
-/

import Rda.JitterPlayout

set_option relaxedAutoImplicit false
set_option autoImplicit false

namespace Rda

variable {J : Type} {est : Estimator J}

/-- An operation of the buffer, with resets. -/
inductive JitterOp
  | call (c : JitterCall)
  | reset

/-- A buffer with the number of frames that resets have cleared. -/
structure Metered (J : Type) where
  buffer : JitterBuffer J
  cleared : ℕ

namespace JitterBuffer

/-! ### The counters -/

/-- The frames whose fate is known: played, dropped, rejected or still queued. -/
def accounted (b : JitterBuffer J) : ℕ :=
  b.stats.played + b.stats.droppedLate + b.stats.droppedOverflow + b.stats.droppedReordered +
    b.queue.length

theorem stats_adaptTarget (b : JitterBuffer J) (nowMs : ℕ) :
    (b.adaptTarget est nowMs).stats = b.stats := by
  simp only [adaptTarget]
  split_ifs
  · rfl
  · rfl
  · rfl

/-- A push counts one frame in, and one frame more is accounted for. -/
theorem accounted_push (est : Estimator J) (b : JitterBuffer J) (frame : EncodedFrame)
    (nowMs : ℕ) :
    (b.push est frame nowMs).2.stats.accepted = b.stats.accepted + 1 ∧
      (b.push est frame nowMs).2.accounted = b.accounted + 1 := by
  by_cases hfresh : b.Fresh frame
  · have hperm := (giveUp_perm ((b.enqueued est frame nowMs).length - MAX_QUEUED_FRAMES)
      (b.enqueued est frame nowMs)).length_eq
    have hlength : (b.enqueued est frame nowMs).length = b.queue.length + 1 :=
      length_enqueue b.queue frame nowMs _
    rw [List.length_append] at hperm
    simp only [push, if_neg (not_not.2 hfresh), accounted, stats_adaptTarget, enforceCapacity,
      arrive]
    refine ⟨trivial, ?_⟩
    omega
  · simp only [push, if_pos hfresh, accounted, arrive]
    refine ⟨trivial, ?_⟩
    omega

/-- A poll accounts for every frame it takes out of the queue. -/
theorem accounted_poll (b : JitterBuffer J) (nowMs : ℕ) :
    (b.poll nowMs).2.stats.accepted = b.stats.accepted ∧
      (b.poll nowMs).2.accounted = b.accounted := by
  have hlength := congrArg List.length (b.late_append_left nowMs)
  rw [List.length_append] at hlength
  unfold poll
  cases hleft : b.left nowMs with
  | nil =>
      rw [hleft] at hlength
      cases b.emptySinceMs with
      | none => exact ⟨rfl, by simp only [accounted]; omega⟩
      | some since =>
          simp only
          split_ifs
          · exact ⟨rfl, by simp only [accounted]; omega⟩
          · exact ⟨rfl, by simp only [accounted]; omega⟩
  | cons front rest =>
      rw [hleft, List.length_cons] at hlength
      simp only
      split_ifs
      · exact ⟨rfl, by simp only [accounted, List.length_cons]; omega⟩
      · exact ⟨rfl, by simp only [accounted]; omega⟩

/-- Within the bounds of the target delay. -/
def TargetOk (b : JitterBuffer J) : Prop :=
  MIN_TARGET_MS ≤ b.targetMs ∧ b.targetMs ≤ MAX_TARGET_MS

theorem targetOk_push {b : JitterBuffer J} (h : b.TargetOk) (frame : EncodedFrame) (nowMs : ℕ) :
    (b.push est frame nowMs).2.TargetOk := by
  by_cases hfresh : b.Fresh frame
  · have hadapted := targetMs_adaptTarget est (b.arrive est frame nowMs) nowMs
    simp only [push, if_neg (not_not.2 hfresh)]
    exact hadapted
  · simp only [push, if_pos hfresh]
    exact h

theorem targetMs_poll (b : JitterBuffer J) (nowMs : ℕ) :
    (b.poll nowMs).2.targetMs = b.targetMs := by
  unfold poll
  cases b.left nowMs with
  | nil =>
      cases b.emptySinceMs with
      | none => rfl
      | some since =>
          simp only
          split_ifs
          · rfl
          · rfl
  | cons front rest =>
      simp only
      split_ifs
      · rfl
      · rfl

/-- What a push loses can be missed only if neither the new frame nor a queued one is
discardable. -/
theorem none_discardable_of_lost {b : JitterBuffer J} (h : b.Inv) {frame : EncodedFrame}
    {nowMs : ℕ} {f : EncodedFrame} (hf : f ∈ b.lost est (.push frame nowMs))
    (hneeded : f.isDiscardable = false) :
    ∀ g ∈ frame :: b.queue.map Queued.frame, g.isDiscardable = false := by
  intro g hg
  obtain ⟨q, hq, rfl⟩ := mem_lost_iff.1 hf
  by_cases hfresh : b.Fresh frame
  · rw [dropped_push h hfresh] at hq
    split_ifs at hq with hfull
    · obtain ⟨hall, -⟩ := victim_of_not_discardable h (Option.mem_toList.1 hq) hneeded
      exact (hall g (by simpa [List.mem_map] using hg)).1
    · simp at hq
  · rw [dropped, if_neg hfresh] at hq
    simp at hq

end JitterBuffer

/-! ### Runs with resets -/

namespace Metered

/-- One operation. -/
def step (est : Estimator J) (m : Metered J) : JitterOp → Metered J
  | .call c => ⟨m.buffer.call est c, m.cleared⟩
  | .reset => ⟨m.buffer.reset, m.cleared + m.buffer.queue.length⟩

/-- The frames that have arrived are accounted for, or have been cleared by a reset. -/
def Balanced (m : Metered J) : Prop :=
  m.buffer.stats.accepted = m.buffer.accounted + m.cleared

/-- The buffer is in order and its counters balance. -/
structure Sound (m : Metered J) : Prop where
  inv : m.buffer.Inv
  target : m.buffer.TargetOk
  balanced : m.Balanced

theorem sound_new (est : Estimator J) : Sound ⟨.new est, 0⟩ where
  inv := JitterBuffer.inv_new est
  target := ⟨le_rfl, (by decide : MIN_TARGET_MS ≤ MAX_TARGET_MS)⟩
  balanced := rfl

theorem balanced_call {m : Metered J} (h : m.Balanced) (c : JitterCall) :
    (m.step est (.call c)).Balanced := by
  unfold Balanced at h ⊢
  cases c with
  | push frame nowMs =>
      obtain ⟨haccepted, haccounted⟩ := m.buffer.accounted_push est frame nowMs
      simp only [step, JitterBuffer.call, haccepted, haccounted]
      omega
  | poll nowMs =>
      obtain ⟨haccepted, haccounted⟩ := m.buffer.accounted_poll nowMs
      simp only [step, JitterBuffer.call, haccepted, haccounted]
      exact h

theorem sound_step {m : Metered J} (h : m.Sound) (op : JitterOp) : (m.step est op).Sound := by
  cases op with
  | call c =>
      refine ⟨JitterBuffer.inv_call h.inv c, ?_, balanced_call h.balanced c⟩
      cases c with
      | push frame nowMs => exact JitterBuffer.targetOk_push h.target frame nowMs
      | poll nowMs =>
          refine (?_ : JitterBuffer.TargetOk (m.buffer.poll nowMs).2)
          rw [JitterBuffer.TargetOk, JitterBuffer.targetMs_poll]
          exact h.target
  | reset =>
      refine ⟨JitterBuffer.inv_reset m.buffer, h.target, ?_⟩
      have hbalanced := h.balanced
      simp only [Balanced, step, JitterBuffer.accounted, JitterBuffer.reset] at hbalanced ⊢
      rw [hbalanced, List.length_nil]
      omega

/-- Every run keeps the buffer in order and its counters balanced. -/
theorem sound_run (est : Estimator J) (ops : List JitterOp) :
    (Machine.run (step est) ⟨.new est, 0⟩ ops).Sound :=
  Machine.run_invariant Sound (fun _ op h => sound_step h op) (sound_new est) ops

end Metered

/-- **The invariant of the buffer.**  After every run of pushes, polls and resets, whatever the
estimator says and at whatever times: the queue is in the order of the timestamps and of the times
at which frames are due, it is not too long, the target delay is within its bounds, and every frame
that has arrived was played, dropped, rejected or cleared, or is queued.  If a push
then loses a frame that is not discardable, neither the new frame nor a queued one is. -/
theorem jitter_buffer_invariant (est : Estimator J) (ops : List JitterOp) :
    let m := Machine.run (Metered.step est) ⟨.new est, 0⟩ ops
    (PtsSorted m.buffer.queue ∧ DueSorted m.buffer.queue ∧
      m.buffer.queue.length ≤ MAX_QUEUED_FRAMES ∧
      MIN_TARGET_MS ≤ m.buffer.targetMs ∧ m.buffer.targetMs ≤ MAX_TARGET_MS) ∧
    m.buffer.stats.accepted =
      m.buffer.stats.played + m.buffer.stats.droppedLate + m.buffer.stats.droppedOverflow +
        m.buffer.stats.droppedReordered + m.buffer.queue.length + m.cleared ∧
    ∀ frame nowMs, ∀ f ∈ m.buffer.lost est (.push frame nowMs), f.isDiscardable = false →
      ∀ g ∈ frame :: m.buffer.queue.map Queued.frame, g.isDiscardable = false := by
  intro m
  obtain ⟨hinv, htarget, hbalanced⟩ := Metered.sound_run est ops
  refine ⟨⟨hinv.pts, hinv.due, hinv.bounded, htarget⟩, hbalanced, ?_⟩
  intro frame nowMs f hf hneeded
  exact JitterBuffer.none_discardable_of_lost hinv hf hneeded

/-! ### What a push answers -/

/-- The frame given up is this one exactly when none before it is discardable, and either it is
discardable or it is the first and none behind it is. -/
theorem victim_append_cons_eq_iff (before after : List Queued) (q : Queued) :
    victim (before ++ q :: after) = before.length ↔
      (∀ x ∈ before, x.frame.isDiscardable = false) ∧
        (q.frame.isDiscardable = true ∨
          before = [] ∧ ∀ x ∈ after, x.frame.isDiscardable = false) := by
  rw [victim, List.findIdx?_append, List.findIdx?_cons]
  cases hbefore : before.findIdx? fun x => x.frame.isDiscardable with
  | some i =>
      obtain ⟨hi, hdiscardable, -⟩ := List.findIdx?_eq_some_iff_getElem.1 hbefore
      rw [Option.some_or, Option.getD_some]
      refine iff_of_false hi.ne ?_
      rintro ⟨hnone, -⟩
      rw [hnone _ (List.getElem_mem hi)] at hdiscardable
      cases hdiscardable
  | none =>
      rw [Option.none_or, and_iff_right (List.findIdx?_eq_none_iff.1 hbefore)]
      cases hq : q.frame.isDiscardable with
      | true => simp
      | false =>
          cases hafter : after.findIdx? fun x => x.frame.isDiscardable with
          | some i =>
              obtain ⟨hi, hdiscardable, -⟩ := List.findIdx?_eq_some_iff_getElem.1 hafter
              refine iff_of_false (by simp) ?_
              rintro (hq | ⟨-, hnone⟩)
              · cases hq
              · rw [hnone _ (List.getElem_mem hi)] at hdiscardable
                cases hdiscardable
          | none =>
              have hlength : 0 = before.length ↔ before = [] := by
                rw [eq_comm, List.length_eq_zero_iff]
              refine hlength.trans ⟨fun hempty => .inr ⟨hempty, ?_⟩, ?_⟩
              · exact List.findIdx?_eq_none_iff.1 hafter
              · rintro (hq | ⟨hempty, -⟩)
                · cases hq
                · exact hempty

/-- The frame in the middle of a list is still there when one is erased, unless it is the one that
was and there is no copy of it. -/
theorem exists_mem_eraseIdx_iff {before after : List Queued} {q : Queued} {i : ℕ} :
    (∃ x ∈ (before ++ q :: after).eraseIdx i, x.frame = q.frame) ↔
      i ≠ before.length ∨ ∃ x ∈ before ++ after, x.frame = q.frame := by
  by_cases hi : i = before.length
  · rw [hi, List.eraseIdx_append_of_length_le le_rfl, Nat.sub_self, List.eraseIdx_cons_zero]
    simp
  · refine iff_of_true ⟨q, List.mem_eraseIdx_iff_getElem?.2 ⟨before.length, Ne.symm hi, ?_⟩, rfl⟩
      (.inl hi)
    simp

/-- Giving a frame up only makes room for others, whose frames stay the same. -/
theorem exists_mem_settleDue_iff {dueMs : ℕ} {queue : List Queued} (P : EncodedFrame → Prop) :
    (∃ q ∈ settleDue dueMs queue, P q.frame) ↔ ∃ q ∈ queue, P q.frame := by
  induction queue generalizing dueMs with
  | nil => rfl
  | cons front rest ih => simp only [settleDue, List.mem_cons, exists_eq_or_imp, ih]

/-- A queued frame is given up rather than this new one: it is not later, and discardable if the new
one is, or it is discardable and the new one is not. -/
def GoesFirst (frame : EncodedFrame) (q : Queued) : Prop :=
  (q.frame.ptsUs ≤ frame.ptsUs ∧ (frame.isDiscardable = true → q.frame.isDiscardable = true)) ∨
    frame.isDiscardable = false ∧ q.frame.isDiscardable = true

/-- A frame that has been put in its place is still queued after one frame has been given up exactly
when another frame goes first. -/
theorem kept_iff_goesFirst {queue : List Queued} (hsorted : PtsSorted queue) (frame : EncodedFrame)
    (nowMs targetMs : ℕ) :
    (∃ q ∈ (enqueue queue frame nowMs targetMs).eraseIdx
        (victim (enqueue queue frame nowMs targetMs)), q.frame = frame) ↔
      ∃ q ∈ queue, GoesFirst frame q := by
  have hsplit := upTo_append_behind frame.ptsUs queue
  have hupTo : ∀ q ∈ upTo frame.ptsUs queue, q ∈ queue := by
    intro q hq
    rw [← hsplit]
    exact List.mem_append_left _ hq
  have hbehind : ∀ q ∈ behind frame.ptsUs queue, q ∈ queue := by
    intro q hq
    rw [← hsplit]
    exact List.mem_append_right _ hq
  rw [enqueue, exists_mem_eraseIdx_iff, ne_eq, victim_append_cons_eq_iff]
  constructor
  · rintro (hother | ⟨copy, hcopy, hsame⟩)
    · by_contra hnone
      refine hother ⟨?_, ?_⟩
      · intro x hx
        rw [← Bool.not_eq_true]
        intro hdiscardable
        exact hnone ⟨x, hupTo x hx, .inl ⟨le_of_mem_upTo hx, fun _ => hdiscardable⟩⟩
      · cases hframe : frame.isDiscardable with
        | true => exact .inl rfl
        | false =>
            refine .inr ⟨List.eq_nil_iff_forall_not_mem.2 ?_, ?_⟩
            · intro x hx
              refine hnone ⟨x, hupTo x hx, .inl ⟨le_of_mem_upTo hx, ?_⟩⟩
              rw [hframe]
              exact fun hn => absurd hn Bool.false_ne_true
            · intro x hx
              rw [← Bool.not_eq_true]
              intro hdiscardable
              obtain ⟨y, hy, hyd⟩ := (exists_mem_settleDue_iff fun f => f.isDiscardable = true).1
                ⟨x, hx, hdiscardable⟩
              exact hnone ⟨y, hbehind y hy, .inr ⟨hframe, hyd⟩⟩
    · -- A copy of the frame is not later, and as discardable.
      obtain ⟨q, hq, hqsame⟩ : ∃ q ∈ queue, q.frame = frame := by
        rcases List.mem_append.1 hcopy with hmem | hmem
        · exact ⟨copy, hupTo copy hmem, hsame⟩
        · obtain ⟨y, hy, hysame⟩ := (exists_mem_settleDue_iff (· = frame)).1 ⟨copy, hmem, hsame⟩
          exact ⟨y, hbehind y hy, hysame⟩
      refine ⟨q, hq, .inl ?_⟩
      rw [hqsame]
      exact ⟨UInt64.le_refl _, id⟩
  · rintro ⟨q, hq, hfirst⟩
    refine .inl ?_
    rintro ⟨hnone, hlast⟩
    rw [← hsplit, List.mem_append] at hq
    rcases hfirst with ⟨hle, himp⟩ | ⟨hframe, hdiscardable⟩
    · have hmem : q ∈ upTo frame.ptsUs queue :=
        hq.resolve_right fun hq => UInt64.not_lt.2 hle (lt_of_mem_behind hsorted hq)
      rcases hlast with hframe | ⟨hempty, -⟩
      · have hkept := hnone q hmem
        rw [himp hframe] at hkept
        cases hkept
      · rw [hempty] at hmem
        cases hmem
    · rcases hlast with hdisc | ⟨-, hafter⟩
      · rw [hframe] at hdisc
        cases hdisc
      · rcases hq with hq | hq
        · rw [hnone q hq] at hdiscardable
          cases hdiscardable
        · obtain ⟨x, hx, hxd⟩ := (exists_mem_settleDue_iff fun f => f.isDiscardable = true).2
            ⟨q, hq, hdiscardable⟩
          rw [hafter x hx] at hxd
          cases hxd

namespace JitterBuffer

/-- The frame of a push is in the queue afterwards if the push accepts it, and not if it does not:
a full queue gives up another frame than a new one that is accepted, and a frame that is rejected is
not queued already. -/
def Placed (b : JitterBuffer J) (frame : EncodedFrame) : Prop :=
  if b.Fresh frame then
    MAX_QUEUED_FRAMES ≤ b.queue.length → ∃ q ∈ b.queue, GoesFirst frame q
  else ∀ q ∈ b.queue, q.frame ≠ frame

/-- A push answers right exactly when its frame is placed. -/
theorem push_truthful_iff_placed {b : JitterBuffer J} (h : b.Inv) (frame : EncodedFrame)
    (nowMs : ℕ) :
    ((b.push est frame nowMs).1 = true ↔
        ∃ q ∈ (b.push est frame nowMs).2.queue, q.frame = frame) ↔ b.Placed frame := by
  unfold Placed
  split_ifs with hfresh
  · obtain ⟨haccepted, hqueue, -⟩ := push_of_fresh est hfresh nowMs
    have hlength : (b.enqueued est frame nowMs).length = b.queue.length + 1 :=
      length_enqueue b.queue frame nowMs _
    have hbounded := h.bounded
    rw [haccepted, hqueue, eq_self_iff_true, true_iff]
    by_cases hfull : MAX_QUEUED_FRAMES ≤ b.queue.length
    · have hone : b.queue.length + 1 - MAX_QUEUED_FRAMES = 1 := by omega
      rw [enforceCapacity, hlength, hone, imp_iff_right hfull]
      exact kept_iff_goesFirst h.pts frame nowMs _
    · rw [enforceCapacity_of_length_le (by omega)]
      exact iff_of_true (mem_enqueued_iff.2 (.inl rfl)) fun hn => absurd hn hfull
  · obtain ⟨hrejected, hqueue, -⟩ := push_of_not_fresh est hfresh nowMs
    rw [hrejected, hqueue]
    simp

end JitterBuffer

/-- **The pushes whose answer is right.**  At any point of any run, a push returns true exactly when
its frame is in the queue afterwards if and only if the frame is placed. -/
theorem push_truthful_iff (est : Estimator J) (ops : List JitterOp) (frame : EncodedFrame)
    (nowMs : ℕ) :
    let b := (Machine.run (Metered.step est) ⟨.new est, 0⟩ ops).buffer
    ((b.push est frame nowMs).1 = true ↔
        ∃ q ∈ (b.push est frame nowMs).2.queue, q.frame = frame) ↔ b.Placed frame :=
  JitterBuffer.push_truthful_iff_placed (Metered.sound_run est ops).inv frame nowMs

namespace Sample

/-- A frame of an upper layer. -/
def upperFrame (ptsUs : UInt64) : EncodedFrame :=
  ⟨[0xAB], .delta, ptsUs, 0, 1, none, none⟩

/-- As many frames of the base layer as the buffer holds, one a second, and no poll in between. -/
def flood : List JitterOp :=
  (List.range MAX_QUEUED_FRAMES).map fun i =>
    .call (.push (baseFrame .delta (.ofNat (1000000 * i))) (1000 * i))

/-- The buffer with these frames in it. -/
def flooded : JitterBuffer (List (ℕ × ℕ)) :=
  (Machine.run (Metered.step jitterEstimator) ⟨.new jitterEstimator, 0⟩ flood).buffer

end Sample

/-- A frame of an upper layer that arrives at a full buffer is given up at once, and the push
returns true. -/
theorem accepted_and_given_up :
    (Sample.flooded.push jitterEstimator (Sample.upperFrame 120000000) 120000).1 = true ∧
      ¬ ∃ q ∈ (Sample.flooded.push jitterEstimator (Sample.upperFrame 120000000) 120000).2.queue,
        q.frame = Sample.upperFrame 120000000 := by
  decide +kernel

end Rda
