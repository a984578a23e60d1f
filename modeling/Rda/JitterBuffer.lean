/-
**The de-jitter buffer.**

Frames wait in the buffer until they are due.  They are kept in the order of their timestamps, and
the times at which they are due are made to follow that order.  The buffer drops frames in three
places: it skips overdue frames when it has fallen behind, abandons a frame that is hopelessly late,
and gives up a frame when there are too many of them.

How much the arrivals jitter is measured by an estimator, which is a parameter: the buffer only ever
asks it for a percentile.

Main definitions:

* `Rda.Estimator`, `Rda.jitterEstimator` — an estimator, and the windowed one;
* `Rda.JitterBuffer`, `Rda.JitterBuffer.push`, `Rda.JitterBuffer.poll`, `Rda.JitterBuffer.reset` —
  the buffer;
* `Rda.JitterBuffer.Inv` — the queue is in order, not too long, and not behind what was played.

Main results:

* `Rda.JitterBuffer.inv_push`, `Rda.JitterBuffer.inv_poll` — both operations keep the invariant;
* `Rda.JitterBuffer.allOverdue_late`, `Rda.JitterBuffer.late_of_overdue` — a poll drops exactly the
  overdue frames.
-/

import Mathlib.Data.List.Perm.Basic
import Mathlib.Data.List.Sort
import Mathlib.Data.List.TakeWhile
import Rda.Video

set_option relaxedAutoImplicit false
set_option autoImplicit false

namespace Rda

/-- Smallest playout delay the buffer targets. -/
def MIN_TARGET_MS : ℕ := 15

/-- Largest playout delay the buffer targets. -/
def MAX_TARGET_MS : ℕ := 200

/-- How fast the target decays, in milliseconds per second. -/
def DECAY_MS_PER_S : ℕ := 5

/-- Maximum number of frames held. -/
def MAX_QUEUED_FRAMES : ℕ := 120

/-- How far past its deadline a frame is skipped if another one is due. -/
def CATCHUP_SLACK_MS : ℕ := 100

/-- How far past its deadline a frame is abandoned in any case. -/
def STALE_AFTER_MS : ℕ := 500

/-- How long a jitter sample counts. -/
def JITTER_WINDOW_MS : ℕ := 10000

/-! ### Measuring jitter -/

/-- What the buffer asks of an estimator: to take a deviation at a time, and for the 95th
percentile. -/
structure Estimator (J : Type) where
  new : J
  sample : J → ℕ → ℕ → J
  percentile95 : J → ℕ

/-- The windowed estimator: deviations with the times at which they were measured, oldest first. -/
def jitterEstimator : Estimator (List (ℕ × ℕ)) where
  new := []
  sample samples deviationMs nowMs :=
    (samples ++ [(nowMs, deviationMs)]).dropWhile fun s => JITTER_WINDOW_MS < nowMs - s.1
  percentile95 samples :=
    -- the index is `(len - 1) * 0.95`, rounded
    ((samples.map Prod.snd).insertionSort (· ≤ ·)).getD ((19 * (samples.length - 1) + 10) / 20) 0

/-! ### The buffer -/

/-- What the render loop should do right now. -/
inductive PlayoutDecision
  | play (frame : EncodedFrame)
  /-- Nothing is due yet. -/
  | wait
  /-- The buffer has been empty for a while. -/
  | starved
  deriving DecidableEq

/-- A frame in the buffer. -/
structure Queued where
  frame : EncodedFrame
  arrivedMs : ℕ
  dueMs : ℕ
  deriving DecidableEq

/-- Counters for telemetry. -/
structure JitterStats where
  accepted : ℕ := 0
  played : ℕ := 0
  droppedLate : ℕ := 0
  droppedOverflow : ℕ := 0
  droppedReordered : ℕ := 0
  starvations : ℕ := 0

/-- Reorders and paces incoming frames. -/
structure JitterBuffer (J : Type) where
  queue : List Queued
  targetMs : ℕ
  jitter : J
  lastArrivalMs : Option ℕ
  lastPtsUs : Option UInt64
  lastPlayedPtsUs : Option UInt64
  lastDecayMs : ℕ
  emptySinceMs : Option ℕ
  stats : JitterStats

/-- Raises a time to at least this, and each later one to at least the one before it. -/
def settleDue : ℕ → List Queued → List Queued
  | _, [] => []
  | dueMs, q :: rest =>
      { q with dueMs := max q.dueMs dueMs } :: settleDue (max q.dueMs dueMs) rest

/-- The frames up to the place of a frame with this timestamp. -/
def upTo (ptsUs : UInt64) (queue : List Queued) : List Queued :=
  queue.takeWhile fun q => q.frame.ptsUs ≤ ptsUs

/-- The frames behind that place. -/
def behind (ptsUs : UInt64) (queue : List Queued) : List Queued :=
  queue.dropWhile fun q => q.frame.ptsUs ≤ ptsUs

/-- When a frame is due that goes behind these: not before the last of them. -/
def dueBehind (dueMs : ℕ) (queue : List Queued) : ℕ :=
  match queue.getLast? with
  | some q => max dueMs q.dueMs
  | none => dueMs

/-- Inserts a frame in the order of the timestamps. -/
def enqueue (queue : List Queued) (frame : EncodedFrame) (nowMs targetMs : ℕ) : List Queued :=
  let dueMs := dueBehind (nowMs + targetMs) (upTo frame.ptsUs queue)
  upTo frame.ptsUs queue ++ ⟨frame, nowMs, dueMs⟩ :: settleDue dueMs (behind frame.ptsUs queue)

/-- The index of the frame to be given up: the first discardable one, or else the first. -/
def victim (queue : List Queued) : ℕ :=
  (queue.findIdx? fun q => q.frame.isDiscardable).getD 0

/-- Gives up so many frames: those given up, and those that stay. -/
def giveUp : ℕ → List Queued → List Queued × List Queued
  | 0, queue => ([], queue)
  | n + 1, queue =>
      let rest := giveUp n (queue.eraseIdx (victim queue))
      (queue[victim queue]?.toList ++ rest.1, rest.2)

/-- Drains an over-full buffer: the frames given up, and those that stay. -/
def enforceCapacity (queue : List Queued) : List Queued × List Queued :=
  giveUp (queue.length - MAX_QUEUED_FRAMES) queue

/-- Skips forward while the first frame is well overdue and the next one is due: the frames skipped,
and those that stay. -/
def catchUp (nowMs : ℕ) : List Queued → List Queued × List Queued
  | front :: next :: rest =>
      if front.dueMs + CATCHUP_SLACK_MS < nowMs ∧ next.dueMs ≤ nowMs then
        let caught := catchUp nowMs (next :: rest)
        (front :: caught.1, caught.2)
      else ([], front :: next :: rest)
  | queue => ([], queue)

/-- Abandons the first frame if it is hopelessly stale. -/
def abandonStale (nowMs : ℕ) : List Queued → List Queued × List Queued
  | [] => ([], [])
  | front :: rest =>
      if front.dueMs + STALE_AFTER_MS < nowMs then ([front], rest) else ([], front :: rest)

namespace JitterBuffer

variable {J : Type} (est : Estimator J)

/-- A buffer at the minimum target delay. -/
def new : JitterBuffer J :=
  ⟨[], MIN_TARGET_MS, est.new, none, none, none, 0, none, {}⟩

/-- The estimator after an arrival: the gap between the arrivals is compared with the gap between
the timestamps. -/
def measured (b : JitterBuffer J) (frame : EncodedFrame) (nowMs : ℕ) : J :=
  match b.lastArrivalMs, b.lastPtsUs with
  | some prevArrival, some prevPts =>
      let arrivalGap : ℤ := (nowMs - prevArrival : ℕ)
      let ptsGap : ℤ := ((frame.ptsUs.toNat - prevPts.toNat) / 1000 : ℕ)
      est.sample b.jitter (min ((arrivalGap - ptsGap).natAbs % 2 ^ 32) 1000) nowMs
  | _, _ => b.jitter

/-- The arrival is taken down. -/
def arrive (b : JitterBuffer J) (frame : EncodedFrame) (nowMs : ℕ) : JitterBuffer J :=
  { b with
    jitter := b.measured est frame nowMs
    lastArrivalMs := some nowMs
    lastPtsUs := some frame.ptsUs
    stats := { b.stats with accepted := b.stats.accepted + 1 } }

/-- Raises the target when the observed jitter demands it; lets it decay when it does not. -/
def adaptTarget (b : JitterBuffer J) (nowMs : ℕ) : JitterBuffer J :=
  let observed := est.percentile95 b.jitter
  let b :=
    if observed > b.targetMs then
      { b with targetMs := min observed MAX_TARGET_MS, lastDecayMs := nowMs }
    else if nowMs - b.lastDecayMs ≥ 1000 then
      let decay := min (DECAY_MS_PER_S * ((nowMs - b.lastDecayMs) / 1000)) (2 ^ 32 - 1)
      { b with targetMs := max (b.targetMs - decay) MIN_TARGET_MS, lastDecayMs := nowMs }
    else b
  { b with targetMs := max MIN_TARGET_MS (min b.targetMs MAX_TARGET_MS) }

/-- The frame is not older than one that has been played. -/
def Fresh (b : JitterBuffer J) (frame : EncodedFrame) : Prop :=
  ∀ played ∈ b.lastPlayedPtsUs, played < frame.ptsUs

instance (b : JitterBuffer J) (frame : EncodedFrame) : Decidable (b.Fresh frame) :=
  match h : b.lastPlayedPtsUs with
  | none => isTrue (by simp [Fresh, h])
  | some played => decidable_of_iff (played < frame.ptsUs) (by simp [Fresh, h])

/-- The queue with a frame that has just arrived, before the capacity is enforced. -/
def enqueued (b : JitterBuffer J) (frame : EncodedFrame) (nowMs : ℕ) : List Queued :=
  enqueue b.queue frame nowMs ((b.arrive est frame nowMs).adaptTarget est nowMs).targetMs

/-- Accepts a frame that just arrived, or rejects it because a later one has been played. -/
def push (b : JitterBuffer J) (frame : EncodedFrame) (nowMs : ℕ) : Bool × JitterBuffer J :=
  let arrived := b.arrive est frame nowMs
  if ¬ b.Fresh frame then
    (false, { arrived with
      stats := { arrived.stats with droppedReordered := arrived.stats.droppedReordered + 1 } })
  else
    let adapted := arrived.adaptTarget est nowMs
    let drained := enforceCapacity (b.enqueued est frame nowMs)
    (true, { adapted with
      queue := drained.2
      emptySinceMs := none
      stats :=
        { adapted.stats with
          droppedOverflow := adapted.stats.droppedOverflow + drained.1.length } })

/-- The frames that a poll drops at this time. -/
def late (b : JitterBuffer J) (nowMs : ℕ) : List Queued :=
  (catchUp nowMs b.queue).1 ++ (abandonStale nowMs (catchUp nowMs b.queue).2).1

/-- The frames that are left then. -/
def left (b : JitterBuffer J) (nowMs : ℕ) : List Queued :=
  (abandonStale nowMs (catchUp nowMs b.queue).2).2

/-- Asks what to display now. -/
def poll (b : JitterBuffer J) (nowMs : ℕ) : PlayoutDecision × JitterBuffer J :=
  let b := { b with
    queue := b.left nowMs
    stats := { b.stats with droppedLate := b.stats.droppedLate + (b.late nowMs).length } }
  match b.queue with
  | [] =>
      match b.emptySinceMs with
      | none => (.wait, { b with emptySinceMs := some nowMs })
      | some since =>
          if nowMs - since > 500 then
            (.starved, { b with
              emptySinceMs := some nowMs
              stats := { b.stats with starvations := b.stats.starvations + 1 } })
          else (.wait, b)
  | front :: rest =>
      if nowMs < front.dueMs then (.wait, b)
      else
        (.play front.frame, { b with
          queue := rest
          lastPlayedPtsUs := some front.frame.ptsUs
          stats := { b.stats with played := b.stats.played + 1 } })

/-- Empties the buffer and forgets what was played: the sender starts again from a keyframe, whose
timestamp may be an earlier one. -/
def reset (b : JitterBuffer J) : JitterBuffer J :=
  { b with
    queue := []
    lastPlayedPtsUs := none
    lastArrivalMs := none
    lastPtsUs := none
    emptySinceMs := none }

end JitterBuffer

/-! ### Queues in order -/

/-- The frames of a queue are in the order of their timestamps. -/
def PtsSorted (queue : List Queued) : Prop :=
  (queue.map Queued.frame).Pairwise fun f g => f.ptsUs ≤ g.ptsUs

/-- No frame is due before one that precedes it. -/
def DueSorted (queue : List Queued) : Prop :=
  queue.Pairwise fun a b => a.dueMs ≤ b.dueMs

section Order

theorem PtsSorted.sublist {queue kept : List Queued} (h : PtsSorted queue)
    (hsub : kept.Sublist queue) : PtsSorted kept :=
  List.Pairwise.sublist (hsub.map _) h

theorem map_frame_settleDue (dueMs : ℕ) (queue : List Queued) :
    (settleDue dueMs queue).map Queued.frame = queue.map Queued.frame := by
  induction queue generalizing dueMs with
  | nil => rfl
  | cons q rest ih => simp [settleDue, ih]

theorem le_of_mem_settleDue {dueMs : ℕ} {queue : List Queued} {q : Queued}
    (h : q ∈ settleDue dueMs queue) : dueMs ≤ q.dueMs := by
  induction queue generalizing dueMs with
  | nil => simp [settleDue] at h
  | cons front rest ih =>
      rcases List.mem_cons.1 h with rfl | h
      · exact Nat.le_max_right _ _
      · exact (Nat.le_max_right _ _).trans (ih h)

theorem dueSorted_settleDue (dueMs : ℕ) (queue : List Queued) :
    DueSorted (settleDue dueMs queue) := by
  induction queue generalizing dueMs with
  | nil => exact List.Pairwise.nil
  | cons front rest ih =>
      refine List.pairwise_cons.2 ⟨?_, ih _⟩
      intro q hq
      exact le_of_mem_settleDue hq

theorem upTo_append_behind (ptsUs : UInt64) (queue : List Queued) :
    upTo ptsUs queue ++ behind ptsUs queue = queue :=
  List.takeWhile_append_dropWhile

theorem le_of_mem_upTo {ptsUs : UInt64} {queue : List Queued} {q : Queued}
    (h : q ∈ upTo ptsUs queue) : q.frame.ptsUs ≤ ptsUs := by
  simpa using List.mem_takeWhile_imp h

/-- The frames behind the place of a timestamp are later. -/
theorem lt_of_mem_behind {ptsUs : UInt64} {queue : List Queued} (hsorted : PtsSorted queue)
    {q : Queued} (h : q ∈ behind ptsUs queue) : ptsUs < q.frame.ptsUs := by
  induction queue with
  | nil => simp [behind] at h
  | cons front rest ih =>
      obtain ⟨hfront, hrest⟩ := List.pairwise_cons.1 hsorted
      by_cases hle : front.frame.ptsUs ≤ ptsUs
      · rw [behind, List.dropWhile_cons_of_pos (by simpa using hle)] at h
        exact ih hrest h
      · rw [behind, List.dropWhile_cons_of_neg (by simpa using hle)] at h
        have hlt : ptsUs < front.frame.ptsUs := UInt64.not_le.1 hle
        rcases List.mem_cons.1 h with rfl | h
        · exact hlt
        · exact UInt64.lt_of_lt_of_le hlt (hfront _ (List.mem_map_of_mem h))

theorem le_dueBehind_of_mem {queue : List Queued} (hsorted : DueSorted queue) {q : Queued}
    (h : q ∈ queue) (dueMs : ℕ) : q.dueMs ≤ dueBehind dueMs queue := by
  obtain ⟨initial, last, rfl⟩ := (List.eq_nil_or_concat' queue).resolve_left (List.ne_nil_of_mem h)
  simp only [dueBehind, List.getLast?_concat]
  rcases List.mem_append.1 h with h | h
  · have hle := (List.pairwise_append.1 hsorted).2.2 q h last (List.mem_singleton_self _)
    exact hle.trans (Nat.le_max_right _ _)
  · rw [List.mem_singleton.1 h]
    exact Nat.le_max_right _ _

variable (queue : List Queued) (frame : EncodedFrame) (nowMs targetMs : ℕ)

theorem map_frame_enqueue :
    (enqueue queue frame nowMs targetMs).map Queued.frame =
      (upTo frame.ptsUs queue).map Queued.frame ++
        frame :: (behind frame.ptsUs queue).map Queued.frame := by
  simp [enqueue, map_frame_settleDue]

/-- An arrival adds its frame to those in the queue. -/
theorem enqueue_perm :
    ((enqueue queue frame nowMs targetMs).map Queued.frame).Perm
      (frame :: queue.map Queued.frame) := by
  rw [map_frame_enqueue]
  refine List.perm_middle.trans (List.Perm.cons _ ?_)
  rw [← List.map_append, upTo_append_behind]

theorem length_enqueue : (enqueue queue frame nowMs targetMs).length = queue.length + 1 := by
  simpa using (enqueue_perm queue frame nowMs targetMs).length_eq

variable {queue}

theorem ptsSorted_enqueue (h : PtsSorted queue) :
    PtsSorted (enqueue queue frame nowMs targetMs) := by
  rw [PtsSorted, map_frame_enqueue]
  rw [PtsSorted, ← upTo_append_behind frame.ptsUs queue, List.map_append] at h
  obtain ⟨hbefore, hafter, -⟩ := List.pairwise_append.1 h
  have hlater : ∀ g ∈ (behind frame.ptsUs queue).map Queued.frame, frame.ptsUs ≤ g.ptsUs := by
    intro g hg
    obtain ⟨q, hq, rfl⟩ := List.mem_map.1 hg
    rw [← List.map_append, upTo_append_behind] at h
    exact UInt64.le_of_lt (lt_of_mem_behind h hq)
  refine List.pairwise_append.2 ⟨hbefore, List.pairwise_cons.2 ⟨hlater, hafter⟩, ?_⟩
  intro f hf g hg
  obtain ⟨q, hq, rfl⟩ := List.mem_map.1 hf
  rcases List.mem_cons.1 hg with rfl | hg
  · exact le_of_mem_upTo hq
  · exact UInt64.le_trans (le_of_mem_upTo hq) (hlater g hg)

theorem dueSorted_enqueue (h : DueSorted queue) :
    DueSorted (enqueue queue frame nowMs targetMs) := by
  have hbefore : DueSorted (upTo frame.ptsUs queue) :=
    h.sublist (List.takeWhile_sublist _)
  refine List.pairwise_append.2 ⟨hbefore, List.pairwise_cons.2 ⟨?_, dueSorted_settleDue _ _⟩, ?_⟩
  · intro q hq
    exact le_of_mem_settleDue hq
  · intro q hq q' hq'
    have hdue := le_dueBehind_of_mem hbefore hq (nowMs + targetMs)
    rcases List.mem_cons.1 hq' with rfl | hq'
    · exact hdue
    · exact hdue.trans (le_of_mem_settleDue hq')

end Order

/-! ### Giving frames up -/

/-- The frame given up is the first discardable one, or, if there is none, the first one. -/
theorem victim_cases (queue : List Queued) :
    (∃ q, queue[victim queue]? = some q ∧ q.frame.isDiscardable = true) ∨
      ((∀ q ∈ queue, q.frame.isDiscardable = false) ∧ queue[victim queue]? = queue.head?) := by
  cases hfind : queue.findIdx? fun q => q.frame.isDiscardable with
  | none =>
      refine .inr ⟨?_, ?_⟩
      · simpa using List.findIdx?_eq_none_iff.1 hfind
      · rw [victim, hfind, Option.getD_none, List.head?_eq_getElem?]
  | some i =>
      obtain ⟨hi, hdiscardable, -⟩ := List.findIdx?_eq_some_iff_getElem.1 hfind
      refine .inl ⟨queue[i], ?_, hdiscardable⟩
      rw [victim, hfind, Option.getD_some, List.getElem?_eq_getElem hi]

theorem giveUp_sublist (n : ℕ) (queue : List Queued) : (giveUp n queue).2.Sublist queue := by
  induction n generalizing queue with
  | zero => exact List.Sublist.refl _
  | succ n ih => exact (ih _).trans (List.eraseIdx_sublist _ _)

/-- Every frame is given up or stays. -/
theorem giveUp_perm (n : ℕ) (queue : List Queued) :
    ((giveUp n queue).1 ++ (giveUp n queue).2).Perm queue := by
  induction n generalizing queue with
  | zero => exact List.Perm.refl _
  | succ n ih =>
      rw [giveUp, List.append_assoc]
      refine ((ih _).append_left _).trans ?_
      by_cases hvictim : victim queue < queue.length
      · rw [List.getElem?_eq_getElem hvictim]
        exact List.getElem_cons_eraseIdx_perm hvictim
      · rw [List.getElem?_eq_none (Nat.not_lt.1 hvictim),
          List.eraseIdx_of_length_le (Nat.not_lt.1 hvictim)]
        exact List.Perm.refl _

theorem length_giveUp {n : ℕ} {queue : List Queued} (h : n < queue.length) :
    (giveUp n queue).2.length = queue.length - n := by
  induction n generalizing queue with
  | zero => rfl
  | succ n ih =>
      have hvictim : victim queue < queue.length := by
        rcases victim_cases queue with ⟨q, hq, -⟩ | ⟨-, hq⟩
        · exact (List.getElem?_eq_some_iff.1 hq).1
        · have hne : queue ≠ [] := List.ne_nil_of_length_pos (by omega)
          rw [List.head?_eq_some_head hne] at hq
          exact (List.getElem?_eq_some_iff.1 hq).1
      have hlength := List.length_eraseIdx_of_lt hvictim
      rw [giveUp, ih (by omega), hlength]
      omega

/-- A queue that is not too long is left alone. -/
theorem enforceCapacity_of_length_le {queue : List Queued}
    (h : queue.length ≤ MAX_QUEUED_FRAMES) : enforceCapacity queue = ([], queue) := by
  rw [enforceCapacity, Nat.sub_eq_zero_of_le h]
  rfl

theorem length_enforceCapacity (queue : List Queued) :
    (enforceCapacity queue).2.length ≤ MAX_QUEUED_FRAMES := by
  by_cases hlong : MAX_QUEUED_FRAMES < queue.length
  · have hpos : 0 < MAX_QUEUED_FRAMES := by decide
    rw [enforceCapacity, length_giveUp (by omega)]
    omega
  · rw [enforceCapacity_of_length_le (Nat.not_lt.1 hlong)]
    exact Nat.not_lt.1 hlong

/-! ### What a poll drops -/

section Late

variable (nowMs : ℕ)

/-- How late a frame may be played: a little, if the frame behind it is due as well, and otherwise
until it is stale. -/
def slack (after : List Queued) : ℕ :=
  if ∃ next ∈ after.head?, next.dueMs ≤ nowMs then CATCHUP_SLACK_MS else STALE_AFTER_MS

/-- The frame, with these behind it, is later than that. -/
def Overdue (q : Queued) (after : List Queued) : Prop :=
  q.dueMs + slack nowMs after < nowMs

instance (q : Queued) (after : List Queued) : Decidable (Overdue nowMs q after) :=
  inferInstanceAs (Decidable (_ < _))

theorem slack_cases (after : List Queued) :
    slack nowMs after = CATCHUP_SLACK_MS ∨ slack nowMs after = STALE_AFTER_MS := by
  unfold slack
  split_ifs
  · exact .inl rfl
  · exact .inr rfl

theorem catchup_le_slack (after : List Queued) : CATCHUP_SLACK_MS ≤ slack nowMs after := by
  rcases slack_cases nowMs after with h | h
  · rw [h]
  · rw [h]
    decide

/-- With a due frame behind it, a frame may be a little late only. -/
theorem slack_of_due {next : Queued} (h : next.dueMs ≤ nowMs) (rest : List Queued) :
    slack nowMs (next :: rest) = CATCHUP_SLACK_MS := if_pos ⟨next, rfl, h⟩

/-- The same with a due frame further behind, in a queue in order. -/
theorem slack_of_mem_due {after : List Queued} (hsorted : DueSorted after) {next : Queued}
    (h : next ∈ after) (hdue : next.dueMs ≤ nowMs) : slack nowMs after = CATCHUP_SLACK_MS := by
  cases after with
  | nil => simp at h
  | cons first rest =>
      refine slack_of_due nowMs ?_ rest
      rcases List.mem_cons.1 h with rfl | h
      · exact hdue
      · exact ((List.pairwise_cons.1 hsorted).1 next h).trans hdue

theorem catchUp_append (queue : List Queued) :
    (catchUp nowMs queue).1 ++ (catchUp nowMs queue).2 = queue := by
  induction queue using catchUp.induct nowMs with
  | case1 front next rest hskip ih =>
      rw [catchUp, if_pos hskip]
      exact congrArg (front :: ·) ih
  | case2 front next rest hstay => rw [catchUp, if_neg hstay]; rfl
  | case3 queue hshort =>
      rw [catchUp]
      · rfl
      · exact hshort

theorem abandonStale_cons (front : Queued) (rest : List Queued) :
    abandonStale nowMs (front :: rest) =
      if front.dueMs + STALE_AFTER_MS < nowMs then ([front], rest) else ([], front :: rest) := rfl

theorem abandonStale_append (queue : List Queued) :
    (abandonStale nowMs queue).1 ++ (abandonStale nowMs queue).2 = queue := by
  cases queue with
  | nil => rfl
  | cons front rest =>
      rw [abandonStale_cons]
      split_ifs
      · rfl
      · rfl

/-- Each of the frames is overdue, with the ones behind it and then these behind them. -/
def AllOverdue : List Queued → List Queued → Prop
  | [], _ => True
  | q :: rest, behind => Overdue nowMs q (rest ++ behind) ∧ AllOverdue rest behind

variable {nowMs}

theorem allOverdue_append {first second behind : List Queued} :
    AllOverdue nowMs (first ++ second) behind ↔
      AllOverdue nowMs first (second ++ behind) ∧ AllOverdue nowMs second behind := by
  induction first with
  | nil => simp [AllOverdue]
  | cons q rest ih => simp only [List.cons_append, AllOverdue, ih, List.append_assoc, and_assoc]

theorem allOverdue_catchUp (queue : List Queued) :
    AllOverdue nowMs (catchUp nowMs queue).1 (catchUp nowMs queue).2 := by
  induction queue using catchUp.induct nowMs with
  | case1 front next rest hskip ih =>
      rw [catchUp, if_pos hskip]
      refine ⟨?_, ih⟩
      rw [catchUp_append, Overdue, slack_of_due nowMs hskip.2]
      exact hskip.1
  | case2 front next rest hstay =>
      rw [catchUp, if_neg hstay]
      trivial
  | case3 queue hshort =>
      rw [catchUp]
      · trivial
      · exact hshort

/-- Catching up stops at a frame that is not overdue unless it is stale. -/
theorem not_skipped_of_catchUp {queue : List Queued} {front next : Queued} {rest : List Queued}
    (h : (catchUp nowMs queue).2 = front :: next :: rest) :
    ¬ (front.dueMs + CATCHUP_SLACK_MS < nowMs ∧ next.dueMs ≤ nowMs) := by
  induction queue using catchUp.induct nowMs with
  | case1 front' next' rest' hskip ih =>
      rw [catchUp, if_pos hskip] at h
      exact ih h
  | case2 front' next' rest' hstay =>
      rw [catchUp, if_neg hstay] at h
      cases h
      exact hstay
  | case3 queue hshort =>
      rw [catchUp] at h
      · exact absurd h (hshort front next rest)
      · exact hshort

end Late

namespace JitterBuffer

variable {J : Type} (b : JitterBuffer J) (nowMs : ℕ)

theorem late_append_left : b.late nowMs ++ b.left nowMs = b.queue := by
  rw [late, left, List.append_assoc, abandonStale_append, catchUp_append]

/-- What a poll drops is overdue. -/
theorem allOverdue_late : AllOverdue nowMs (b.late nowMs) (b.left nowMs) := by
  have hcaught : AllOverdue nowMs _ _ := allOverdue_catchUp b.queue
  refine allOverdue_append.2 ⟨?_, ?_⟩
  · rw [left, abandonStale_append]
    exact hcaught
  · unfold left
    cases hrest : (catchUp nowMs b.queue).2 with
    | nil => trivial
    | cons front rest =>
        rw [abandonStale_cons]
        split_ifs with hstale
        · refine ⟨?_, trivial⟩
          have hslack : slack nowMs rest = STALE_AFTER_MS := by
            refine if_neg ?_
            rintro ⟨next, hnext, hdue⟩
            obtain ⟨rest', rfl⟩ : ∃ rest', rest = next :: rest' := List.head?_eq_some_iff.1 hnext
            have hless : CATCHUP_SLACK_MS ≤ STALE_AFTER_MS := by decide
            exact not_skipped_of_catchUp hrest ⟨by omega, hdue⟩
          rw [Overdue, List.nil_append, hslack]
          exact hstale
        · trivial

variable {b nowMs}

/-- What a poll leaves does not begin with an overdue frame. -/
theorem not_overdue_of_left {q : Queued} {rest : List Queued} (h : b.left nowMs = q :: rest) :
    ¬ Overdue nowMs q rest := by
  have hless : CATCHUP_SLACK_MS ≤ STALE_AFTER_MS := by decide
  unfold left at h
  cases hcaught : (catchUp nowMs b.queue).2 with
  | nil =>
      rw [hcaught] at h
      cases h
  | cons front behind =>
      rw [hcaught, abandonStale_cons] at h
      intro hoverdue
      split_ifs at h with hstale
      · -- The first frame has been abandoned, so the one behind it is not due.
        change behind = q :: rest at h
        subst h
        have hnotdue : ¬ q.dueMs ≤ nowMs :=
          fun hdue => not_skipped_of_catchUp hcaught ⟨by omega, hdue⟩
        have hlate : q.dueMs + slack nowMs rest < nowMs := hoverdue
        omega
      · cases h
        have hlate : q.dueMs + slack nowMs rest < nowMs := hoverdue
        rcases slack_cases nowMs rest with hslack | hslack
        · unfold slack at hslack
          split_ifs at hslack with hdue
          · obtain ⟨next, hnext, hnextdue⟩ := hdue
            obtain ⟨rest', rfl⟩ : ∃ rest', rest = next :: rest' := List.head?_eq_some_iff.1 hnext
            rw [slack_of_due nowMs hnextdue] at hlate
            exact not_skipped_of_catchUp hcaught ⟨hlate, hnextdue⟩
          · cases hslack
        · rw [hslack] at hlate
          exact hstale hlate

/-- **What a poll drops.**  In a queue in order, an overdue frame is dropped, and what is behind it
is dropped up to the frames that are left. -/
theorem late_of_overdue (hsorted : DueSorted b.queue) {before after : List Queued} {q : Queued}
    (hqueue : b.queue = before ++ q :: after) (hoverdue : Overdue nowMs q after) :
    ∃ skipped, b.late nowMs = before ++ q :: skipped ∧ after = skipped ++ b.left nowMs := by
  have hsplit := (b.late_append_left nowMs).trans hqueue
  rcases List.append_eq_append_iff.1 hsplit with ⟨kept, hbefore, hleft⟩ | ⟨skipped, hlate, hafter⟩
  · exfalso
    cases kept with
    | nil => exact not_overdue_of_left hleft hoverdue
    | cons first kept =>
        -- A frame before an overdue one is overdue, since the one behind it is due.
        have hdue : DueSorted (first :: (kept ++ q :: after)) := by
          rw [hqueue, hbefore, List.append_assoc] at hsorted
          exact (List.pairwise_append.1 hsorted).2.1
        have hlate : q.dueMs + slack nowMs after < nowMs := hoverdue
        have hless := catchup_le_slack nowMs after
        obtain ⟨hfirst, hrest⟩ := List.pairwise_cons.1 hdue
        have hq : q ∈ kept ++ q :: after := List.mem_append_right _ List.mem_cons_self
        have hle := hfirst q hq
        refine not_overdue_of_left hleft ?_
        change first.dueMs + slack nowMs (kept ++ q :: after) < nowMs
        rw [slack_of_mem_due nowMs hrest hq (by omega)]
        omega
  · cases skipped with
    | nil => exact absurd hoverdue (not_overdue_of_left hafter.symm)
    | cons q' skipped =>
        obtain ⟨rfl, hrest⟩ := List.cons.inj hafter
        exact ⟨skipped, hlate, hrest⟩

/-! ### What the operations do to the queue -/

variable (est : Estimator J)

theorem targetMs_adaptTarget (b : JitterBuffer J) (nowMs : ℕ) :
    MIN_TARGET_MS ≤ (b.adaptTarget est nowMs).targetMs ∧
      (b.adaptTarget est nowMs).targetMs ≤ MAX_TARGET_MS := by
  have hbounds : MIN_TARGET_MS ≤ MAX_TARGET_MS := by decide
  simp only [adaptTarget]
  omega

theorem lastPlayedPtsUs_adaptTarget (b : JitterBuffer J) (nowMs : ℕ) :
    (b.adaptTarget est nowMs).lastPlayedPtsUs = b.lastPlayedPtsUs := by
  simp only [adaptTarget]
  split_ifs
  · rfl
  · rfl
  · rfl

/-- A frame that is not fresh is rejected. -/
theorem push_of_not_fresh {b : JitterBuffer J} {frame : EncodedFrame} (h : ¬ b.Fresh frame)
    (nowMs : ℕ) :
    (b.push est frame nowMs).1 = false ∧ (b.push est frame nowMs).2.queue = b.queue ∧
      (b.push est frame nowMs).2.lastPlayedPtsUs = b.lastPlayedPtsUs := by
  simp only [push, if_pos h]
  exact ⟨trivial, rfl, rfl⟩

/-- A fresh frame is put in its place, and the capacity is enforced. -/
theorem push_of_fresh {b : JitterBuffer J} {frame : EncodedFrame} (h : b.Fresh frame)
    (nowMs : ℕ) :
    (b.push est frame nowMs).1 = true ∧
      (b.push est frame nowMs).2.queue = (enforceCapacity (b.enqueued est frame nowMs)).2 ∧
      (b.push est frame nowMs).2.lastPlayedPtsUs = b.lastPlayedPtsUs := by
  simp only [push, if_neg (not_not.2 h)]
  exact ⟨trivial, trivial, lastPlayedPtsUs_adaptTarget est _ nowMs⟩

/-- A poll plays the first frame that is left, if it is due. -/
theorem poll_cases (b : JitterBuffer J) (nowMs : ℕ) :
    (∃ front rest, b.left nowMs = front :: rest ∧ front.dueMs ≤ nowMs ∧
        (b.poll nowMs).1 = .play front.frame ∧ (b.poll nowMs).2.queue = rest ∧
        (b.poll nowMs).2.lastPlayedPtsUs = some front.frame.ptsUs) ∨
      ((∀ front ∈ (b.left nowMs).head?, nowMs < front.dueMs) ∧
        (∀ frame, (b.poll nowMs).1 ≠ .play frame) ∧ (b.poll nowMs).2.queue = b.left nowMs ∧
        (b.poll nowMs).2.lastPlayedPtsUs = b.lastPlayedPtsUs) := by
  unfold poll
  cases hleft : b.left nowMs with
  | nil =>
      refine .inr ⟨by simp, ?_⟩
      cases hsince : b.emptySinceMs with
      | none => simp
      | some since =>
          simp only
          split_ifs
          · simp
          · simp
  | cons front rest =>
      by_cases hearly : nowMs < front.dueMs
      · refine .inr ⟨by simpa using hearly, ?_⟩
        simp [hearly]
      · refine .inl ⟨front, rest, rfl, Nat.not_lt.1 hearly, ?_⟩
        simp [hearly]

/-! ### The invariant -/

/-- The queue is in the order of the timestamps and of the times at which frames are due, it is not
longer than it may be, and nothing in it is older than what has been played. -/
structure Inv (b : JitterBuffer J) : Prop where
  pts : PtsSorted b.queue
  due : DueSorted b.queue
  bounded : b.queue.length ≤ MAX_QUEUED_FRAMES
  ahead : ∀ played ∈ b.lastPlayedPtsUs, ∀ q ∈ b.queue, played ≤ q.frame.ptsUs

theorem inv_new : (new est).Inv where
  pts := List.Pairwise.nil
  due := List.Pairwise.nil
  bounded := Nat.zero_le _
  ahead := by simp [new]

theorem ptsSorted_enqueued {b : JitterBuffer J} (h : b.Inv) (frame : EncodedFrame) (nowMs : ℕ) :
    PtsSorted (b.enqueued est frame nowMs) :=
  ptsSorted_enqueue frame nowMs _ h.pts

variable {est}

/-- The queue with an arrival has the arrival and what was queued. -/
theorem mem_enqueued_iff {b : JitterBuffer J} {frame : EncodedFrame} {nowMs : ℕ}
    {f : EncodedFrame} :
    (∃ q ∈ b.enqueued est frame nowMs, q.frame = f) ↔
      f = frame ∨ ∃ q ∈ b.queue, q.frame = f := by
  have hperm := enqueue_perm b.queue frame nowMs
    ((b.arrive est frame nowMs).adaptTarget est nowMs).targetMs
  have hmem := hperm.mem_iff (a := f)
  rwa [List.mem_cons, List.mem_map, List.mem_map] at hmem

/-- A queue that has only lost frames stays in order. -/
theorem Inv.of_sublist {b b' : JitterBuffer J} (h : b.Inv) (hsub : b'.queue.Sublist b.queue)
    (hahead : ∀ played ∈ b'.lastPlayedPtsUs, ∀ q ∈ b'.queue, played ≤ q.frame.ptsUs) : b'.Inv where
  pts := h.pts.sublist hsub
  due := List.Pairwise.sublist hsub h.due
  bounded := hsub.length_le.trans h.bounded
  ahead := hahead

theorem inv_push {b : JitterBuffer J} (h : b.Inv) (frame : EncodedFrame) (nowMs : ℕ) :
    (b.push est frame nowMs).2.Inv := by
  by_cases hfresh : b.Fresh frame
  · obtain ⟨-, hqueue, hplayed⟩ := push_of_fresh est hfresh nowMs
    have hkept : (b.push est frame nowMs).2.queue.Sublist (b.enqueued est frame nowMs) := by
      rw [hqueue]
      exact giveUp_sublist _ _
    refine ⟨(ptsSorted_enqueued est h frame nowMs).sublist hkept,
      (dueSorted_enqueue frame nowMs _ h.due).sublist hkept, ?_, ?_⟩
    · rw [hqueue]
      exact length_enforceCapacity _
    · intro played hlast q hq
      rw [hplayed] at hlast
      rcases mem_enqueued_iff.1 ⟨q, hkept.subset hq, rfl⟩ with hsame | ⟨q', hq', hsame⟩
      · rw [hsame]
        exact UInt64.le_of_lt (hfresh played hlast)
      · rw [← hsame]
        exact h.ahead played hlast q' hq'
  · obtain ⟨-, hqueue, hplayed⟩ := push_of_not_fresh est hfresh nowMs
    have hsame : (b.push est frame nowMs).2.queue.Sublist b.queue := by
      simp only [hqueue, List.Sublist.refl]
    refine h.of_sublist hsame ?_
    rw [hqueue, hplayed]
    exact h.ahead

theorem inv_reset (b : JitterBuffer J) : b.reset.Inv where
  pts := List.Pairwise.nil
  due := List.Pairwise.nil
  bounded := Nat.zero_le _
  ahead := by simp [reset]

theorem left_sublist (b : JitterBuffer J) (nowMs : ℕ) : (b.left nowMs).Sublist b.queue := by
  rw [← b.late_append_left nowMs]
  exact List.sublist_append_right _ _

theorem inv_poll {b : JitterBuffer J} (h : b.Inv) (nowMs : ℕ) : (b.poll nowMs).2.Inv := by
  have hleft := b.left_sublist nowMs
  rcases b.poll_cases nowMs with ⟨front, rest, hcons, -, -, hqueue, hplayed⟩ |
    ⟨-, -, hqueue, hplayed⟩
  · rw [hcons] at hleft
    refine h.of_sublist (hqueue ▸ (List.sublist_cons_self front rest).trans hleft) ?_
    -- What is played is the earliest frame.
    have hsorted : PtsSorted (front :: rest) := h.pts.sublist hleft
    intro played hlast q hq
    rw [hplayed] at hlast
    cases hlast
    rw [hqueue] at hq
    exact (List.pairwise_cons.1 hsorted).1 _ (List.mem_map_of_mem hq)
  · refine h.of_sublist (hqueue ▸ hleft) ?_
    rw [hqueue, hplayed]
    intro played hlast q hq
    exact h.ahead played hlast q (hleft.subset hq)

end JitterBuffer

end Rda
