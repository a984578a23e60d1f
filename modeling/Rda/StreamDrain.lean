/-
**How long the host drains what arrives.**

The host's stream loop begins every turn by taking what has arrived, one event after the other,
until there has been none for a millisecond.  Only then does it look at the screen.  Nothing else
ends this inner loop while the session lasts: whether it does is up to the peer, who decides when
events come.

The loop is run against a stream of inbound events with the times at which they are there, and with
the time it takes to handle each of them.  A run that leaves has drained the events it took as a
turn of the streaming loop does.

Main definitions:

* `Rda.Inbound` — the events, when they come, and what they cost;
* `Rda.Draining.turn` — one turn of the inner loop;
* `Rda.Inbound.Stops` — an event that does not come in time, or that ends the session.

Main results:

* `Rda.Draining.turn_cases` — one turn;
* `Rda.Draining.stream_eq_drain` — **a run that leaves drains what it took**;
* `Rda.drains_iff` — **the streams of events that the inner loop comes to the end of**.
-/

import Rda.EarlyFrames
import Rda.Stream
import Rda.Until

set_option relaxedAutoImplicit false
set_option autoImplicit false

namespace Rda

/-- How long the inner loop waits for an event. -/
def DRAIN_WAIT_US : ℕ := 1000

/-- The end of the session: the transport has closed, or there will be no more events. -/
def endsSession : Option TransportEvent → Bool
  | some .closed => true
  | none => true
  | some _ => false

/-! ### What the drain takes -/

namespace Stream

variable {grant : SessionGrant} {nowMs : ℕ} {s : Stream} {e : Option TransportEvent}

/-- An event that does not end the session is handled, and the drain goes on. -/
theorem drain_cons (h : endsSession e = false) (events : List (Option TransportEvent)) :
    s.drain grant nowMs (e :: events) = (s.drain grant nowMs [e]).drain grant nowMs events := by
  cases e with
  | none => cases h
  | some e =>
      cases e with
      | closed => cases h
      | frame channel frame =>
          cases channel with
          | _ => rfl
      | _ => rfl

/-- Events may be drained in two goes, if none of the first go ends the session. -/
theorem drain_append {events : List (Option TransportEvent)}
    (h : ∀ e ∈ events, endsSession e = false) (more : List (Option TransportEvent)) :
    s.drain grant nowMs (events ++ more) =
      (s.drain grant nowMs events).drain grant nowMs more := by
  induction events generalizing s with
  | nil => rfl
  | cons e events ih =>
      rw [List.forall_mem_cons] at h
      rw [List.cons_append, drain_cons h.1, drain_cons h.1 events, ih h.2]

end Stream

/-! ### The inner loop -/

/-- What the inner loop finds: the frames that were put back into the session, the events of the
transport with the time at which each is there, if it ever is, and the time it takes to handle the
`n`-th event. -/
structure Inbound where
  pending : List TransportEvent
  arrival : ℕ → Option (ℕ × Option TransportEvent)
  costUs : ℕ → ℕ

/-- The inner loop: the streaming loop it belongs to, the time, the frames that are still put back,
the number of events the transport has delivered, and all the events taken. -/
structure Draining where
  stream : Stream
  timeUs : ℕ
  pending : List TransportEvent
  received : ℕ
  taken : List (Option TransportEvent)

namespace Draining

variable (w : Inbound) (grant : SessionGrant) (nowMs : ℕ)

/-- Before the first turn. -/
def start (s : Stream) (timeUs : ℕ) : Draining := ⟨s, timeUs, w.pending, 0, []⟩

/-- The next event, if there is one in time; frames that were put back come first. -/
def nextEvent (d : Draining) : Option (Option TransportEvent × Draining) :=
  match d.pending with
  | event :: pending => some (some event, { d with pending := pending })
  | [] =>
      match w.arrival d.received with
      | some (atUs, event) =>
          if atUs ≤ d.timeUs + DRAIN_WAIT_US then
            some (event, { d with received := d.received + 1, timeUs := max d.timeUs atUs })
          else none
      | none => none

/-- One turn of the inner loop, and whether the loop leaves in it. -/
def turn (d : Draining) : Draining × Bool :=
  match d.nextEvent w with
  | none => ({ d with timeUs := d.timeUs + DRAIN_WAIT_US }, true)
  | some (event, d) =>
      ({ d with
          stream := d.stream.drain grant nowMs [event]
          timeUs := d.timeUs + w.costUs d.taken.length
          taken := d.taken ++ [event] },
        endsSession event)

end Draining

/-! ### When events come -/

namespace Inbound

variable (w : Inbound)

/-- The `n`-th event, with the time at which it is there. -/
def event (n : ℕ) : Option (ℕ × Option TransportEvent) :=
  match w.pending[n]? with
  | some event => some (0, some event)
  | none => w.arrival (n - w.pending.length)

/-- When the events before the `n`-th have come and been handled. -/
def readyAt (startUs : ℕ) : ℕ → ℕ
  | 0 => startUs
  | n + 1 => max (readyAt startUs n) ((w.event n).elim 0 Prod.fst) + w.costUs n

/-- The `n`-th event never comes, or comes more than a millisecond after those before it have been
handled, or ends the session. -/
def Stops (startUs n : ℕ) : Prop :=
  ∀ atUs event, w.event n = some (atUs, event) →
    w.readyAt startUs n + DRAIN_WAIT_US < atUs ∨ endsSession event = true

end Inbound

namespace Draining

variable {w : Inbound} {grant : SessionGrant} {nowMs startUs : ℕ}

/-- The inner loop after `n` events. -/
structure After (w : Inbound) (startUs n : ℕ) (d : Draining) : Prop where
  pending : d.pending = w.pending.drop n
  received : d.received = n - w.pending.length
  timeUs : d.timeUs = w.readyAt startUs n
  taken : d.taken.length = n

theorem after_start (w : Inbound) (s : Stream) (startUs : ℕ) :
    After w startUs 0 (start w s startUs) :=
  ⟨rfl, (Nat.zero_sub _).symm, rfl, rfl⟩

/-- **The next event** after `n` of them is the `n`-th one, if it is there in time. -/
theorem nextEvent_cases {n : ℕ} {d : Draining} (h : After w startUs n d) :
    (d.nextEvent w = none ∧ ∀ atUs event, w.event n = some (atUs, event) →
        w.readyAt startUs n + DRAIN_WAIT_US < atUs) ∨
    ∃ atUs event pending received, w.event n = some (atUs, event) ∧
      atUs ≤ w.readyAt startUs n + DRAIN_WAIT_US ∧
      d.nextEvent w = some (event, ⟨d.stream, max d.timeUs atUs, pending, received, d.taken⟩) ∧
      pending = w.pending.drop (n + 1) ∧ received = n + 1 - w.pending.length := by
  cases hpending : d.pending with
  | cons event pending =>
      right
      have hdrop : w.pending.drop n = event :: pending := by rw [← h.pending, hpending]
      have hget : w.pending[n]? = some event := by
        rw [← List.head?_drop, hdrop, List.head?_cons]
      have hlt : n < w.pending.length := (List.getElem?_eq_some_iff.1 hget).1
      have hevent : w.event n = some (0, some event) := by rw [Inbound.event, hget]
      refine ⟨0, some event, pending, d.received, hevent, Nat.zero_le _, ?_, ?_, ?_⟩
      · rw [nextEvent, hpending, Nat.max_zero]
      · rw [← List.drop_drop, hdrop, List.drop_one, List.tail_cons]
      · rw [h.received]
        omega
  | nil =>
      have hdrop : w.pending.drop n = [] := by rw [← h.pending, hpending]
      have hle : w.pending.length ≤ n := List.drop_eq_nil_iff.1 hdrop
      have hevent : w.event n = w.arrival d.received := by
        rw [Inbound.event, List.getElem?_eq_none hle, h.received]
      cases harrival : w.arrival d.received with
      | none =>
          left
          refine ⟨by rw [nextEvent, hpending]; simp only [harrival], ?_⟩
          intro atUs event heq
          rw [hevent, harrival] at heq
          cases heq
      | some x =>
          obtain ⟨atUs, event⟩ := x
          have hnext : d.nextEvent w = if atUs ≤ d.timeUs + DRAIN_WAIT_US then
              some (event, { d with received := d.received + 1, timeUs := max d.timeUs atUs })
            else none := by
            rw [nextEvent, hpending]
            simp only [harrival]
          rw [h.timeUs] at hnext
          split_ifs at hnext with htime
          · right
            refine ⟨atUs, event, [], d.received + 1, hevent.trans harrival, htime, ?_, ?_, ?_⟩
            · rw [hnext, h.timeUs, hpending]
            · rw [← List.drop_drop, hdrop, List.drop_nil]
            · rw [h.received]
              omega
          · left
            refine ⟨hnext, ?_⟩
            intro atUs' event' heq
            rw [hevent, harrival] at heq
            obtain ⟨rfl, rfl⟩ := Prod.mk.inj (Option.some.inj heq)
            exact Nat.lt_of_not_le htime

/-- **One turn**: the inner loop leaves if the `n`-th event stops it, and has handled it otherwise.
-/
theorem turn_cases (grant : SessionGrant) (nowMs : ℕ) {n : ℕ} {d : Draining}
    (h : After w startUs n d) :
    ((d.turn w grant nowMs).2 = true ↔ w.Stops startUs n) ∧
      (¬ w.Stops startUs n → After w startUs (n + 1) (d.turn w grant nowMs).1) := by
  rcases nextEvent_cases h with ⟨hnone, hlate⟩ |
    ⟨atUs, event, pending, received, hevent, htime, hsome, hpending, hreceived⟩
  · have hstops : w.Stops startUs n := fun atUs event heq => .inl (hlate atUs event heq)
    refine ⟨iff_of_true ?_ hstops, fun hno => absurd hstops hno⟩
    rw [turn, hnone]
  · have hstops : w.Stops startUs n ↔ endsSession event = true := by
      constructor
      · intro hs
        rcases hs atUs event hevent with hlate | hend
        · omega
        · exact hend
      · intro hend atUs' event' heq
        rw [hevent] at heq
        obtain ⟨rfl, rfl⟩ := Prod.mk.inj (Option.some.inj heq)
        exact .inr hend
    rw [turn, hsome, hstops]
    refine ⟨Iff.rfl, fun _ => ⟨hpending, hreceived, ?_, ?_⟩⟩
    · show max d.timeUs atUs + w.costUs d.taken.length = w.readyAt startUs (n + 1)
      rw [Inbound.readyAt, hevent, h.timeUs, h.taken]
      rfl
    · show (d.taken ++ [event]).length = n + 1
      rw [List.length_append, h.taken, List.length_singleton]

/-- A turn takes at most one event, and drains it. -/
theorem stream_turn (w : Inbound) (grant : SessionGrant) (nowMs : ℕ) (d : Draining) :
    ((d.turn w grant nowMs).1.taken = d.taken ∧ (d.turn w grant nowMs).1.stream = d.stream ∧
        (d.turn w grant nowMs).2 = true) ∨
      ∃ event, (d.turn w grant nowMs).1.taken = d.taken ++ [event] ∧
        (d.turn w grant nowMs).1.stream = d.stream.drain grant nowMs [event] ∧
          (d.turn w grant nowMs).2 = endsSession event := by
  have hnext : ∀ x, d.nextEvent w = some x → x.2.taken = d.taken ∧ x.2.stream = d.stream := by
    intro x hx
    rw [nextEvent] at hx
    split at hx
    · obtain rfl := Option.some.inj hx
      exact ⟨rfl, rfl⟩
    · split at hx
      · split_ifs at hx
        obtain rfl := Option.some.inj hx
        exact ⟨rfl, rfl⟩
      · cases hx
  cases hcase : d.nextEvent w with
  | none =>
      left
      rw [turn, hcase]
      exact ⟨rfl, rfl, rfl⟩
  | some x =>
      obtain ⟨htaken, hstream⟩ := hnext x hcase
      right
      refine ⟨x.1, ?_, ?_, ?_⟩
      · rw [turn, hcase, ← htaken]
      · rw [turn, hcase, ← hstream]
      · rw [turn, hcase]

/-- **A run that leaves has drained what it took**, as a turn of the streaming loop does. -/
theorem stream_eq_drain {s : Stream} {turns : ℕ} {left : Draining}
    (h : Until.run (turn w grant nowMs) turns (start w s startUs) = some left) :
    left.stream = s.drain grant nowMs left.taken := by
  refine Until.run_keeps (I := fun d : Draining =>
    d.stream = s.drain grant nowMs d.taken ∧ ∀ e ∈ d.taken, endsSession e = false)
    (Q := fun d => d.stream = s.drain grant nowMs d.taken) ?_ ?_ ⟨rfl, by simp [start]⟩ h
  · rintro d ⟨hstream, hopen⟩ hstay
    rcases stream_turn w grant nowMs d with
      ⟨-, -, hleave⟩ | ⟨event, htaken, hdrain, hends⟩
    · rw [hleave] at hstay
      cases hstay
    · rw [htaken, hdrain, hstream, Stream.drain_append hopen]
      refine ⟨rfl, ?_⟩
      intro e he
      rcases List.mem_append.1 he with he | he
      · exact hopen e he
      · rw [List.mem_singleton.1 he, ← hends]
        exact hstay
  · rintro d ⟨hstream, hopen⟩ -
    rcases stream_turn w grant nowMs d with
      ⟨htaken, hsame, -⟩ | ⟨event, htaken, hdrain, -⟩
    · rw [htaken, hsame, hstream]
    · rw [htaken, hdrain, hstream, Stream.drain_append hopen]

/-- No more events are handled than turns are taken. -/
theorem length_taken_le {s : Stream} {turns : ℕ} {left : Draining}
    (h : Until.run (turn w grant nowMs) turns (start w s startUs) = some left) :
    left.taken.length ≤ turns := by
  have hle := Until.run_le (m := fun d : Draining => d.taken.length) ?_ h
  · simpa [start] using hle
  · intro d
    rcases stream_turn w grant nowMs d with
      ⟨htaken, -, -⟩ | ⟨event, htaken, -, -⟩
    · rw [htaken]
      exact Nat.le_succ _
    · rw [htaken, List.length_append, List.length_singleton]

/-- The inner loop leaves in time exactly when one of the events stops it. -/
theorem exists_run_iff_stops (w : Inbound) (grant : SessionGrant) (nowMs : ℕ) (s : Stream)
    (startUs turns : ℕ) :
    (∃ left, Until.run (turn w grant nowMs) turns (start w s startUs) = some left) ↔
      ∃ n, n < turns ∧ w.Stops startUs n := by
  have hrun := Until.exists_run_iff (After w startUs) (w.Stops startUs)
    (fun _ _ h => (turn_cases grant nowMs h).1)
    (fun _ _ h => (turn_cases grant nowMs h).2) (after_start w s startUs) turns
  simpa only [Nat.zero_add] using hrun

end Draining

/-- **The streams of events that the inner loop comes to the end of**: it leaves after a bounded
number of events exactly when one of them ends the session, never comes, or comes more than a
millisecond after the ones before it have been handled. -/
theorem drains_iff (w : Inbound) (grant : SessionGrant) (nowMs : ℕ) (s : Stream) (startUs : ℕ) :
    (∃ bound left, Until.run (Draining.turn w grant nowMs) bound (.start w s startUs) = some left ∧
      left.taken.length ≤ bound) ↔ ∃ n, w.Stops startUs n := by
  constructor
  · rintro ⟨bound, left, hleft, -⟩
    obtain ⟨n, -, hstops⟩ := (Draining.exists_run_iff_stops w grant nowMs s startUs bound).1
      ⟨left, hleft⟩
    exact ⟨n, hstops⟩
  · rintro ⟨n, hstops⟩
    obtain ⟨left, hleft⟩ := (Draining.exists_run_iff_stops w grant nowMs s startUs (n + 1)).2
      ⟨n, Nat.lt_succ_self n, hstops⟩
    exact ⟨n + 1, left, hleft, Draining.length_taken_le hleft⟩

/-! ### A controller that floods -/

/-- A move of the pointer every half of a millisecond, without an end. -/
def Sample.flooding : Inbound where
  pending := []
  arrival n :=
    some (500 * n, some (.frame .inputPointer (.new (.mouseMove 0 0 100 100 0) (.ofNat n) 0)))
  costUs _ := 10

/-- The host never looks at the screen again: no number of turns is enough for the inner loop. -/
theorem drains_flooding :
    ¬ ∃ bound left, Until.run (Draining.turn Sample.flooding (Sample.grant true) 0) bound
      (.start Sample.flooding { injector := Sample.injector } 0) = some left ∧
        left.taken.length ≤ bound := by
  have hready : ∀ n, 500 * n ≤ Sample.flooding.readyAt 0 n + DRAIN_WAIT_US := by
    intro n
    cases n with
    | zero => exact Nat.zero_le _
    | succ n =>
        have hlate : 500 * n ≤ Sample.flooding.readyAt 0 (n + 1) :=
          (Nat.le_max_right _ (500 * n)).trans (Nat.le_add_right _ _)
        rw [DRAIN_WAIT_US]
        omega
  rintro ⟨bound, left, hleft, -⟩
  obtain ⟨n, -, hstops⟩ := (Draining.exists_run_iff_stops Sample.flooding (Sample.grant true) 0
    { injector := Sample.injector } 0 bound).1 ⟨left, hleft⟩
  rcases hstops _ _ rfl with hlate | hends
  · exact absurd (hready n) (Nat.not_le.2 hlate)
  · cases hends

end Rda
