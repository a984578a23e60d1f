/-
**The simulated link.**

A link is a queue of packets in flight, driven by the caller's clock.  A packet that is offered is
refused when the bottleneck's queue has no room for it, lost when the loss model says so, or else
gets the time at which it will arrive: when the bottleneck has clocked it out, and a delay later.
Polling collects what has arrived, in the order of arrival.

The random rolls of a packet are an argument: the two chances of the loss model, the jitter and the
chance of being reordered.  The jitter is the normal deviate rounded down to whole milliseconds; the
delay it is part of is cut off to whole milliseconds itself.

Times are natural numbers: a clock so near the top of 64 bits that a time of arrival would not fit
is left out.

Main definitions:

* `Rda.Netsim.LinkSim`, `Rda.Netsim.LinkSim.send`, `Rda.Netsim.LinkSim.poll` — the link;
* `Rda.Netsim.LinkRun`, `Rda.Netsim.LinkRun.step` — a link in use, with the packets it accepted and
  the polls so far.

Main results:

* `Rda.Netsim.LinkSim.send_cases` — **what a send can do**;
* `Rda.Netsim.LinkSim.send_inFlight`, `Rda.Netsim.LinkSim.lt_of_queued` — what a send adds, and that
  it arrives later;
* `Rda.Netsim.LinkSim.mem_poll` — what a poll returns.
-/

import Mathlib.Data.Prod.Lex
import Rda.Machine
import Rda.SortedBy

set_option relaxedAutoImplicit false
set_option autoImplicit false

namespace Rda

namespace Netsim

open SortedBy (sortBy)

/-! ### Links and packets -/

/-- How packet loss is distributed: independently, or in bursts by a good and a bad state. -/
inductive LossModel
  | bernoulli
  | gilbertElliott

/-- One end-to-end link. -/
structure LinkProfile where
  baseDelayMs : ℕ
  jitterMs : ℕ
  loss : LossModel
  bandwidthBps : ℕ
  /-- How many bytes the bottleneck queue holds before dropping. -/
  queueBytes : ℕ

/-- How long the bottleneck takes to clock a payload out. -/
def LinkProfile.serialiseMs (profile : LinkProfile) (payload : List UInt8) : ℕ :=
  payload.length * 8 * 1000 / max profile.bandwidthBps 1

/-- A packet in flight. -/
structure Packet where
  payload : List UInt8
  sentMs : ℕ
  deliverMs : ℕ
  sequence : ℕ
  deriving DecidableEq

/-- Packets are collected by delivery time, then by sequence. -/
def Packet.key (p : Packet) : ℕ ×ₗ ℕ := toLex (p.deliverMs, p.sequence)

/-- What happened to a packet on send. -/
inductive Delivery
  | queued (deliverMs : ℕ)
  | lost
  | queueOverflow
  deriving DecidableEq

/-- What an answer puts in flight. -/
def Delivery.packets (payload : List UInt8) (sentMs sequence : ℕ) : Delivery → List Packet
  | .queued deliverMs => [⟨payload, sentMs, deliverMs, sequence⟩]
  | _ => []

/-- Counters describing what the link did. -/
structure LinkStats where
  sent : ℕ := 0
  delivered : ℕ := 0
  lost : ℕ := 0
  overflowed : ℕ := 0
  reordered : ℕ := 0
  bytesSent : ℕ := 0
  latencySumMs : ℕ := 0
  maxLatencyMs : ℕ := 0

/-- The random rolls of one packet. -/
structure Rolls where
  /-- The loss model goes over to its other state. -/
  turns : Bool
  /-- The packet is lost. -/
  drops : Bool
  jitterMs : ℤ
  /-- The packet is pulled in front of the others. -/
  reorders : Bool

/-- A simulated one-way link. -/
structure LinkSim where
  profile : LinkProfile
  inFlight : List Packet := []
  /-- Packets whose delivery time has arrived, waiting to be collected. -/
  ready : List Packet := []
  /-- Bytes currently occupying the bottleneck queue. -/
  queueBytes : ℕ := 0
  /-- When the bottleneck finishes transmitting what it already holds. -/
  queueDrainsAtMs : ℕ := 0
  inBadState : Bool := false
  sequence : ℕ := 0
  lastDeliveredSequence : Option ℕ := none
  stats : LinkStats := {}

namespace LinkSim

variable {s : LinkSim} {payload : List UInt8} {nowMs : ℕ} {rolls : Rolls}

/-- A new link. -/
def new (profile : LinkProfile) : LinkSim where
  profile := profile

/-- Bytes currently queued at the bottleneck. -/
def queueDepthBytes (s : LinkSim) : ℕ := s.queueBytes

/-! ### Sending -/

/-- The state of the loss model after one more packet. -/
def lossState (s : LinkSim) (rolls : Rolls) : Bool :=
  match s.profile.loss with
  | .bernoulli => s.inBadState
  | .gilbertElliott => if s.inBadState then !rolls.turns else rolls.turns

/-- Advances the loss model one packet and reports whether to drop. -/
def rollLoss (s : LinkSim) (rolls : Rolls) : Bool × LinkSim :=
  (rolls.drops, { s with inBadState := s.lossState rolls })

/-- Releases queue occupancy for bytes the bottleneck has finished transmitting. -/
def drainQueue (s : LinkSim) (nowMs : ℕ) : LinkSim :=
  if s.queueDrainsAtMs ≤ nowMs then { s with queueBytes := 0, queueDrainsAtMs := nowMs } else s

/-- Propagation plus jitter, at least a millisecond. -/
def delayMs (profile : LinkProfile) (rolls : Rolls) : ℕ :=
  let jitter := if profile.jitterMs = 0 then 0 else rolls.jitterMs
  (max 1 (profile.baseDelayMs + jitter)).toNat

/-- When a packet arrives that the bottleneck has clocked out at the given time. -/
def deliverMs (s : LinkSim) (nowMs drainsAtMs : ℕ) (rolls : Rolls) : ℕ :=
  let deliver := drainsAtMs + delayMs s.profile rolls
  if rolls.reorders then
    match (s.inFlight.map Packet.deliverMs).min? with
    | some earliest => max (earliest - 1) (nowMs + 1)
    | none => deliver
  else deliver

/-- Offers a packet to the link. -/
def send (s : LinkSim) (payload : List UInt8) (nowMs : ℕ) (rolls : Rolls) : Delivery × LinkSim :=
  let sequence := s.sequence
  let s :=
    { s with
      stats := { s.stats with
        sent := s.stats.sent + 1, bytesSent := s.stats.bytesSent + payload.length }
      sequence := s.sequence + 1 }
  let s := s.drainQueue nowMs
  if s.profile.queueBytes < s.queueBytes + payload.length then
    (.queueOverflow, { s with stats := { s.stats with overflowed := s.stats.overflowed + 1 } })
  else
    let (drop, s) := s.rollLoss rolls
    if drop then (.lost, { s with stats := { s.stats with lost := s.stats.lost + 1 } })
    else
      -- A packet cannot start transmitting until the queue ahead of it has drained.
      let startMs := max nowMs s.queueDrainsAtMs
      let drainsAtMs := startMs + s.profile.serialiseMs payload
      let deliverMs := s.deliverMs nowMs drainsAtMs rolls
      (.queued deliverMs,
        { s with
          queueDrainsAtMs := drainsAtMs
          queueBytes := s.queueBytes + payload.length
          stats := { s.stats with
            delivered := s.stats.delivered + 1
            latencySumMs := s.stats.latencySumMs + (deliverMs - nowMs)
            maxLatencyMs := max s.stats.maxLatencyMs (deliverMs - nowMs) }
          inFlight := s.inFlight ++ [⟨payload, nowMs, deliverMs, sequence⟩] })

/-- The bytes a packet finds in the queue. -/
def bytesAhead (s : LinkSim) (nowMs : ℕ) : ℕ :=
  if s.queueDrainsAtMs ≤ nowMs then 0 else s.queueBytes

/-- Draining the queue touches nothing but the queue. -/
theorem drainQueue_eq (s : LinkSim) (nowMs : ℕ) :
    s.drainQueue nowMs =
      { s with
        queueBytes := s.bytesAhead nowMs
        queueDrainsAtMs := max nowMs s.queueDrainsAtMs } := by
  unfold drainQueue bytesAhead
  split_ifs with h
  · rw [max_eq_left h]
  · rw [max_eq_right (Nat.le_of_lt (Nat.lt_of_not_le h))]

theorem one_le_delayMs (profile : LinkProfile) (rolls : Rolls) : 1 ≤ delayMs profile rolls := by
  simp only [delayMs]
  omega

theorem lt_deliverMs {drainsAtMs : ℕ} (h : nowMs ≤ drainsAtMs) (rolls : Rolls) :
    nowMs < s.deliverMs nowMs drainsAtMs rolls := by
  have hdelay := one_le_delayMs s.profile rolls
  unfold deliverMs
  split_ifs
  · cases (s.inFlight.map Packet.deliverMs).min? with
    | none =>
        show nowMs < drainsAtMs + delayMs s.profile rolls
        omega
    | some earliest =>
        show nowMs < max (earliest - 1) (nowMs + 1)
        omega
  · show nowMs < drainsAtMs + delayMs s.profile rolls
    omega

/-- The link that has counted an offer and drained its queue. -/
def offered (s : LinkSim) (payload : List UInt8) (nowMs : ℕ) : LinkSim :=
  { s with
    stats := { s.stats with
      sent := s.stats.sent + 1, bytesSent := s.stats.bytesSent + payload.length }
    sequence := s.sequence + 1
    queueBytes := s.bytesAhead nowMs
    queueDrainsAtMs := max nowMs s.queueDrainsAtMs }

/-- **What a send can do**: the packet is refused, or lost, or put in flight to arrive later. -/
theorem send_cases (s : LinkSim) (payload : List UInt8) (nowMs : ℕ) (rolls : Rolls) :
    (s.profile.queueBytes < s.bytesAhead nowMs + payload.length ∧
      s.send payload nowMs rolls = (.queueOverflow,
        { s.offered payload nowMs with
          stats := { (s.offered payload nowMs).stats with
            overflowed := s.stats.overflowed + 1 } })) ∨
    (s.bytesAhead nowMs + payload.length ≤ s.profile.queueBytes ∧ rolls.drops = true ∧
      s.send payload nowMs rolls = (.lost,
        { s.offered payload nowMs with
          inBadState := s.lossState rolls
          stats := { (s.offered payload nowMs).stats with lost := s.stats.lost + 1 } })) ∨
    (s.bytesAhead nowMs + payload.length ≤ s.profile.queueBytes ∧ rolls.drops = false ∧
      ∃ d, nowMs < d ∧ s.send payload nowMs rolls = (.queued d,
        { s.offered payload nowMs with
          inBadState := s.lossState rolls
          queueBytes := s.bytesAhead nowMs + payload.length
          queueDrainsAtMs := max nowMs s.queueDrainsAtMs + s.profile.serialiseMs payload
          stats := { (s.offered payload nowMs).stats with
            delivered := s.stats.delivered + 1
            latencySumMs := s.stats.latencySumMs + (d - nowMs)
            maxLatencyMs := max s.stats.maxLatencyMs (d - nowMs) }
          inFlight := s.inFlight ++ [⟨payload, nowMs, d, s.sequence⟩] })) := by
  have hstart : max nowMs (max nowMs s.queueDrainsAtMs) = max nowMs s.queueDrainsAtMs :=
    max_eq_right (le_max_left _ _)
  unfold send
  simp only [drainQueue_eq, rollLoss, hstart]
  split_ifs with hfull hdrops
  · exact .inl ⟨hfull, rfl⟩
  · exact .inr (.inl ⟨Nat.le_of_not_lt hfull, hdrops, rfl⟩)
  · refine .inr (.inr ⟨Nat.le_of_not_lt hfull, by simpa using hdrops, _, ?_, rfl⟩)
    exact lt_deliverMs ((le_max_left _ _).trans (Nat.le_add_right _ _)) rolls

/-- **What a send puts in flight**: the packet itself, with the time it was answered. -/
theorem send_inFlight :
    (s.send payload nowMs rolls).2.inFlight =
      s.inFlight ++ (s.send payload nowMs rolls).1.packets payload nowMs s.sequence := by
  rcases send_cases s payload nowMs rolls with ⟨-, h⟩ | ⟨-, -, h⟩ | ⟨-, -, d, -, h⟩
  · rw [h]
    exact (List.append_nil _).symm
  · rw [h]
    exact (List.append_nil _).symm
  · rw [h]
    rfl

@[simp] theorem send_sequence : (s.send payload nowMs rolls).2.sequence = s.sequence + 1 := by
  rcases send_cases s payload nowMs rolls with ⟨-, h⟩ | ⟨-, -, h⟩ | ⟨-, -, d, -, h⟩
  · rw [h]
    rfl
  · rw [h]
    rfl
  · rw [h]
    rfl

@[simp] theorem send_ready : (s.send payload nowMs rolls).2.ready = s.ready := by
  rcases send_cases s payload nowMs rolls with ⟨-, h⟩ | ⟨-, -, h⟩ | ⟨-, -, d, -, h⟩
  · rw [h]
    rfl
  · rw [h]
    rfl
  · rw [h]
    rfl

/-- **A packet arrives after it was sent.** -/
theorem lt_of_queued {d : ℕ} (hd : (s.send payload nowMs rolls).1 = .queued d) : nowMs < d := by
  rcases send_cases s payload nowMs rolls with ⟨-, h⟩ | ⟨-, -, h⟩ | ⟨-, -, d', hlt, h⟩
  · rw [h] at hd
    cases hd
  · rw [h] at hd
    cases hd
  · rw [h] at hd
    obtain rfl := Delivery.queued.inj hd
    exact hlt

/-- Every packet offered is counted once more, by what became of it. -/
theorem send_accounted (h : s.stats.sent = s.stats.delivered + s.stats.lost + s.stats.overflowed) :
    (s.send payload nowMs rolls).2.stats.sent =
      (s.send payload nowMs rolls).2.stats.delivered +
        (s.send payload nowMs rolls).2.stats.lost +
          (s.send payload nowMs rolls).2.stats.overflowed := by
  rcases send_cases s payload nowMs rolls with ⟨-, hsend⟩ | ⟨-, -, hsend⟩ | ⟨-, -, d, -, hsend⟩
  · rw [hsend]
    show s.stats.sent + 1 = s.stats.delivered + s.stats.lost + (s.stats.overflowed + 1)
    omega
  · rw [hsend]
    show s.stats.sent + 1 = s.stats.delivered + (s.stats.lost + 1) + s.stats.overflowed
    omega
  · rw [hsend]
    show s.stats.sent + 1 = s.stats.delivered + 1 + s.stats.lost + s.stats.overflowed
    omega

/-! ### Polling -/

/-- Counts the packets that arrive after a later one. -/
def countReordered (due : List Packet) (last : Option ℕ) (reordered : ℕ) : Option ℕ × ℕ :=
  due.foldl
    (fun (last, reordered) packet =>
      (some (last.elim packet.sequence fun l => max l packet.sequence),
        if last.any fun l => packet.sequence < l then reordered + 1 else reordered))
    (last, reordered)

/-- Collects every packet whose delivery time has arrived. -/
def poll (s : LinkSim) (nowMs : ℕ) : List Packet × LinkSim :=
  let (due, stillFlying) := s.inFlight.partition fun p => p.deliverMs ≤ nowMs
  let due := sortBy Packet.key due
  let (last, reordered) := countReordered due s.lastDeliveredSequence s.stats.reordered
  (s.ready ++ due,
    { s with
      inFlight := stillFlying
      ready := []
      lastDeliveredSequence := last
      stats := { s.stats with reordered := reordered } })

theorem poll_packets (s : LinkSim) (nowMs : ℕ) :
    (s.poll nowMs).1 =
      s.ready ++ sortBy Packet.key (s.inFlight.filter fun p => p.deliverMs ≤ nowMs) := by
  simp only [poll, List.partition_eq_filter_filter]

@[simp] theorem poll_inFlight (s : LinkSim) (nowMs : ℕ) :
    (s.poll nowMs).2.inFlight = s.inFlight.filter fun p => nowMs < p.deliverMs := by
  simp only [poll, List.partition_eq_filter_filter]
  refine List.filter_congr ?_
  intro p _
  by_cases hdue : p.deliverMs ≤ nowMs
  · simp [hdue, Nat.not_lt.2 hdue]
  · simp [hdue, Nat.lt_of_not_le hdue]

/-- **What a poll returns**, when nothing was left over: what is in flight and due. -/
theorem mem_poll (h : s.ready = []) {p : Packet} :
    p ∈ (s.poll nowMs).1 ↔ p ∈ s.inFlight ∧ p.deliverMs ≤ nowMs := by
  rw [poll_packets, h, List.nil_append, SortedBy.mem_sortBy, List.mem_filter, decide_eq_true_eq]

theorem poll_pairwise (h : s.ready = []) :
    (s.poll nowMs).1.Pairwise fun p q => p.deliverMs ≤ q.deliverMs := by
  rw [poll_packets, h, List.nil_append]
  refine (SortedBy.sortBy_pairwise Packet.key _).imp ?_
  intro p q hpq
  rcases Prod.Lex.toLex_le_toLex.1 hpq with hlt | ⟨heq, -⟩
  · exact Nat.le_of_lt hlt
  · exact Nat.le_of_eq heq

theorem poll_nodup (h : s.ready = []) (hnd : s.inFlight.Nodup) : (s.poll nowMs).1.Nodup := by
  rw [poll_packets, h, List.nil_append]
  exact (SortedBy.sortBy_perm _ _).nodup_iff.2 (hnd.filter _)

end LinkSim

/-! ### A link in use -/

/-- A call of the link. -/
inductive Operation
  | send (payload : List UInt8) (rolls : Rolls)
  | poll

/-- A call, and how long after the call before it it is made: the times never decrease. -/
structure Call where
  waitMs : ℕ
  operation : Operation

/-- A link in use: the clock, how many packets were offered, the packets that were accepted, each
with the time it was answered, and what every poll returned. -/
structure LinkRun where
  sim : LinkSim
  nowMs : ℕ := 0
  offers : ℕ := 0
  accepted : List Packet := []
  polls : List (ℕ × List Packet) := []

namespace LinkRun

/-- Before the first call. -/
def start (profile : LinkProfile) : LinkRun where
  sim := .new profile

/-- One call. -/
def step (r : LinkRun) (c : Call) : LinkRun :=
  let nowMs := r.nowMs + c.waitMs
  match c.operation with
  | .send payload rolls =>
      let (answer, sim) := r.sim.send payload nowMs rolls
      { r with
        sim := sim
        nowMs := nowMs
        offers := r.offers + 1
        accepted := r.accepted ++ answer.packets payload nowMs r.offers }
  | .poll =>
      let (packets, sim) := r.sim.poll nowMs
      { r with sim := sim, nowMs := nowMs, polls := r.polls ++ [(nowMs, packets)] }

/-- Everything the polls have returned so far. -/
def returned (r : LinkRun) : List Packet := r.polls.flatMap Prod.snd

end LinkRun

end Netsim

end Rda
