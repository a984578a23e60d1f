/-
**What the simulated queue says it holds.**

The bottleneck of a link clocks packets out in the order in which it accepted them, so it is a
first-in first-out server, and what is still queued at a time is what that server has not finished.
The link keeps one number for it, which is set back only when the whole queue has been clocked out.
While the queue stays busy the number still counts the packets that have left, and the link refuses
packets for which there is room.

A packet that is clocked out within the millisecond in which it is sent is counted at that time too.

Main definitions:

* `Rda.Netsim.QueueRun`, `Rda.Netsim.QueueRun.step` — a link in use next to the server it is;
* `Rda.Netsim.QueueRun.Tracks` — a send leaves the queue at what the server has not finished, and is
  refused exactly when there is no room for it;
* `Rda.Netsim.QueueRun.Undrained` — nothing that is counted has left the queue.

Main results:

* `Rda.Netsim.QueueRun.inv_step` — the number is the size of the busy period;
* `Rda.Netsim.QueueRun.tracks_iff` — what one send does;
* `Rda.Netsim.QueueRun.tracks_run_iff` — **the queue is tracked exactly in the runs in which no send
  finds a packet counted that has left**.
-/

import Rda.Bottleneck
import Rda.LinkSim

set_option relaxedAutoImplicit false
set_option autoImplicit false

namespace Rda

namespace Netsim

open Bottleneck (Server total)

namespace LinkSim

variable {s : LinkSim} {payload : List UInt8} {nowMs : ℕ} {rolls : Rolls}

/-- **When a packet is refused.** -/
theorem send_overflow_iff :
    (s.send payload nowMs rolls).1 = .queueOverflow ↔
      s.profile.queueBytes < s.bytesAhead nowMs + payload.length := by
  rcases send_cases s payload nowMs rolls with ⟨hfull, h⟩ | ⟨hroom, -, h⟩ | ⟨hroom, -, d, -, h⟩
  · rw [h]
    exact iff_of_true rfl hfull
  · rw [h]
    exact iff_of_false (by simp) (Nat.not_lt.2 hroom)
  · rw [h]
    exact iff_of_false (by simp) (Nat.not_lt.2 hroom)

/-- A packet that is accepted has room and is not lost. -/
theorem of_queued {d : ℕ} (hd : (s.send payload nowMs rolls).1 = .queued d) :
    s.bytesAhead nowMs + payload.length ≤ s.profile.queueBytes ∧ rolls.drops = false := by
  rcases send_cases s payload nowMs rolls with ⟨-, h⟩ | ⟨-, -, h⟩ | ⟨hroom, hkept, -⟩
  · rw [h] at hd
    cases hd
  · rw [h] at hd
    cases hd
  · exact ⟨hroom, hkept⟩

/-- A packet that has room and is not lost is accepted. -/
theorem exists_queued (hroom : s.bytesAhead nowMs + payload.length ≤ s.profile.queueBytes)
    (hkept : rolls.drops = false) : ∃ d, (s.send payload nowMs rolls).1 = .queued d := by
  rcases send_cases s payload nowMs rolls with ⟨hfull, -⟩ | ⟨-, hlost, -⟩ | ⟨-, -, d, -, h⟩
  · exact absurd hroom (Nat.not_le.2 hfull)
  · rw [hkept] at hlost
    cases hlost
  · exact ⟨d, by rw [h]⟩

/-- The queue after a packet was accepted. -/
theorem queue_of_queued {d : ℕ} (hd : (s.send payload nowMs rolls).1 = .queued d) :
    (s.send payload nowMs rolls).2.queueBytes = s.bytesAhead nowMs + payload.length ∧
      (s.send payload nowMs rolls).2.queueDrainsAtMs =
        max nowMs s.queueDrainsAtMs + s.profile.serialiseMs payload := by
  rcases send_cases s payload nowMs rolls with ⟨-, h⟩ | ⟨-, -, h⟩ | ⟨-, -, d', -, h⟩
  · rw [h] at hd
    cases hd
  · rw [h] at hd
    cases hd
  · rw [h]
    exact ⟨rfl, rfl⟩

/-- The queue after a packet was not accepted. -/
theorem queue_of_not_queued (hd : ∀ d, (s.send payload nowMs rolls).1 ≠ .queued d) :
    (s.send payload nowMs rolls).2.queueBytes = s.bytesAhead nowMs ∧
      (s.send payload nowMs rolls).2.queueDrainsAtMs = max nowMs s.queueDrainsAtMs := by
  rcases send_cases s payload nowMs rolls with ⟨-, h⟩ | ⟨-, -, h⟩ | ⟨-, -, d, -, h⟩
  · rw [h]
    exact ⟨rfl, rfl⟩
  · rw [h]
    exact ⟨rfl, rfl⟩
  · exact absurd (by rw [h]) (hd d)

end LinkSim

/-! ### The server behind the link -/

/-- A link in use, and the server that its bottleneck is. -/
structure QueueRun where
  link : LinkRun
  server : Server := {}

namespace QueueRun

/-- Before the first call. -/
def start (profile : LinkProfile) : QueueRun where
  link := .start profile

/-- The job that an accepted packet is for the bottleneck. -/
def job (profile : LinkProfile) (payload : List UInt8) (nowMs : ℕ) : Bottleneck.Job where
  arrival := nowMs
  service := profile.serialiseMs payload
  size := payload.length

/-- The server after an answer. -/
def serve (server : Server) (job : Bottleneck.Job) : Delivery → Server
  | .queued _ => server.accept job
  | _ => server

/-- One call. -/
def step (q : QueueRun) (c : Call) : QueueRun where
  link := q.link.step c
  server :=
    match c.operation with
    | .send payload rolls =>
        let nowMs := q.link.nowMs + c.waitMs
        serve q.server (job q.link.sim.profile payload nowMs)
          (q.link.sim.send payload nowMs rolls).1
    | .poll => q.server

/-- The occupancy after a send is what the bottleneck has not finished, and the packet is refused
exactly when what it found unfinished leaves no room for it. -/
def Tracks (q : QueueRun) (c : Call) : Prop :=
  let nowMs := q.link.nowMs + c.waitMs
  match c.operation with
  | .send payload rolls =>
      (q.step c).link.sim.queueDepthBytes = (q.step c).server.unfinished nowMs ∧
        ((q.link.sim.send payload nowMs rolls).1 = .queueOverflow ↔
          q.link.sim.profile.queueBytes < q.server.unfinished nowMs + payload.length)
  | .poll => True

/-- Nothing that is counted has left the queue: a packet that finds the bottleneck busy finds every
packet of its busy period unfinished, and one that an idle bottleneck lets through takes at least a
millisecond.  Empty packets make no difference. -/
def Undrained (q : QueueRun) (c : Call) : Prop :=
  let nowMs := q.link.nowMs + c.waitMs
  match c.operation with
  | .send payload rolls =>
      (nowMs < q.server.free → ∀ x ∈ q.server.period, 0 < x.size → nowMs < x.finish) ∧
        (q.server.free ≤ nowMs → payload.length ≤ q.link.sim.profile.queueBytes →
          rolls.drops = false → 0 < payload.length →
            0 < q.link.sim.profile.serialiseMs payload)
  | .poll => True

/-- The queue is at the size of the busy period, or it has been set back since. -/
structure Inv (q : QueueRun) : Prop where
  valid : q.server.Valid q.link.nowMs
  queue :
    (q.link.sim.queueDrainsAtMs = q.server.free ∧
      q.link.sim.queueBytes = total q.server.period) ∨
    (q.link.sim.queueBytes = 0 ∧ q.server.free ≤ q.link.sim.queueDrainsAtMs ∧
      q.link.sim.queueDrainsAtMs ≤ q.link.nowMs)

theorem inv_start (profile : LinkProfile) : (start profile).Inv where
  valid := Bottleneck.Server.valid_new
  queue := Or.inl ⟨rfl, rfl⟩

section Steps

variable {q : QueueRun} {t : ℕ}

/-- An idle bottleneck is found empty. -/
theorem bytesAhead_of_free (h : q.Inv) (ht : q.link.nowMs ≤ t) (hfree : q.server.free ≤ t) :
    q.link.sim.bytesAhead t = 0 ∧ max t q.link.sim.queueDrainsAtMs = t := by
  have hdrains : q.link.sim.queueDrainsAtMs ≤ t := by
    rcases h.queue with ⟨heq, -⟩ | ⟨-, -, hle⟩
    · omega
    · omega
  refine ⟨?_, by omega⟩
  rw [LinkSim.bytesAhead, if_pos hdrains]

/-- A busy bottleneck is found with its whole busy period. -/
theorem bytesAhead_of_busy (h : q.Inv) (ht : q.link.nowMs ≤ t) (hbusy : t < q.server.free) :
    q.link.sim.bytesAhead t = total q.server.period ∧
      max t q.link.sim.queueDrainsAtMs = q.server.free := by
  rcases h.queue with ⟨heq, hbytes⟩ | ⟨-, hfree, hle⟩
  · refine ⟨?_, by omega⟩
    rw [LinkSim.bytesAhead, if_neg (by omega), hbytes]
  · omega

variable {payload : List UInt8} {rolls : Rolls} {waitMs : ℕ}

/-- An accepted packet is a job for the bottleneck. -/
theorem server_of_queued {d : ℕ}
    (hd : (q.link.sim.send payload (q.link.nowMs + waitMs) rolls).1 = .queued d) :
    (q.step ⟨waitMs, .send payload rolls⟩).server =
      q.server.accept (job q.link.sim.profile payload (q.link.nowMs + waitMs)) := by
  simp only [step, hd, serve]

/-- Nothing else is. -/
theorem server_of_not_queued
    (hd : ∀ d, (q.link.sim.send payload (q.link.nowMs + waitMs) rolls).1 ≠ .queued d) :
    (q.step ⟨waitMs, .send payload rolls⟩).server = q.server := by
  cases hanswer : (q.link.sim.send payload (q.link.nowMs + waitMs) rolls).1 with
  | queued d => exact absurd hanswer (hd d)
  | lost => simp only [step, hanswer, serve]
  | queueOverflow => simp only [step, hanswer, serve]

theorem inv_send (h : q.Inv) : (q.step ⟨waitMs, .send payload rolls⟩).Inv := by
  have ht : q.link.nowMs ≤ q.link.nowMs + waitMs := Nat.le_add_right _ _
  have hstep : (q.step ⟨waitMs, .send payload rolls⟩).link.sim =
      (q.link.sim.send payload (q.link.nowMs + waitMs) rolls).2 := rfl
  by_cases hqueued : ∃ d, (q.link.sim.send payload (q.link.nowMs + waitMs) rolls).1 = .queued d
  · obtain ⟨d, hd⟩ := hqueued
    obtain ⟨hbytes, hdrains⟩ := LinkSim.queue_of_queued hd
    constructor
    · rw [server_of_queued hd]
      exact Bottleneck.Server.valid_accept h.valid ht
    · -- The packet joins the busy period, or starts one.
      left
      rw [server_of_queued hd, hstep, hbytes, hdrains]
      rcases Nat.lt_or_ge (q.link.nowMs + waitMs) q.server.free with hbusy | hfree
      · obtain ⟨hahead, hmax⟩ := bytesAhead_of_busy h ht hbusy
        rw [hahead, hmax]
        refine ⟨?_, ?_⟩
        · show _ =
            max (q.link.nowMs + waitMs) q.server.free + q.link.sim.profile.serialiseMs payload
          rw [max_eq_right (Nat.le_of_lt hbusy)]
        · simp [Bottleneck.Server.accept, job, Nat.not_le.2 hbusy]
      · obtain ⟨hahead, hmax⟩ := bytesAhead_of_free h ht hfree
        rw [hahead, hmax]
        refine ⟨?_, ?_⟩
        · show _ =
            max (q.link.nowMs + waitMs) q.server.free + q.link.sim.profile.serialiseMs payload
          rw [max_eq_left hfree]
        · simp [Bottleneck.Server.accept, job, hfree]
  · have hserver := server_of_not_queued (not_exists.1 hqueued)
    obtain ⟨hbytes, hdrains⟩ := LinkSim.queue_of_not_queued (not_exists.1 hqueued)
    constructor
    · rw [hserver]
      exact h.valid.mono ht
    · rw [hserver, hstep, hbytes, hdrains]
      rcases Nat.lt_or_ge (q.link.nowMs + waitMs) q.server.free with hbusy | hfree
      · obtain ⟨hahead, hmax⟩ := bytesAhead_of_busy h ht hbusy
        exact Or.inl ⟨hmax, hahead⟩
      · obtain ⟨hahead, hmax⟩ := bytesAhead_of_free h ht hfree
        rw [hahead, hmax]
        exact Or.inr ⟨rfl, hfree, Nat.le_refl _⟩

/-- **Every call keeps the invariant.** -/
theorem inv_step (h : q.Inv) (c : Call) : (q.step c).Inv := by
  obtain ⟨waitMs, operation⟩ := c
  cases operation with
  | send payload rolls => exact inv_send h
  | poll =>
      refine ⟨h.valid.mono (Nat.le_add_right _ _), ?_⟩
      rcases h.queue with hqueue | ⟨hbytes, hfree, hle⟩
      · exact Or.inl hqueue
      · exact Or.inr ⟨hbytes, hfree, Nat.le_trans hle (Nat.le_add_right _ _)⟩

/-- What a packet finds in the queue is unfinished exactly when the bottleneck is idle or nothing of
some size has left the busy period. -/
theorem bytesAhead_eq_iff (h : q.Inv) (ht : q.link.nowMs ≤ t) :
    q.link.sim.bytesAhead t = q.server.unfinished t ↔
      (t < q.server.free → ∀ x ∈ q.server.period, 0 < x.size → t < x.finish) := by
  rcases Nat.lt_or_ge t q.server.free with hbusy | hfree
  · rw [(bytesAhead_of_busy h ht hbusy).1, Bottleneck.Server.unfinished_eq h.valid ht, eq_comm,
      Bottleneck.total_filter_eq_iff]
    simp only [decide_eq_true_eq, hbusy, true_implies]
  · rw [(bytesAhead_of_free h ht hfree).1, Bottleneck.Server.unfinished_of_free_le h.valid hfree]
    refine iff_of_true rfl ?_
    intro hbusy
    omega

/-- The bytes in the queue before a send are never less than what is unfinished. -/
theorem unfinished_le_bytesAhead (h : q.Inv) (ht : q.link.nowMs ≤ t) :
    q.server.unfinished t ≤ q.link.sim.bytesAhead t := by
  rcases Nat.lt_or_ge t q.server.free with hbusy | hfree
  · rw [(bytesAhead_of_busy h ht hbusy).1, Bottleneck.Server.unfinished_eq h.valid ht]
    exact Bottleneck.total_filter_le _ _
  · rw [Bottleneck.Server.unfinished_of_free_le h.valid hfree]
    exact Nat.zero_le _

theorem tracks_send :
    q.Tracks ⟨waitMs, .send payload rolls⟩ ↔
      (q.link.sim.send payload (q.link.nowMs + waitMs) rolls).2.queueBytes =
          (q.step ⟨waitMs, .send payload rolls⟩).server.unfinished (q.link.nowMs + waitMs) ∧
        ((q.link.sim.send payload (q.link.nowMs + waitMs) rolls).1 = .queueOverflow ↔
          q.link.sim.profile.queueBytes <
            q.server.unfinished (q.link.nowMs + waitMs) + payload.length) := Iff.rfl

/-- A send is undrained when what it finds is unfinished, and what it adds to an idle bottleneck
stays for a while. -/
theorem undrained_send (h : q.Inv) :
    q.Undrained ⟨waitMs, .send payload rolls⟩ ↔
      q.link.sim.bytesAhead (q.link.nowMs + waitMs) =
          q.server.unfinished (q.link.nowMs + waitMs) ∧
        (q.server.free ≤ q.link.nowMs + waitMs →
          payload.length ≤ q.link.sim.profile.queueBytes → rolls.drops = false →
            0 < payload.length → 0 < q.link.sim.profile.serialiseMs payload) := by
  rw [bytesAhead_eq_iff h (Nat.le_add_right _ _)]
  exact Iff.rfl

/-- When an accepted packet is done. -/
theorem lt_finish_job_iff {server : Server} {profile : LinkProfile} :
    t < server.finish (job profile payload t) ↔
      t < server.free ∨ 0 < profile.serialiseMs payload := by
  show t < max t server.free + profile.serialiseMs payload ↔ _
  omega

/-- The occupancy after an accepted packet. -/
theorem tracks_queued_iff (h : q.Inv) {d : ℕ}
    (hd : (q.link.sim.send payload (q.link.nowMs + waitMs) rolls).1 = .queued d) :
    q.Tracks ⟨waitMs, .send payload rolls⟩ ↔ q.Undrained ⟨waitMs, .send payload rolls⟩ := by
  have ht : q.link.nowMs ≤ q.link.nowMs + waitMs := Nat.le_add_right _ _
  have hle := unfinished_le_bytesAhead h ht
  have hsize : (job q.link.sim.profile payload (q.link.nowMs + waitMs)).size = payload.length := rfl
  obtain ⟨hroom, hkept⟩ := LinkSim.of_queued hd
  rw [tracks_send, undrained_send h, server_of_queued hd, Bottleneck.Server.unfinished_accept,
    (LinkSim.queue_of_queued hd).1, LinkSim.send_overflow_iff, hsize]
  constructor
  · rintro ⟨heq, -⟩
    split_ifs at heq with hdone
    · refine ⟨by omega, ?_⟩
      intro hfree _ _ _
      rcases lt_finish_job_iff.1 hdone with hbusy | hpos
      · omega
      · exact hpos
    · -- The packet is done at once, so it is empty.
      refine ⟨by omega, ?_⟩
      intro _ _ _ hlen
      omega
  · rintro ⟨heq, hpos⟩
    rw [heq]
    refine ⟨?_, Iff.rfl⟩
    split_ifs with hdone
    · rfl
    · rw [lt_finish_job_iff, not_or] at hdone
      rcases Nat.eq_zero_or_pos payload.length with hzero | hlen
      · rw [hzero]
      · exact absurd (hpos (Nat.le_of_not_lt hdone.1) (by omega) hkept hlen) hdone.2

/-- The occupancy after a packet that is lost or refused. -/
theorem tracks_not_queued_iff (h : q.Inv)
    (hd : ∀ d, (q.link.sim.send payload (q.link.nowMs + waitMs) rolls).1 ≠ .queued d) :
    q.Tracks ⟨waitMs, .send payload rolls⟩ ↔ q.Undrained ⟨waitMs, .send payload rolls⟩ := by
  have ht : q.link.nowMs ≤ q.link.nowMs + waitMs := Nat.le_add_right _ _
  rw [tracks_send, undrained_send h, server_of_not_queued hd, (LinkSim.queue_of_not_queued hd).1,
    LinkSim.send_overflow_iff]
  constructor
  · rintro ⟨heq, -⟩
    refine ⟨heq, ?_⟩
    intro hfree hfits hkept _
    -- An idle bottleneck would have accepted the packet.
    have hroom : q.link.sim.bytesAhead (q.link.nowMs + waitMs) + payload.length ≤
        q.link.sim.profile.queueBytes := by
      rw [(bytesAhead_of_free h ht hfree).1]
      omega
    obtain ⟨d, hqueued⟩ := LinkSim.exists_queued hroom hkept
    exact absurd hqueued (hd d)
  · rintro ⟨heq, -⟩
    rw [heq]
    exact ⟨rfl, Iff.rfl⟩

/-- **What one send does**: the queue is tracked exactly when nothing that is counted has left. -/
theorem tracks_iff (h : q.Inv) (c : Call) : q.Tracks c ↔ q.Undrained c := by
  obtain ⟨waitMs, operation⟩ := c
  cases operation with
  | poll => exact Iff.rfl
  | send payload rolls =>
      by_cases hqueued :
          ∃ d, (q.link.sim.send payload (q.link.nowMs + waitMs) rolls).1 = .queued d
      · obtain ⟨d, hd⟩ := hqueued
        exact tracks_queued_iff h hd
      · exact tracks_not_queued_iff h (not_exists.1 hqueued)

end Steps

/-! ### Whole runs -/

theorem inv_run (profile : LinkProfile) (calls : List Call) :
    (Machine.run step (start profile) calls).Inv :=
  Machine.run_invariant Inv (fun _ c h => inv_step h c) (inv_start profile) calls

/-- **The occupancy of the simulated queue**: every send of a run finds and leaves the queue at what
the bottleneck has not finished exactly when no send finds a packet counted that has left. -/
theorem tracks_run_iff (profile : LinkProfile) (calls : List Call) :
    (∀ before c, before ++ [c] <+: calls → (Machine.run step (start profile) before).Tracks c) ↔
      Machine.Along step Undrained (start profile) calls :=
  Machine.forall_step_iff_along Inv Tracks (fun _ c h _ => inv_step h c)
    (fun _ c h => tracks_iff h c) (inv_start profile) calls

/-! ### A queue that is kept busy -/

/-- A byte takes a millisecond, and the queue holds four. -/
def Sample.profile : LinkProfile where
  baseDelayMs := 1
  jitterMs := 0
  loss := .bernoulli
  bandwidthBps := 8000
  queueBytes := 4

/-- A packet of two bytes, neither lost nor reordered. -/
def Sample.packet (waitMs : ℕ) : Call := ⟨waitMs, .send [0xAB, 0xAB] ⟨false, false, 0, false⟩⟩

/-- The first packet has left when the third one comes, and there is room for it; but the second one
has kept the queue busy. -/
theorem tracks_run_fails :
    ¬ ∀ before c, before ++ [c] <+: [Sample.packet 0, Sample.packet 1, Sample.packet 2] →
      (Machine.run step (start Sample.profile) before).Tracks c := by
  intro h
  have hbusy := (tracks_iff (inv_run Sample.profile [Sample.packet 0, Sample.packet 1]) _).1
    (h [Sample.packet 0, Sample.packet 1] (Sample.packet 2) (List.prefix_refl _))
  have hfirst := hbusy.1 (by decide) ⟨2, 2⟩ (by decide) (by decide)
  exact absurd hfirst (by decide)

end QueueRun

end Netsim

end Rda
