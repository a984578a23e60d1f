/-
**Nothing is made up on the simulated link, and nothing is kept back.**

The packets in flight are the accepted packets that no poll was late enough for.  A poll returns
those of them that are due, so a packet is returned by the first poll that is late enough for it and
by no other; and since a packet arrives after it is sent, that poll comes after the send.

Main definitions:

* `Rda.Netsim.LinkRun.Conserved` — what holds of the packets and the polls of a link;
* `Rda.Netsim.LinkRun.Inv` — the invariant of the run.

Main results:

* `Rda.Netsim.LinkRun.inv_run` — **every call keeps the invariant**;
* `Rda.Netsim.LinkRun.conserved_run` — **every run conserves its packets**.
-/

import Rda.LinkSim

set_option relaxedAutoImplicit false
set_option autoImplicit false

namespace Rda

namespace Netsim

namespace LinkRun

/-- What becomes of the packets of a link in use. -/
structure Conserved (r : LinkRun) : Prop where
  accounted : r.sim.stats.sent =
    r.sim.stats.delivered + r.sim.stats.lost + r.sim.stats.overflowed
  later : ∀ p ∈ r.accepted, p.sentMs < p.deliverMs
  /-- A poll returns the accepted packets that it is the first one late enough for. -/
  first_due : ∀ before t packets after, r.polls = before ++ (t, packets) :: after → ∀ p,
    p ∈ packets ↔ p ∈ r.accepted ∧ p.deliverMs ≤ t ∧ ∀ poll ∈ before, poll.1 < p.deliverMs
  once : r.returned.Nodup
  sorted : r.returned.Pairwise fun p q => p.deliverMs ≤ q.deliverMs

/-- No poll so far was late enough for a packet. -/
def outstanding (r : LinkRun) (p : Packet) : Bool := r.polls.all fun poll => poll.1 < p.deliverMs

theorem outstanding_iff {r : LinkRun} {p : Packet} :
    r.outstanding p = true ↔ ∀ poll ∈ r.polls, poll.1 < p.deliverMs := by
  simp only [outstanding, List.all_eq_true, decide_eq_true_eq]

/-- The invariant: besides what is to be shown, the packets in flight are the outstanding ones, and
the packets are numbered. -/
structure Inv (r : LinkRun) : Prop extends r.Conserved where
  ready : r.sim.ready = []
  sequence : r.sim.sequence = r.offers
  polled : ∀ poll ∈ r.polls, poll.1 ≤ r.nowMs
  numbered : ∀ p ∈ r.accepted, p.sequence < r.offers
  nodup : r.accepted.Nodup
  flying : r.sim.inFlight = r.accepted.filter r.outstanding

theorem inv_start (profile : LinkProfile) : (start profile).Inv where
  accounted := rfl
  later := by simp [start]
  first_due := by simp [start]
  once := List.nodup_nil
  sorted := List.Pairwise.nil
  ready := rfl
  sequence := rfl
  polled := by simp [start]
  numbered := by simp [start]
  nodup := List.nodup_nil
  flying := rfl

section Steps

variable {r : LinkRun} {waitMs : ℕ}

/-! ### A send -/

section Send

variable {payload : List UInt8} {rolls : Rolls}

/-- The packet of an answer has the number of its offer and arrives after the clock. -/
theorem of_mem_packets {nowMs : ℕ} {p : Packet}
    (hp : p ∈ (r.sim.send payload nowMs rolls).1.packets payload nowMs r.offers) :
    p.sentMs = nowMs ∧ p.sequence = r.offers ∧ nowMs < p.deliverMs := by
  cases hanswer : (r.sim.send payload nowMs rolls).1 with
  | queued d =>
      rw [hanswer] at hp
      obtain rfl := List.mem_singleton.1 hp
      exact ⟨rfl, rfl, LinkSim.lt_of_queued hanswer⟩
  | lost =>
      rw [hanswer] at hp
      simp [Delivery.packets] at hp
  | queueOverflow =>
      rw [hanswer] at hp
      simp [Delivery.packets] at hp

theorem packets_nodup {nowMs : ℕ} (answer : Delivery) :
    (answer.packets payload nowMs r.offers).Nodup := by
  cases answer with
  | queued d => exact List.nodup_singleton _
  | lost => exact List.nodup_nil
  | queueOverflow => exact List.nodup_nil

theorem step_send :
    r.step ⟨waitMs, .send payload rolls⟩ =
      { r with
        sim := (r.sim.send payload (r.nowMs + waitMs) rolls).2
        nowMs := r.nowMs + waitMs
        offers := r.offers + 1
        accepted := r.accepted ++
          (r.sim.send payload (r.nowMs + waitMs) rolls).1.packets payload (r.nowMs + waitMs)
            r.offers } := rfl

theorem inv_send (h : r.Inv) : (r.step ⟨waitMs, .send payload rolls⟩).Inv := by
  rw [step_send]
  constructor
  · -- What was to be shown.
    constructor
    · exact LinkSim.send_accounted h.accounted
    · intro p hp
      rcases List.mem_append.1 hp with hp | hp
      · exact h.later p hp
      · obtain ⟨hsent, -, hlt⟩ := of_mem_packets hp
        rw [hsent]
        exact hlt
    · intro before t packets after hpolls p
      rw [h.first_due before t packets after hpolls p, List.mem_append]
      have ht : t ≤ r.nowMs := h.polled (t, packets) (by rw [hpolls]; simp)
      constructor
      · rintro ⟨hp, hdue⟩
        exact ⟨Or.inl hp, hdue⟩
      · rintro ⟨hp | hp, hdue⟩
        · exact ⟨hp, hdue⟩
        · -- The packet is not sent yet when the poll is made.
          have := (of_mem_packets hp).2.2
          omega
    · exact h.once
    · exact h.sorted
  · exact LinkSim.send_ready.trans h.ready
  · show _ = r.offers + 1
    rw [LinkSim.send_sequence, h.sequence]
  · intro poll hpoll
    have := h.polled poll hpoll
    show poll.1 ≤ r.nowMs + waitMs
    omega
  · intro p hp
    show p.sequence < r.offers + 1
    rcases List.mem_append.1 hp with hp | hp
    · have := h.numbered p hp
      omega
    · have := (of_mem_packets hp).2.1
      omega
  · refine List.nodup_append'.2 ⟨h.nodup, packets_nodup _, ?_⟩
    intro p hold hnew
    have hlt := h.numbered p hold
    have heq := (of_mem_packets hnew).2.1
    omega
  · -- A new packet arrives after the clock, and no poll is past the clock.
    show (r.sim.send payload (r.nowMs + waitMs) rolls).2.inFlight =
      (r.accepted ++ _).filter r.outstanding
    have hall : ∀ p ∈ (r.sim.send payload (r.nowMs + waitMs) rolls).1.packets payload
        (r.nowMs + waitMs) r.offers, r.outstanding p = true := by
      intro p hp
      rw [outstanding_iff]
      intro poll hpoll
      have hclock := h.polled poll hpoll
      have hlt := (of_mem_packets hp).2.2
      omega
    rw [LinkSim.send_inFlight, h.sequence, h.flying, List.filter_append,
      List.filter_eq_self.2 hall]

end Send

/-! ### A poll -/

theorem step_poll :
    r.step ⟨waitMs, .poll⟩ =
      { r with
        sim := (r.sim.poll (r.nowMs + waitMs)).2
        nowMs := r.nowMs + waitMs
        polls := r.polls ++ [(r.nowMs + waitMs, (r.sim.poll (r.nowMs + waitMs)).1)] } := rfl

/-- What the poll returns: the accepted packets that are due and that no earlier poll was late
enough for. -/
theorem mem_poll_iff (h : r.Inv) {t : ℕ} {p : Packet} :
    p ∈ (r.sim.poll t).1 ↔
      p ∈ r.accepted ∧ p.deliverMs ≤ t ∧ ∀ poll ∈ r.polls, poll.1 < p.deliverMs := by
  rw [LinkSim.mem_poll h.ready, h.flying, List.mem_filter, outstanding_iff, and_assoc]
  exact and_congr_right fun _ => and_comm

/-- A packet that was returned was due at the poll that returned it. -/
theorem exists_poll_of_mem_returned (h : r.Conserved) {p : Packet} (hp : p ∈ r.returned) :
    ∃ poll ∈ r.polls, p.deliverMs ≤ poll.1 := by
  obtain ⟨⟨t, packets⟩, hpoll, hmem⟩ := List.mem_flatMap.1 hp
  obtain ⟨before, after, hsplit⟩ := List.append_of_mem hpoll
  exact ⟨(t, packets), hpoll, ((h.first_due before t packets after hsplit p).1 hmem).2.1⟩

/-- The last entry of a list, or an earlier one. -/
theorem split_concat {α : Type} {l before after : List α} {x y : α}
    (h : l ++ [x] = before ++ y :: after) :
    (before = l ∧ y = x) ∨ ∃ after', l = before ++ y :: after' := by
  rcases List.eq_nil_or_concat after with rfl | ⟨after', z, rfl⟩
  · obtain ⟨hl, hx⟩ := List.append_inj' h rfl
    exact Or.inl ⟨hl.symm, (List.singleton_inj.1 hx).symm⟩
  · have h' : l ++ [x] = (before ++ y :: after') ++ [z] := by simpa using h
    exact Or.inr ⟨after', (List.append_inj' h' rfl).1⟩

theorem inv_poll (h : r.Inv) : (r.step ⟨waitMs, .poll⟩).Inv := by
  rw [step_poll]
  have hreturned : ∀ p ∈ r.returned, ∀ q ∈ (r.sim.poll (r.nowMs + waitMs)).1,
      p.deliverMs < q.deliverMs := by
    intro p hp q hq
    obtain ⟨poll, hpoll, hle⟩ := exists_poll_of_mem_returned h.toConserved hp
    have hlt := ((mem_poll_iff h).1 hq).2.2 poll hpoll
    omega
  constructor
  · constructor
    · exact h.accounted
    · exact h.later
    · intro before t packets after hsplit p
      rcases split_concat hsplit with ⟨rfl, heq⟩ | ⟨after', hold⟩
      · obtain ⟨rfl, rfl⟩ := Prod.mk.inj heq
        exact mem_poll_iff h
      · exact h.first_due before t packets after' hold p
    · show ((r.polls ++ [_]).flatMap Prod.snd).Nodup
      rw [List.flatMap_append, List.flatMap_singleton]
      have hflying : r.sim.inFlight.Nodup := by
        rw [h.flying]
        exact h.nodup.filter _
      refine List.nodup_append'.2 ⟨h.once, LinkSim.poll_nodup h.ready hflying, ?_⟩
      intro p hp hq
      exact absurd (hreturned p hp p hq) (Nat.lt_irrefl _)
    · show ((r.polls ++ [_]).flatMap Prod.snd).Pairwise _
      rw [List.flatMap_append, List.flatMap_singleton, List.pairwise_append]
      refine ⟨h.sorted, LinkSim.poll_pairwise h.ready, ?_⟩
      intro p hp q hq
      exact Nat.le_of_lt (hreturned p hp q hq)
  · rfl
  · exact h.sequence
  · intro poll hpoll
    show poll.1 ≤ r.nowMs + waitMs
    rcases List.mem_append.1 hpoll with hpoll | hpoll
    · have := h.polled poll hpoll
      omega
    · rw [List.mem_singleton.1 hpoll]
  · exact h.numbered
  · exact h.nodup
  · -- The poll takes the packets that are due off the outstanding ones.
    show (r.sim.poll (r.nowMs + waitMs)).2.inFlight = _
    rw [LinkSim.poll_inFlight, h.flying, List.filter_filter]
    refine List.filter_congr ?_
    intro p _
    simp only [outstanding, List.all_append, List.all_cons, List.all_nil, Bool.and_true]
    exact Bool.and_comm _ _

end Steps

/-! ### Whole runs -/

/-- **Every call keeps the invariant.** -/
theorem inv_step {r : LinkRun} (h : r.Inv) (c : Call) : (r.step c).Inv := by
  obtain ⟨waitMs, operation⟩ := c
  cases operation with
  | send payload rolls => exact inv_send h
  | poll => exact inv_poll h

theorem inv_run (profile : LinkProfile) (calls : List Call) :
    (Machine.run step (start profile) calls).Inv :=
  Machine.run_invariant Inv (fun _ c h => inv_step h c) (inv_start profile) calls

/-- **Conservation**: whatever the profile, the rolls and the calls, everything offered is accounted
for, and every accepted packet is returned unchanged, once, by the first poll that is late enough
for it, in the order of arrival. -/
theorem conserved_run (profile : LinkProfile) (calls : List Call) :
    (Machine.run step (start profile) calls).Conserved :=
  (inv_run profile calls).toConserved

end LinkRun

end Netsim

end Rda
