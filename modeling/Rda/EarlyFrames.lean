/-
**Frames that arrive during the negotiation.**

The pump has to take events from the transport to see the connection come up, and a peer that is
quicker may already be sending data.  The frames among the events the pump took are returned by it
and put back into the session, which serves them before the events that are still in its queue.

The system below has the two queues of a session, the pump, and the history: what arrived, what the
pump took and what the caller was given afterwards.  An event may arrive between any two steps.

Main definitions:

* `Rda.EventQueues`, `Rda.EventQueues.pushBackFrames`, `Rda.EventQueues.nextEvent` — the queues of a
  session;
* `Rda.EarlyRun`, `Rda.EarlyRun.step` — a pump on these queues;
* `Rda.EarlyRun.FramesKept` — what the caller is given.

Main results:

* `Rda.earlyFrames_of_select` — what a turn puts aside;
* `Rda.EarlyRun.inv_step` — **every step keeps the invariant**;
* `Rda.EarlyRun.framesKept_run` — **every frame the pump took is given to the caller, once, in the
  order of arrival, and before whatever arrived later**.
-/

import Rda.NegotiateIsolation

set_option relaxedAutoImplicit false
set_option autoImplicit false

namespace Rda

/-! ### The queues of a session -/

/-- The two queues of a session's events: those that were put back, and those from the transport. -/
structure EventQueues where
  pending : List TransportEvent := []
  events : List TransportEvent := []

namespace EventQueues

/-- Puts frames back at the front of the event stream. -/
def pushBackFrames (q : EventQueues) (frames : List (Channel × ControlFrame)) : EventQueues :=
  { q with pending := q.pending ++ frames.map fun f => .frame f.1 f.2 }

/-- The next transport event, pushed-back frames first; none while there is nothing to return. -/
def nextEvent (q : EventQueues) : Option (TransportEvent × EventQueues) :=
  match q.pending with
  | event :: pending => some (event, { q with pending := pending })
  | [] =>
      match q.events with
      | event :: events => some (event, { q with events := events })
      | [] => none

/-- The next event is the first one of the two queues. -/
theorem nextEvent_cases (q : EventQueues) :
    (q.pending ++ q.events = [] ∧ q.nextEvent = none) ∨
      ∃ event q', q.nextEvent = some (event, q') ∧
        q.pending ++ q.events = event :: (q'.pending ++ q'.events) := by
  obtain ⟨pending, events⟩ := q
  cases pending with
  | cons event pending => exact Or.inr ⟨event, ⟨pending, events⟩, rfl, rfl⟩
  | nil =>
      cases events with
      | cons event events => exact Or.inr ⟨event, ⟨[], events⟩, rfl, rfl⟩
      | nil => exact Or.inl ⟨rfl, rfl⟩

end EventQueues

/-! ### What a turn puts aside -/

/-- A data frame. -/
def TransportEvent.isFrame : TransportEvent → Bool
  | .frame .. => true
  | _ => false

/-- The frames among some events. -/
def dataFrames (events : List TransportEvent) : List (Channel × ControlFrame) :=
  events.filterMap fun
    | .frame channel frame => some (channel, frame)
    | _ => none

theorem dataFrames_append (events later : List TransportEvent) :
    dataFrames (events ++ later) = dataFrames events ++ dataFrames later :=
  List.filterMap_append

/-- Putting the frames back makes events of them again. -/
theorem map_dataFrames (events : List TransportEvent) :
    (dataFrames events).map (fun f => TransportEvent.frame f.1 f.2) =
      events.filter TransportEvent.isFrame := by
  induction events with
  | nil => rfl
  | cons event events ih =>
      cases event with
      | frame channel frame => exact congrArg (TransportEvent.frame channel frame :: ·) ih
      | _ => exact ih

/-- The event of an arm. -/
def Arm.taken : Arm → List TransportEvent
  | .event (some e) => [e]
  | _ => []

section Turns

variable {config : PumpConfig} {t : Turn} {p p' : Pump} {fs : List (Channel × ControlFrame)}

/-- The frames that were put aside are these. -/
def Pump.SetAside (fs : List (Channel × ControlFrame)) (p : Pump) : Prop := p.earlyFrames = fs

theorem setAside_sendSignal (result : Except String Unit) (message : Message) :
    Program.Keeps (Pump.SetAside fs) (sendSignal config result message) := by
  intro p h
  simp only [Program.final, EStateM.run, sendSignal]
  cases result with
  | ok u => exact h
  | error e => exact h

theorem setAside_acceptOffer (sdp : String) :
    Program.Keeps (Pump.SetAside fs) (acceptOffer t sdp) := by
  intro p h
  simp only [Program.final, EStateM.run, acceptOffer]
  cases t.acceptOffer with
  | ok answer => exact h
  | error e => exact h

theorem setAside_acceptAnswer (sdp : String) :
    Program.Keeps (Pump.SetAside fs) (acceptAnswer t sdp) := by
  intro p h
  simp only [Program.final, EStateM.run, acceptAnswer]
  cases t.acceptAnswer with
  | ok u => exact h
  | error e => exact h

/-- No envelope touches the frames that were put aside. -/
theorem setAside_onMessage (message : Message) :
    Program.Keeps (Pump.SetAside fs) (onMessage config t message) := by
  cases message with
  | offer sdp =>
      unfold onMessage
      split_ifs
      · obtain ⟨_ | sdp⟩ := sdp
        · exact .pure _
        · exact .bind (setAside_acceptOffer sdp) fun answer =>
            .bind (setAside_sendSignal _ _) fun _ => .modify fun q hq => hq
      · exact .pure _
  | answer sdp =>
      unfold onMessage
      split_ifs
      · exact .pure _
      · obtain ⟨_ | sdp⟩ := sdp
        · exact .pure _
        · exact .bind (setAside_acceptAnswer sdp) fun _ => .modify fun q hq => hq
  | iceCandidate c =>
      refine .modify fun q hq => ?_
      obtain ⟨pending, calls, heq⟩ := Pump.candidate_eq c q
      rw [heq]
      exact hq
  | channelsReady => exact .modify fun q hq => hq
  | peerGone => exact .throw _
  | _ => exact .pure _

/-- An event adds itself, if it is a frame. -/
theorem earlyFrames_onEvent (event : TransportEvent) (p : Pump) :
    (Program.final (onEvent config t event) p).earlyFrames =
      p.earlyFrames ++ dataFrames [event] := by
  cases event with
  | frame channel frame => rfl
  | localCandidate c =>
      exact (setAside_sendSignal _ _ p rfl).trans (List.append_nil _).symm
  | connectionState state =>
      cases state with
      | _ => exact (List.append_nil _).symm
  | _ => exact (List.append_nil _).symm

/-- **What a turn puts aside**: the frame it takes, if it takes one. -/
theorem earlyFrames_of_select {u : Unit} (h : (select config t).run p = .ok u p') :
    p'.earlyFrames = p.earlyFrames ++ dataFrames t.arm.taken := by
  rw [← Program.final_of_ok h]
  unfold select
  cases t.arm with
  | envelope envelope =>
      refine Eq.trans ?_ (List.append_nil _).symm
      cases envelope with
      | none => rfl
      | some envelope => exact setAside_onMessage envelope.msg (p.take envelope) rfl
  | event event =>
      cases event with
      | none => exact (List.append_nil _).symm
      | some event => exact earlyFrames_onEvent event p
  | tick =>
      refine Eq.trans ?_ (List.append_nil _).symm
      show (if p.connected = true then { p with allOpen := t.unopened.isEmpty }
        else p).earlyFrames = _
      split_ifs
      · rfl
      · rfl

end Turns

/-! ### A pump on the queues of a session -/

/-- A negotiation, the queues of its session, and the history. -/
structure EarlyRun where
  negotiation : Negotiation
  queues : EventQueues := {}
  /-- The frames the pump returned have been put back. -/
  pushed : Bool := false
  arrived : List TransportEvent := []
  /-- The events the pump took. -/
  consumed : List TransportEvent := []
  /-- The events the caller was given. -/
  delivered : List TransportEvent := []

/-- What happens next. -/
inductive EarlyStep
  /-- The transport has an event. -/
  | arrive (event : TransportEvent)
  /-- The pump takes a turn. -/
  | turn (t : Turn)
  /-- The caller of a pump that has returned puts the frames back. -/
  | pushBack
  /-- The caller asks for the next event. -/
  | next

namespace EarlyRun

/-- Before anything has happened. -/
def start (config : PumpConfig) : EarlyRun where
  negotiation := .start config

/-- The pump is still running and its turn gets to its arm. -/
def reaches (config : PumpConfig) (r : EarlyRun) (t : Turn) : Bool :=
  r.negotiation.result.isNone &&
    match (head config t).run r.negotiation.pump with
    | .ok .. => true
    | .error .. => false

/-- A turn of the pump.  The event of its arm is the next one in the queue; without one the arm is
not taken. -/
def pumpTurn (config : PumpConfig) (r : EarlyRun) (t : Turn) : EarlyRun :=
  match t.arm, r.queues.events with
  | .event (some _), [] => r
  | .event (some _), event :: events =>
      let t := { t with arm := .event (some event) }
      let r' := { r with negotiation := r.negotiation.step config t }
      if r.reaches config t then
        { r' with
          queues := { r.queues with events := events }
          consumed := r.consumed ++ [event] }
      else r'
  | _, _ => { r with negotiation := r.negotiation.step config t }

/-- One step. -/
def step (config : PumpConfig) (r : EarlyRun) : EarlyStep → EarlyRun
  | .arrive event =>
      { r with
        queues := { r.queues with events := r.queues.events ++ [event] }
        arrived := r.arrived ++ [event] }
  | .turn t => r.pumpTurn config t
  | .pushBack =>
      match r.pushed, r.negotiation.result with
      | false, some (.ok frames) =>
          { r with queues := r.queues.pushBackFrames frames, pushed := true }
      | _, _ => r
  | .next =>
      if r.pushed then
        match r.queues.nextEvent with
        | some (event, queues) =>
            { r with queues := queues, delivered := r.delivered ++ [event] }
        | none => r
      else r

/-- The caller is given the frames that the pump took, and then the events that arrived after those
that it took; and while there is one of these left, it is given one. -/
structure FramesKept (config : PumpConfig) (r : EarlyRun) : Prop where
  order : ∃ later, r.arrived = r.consumed ++ later ∧
    r.delivered ++ (r.queues.pending ++ r.queues.events) =
      r.consumed.filter TransportEvent.isFrame ++ later
  progress : ∀ event rest, r.queues.pending ++ r.queues.events = event :: rest →
    (r.step config .next).delivered = r.delivered ++ [event]

/-- Until the frames are put back, they are with the pump; from then on, they are in front of the
queue or with the caller. -/
structure Inv (r : EarlyRun) : Prop where
  running : r.negotiation.result = none →
    r.negotiation.pump.earlyFrames = dataFrames r.consumed
  returned : ∀ frames, r.negotiation.result = some (.ok frames) → frames = dataFrames r.consumed
  unpushed : r.negotiation.result = none → r.pushed = false
  before : r.pushed = false → r.arrived = r.consumed ++ r.queues.events ∧ r.queues.pending = [] ∧
    r.delivered = []
  after : r.pushed = true → ∃ later, r.arrived = r.consumed ++ later ∧
    r.delivered ++ (r.queues.pending ++ r.queues.events) =
      r.consumed.filter TransportEvent.isFrame ++ later

theorem inv_start (config : PumpConfig) : (start config).Inv where
  running _ := rfl
  returned _ h := by simp [start, Negotiation.start] at h
  unpushed _ := rfl
  before _ := ⟨rfl, rfl, rfl⟩
  after h := by simp [start] at h

section Steps

variable {config : PumpConfig} {r : EarlyRun}

variable (config) in
/-- A turn of a pump that is running fails, or gets to its arm and puts aside what it takes. -/
theorem step_outcome (hres : r.negotiation.result = none) (t : Turn) :
    (∃ e p, r.negotiation.step config t = ⟨p, some (.error e)⟩) ∨
      r.reaches config t = true ∧ ∃ p, r.negotiation.step config t = .next p ∧
        p.earlyFrames = r.negotiation.pump.earlyFrames ++ dataFrames t.arm.taken := by
  rw [Negotiation.step, hres]
  cases hrun : (turn config t).run r.negotiation.pump with
  | error e p => exact Or.inl ⟨e, p, rfl⟩
  | ok u p =>
      obtain ⟨hproceeds, hselect⟩ := run_turn_eq_ok_iff.1 hrun
      have hhead : (head config t).run r.negotiation.pump = .ok () _ :=
        run_head_eq_ok_iff.2 ⟨hproceeds, rfl⟩
      refine Or.inr ⟨?_, p, rfl, ?_⟩
      · rw [reaches, hres, hhead]
        rfl
      · obtain ⟨announcedReady, outbox, hannounce⟩ :=
          Pump.announce_eq config r.negotiation.pump
        rw [earlyFrames_of_select hselect, hannounce]

/-- What a turn of the pump does to the negotiation, given the events it took from the queue. -/
inductive TurnOutcome (r : EarlyRun) (popped : List TransportEvent) : Negotiation → Prop
  | idle (hpopped : popped = []) : TurnOutcome r popped r.negotiation
  | failed (e : NegotiateError) (p : Pump) (hres : r.negotiation.result = none) :
      TurnOutcome r popped ⟨p, some (.error e)⟩
  | proceeded (p : Pump) (hres : r.negotiation.result = none)
      (hearly : p.earlyFrames = r.negotiation.pump.earlyFrames ++ dataFrames popped) :
      TurnOutcome r popped (.next p)

theorem outcome_of_step (t : Turn) (htaken : t.arm.taken = []) :
    TurnOutcome r [] (r.negotiation.step config t) := by
  cases hres : r.negotiation.result with
  | some result =>
      rw [Negotiation.step_of_returned hres]
      exact .idle rfl
  | none =>
      rcases step_outcome config hres t with ⟨e, p, hstep⟩ | ⟨-, p, hstep, hearly⟩
      · rw [hstep]
        exact .failed e p hres
      · rw [hstep]
        exact .proceeded p hres (by rw [hearly, htaken])

/-- The system after a turn that took some events from the queue. -/
def afterTurn (r : EarlyRun) (n : Negotiation) (popped events : List TransportEvent) : EarlyRun :=
  { r with
    negotiation := n
    queues := { r.queues with events := events }
    consumed := r.consumed ++ popped }

/-- A turn that takes nothing from the queue. -/
theorem afterTurn_nil (n : Negotiation) :
    r.afterTurn n [] r.queues.events = { r with negotiation := n } := by
  rw [afterTurn, List.append_nil]

/-- **What a turn of the pump can do.** -/
theorem pumpTurn_cases (config : PumpConfig) (r : EarlyRun) (t : Turn) :
    ∃ popped events n, r.queues.events = popped ++ events ∧ TurnOutcome r popped n ∧
      r.pumpTurn config t = r.afterTurn n popped events := by
  have hquiet : t.arm.taken = [] →
      r.pumpTurn config t = { r with negotiation := r.negotiation.step config t } →
      ∃ popped events n, r.queues.events = popped ++ events ∧ TurnOutcome r popped n ∧
        r.pumpTurn config t = r.afterTurn n popped events := by
    intro htaken hturn
    exact ⟨[], r.queues.events, r.negotiation.step config t, rfl, outcome_of_step t htaken,
      hturn.trans (afterTurn_nil _).symm⟩
  cases harm : t.arm with
  | envelope envelope =>
      refine hquiet (by rw [harm]; rfl) ?_
      unfold pumpTurn
      rw [harm]
  | tick =>
      refine hquiet (by rw [harm]; rfl) ?_
      unfold pumpTurn
      rw [harm]
  | event e =>
      cases e with
      | none =>
          refine hquiet (by rw [harm]; rfl) ?_
          unfold pumpTurn
          rw [harm]
      | some e =>
          cases hevents : r.queues.events with
          | nil =>
              have hturn : r.pumpTurn config t = r.afterTurn r.negotiation [] r.queues.events := by
                rw [afterTurn_nil]
                unfold pumpTurn
                rw [harm, hevents]
              rw [hevents] at hturn
              exact ⟨[], [], r.negotiation, rfl, .idle rfl, hturn⟩
          | cons event events =>
              -- The arm takes the event at the head of the queue.
              have hturn : r.pumpTurn config t =
                  if r.reaches config { t with arm := .event (some event) } = true then
                    r.afterTurn (r.negotiation.step config { t with arm := .event (some event) })
                      [event] events
                  else
                    { r with
                      negotiation :=
                        r.negotiation.step config { t with arm := .event (some event) } } := by
                unfold pumpTurn
                rw [harm, hevents]
                rfl
              cases hres : r.negotiation.result with
              | some result =>
                  have hreaches :
                      r.reaches config { t with arm := .event (some event) } = false := by
                    rw [reaches, hres]
                    rfl
                  refine ⟨[], event :: events, r.negotiation, rfl, .idle rfl, ?_⟩
                  rw [hturn, hreaches, if_neg (by simp), Negotiation.step_of_returned hres,
                    ← hevents, afterTurn_nil]
              | none =>
                  rcases step_outcome config hres { t with arm := .event (some event) } with
                    ⟨e', p, hstep⟩ | ⟨hreaches, p, hstep, hearly⟩
                  · rw [hturn, hstep]
                    split_ifs
                    · exact ⟨[event], events, _, rfl, .failed e' p hres, rfl⟩
                    · refine ⟨[], event :: events, _, rfl, .failed e' p hres, ?_⟩
                      rw [← hevents, afterTurn_nil]
                  · rw [hturn, hstep, if_pos hreaches]
                    exact ⟨[event], events, _, rfl, .proceeded p hres hearly, rfl⟩

/-- A turn of the pump keeps the invariant. -/
theorem inv_turn (h : r.Inv) (t : Turn) : (r.pumpTurn config t).Inv := by
  obtain ⟨popped, events, n, hevents, houtcome, hturn⟩ := pumpTurn_cases config r t
  rw [hturn]
  cases houtcome with
  | idle hpopped =>
      have heq : r.afterTurn r.negotiation popped events = r := by
        rw [hpopped] at hevents ⊢
        rw [← List.nil_append events, ← hevents, afterTurn_nil]
      rw [heq]
      exact h
  | failed e p hres =>
      have hunpushed := h.unpushed hres
      obtain ⟨harrived, hpending, hdelivered⟩ := h.before hunpushed
      constructor
      · intro hnone
        simp [afterTurn] at hnone
      · intro frames hframes
        simp [afterTurn] at hframes
      · intro hnone
        simp [afterTurn] at hnone
      · intro _
        refine ⟨?_, hpending, hdelivered⟩
        show r.arrived = r.consumed ++ popped ++ events
        rw [harrived, hevents, List.append_assoc]
      · intro hpushed
        rw [show (r.afterTurn _ popped events).pushed = r.pushed from rfl, hunpushed] at hpushed
        cases hpushed
  | proceeded p hres hearly =>
      have hunpushed := h.unpushed hres
      obtain ⟨harrived, hpending, hdelivered⟩ := h.before hunpushed
      have hkept : p.earlyFrames = dataFrames (r.consumed ++ popped) := by
        rw [hearly, h.running hres, dataFrames_append]
      constructor
      · intro _
        exact hkept
      · intro frames hframes
        have hif : (if p.finished then some (.ok p.earlyFrames) else none) =
            some (Except.ok (ε := NegotiateError) frames) := hframes
        split_ifs at hif
        exact (Except.ok.inj (Option.some.inj hif)).symm.trans hkept
      · intro _
        exact hunpushed
      · intro _
        refine ⟨?_, hpending, hdelivered⟩
        show r.arrived = r.consumed ++ popped ++ events
        rw [harrived, hevents, List.append_assoc]
      · intro hpushed
        rw [show (r.afterTurn _ popped events).pushed = r.pushed from rfl, hunpushed] at hpushed
        cases hpushed

/-- Putting the frames back keeps the invariant. -/
theorem inv_pushBack (h : r.Inv) : (r.step config .pushBack).Inv := by
  cases hpushed : r.pushed with
  | true =>
      have heq : r.step config .pushBack = r := by
        simp only [step, hpushed]
      rw [heq]
      exact h
  | false =>
      cases hres : r.negotiation.result with
      | none =>
          have heq : r.step config .pushBack = r := by
            simp only [step, hpushed, hres]
          rw [heq]
          exact h
      | some result =>
          cases result with
          | error e =>
              have heq : r.step config .pushBack = r := by
                simp only [step, hpushed, hres]
              rw [heq]
              exact h
          | ok frames =>
              have heq : r.step config .pushBack =
                  { r with queues := r.queues.pushBackFrames frames, pushed := true } := by
                simp only [step, hpushed, hres]
              rw [heq]
              obtain ⟨harrived, hpending, hdelivered⟩ := h.before hpushed
              constructor
              · exact h.running
              · exact h.returned
              · intro hnone
                rw [hres] at hnone
                cases hnone
              · intro hfalse
                cases hfalse
              · intro _
                refine ⟨r.queues.events, harrived, ?_⟩
                show r.delivered ++ (r.queues.pending ++ frames.map _ ++ r.queues.events) = _
                rw [hdelivered, hpending, h.returned frames hres, map_dataFrames, List.nil_append,
                  List.nil_append]

/-- The caller's next event keeps the invariant. -/
theorem inv_next (h : r.Inv) : (r.step config .next).Inv := by
  cases hpushed : r.pushed with
  | false =>
      have heq : r.step config .next = r := by
        simp only [step, hpushed, Bool.false_eq_true, if_false]
      rw [heq]
      exact h
  | true =>
      rcases EventQueues.nextEvent_cases r.queues with ⟨-, hnone⟩ | ⟨event, queues, hsome, hfirst⟩
      · have heq : r.step config .next = r := by
          simp only [step, hpushed, hnone, if_true]
        rw [heq]
        exact h
      · have heq : r.step config .next =
            { r with queues := queues, delivered := r.delivered ++ [event] } := by
          simp only [step, hpushed, hsome, if_true]
        rw [heq]
        obtain ⟨later, harrived, horder⟩ := h.after hpushed
        constructor
        · exact h.running
        · exact h.returned
        · exact h.unpushed
        · intro hfalse
          have : r.pushed = false := hfalse
          rw [hpushed] at this
          cases this
        · intro _
          refine ⟨later, harrived, ?_⟩
          show r.delivered ++ [event] ++ (queues.pending ++ queues.events) = _
          rw [← horder, hfirst, List.append_assoc, List.singleton_append]

/-- An event that arrives keeps the invariant. -/
theorem inv_arrive (h : r.Inv) (event : TransportEvent) : (r.step config (.arrive event)).Inv := by
  constructor
  · exact h.running
  · exact h.returned
  · exact h.unpushed
  · intro hunpushed
    obtain ⟨harrived, hpending, hdelivered⟩ := h.before hunpushed
    refine ⟨?_, hpending, hdelivered⟩
    show r.arrived ++ [event] = r.consumed ++ (r.queues.events ++ [event])
    rw [harrived, List.append_assoc]
  · intro hpushed
    obtain ⟨later, harrived, horder⟩ := h.after hpushed
    refine ⟨later ++ [event], ?_, ?_⟩
    · show r.arrived ++ [event] = r.consumed ++ (later ++ [event])
      rw [harrived, List.append_assoc]
    · show r.delivered ++ (r.queues.pending ++ (r.queues.events ++ [event])) =
        r.consumed.filter TransportEvent.isFrame ++ (later ++ [event])
      rw [← List.append_assoc r.queues.pending, ← List.append_assoc r.delivered, horder,
        List.append_assoc]

/-- **Every step keeps the invariant.** -/
theorem inv_step (h : r.Inv) (s : EarlyStep) : (r.step config s).Inv := by
  cases s with
  | arrive event => exact inv_arrive h event
  | turn t => exact inv_turn h t
  | pushBack => exact inv_pushBack h
  | next => exact inv_next h

/-- Once the frames are back, the caller is given whatever is first. -/
theorem delivered_next (hpushed : r.pushed = true) {event : TransportEvent}
    {rest : List TransportEvent} (hfirst : r.queues.pending ++ r.queues.events = event :: rest) :
    (r.step config .next).delivered = r.delivered ++ [event] := by
  rcases EventQueues.nextEvent_cases r.queues with ⟨hnil, -⟩ | ⟨event', queues, hsome, hcons⟩
  · rw [hfirst] at hnil
    cases hnil
  · rw [hfirst] at hcons
    obtain rfl := (List.cons.inj hcons).1
    simp only [step, hpushed, hsome, if_true]

end Steps

/-! ### Whole runs -/

variable (config : PumpConfig)

theorem inv_run (steps : List EarlyStep) :
    (Machine.run (step config) (start config) steps).Inv :=
  Machine.run_invariant Inv (fun _ s h => inv_step h s) (inv_start config) steps

/-- **Early frames are kept**: once a pump has returned and its frames are put back, the caller is
given every frame the pump took, once and in order, and then what arrived after what it took. -/
theorem framesKept_run (steps : List EarlyStep)
    (hpushed : (Machine.run (step config) (start config) steps).pushed = true) :
    (Machine.run (step config) (start config) steps).FramesKept config where
  order := (inv_run config steps).after hpushed
  progress _ _ hfirst := delivered_next hpushed hfirst

end EarlyRun

/-! ### A frame that comes before the channels are open -/

/-- A frame on the control channel. -/
def Sample.early (seq : UInt16) : TransportEvent := .frame .control (.new (.ping 7) seq 0)

/-- A negotiation in which a frame arrives first, and another one just after the pump is done. -/
def Sample.earlySteps : List EarlyStep :=
  [.arrive (Sample.early 1), .arrive (.connectionState .connected), .arrive (.channelOpen .control),
    .turn (Sample.turn (.event (some .gatheringComplete)) []),
    .turn (Sample.turn (.event (some .gatheringComplete)) []),
    .turn (Sample.turn (.event (some .gatheringComplete)) []),
    .turn (Sample.turn (Sample.envelope .channelsReady) []),
    .arrive (Sample.early 2), .pushBack, .next, .next]

theorem EarlyRun.framesKept_sample :
    (Machine.run (EarlyRun.step ⟨"sess_1", 30000, false⟩) (EarlyRun.start ⟨"sess_1", 30000, false⟩)
        Sample.earlySteps).delivered = [Sample.early 1, Sample.early 2] ∧
      (Machine.run (EarlyRun.step ⟨"sess_1", 30000, false⟩)
        (EarlyRun.start ⟨"sess_1", 30000, false⟩) Sample.earlySteps).FramesKept
          ⟨"sess_1", 30000, false⟩ :=
  ⟨rfl, EarlyRun.framesKept_run ⟨"sess_1", 30000, false⟩ Sample.earlySteps rfl⟩

end Rda
