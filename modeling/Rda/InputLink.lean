/-
**The input of a session, from the window to the machine.**

The viewer's events wait in a queue until the controller's session loop forwards them.  Keys,
buttons and the wheel travel on a channel that is reliable and in order; pointer moves travel on a
channel that loses, repeats and reorders them.  Both channels write the key state of the host: every
frame releases the modifiers that its mask lacks.

Main definitions:

* `Rda.Controller` — the viewer, the queue and the session loop that forwards it;
* `Rda.InputLink`, `Rda.InputLink.step` — the controller and the host, with any interleaving of
  their turns and of the arrivals on the two channels;
* `Rda.InputLink.Quiet` — nothing is on its way.

Main results:

* `Rda.Controller.forwarded_drain` — the session loop forwards everything, in order.
-/

import Rda.Stream
import Rda.Viewer

set_option relaxedAutoImplicit false
set_option autoImplicit false

namespace Rda

/-! ### The controller -/

/-- The controller: the window loop, the events on their way to the session loop, and the frames the
session loop has sent, with their channels. -/
structure Controller where
  viewer : Viewer := {}
  queue : List InputEvent := []
  pointerSeq : UInt16 := 0
  keysSeq : UInt16 := 0
  quit : Bool := false
  wire : List (Channel × ControlFrame) := []

namespace Controller

/-- A turn of the window loop. -/
def turn (c : Controller) (w : Viewer.Window) : Controller :=
  { c with viewer := (c.viewer.turn w).2, queue := c.queue ++ (c.viewer.turn w).1 }

/-- The next number of a channel; the two channels are numbered apart. -/
def number (c : Controller) (channel : Channel) : UInt16 × Controller :=
  if channel = .inputPointer then (c.pointerSeq + 1, { c with pointerSeq := c.pointerSeq + 1 })
  else (c.keysSeq + 1, { c with keysSeq := c.keysSeq + 1 })

/-- Forwards events until there are no more, the window was closed, or a frame cannot be sent. -/
def forward (link : ℕ → SendAnswer) (nowMs : ℕ) (c : Controller) : List InputEvent → Controller
  | [] => { c with queue := [] }
  | .quit :: events => { c with queue := events, quit := true }
  | event :: events =>
      match toPayload event with
      | none => forward link nowMs c events
      | some (payload, channel) =>
          let (seq, c') := c.number channel
          match link c.wire.length with
          | .sent =>
              forward link nowMs
                { c' with wire := c.wire ++ [(channel, .new payload seq (.ofNat nowMs))] } events
          | _ => { c' with queue := events, quit := true }

/-- The part of a turn of the session loop that forwards the input. -/
def drain (link : ℕ → SendAnswer) (nowMs : ℕ) (c : Controller) : Controller :=
  if c.quit then c else c.forward link nowMs c.queue

/-- The frames that were sent on a channel. -/
def framesOn (c : Controller) (channel : Channel) : List ControlFrame :=
  (c.wire.filter fun m => m.1 = channel).map Prod.snd

/-- Everything that was sent, or waits to be sent, on the channel of the keys. -/
def history (c : Controller) : List Payload :=
  (c.framesOn .inputKeys).map ControlFrame.payload ++ keyPayloads c.queue

end Controller

/-! ### The two channels -/

/-- A controller and a host, and how many of the frames of keys have arrived. -/
structure InputLink where
  controller : Controller := {}
  host : Injector
  applied : ℕ := 0

namespace InputLink

/-- A turn of one of the loops, or an arrival. -/
inductive Event
  | turn (w : Viewer.Window)
  | drain (nowMs : ℕ)
  /-- The next frame of keys arrives. -/
  | arriveKey (nowMs : ℕ)
  /-- The `i`-th pointer frame arrives: never, once or again, and at any time. -/
  | arrivePointer (i nowMs : ℕ)

/-- The frame that arrives, and when. -/
def arrival (s : InputLink) : Event → Option (ControlFrame × ℕ)
  | .arriveKey nowMs => ((s.controller.framesOn .inputKeys)[s.applied]?).map (·, nowMs)
  | .arrivePointer i nowMs => ((s.controller.framesOn .inputPointer)[i]?).map (·, nowMs)
  | _ => none

/-- What happens in an event. -/
def step (grant : SessionGrant) (link : ℕ → SendAnswer) (s : InputLink) : Event → InputLink
  | .turn w => { s with controller := s.controller.turn w }
  | .drain nowMs => { s with controller := s.controller.drain link nowMs }
  | .arriveKey nowMs =>
      match s.arrival (.arriveKey nowMs) with
      | some f => { s with host := s.host.hear grant f, applied := s.applied + 1 }
      | none => s
  | .arrivePointer i nowMs =>
      match s.arrival (.arrivePointer i nowMs) with
      | some f => { s with host := s.host.hear grant f }
      | none => s

/-- The guards let the frame through, if one arrives. -/
def Accepts (grant : SessionGrant) (s : InputLink) (e : Event) : Prop :=
  ∀ f, s.arrival e = some f → s.host.Passes grant f.1.payload f.2

/-- Nothing is on its way: the queue is empty, and every frame of keys has arrived. -/
def Quiet (s : InputLink) : Prop :=
  s.controller.queue = [] ∧ s.applied = (s.controller.framesOn .inputKeys).length

end InputLink

/-! ### The controller keeps what it said -/

/-- The payload is an event with a mask. -/
def Payload.Carries : Payload → Prop
  | .mouseMove .. | .mouseMoveRelative .. | .mouseButton .. | .mouseWheel .. | .keyEvent .. => True
  | _ => False

namespace Controller

/-- A frame that was sent carries a mask, and a pointer frame is not about a key. -/
def WellSent (x : Channel × ControlFrame) : Prop :=
  x.2.payload.Carries ∧ (x.1 = .inputPointer → ∀ usage, ¬ x.2.payload.About usage)

theorem wellSent_of_toPayload {event : InputEvent} {payload : Payload} {channel : Channel}
    (h : toPayload event = some (payload, channel)) (seq : UInt16) (stamp : UInt32) :
    WellSent (channel, .new payload seq stamp) := by
  cases event with
  | move xNorm yNorm modifiers =>
      cases h
      exact ⟨trivial, fun _ _ => id⟩
  | quit => cases h
  | button | scroll | key =>
      cases h
      exact ⟨trivial, fun hne => by cases hne⟩

/-- What a turn of the session loop leaves as it was, over a link that does not fail: the frames of
keys that were sent, followed by those that wait, are the same. -/
structure Forwarded (c : Controller) (history : List Payload) (c' : Controller) : Prop where
  viewer : c'.viewer = c.viewer
  history : c'.history = history
  keys : c.framesOn .inputKeys <+: c'.framesOn .inputKeys
  sent : (∀ x ∈ c.wire, WellSent x) → ∀ x ∈ c'.wire, WellSent x

theorem framesOn_concat (c : Controller) (wire : List (Channel × ControlFrame)) (on : Channel)
    (frame : ControlFrame) (channel : Channel) :
    ({ c with wire := wire ++ [(on, frame)] } : Controller).framesOn channel
      = ({ c with wire := wire } : Controller).framesOn channel ++
          if on = channel then [frame] else [] := by
  rw [framesOn, List.filter_append, List.map_append]
  by_cases h : on = channel
  · simp [framesOn, h]
  · simp [framesOn, h]

theorem viewer_number (c : Controller) (channel : Channel) :
    (c.number channel).2.viewer = c.viewer := by
  rw [number]
  split <;> rfl

theorem forwarded_forward {link : ℕ → SendAnswer} (hlink : ∀ n, link n = .sent) (nowMs : ℕ)
    (c : Controller) (events : List InputEvent) :
    Forwarded c ((c.framesOn .inputKeys).map ControlFrame.payload ++ keyPayloads events)
      (c.forward link nowMs events) := by
  induction events generalizing c with
  | nil => exact ⟨rfl, rfl, List.prefix_refl _, id⟩
  | cons event events ih =>
      cases hevent : toPayload event with
      | none =>
          cases event with
          | quit => exact ⟨rfl, rfl, List.prefix_refl _, id⟩
          | _ => cases hevent
      | some sent =>
          obtain ⟨payload, channel⟩ := sent
          -- Over a link that does not fail the loop goes on with the frame on the wire.
          have hforward : c.forward link nowMs (event :: events)
              = forward link nowMs { (c.number channel).2 with
                wire := c.wire ++ [(channel, .new payload (c.number channel).1 (.ofNat nowMs))] }
                events := by
            rw [forward]
            · rw [hevent]
              simp only [hlink]
            · rintro rfl
              cases hevent
          obtain ⟨hviewer, hhistory, hkeys, hsent⟩ := ih { (c.number channel).2 with
            wire := c.wire ++ [(channel, .new payload (c.number channel).1 (.ofNat nowMs))] }
          have hframes : ({ (c.number channel).2 with wire := c.wire } : Controller).framesOn
              .inputKeys = c.framesOn .inputKeys := rfl
          rw [framesOn_concat, hframes] at hkeys hhistory
          rw [hforward]
          refine ⟨hviewer.trans (viewer_number c channel), ?_, ?_, ?_⟩
          · have hfirst : keyPayloads (event :: events)
                = (if channel = .inputKeys then [payload] else []) ++ keyPayloads events := by
              rw [keyPayloads, List.filterMap_cons, keyPayload, hevent]
              cases channel <;> rfl
            rw [hhistory, hfirst, List.map_append, List.append_assoc]
            split <;> rfl
          · exact (List.prefix_append _ _).trans hkeys
          · intro h
            refine hsent ?_
            intro x hx
            rcases List.mem_append.1 hx with hx | hx
            · exact h x hx
            · rw [List.mem_singleton.1 hx]
              exact wellSent_of_toPayload hevent _ _

theorem forwarded_drain {link : ℕ → SendAnswer} (hlink : ∀ n, link n = .sent) (nowMs : ℕ)
    (c : Controller) : Forwarded c c.history (c.drain link nowMs) := by
  rw [drain]
  split
  · exact ⟨rfl, rfl, List.prefix_refl _, id⟩
  · exact forwarded_forward hlink nowMs c c.queue

theorem history_turn (c : Controller) (w : Viewer.Window) :
    (c.turn w).history = c.history ++ keyPayloads (c.viewer.turn w).1 := by
  rw [history, turn, keyPayloads, List.filterMap_append, ← List.append_assoc]
  rfl

end Controller

end Rda
