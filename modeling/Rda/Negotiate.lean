/-
**Negotiating a peer connection.**

Both ends run one loop, `pump`, until the peer connection is up, all channels are open and the other
end has said the same.  One turn of the loop first looks at the clocks and announces that the
channels are open, if they are, and then takes whatever comes first: an envelope from the signaling
server, an event of the peer connection, or a tick.

A turn is a program that may fail (`Rda.turn`); the loop around it is a machine whose inputs are the
turns (`Rda.Negotiation.step`).  What the world decides in a turn, which arm is taken, what the
clocks say, which channels are open and whether sends succeed, is in the turn.  Besides its
variables the pump remembers the envelopes it has taken and sent and what it has asked of the peer
connection; the code does not, but this is what the statements about it are about.

Main definitions:

* `Rda.Pump`, `Rda.Turn`, `Rda.turn` — the loop's variables, the surroundings of a turn, the turn;
* `Rda.Negotiation`, `Rda.Negotiation.step`, `Rda.pump` — the loop;
* `Rda.Took` — what the arm of a turn can do when it does not fail.

Main results:

* `Rda.run_turn_eq_ok_iff`, `Rda.took_of_select` — **what one turn can do**;
* `Rda.Negotiation.step_cases` — what one step of the loop can do.
-/

import Rda.Machine
import Rda.Program
import Rda.Signaling

set_option relaxedAutoImplicit false
set_option autoImplicit false

namespace Rda

/-- How long to wait for the whole negotiation, in milliseconds. -/
def NEGOTIATION_TIMEOUT_MS : ℕ := 30000

/-- How long the channels get to open once the peer connection is up. -/
def CHANNEL_OPEN_TIMEOUT_MS : ℕ := 5000

/-- Why a negotiation failed. -/
inductive NegotiateError
  | signaling (what : String)
  | transport (e : TransportError)
  | refused (status : ConnectStatus)
  | timedOut
  | iceFailed
  | closed
  | channelsNotOpen (channels : List Channel)
  | peerNeverReady
  deriving DecidableEq, Repr

/-! ### The loop's variables -/

/-- What is asked of the peer connection: a remote description was set, or a remote candidate was
handed over. -/
inductive SessionCall
  | remoteDescription (sdp : String)
  | addRemoteCandidate (candidate : IceCandidate)
  deriving DecidableEq

/-- The variables of the loop, and what it has exchanged with the outside. -/
structure Pump where
  pending : List IceCandidate
  remoteDescribed : Bool
  connected : Bool
  allOpen : Bool
  connectedAt : Option ℕ
  announcedReady : Bool
  peerReady : Bool
  earlyFrames : List (Channel × ControlFrame)
  /-- Envelopes taken from the signaling server. -/
  inbox : List Envelope
  /-- Envelopes sent to it. -/
  outbox : List Envelope
  /-- What was asked of the peer connection. -/
  calls : List SessionCall

/-- The arguments of the loop. -/
structure PumpConfig where
  sessionId : String
  deadline : ℕ
  expectOffer : Bool

namespace Pump

/-- The loop's variables at its start. -/
def start (config : PumpConfig) : Pump where
  pending := []
  remoteDescribed := !config.expectOffer
  connected := false
  allOpen := false
  connectedAt := none
  announcedReady := false
  peerReady := false
  earlyFrames := []
  inbox := []
  outbox := []
  calls := []

/-- The loop's exit condition. -/
def finished (p : Pump) : Bool := p.connected && p.allOpen && p.peerReady

/-- Notes an envelope that was taken. -/
def take (p : Pump) (envelope : Envelope) : Pump := { p with inbox := p.inbox ++ [envelope] }

/-- Notes a message that was sent for the session. -/
def post (config : PumpConfig) (message : Message) (p : Pump) : Pump :=
  { p with outbox := p.outbox ++ [⟨some config.sessionId, message⟩] }

/-- Notes a call to the peer connection. -/
def call (c : SessionCall) (p : Pump) : Pump := { p with calls := p.calls ++ [c] }

/-- Hands over the buffered candidates. -/
def drainPending (p : Pump) : Pump :=
  { p with calls := p.calls ++ p.pending.map .addRemoteCandidate, pending := [] }

/-- What follows a remote description: later candidates go straight through. -/
def described (p : Pump) : Pump := { p with remoteDescribed := true }.drainPending

/-- Hands a candidate over, or buffers it.  Whether the peer connection can use it makes no
difference to the loop. -/
def candidate (c : IceCandidate) (p : Pump) : Pump :=
  if p.remoteDescribed then p.call (.addRemoteCandidate c)
  else { p with pending := p.pending ++ [c] }

/-- Only the buffer and the calls depend on what is done with a candidate. -/
theorem candidate_eq (c : IceCandidate) (p : Pump) :
    ∃ pending calls, p.candidate c = { p with pending := pending, calls := calls } := by
  unfold candidate
  split_ifs
  · exact ⟨_, _, rfl⟩
  · exact ⟨_, _, rfl⟩

/-- Announces readiness the moment it is true, and only once. -/
def announce (config : PumpConfig) (p : Pump) : Pump :=
  if p.allOpen && !p.announcedReady then
    { p with announcedReady := true }.post config .channelsReady
  else p

/-- Announcing changes nothing else. -/
theorem announce_eq (config : PumpConfig) (p : Pump) :
    ∃ announcedReady outbox,
      p.announce config = { p with announcedReady := announcedReady, outbox := outbox } := by
  unfold announce
  split_ifs
  · exact ⟨_, _, rfl⟩
  · exact ⟨_, _, rfl⟩

end Pump

/-! ### One turn -/

/-- What a turn waits for. -/
inductive Arm
  /-- The next envelope; none when the signaling connection has closed. -/
  | envelope (envelope : Option Envelope)
  /-- The next event; none when the event stream has ended. -/
  | event (event : Option TransportEvent)
  /-- Fifty milliseconds without either. -/
  | tick

/-- What the world decides in one turn. -/
structure Turn where
  arm : Arm
  /-- The clock when the channels' deadline is looked at. -/
  elapsedAt : ℕ
  unopenedAtTimeout : List Channel
  /-- The result of sending `ChannelsReady`. -/
  readySend : Except String Unit
  /-- The clock when the negotiation's deadline is looked at. -/
  deadlineAt : ℕ
  unopenedAtDeadline : List Channel
  /-- The answer the peer connection makes to an offer. -/
  acceptOffer : Except TransportError String
  acceptAnswer : Except TransportError Unit
  /-- The result of the send in the arm. -/
  armSend : Except String Unit
  /-- The clock in the arm. -/
  armAt : ℕ
  /-- The channels that are not open when the arm looks. -/
  unopened : List Channel

/-- A program of the loop. -/
abbrev Negotiate (α : Type) : Type := EStateM NegotiateError Pump α

/-- Sends a message for the session. -/
def sendSignal (config : PumpConfig) (result : Except String Unit) (message : Message) :
    Negotiate Unit := fun p =>
  match result with
  | .ok () => .ok () (p.post config message)
  | .error e => .error (.signaling e) p

/-- Once the transport is up, the channels are a separate and much shorter deadline. -/
def checkChannels (t : Turn) : Negotiate Unit := fun p =>
  match p.connectedAt with
  | some since =>
      if t.elapsedAt - since ≥ CHANNEL_OPEN_TIMEOUT_MS ∧ t.unopenedAtTimeout ≠ [] then
        .error (.channelsNotOpen t.unopenedAtTimeout) p
      else .ok () p
  | none => .ok () p

/-- The announcement of a turn. -/
def announceReadiness (config : PumpConfig) (t : Turn) : Negotiate Unit := fun p =>
  if p.allOpen && !p.announcedReady then
    sendSignal config t.readySend .channelsReady { p with announcedReady := true }
  else .ok () p

/-- Gives up at the deadline, naming the actual problem. -/
def checkDeadline (config : PumpConfig) (t : Turn) : Negotiate Unit := fun p =>
  if t.deadlineAt ≥ config.deadline then
    .error
      (if p.connected ∧ t.unopenedAtDeadline ≠ [] then .channelsNotOpen t.unopenedAtDeadline
      else if p.allOpen ∧ !p.peerReady then .peerNeverReady
      else .timedOut) p
  else .ok () p

/-- Sets the offer as the remote description and returns the answer. -/
def acceptOffer (t : Turn) (sdp : String) : Negotiate String := fun p =>
  match t.acceptOffer with
  | .ok answer => .ok answer (p.call (.remoteDescription sdp))
  | .error e => .error (.transport e) p

/-- Sets the answer as the remote description. -/
def acceptAnswer (t : Turn) (sdp : String) : Negotiate Unit := fun p =>
  match t.acceptAnswer with
  | .ok () => .ok () (p.call (.remoteDescription sdp))
  | .error e => .error (.transport e) p

/-- What is done with an envelope. -/
def onMessage (config : PumpConfig) (t : Turn) : Message → Negotiate Unit
  | .offer sdp =>
      if config.expectOffer then
        match sdp.sdp with
        | none => pure ()
        | some sdp => do
            let answer ← acceptOffer t sdp
            sendSignal config t.armSend (.answer (.plain answer))
            modify Pump.described
      else pure ()
  | .answer sdp =>
      if config.expectOffer then pure ()
      else
        match sdp.sdp with
        | none => pure ()
        | some sdp => do
            acceptAnswer t sdp
            modify Pump.described
  | .iceCandidate candidate => modify (Pump.candidate candidate)
  | .channelsReady => modify fun p => { p with peerReady := true }
  | .peerGone => throw .closed
  | _ => pure ()

/-- What is done with an event. -/
def onEvent (config : PumpConfig) (t : Turn) : TransportEvent → Negotiate Unit
  | .localCandidate candidate => sendSignal config t.armSend (.iceCandidate candidate)
  | .channelOpen _ => modify fun p => { p with allOpen := t.unopened.isEmpty }
  | .frame channel frame =>
      modify fun p => { p with earlyFrames := p.earlyFrames ++ [(channel, frame)] }
  | .closed => throw .closed
  | .connectionState .connected =>
      modify fun p =>
        { p with connected := true, connectedAt := some (p.connectedAt.getD t.armAt) }
  | .connectionState .failed => throw .iceFailed
  | _ => pure ()

/-- What is done at a tick: the fallback for opens that emit no event. -/
def onTick (t : Turn) : Negotiate Unit :=
  modify fun p => if p.connected then { p with allOpen := t.unopened.isEmpty } else p

/-- The arm of a turn. -/
def select (config : PumpConfig) (t : Turn) : Negotiate Unit :=
  match t.arm with
  | .envelope none => throw .closed
  | .envelope (some envelope) => do
      modify fun p => p.take envelope
      onMessage config t envelope.msg
  | .event none => throw .closed
  | .event (some event) => onEvent config t event
  | .tick => onTick t

/-- One turn of the loop. -/
def turn (config : PumpConfig) (t : Turn) : Negotiate Unit := do
  checkChannels t
  announceReadiness config t
  checkDeadline config t
  select config t

/-! ### What one turn can do -/

section Turns

variable {config : PumpConfig} {t : Turn} {p p' : Pump}

/-- The checks before the arm of a turn all pass. -/
structure Turn.Proceeds (t : Turn) (config : PumpConfig) (p : Pump) : Prop where
  channels : ∀ since, p.connectedAt = some since → CHANNEL_OPEN_TIMEOUT_MS ≤ t.elapsedAt - since →
    t.unopenedAtTimeout = []
  ready : p.allOpen = true → p.announcedReady = false → t.readySend = .ok ()
  deadline : t.deadlineAt < config.deadline

theorem run_sendSignal_eq_ok_iff {result : Except String Unit} {message : Message} {u : Unit} :
    (sendSignal config result message).run p = .ok u p' ↔
      result = .ok () ∧ p' = p.post config message := by
  simp only [EStateM.run, sendSignal]
  cases result with
  | ok u => simp [eq_comm]
  | error e => simp

theorem run_checkChannels_eq_ok_iff {u : Unit} :
    (checkChannels t).run p = .ok u p' ↔
      (∀ since, p.connectedAt = some since → CHANNEL_OPEN_TIMEOUT_MS ≤ t.elapsedAt - since →
        t.unopenedAtTimeout = []) ∧ p' = p := by
  simp only [EStateM.run, checkChannels]
  cases p.connectedAt with
  | none => simp [eq_comm]
  | some since =>
      simp only [ge_iff_le, Option.some.injEq, forall_eq']
      split_ifs with h
      · simp [h.1, h.2]
      · rw [not_and, not_not] at h
        rw [Program.ok_eq_ok_iff, and_iff_right h]

theorem run_announceReadiness_eq_ok_iff {u : Unit} :
    (announceReadiness config t).run p = .ok u p' ↔
      (p.allOpen = true → p.announcedReady = false → t.readySend = .ok ()) ∧
        p' = p.announce config := by
  simp only [EStateM.run, announceReadiness, Pump.announce]
  split_ifs with h
  · rw [Bool.and_eq_true, Bool.not_eq_true'] at h
    simp only [h.1, h.2, forall_const]
    exact run_sendSignal_eq_ok_iff
  · have hready : p.allOpen = true → p.announcedReady = false → t.readySend = .ok () := by
      intro hopen hann
      simp [hopen, hann] at h
    rw [Program.ok_eq_ok_iff, and_iff_right hready]

theorem run_checkDeadline_eq_ok_iff {u : Unit} :
    (checkDeadline config t).run p = .ok u p' ↔ t.deadlineAt < config.deadline ∧ p' = p := by
  simp only [EStateM.run, checkDeadline]
  split_ifs with h
  · simp [h]
  · simp [not_le.1 h, eq_comm]

/-- A turn succeeds exactly when its checks pass and its arm succeeds after the announcement. -/
theorem run_turn_eq_ok_iff {u : Unit} :
    (turn config t).run p = .ok u p' ↔
      t.Proceeds config p ∧ (select config t).run (p.announce config) = .ok u p' := by
  simp only [turn, Program.run_bind_eq_ok_iff, run_checkChannels_eq_ok_iff,
    run_announceReadiness_eq_ok_iff, run_checkDeadline_eq_ok_iff]
  constructor
  · rintro ⟨-, p₁, ⟨hch, rfl⟩, -, p₂, ⟨hready, rfl⟩, -, p₃, ⟨hdl, rfl⟩, hrun⟩
    exact ⟨⟨hch, hready, hdl⟩, hrun⟩
  · rintro ⟨⟨hch, hready, hdl⟩, hrun⟩
    exact ⟨(), p, ⟨hch, rfl⟩, (), _, ⟨hready, rfl⟩, (), _, ⟨hdl, rfl⟩, hrun⟩

/-- What the arm of a turn can do when it does not fail. -/
inductive Took (config : PumpConfig) (t : Turn) (p : Pump) : Pump → Prop
  | ignoredMessage (envelope : Envelope) (harm : t.arm = .envelope (some envelope))
      (hready : envelope.msg ≠ .channelsReady) (hcandidate : ∀ c, envelope.msg ≠ .iceCandidate c) :
      Took config t p (p.take envelope)
  | offer (envelope : Envelope) (sdp answer : String) (harm : t.arm = .envelope (some envelope))
      (hmsg : envelope.msg = .offer ⟨some sdp⟩) (hrole : config.expectOffer = true) :
      Took config t p ((((p.take envelope).call (.remoteDescription sdp)).post config
        (.answer (.plain answer))).described)
  | answer (envelope : Envelope) (sdp : String) (harm : t.arm = .envelope (some envelope))
      (hmsg : envelope.msg = .answer ⟨some sdp⟩) (hrole : config.expectOffer = false) :
      Took config t p (((p.take envelope).call (.remoteDescription sdp)).described)
  | candidate (envelope : Envelope) (c : IceCandidate) (harm : t.arm = .envelope (some envelope))
      (hmsg : envelope.msg = .iceCandidate c) : Took config t p ((p.take envelope).candidate c)
  | peerReady (envelope : Envelope) (harm : t.arm = .envelope (some envelope))
      (hmsg : envelope.msg = .channelsReady) :
      Took config t p { p.take envelope with peerReady := true }
  | localCandidate (c : IceCandidate) : Took config t p (p.post config (.iceCandidate c))
  | channelOpen (channel : Channel) (harm : t.arm = .event (some (.channelOpen channel))) :
      Took config t p { p with allOpen := t.unopened.isEmpty }
  | frame (channel : Channel) (frame : ControlFrame) :
      Took config t p { p with earlyFrames := p.earlyFrames ++ [(channel, frame)] }
  | connected (at_ : ℕ) : Took config t p { p with connected := true, connectedAt := some at_ }
  | tick (harm : t.arm = .tick) (hconnected : p.connected = true) :
      Took config t p { p with allOpen := t.unopened.isEmpty }
  | nothing : Took config t p p

theorem run_acceptOffer_eq_ok_iff {sdp answer : String} :
    (acceptOffer t sdp).run p = .ok answer p' ↔
      t.acceptOffer = .ok answer ∧ p' = p.call (.remoteDescription sdp) := by
  simp only [EStateM.run, acceptOffer]
  cases t.acceptOffer with
  | ok a => simp [eq_comm]
  | error e => simp

theorem run_acceptAnswer_eq_ok_iff {sdp : String} {u : Unit} :
    (acceptAnswer t sdp).run p = .ok u p' ↔
      t.acceptAnswer = .ok () ∧ p' = p.call (.remoteDescription sdp) := by
  simp only [EStateM.run, acceptAnswer]
  cases t.acceptAnswer with
  | ok a => simp [eq_comm]
  | error e => simp

theorem took_of_offer {envelope : Envelope} {sdp : SdpPayload}
    (harm : t.arm = .envelope (some envelope)) (hmsg : envelope.msg = .offer sdp)
    (h : (onMessage config t (.offer sdp)).run (p.take envelope) = .ok () p') :
    Took config t p p' := by
  obtain ⟨sdp⟩ := sdp
  have hskip : Took config t p (p.take envelope) :=
    .ignoredMessage envelope harm (by simp [hmsg]) (by simp [hmsg])
  unfold onMessage at h
  split_ifs at h with hrole
  · cases sdp with
    | none =>
        obtain ⟨-, rfl⟩ := Program.run_pure_eq_ok_iff.1 h
        exact hskip
    | some sdp =>
        obtain ⟨answer, p₁, haccept, h₁⟩ := Program.run_bind_eq_ok_iff.1 h
        obtain ⟨u, p₂, hsend, h₂⟩ := Program.run_bind_eq_ok_iff.1 h₁
        obtain ⟨-, rfl⟩ := run_acceptOffer_eq_ok_iff.1 haccept
        obtain ⟨-, rfl⟩ := run_sendSignal_eq_ok_iff.1 hsend
        obtain rfl := Program.run_modify_eq_ok_iff.1 h₂
        exact .offer envelope sdp answer harm hmsg hrole
  · obtain ⟨-, rfl⟩ := Program.run_pure_eq_ok_iff.1 h
    exact hskip

theorem took_of_answer {envelope : Envelope} {sdp : SdpPayload}
    (harm : t.arm = .envelope (some envelope)) (hmsg : envelope.msg = .answer sdp)
    (h : (onMessage config t (.answer sdp)).run (p.take envelope) = .ok () p') :
    Took config t p p' := by
  obtain ⟨sdp⟩ := sdp
  have hskip : Took config t p (p.take envelope) :=
    .ignoredMessage envelope harm (by simp [hmsg]) (by simp [hmsg])
  unfold onMessage at h
  split_ifs at h with hrole
  · obtain ⟨-, rfl⟩ := Program.run_pure_eq_ok_iff.1 h
    exact hskip
  · cases sdp with
    | none =>
        obtain ⟨-, rfl⟩ := Program.run_pure_eq_ok_iff.1 h
        exact hskip
    | some sdp =>
        obtain ⟨u, p₁, haccept, h₁⟩ := Program.run_bind_eq_ok_iff.1 h
        obtain ⟨-, rfl⟩ := run_acceptAnswer_eq_ok_iff.1 haccept
        obtain rfl := Program.run_modify_eq_ok_iff.1 h₁
        exact .answer envelope sdp harm hmsg (Bool.eq_false_iff.2 hrole)

theorem took_of_onMessage {envelope : Envelope} (harm : t.arm = .envelope (some envelope))
    (h : (onMessage config t envelope.msg).run (p.take envelope) = .ok () p') :
    Took config t p p' := by
  cases hmsg : envelope.msg with
  | offer sdp => exact took_of_offer harm hmsg (hmsg ▸ h)
  | answer sdp => exact took_of_answer harm hmsg (hmsg ▸ h)
  | iceCandidate c =>
      rw [hmsg] at h
      obtain rfl := Program.run_modify_eq_ok_iff.1 h
      exact .candidate envelope c harm hmsg
  | channelsReady =>
      rw [hmsg] at h
      obtain rfl := Program.run_modify_eq_ok_iff.1 h
      exact .peerReady envelope harm hmsg
  | peerGone =>
      rw [hmsg] at h
      exact (Program.run_throw_eq_ok_iff.1 h).elim
  | _ =>
      rw [hmsg] at h
      obtain ⟨-, rfl⟩ := Program.run_pure_eq_ok_iff.1 h
      exact .ignoredMessage envelope harm (by simp [hmsg]) (by simp [hmsg])

theorem took_of_onEvent {event : TransportEvent} (harm : t.arm = .event (some event))
    (h : (onEvent config t event).run p = .ok () p') : Took config t p p' := by
  cases event with
  | localCandidate c =>
      obtain ⟨-, rfl⟩ := run_sendSignal_eq_ok_iff.1 h
      exact .localCandidate c
  | channelOpen channel =>
      obtain rfl := Program.run_modify_eq_ok_iff.1 h
      exact .channelOpen channel harm
  | frame channel frame =>
      obtain rfl := Program.run_modify_eq_ok_iff.1 h
      exact .frame channel frame
  | closed => exact (Program.run_throw_eq_ok_iff.1 h).elim
  | connectionState state =>
      cases state with
      | connected =>
          obtain rfl := Program.run_modify_eq_ok_iff.1 h
          exact .connected _
      | failed => exact (Program.run_throw_eq_ok_iff.1 h).elim
      | _ =>
          obtain ⟨-, rfl⟩ := Program.run_pure_eq_ok_iff.1 h
          exact .nothing
  | _ =>
      obtain ⟨-, rfl⟩ := Program.run_pure_eq_ok_iff.1 h
      exact .nothing

/-- **What the arm can do.** -/
theorem took_of_select (h : (select config t).run p = .ok () p') : Took config t p p' := by
  unfold select at h
  cases harm : t.arm with
  | envelope envelope =>
      rw [harm] at h
      cases envelope with
      | none => exact (Program.run_throw_eq_ok_iff.1 h).elim
      | some envelope => exact took_of_onMessage harm (Program.run_modify_bind_eq_ok_iff.1 h)
  | event event =>
      rw [harm] at h
      cases event with
      | none => exact (Program.run_throw_eq_ok_iff.1 h).elim
      | some event => exact took_of_onEvent harm h
  | tick =>
      rw [harm] at h
      obtain rfl := Program.run_modify_eq_ok_iff.1 h
      split_ifs with hconnected
      · exact .tick harm hconnected
      · exact .nothing

/-! ### What a turn has asked for when it fails -/

/-- At most a remote description was set. -/
def Pump.CallsFrom (p p' : Pump) : Prop :=
  p'.calls = p.calls ∨ ∃ sdp, p'.calls = p.calls ++ [.remoteDescription sdp]

theorem eq_of_sendSignal_error {result : Except String Unit} {message : Message}
    {e : NegotiateError} (h : (sendSignal config result message).run p = .error e p') : p' = p := by
  simp only [EStateM.run, sendSignal] at h
  cases result with
  | ok u => cases h
  | error e => cases h; rfl

theorem callsFrom_of_onMessage {message : Message} {e : NegotiateError}
    (h : (onMessage config t message).run p = .error e p') : p.CallsFrom p' := by
  cases message with
  | offer sdp =>
      unfold onMessage at h
      split_ifs at h
      · obtain ⟨_ | sdp⟩ := sdp
        · cases h
        · rcases Program.run_bind_eq_error_iff.1 h with haccept | ⟨answer, p₁, haccept, h₁⟩
          · simp only [EStateM.run, acceptOffer] at haccept
            cases ht : t.acceptOffer with
            | ok a => rw [ht] at haccept; cases haccept
            | error e => rw [ht] at haccept; cases haccept; exact .inl rfl
          · obtain ⟨-, rfl⟩ := run_acceptOffer_eq_ok_iff.1 haccept
            rcases Program.run_bind_eq_error_iff.1 h₁ with hsend | ⟨u, p₂, hsend, h₂⟩
            · rw [eq_of_sendSignal_error hsend]
              exact .inr ⟨sdp, rfl⟩
            · cases h₂
      · cases h
  | answer sdp =>
      unfold onMessage at h
      split_ifs at h
      · cases h
      · obtain ⟨_ | sdp⟩ := sdp
        · cases h
        · rcases Program.run_bind_eq_error_iff.1 h with haccept | ⟨u, p₁, haccept, h₁⟩
          · simp only [EStateM.run, acceptAnswer] at haccept
            cases ht : t.acceptAnswer with
            | ok a => rw [ht] at haccept; cases haccept
            | error e => rw [ht] at haccept; cases haccept; exact .inl rfl
          · cases h₁
  | peerGone => cases h; exact .inl rfl
  | _ => cases h

theorem callsFrom_of_onEvent {event : TransportEvent} {e : NegotiateError}
    (h : (onEvent config t event).run p = .error e p') : p.CallsFrom p' := by
  cases event with
  | localCandidate c => exact .inl (by rw [eq_of_sendSignal_error h])
  | closed => cases h; exact .inl rfl
  | connectionState state =>
      cases state with
      | failed => cases h; exact .inl rfl
      | _ => cases h
  | _ => cases h

theorem callsFrom_of_select {e : NegotiateError} (h : (select config t).run p = .error e p') :
    p.CallsFrom p' := by
  unfold select at h
  cases harm : t.arm with
  | envelope envelope =>
      rw [harm] at h
      cases envelope with
      | none => cases h; exact .inl rfl
      | some envelope =>
          have hmsg : (onMessage config t envelope.msg).run (p.take envelope) = .error e p' := h
          exact (callsFrom_of_onMessage hmsg : (p.take envelope).CallsFrom p')
  | event event =>
      rw [harm] at h
      cases event with
      | none => cases h; exact .inl rfl
      | some event => exact callsFrom_of_onEvent h
  | tick =>
      rw [harm] at h
      cases h

theorem callsFrom_of_turn {e : NegotiateError} (h : (turn config t).run p = .error e p') :
    p.CallsFrom p' := by
  rcases Program.run_bind_eq_error_iff.1 h with hfail | ⟨u, p₁, hok, h₁⟩
  · simp only [EStateM.run, checkChannels] at hfail
    split at hfail
    · split_ifs at hfail
      cases hfail
      exact .inl rfl
    · cases hfail
  obtain ⟨-, heq₁⟩ := run_checkChannels_eq_ok_iff.1 hok
  rw [heq₁] at h₁
  rcases Program.run_bind_eq_error_iff.1 h₁ with hfail | ⟨u, p₂, hok, h₂⟩
  · simp only [EStateM.run, announceReadiness] at hfail
    split_ifs at hfail
    rw [eq_of_sendSignal_error hfail]
    exact .inl rfl
  obtain ⟨-, heq₂⟩ := run_announceReadiness_eq_ok_iff.1 hok
  obtain ⟨announcedReady, outbox, hannounce⟩ := p.announce_eq config
  rw [heq₂, hannounce] at h₂
  rcases Program.run_bind_eq_error_iff.1 h₂ with hfail | ⟨u, p₃, hok, h₃⟩
  · simp only [EStateM.run, checkDeadline] at hfail
    split_ifs at hfail
    all_goals
      cases hfail
      exact .inl rfl
  obtain ⟨-, heq₃⟩ := run_checkDeadline_eq_ok_iff.1 hok
  rw [heq₃] at h₃
  exact (callsFrom_of_select h₃ : Pump.CallsFrom { p with announcedReady, outbox } p')

/-! ### What a turn keeps, whether it fails or not -/

/-- The pump has taken the envelopes `inbox` and has sent those of `outbox`, and maybe more. -/
structure Pump.Extends (inbox outbox : List Envelope) (p : Pump) : Prop where
  inbox : p.inbox = inbox
  outbox : outbox <+: p.outbox

section Keeps

variable {inbox outbox : List Envelope}

theorem Pump.Extends.post (h : p.Extends inbox outbox) (message : Message) :
    (p.post config message).Extends inbox outbox :=
  ⟨h.inbox, h.outbox.trans (List.prefix_append _ _)⟩

theorem Pump.Extends.candidate (h : p.Extends inbox outbox) (c : IceCandidate) :
    (p.candidate c).Extends inbox outbox := by
  obtain ⟨pending, calls, heq⟩ := Pump.candidate_eq c p
  rw [heq]
  exact ⟨h.inbox, h.outbox⟩

theorem keeps_sendSignal (result : Except String Unit) (message : Message) :
    Program.Keeps (Pump.Extends inbox outbox) (sendSignal config result message) := by
  intro p h
  simp only [Program.final, EStateM.run, sendSignal]
  cases result with
  | ok u => exact h.post message
  | error e => exact h

theorem keeps_checkChannels : Program.Keeps (Pump.Extends inbox outbox) (checkChannels t) := by
  intro p h
  simp only [Program.final, EStateM.run, checkChannels]
  cases p.connectedAt with
  | none => exact h
  | some since =>
      dsimp only
      split_ifs
      · exact h
      · exact h

theorem keeps_announceReadiness :
    Program.Keeps (Pump.Extends inbox outbox) (announceReadiness config t) := by
  intro p h
  have hrun : Program.final (announceReadiness config t) p =
      if p.allOpen && !p.announcedReady then
        Program.final (sendSignal config t.readySend .channelsReady)
          { p with announcedReady := true }
      else p := by
    simp only [Program.final, EStateM.run, announceReadiness]
    split_ifs
    · rfl
    · rfl
  rw [hrun]
  split_ifs
  · exact keeps_sendSignal _ _ _ ⟨h.inbox, h.outbox⟩
  · exact h

theorem keeps_checkDeadline :
    Program.Keeps (Pump.Extends inbox outbox) (checkDeadline config t) := by
  intro p h
  simp only [Program.final, EStateM.run, checkDeadline]
  split_ifs
  all_goals exact h

theorem keeps_acceptOffer (sdp : String) :
    Program.Keeps (Pump.Extends inbox outbox) (acceptOffer t sdp) := by
  intro p h
  simp only [Program.final, EStateM.run, acceptOffer]
  cases t.acceptOffer with
  | ok answer => exact ⟨h.inbox, h.outbox⟩
  | error e => exact h

theorem keeps_acceptAnswer (sdp : String) :
    Program.Keeps (Pump.Extends inbox outbox) (acceptAnswer t sdp) := by
  intro p h
  simp only [Program.final, EStateM.run, acceptAnswer]
  cases t.acceptAnswer with
  | ok u => exact ⟨h.inbox, h.outbox⟩
  | error e => exact h

theorem keeps_onMessage (message : Message) :
    Program.Keeps (Pump.Extends inbox outbox) (onMessage config t message) := by
  cases message with
  | offer sdp =>
      unfold onMessage
      split_ifs
      · obtain ⟨_ | sdp⟩ := sdp
        · exact .pure _
        · exact .bind (keeps_acceptOffer sdp) fun answer => .bind (keeps_sendSignal _ _) fun _ =>
            .modify fun q hq => ⟨hq.inbox, hq.outbox⟩
      · exact .pure _
  | answer sdp =>
      unfold onMessage
      split_ifs
      · exact .pure _
      · obtain ⟨_ | sdp⟩ := sdp
        · exact .pure _
        · exact .bind (keeps_acceptAnswer sdp) fun _ => .modify fun q hq => ⟨hq.inbox, hq.outbox⟩
  | iceCandidate c => exact .modify fun q hq => hq.candidate c
  | channelsReady => exact .modify fun q hq => ⟨hq.inbox, hq.outbox⟩
  | peerGone => exact .throw _
  | _ => exact .pure _

theorem keeps_onEvent (event : TransportEvent) :
    Program.Keeps (Pump.Extends inbox outbox) (onEvent config t event) := by
  cases event with
  | localCandidate c => exact keeps_sendSignal _ _
  | channelOpen channel => exact .modify fun q hq => ⟨hq.inbox, hq.outbox⟩
  | frame channel frame => exact .modify fun q hq => ⟨hq.inbox, hq.outbox⟩
  | closed => exact .throw _
  | connectionState state =>
      cases state with
      | connected => exact .modify fun q hq => ⟨hq.inbox, hq.outbox⟩
      | failed => exact .throw _
      | _ => exact .pure _
  | _ => exact .pure _

theorem keeps_onTick : Program.Keeps (Pump.Extends inbox outbox) (onTick t) := by
  refine .modify ?_
  intro q hq
  split_ifs
  · exact ⟨hq.inbox, hq.outbox⟩
  · exact hq

/-- What was taken and sent after a turn: at most one envelope more was taken, the one of the arm,
and what was sent stays sent. -/
def Turn.Exchanges (t : Turn) (inbox outbox : List Envelope) (p : Pump) : Prop :=
  p.Extends inbox outbox ∨
    ∃ envelope, t.arm = .envelope (some envelope) ∧ p.Extends (inbox ++ [envelope]) outbox

theorem select_exchanges (h : p.Extends inbox outbox) :
    t.Exchanges inbox outbox (Program.final (select config t) p) := by
  unfold select
  cases harm : t.arm with
  | envelope envelope =>
      cases envelope with
      | none => exact .inl h
      | some envelope =>
          refine .inr ⟨envelope, harm, ?_⟩
          have htaken : (p.take envelope).Extends (inbox ++ [envelope]) outbox :=
            ⟨congrArg (· ++ [envelope]) h.inbox, h.outbox⟩
          exact keeps_onMessage envelope.msg _ htaken
  | event event =>
      cases event with
      | none => exact .inl h
      | some event => exact .inl (keeps_onEvent event p h)
  | tick => exact .inl (keeps_onTick p h)

theorem turn_exchanges : t.Exchanges p.inbox p.outbox (Program.final (turn config t) p) := by
  have hstart : p.Extends p.inbox p.outbox := ⟨rfl, List.prefix_rfl⟩
  have hhead : Program.Keeps (Pump.Extends p.inbox p.outbox) (do
      checkChannels t
      announceReadiness config t
      checkDeadline config t) :=
    .bind keeps_checkChannels fun _ => .bind keeps_announceReadiness fun _ => keeps_checkDeadline
  have hturn : turn config t = (do
      checkChannels t
      announceReadiness config t
      checkDeadline config t) >>= fun _ => select config t := by
    simp only [turn, bind_assoc]
  rw [hturn]
  rcases Program.final_bind _ (fun _ => select config t) p with ⟨e, -, h⟩ | ⟨a, -, h⟩
  · rw [h]
    exact .inl (hhead p hstart)
  · rw [h]
    exact select_exchanges (hhead p hstart)

end Keeps

end Turns

/-! ### The loop -/

/-- The loop, and what it returned once it did. -/
structure Negotiation where
  pump : Pump
  result : Option (Except NegotiateError (List (Channel × ControlFrame)))

namespace Negotiation

/-- The loop at its start; its exit condition does not hold there. -/
def start (config : PumpConfig) : Negotiation := ⟨.start config, none⟩

/-- One more turn, unless the loop has returned, and a look at the exit condition. -/
def step (config : PumpConfig) (n : Negotiation) (t : Turn) : Negotiation :=
  match n.result with
  | some _ => n
  | none =>
      match (turn config t).run n.pump with
      | .ok () p => ⟨p, if p.finished then some (.ok p.earlyFrames) else none⟩
      | .error e p => ⟨p, some (.error e)⟩

variable {config : PumpConfig} {n : Negotiation}

/-- A loop that has returned stays as it is. -/
theorem step_of_returned {r : Except NegotiateError (List (Channel × ControlFrame))}
    (h : n.result = some r) (t : Turn) : n.step config t = n := by
  rw [step, h]

/-- The loop as a turn that did not fail leaves it. -/
def next (p : Pump) : Negotiation :=
  ⟨p, if p.finished then some (.ok p.earlyFrames) else none⟩

variable (config) in
/-- **What one step can do.**  A loop that has not returned either takes a whole turn or fails. -/
theorem step_cases (h : n.result = none) (t : Turn) :
    (∃ p, t.Proceeds config n.pump ∧ Took config t (n.pump.announce config) p ∧
      n.step config t = next p) ∨
    ∃ e p, n.pump.CallsFrom p ∧ n.step config t = ⟨p, some (.error e)⟩ := by
  rw [step, h]
  cases hrun : (turn config t).run n.pump with
  | ok u p =>
      obtain ⟨hproceeds, hselect⟩ := run_turn_eq_ok_iff.1 hrun
      exact .inl ⟨p, hproceeds, took_of_select hselect, rfl⟩
  | error e p => exact .inr ⟨e, p, callsFrom_of_turn hrun, rfl⟩

variable (config) in
/-- What was taken and sent after a step. -/
theorem step_exchanges (n : Negotiation) (t : Turn) :
    t.Exchanges n.pump.inbox n.pump.outbox (n.step config t).pump := by
  cases hres : n.result with
  | some r =>
      rw [step_of_returned hres]
      exact .inl ⟨rfl, List.prefix_rfl⟩
  | none =>
      have hfinal : (n.step config t).pump = Program.final (turn config t) n.pump := by
        rw [step, hres, Program.final]
        cases (turn config t).run n.pump with
        | ok u p => rfl
        | error e p => rfl
      rw [hfinal]
      exact turn_exchanges

/-- A step whose checks pass and whose arm succeeds. -/
theorem step_of_select (h : n.result = none) {t : Turn} {p : Pump}
    (hproceeds : t.Proceeds config n.pump)
    (hselect : (select config t).run (n.pump.announce config) = .ok () p) :
    n.step config t = next p := by
  rw [step, h, run_turn_eq_ok_iff.2 ⟨hproceeds, hselect⟩]
  rfl

end Negotiation

/-- Pumps signaling and transport events until the peer connection is up. -/
def pump (config : PumpConfig) (ts : List Turn) : Negotiation :=
  Machine.run (Negotiation.step config) (.start config) ts

/-- A turn in which nothing goes wrong. -/
def Sample.turn (arm : Arm) (unopened : List Channel) : Turn where
  arm := arm
  elapsedAt := 0
  unopenedAtTimeout := []
  readySend := .ok ()
  deadlineAt := 0
  unopenedAtDeadline := []
  acceptOffer := .ok "answer"
  acceptAnswer := .ok ()
  armSend := .ok ()
  armAt := 0
  unopened := unopened

/-- An envelope of the session. -/
def Sample.envelope (message : Message) : Arm := .envelope (some ⟨some "sess_1", message⟩)

end Rda
