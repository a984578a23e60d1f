/-
**Dialling a host.**

The controller asks to be connected, waits until it has relay credentials and a session id, makes an
offer and pumps until the peer connection is up.  The wait takes the session id from the first
envelope that has one, and the credentials from any envelope.

The function is a machine: what it has not yet returned from is its state, and what the world
decides, an envelope during the wait or a turn of the pump, is its input.  The host's side enters
the same machine at the pump.

Main definitions:

* `Rda.DialWait`, `Rda.DialWait.take` — the wait for credentials and a session id;
* `Rda.Dialling`, `Rda.Dialling.step` — dialling, up to the end of the pump.

Main results:

* `Rda.Dialling.sound_step` — the wait goes on only while something is missing.
-/

import Rda.Negotiate

set_option relaxedAutoImplicit false
set_option autoImplicit false

namespace Rda

/-- What the world decides about a call besides what arrives. -/
structure DialWorld where
  /-- The result of sending the connect request. -/
  requestSend : Except String Unit
  /-- When the negotiation has to be over. -/
  deadline : ℕ
  /-- Whether a peer connection can be built from the credentials. -/
  sessionNew : RelayCredentials → Except TransportError Unit
  createOffer : Except TransportError String
  /-- The result of sending the offer. -/
  offerSend : Except String Unit

/-- The variables of the wait. -/
structure DialWait where
  credentials : Option RelayCredentials := none
  sessionId : Option String := none
  deriving DecidableEq

namespace DialWait

/-- The wait goes on. -/
def Open (w : DialWait) : Prop := w.credentials = none ∨ w.sessionId = none

/-- Takes an envelope: its session id, if none is known yet, and what its message brings. -/
def take (w : DialWait) (envelope : Envelope) : Except NegotiateError DialWait :=
  let w := { w with sessionId := w.sessionId.or envelope.sid }
  match envelope.msg with
  | .relayCredentials c => .ok { w with credentials := some c }
  | .connectResponse r =>
      if r.status ≠ .accepted then .error (.refused r.status)
      else .ok { w with sessionId := r.sessionId.or w.sessionId }
  | _ => .ok w

end DialWait

/-- Dialling: waiting, pumping, or over before the pump. -/
inductive Dialling
  | waiting (w : DialWait)
  | pumping (config : PumpConfig) (n : Negotiation)
  | failed (e : NegotiateError)

namespace Dialling

/-- What the world decides in one round of the wait or one turn of the pump. -/
inductive Input
  | envelope (envelope : Envelope)
  /-- The signaling connection has closed. -/
  | closed
  /-- The deadline has passed. -/
  | timedOut
  | turn (t : Turn)

/-- Sends the connect request. -/
def connectToHost (world : DialWorld) : Dialling :=
  match world.requestSend with
  | .error e => .failed (.signaling e)
  | .ok () => .waiting {}

/-- Builds the peer connection and makes the offer. -/
def offer (world : DialWorld) (sessionId : String) (credentials : RelayCredentials) : Dialling :=
  match world.sessionNew credentials, world.createOffer, world.offerSend with
  | .error e, _, _ => .failed (.transport e)
  | .ok (), .error e, _ => .failed (.transport e)
  | .ok (), .ok _, .error e => .failed (.signaling e)
  | .ok (), .ok sdp, .ok () =>
      .pumping ⟨sessionId, world.deadline, false⟩
        ⟨(Pump.start ⟨sessionId, world.deadline, false⟩).post ⟨sessionId, world.deadline, false⟩
          (.offer (.plain sdp)), none⟩

/-- The head of the wait loop. -/
def resume (world : DialWorld) (w : DialWait) : Dialling :=
  match w.sessionId, w.credentials with
  | some sessionId, some credentials => offer world sessionId credentials
  | _, _ => .waiting w

/-- One round of the wait, or one turn of the pump. -/
def step (world : DialWorld) : Dialling → Input → Dialling
  | .waiting w, .envelope envelope =>
      match w.take envelope with
      | .ok w' => resume world w'
      | .error e => .failed e
  | .waiting _, .closed => .failed .closed
  | .waiting _, .timedOut => .failed .timedOut
  | .pumping config n, .turn t => .pumping config (n.step config t)
  | d, _ => d

/-- The wait goes on only while something is missing. -/
def Sound : Dialling → Prop
  | .waiting w => w.Open
  | _ => True

theorem offer_ne_waiting (world : DialWorld) (sessionId : String) (credentials : RelayCredentials)
    (w : DialWait) : offer world sessionId credentials ≠ .waiting w := by
  rw [offer]
  split <;> exact Dialling.noConfusion

theorem resume_of_open {world : DialWorld} {w : DialWait} (h : w.Open) :
    resume world w = .waiting w := by
  rw [resume]
  split
  · next hid hcred =>
      rcases h with h | h
      · rw [hcred] at h
        cases h
      · rw [hid] at h
        cases h
  · rfl

theorem eq_of_resume_eq_waiting {world : DialWorld} {w w' : DialWait}
    (h : resume world w = .waiting w') : w = w' ∧ w.Open := by
  rw [resume] at h
  split at h
  · exact absurd h (offer_ne_waiting _ _ _ _)
  · next hnot =>
      cases h
      refine ⟨rfl, ?_⟩
      cases hcred : w.credentials with
      | none => exact .inl hcred
      | some c =>
          cases hid : w.sessionId with
          | none => exact .inr hid
          | some sid => exact absurd hcred (hnot sid c hid)

theorem sound_step (world : DialWorld) {d : Dialling} (h : d.Sound) (i : Input) :
    (d.step world i).Sound := by
  cases d with
  | waiting w =>
      cases i with
      | envelope envelope =>
          rw [step]
          cases w.take envelope with
          | error e => trivial
          | ok w' =>
              change (resume world w').Sound
              cases hresume : resume world w' with
              | waiting w'' =>
                  obtain ⟨rfl, hopen⟩ := eq_of_resume_eq_waiting hresume
                  exact hopen
              | pumping config n => trivial
              | failed e => trivial
      | closed | timedOut => trivial
      | turn t => exact h
  | pumping config n => cases i <;> trivial
  | failed e => cases i <;> trivial

theorem sound_connectToHost (world : DialWorld) : (connectToHost world).Sound := by
  rw [connectToHost]
  split
  · trivial
  · exact .inl rfl

end Dialling

end Rda
