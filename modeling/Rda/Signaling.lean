/-
**Signaling messages and transport events.**

What reaches a peer comes from two sides: envelopes from the signaling server, and events from the
peer connection.  The parties only look at part of what a message carries; the fields they do not
read are left out, and the message kinds they ignore carry nothing.

Main definitions:

* `Rda.Message`, `Rda.Envelope` — the signaling protocol;
* `Rda.ConnectResponse.accept` — the host's acceptance;
* `Rda.TransportEvent`, `Rda.TransportError` — what a peer connection reports.
-/

import Rda.Control
import Rda.Grant

set_option relaxedAutoImplicit false
set_option autoImplicit false

namespace Rda

/-! ### Signaling -/

/-- How the controller intends to authenticate. -/
inductive AuthMode
  | pin | token
  deriving DecidableEq, Repr

/-- A controller asking to connect. -/
structure ConnectRequest where
  target : DeviceId
  fromPubkey : String
  fromLabel : Option String
  authMode : AuthMode
  token : Option String
  requestedCaps : List String
  deriving DecidableEq

/-- Outcome of a connection attempt. -/
inductive ConnectStatus
  | accepted | rejected | busy | offline | unauthorized | timeout
  deriving DecidableEq, Repr

/-- The host's answer to a connect request. -/
structure ConnectResponse where
  status : ConnectStatus
  sessionId : Option String
  grantedCaps : List String
  reason : Option String
  deriving DecidableEq

/-- Builds an acceptance, clamping the request against what the host permits. -/
def ConnectResponse.accept (sessionId : String) (requested : List String)
    (allowed : SessionCaps) : ConnectResponse where
  status := .accepted
  sessionId := some sessionId
  grantedCaps := ((SessionCaps.fromNames requested).clampTo allowed).toNames
  reason := none

/-- An SDP offer or answer; a sealed one has no plain text. -/
structure SdpPayload where
  sdp : Option String
  deriving DecidableEq

/-- Wraps a plaintext SDP. -/
def SdpPayload.plain (sdp : String) : SdpPayload := ⟨some sdp⟩

/-- A trickled ICE candidate. -/
structure IceCandidate where
  candidate : String
  sdpMid : Option String
  sdpMlineIndex : Option UInt16
  usernameFragment : Option String
  deriving DecidableEq

/-- STUN/TURN configuration for one session. -/
structure RelayCredentials where
  iceServers : List String
  ttlS : UInt32
  preferredOrder : List String
  deriving DecidableEq

/-- Every signaling message. -/
inductive Message
  | challenge
  | register
  | registerAck
  | heartbeat
  | heartbeatAck
  | connectRequest (request : ConnectRequest)
  | connectResponse (response : ConnectResponse)
  | offer (sdp : SdpPayload)
  | answer (sdp : SdpPayload)
  | iceCandidate (candidate : IceCandidate)
  | iceRestart
  | channelsReady
  | relayCredentials (credentials : RelayCredentials)
  | peerGone
  | error
  deriving DecidableEq

/-- The envelope every signaling message shares. -/
structure Envelope where
  sid : Option String
  msg : Message
  deriving DecidableEq

/-! ### The transport -/

/-- Why the transport failed. -/
inductive TransportError
  | webRtc (what : String)
  | decode (e : DecodeError)
  | channelClosed (channel : Channel)
  | malformedFrameBudget
  | certificate (what : String)
  deriving DecidableEq, Repr

/-- The state of the peer connection. -/
inductive PeerConnectionState
  | unspecified | new | connecting | connected | disconnected | failed | closed
  deriving DecidableEq, Repr

/-- An event of the peer connection. -/
inductive TransportEvent
  | localCandidate (candidate : IceCandidate)
  | gatheringComplete
  | connectionState (state : PeerConnectionState)
  | channelOpen (channel : Channel)
  | frame (channel : Channel) (frame : ControlFrame)
  | malformedFrame (channel : Channel) (error : DecodeError)
  | closed

end Rda
