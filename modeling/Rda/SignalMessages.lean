/-
**What passes through the signaling server.**

`Rda.Signaling` keeps of a message what the two peers read.  The server reads other parts: it checks
registrations, answers with errors that name the message they answer, and passes the rest on without
looking inside.  What the server never reads, protocol versions and time stamps among it, is left
out here.

Main definitions:

* `Rda.Signal.Message`, `Rda.Signal.Envelope` — the messages, with their bodies;
* `Rda.Signal.Register.signingInput` — the bytes a registration signs;
* `Rda.ConnectResponse.refuse` — a host's refusal;
* `Rda.Signal.Message.IsRouted` — the messages that belong to one session.
-/

import Rda.Identity
import Rda.Signaling

set_option relaxedAutoImplicit false
set_option autoImplicit false

namespace Rda

/-- Builds a refusal. -/
def ConnectResponse.refuse (status : ConnectStatus) (reason : Option String) :
    ConnectResponse where
  status := status
  sessionId := none
  grantedCaps := []
  reason := reason

namespace Signal

/-! ### Registration -/

/-- Domain separator for the registration challenge signature. -/
def REGISTER_DOMAIN : List UInt8 := asBytes "RDA-v1-register"

/-- Length of the server-issued registration nonce, in bytes. -/
def NONCE_LEN : ℕ := 16

/-- The role a device is registering as. -/
inductive Role
  | host | controller | both
  deriving DecidableEq, Repr

/-- Whether a device in this role can be dialled. -/
def Role.isDialable : Role → Bool
  | .host | .both => true
  | .controller => false

/-- The role as it is signed. -/
def Role.asStr : Role → String
  | .host => "host"
  | .controller => "controller"
  | .both => "both"

/-- Median round trip times by the code of the relay site. -/
abbrev PopRtt : Type := List (String × UInt32)

/-- Client registration. -/
structure Register where
  deviceId : DeviceId
  pubkey : String
  sig : String
  role : Role
  popRtt : PopRtt
  deriving DecidableEq

/-- The byte string the signature of a registration covers. -/
def Register.signingInput (nonce : List UInt8) (deviceId : DeviceId) (role : Role) : List UInt8 :=
  REGISTER_DOMAIN ++ [0x00] ++ nonce ++ asBytes deviceId.asStr ++ asBytes role.asStr

/-! ### Error codes -/

def BAD_REQUEST : UInt16 := 4000
def UNSUPPORTED_VERSION : UInt16 := 4001
def MESSAGE_TOO_LARGE : UInt16 := 4002
def NOT_REGISTERED : UInt16 := 4100
def BAD_SIGNATURE : UInt16 := 4101
def BAD_NONCE : UInt16 := 4102
def UNKNOWN_TARGET : UInt16 := 4103
def CAPABILITY_DENIED : UInt16 := 4300
def RATE_LIMITED : UInt16 := 4301

/-- An error response. -/
structure ErrorPayload where
  code : UInt16
  message : String
  inReplyTo : Option String
  retryAfterS : Option UInt32
  deriving DecidableEq

/-! ### Messages -/

/-- Every signaling message. -/
inductive Message
  | challenge (nonce : String) (serverTime : ℕ)
  | register (registration : Register)
  | registerAck (deviceId : DeviceId) (heartbeatIntervalS sessionTtlS : UInt32)
  | heartbeat
  | heartbeatAck
  | connectRequest (request : ConnectRequest)
  | connectResponse (response : ConnectResponse)
  | offer (sdp : SdpPayload)
  | answer (sdp : SdpPayload)
  | iceCandidate (candidate : IceCandidate)
  | iceRestart
  | channelsReady
  | relayCredentials (credentials : RelayCredentials)
  | peerGone (reason : String)
  | error (payload : ErrorPayload)
  deriving DecidableEq

/-- The envelope every signaling message shares. -/
structure Envelope where
  id : String
  sid : Option String
  msg : Message
  deriving DecidableEq

/-- The messages that belong to one session: its description, its candidates, its answers and its
end. -/
def Message.IsRouted : Message → Prop
  | .offer _ | .answer _ | .iceCandidate _ | .iceRestart | .channelsReady | .peerGone _
  | .connectResponse _ => True
  | _ => False

instance : DecidablePred Message.IsRouted := by
  intro msg
  cases msg <;> unfold Message.IsRouted <;> infer_instance

/-- The session a client's envelope names: a connect response does so in its body. -/
def Envelope.names (e : Envelope) : Option String :=
  match e.msg with
  | .connectResponse response => response.sessionId
  | _ => e.sid

/-! ### What a socket yields -/

/-- Why an envelope could not be read. -/
inductive SignalingError
  | tooLarge (size : ℕ)
  | badVersion (v : UInt8)
  | json (text : String)
  deriving DecidableEq

/-- The text of a signaling error. -/
def SignalingError.text : SignalingError → String
  | .tooLarge size => "signaling message of " ++ toString size ++ " bytes exceeds the size cap"
  | .badVersion v => "unsupported signaling protocol version " ++ toString v
  | .json text => "malformed signaling message: " ++ text

/-- The code a client is sent for it. -/
def SignalingError.code : SignalingError → UInt16
  | .tooLarge _ => MESSAGE_TOO_LARGE
  | .badVersion _ => UNSUPPORTED_VERSION
  | .json _ => BAD_REQUEST

/-- The next item of a socket's stream. -/
inductive Frame
  /-- A text frame, and what parsing it gives. -/
  | text (parsed : Except SignalingError Envelope)
  | binary
  /-- A ping or a pong. -/
  | keepalive
  /-- A close frame, a socket error or the end of the stream. -/
  | closed

end Signal

end Rda
