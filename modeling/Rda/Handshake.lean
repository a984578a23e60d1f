/-
**The PIN handshake over the control channel.**

Three round trips: the two hellos exchange identity keys, nonces and fingerprints; the SPAKE2
messages and the confirmation tags prove that both ends know the PIN; and the controller signs the
binding before the host announces that the session is ready.  Both ends are straight-line programs
over the transport (`Rda.Link`) that fail at the first step that does not check out.

What the world decides is in the environment of a run (`Rda.HandshakeEnv`): the certificates, the
nonce and scalar that are drawn, and whether each send succeeds.  What arrives is in the link.  The
link also notes which signatures the program has verified, which the code does not; it is how the
statements about a run can speak of it.

Main definitions:

* `Rda.Arrival`, `Rda.Link`, `Rda.HandshakeEnv` — the surroundings of a run;
* `Rda.nextFrame`, `Rda.encodeBody`, `Rda.decodeBody` — frames in and out;
* `Rda.authenticateAsController`, `Rda.authenticateAsHost` — the two ends.

Main results:

* `Rda.controlFrames_of_awaitControl` — a step takes the next control frame, and no other;
* `Rda.run_receive_bind_eq_ok_iff`, `Rda.run_sendBody_bind_eq_ok_iff`,
  `Rda.run_verifyBinding_bind_eq_ok_iff` — when a step succeeds, and what it does to the link.
-/

import Rda.HostSession
import Rda.Program
import Rda.Signaling

set_option relaxedAutoImplicit false
set_option autoImplicit false

namespace Rda

/-! ### The surroundings -/

/-- Why the handshake failed. -/
inductive AuthError
  | transport (e : TransportError)
  | malformed (what : String)
  | unexpected
  | badPin
  | bindingFailed
  | noCertificate
  | timedOut
  | closed
  deriving DecidableEq, Repr

/-- What waiting for the next event can end with. -/
inductive Arrival
  | event (e : TransportEvent)
  /-- The event stream has ended. -/
  | ended
  /-- The step's time is up. -/
  | elapsed

/-- The transport as a handshake sees it: what will arrive, what was sent on the control channel,
and which byte strings were verified under which keys. -/
structure Link where
  arrivals : List Arrival
  sent : List (List UInt8)
  verified : List (Bytes 32 × List UInt8)

/-- A link on which nothing has happened yet. -/
def Link.start (arrivals : List Arrival) : Link := ⟨arrivals, [], []⟩

/-- What the world decides about one end of a handshake. -/
structure HandshakeEnv where
  localFingerprint : Option (Bytes 32)
  remoteFingerprint : Option (Bytes 32)
  nonce : Nonce
  scalar : ℕ
  /-- The result of the `n`-th send. -/
  sendResult : ℕ → Except TransportError Unit

/-- A handshake program. -/
abbrev Handshake (α : Type) : Type := EStateM AuthError Link α

/-- What a completed handshake produced. -/
structure Authenticated (P : Primitives) where
  peer : PublicIdentity P
  caps : SessionCaps
  sas : List String

variable {P : Primitives}

/-! ### Frames in and out -/

/-- A handshake body inside a control frame. -/
def encodeBody {α : Type} (cbor : Cbor α) (kind : MessageType) (body : α) (sequence : UInt16) :
    Except AuthError (List UInt8) :=
  match cbor.intoWriter body with
  | .ok bytes => .ok (ControlFrame.new (.unknown kind.code bytes) sequence 0).encode
  | .error e => .error (.malformed e)

/-- The body of the control frame a step expects. -/
def decodeBody {α : Type} (cbor : Cbor α) (frame : ControlFrame) (expect : MessageType) :
    Except AuthError α :=
  match frame.payload with
  | .unknown msgType body =>
      if msgType ≠ expect.code then .error .unexpected
      else
        match cbor.fromReader body with
        | .ok a => .ok a
        | .error e => .error (.malformed e)
  | _ => .error .unexpected

/-- Sends bytes on the control channel. -/
def sendBytes (env : HandshakeEnv) (bytes : List UInt8) : Handshake Unit := fun link =>
  match env.sendResult link.sent.length with
  | .ok () => .ok () { link with sent := link.sent ++ [bytes] }
  | .error e => .error (.transport e) link

/-- Encodes a body and sends it. -/
def sendBody {α : Type} (env : HandshakeEnv) (cbor : Cbor α) (kind : MessageType) (body : α)
    (sequence : UInt16) : Handshake Unit := do
  let bytes ← Program.lift (encodeBody cbor kind body sequence)
  sendBytes env bytes

/-- The next control frame among what arrives, and what arrives after it.  Everything else is
skipped, except the end of the session and the end of the step's time. -/
def awaitControl : List Arrival → Except AuthError ControlFrame × List Arrival
  | [] => (.error .timedOut, [])
  | .event (.frame .control frame) :: rest => (.ok frame, rest)
  | .event .closed :: rest => (.error .closed, rest)
  | .event _ :: rest => awaitControl rest
  | .ended :: rest => (.error .closed, rest)
  | .elapsed :: rest => (.error .timedOut, rest)

/-- Waits for the next control-channel frame. -/
def nextFrame : Handshake ControlFrame := fun link =>
  match awaitControl link.arrivals with
  | (.ok frame, rest) => .ok frame { link with arrivals := rest }
  | (.error e, rest) => .error e { link with arrivals := rest }

/-- Waits for a message of the given kind. -/
def receive {α : Type} (cbor : Cbor α) (expect : MessageType) : Handshake α := do
  let frame ← nextFrame
  Program.lift (decodeBody cbor frame expect)

/-- Reads both fingerprints. -/
def fingerprints (env : HandshakeEnv) : Except AuthError (Fingerprint × Fingerprint) :=
  match env.localFingerprint, env.remoteFingerprint with
  | some localFp, some remoteFp => .ok (⟨localFp⟩, ⟨remoteFp⟩)
  | _, _ => .error .noCertificate

def parseIdentity (P : Primitives) (bytes : List UInt8) : Except AuthError (PublicIdentity P) :=
  match Bytes.tryFrom 32 bytes with
  | none => .error (.malformed "identity key is not 32 bytes")
  | some array =>
      (PublicIdentity.fromBytes P array).mapError fun _ => .malformed "malformed identity key"

def parseNonce (bytes : List UInt8) : Except AuthError Nonce :=
  match Bytes.tryFrom 32 bytes with
  | some nonce => .ok nonce
  | none => .error (.malformed "nonce is not 32 bytes")

def toArray64 (bytes : List UInt8) : Except AuthError (Bytes 64) :=
  match Bytes.tryFrom 64 bytes with
  | some signature => .ok signature
  | none => .error (.malformed "signature is not 64 bytes")

/-- Whether a received tag has the right length and equals the expected one. -/
def tagMatches (expected : Bytes 32) (tag : List UInt8) : Bool :=
  match Bytes.tryFrom 32 tag with
  | some received => confirmMatches expected received
  | none => false

/-- The host's PAKE answer; every refusal of the PIN looks the same to the peer. -/
def pinRespond (P : Primitives) (env : HandshakeEnv) (sessionId : String) (pin : SessionPin)
    (message : List UInt8) (nowMs : ℕ) : Except AuthError (List UInt8 × Bytes 32) :=
  ((PinVerifier.mk sessionId pin).respond P env.scalar message nowMs).1.mapError fun _ => .badPin

/-- Verifies the peer's binding, noting what was verified. -/
def verifyBinding (binding : BindingVerifier) (proof : BindingProof P) : Handshake Unit :=
  fun link =>
    match binding.verify proof none with
    | .ok () =>
        .ok () { link with verified := link.verified ++
          [(proof.identity.key, binding.input binding.localRole.peer)] }
    | .error _ => .error .bindingFailed link

/-! ### The two ends -/

/-- The hello of one end. -/
def helloBody (P : Primitives) (identity : Identity) (nonce : Nonce) (localFp : Fingerprint) :
    HelloBody :=
  ⟨(identity.toPublic P).toBytes.toList, nonce.toList, localFp.bytes.toList⟩

/-- Runs the controller side of the handshake. -/
def authenticateAsController (P : Primitives) (env : HandshakeEnv) (sessionId : String)
    (identity : Identity) (pin : String) : Handshake (Authenticated P) := do
  let fps ← Program.lift (fingerprints env)
  -- 1. Hello
  sendBody env P.helloCbor .hello (helloBody P identity env.nonce fps.1) 0
  -- 2. HelloAck
  let ack ← receive P.helloCbor .helloAck
  let hostIdentity ← Program.lift (parseIdentity P ack.pubkey)
  let hostNonce ← Program.lift (parseNonce ack.nonce)
  Program.check (ack.fingerprint = fps.2.bytes.toList) .bindingFailed
  let binding := BindingVerifier.new sessionId .controller env.nonce hostNonce fps.1 fps.2
  -- 3. SPAKE2
  let auth ← Program.lift ((PinAuth.start P env.scalar sessionId pin).mapError fun _ => .badPin)
  sendBody env P.pakeCbor .authRequest ⟨auth.message P, none⟩ 1
  -- 4. the host's SPAKE2 message and its confirmation tag
  let response ← receive P.pakeCbor .authResponse
  let key ← Program.lift ((auth.finish P response.message).mapError fun _ => .badPin)
  let hostTag ← Program.lift (match response.confirm with
    | some tag => .ok tag
    | none => .error .unexpected)
  Program.check (tagMatches (confirm P key "host" sessionId) hostTag = true) .badPin
  -- 5. our confirmation plus the binding signature
  sendBody env P.confirmCbor .authConfirm
    ⟨(confirm P key "controller" sessionId).toList, (binding.prove P identity).signature.toList⟩ 2
  -- 6. the grant
  let ready ← receive P.readyCbor .sessionReady
  return ⟨hostIdentity, SessionCaps.fromNames ready.caps,
    shortAuthenticationString P (binding.transcriptHash P) sessionId⟩

/-- The host side up to the last check: everything that gates the announcement of the session. -/
def verifyController (P : Primitives) (env : HandshakeEnv) (sessionId : String)
    (identity : Identity) (pin : SessionPin) (nowMs : ℕ) :
    Handshake (PublicIdentity P × BindingVerifier) := do
  let fps ← Program.lift (fingerprints env)
  -- 1. Hello
  let hello ← receive P.helloCbor .hello
  let peerIdentity ← Program.lift (parseIdentity P hello.pubkey)
  let peerNonce ← Program.lift (parseNonce hello.nonce)
  Program.check (hello.fingerprint = fps.2.bytes.toList) .bindingFailed
  -- 2. HelloAck
  sendBody env P.helloCbor .helloAck (helloBody P identity env.nonce fps.1) 0
  let binding := BindingVerifier.new sessionId .host env.nonce peerNonce fps.1 fps.2
  -- 3. the controller's SPAKE2 message
  let request ← receive P.pakeCbor .authRequest
  let answer ← Program.lift (pinRespond P env sessionId pin request.message nowMs)
  -- 4. our SPAKE2 message and confirmation
  sendBody env P.pakeCbor .authResponse
    ⟨answer.1, some (confirm P answer.2 "host" sessionId).toList⟩ 1
  -- 5. the controller's confirmation and binding signature
  let confirmation ← receive P.confirmCbor .authConfirm
  Program.check (tagMatches (confirm P answer.2 "controller" sessionId) confirmation.confirm = true)
    .badPin
  let signature ← Program.lift (toArray64 confirmation.signature)
  verifyBinding binding ⟨.controller, peerIdentity, signature⟩
  return (peerIdentity, binding)

/-- Announces the session: the host's last message. -/
def announceReady (P : Primitives) (env : HandshakeEnv) (sessionId : String)
    (granted : SessionCaps) (peer : PublicIdentity P × BindingVerifier) :
    Handshake (Authenticated P) := do
  let sas := shortAuthenticationString P (peer.2.transcriptHash P) sessionId
  sendBody env P.readyCbor .sessionReady ⟨granted.toNames, sas⟩ 2
  return ⟨peer.1, granted, sas⟩

/-- Runs the host side of the handshake. -/
def authenticateAsHost (P : Primitives) (env : HandshakeEnv) (sessionId : String)
    (identity : Identity) (pin : SessionPin) (granted : SessionCaps) (nowMs : ℕ) :
    Handshake (Authenticated P) := do
  let peer ← verifyController P env sessionId identity pin nowMs
  announceReady P env sessionId granted peer

/-! ### What a step does when it succeeds -/

/-- The control frames among what arrives, in order. -/
def controlFrames (arrivals : List Arrival) : List ControlFrame :=
  arrivals.filterMap fun
    | .event (.frame .control frame) => some frame
    | _ => none

theorem controlFrames_of_awaitControl {arrivals rest : List Arrival} {frame : ControlFrame}
    (h : awaitControl arrivals = (.ok frame, rest)) :
    controlFrames arrivals = frame :: controlFrames rest := by
  fun_induction awaitControl arrivals with
  | case1 => simp at h
  | case2 f rest =>
      simp only [Prod.mk.injEq, Except.ok.injEq] at h
      rw [← h.1, ← h.2]
      rfl
  | case3 => simp at h
  | case4 e rest hne hne' ih =>
      have hskip : controlFrames (.event e :: rest) = controlFrames rest := by
        cases e with
        | frame channel f =>
            cases channel with
            | control => exact absurd rfl (hne f)
            | _ => rfl
        | _ => rfl
      rw [hskip]
      exact ih h
  | case5 => simp at h
  | case6 => simp at h

/-- Three steps take the first three control frames. -/
theorem controlFrames_of_three {arrivals r₁ r₂ r₃ : List Arrival} {f₁ f₂ f₃ : ControlFrame}
    (h₁ : awaitControl arrivals = (.ok f₁, r₁)) (h₂ : awaitControl r₁ = (.ok f₂, r₂))
    (h₃ : awaitControl r₂ = (.ok f₃, r₃)) :
    controlFrames arrivals = f₁ :: f₂ :: f₃ :: controlFrames r₃ := by
  rw [controlFrames_of_awaitControl h₁, controlFrames_of_awaitControl h₂,
    controlFrames_of_awaitControl h₃]

theorem decodeBody_eq_ok_iff {α : Type} {cbor : Cbor α} {frame : ControlFrame}
    {expect : MessageType} {a : α} :
    decodeBody cbor frame expect = .ok a ↔
      ∃ body, frame.payload = .unknown expect.code body ∧ cbor.fromReader body = .ok a := by
  unfold decodeBody
  constructor
  · intro h
    split at h
    · rename_i msgType body hp
      split_ifs at h with hty
      · cases hr : cbor.fromReader body with
        | error e => rw [hr] at h; cases h
        | ok b =>
            rw [hr] at h
            cases h
            exact ⟨body, by rw [hp, not_not.1 hty], hr⟩
    · cases h
  · rintro ⟨body, hp, hr⟩
    rw [hp]
    simp [hr]

/-- The frame a handshake body travels in. -/
def bodyFrame (kind : MessageType) (bytes : List UInt8) (sequence : UInt16) : ControlFrame :=
  ControlFrame.new (.unknown kind.code bytes) sequence 0

theorem encodeBody_eq_ok_iff {α : Type} {cbor : Cbor α} {kind : MessageType} {body : α}
    {sequence : UInt16} {bytes : List UInt8} :
    encodeBody cbor kind body sequence = .ok bytes ↔
      ∃ written, cbor.intoWriter body = .ok written ∧
        bytes = (bodyFrame kind written sequence).encode := by
  unfold encodeBody
  cases cbor.intoWriter body with
  | error e => simp
  | ok written => simp [bodyFrame, eq_comm]

/-- A frame with a kept type survives the wire. -/
theorem decode_bodyFrame {kind : MessageType} (hkind : kind.isKept = true) (bytes : List UInt8)
    (sequence : UInt16) :
    ControlFrame.decode (bodyFrame kind bytes sequence).encode
      = .ok (bodyFrame kind bytes sequence) := by
  have hflags : (0 : UInt8) ≤ 0x0F := by decide
  refine ControlFrame.decode_encode ⟨rfl, hflags, rfl, ?_⟩
  simp [bodyFrame, ControlFrame.new, Payload.WellFormed, MessageType.fromU8_code, hkind]

/-- What a body is written as; nothing if it cannot be written. -/
def Cbor.written {α : Type} (cbor : Cbor α) (a : α) : List UInt8 :=
  match cbor.intoWriter a with
  | .ok bytes => bytes
  | .error _ => []

/-- A lawful body goes out as a frame that decodes to that body. -/
theorem Cbor.Lawful.encodeBody_written {α : Type} {cbor : Cbor α} (h : cbor.Lawful)
    (kind : MessageType) (a : α) (sequence : UInt16) :
    encodeBody cbor kind a sequence = .ok (bodyFrame kind (cbor.written a) sequence).encode ∧
      decodeBody cbor (bodyFrame kind (cbor.written a) sequence) kind = .ok a := by
  obtain ⟨bytes, hwrite, hread⟩ := h a
  have hwritten : cbor.written a = bytes := by rw [Cbor.written, hwrite]
  rw [hwritten]
  exact ⟨encodeBody_eq_ok_iff.2 ⟨bytes, hwrite, rfl⟩, decodeBody_eq_ok_iff.2 ⟨bytes, rfl, hread⟩⟩

section Steps

variable {α β : Type} {cbor : Cbor α} {kind : MessageType} {link link' : Link} {b : β}

/-- A receive takes the next control frame off the link and decodes it. -/
theorem run_receive_bind_eq_ok_iff {f : α → Handshake β} :
    (receive cbor kind >>= f).run link = .ok b link' ↔
      ∃ frame rest, awaitControl link.arrivals = (.ok frame, rest) ∧
        ∃ a, decodeBody cbor frame kind = .ok a ∧
          (f a).run { link with arrivals := rest } = .ok b link' := by
  have hnext : nextFrame.run link = match awaitControl link.arrivals with
      | (.ok frame, rest) => .ok frame { link with arrivals := rest }
      | (.error e, rest) => .error e { link with arrivals := rest } := rfl
  rw [receive, bind_assoc, Program.run_bind_eq_ok_iff, hnext]
  rcases awaitControl link.arrivals with ⟨e | frame, rest⟩
  · simp
  · constructor
    · rintro ⟨frame', link₁, hframe, hrun⟩
      cases hframe
      exact ⟨frame, rest, rfl, Program.run_lift_bind_eq_ok_iff.1 hrun⟩
    · rintro ⟨frame', rest', hframe, hrun⟩
      cases hframe
      exact ⟨frame, _, rfl, Program.run_lift_bind_eq_ok_iff.2 hrun⟩

/-- A send encodes its body and appends it to what was sent. -/
theorem run_sendBody_bind_eq_ok_iff {env : HandshakeEnv} {body : α} {sequence : UInt16}
    {f : Unit → Handshake β} :
    (sendBody env cbor kind body sequence >>= f).run link = .ok b link' ↔
      ∃ bytes, encodeBody cbor kind body sequence = .ok bytes ∧
        env.sendResult link.sent.length = .ok () ∧
        (f ()).run { link with sent := link.sent ++ [bytes] } = .ok b link' := by
  have hsend : ∀ bytes, (sendBytes env bytes).run link = match env.sendResult link.sent.length with
      | .ok () => .ok () { link with sent := link.sent ++ [bytes] }
      | .error e => .error (.transport e) link := fun _ => rfl
  rw [sendBody, bind_assoc, Program.run_lift_bind_eq_ok_iff]
  refine exists_congr fun bytes => and_congr_right fun _ => ?_
  rw [Program.run_bind_eq_ok_iff, hsend]
  cases env.sendResult link.sent.length with
  | error e => simp
  | ok u => simp [Unique.exists_iff]

/-- A binding check leaves the link as it is, but for the note of what was verified. -/
theorem run_verifyBinding_bind_eq_ok_iff {binding : BindingVerifier} {proof : BindingProof P}
    {f : Unit → Handshake β} :
    (verifyBinding binding proof >>= f).run link = .ok b link' ↔
      binding.verify proof none = .ok () ∧
        (f ()).run { link with verified := link.verified ++
          [(proof.identity.key, binding.input binding.localRole.peer)] } = .ok b link' := by
  rw [Program.run_bind_eq_ok_iff]
  simp only [EStateM.run, verifyBinding]
  cases binding.verify proof none with
  | error e => simp
  | ok u => simp [Unique.exists_iff]

end Steps

theorem fingerprints_eq_ok_iff {env : HandshakeEnv} {fps : Fingerprint × Fingerprint} :
    fingerprints env = .ok fps ↔
      env.localFingerprint = some fps.1.bytes ∧ env.remoteFingerprint = some fps.2.bytes := by
  obtain ⟨⟨fpLocal⟩, ⟨fpRemote⟩⟩ := fps
  unfold fingerprints
  cases env.localFingerprint with
  | none => simp
  | some l =>
      cases env.remoteFingerprint with
      | none => simp
      | some r => simp

theorem parseIdentity_eq_ok_iff {bytes : List UInt8} {i : PublicIdentity P} :
    parseIdentity P bytes = .ok i ↔ bytes = i.key.toList := by
  unfold parseIdentity
  constructor
  · intro h
    split at h
    · cases h
    · rename_i array hb
      rw [Bytes.tryFrom_eq_some] at hb
      rw [hb, PublicIdentity.fromBytes_eq_ok.1 (mapError_eq_ok_iff.1 h)]
  · rintro rfl
    rw [Bytes.tryFrom_toList]
    exact mapError_eq_ok_iff.2 (PublicIdentity.fromBytes_eq_ok.2 rfl)

theorem parseNonce_eq_ok_iff {bytes : List UInt8} {nonce : Nonce} :
    parseNonce bytes = .ok nonce ↔ bytes = nonce.toList := by
  rw [← Bytes.tryFrom_eq_some, parseNonce]
  cases Bytes.tryFrom 32 bytes <;> simp

theorem toArray64_eq_ok_iff {bytes : List UInt8} {signature : Bytes 64} :
    toArray64 bytes = .ok signature ↔ bytes = signature.toList := by
  rw [← Bytes.tryFrom_eq_some, toArray64]
  cases Bytes.tryFrom 64 bytes <;> simp

theorem tagMatches_iff {expected : Bytes 32} {tag : List UInt8} :
    tagMatches expected tag = true ↔ tag = expected.toList := by
  rw [← Bytes.tryFrom_eq_some, tagMatches]
  cases Bytes.tryFrom 32 tag with
  | none => simp
  | some received => exact confirmMatches_iff.trans (by rw [Option.some.injEq, eq_comm])

end Rda
