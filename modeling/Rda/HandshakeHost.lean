/-
**What the host has checked before it announces a session.**

The host's half of the handshake is cut at its last check: `Rda.verifyController` is everything
before the announcement, `Rda.announceReady` is the announcement.  The first part sends nothing
that is a `SessionReady` and succeeds only on a transcript that passes every check; so if a
`SessionReady` was sent, or the handshake returned, there was such a transcript.

Main definitions:

* `Rda.HostTranscript`, `Rda.HostTranscript.Accepted` — what the host took from the three frames,
  and the checks it passed;
* `Rda.IsSessionReady`, `Rda.NoReady` — the announcement, and its absence.

Main results:

* `Rda.verifyController_eq_ok_iff`, `Rda.authenticateAsHost_eq_ok_iff` — when the host's half
  succeeds;
* `Rda.keeps_verifyController` — the verification announces nothing;
* `Rda.hostAccepts_of_ok`, `Rda.hostAccepts_of_announced` — **no success and no announcement
  without an accepted transcript**.
-/

import Rda.Handshake

set_option relaxedAutoImplicit false
set_option autoImplicit false

namespace Rda

variable {P : Primitives}

/-! ### Transcripts -/

/-- What the host takes from the certificates and from the three messages it receives. -/
structure HostTranscript (P : Primitives) where
  fpLocal : Bytes 32
  fpRemote : Bytes 32
  hello : HelloBody
  peer : PublicIdentity P
  peerNonce : Nonce
  request : PakeBody
  key : Bytes 32
  confirmation : ConfirmBody
  signature : Bytes 64

/-- The host's session context for a transcript. -/
def HostTranscript.binding (t : HostTranscript P) (env : HandshakeEnv) (sessionId : String) :
    BindingVerifier :=
  .new sessionId .host env.nonce t.peerNonce ⟨t.fpLocal⟩ ⟨t.fpRemote⟩

/-- What the host returns for a transcript. -/
def HostTranscript.authenticated (t : HostTranscript P) (env : HandshakeEnv) (sessionId : String)
    (granted : SessionCaps) : Authenticated P :=
  ⟨t.peer, granted,
    shortAuthenticationString P ((t.binding env sessionId).transcriptHash P) sessionId⟩

/-- The checks of the host's half, over the three frames it consumed. -/
structure HostTranscript.Accepted (t : HostTranscript P) (env : HandshakeEnv) (sessionId : String)
    (pin : SessionPin) (nowMs : ℕ) (f₁ f₂ f₃ : ControlFrame) : Prop where
  localCert : env.localFingerprint = some t.fpLocal
  remoteCert : env.remoteFingerprint = some t.fpRemote
  hello : decodeBody P.helloCbor f₁ .hello = .ok t.hello
  pubkey : t.hello.pubkey = t.peer.key.toList
  nonce : t.hello.nonce = t.peerNonce.toList
  fingerprint : t.hello.fingerprint = t.fpRemote.toList
  request : decodeBody P.pakeCbor f₂ .authRequest = .ok t.request
  usable : pin.isUsable nowMs = true
  key : pakeKey P (pakeStart P .b env.scalar sessionId pin.digits) t.request.message = .ok t.key
  confirmation : decodeBody P.confirmCbor f₃ .authConfirm = .ok t.confirmation
  tag : t.confirmation.confirm = (confirm P t.key "controller" sessionId).toList
  signature : t.confirmation.signature = t.signature.toList
  signed : P.verifyStrict t.peer.key
    (bindingInput sessionId t.peerNonce env.nonce ⟨t.fpRemote⟩ ⟨t.fpLocal⟩ .controller)
    t.signature = true

theorem pinRespond_eq_ok_iff {env : HandshakeEnv} {sessionId : String} {pin : SessionPin}
    {message : List UInt8} {nowMs : ℕ} {answer : List UInt8 × Bytes 32} :
    pinRespond P env sessionId pin message nowMs = .ok answer ↔
      pin.isUsable nowMs = true ∧
        pakeKey P (pakeStart P .b env.scalar sessionId pin.digits) message = .ok answer.2 ∧
        answer.1 = P.pakeMessage (pakeStart P .b env.scalar sessionId pin.digits) := by
  obtain ⟨ours, key⟩ := answer
  exact mapError_eq_ok_iff.trans PinVerifier.respond_eq_ok_iff

/-- The two answers of the host's half, encoded and sent. -/
structure HostTranscript.Answered (t : HostTranscript P) (env : HandshakeEnv) (sessionId : String)
    (identity : Identity) (pin : SessionPin) (link : Link) (ack response : List UInt8) : Prop where
  ack : encodeBody P.helloCbor .helloAck (helloBody P identity env.nonce ⟨t.fpLocal⟩) 0 = .ok ack
  ackSent : env.sendResult link.sent.length = .ok ()
  response : encodeBody P.pakeCbor .authResponse
    ⟨P.pakeMessage (pakeStart P .b env.scalar sessionId pin.digits),
      some (confirm P t.key "host" sessionId).toList⟩ 1 = .ok response
  responseSent : env.sendResult (link.sent.length + 1) = .ok ()

/-- The announcement of the session, encoded and sent. -/
structure HostTranscript.Announced (t : HostTranscript P) (env : HandshakeEnv) (sessionId : String)
    (granted : SessionCaps) (link : Link) (ready : List UInt8) : Prop where
  ready : encodeBody P.readyCbor .sessionReady
    ⟨granted.toNames, (t.authenticated env sessionId granted).sas⟩ 2 = .ok ready
  readySent : env.sendResult (link.sent.length + 2) = .ok ()

section Host

variable {env : HandshakeEnv} {sessionId : String} {identity : Identity} {pin : SessionPin}
  {granted : SessionCaps} {nowMs : ℕ}

/-- The host's verification succeeds exactly when it consumes three control frames that make an
accepted transcript and its two answers go out.  It returns the peer of that transcript with the
host's own context. -/
theorem verifyController_eq_ok_iff {link link' : Link} {r : PublicIdentity P × BindingVerifier} :
    (verifyController P env sessionId identity pin nowMs).run link = .ok r link' ↔
      ∃ (t : HostTranscript P) (f₁ f₂ f₃ : ControlFrame) (r₁ r₂ r₃ : List Arrival)
        (ack response : List UInt8),
        awaitControl link.arrivals = (.ok f₁, r₁) ∧ awaitControl r₁ = (.ok f₂, r₂) ∧
          awaitControl r₂ = (.ok f₃, r₃) ∧ t.Accepted env sessionId pin nowMs f₁ f₂ f₃ ∧
          t.Answered env sessionId identity pin link ack response ∧
          r = (t.peer, t.binding env sessionId) ∧
          link' = ⟨r₃, link.sent ++ [ack, response], link.verified ++
            [(t.peer.key, (t.binding env sessionId).input .controller)]⟩ := by
  simp only [verifyController, Program.run_lift_bind_eq_ok_iff, Program.run_check_bind_eq_ok_iff,
    run_receive_bind_eq_ok_iff, run_sendBody_bind_eq_ok_iff, run_verifyBinding_bind_eq_ok_iff,
    Program.run_pure_eq_ok_iff]
  constructor
  · rintro ⟨fps, hfps, f₁, r₁, h₁, hello, hhello, peer, hpeer, peerNonce, hnonce, hfp, ack, hack,
      hsend₁, f₂, r₂, h₂, request, hrequest, ⟨message, key⟩, hanswer, response, hresponse, hsend₂,
      f₃, r₃, h₃, confirmation, hconf, htag, signature, hsig, hverify, rfl, rfl⟩
    obtain ⟨hlocal, hremote⟩ := fingerprints_eq_ok_iff.1 hfps
    obtain ⟨husable, hkey, rfl⟩ := pinRespond_eq_ok_iff.1 hanswer
    refine ⟨⟨fps.1.bytes, fps.2.bytes, hello, peer, peerNonce, request, key, confirmation,
      signature⟩, f₁, f₂, f₃, r₁, r₂, r₃, ack, response, h₁, h₂, h₃, ?_, ?_, rfl, ?_⟩
    · exact ⟨hlocal, hremote, hhello, parseIdentity_eq_ok_iff.1 hpeer,
        parseNonce_eq_ok_iff.1 hnonce, hfp, hrequest, husable, hkey, hconf, tagMatches_iff.1 htag,
        toArray64_eq_ok_iff.1 hsig, (BindingVerifier.verify_eq_ok_iff.1 hverify).2.2⟩
    · exact ⟨hack, hsend₁, hresponse, by simpa using hsend₂⟩
    · simp [HostTranscript.binding, BindingVerifier.new, PeerRole.peer]
  · rintro ⟨t, f₁, f₂, f₃, r₁, r₂, r₃, ack, response, h₁, h₂, h₃, hacc, hans, rfl, rfl⟩
    refine ⟨(⟨t.fpLocal⟩, ⟨t.fpRemote⟩), fingerprints_eq_ok_iff.2 ⟨hacc.localCert, hacc.remoteCert⟩,
      f₁, r₁, h₁, t.hello, hacc.hello, t.peer, parseIdentity_eq_ok_iff.2 hacc.pubkey, t.peerNonce,
      parseNonce_eq_ok_iff.2 hacc.nonce, hacc.fingerprint, ack, hans.ack, hans.ackSent, f₂, r₂, h₂,
      t.request, hacc.request, (_, t.key),
      pinRespond_eq_ok_iff.2 ⟨hacc.usable, hacc.key, rfl⟩, response, hans.response, ?_, f₃, r₃, h₃,
      t.confirmation, hacc.confirmation, tagMatches_iff.2 hacc.tag, t.signature,
      toArray64_eq_ok_iff.2 hacc.signature, ?_, rfl, ?_⟩
    · simpa using hans.responseSent
    · exact BindingVerifier.verify_eq_ok_iff.2 ⟨rfl, by simp, hacc.signed⟩
    · simp [HostTranscript.binding, BindingVerifier.new, PeerRole.peer]

/-- The host's half succeeds exactly when, besides, the announcement goes out. -/
theorem authenticateAsHost_eq_ok_iff {link link' : Link} {auth : Authenticated P} :
    (authenticateAsHost P env sessionId identity pin granted nowMs).run link = .ok auth link' ↔
      ∃ (t : HostTranscript P) (f₁ f₂ f₃ : ControlFrame) (r₁ r₂ r₃ : List Arrival)
        (ack response ready : List UInt8),
        awaitControl link.arrivals = (.ok f₁, r₁) ∧ awaitControl r₁ = (.ok f₂, r₂) ∧
          awaitControl r₂ = (.ok f₃, r₃) ∧ t.Accepted env sessionId pin nowMs f₁ f₂ f₃ ∧
          t.Answered env sessionId identity pin link ack response ∧
          t.Announced env sessionId granted link ready ∧
          auth = t.authenticated env sessionId granted ∧
          link' = ⟨r₃, link.sent ++ [ack, response, ready], link.verified ++
            [(t.peer.key, (t.binding env sessionId).input .controller)]⟩ := by
  rw [authenticateAsHost, Program.run_bind_eq_ok_iff]
  simp only [announceReady, run_sendBody_bind_eq_ok_iff, Program.run_pure_eq_ok_iff]
  constructor
  · rintro ⟨r, link₁, hverify, ready, hready, hsend, rfl, rfl⟩
    obtain ⟨t, f₁, f₂, f₃, r₁, r₂, r₃, ack, response, h₁, h₂, h₃, hacc, hans, rfl, rfl⟩ :=
      verifyController_eq_ok_iff.1 hverify
    exact ⟨t, f₁, f₂, f₃, r₁, r₂, r₃, ack, response, ready, h₁, h₂, h₃, hacc, hans,
      ⟨hready, by simpa using hsend⟩, rfl, by simp⟩
  · rintro ⟨t, f₁, f₂, f₃, r₁, r₂, r₃, ack, response, ready, h₁, h₂, h₃, hacc, hans, hann, rfl, rfl⟩
    refine ⟨_, _, verifyController_eq_ok_iff.2 ⟨t, f₁, f₂, f₃, r₁, r₂, r₃, ack, response, h₁, h₂,
      h₃, hacc, hans, rfl, rfl⟩, ready, hann.ready, ?_, rfl, by simp⟩
    simpa using hann.readySent

/-! ### The announcement -/

/-- Bytes that the other end reads as a `SessionReady`. -/
def IsSessionReady (bytes : List UInt8) : Prop :=
  ∃ frame, ControlFrame.decode bytes = .ok frame ∧
    frame.header.msgType = MessageType.sessionReady.code

/-- No `SessionReady` was sent. -/
def NoReady (link : Link) : Prop := ∀ bytes ∈ link.sent, ¬ IsSessionReady bytes

theorem isSessionReady_bodyFrame {kind : MessageType} (hkind : kind.isKept = true)
    (bytes : List UInt8) (sequence : UInt16) :
    IsSessionReady (bodyFrame kind bytes sequence).encode ↔ kind = .sessionReady := by
  simp only [IsSessionReady, decode_bodyFrame hkind, Except.ok.injEq, exists_eq_left']
  constructor
  · intro (h : kind.code = MessageType.sessionReady.code)
    have hty := congrArg MessageType.fromU8 h
    rw [MessageType.fromU8_code, MessageType.fromU8_code] at hty
    exact Option.some.inj hty
  · rintro rfl
    rfl

theorem keeps_receive {α : Type} (cbor : Cbor α) (kind : MessageType) :
    Program.Keeps NoReady (receive cbor kind) := by
  refine Program.Keeps.bind ?_ fun frame => Program.Keeps.lift _
  intro link hlink
  have hsent : (Program.final nextFrame link).sent = link.sent := by
    simp only [Program.final, EStateM.run, nextFrame]
    rcases awaitControl link.arrivals with ⟨e | frame, rest⟩
    · rfl
    · rfl
  rw [NoReady, hsent]
  exact hlink

theorem keeps_verifyBinding (binding : BindingVerifier) (proof : BindingProof P) :
    Program.Keeps NoReady (verifyBinding binding proof) := by
  intro link hlink
  have hsent : (Program.final (verifyBinding binding proof) link).sent = link.sent := by
    simp only [Program.final, EStateM.run, verifyBinding]
    cases binding.verify proof none with
    | ok u => rfl
    | error e => rfl
  rw [NoReady, hsent]
  exact hlink

theorem keeps_sendBody {α : Type} (env : HandshakeEnv) (cbor : Cbor α) {kind : MessageType}
    (body : α) (sequence : UInt16) (hkind : kind.isKept = true) (hne : kind ≠ .sessionReady) :
    Program.Keeps NoReady (sendBody env cbor kind body sequence) := by
  intro link hlink
  cases henc : encodeBody cbor kind body sequence with
  | error e =>
      have hfinal : Program.final (sendBody env cbor kind body sequence) link = link := by
        rw [sendBody, henc]
        rfl
      rwa [hfinal]
  | ok bytes =>
      have hfinal : Program.final (sendBody env cbor kind body sequence) link
          = Program.final (sendBytes env bytes) link := by
        rw [sendBody, henc]
        rfl
      obtain ⟨written, -, rfl⟩ := encodeBody_eq_ok_iff.1 henc
      rw [hfinal]
      simp only [Program.final, EStateM.run, sendBytes]
      cases env.sendResult link.sent.length with
      | error e => exact hlink
      | ok u =>
          intro bytes hbytes
          rcases List.mem_append.1 hbytes with hold | hnew
          · exact hlink bytes hold
          · rw [List.mem_singleton.1 hnew, isSessionReady_bodyFrame hkind]
            exact hne

/-- The verification announces nothing, whether it succeeds or not. -/
theorem keeps_verifyController :
    Program.Keeps NoReady (verifyController P env sessionId identity pin nowMs) := by
  unfold verifyController
  refine .bind (.lift _) fun fps => .bind (keeps_receive _ _) fun hello => ?_
  refine .bind (.lift _) fun peer => .bind (.lift _) fun peerNonce => .bind (.check _ _) fun _ => ?_
  refine .bind (keeps_sendBody _ _ _ _ rfl (by decide)) fun _ => ?_
  refine .bind (keeps_receive _ _) fun request => .bind (.lift _) fun answer => ?_
  refine .bind (keeps_sendBody _ _ _ _ rfl (by decide)) fun _ => ?_
  refine .bind (keeps_receive _ _) fun confirmation => .bind (.check _ _) fun _ => ?_
  exact .bind (.lift _) fun signature => .bind (keeps_verifyBinding _ _) fun _ => .pure _

/-- The verification took three frames off the link that make an accepted transcript. -/
def HostAccepts (P : Primitives) (env : HandshakeEnv) (sessionId : String) (pin : SessionPin)
    (nowMs : ℕ) (arrivals : List Arrival) : Prop :=
  ∃ (f₁ f₂ f₃ : ControlFrame) (rest : List ControlFrame) (t : HostTranscript P),
    controlFrames arrivals = f₁ :: f₂ :: f₃ :: rest ∧ t.Accepted env sessionId pin nowMs f₁ f₂ f₃

theorem hostAccepts_of_verifyController {link link' : Link}
    {r : PublicIdentity P × BindingVerifier}
    (h : (verifyController P env sessionId identity pin nowMs).run link = .ok r link') :
    HostAccepts P env sessionId pin nowMs link.arrivals := by
  obtain ⟨t, f₁, f₂, f₃, r₁, r₂, r₃, ack, response, h₁, h₂, h₃, hacc, -⟩ :=
    verifyController_eq_ok_iff.1 h
  exact ⟨f₁, f₂, f₃, controlFrames r₃, t, controlFrames_of_three h₁ h₂ h₃, hacc⟩

/-- A handshake that returns has verified the controller. -/
theorem hostAccepts_of_ok {link link' : Link} {auth : Authenticated P}
    (h : (authenticateAsHost P env sessionId identity pin granted nowMs).run link
      = .ok auth link') :
    HostAccepts P env sessionId pin nowMs link.arrivals := by
  obtain ⟨r, link₁, hverify, -⟩ := Program.run_bind_eq_ok_iff.1 h
  exact hostAccepts_of_verifyController hverify

/-- A handshake that has announced the session has verified the controller. -/
theorem hostAccepts_of_announced {link : Link} (hstart : NoReady link)
    (h : ¬ NoReady (Program.final (authenticateAsHost P env sessionId identity pin granted nowMs)
      link)) :
    HostAccepts P env sessionId pin nowMs link.arrivals := by
  obtain ⟨r, link₁, hverify, -⟩ := Program.ok_of_broken keeps_verifyController hstart h
  exact hostAccepts_of_verifyController hverify

end Host

end Rda
