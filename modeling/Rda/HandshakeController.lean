/-
**What the controller has checked before it takes a session as its own.**

The controller compares the fingerprint the host announces with the one it observed and checks the
host's confirmation tag, which only a holder of the PIN can compute.  That is all it checks: no
message of the host carries a signature, and the device id that was dialled is not an argument of
the handshake.  So whoever knows the PIN can announce any identity key, and the identity the
handshake returns is never an authenticated one.

Main definitions:

* `Rda.ControllerTranscript`, `Rda.ControllerTranscript.Accepted` — what the controller took from
  the three frames, and the checks it passed;
* `Rda.ControllerAccepts` — the arrivals make a handshake that succeeds;
* `Rda.PeerAuthenticated` — the returned identity signed this session and is the one dialled.

Main results:

* `Rda.authenticateAsController_eq_ok_iff` — when the controller's half succeeds;
* `Rda.authenticateAsController_pinHolder` — **a holder of the PIN passes for any identity**;
* `Rda.peerAuthenticated_iff` — the peer is authenticated only where there is no peer: when the
  handshake fails.
-/

import Rda.Handshake

set_option relaxedAutoImplicit false
set_option autoImplicit false

namespace Rda

variable {P : Primitives}

/-! ### Transcripts -/

/-- What the controller takes from the certificates and from the three messages it receives. -/
structure ControllerTranscript (P : Primitives) where
  fpLocal : Bytes 32
  fpRemote : Bytes 32
  ack : HelloBody
  host : PublicIdentity P
  hostNonce : Nonce
  response : PakeBody
  key : Bytes 32
  ready : ReadyBody

/-- The controller's session context for a transcript. -/
def ControllerTranscript.binding (t : ControllerTranscript P) (env : HandshakeEnv)
    (sessionId : String) : BindingVerifier :=
  .new sessionId .controller env.nonce t.hostNonce ⟨t.fpLocal⟩ ⟨t.fpRemote⟩

/-- What the controller returns for a transcript. -/
def ControllerTranscript.authenticated (t : ControllerTranscript P) (env : HandshakeEnv)
    (sessionId : String) : Authenticated P :=
  ⟨t.host, .fromNames t.ready.caps,
    shortAuthenticationString P ((t.binding env sessionId).transcriptHash P) sessionId⟩

/-- The checks of the controller's half, over the three frames it consumed. -/
structure ControllerTranscript.Accepted (t : ControllerTranscript P) (env : HandshakeEnv)
    (sessionId pin : String) (f₁ f₂ f₃ : ControlFrame) : Prop where
  localCert : env.localFingerprint = some t.fpLocal
  remoteCert : env.remoteFingerprint = some t.fpRemote
  ack : decodeBody P.helloCbor f₁ .helloAck = .ok t.ack
  pubkey : t.ack.pubkey = t.host.key.toList
  nonce : t.ack.nonce = t.hostNonce.toList
  fingerprint : t.ack.fingerprint = t.fpRemote.toList
  isPin : isPin pin = true
  response : decodeBody P.pakeCbor f₂ .authResponse = .ok t.response
  key : pakeKey P (pakeStart P .a env.scalar sessionId pin) t.response.message = .ok t.key
  tag : t.response.confirm = some (confirm P t.key "host" sessionId).toList
  ready : decodeBody P.readyCbor f₃ .sessionReady = .ok t.ready

/-- The three messages of the controller's half, encoded and sent. -/
structure ControllerTranscript.Sent (t : ControllerTranscript P) (env : HandshakeEnv)
    (sessionId : String) (identity : Identity) (pin : String) (link : Link)
    (hello request confirmation : List UInt8) : Prop where
  hello : encodeBody P.helloCbor .hello (helloBody P identity env.nonce ⟨t.fpLocal⟩) 0 = .ok hello
  helloSent : env.sendResult link.sent.length = .ok ()
  request : encodeBody P.pakeCbor .authRequest
    ⟨P.pakeMessage (pakeStart P .a env.scalar sessionId pin), none⟩ 1 = .ok request
  requestSent : env.sendResult (link.sent.length + 1) = .ok ()
  confirmation : encodeBody P.confirmCbor .authConfirm
    ⟨(confirm P t.key "controller" sessionId).toList,
      ((t.binding env sessionId).prove P identity).signature.toList⟩ 2 = .ok confirmation
  confirmationSent : env.sendResult (link.sent.length + 2) = .ok ()

theorem pinAuth_start_eq_ok_iff {scalar : ℕ} {sessionId pin : String} {auth : PinAuth} :
    PinAuth.start P scalar sessionId pin = .ok auth ↔
      isPin pin = true ∧ auth = ⟨pakeStart P .a scalar sessionId pin⟩ := by
  unfold PinAuth.start
  split_ifs with hpin
  · simp [hpin, eq_comm]
  · simp [hpin]

section Controller

variable {env : HandshakeEnv} {sessionId : String} {identity : Identity} {pin : String}

/-- The controller's half succeeds exactly when it consumes three control frames that make an
accepted transcript and its three messages go out.  What it has verified signatures of does not
change. -/
theorem authenticateAsController_eq_ok_iff {link link' : Link} {auth : Authenticated P} :
    (authenticateAsController P env sessionId identity pin).run link = .ok auth link' ↔
      ∃ (t : ControllerTranscript P) (f₁ f₂ f₃ : ControlFrame) (r₁ r₂ r₃ : List Arrival)
        (hello request confirmation : List UInt8),
        awaitControl link.arrivals = (.ok f₁, r₁) ∧ awaitControl r₁ = (.ok f₂, r₂) ∧
          awaitControl r₂ = (.ok f₃, r₃) ∧ t.Accepted env sessionId pin f₁ f₂ f₃ ∧
          t.Sent env sessionId identity pin link hello request confirmation ∧
          auth = t.authenticated env sessionId ∧
          link' = ⟨r₃, link.sent ++ [hello, request, confirmation], link.verified⟩ := by
  simp only [authenticateAsController, Program.run_lift_bind_eq_ok_iff,
    Program.run_check_bind_eq_ok_iff, run_receive_bind_eq_ok_iff, run_sendBody_bind_eq_ok_iff,
    Program.run_pure_eq_ok_iff, mapError_eq_ok_iff, pinAuth_start_eq_ok_iff]
  constructor
  · rintro ⟨fps, hfps, hello, hhello, hsend₁, f₁, r₁, h₁, ack, hack, host, hhost, hostNonce, hnonce,
      hfp, auth, ⟨hpin, rfl⟩, request, hrequest, hsend₂, f₂, r₂, h₂, response, hresponse, key, hkey,
      hostTag, hhostTag, htag, confirmation, hconf, hsend₃, f₃, r₃, h₃, ready, hready, rfl, rfl⟩
    obtain ⟨hlocal, hremote⟩ := fingerprints_eq_ok_iff.1 hfps
    have hconfirm : response.confirm = some (confirm P key "host" sessionId).toList := by
      cases hc : response.confirm with
      | none => rw [hc] at hhostTag; cases hhostTag
      | some tag =>
          rw [hc] at hhostTag
          cases hhostTag
          rw [tagMatches_iff.1 htag]
    refine ⟨⟨fps.1.bytes, fps.2.bytes, ack, host, hostNonce, response, key, ready⟩, f₁, f₂, f₃, r₁,
      r₂, r₃, hello, request, confirmation, h₁, h₂, h₃, ?_, ?_, rfl, by simp⟩
    · exact ⟨hlocal, hremote, hack, parseIdentity_eq_ok_iff.1 hhost, parseNonce_eq_ok_iff.1 hnonce,
        hfp, hpin, hresponse, hkey, hconfirm, hready⟩
    · exact ⟨hhello, hsend₁, hrequest, by simpa using hsend₂, hconf, by simpa using hsend₃⟩
  · rintro ⟨t, f₁, f₂, f₃, r₁, r₂, r₃, hello, request, confirmation, h₁, h₂, h₃, hacc, hsent, rfl,
      rfl⟩
    refine ⟨(⟨t.fpLocal⟩, ⟨t.fpRemote⟩), fingerprints_eq_ok_iff.2 ⟨hacc.localCert, hacc.remoteCert⟩,
      hello, hsent.hello, hsent.helloSent, f₁, r₁, h₁, t.ack, hacc.ack, t.host,
      parseIdentity_eq_ok_iff.2 hacc.pubkey, t.hostNonce, parseNonce_eq_ok_iff.2 hacc.nonce,
      hacc.fingerprint, _, ⟨hacc.isPin, rfl⟩, request, hsent.request, ?_, f₂, r₂, h₂, t.response,
      hacc.response, t.key, hacc.key, _, by rw [hacc.tag], tagMatches_iff.2 rfl, confirmation,
      hsent.confirmation, ?_, f₃, r₃, h₃, t.ready, hacc.ready, rfl, by simp⟩
    · simpa using hsent.requestSent
    · simpa using hsent.confirmationSent

/-! ### Who the peer is -/

/-- The arrivals make a handshake that succeeds: the three frames pass the controller's checks and
its own messages go out. -/
def ControllerAccepts (P : Primitives) (env : HandshakeEnv) (sessionId : String)
    (identity : Identity) (pin : String) (arrivals : List Arrival) : Prop :=
  ∃ (t : ControllerTranscript P) (f₁ f₂ f₃ : ControlFrame) (r₁ r₂ r₃ : List Arrival)
    (hello request confirmation : List UInt8),
    awaitControl arrivals = (.ok f₁, r₁) ∧ awaitControl r₁ = (.ok f₂, r₂) ∧
      awaitControl r₂ = (.ok f₃, r₃) ∧ t.Accepted env sessionId pin f₁ f₂ f₃ ∧
      t.Sent env sessionId identity pin (.start arrivals) hello request confirmation

/-- If the handshake returns a peer, then a signature under the peer's key over what the controller
observed was verified, and the peer has the device id that was dialled. -/
def PeerAuthenticated (P : Primitives) (env : HandshakeEnv) (sessionId : String)
    (identity : Identity) (pin : String) (dialled : DeviceId) (arrivals : List Arrival) : Prop :=
  ∀ auth link,
    (authenticateAsController P env sessionId identity pin).run (.start arrivals) = .ok auth link →
      (∃ fpLocal fpRemote hostNonce, env.localFingerprint = some fpLocal ∧
        env.remoteFingerprint = some fpRemote ∧
        (auth.peer.key,
          bindingInput sessionId env.nonce hostNonce ⟨fpLocal⟩ ⟨fpRemote⟩ .host) ∈ link.verified) ∧
      auth.peer.deviceId = dialled

/-- **No peer is authenticated.**  The controller's guarantee holds exactly when the handshake does
not succeed: no run that returns a peer has verified a signature. -/
theorem peerAuthenticated_iff (dialled : DeviceId) (arrivals : List Arrival) :
    PeerAuthenticated P env sessionId identity pin dialled arrivals ↔
      ¬ ControllerAccepts P env sessionId identity pin arrivals := by
  constructor
  · rintro h ⟨t, f₁, f₂, f₃, r₁, r₂, r₃, hello, request, confirmation, h₁, h₂, h₃, hacc, hsent⟩
    have hrun := authenticateAsController_eq_ok_iff.2
      ⟨t, f₁, f₂, f₃, r₁, r₂, r₃, hello, request, confirmation, h₁, h₂, h₃, hacc, hsent, rfl, rfl⟩
    obtain ⟨⟨fpLocal, fpRemote, hostNonce, -, -, hmem⟩, -⟩ := h _ _ hrun
    -- The log of verified signatures is the one the handshake started with: empty.
    exact List.not_mem_nil hmem
  · intro h auth link hrun
    obtain ⟨t, f₁, f₂, f₃, r₁, r₂, r₃, hello, request, confirmation, h₁, h₂, h₃, hacc, hsent, -⟩ :=
      authenticateAsController_eq_ok_iff.1 hrun
    exact absurd ⟨t, f₁, f₂, f₃, r₁, r₂, r₃, hello, request, confirmation, h₁, h₂, h₃, hacc,
      hsent⟩ h

/-! ### Passing for someone else -/

/-- A handshake body in its frame. -/
def framed {α : Type} (cbor : Cbor α) (kind : MessageType) (body : α) (sequence : UInt16) :
    ControlFrame :=
  bodyFrame kind (cbor.written body) sequence

/-- Frames arriving on the control channel, one after the other. -/
def arrivalsOf (frames : List ControlFrame) : List Arrival :=
  frames.map fun frame => .event (.frame .control frame)

/-- The controller's transcript of an exchange with a host that announces the identity `claimed`
and derives `key` from the PIN. -/
def hostTranscript (P : Primitives) (sessionId pin : String) (fpLocal fpRemote : Bytes 32)
    (claimed : PublicIdentity P) (nonce : Nonce) (scalar : ℕ) (key : Bytes 32) (ready : ReadyBody) :
    ControllerTranscript P where
  fpLocal := fpLocal
  fpRemote := fpRemote
  ack := ⟨claimed.key.toList, nonce.toList, fpRemote.toList⟩
  host := claimed
  hostNonce := nonce
  response := ⟨P.pakeMessage (pakeStart P .b scalar sessionId pin),
    some (confirm P key "host" sessionId).toList⟩
  key := key
  ready := ready

/-- What the host of a transcript has sent. -/
def ControllerTranscript.hostFrames (t : ControllerTranscript P) : List ControlFrame :=
  [framed P.helloCbor .helloAck t.ack 0, framed P.pakeCbor .authResponse t.response 1,
    framed P.readyCbor .sessionReady t.ready 2]

/-- What the controller of a transcript has sent. -/
def ControllerTranscript.frames (t : ControllerTranscript P) (env : HandshakeEnv)
    (sessionId : String) (identity : Identity) (pin : String) : List ControlFrame :=
  [framed P.helloCbor .hello (helloBody P identity env.nonce ⟨t.fpLocal⟩) 0,
    framed P.pakeCbor .authRequest
      ⟨P.pakeMessage (pakeStart P .a env.scalar sessionId pin), none⟩ 1,
    framed P.confirmCbor .authConfirm
      ⟨(confirm P t.key "controller" sessionId).toList,
        ((t.binding env sessionId).prove P identity).signature.toList⟩ 2]

variable (env identity) in
/-- **A holder of the PIN passes for any identity.**  Whoever answers with the certificate the
controller observed and a key agreed under the PIN is returned as the peer it announces. -/
theorem authenticateAsController_pinHolder (hP : P.Lawful) {fpLocal fpRemote key : Bytes 32}
    (hlocal : env.localFingerprint = some fpLocal) (hremote : env.remoteFingerprint = some fpRemote)
    (hsend : ∀ n, env.sendResult n = .ok ()) (hpin : isPin pin = true) (scalar : ℕ)
    (hkey : pakeKey P (pakeStart P .a env.scalar sessionId pin)
      (P.pakeMessage (pakeStart P .b scalar sessionId pin)) = .ok key)
    (claimed : PublicIdentity P) (nonce : Nonce) (ready : ReadyBody) :
    let t := hostTranscript P sessionId pin fpLocal fpRemote claimed nonce scalar key ready
    (authenticateAsController P env sessionId identity pin).run (.start (arrivalsOf t.hostFrames)) =
      .ok (t.authenticated env sessionId)
        ⟨[], (t.frames env sessionId identity pin).map ControlFrame.encode, []⟩ := by
  intro t
  refine authenticateAsController_eq_ok_iff.2
    ⟨t, _, _, _, _, _, _, _, _, _, rfl, rfl, rfl, ?_, ?_, rfl, rfl⟩
  · exact ⟨hlocal, hremote, (hP.helloCbor.encodeBody_written _ _ _).2, rfl, rfl, rfl, hpin,
      (hP.pakeCbor.encodeBody_written _ _ _).2, hkey, rfl,
      (hP.readyCbor.encodeBody_written _ _ _).2⟩
  · exact ⟨(hP.helloCbor.encodeBody_written _ _ _).1, hsend _,
      (hP.pakeCbor.encodeBody_written _ _ _).1, hsend _,
      (hP.confirmCbor.encodeBody_written _ _ _).1, hsend _⟩

end Controller

/-- The surroundings of a controller that observed the certificates `0xAA` and `0xBB`. -/
def Sample.controllerEnv : HandshakeEnv where
  localFingerprint := some (Sample.bytes 32 0xAA)
  remoteFingerprint := some (Sample.bytes 32 0xBB)
  nonce := Sample.bytes 32 1
  scalar := 11
  sendResult _ := .ok ()

/-- The key two sides of the sample exchange derive from one PIN. -/
def Sample.agreedKey (x y : ℕ) (sessionId pin : String) : Bytes 32 :=
  Sample.digest 32 (pakePassword .sample sessionId pin ++ ID_CONTROLLER ++ ID_HOST ++
    Sample.pakeMessage (pakeStart .sample .a x sessionId pin) ++
    Sample.pakeMessage (pakeStart .sample .b y sessionId pin))

/-- A party that knows the PIN `482913` answers the controller's call to device 2 with the public
key of device 3, whose private key it need not hold.  The handshake returns device 3 as the peer:
it signed nothing, and it is not the device that was dialled. -/
theorem peerAuthenticated_fails :
    ((Sample.device 3).toPublic .sample).deviceId ≠ (Sample.device 2).deviceId .sample ∧
      ¬ PeerAuthenticated .sample Sample.controllerEnv "sess_1" (Sample.device 1) "482913"
        ((Sample.device 2).deviceId .sample)
        (arrivalsOf (hostTranscript .sample "sess_1" "482913" (Sample.bytes 32 0xAA)
          (Sample.bytes 32 0xBB) ((Sample.device 3).toPublic .sample) (Sample.bytes 32 2) 12
          (Sample.agreedKey 11 12 "sess_1" "482913") ⟨["view"], []⟩).hostFrames) := by
  have hkey : pakeKey .sample (pakeStart .sample .a 11 "sess_1" "482913")
      (Primitives.sample.pakeMessage (pakeStart .sample .b 12 "sess_1" "482913"))
        = .ok (Sample.agreedKey 11 12 "sess_1" "482913") := pakeKey_eq_ok.2 rfl
  have hrun := authenticateAsController_pinHolder Sample.controllerEnv (Sample.device 1)
    Primitives.sample_lawful rfl rfl (fun _ => rfl) (by decide) 12 hkey
    ((Sample.device 3).toPublic .sample) (Sample.bytes 32 2) ⟨["view"], []⟩
  refine ⟨by decide +kernel, ?_⟩
  intro h
  obtain ⟨⟨fpLocal, fpRemote, hostNonce, -, -, hmem⟩, -⟩ := h _ _ hrun
  exact List.not_mem_nil hmem

end Rda
