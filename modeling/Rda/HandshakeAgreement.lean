/-
**Two honest ends of one session.**

A pairing fixes what two honest ends share (the session id and the PIN) and what each of them sees
of the other: its certificate.  An exchange is completed when both halves of the handshake return
and each end received, as its control frames, what the other end sent.

Main definitions:

* `Rda.Delivered` — the control frames that arrive are the bytes that were sent;
* `Rda.Pairing`, `Rda.Pairing.Completed` — two honest ends, and a completed exchange of them.

Main results:

* `Rda.Pairing.Completed.agrees` — a completed exchange is one session at both ends: the same
  binding input, transcript hash and authentication string;
* `Rda.Pairing.exists_completed` — honest ends complete the exchange;
* `Rda.host_handshake_safe_and_agrees` — **safety and agreement of the host's half**.
-/

import Rda.HandshakeController
import Rda.HandshakeHost

set_option relaxedAutoImplicit false
set_option autoImplicit false

namespace Rda

variable {P : Primitives}

/-- The control frames that arrive are what was sent, in order. -/
def Delivered (sent : List (List UInt8)) (arrivals : List Arrival) : Prop :=
  List.Forall₂ (fun bytes frame => ControlFrame.decode bytes = .ok frame) sent
    (controlFrames arrivals)

theorem controlFrames_arrivalsOf (frames : List ControlFrame) :
    controlFrames (arrivalsOf frames) = frames := by
  induction frames with
  | nil => rfl
  | cons frame frames ih => exact congrArg (frame :: ·) ih

/-- A body that was encoded, sent and delivered is decoded to itself. -/
theorem decodeBody_delivered {α : Type} {cbor : Cbor α} (hcbor : cbor.Lawful) {kind : MessageType}
    (hkind : kind.isKept = true) {a a' : α} {sequence : UInt16} {bytes : List UInt8}
    {frame : ControlFrame} (henc : encodeBody cbor kind a sequence = .ok bytes)
    (hframe : ControlFrame.decode bytes = .ok frame)
    (hdec : decodeBody cbor frame kind = .ok a') : a' = a := by
  obtain ⟨henc', hdec'⟩ := hcbor.encodeBody_written kind a sequence
  cases henc.symm.trans henc'
  cases hframe.symm.trans (decode_bodyFrame hkind _ _)
  exact Except.ok.inj (hdec.symm.trans hdec')

/-! ### Pairings -/

/-- Two honest ends of one session.  Each end's remote certificate is the other's local one. -/
structure Pairing where
  sessionId : String
  pin : SessionPin
  granted : SessionCaps
  nowMs : ℕ
  controller : Identity
  host : Identity
  controllerEnv : HandshakeEnv
  hostEnv : HandshakeEnv
  fpController : Bytes 32
  fpHost : Bytes 32
  controllerLocal : controllerEnv.localFingerprint = some fpController
  controllerRemote : controllerEnv.remoteFingerprint = some fpHost
  hostLocal : hostEnv.localFingerprint = some fpHost
  hostRemote : hostEnv.remoteFingerprint = some fpController

namespace Pairing

/-- Both halves return, and each end received what the other one sent. -/
structure Completed (p : Pairing) (toController toHost : List Arrival)
    (authC authH : Authenticated P) (linkC linkH : Link) : Prop where
  controller : (authenticateAsController P p.controllerEnv p.sessionId p.controller
    p.pin.digits).run (.start toController) = .ok authC linkC
  host : (authenticateAsHost P p.hostEnv p.sessionId p.host p.pin p.granted p.nowMs).run
    (.start toHost) = .ok authH linkH
  fromController : Delivered linkC.sent toHost
  fromHost : Delivered linkH.sent toController

/-- The two ends took one session for granted: they built one binding input for either role, and
computed one transcript hash and one authentication string. -/
structure Agrees (p : Pairing) (tC : ControllerTranscript P) (tH : HostTranscript P)
    (authC authH : Authenticated P) : Prop where
  input : ∀ role, (tC.binding p.controllerEnv p.sessionId).input role
    = (tH.binding p.hostEnv p.sessionId).input role
  hash : (tC.binding p.controllerEnv p.sessionId).transcriptHash P
    = (tH.binding p.hostEnv p.sessionId).transcriptHash P
  sasController : authC.sas = shortAuthenticationString P
    ((tC.binding p.controllerEnv p.sessionId).transcriptHash P) p.sessionId
  sas : authC.sas = authH.sas
  peerController : authC.peer = p.host.toPublic P
  peerHost : authH.peer = p.controller.toPublic P
  caps : authC.caps = authH.caps

/-- A completed exchange is one session at both ends. -/
theorem Completed.agrees (hP : P.Lawful) {p : Pairing} {toController toHost : List Arrival}
    {authC authH : Authenticated P} {linkC linkH : Link}
    (h : p.Completed toController toHost authC authH linkC linkH) :
    ∃ (tC : ControllerTranscript P) (tH : HostTranscript P) (c₁ c₂ c₃ f₁ f₂ f₃ : ControlFrame),
      controlFrames toController = [c₁, c₂, c₃] ∧ controlFrames toHost = [f₁, f₂, f₃] ∧
        tC.Accepted p.controllerEnv p.sessionId p.pin.digits c₁ c₂ c₃ ∧
        tH.Accepted p.hostEnv p.sessionId p.pin p.nowMs f₁ f₂ f₃ ∧
        p.Agrees tC tH authC authH := by
  obtain ⟨tC, c₁, c₂, c₃, r₁, r₂, r₃, hello, request, confirmation, hc₁, hc₂, hc₃, haccC, hsent,
    hauthC, rfl⟩ := authenticateAsController_eq_ok_iff.1 h.controller
  obtain ⟨tH, f₁, f₂, f₃, q₁, q₂, q₃, ack, response, ready, hf₁, hf₂, hf₃, haccH, hans, hann,
    hauthH, rfl⟩ := authenticateAsHost_eq_ok_iff.1 h.host
  -- Three messages were sent each way, so the three consumed frames are all that arrived.
  have hC : controlFrames toController = c₁ :: c₂ :: c₃ :: controlFrames r₃ :=
    controlFrames_of_three hc₁ hc₂ hc₃
  have hH : controlFrames toHost = f₁ :: f₂ :: f₃ :: controlFrames q₃ :=
    controlFrames_of_three hf₁ hf₂ hf₃
  have hdC := h.fromHost
  have hdH := h.fromController
  rw [Delivered, hC] at hdC
  rw [Delivered, hH] at hdH
  simp only [Link.start, List.nil_append, List.forall₂_cons, List.forall₂_nil_left_iff] at hdC hdH
  obtain ⟨hack, -, hready, hnilC⟩ := hdC
  obtain ⟨hhello, -, -, hnilH⟩ := hdH
  rw [hnilC] at hC
  rw [hnilH] at hH
  -- Each end has read the body that the other end wrote.
  have ackEq := decodeBody_delivered hP.helloCbor rfl hans.ack hack haccC.ack
  have helloEq := decodeBody_delivered hP.helloCbor rfl hsent.hello hhello haccH.hello
  have readyEq := decodeBody_delivered hP.readyCbor rfl hann.ready hready haccC.ready
  have hnonceC : tC.hostNonce = p.hostEnv.nonce :=
    List.Vector.eq _ _ (haccC.nonce.symm.trans (congrArg HelloBody.nonce ackEq))
  have hnonceH : tH.peerNonce = p.controllerEnv.nonce :=
    List.Vector.eq _ _ (haccH.nonce.symm.trans (congrArg HelloBody.nonce helloEq))
  have hlocalC := Option.some.inj (haccC.localCert.symm.trans p.controllerLocal)
  have hremoteC := Option.some.inj (haccC.remoteCert.symm.trans p.controllerRemote)
  have hlocalH := Option.some.inj (haccH.localCert.symm.trans p.hostLocal)
  have hremoteH := Option.some.inj (haccH.remoteCert.symm.trans p.hostRemote)
  -- So both ends bind the same session, each from its own side.
  have hbinding : tH.binding p.hostEnv p.sessionId
      = { tC.binding p.controllerEnv p.sessionId with localRole := .host } := by
    rw [HostTranscript.binding, ControllerTranscript.binding, hnonceC, hnonceH, hlocalC, hremoteC,
      hlocalH, hremoteH]
    exact BindingVerifier.new_host_eq ..
  have hhash : (tC.binding p.controllerEnv p.sessionId).transcriptHash P
      = (tH.binding p.hostEnv p.sessionId).transcriptHash P := by
    rw [hbinding]
    rfl
  refine ⟨tC, tH, c₁, c₂, c₃, f₁, f₂, f₃, hC, hH, haccC, haccH, ?_⟩
  exact
    { input := fun role => by rw [hbinding]; rfl
      hash := hhash
      sasController := by rw [hauthC]; rfl
      sas := by
        rw [hauthC, hauthH, ControllerTranscript.authenticated, HostTranscript.authenticated, hhash]
      peerController := by
        rw [hauthC]
        exact PublicIdentity.ext (List.Vector.eq _ _
          (haccC.pubkey.symm.trans (congrArg HelloBody.pubkey ackEq)))
      peerHost := by
        rw [hauthH]
        exact PublicIdentity.ext (List.Vector.eq _ _
          (haccH.pubkey.symm.trans (congrArg HelloBody.pubkey helloEq)))
      caps := by
        rw [hauthC, hauthH, ControllerTranscript.authenticated, HostTranscript.authenticated,
          readyEq]
        exact SessionCaps.fromNames_toNames _ }

/-! ### Completion -/

/-- The host's transcript of an exchange in which `key` is agreed. -/
def transcript (P : Primitives) (p : Pairing) (key : Bytes 32) : HostTranscript P where
  fpLocal := p.fpHost
  fpRemote := p.fpController
  hello := helloBody P p.controller p.controllerEnv.nonce ⟨p.fpController⟩
  peer := p.controller.toPublic P
  peerNonce := p.controllerEnv.nonce
  request := ⟨P.pakeMessage (pakeStart P .a p.controllerEnv.scalar p.sessionId p.pin.digits), none⟩
  key := key
  confirmation := ⟨(confirm P key "controller" p.sessionId).toList,
    ((BindingVerifier.new p.sessionId .controller p.controllerEnv.nonce p.hostEnv.nonce
      ⟨p.fpController⟩ ⟨p.fpHost⟩).prove P p.controller).signature.toList⟩
  signature := ((BindingVerifier.new p.sessionId .controller p.controllerEnv.nonce p.hostEnv.nonce
      ⟨p.fpController⟩ ⟨p.fpHost⟩).prove P p.controller).signature

/-- The announcement of such an exchange. -/
def ready (P : Primitives) (p : Pairing) (key : Bytes 32) : ReadyBody :=
  ⟨p.granted.toNames, ((transcript P p key).authenticated p.hostEnv p.sessionId p.granted).sas⟩

/-- The controller's transcript of it. -/
def peerTranscript (P : Primitives) (p : Pairing) (key : Bytes 32) : ControllerTranscript P :=
  hostTranscript P p.sessionId p.pin.digits p.fpController p.fpHost (p.host.toPublic P)
    p.hostEnv.nonce p.hostEnv.scalar key (ready P p key)

theorem delivered_arrivalsOf {frames : List ControlFrame}
    (h : ∀ frame ∈ frames, ControlFrame.decode frame.encode = .ok frame) :
    Delivered (frames.map ControlFrame.encode) (arrivalsOf frames) := by
  rw [Delivered, controlFrames_arrivalsOf, List.forall₂_map_left_iff, List.forall₂_same]
  exact h

/-- The frames the controller of a pairing sends. -/
def controllerFrames (P : Primitives) (p : Pairing) (key : Bytes 32) : List ControlFrame :=
  (peerTranscript P p key).frames p.controllerEnv p.sessionId p.controller p.pin.digits

/-- What an honest controller sends makes an accepted transcript. -/
theorem transcript_accepted (hP : P.Lawful) (p : Pairing) (husable : p.pin.isUsable p.nowMs = true)
    {key : Bytes 32}
    (hkey : pakeKey P (pakeStart P .b p.hostEnv.scalar p.sessionId p.pin.digits)
      (P.pakeMessage (pakeStart P .a p.controllerEnv.scalar p.sessionId p.pin.digits)) = .ok key) :
    ∃ f₁ f₂ f₃, controllerFrames P p key = [f₁, f₂, f₃] ∧
      (transcript P p key).Accepted p.hostEnv p.sessionId p.pin p.nowMs f₁ f₂ f₃ := by
  refine ⟨_, _, _, rfl, ?_⟩
  exact
    { localCert := p.hostLocal
      remoteCert := p.hostRemote
      hello := (hP.helloCbor.encodeBody_written _ _ _).2
      pubkey := rfl
      nonce := rfl
      fingerprint := rfl
      request := (hP.pakeCbor.encodeBody_written _ _ _).2
      usable := husable
      key := hkey
      confirmation := (hP.confirmCbor.encodeBody_written _ _ _).2
      tag := rfl
      signature := rfl
      signed := hP.verify_sign _ _ }

/-- The host's half completes on what an honest controller sends. -/
theorem host_completes (hP : P.Lawful) (p : Pairing) (husable : p.pin.isUsable p.nowMs = true)
    (hsend : ∀ n, p.hostEnv.sendResult n = .ok ()) {key : Bytes 32}
    (hkey : pakeKey P (pakeStart P .b p.hostEnv.scalar p.sessionId p.pin.digits)
      (P.pakeMessage (pakeStart P .a p.controllerEnv.scalar p.sessionId p.pin.digits)) = .ok key) :
    (authenticateAsHost P p.hostEnv p.sessionId p.host p.pin p.granted p.nowMs).run
        (.start (arrivalsOf (controllerFrames P p key))) =
      .ok ((transcript P p key).authenticated p.hostEnv p.sessionId p.granted)
        ⟨[], (peerTranscript P p key).hostFrames.map ControlFrame.encode,
          [((transcript P p key).peer.key,
            ((transcript P p key).binding p.hostEnv p.sessionId).input .controller)]⟩ := by
  obtain ⟨f₁, f₂, f₃, hframes, hacc⟩ := transcript_accepted hP p husable hkey
  rw [hframes]
  refine authenticateAsHost_eq_ok_iff.2 ⟨transcript P p key, f₁, f₂, f₃, _, _, _, _, _, _, rfl, rfl,
    rfl, hacc, ?_, ?_, rfl, rfl⟩
  · exact ⟨(hP.helloCbor.encodeBody_written _ _ _).1, hsend _,
      (hP.pakeCbor.encodeBody_written _ _ _).1, hsend _⟩
  · exact ⟨(hP.readyCbor.encodeBody_written _ _ _).1, hsend _⟩

/-- **Honest ends complete the exchange**, if the PIN is usable and the transport carries what they
send. -/
theorem exists_completed (hP : P.Lawful) (p : Pairing) (husable : p.pin.isUsable p.nowMs = true)
    (hsendC : ∀ n, p.controllerEnv.sendResult n = .ok ())
    (hsendH : ∀ n, p.hostEnv.sendResult n = .ok ()) :
    ∃ (toController toHost : List Arrival) (authC authH : Authenticated P) (linkC linkH : Link),
      p.Completed toController toHost authC authH linkC linkH := by
  obtain ⟨key, hkeyC, hkeyH⟩ := PinVerifier.respond_agrees hP p.controllerEnv.scalar
    p.hostEnv.scalar p.sessionId p.pin.digits
  have hcontroller := authenticateAsController_pinHolder p.controllerEnv p.controller hP
    p.controllerLocal p.controllerRemote hsendC p.pin.isPin_digits p.hostEnv.scalar hkeyC
    (p.host.toPublic P) p.hostEnv.nonce (ready P p key)
  have hhost := host_completes hP p husable hsendH hkeyH
  refine ⟨_, _, _, _, _, _, hcontroller, hhost, delivered_arrivalsOf ?_, delivered_arrivalsOf ?_⟩
  · simp only [ControllerTranscript.frames, List.forall_mem_cons]
    exact ⟨decode_bodyFrame rfl _ _, decode_bodyFrame rfl _ _, decode_bodyFrame rfl _ _, by simp⟩
  · simp only [ControllerTranscript.hostFrames, List.forall_mem_cons]
    exact ⟨decode_bodyFrame rfl _ _, decode_bodyFrame rfl _ _, decode_bodyFrame rfl _ _, by simp⟩

end Pairing

/-- **Safety and agreement of the host's half.**  Whatever arrives, the host returns or announces
the session only on three control frames that pass every check of its half; on anything else it
fails and has announced nothing.  And with libraries that do what they document, honest ends
complete the exchange, and a completed exchange is one session at both ends. -/
theorem host_handshake_safe_and_agrees (P : Primitives) :
    (∀ (env : HandshakeEnv) (sessionId : String) (identity : Identity) (pin : SessionPin)
      (granted : SessionCaps) (nowMs : ℕ) (arrivals : List Arrival),
      ((∃ auth link, (authenticateAsHost P env sessionId identity pin granted nowMs).run
            (.start arrivals) = .ok auth link) ∨
          ¬ NoReady (Program.final (authenticateAsHost P env sessionId identity pin granted nowMs)
            (.start arrivals)) →
        HostAccepts P env sessionId pin nowMs arrivals) ∧
      (¬ HostAccepts P env sessionId pin nowMs arrivals →
        ∃ e link, (authenticateAsHost P env sessionId identity pin granted nowMs).run
            (.start arrivals) = .error e link ∧ NoReady link)) ∧
    (P.Lawful → ∀ p : Pairing,
      (p.pin.isUsable p.nowMs = true → (∀ n, p.controllerEnv.sendResult n = .ok ()) →
        (∀ n, p.hostEnv.sendResult n = .ok ()) →
        ∃ (toController toHost : List Arrival) (authC authH : Authenticated P) (linkC linkH : Link),
          p.Completed toController toHost authC authH linkC linkH) ∧
      ∀ (toController toHost : List Arrival) (authC authH : Authenticated P) (linkC linkH : Link),
        p.Completed toController toHost authC authH linkC linkH →
        ∃ (tC : ControllerTranscript P) (tH : HostTranscript P) (c₁ c₂ c₃ f₁ f₂ f₃ : ControlFrame),
          controlFrames toController = [c₁, c₂, c₃] ∧ controlFrames toHost = [f₁, f₂, f₃] ∧
            tC.Accepted p.controllerEnv p.sessionId p.pin.digits c₁ c₂ c₃ ∧
            tH.Accepted p.hostEnv p.sessionId p.pin p.nowMs f₁ f₂ f₃ ∧
            p.Agrees tC tH authC authH) := by
  constructor
  · intro env sessionId identity pin granted nowMs arrivals
    have hstart : NoReady (.start arrivals) := fun bytes hbytes => absurd hbytes List.not_mem_nil
    have hsafe : (∃ auth link, (authenticateAsHost P env sessionId identity pin granted nowMs).run
          (.start arrivals) = .ok auth link) ∨
        ¬ NoReady (Program.final (authenticateAsHost P env sessionId identity pin granted nowMs)
          (.start arrivals)) → HostAccepts P env sessionId pin nowMs arrivals := by
      rintro (⟨auth, link, hrun⟩ | hannounced)
      · exact hostAccepts_of_ok hrun
      · exact hostAccepts_of_announced hstart hannounced
    refine ⟨hsafe, ?_⟩
    -- An exchange that is not accepted neither returns nor announces, so it fails.
    intro hno
    have hquiet := not_not.1 fun h => hno (hsafe (.inr h))
    cases hrun : (authenticateAsHost P env sessionId identity pin granted nowMs).run
        (.start arrivals) with
    | ok auth link => exact absurd (hsafe (.inl ⟨auth, link, hrun⟩)) hno
    | error e link =>
        rw [Program.final_of_error hrun] at hquiet
        exact ⟨e, link, rfl, hquiet⟩
  · intro hP p
    exact ⟨Pairing.exists_completed hP p, fun _ _ _ _ _ _ h => h.agrees hP⟩

/-- Devices 1 and 2, in a session with the PIN `482913`. -/
def Sample.pairing (granted : SessionCaps) : Pairing where
  sessionId := "sess_1"
  pin := .generate Sample.pinValue 0
  granted := granted
  nowMs := 1000
  controller := Sample.device 1
  host := Sample.device 2
  controllerEnv := Sample.controllerEnv
  hostEnv := ⟨some (Sample.bytes 32 0xBB), some (Sample.bytes 32 0xAA), Sample.bytes 32 2, 12,
    fun _ => .ok ()⟩
  fpController := Sample.bytes 32 0xAA
  fpHost := Sample.bytes 32 0xBB
  controllerLocal := rfl
  controllerRemote := rfl
  hostLocal := rfl
  hostRemote := rfl

theorem host_handshake_sample :
    ∃ (toController toHost : List Arrival) (authC authH : Authenticated .sample)
      (linkC linkH : Link),
      (Sample.pairing .viewOnly).Completed toController toHost authC authH linkC linkH :=
  ((host_handshake_safe_and_agrees .sample).2 Primitives.sample_lawful
    (Sample.pairing .viewOnly)).1
    (by decide) (fun _ => rfl) (fun _ => rfl)

end Rda
