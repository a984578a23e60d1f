/-
**The host as it is served.**

The host binary does not drive a `Rda.HostSession`.  It shows a PIN, waits to be dialled, negotiates
with what its own options allow, runs the host's half of the handshake and issues a grant for what
it offered.  Of the connect request it uses the session id alone.

Replaying a served session on the documented state machine, with the same request, policy, PIN,
messages and address book, shows what is not checked: that the peer is the one that dialled, that it
asked for what it is given, and that its key is the one in the address book.

Main definitions:

* `Rda.waitLoop`, `Rda.acceptConnection`, `Rda.oneSession` — one served session;
* `Rda.Served.Refines` — the documented state machine, driven alike, grants the same.

Main results:

* `Rda.oneSession_eq_ok_iff` — what a served session went through;
* `Rda.served_refines_iff` — **a served session refines the state machine exactly when the peer is
  the one that dialled, the policy is within the request and the address book has no other key**.
-/

import Rda.HandshakeAgreement
import Rda.HostSessionBinding
import Rda.Negotiate

set_option relaxedAutoImplicit false
set_option autoImplicit false

namespace Rda

variable {P : Primitives}

/-! ### Options and errors -/

/-- The options of a host that a session depends on. -/
structure ServeOptions where
  fixedPin : Option String
  allowInput : Bool

/-- What the host is willing to grant: `input` only when it was explicitly enabled. -/
def ServeOptions.granted (options : ServeOptions) : SessionCaps :=
  { SessionCaps.default with view := true, input := options.allowInput }

/-- Why a session ended early. -/
inductive ServeError
  | invalidPin (e : PakeError)
  | signalingClosed
  | negotiation (e : NegotiateError)
  | authentication (e : AuthError)
  deriving DecidableEq, Repr

/-- How long a displayed PIN is used before it is replaced. -/
def PIN_REFRESH_MS : ℕ := PIN_TTL_MS / 2

/-- Creates the PIN for a session, honouring a fixed one. -/
def mintPin (options : ServeOptions) (value : Fin 1000000) (nowMs : ℕ) :
    Except ServeError SessionPin :=
  match options.fixedPin with
  | some digits => (SessionPin.fromDigits digits nowMs).mapError .invalidPin
  | none => .ok (.generate value nowMs)

/-! ### Waiting to be dialled -/

/-- The wait loop's variables.  The request is the last one that came, with the session id it came
with; the code keeps the id. -/
structure Waiting where
  pin : SessionPin
  pinIssuedMs : ℕ
  request : Option (Option String × ConnectRequest)
  credentials : Option (Option String × RelayCredentials)

/-- What ends one wait. -/
inductive WaitTurn
  | envelope (envelope : Envelope)
  /-- The signaling connection has closed. -/
  | closed
  /-- Nothing came for a while; the clock, and the digits drawn if the PIN has to be replaced. -/
  | quiet (nowMs : ℕ) (value : Fin 1000000)

/-- What is done with an envelope. -/
def Waiting.take (w : Waiting) (envelope : Envelope) : Waiting :=
  match envelope.msg with
  | .relayCredentials c => { w with credentials := some (envelope.sid, c) }
  | .connectRequest request => { w with request := some (envelope.sid, request) }
  | _ => w

theorem Waiting.take_pin (w : Waiting) (envelope : Envelope) :
    (w.take envelope).pin = w.pin ∧ (w.take envelope).pinIssuedMs = w.pinIssuedMs := by
  unfold Waiting.take
  split <;> exact ⟨rfl, rfl⟩

/-- A session that can begin: an id, and credentials that are its own or the server's for all. -/
def Waiting.dialled (w : Waiting) : Option (String × ConnectRequest × RelayCredentials) :=
  match w.request, w.credentials with
  | some (some sid, request), some (credSid, credentials) =>
      if credSid = none ∨ credSid = some sid then some (sid, request, credentials) else none
  | _, _ => none

/-- The wait loop; none while it is still waiting. -/
def waitLoop (options : ServeOptions) : Waiting → List WaitTurn →
    Option (Except ServeError (Waiting × String × ConnectRequest × RelayCredentials))
  | _, [] => none
  | _, .closed :: _ => some (.error .signalingClosed)
  | w, .quiet nowMs value :: rest =>
      if nowMs - w.pinIssuedMs ≥ PIN_REFRESH_MS then
        match mintPin options value nowMs with
        | .error e => some (.error e)
        | .ok pin => waitLoop options { w with pin := pin, pinIssuedMs := nowMs } rest
      else waitLoop options w rest
  | w, .envelope envelope :: rest =>
      match (w.take envelope).dialled with
      | some dialled => some (.ok (w.take envelope, dialled))
      | none => waitLoop options (w.take envelope) rest

/-! ### One session -/

/-- What the world decides in one session. -/
structure ServeWorld where
  /-- The digits of the first PIN. -/
  pinValue : Fin 1000000
  waits : List WaitTurn
  /-- The result of sending the acceptance. -/
  responseSend : Except String Unit
  /-- Whether a peer connection can be built from the credentials. -/
  sessionNew : RelayCredentials → Except TransportError Unit
  /-- The clock when negotiation starts. -/
  negotiateAt : ℕ
  turns : List Turn
  /-- What arrives on the peer connection after negotiation. -/
  arrivals : List Arrival
  handshake : HandshakeEnv
  authMs : ℕ
  grantMs : ℕ

/-- Answers the request and negotiates; the frames that arrived meanwhile are returned. -/
def acceptConnection (world : ServeWorld) (sessionId : String) (credentials : RelayCredentials) :
    Option (Except NegotiateError (List (Channel × ControlFrame))) :=
  match world.responseSend with
  | .error e => some (.error (.signaling e))
  | .ok () =>
      match world.sessionNew credentials with
      | .error e => some (.error (.transport e))
      | .ok () =>
          (pump ⟨sessionId, world.negotiateAt + NEGOTIATION_TIMEOUT_MS, true⟩ world.turns).result

/-- The acceptance the controller is sent. -/
def acceptance (sessionId : String) (granted : SessionCaps) : ConnectResponse :=
  .accept sessionId granted.toNames granted

/-- Frames put back in front of what arrives next. -/
def pushBackFrames (frames : List (Channel × ControlFrame)) (arrivals : List Arrival) :
    List Arrival :=
  frames.map (fun f => .event (.frame f.1 f.2)) ++ arrivals

/-- A session that was served: what it was dialled with, what the handshake was run on and
returned, and the grant. -/
structure Served (P : Primitives) where
  sessionId : String
  request : ConnectRequest
  pin : SessionPin
  response : ConnectResponse
  arrivals : List Arrival
  authenticated : Authenticated P
  grant : SessionGrant

/-- Shows a PIN, waits for one peer, negotiates, authenticates it and issues the grant; none while
it is still waiting or negotiating. -/
def oneSession (P : Primitives) (options : ServeOptions) (identity : Identity)
    (world : ServeWorld) : Option (Except ServeError (Served P)) :=
  match mintPin options world.pinValue 0 with
  | .error e => some (.error e)
  | .ok pin =>
      match waitLoop options ⟨pin, 0, none, none⟩ world.waits with
      | none => none
      | some (.error e) => some (.error e)
      | some (.ok (w, sessionId, request, credentials)) =>
          match acceptConnection world sessionId credentials with
          | none => none
          | some (.error e) => some (.error (.negotiation e))
          | some (.ok frames) =>
              let arrivals := pushBackFrames frames world.arrivals
              match (authenticateAsHost P world.handshake sessionId identity w.pin options.granted
                  world.authMs).run (.start arrivals) with
              | .error e _ => some (.error (.authentication e))
              | .ok authenticated _ =>
                  some (.ok
                    { sessionId := sessionId
                      request := request
                      pin := w.pin
                      response := acceptance sessionId options.granted
                      arrivals := arrivals
                      authenticated := authenticated
                      grant := .issue sessionId authenticated.peer.deviceId authenticated.caps
                        .sessionPin world.grantMs })

/-- What a served session went through. -/
theorem oneSession_eq_ok_iff {options : ServeOptions} {identity : Identity} {world : ServeWorld}
    {served : Served P} :
    oneSession P options identity world = some (.ok served) ↔
      ∃ (pin : SessionPin) (w : Waiting) (sessionId : String) (request : ConnectRequest)
        (credentials : RelayCredentials) (frames : List (Channel × ControlFrame))
        (authenticated : Authenticated P) (link : Link),
        mintPin options world.pinValue 0 = .ok pin ∧
          waitLoop options ⟨pin, 0, none, none⟩ world.waits
            = some (.ok (w, sessionId, request, credentials)) ∧
          acceptConnection world sessionId credentials = some (.ok frames) ∧
          (authenticateAsHost P world.handshake sessionId identity w.pin options.granted
            world.authMs).run (.start (pushBackFrames frames world.arrivals))
              = .ok authenticated link ∧
          served = ⟨sessionId, request, w.pin, acceptance sessionId options.granted,
            pushBackFrames frames world.arrivals, authenticated,
            .issue sessionId authenticated.peer.deviceId authenticated.caps .sessionPin
              world.grantMs⟩ := by
  unfold oneSession
  constructor
  · intro h
    split at h
    · cases h
    · rename_i pin hpin
      split at h
      · cases h
      · cases h
      · rename_i w sessionId request credentials hwait
        split at h
        · cases h
        · cases h
        · rename_i frames haccept
          dsimp only at h
          split at h
          · cases h
          · rename_i authenticated link hauth
            cases h
            exact ⟨pin, w, sessionId, request, credentials, frames, authenticated, link, hpin,
              hwait, haccept, hauth, rfl⟩
  · rintro ⟨pin, w, sessionId, request, credentials, frames, authenticated, link, hpin, hwait,
      haccept, hauth, rfl⟩
    rw [hpin]
    simp only [hwait, haccept, hauth]

/-! ### The documented state machine, driven alike -/

/-- What the peer presented in the handshake, as the state machine takes it. -/
def HostTranscript.credentials (t : HostTranscript P) (env : HandshakeEnv) (sessionId : String) :
    PeerCredentials P :=
  ⟨t.peer, t.binding env sessionId, ⟨.controller, t.peer, t.signature⟩⟩

/-- A session of the state machine for the request, dialled by `who`: consented to with the host's
policy when the PIN was shown, and driven by the messages of the transcript. -/
def Served.replay (served : Served P) (options : ServeOptions) (world : ServeWorld)
    (book : AddressBook) (t : HostTranscript P) (who : PublicIdentity P) (pinValue : Fin 1000000)
    (confirmation : Bytes 32) : HostSession P :=
  (HostSession.run
    (.new P served.sessionId who.deviceId (.fromNames served.request.requestedCaps)
      served.pin.issuedMs)
    (HostSession.pinCalls options.granted pinValue served.pin.issuedMs world.handshake.scalar
      t.request.message world.authMs confirmation
      (t.credentials world.handshake served.sessionId) book world.grantMs)).session

/-- The checks of the state machine in the replay. -/
def Served.ReplayAccepts (served : Served P) (world : ServeWorld) (book : AddressBook)
    (t : HostTranscript P) (who : PublicIdentity P) (pinValue : Fin 1000000)
    (confirmation : Bytes 32) : Prop :=
  HostSession.PinPathAccepts P served.sessionId who.deviceId served.pin.issuedMs pinValue
    served.pin.issuedMs world.handshake.scalar t.request.message world.authMs confirmation
    (t.credentials world.handshake served.sessionId) book

/-- The transcript is the one of the handshake that was served. -/
def Served.HasTranscript (served : Served P) (world : ServeWorld) (t : HostTranscript P) : Prop :=
  ∃ f₁ f₂ f₃ rest, controlFrames served.arrivals = f₁ :: f₂ :: f₃ :: rest ∧
    t.Accepted world.handshake served.sessionId served.pin world.authMs f₁ f₂ f₃

/-- The request names a peer, and the state machine, driven for that peer with the same PIN and the
same messages, is established with the same capabilities. -/
def Served.Refines (served : Served P) (options : ServeOptions) (world : ServeWorld)
    (book : AddressBook) (t : HostTranscript P) : Prop :=
  ∃ (who : PublicIdentity P) (pinValue : Fin 1000000) (confirmation : Bytes 32),
    PublicIdentity.fromB64 P served.request.fromPubkey = .ok who ∧
      formatPin pinValue = served.pin.digits ∧
      t.confirmation.confirm = confirmation.toList ∧
      (served.replay options world book t who pinValue confirmation).state = .established ∧
      ∃ grant, (served.replay options world book t who pinValue confirmation).grant = some grant ∧
        grant.caps = served.grant.caps

/-- What serving does not check: the peer is the device that dialled, the policy is within the
request, and the address book has no other key for the peer. -/
structure Served.Checked (served : Served P) (options : ServeOptions) (book : AddressBook)
    (t : HostTranscript P) : Prop where
  dialled : ∃ who, PublicIdentity.fromB64 P served.request.fromPubkey = .ok who ∧
    who.deviceId = t.peer.deviceId
  requested : options.granted ≤ .fromNames served.request.requestedCaps
  pinned : book.check t.peer ≠ .keyChanged

section Refinement

variable {options : ServeOptions} {identity : Identity} {world : ServeWorld} {served : Served P}
  {book : AddressBook} {t : HostTranscript P}

/-- A served session has a transcript; its peer and the host's policy are what was granted. -/
theorem exists_transcript (h : oneSession P options identity world = some (.ok served)) :
    ∃ t : HostTranscript P, served.HasTranscript world t ∧
      served.grant.peer = t.peer.deviceId ∧ served.grant.caps = options.granted := by
  obtain ⟨pin, w, sessionId, request, credentials, frames, authenticated, link, -, -, -, hauth,
    rfl⟩ := oneSession_eq_ok_iff.1 h
  obtain ⟨t, f₁, f₂, f₃, r₁, r₂, r₃, ack, response, ready, h₁, h₂, h₃, hacc, -, -, rfl, -⟩ :=
    authenticateAsHost_eq_ok_iff.1 hauth
  exact ⟨t, ⟨f₁, f₂, f₃, controlFrames r₃, controlFrames_of_three h₁ h₂ h₃, hacc⟩, rfl, rfl⟩

theorem usable_ttl {pin : SessionPin} {nowMs : ℕ} (h : pin.isUsable nowMs = true) :
    nowMs - pin.issuedMs ≤ PIN_TTL_MS := by
  simp only [SessionPin.isUsable, Bool.and_eq_true, decide_eq_true_eq] at h
  exact h.2

/-- The state machine accepts the transcript of a served session for the device that dialled, if
that device is the peer and its key is not a changed one. -/
theorem pinPathAccepts_iff (h : served.HasTranscript world t) {who : PublicIdentity P}
    {pinValue : Fin 1000000} (hpin : formatPin pinValue = served.pin.digits)
    {confirmation : Bytes 32} (hconf : t.confirmation.confirm = confirmation.toList) :
    served.ReplayAccepts world book t who pinValue confirmation ↔
      book.check t.peer ≠ .keyChanged ∧ t.peer.deviceId = who.deviceId := by
  obtain ⟨f₁, f₂, f₃, rest, -, hacc⟩ := h
  have hverify : (t.binding world.handshake served.sessionId).verify
      ⟨.controller, t.peer, t.signature⟩ none = .ok () :=
    BindingVerifier.verify_eq_ok_iff.2 ⟨rfl, by simp, hacc.signed⟩
  have hkey : pakeKey P
      (pakeStart P .b world.handshake.scalar served.sessionId (formatPin pinValue))
      t.request.message = .ok t.key := hpin ▸ hacc.key
  have htag : confirm P t.key "controller" served.sessionId = confirmation :=
    List.Vector.eq _ _ (hacc.tag.symm.trans hconf)
  constructor
  · rintro ⟨-, -, key, -, -, htrust, hbound⟩
    exact ⟨htrust, (BindingVerifier.verify_some_iff.1 hbound).2⟩
  · rintro ⟨htrust, hid⟩
    exact ⟨by simp, usable_ttl hacc.usable, t.key, hkey, htag, htrust,
      BindingVerifier.verify_some_iff.2 ⟨hverify, hid⟩⟩

theorem replay_grant {who : PublicIdentity P} {pinValue : Fin 1000000} {confirmation : Bytes 32}
    (h : served.ReplayAccepts world book t who pinValue confirmation) :
    (served.replay options world book t who pinValue confirmation).state = .established ∧
      (served.replay options world book t who pinValue confirmation).grant =
        some (.issue served.sessionId who.deviceId
          (.fromNames served.request.requestedCaps ⊓ options.granted) .sessionPin world.grantMs) :=
  HostSession.grant_pinCalls h

theorem refines_iff_checked (h : served.HasTranscript world t)
    (hcaps : served.grant.caps = options.granted) :
    served.Refines options world book t ↔ served.Checked options book t := by
  constructor
  · rintro ⟨who, pinValue, confirmation, hwho, hpin, hconf, hest, grant, hgrant, hcaps'⟩
    have hpath : served.ReplayAccepts world book t who pinValue confirmation :=
      HostSession.established_pinCalls_iff.1 hest
    obtain ⟨htrust, hid⟩ := (pinPathAccepts_iff h hpin hconf).1 hpath
    refine ⟨⟨who, hwho, hid.symm⟩, ?_, htrust⟩
    cases hgrant.symm.trans (replay_grant hpath).2
    exact inf_eq_right.1 (hcaps'.trans hcaps)
  · rintro ⟨⟨who, hwho, hid⟩, hrequested, htrust⟩
    obtain ⟨pinValue, hpin⟩ := exists_formatPin served.pin.isPin_digits
    have ⟨f₁, f₂, f₃, rest, _, hacc⟩ := h
    have hpath : served.ReplayAccepts world book t who pinValue _ :=
      (pinPathAccepts_iff h hpin hacc.tag).2 ⟨htrust, hid.symm⟩
    obtain ⟨hest, hgrant⟩ := replay_grant hpath
    refine ⟨who, pinValue, _, hwho, hpin, hacc.tag, hest, _, hgrant, ?_⟩
    rw [hcaps]
    exact inf_eq_right.2 hrequested

end Refinement

/-- **When a served session refines the state machine**: exactly when the peer is the device that
dialled, the host's policy is within the request, and the address book has no other key for the
peer.  Serving checks none of the three. -/
theorem served_refines_iff {options : ServeOptions} {identity : Identity} {world : ServeWorld}
    {served : Served P} (h : oneSession P options identity world = some (.ok served)) :
    (∃ t, served.HasTranscript world t) ∧
      ∀ t, served.HasTranscript world t → ∀ book,
        (served.Refines options world book t ↔ served.Checked options book t) := by
  obtain ⟨t, ht, -, hcaps⟩ := exists_transcript h
  exact ⟨⟨t, ht⟩, fun t' ht' book => refines_iff_checked ht' hcaps⟩

/-! ### A served session -/

namespace Sample

/-- A host that offers input, and does not fix its PIN. -/
def options : ServeOptions := ⟨none, true⟩

/-- Device 1 asks device 2 for `requested`. -/
def request (requested : List String) : ConnectRequest where
  target := (device 2).deviceId .sample
  fromPubkey := ((device 1).toPublic .sample).toB64
  fromLabel := none
  authMode := .pin
  token := none
  requestedCaps := requested

/-- The key of the handshake. -/
def handshakeKey : Bytes 32 := agreedKey 11 12 "sess_1" "482913"

/-- The transcript of the handshake. -/
def transcript : HostTranscript .sample := (pairing options.granted).transcript .sample handshakeKey

/-- A session in which nothing goes wrong. -/
def world (requested : List String) : ServeWorld where
  pinValue := Sample.pinValue
  waits :=
    [.envelope ⟨some "sess_1", .connectRequest (request requested)⟩,
      .envelope ⟨some "sess_1", .relayCredentials ⟨[], 600, []⟩⟩]
  responseSend := .ok ()
  sessionNew _ := .ok ()
  negotiateAt := 0
  turns :=
    [turn (.event (some (.connectionState .connected))) [.control],
      turn (.event (some (.channelOpen .control))) [],
      turn .tick [],
      turn (envelope .channelsReady) []]
  arrivals := arrivalsOf ((pairing options.granted).controllerFrames .sample handshakeKey)
  handshake := (pairing options.granted).hostEnv
  authMs := 1000
  grantMs := 1000

/-- What is served in it. -/
def served (requested : List String) : Served .sample where
  sessionId := "sess_1"
  request := request requested
  pin := .generate Sample.pinValue 0
  response := acceptance "sess_1" options.granted
  arrivals := (world requested).arrivals
  authenticated := transcript.authenticated (world requested).handshake "sess_1" options.granted
  grant := .issue "sess_1" ((device 1).deviceId .sample) options.granted .sessionPin 1000

theorem handshakeKey_agreed :
    pakeKey .sample
      (pakeStart .sample .b 12 "sess_1" (SessionPin.generate Sample.pinValue 0).digits)
      (Primitives.sample.pakeMessage (pakeStart .sample .a 11 "sess_1"
        (SessionPin.generate Sample.pinValue 0).digits)) = .ok handshakeKey := by
  have hdigits : (SessionPin.generate Sample.pinValue 0).digits = "482913" := by decide
  rw [hdigits]
  exact pakeKey_eq_ok.2 rfl

theorem oneSession_world (requested : List String) :
    oneSession .sample options (device 2) (world requested) = some (.ok (served requested)) := by
  have hauth := Pairing.host_completes Primitives.sample_lawful (pairing options.granted)
    (by decide) (fun _ => rfl) handshakeKey_agreed
  exact oneSession_eq_ok_iff.2 ⟨_, _, _, _, _, [], _, _, rfl, rfl, rfl, hauth, rfl⟩

theorem hasTranscript_served (requested : List String) :
    (served requested).HasTranscript (world requested) transcript := by
  obtain ⟨f₁, f₂, f₃, hframes, hacc⟩ := Pairing.transcript_accepted Primitives.sample_lawful
    (pairing options.granted) (by decide) handshakeKey_agreed
  refine ⟨f₁, f₂, f₃, [], ?_, hacc⟩
  rw [← hframes]
  exact controlFrames_arrivalsOf _

/-- An address book in which device 1's id has the key of device 3. -/
def changedBook : AddressBook :=
  ⟨Function.update AddressBook.new.entries ((device 1).toPublic .sample).deviceId
    (some ((device 3).toPublic .sample).key)⟩

theorem check_changedBook : changedBook.check ((device 1).toPublic .sample) = .keyChanged := by
  have hkeys : ((device 3).toPublic .sample).key ≠ ((device 1).toPublic .sample).key := by
    decide
  refine AddressBook.check_keyChanged_iff.2 ⟨_, ?_, hkeys⟩
  simp only [changedBook, Function.update_self]

end Sample

/-- The controller asks for view and input, which is what the host offers, and is new to the address
book: the served session refines the state machine. -/
theorem served_refines_sample :
    (Sample.served ["view", "input"]).Refines Sample.options (Sample.world ["view", "input"]) .new
      Sample.transcript := by
  refine ((served_refines_iff (Sample.oneSession_world ["view", "input"])).2 _
    (Sample.hasTranscript_served _) .new).2 ⟨⟨(Sample.device 1).toPublic .sample, ?_, rfl⟩, ?_, ?_⟩
  · exact PublicIdentity.fromB64_toB64 Primitives.sample_lawful _
  · decide
  · simp

/-- A controller that asks to view is granted input; and a controller whose key is not the one in
the address book is served. -/
theorem served_refines_fails :
    (oneSession .sample Sample.options (Sample.device 2) (Sample.world ["view"])
        = some (.ok (Sample.served ["view"])) ∧
      (Sample.served ["view"]).HasTranscript (Sample.world ["view"]) Sample.transcript ∧
      ¬ (Sample.served ["view"]).Refines Sample.options (Sample.world ["view"]) .new
        Sample.transcript) ∧
    (oneSession .sample Sample.options (Sample.device 2) (Sample.world ["view", "input"])
        = some (.ok (Sample.served ["view", "input"])) ∧
      (Sample.served ["view", "input"]).HasTranscript (Sample.world ["view", "input"])
        Sample.transcript ∧
      ¬ (Sample.served ["view", "input"]).Refines Sample.options (Sample.world ["view", "input"])
        Sample.changedBook Sample.transcript) := by
  refine ⟨⟨Sample.oneSession_world _, Sample.hasTranscript_served _, ?_⟩,
    ⟨Sample.oneSession_world _, Sample.hasTranscript_served _, ?_⟩⟩
  · intro h
    have hchecked := (refines_iff_checked (Sample.hasTranscript_served _) rfl).1 h
    exact absurd hchecked.requested (by decide)
  · intro h
    have hchecked := (refines_iff_checked (Sample.hasTranscript_served _) rfl).1 h
    exact hchecked.pinned Sample.check_changedBook

end Rda
