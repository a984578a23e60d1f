/-
**The signalling client.**

A device that connects to the signalling server is sent a challenge, signs it with its long-term key
and waits for the acknowledgement.  The key signs nothing else for the server, and each call signs
at most one nonce.  Whoever holds the socket of a registered connection, the signature that
registered it was therefore made by a call of the device that was given that connection's own
nonce; and where nonces are fresh, no two connections are registered by one call.

Main definitions:

* `Rda.Signal.Identity`, `Rda.Signal.ClientConfig`, `Rda.Signal.ClientError`;
* `Rda.Signal.Client`, `Rda.Signal.Client.receive` — a call of `connect` and the tasks it leaves
  behind, item by item of its socket's stream;
* `Rda.Signal.World`, `Rda.Signal.World.step` — the server, and the calls of one device;
* `Rda.Signal.Unforged` — a signature that is shown to the server was made by its key.

Main results:

* `Rda.Signal.Client.nonce_receive` — a call keeps to its nonce;
* `Rda.Signal.registered_by_the_device` — **every registration under the device's key answers a
  challenge that a call of the device was given**, and no call answers for two.
-/

import Rda.DomainSeparation
import Rda.SignalPresence

set_option relaxedAutoImplicit false
set_option autoImplicit false

namespace Rda

open Machine

namespace Signal

/-! ### The device -/

/-- A device's long-term signing identity; the id is the key's own. -/
structure Identity (P : Primitives) where
  signingKey : Bytes 32
  deviceId : DeviceId
  deviceId_eq : deviceIdFromPubkey P (P.verifyingKey signingKey).1 = deviceId

namespace Identity

variable {P : Primitives} (identity : Identity P)

/-- Wraps an existing signing key. -/
def new (P : Primitives) (signingKey : Bytes 32) : Identity P where
  signingKey := signingKey
  deviceId := deviceIdFromPubkey P (P.verifyingKey signingKey).1
  deviceId_eq := rfl

/-- The key a registration shows. -/
def pubkey : Bytes 32 := (P.verifyingKey identity.signingKey).1

def pubkeyB64 : String := P.encodeB64 identity.pubkey.toList

/-- Signs a registration challenge. -/
def signRegistration (nonce : Bytes NONCE_LEN) (role : Role) : String :=
  P.encodeB64
    (P.sign identity.signingKey
      (Register.signingInput nonce.toList identity.deviceId role)).toList

end Identity

/-! ### The client -/

/-- What the client advertises at registration. -/
structure ClientConfig where
  role : Role
  popRtt : PopRtt

/-- Client-side failures. -/
inductive ClientError
  | webSocket
  | signaling (e : SignalingError)
  | closed
  | noChallenge
  | badChallenge
  | refused (code : UInt16) (message : String)
  deriving DecidableEq

/-- The next item of the client's stream. -/
inductive Item
  /-- A text frame, and what parsing it gives. -/
  | text (parsed : Except SignalingError Envelope)
  /-- A binary frame, a ping or a pong. -/
  | skipped
  /-- A close frame, or the end of the stream. -/
  | closed
  | failure

/-- What `next_envelope` makes of an item; it goes on to the next item where there is nothing. -/
def nextEnvelope : Item → Option (Except ClientError (Option Envelope))
  | .text (.ok env) => some (.ok (some env))
  | .text (.error e) => some (.error (.signaling e))
  | .skipped => none
  | .closed => some (.ok none)
  | .failure => some (.error .webSocket)

/-- Where a call of `connect` stands. -/
inductive Stage
  | challenging
  | acknowledging
  /-- The call has returned a connection, whose reader runs until the stream ends or fails. -/
  | connected (deviceId : DeviceId) (heartbeatIntervalS : UInt32) (reading : Bool)
  | failed (e : ClientError)
  deriving DecidableEq

/-- A call of `connect`: its stage, the nonce it has read, what was given to the socket, and what
the connection it returns has in its inbox. -/
structure Client where
  stage : Stage
  nonce : Option (Bytes NONCE_LEN)
  written : List Envelope
  inbox : List Envelope
  deriving DecidableEq

namespace Client

variable {P : Primitives}

/-- A call before the first item. -/
def new : Client := ⟨.challenging, none, [], []⟩

/-- The registration that answers a challenge. -/
def registration (identity : Identity P) (config : ClientConfig) (nonce : Bytes NONCE_LEN) :
    Register where
  deviceId := identity.deviceId
  pubkey := identity.pubkeyB64
  sig := identity.signRegistration nonce config.role
  role := config.role
  popRtt := config.popRtt

/-- The challenge is signed and the registration sent; `sends` says whether the socket takes it. -/
def challenged (identity : Identity P) (config : ClientConfig) (c : Client) (ulid : String)
    (sends : Bool) (env : Envelope) : Client :=
  match env.msg with
  | .challenge nonce _ =>
      match (P.decodeB64 nonce).bind (Bytes.tryFrom NONCE_LEN) with
      | none => { c with stage := .failed .badChallenge }
      | some nonce =>
          { c with
            stage := if sends then .acknowledging else .failed .webSocket
            nonce := some nonce
            written := c.written ++ [⟨ulid, none, .register (registration identity config nonce)⟩] }
  -- The server speaks first, and it opens with a challenge.
  | _ => { c with stage := .failed .noChallenge }

/-- The server's answer to the registration. -/
def acknowledged (c : Client) (env : Envelope) : Client :=
  match env.msg with
  | .registerAck deviceId heartbeatIntervalS _ =>
      { c with stage := .connected deviceId heartbeatIntervalS true }
  | .error payload => { c with stage := .failed (.refused payload.code payload.message) }
  | _ => { c with stage := .failed .noChallenge }

/-- The next item of the stream. -/
def receive (identity : Identity P) (config : ClientConfig) (c : Client) (ulid : String)
    (sends : Bool) (item : Item) : Client :=
  match nextEnvelope item with
  | none => c
  | some next =>
      match c.stage, next with
      | .challenging, .ok (some env) => c.challenged identity config ulid sends env
      | .acknowledging, .ok (some env) => c.acknowledged env
      | .challenging, .ok none | .acknowledging, .ok none => { c with stage := .failed .closed }
      | .challenging, .error e | .acknowledging, .error e => { c with stage := .failed e }
      | .connected _ _ true, .ok (some env) => { c with inbox := c.inbox ++ [env] }
      | .connected deviceId heartbeatIntervalS true, _ =>
          { c with stage := .connected deviceId heartbeatIntervalS false }
      | .connected _ _ false, _ | .failed _, _ => c

section Receive

variable {identity : Identity P} {config : ClientConfig} {c : Client}

theorem acknowledged_nonce (c : Client) (env : Envelope) :
    (c.acknowledged env).nonce = c.nonce := by
  unfold acknowledged
  split <;> rfl

/-- While the call waits for its challenge it has no nonce. -/
def Fresh (c : Client) : Prop := c.nonce = none ∨ c.stage ≠ .challenging

theorem challenged_stage (ulid : String) (sends : Bool) (env : Envelope) :
    (c.challenged identity config ulid sends env).stage ≠ .challenging := by
  unfold challenged
  split
  · split
    · exact fun h => nomatch h
    · cases sends <;> exact fun h => nomatch h
  · exact fun h => nomatch h

theorem acknowledged_stage (env : Envelope) : (c.acknowledged env).stage ≠ .challenging := by
  unfold acknowledged
  split <;> exact fun h => nomatch h

/-- **A call keeps to its nonce**: the first one it reads is the only one it signs. -/
theorem nonce_receive (h : c.Fresh) (ulid : String) (sends : Bool) (item : Item) :
    (c.receive identity config ulid sends item).Fresh ∧
      ∀ nonce, c.nonce = some nonce →
        (c.receive identity config ulid sends item).nonce = some nonce := by
  unfold receive
  cases nextEnvelope item with
  | none => exact ⟨h, fun _ hn => hn⟩
  | some next =>
      rcases c with ⟨stage, nonce, written, inbox⟩
      cases stage with
      | challenging =>
          obtain rfl : nonce = none := h.resolve_right fun hne => hne rfl
          refine ⟨?_, fun _ hn => by cases hn⟩
          rcases next with e | _ | env
          · exact .inl rfl
          · exact .inl rfl
          · exact .inr (challenged_stage ulid sends env)
      | acknowledging =>
          rcases next with e | _ | env
          · exact ⟨.inr (by simp), fun _ hn => hn⟩
          · exact ⟨.inr (by simp), fun _ hn => hn⟩
          · exact ⟨.inr (acknowledged_stage env), fun _ hn => (acknowledged_nonce _ _).trans hn⟩
      | connected deviceId heartbeatIntervalS reading =>
          cases reading with
          | false => exact ⟨h, fun _ hn => hn⟩
          | true =>
              rcases next with e | _ | env <;>
                exact ⟨.inr (by simp), fun _ hn => hn⟩
      | failed e => exact ⟨h, fun _ hn => hn⟩

end Receive

end Client

/-- A call answers the server's challenge. -/
theorem Client.receive_challenge {P : Primitives} (hP : P.Lawful) (identity : Identity P)
    (config : ClientConfig) (ulid : String) (id : String) (nonce : Bytes NONCE_LEN)
    (serverTime : ℕ) :
    new.receive identity config ulid true
        (.text (.ok ⟨id, none, .challenge (P.encodeB64 nonce.toList) serverTime⟩)) =
      ⟨.acknowledging, some nonce,
        [⟨ulid, none, .register (registration identity config nonce)⟩], []⟩ := by
  have hdecode : (P.decodeB64 (P.encodeB64 nonce.toList)).bind (Bytes.tryFrom NONCE_LEN) =
      some nonce := by
    rw [hP.decodeB64_encodeB64, Option.bind_some, Bytes.tryFrom_toList]
  simp only [receive, nextEnvelope, new, challenged, hdecode, if_pos, List.nil_append]

/-- What a call sends is what the server asks for. -/
theorem Client.registration_answers {P : Primitives} (hP : P.Lawful) (identity : Identity P)
    (config : ClientConfig) (challenge : Challenge) :
    challenge.Answers P (registration identity config challenge.nonce) identity.pubkey where
  decodes := by
    rw [registration, Identity.pubkeyB64, hP.decodeB64_encodeB64, Option.bind_some,
      Bytes.tryFrom_toList]
  signed := by
    refine ⟨P.sign identity.signingKey (Register.signingInput challenge.nonce.toList
      identity.deviceId config.role), ?_, hP.verify_sign _ _⟩
    rw [registration, Identity.signRegistration, hP.decodeB64_encodeB64, Option.bind_some,
      Bytes.tryFrom_toList]
  isPoint := (P.verifyingKey identity.signingKey).2
  id_eq := identity.deviceId_eq

/-! ### The server, and the calls of one device -/

/-- The server, and every call of `connect` that one device ever makes. -/
structure World where
  server : Server
  clients : ℕ → Client

/-- One step of either side.  What a call reads is up to whoever runs the socket it talks to. -/
inductive WorldEvent
  | server (e : Event)
  | client (k : ℕ) (ulid : String) (sends : Bool) (item : Item)

/-- What the server is given. -/
def WorldEvent.toServer : WorldEvent → Option Event
  | .server e => some e
  | .client .. => none

section World

variable {P : Primitives} (serverConfig : Config) (identity : Identity P)
  (config : ℕ → ClientConfig)

def World.new : World := ⟨Server.new, fun _ => Client.new⟩

def World.step (w : World) : WorldEvent → World
  | .server e => { w with server := w.server.step P serverConfig e }
  | .client k ulid sends item =>
      { w with
        clients := Function.update w.clients k
          ((w.clients k).receive identity (config k) ulid sends item) }

/-- The device's key has signed this: a registration only where a call has read its nonce.  What
else the key signs, the bindings of handshakes and tokens, may be anything. -/
def Signed (w : World) : SignedInput → Prop
  | .registration nonce deviceId role =>
      deviceId = identity.deviceId ∧
        ∃ k, (w.clients k).nonce = some nonce ∧ (config k).role = role
  | .binding .. | .token _ => True

/-- No signature under the device's key is forged: what the server finds signed with it, over the
nonce of the connection, has been signed before. -/
def Unforged (w : World) (e : WorldEvent) : Prop :=
  ∀ c conn env reg nowMs sig, e = .server (.receive c (.text (.ok env)) nowMs) →
    w.server.conns c = some conn → env.msg = .register reg →
    (P.decodeB64 reg.sig).bind (Bytes.tryFrom 64) = some sig →
    P.verifyStrict identity.pubkey
      (Register.signingInput conn.challenge.nonce.toList reg.deviceId reg.role) sig = true →
    ∃ x : SignedInput, Signed identity config w x ∧
      x.bytes = Register.signingInput conn.challenge.nonce.toList reg.deviceId reg.role

variable (P) in
/-- The connection has the call's answer: the call was given the challenge that was issued to the
connection, and registers in this role. -/
def AnsweredBy (events : List WorldEvent) (w : World) (c : ℕ) (role : Role) (k : ℕ) : Prop :=
  ∃ nonce issuedMs, Issued P serverConfig c nonce issuedMs (events.filterMap WorldEvent.toServer) ∧
    (w.clients k).nonce = some nonce ∧ (config k).role = role

variable {serverConfig identity config} {w : World} {events : List WorldEvent}

/-- The server runs by itself. -/
theorem World.run_server (events : List WorldEvent) :
    (Machine.run (World.step serverConfig identity config) .new events).server =
      Signal.run P serverConfig (events.filterMap WorldEvent.toServer) := by
  induction events using List.reverseRec with
  | nil => rfl
  | append_singleton events e ih =>
      rw [Machine.run_append, List.filterMap_append]
      cases e with
      | server e =>
          refine Eq.trans ?_ (run_snoc P serverConfig (events.filterMap WorldEvent.toServer) e).symm
          rw [← ih]
          rfl
      | client k ulid sends item =>
          rw [List.filterMap_cons_none rfl, List.filterMap_nil, List.append_nil]
          exact ih

theorem World.clients_step_self (w : World) (k : ℕ) (ulid : String) (sends : Bool) (item : Item) :
    (w.step serverConfig identity config (.client k ulid sends item)).clients k =
      (w.clients k).receive identity (config k) ulid sends item := Function.update_self ..

theorem World.clients_step_of_ne (w : World) {i k : ℕ} (h : i ≠ k) (ulid : String) (sends : Bool)
    (item : Item) : (w.step serverConfig identity config (.client k ulid sends item)).clients i =
      w.clients i := Function.update_of_ne h ..

/-- No call takes up a second nonce. -/
theorem World.fresh_run (events : List WorldEvent) (k : ℕ) :
    ((Machine.run (World.step serverConfig identity config) .new events).clients k).Fresh := by
  refine Machine.run_invariant (fun w : World => ∀ k, (w.clients k).Fresh) ?_
    (fun _ => .inl rfl) events k
  intro w e h j
  cases e with
  | server e => exact h j
  | client i ulid sends item =>
      by_cases hij : j = i
      · subst hij
        rw [clients_step_self]
        exact (Client.nonce_receive (h j) ulid sends item).1
      · rw [clients_step_of_ne w hij]
        exact h j

/-- A call keeps its nonce through a step. -/
theorem World.nonce_step (h : ∀ k, (w.clients k).Fresh) (e : WorldEvent) {k : ℕ}
    {nonce : Bytes NONCE_LEN} (hk : (w.clients k).nonce = some nonce) :
    ((w.step serverConfig identity config e).clients k).nonce = some nonce := by
  cases e with
  | server e => exact hk
  | client i ulid sends item =>
      by_cases hij : k = i
      · subst hij
        rw [clients_step_self]
        exact (Client.nonce_receive (h k) ulid sends item).2 nonce hk
      · rwa [clients_step_of_ne w hij]

/-- A step at which the server accepts a registration under the device's key. -/
def Accepts (P : Primitives) (key : Bytes 32) (c : ℕ) (role : Role) (s : Server) (e : Event) :
    Prop :=
  ∃ conn env reg nowMs, e = .receive c (.text (.ok env)) nowMs ∧ env.msg = .register reg ∧
    s.conns c = some conn ∧ conn.challenge.Answers P reg key ∧ reg.role = role

/-- An accepted registration answers the challenge of its connection, by a call that was given it. -/
theorem Unforged.answeredBy {c : ℕ} {role : Role} {e : Event}
    (h : Unforged identity config w (.server e)) (hserver : w.server = Signal.run P serverConfig
      (events.filterMap WorldEvent.toServer))
    (haccepts : Accepts P identity.pubkey c role w.server e) :
    ∃ k, AnsweredBy P serverConfig config events w c role k := by
  obtain ⟨conn, env, reg, nowMs, rfl, hreg, hconn, hanswers, rfl⟩ := haccepts
  obtain ⟨sig, hsig, hverify⟩ := hanswers.signed
  obtain ⟨x, hsigned, hbytes⟩ := h c conn env reg nowMs sig rfl hconn hreg hsig hverify
  obtain rfl : x = .registration conn.challenge.nonce reg.deviceId reg.role :=
    SignedInput.bytes_injective hbytes
  obtain ⟨-, k, hnonce, hrole⟩ := hsigned
  rw [hserver] at hconn
  have hinv : Inv P serverConfig (events.filterMap WorldEvent.toServer)
      (Signal.run P serverConfig (events.filterMap WorldEvent.toServer)) := inv_run _
  exact ⟨k, conn.challenge.nonce, conn.challenge.issuedMs, (hinv.conns c conn hconn).issued, hnonce,
    hrole⟩

/-- What a step adds to a run changes no answer. -/
theorem AnsweredBy.step (identity : Identity P) {c k : ℕ} {role : Role}
    (h : AnsweredBy P serverConfig config events w c role k) (hfresh : ∀ k, (w.clients k).Fresh)
    (e : WorldEvent) :
    AnsweredBy P serverConfig config (events ++ [e]) (w.step serverConfig identity config e) c role
      k := by
  obtain ⟨nonce, issuedMs, hissued, hnonce, hrole⟩ := h
  refine ⟨nonce, issuedMs, ?_, World.nonce_step hfresh e hnonce, hrole⟩
  rw [List.filterMap_append]
  exact Sometime.append hissued _

/-- Every accepted registration under the device's key is answered by a call. -/
theorem answeredBy_run
    (h : Along (World.step serverConfig identity config) (Unforged identity config) .new events)
    {c : ℕ} {role : Role} (haccepted : Past P serverConfig (Accepts P identity.pubkey c role)
      (events.filterMap WorldEvent.toServer)) :
    ∃ k, AnsweredBy P serverConfig config events
      (Machine.run (World.step serverConfig identity config) .new events) c role k := by
  induction events using List.reverseRec with
  | nil => exact haccepted.elim
  | append_singleton events e ih =>
      obtain ⟨hbefore, hunforged, -⟩ := along_append.1 h
      rw [List.filterMap_append] at haccepted
      rw [Machine.run_append]
      rcases sometime_append.1 haccepted with hold | hnew
      · obtain ⟨k, hk⟩ := ih hbefore hold
        exact ⟨k, hk.step identity (World.fresh_run events) e⟩
      · cases e with
        | client => exact hnew.elim
        | server e =>
            have hserver :
                (Machine.run (World.step serverConfig identity config) .new events).server =
                  Signal.run P serverConfig (events.filterMap WorldEvent.toServer) :=
              World.run_server events
            obtain hnow | hnone := hnew
            · rw [← Signal.run, ← hserver] at hnow
              obtain ⟨k, hk⟩ := hunforged.answeredBy hserver hnow
              exact ⟨k, hk.step identity (World.fresh_run events) _⟩
            · exact hnone.elim

/-- **Every registration under the device's key is the device's.**  In every run of the server and
of the calls of one device, whoever relays or makes up the messages in between: if no signature is
forged, each registration under the device's key that the server has accepted answers a challenge
that a call of the device, made for this role, was given, and it is the challenge of the connection
that is registered.  If the server draws no nonce twice, no call has registered two connections. -/
theorem registered_by_the_device
    (h : Along (World.step serverConfig identity config) (Unforged identity config) .new events) :
    ∃ call : Peer → ℕ,
      (∀ peer, Verified P serverConfig peer (events.filterMap WorldEvent.toServer) →
        peer.pubkey = identity.pubkey → AnsweredBy P serverConfig config events
          (Machine.run (World.step serverConfig identity config) .new events)
          peer.connId peer.role (call peer)) ∧
      ((∀ c c' nonce t t',
          Issued P serverConfig c nonce t (events.filterMap WorldEvent.toServer) →
          Issued P serverConfig c' nonce t' (events.filterMap WorldEvent.toServer) → c = c') →
        ∀ peer peer', Verified P serverConfig peer (events.filterMap WorldEvent.toServer) →
          Verified P serverConfig peer' (events.filterMap WorldEvent.toServer) →
          peer.pubkey = identity.pubkey → peer'.pubkey = identity.pubkey →
          call peer = call peer' → peer.connId = peer'.connId) := by
  have hanswered : ∀ peer, ∃ k, Verified P serverConfig peer
      (events.filterMap WorldEvent.toServer) → peer.pubkey = identity.pubkey →
      AnsweredBy P serverConfig config events
        (Machine.run (World.step serverConfig identity config) .new events)
        peer.connId peer.role k := by
    intro peer
    by_cases hpeer : Verified P serverConfig peer (events.filterMap WorldEvent.toServer) ∧
      peer.pubkey = identity.pubkey
    · obtain ⟨⟨nonce, issuedMs, -, hsent⟩, hkey⟩ := hpeer
      have haccepted : Past P serverConfig (Accepts P identity.pubkey peer.connId peer.role)
          (events.filterMap WorldEvent.toServer) := by
        refine Sometime.imp (fun s e => ?_) hsent
        rintro ⟨conn, env, reg, nowMs, he, hreg, hconn, -, -, -, hanswers, -, hrole⟩
        exact ⟨conn, env, reg, nowMs, he, hreg, hconn, hkey ▸ hanswers, hrole⟩
      obtain ⟨k, hk⟩ := answeredBy_run h haccepted
      exact ⟨k, fun _ _ => hk⟩
    · exact ⟨0, fun hverified hkey => absurd ⟨hverified, hkey⟩ hpeer⟩
  choose call hcall using hanswered
  refine ⟨call, hcall, ?_⟩
  intro hfresh peer peer' hverified hverified' hkey hkey' hsame
  obtain ⟨nonce, t, hissued, hnonce, -⟩ := hcall peer hverified hkey
  obtain ⟨nonce', t', hissued', hnonce', -⟩ := hcall peer' hverified' hkey'
  rw [← hsame, hnonce] at hnonce'
  obtain rfl : nonce = nonce' := Option.some.inj hnonce'
  exact hfresh peer.connId peer'.connId nonce t t' hissued hissued'

end World

/-! ### A relayed registration -/

namespace Sample

def identity : Identity .sample := .new .sample hostKey

def clientConfig : ClientConfig := ⟨.host, []⟩

/-- What the device answers to the challenge of the server's first connection. -/
def answer : Envelope := ⟨"", none, .register (Client.registration identity clientConfig nonce)⟩

/-- Somebody opens a connection to the server, hands its challenge to the device, which calls
somebody else's server, and hands the answer back. -/
def relay : List WorldEvent :=
  [.server (.connect nonce 0 ""),
    .client 0 "" true
      (.text (.ok ⟨"", none, .challenge (Primitives.sample.encodeB64 nonce.toList) 0⟩)),
    .server (.receive 0 (.text (.ok answer)) 0)]

/-- The entry it makes. -/
def relayed : Peer := ⟨identity.deviceId, identity.pubkey, .host, [], 0⟩

theorem relayed_verified :
    Verified .sample oneShard relayed (relay.filterMap WorldEvent.toServer) := by
  refine ⟨nonce, 0, Or.inl ⟨"", rfl, rfl⟩, Or.inr (Or.inl ?_)⟩
  exact ⟨.new oneShard nonce 0, answer, _, 0, rfl, rfl, rfl, rfl, rfl, ⟨rfl, Nat.zero_le _⟩,
    Client.registration_answers Primitives.sample_lawful identity clientConfig (.issue nonce 0), rfl,
    rfl⟩

end Sample

/-- The device has answered the challenge, though the connection is not its own. -/
theorem registered_by_the_device_relayed : ∃ k, AnsweredBy .sample Sample.oneShard
    (fun _ => Sample.clientConfig) Sample.relay
    (Machine.run (World.step Sample.oneShard Sample.identity fun _ => Sample.clientConfig) .new
      Sample.relay) 0 .host k := by
  have hread : ((Machine.run (World.step Sample.oneShard Sample.identity
      fun _ => Sample.clientConfig) .new (Sample.relay.take 2)).clients 0).nonce =
        some Sample.nonce := congrArg Client.nonce
    (Client.receive_challenge Primitives.sample_lawful Sample.identity Sample.clientConfig "" ""
      Sample.nonce 0)
  have hunforged : Along (World.step Sample.oneShard Sample.identity fun _ => Sample.clientConfig)
      (Unforged Sample.identity fun _ => Sample.clientConfig) .new Sample.relay := by
    refine ⟨?_, ?_, ?_, trivial⟩
    · intro c conn env reg nowMs sig h
      cases h
    · intro c conn env reg nowMs sig h
      cases h
    · rintro c conn env reg nowMs sig h hconn hreg - -
      cases h
      cases hreg
      cases hconn
      exact ⟨.registration Sample.nonce Sample.identity.deviceId .host,
        ⟨rfl, 0, hread, rfl⟩, rfl⟩
  obtain ⟨call, hcall, -⟩ := registered_by_the_device hunforged
  exact ⟨_, hcall Sample.relayed Sample.relayed_verified rfl⟩

end Signal

end Rda
