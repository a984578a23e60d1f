/-
**The signaling server.**

One task per connection reads frames and acts on the shared maps; a second task drains the
connection's outbound queue.  The tasks run in parallel, so a handler is not one step: between two
accesses to a map, or between an access and a send, other connections move.

A connection's task is a program counter.  Parsing a frame, checking a registration and choosing an
answer touch nothing shared and belong to the step that reads the frame; after that every step makes
at most one access to a map or one send.  What the world decides, which connection moves, what
arrives, the clock and the identifiers drawn, is in the input of the step.

A queue keeps every envelope that was put on it; it is closed once its writer has stopped.

Main definitions:

* `Rda.Signal.Task`, `Rda.Signal.Conn` — one connection's program counter and variables;
* `Rda.Signal.Effect`, `Rda.Signal.Conn.act` — what one step of a task does to what is shared;
* `Rda.Signal.Server`, `Rda.Signal.Event`, `Rda.Signal.Server.step` — the server and its steps.

Main results:

* `Rda.Signal.Server.step_conns_of_ne`, `Rda.Signal.Server.step_advance` — **a step belongs to one
  connection**, and has that task's one effect.
-/

import Mathlib.Logic.Function.Basic
import Rda.Machine
import Rda.SignalAuth
import Rda.SignalRegistry

set_option relaxedAutoImplicit false
set_option autoImplicit false

namespace Rda

namespace Signal

variable {P : Primitives}

/-! ### Configuration -/

/-- Server configuration, with what the server is built on: the number of shards of the sessions map
and the shard of an id, and the credentials for two peers' round trip times, a session id and a
second. -/
structure Config where
  heartbeatIntervalS : UInt32
  sessionTtlS : UInt32
  rateLimit : ℕ
  rateWindowMs : ℕ
  shards : ℕ
  shardOf : String → Fin shards
  relayCredentials : PopRtt → PopRtt → String → ℕ → RelayCredentials

/-! ### Connections -/

/-- Where a connection's task stands.  Each constructor but the first and the last is one access to
what is shared, still to be made. -/
inductive Task
  /-- Waiting for the next frame. -/
  | reading
  /-- Sending an answer to this connection, after which it may be closed. -/
  | replying (msg : Message) (close : Bool)
  -- register
  | inserting (peer : Peer)
  | displacing (peer displaced : Peer)
  | acknowledging (deviceId : DeviceId)
  -- connect_request
  | resolving (sender : DeviceId) (request : ConnectRequest)
  | creating (sender : DeviceId) (request : ConnectRequest) (host : Peer)
  | measuring (sender : DeviceId) (request : ConnectRequest) (host : Peer) (session : Session)
  | requesting (request : ConnectRequest) (host : Peer) (session : Session)
      (credentials : RelayCredentials)
  | crediting (host : Peer) (session : Session) (credentials : RelayCredentials)
  | creditingHost (host : Peer) (session : Session) (credentials : RelayCredentials)
  -- forward_in_session; the session ends after it if a refusal is forwarded
  | routing (sender : DeviceId) (sid : String) (msg : Message) (replyTo : String) (ends : Bool)
  | sending (target : DeviceId) (sid : String) (msg : Message) (replyTo : String) (ends : Bool)
  | ending (sid : String)
  -- teardown
  | looking (deviceId : DeviceId)
  | removing (deviceId : DeviceId)
  | listing (deviceId : DeviceId) (shard : ℕ) (found : List Session)
  | departing (deviceId : DeviceId) (sessions : List Session)
  | closing (deviceId : DeviceId) (session : Session) (sessions : List Session)
  | gone
  deriving DecidableEq

/-- One connection. -/
structure Conn where
  challenge : Challenge
  limiter : RateLimiter
  identity : Option DeviceId
  task : Task
  deriving DecidableEq

namespace Conn

/-- The connection's loop is left: its teardown begins, which ends at once without an identity. -/
def leave (conn : Conn) : Task :=
  match conn.identity with
  | none => .gone
  | some deviceId => .looking deviceId

/-- An error is sent to this connection. -/
def sendError (conn : Conn) (code : UInt16) (message : String) (inReplyTo : Option String)
    (close : Bool) : Conn :=
  { conn with
    task := .replying
      (.error ⟨code, message, inReplyTo, if code = RATE_LIMITED then some 10 else none⟩) close }

/-- A routing failure is reported to the sender. -/
def routeError (conn : Conn) (e : RouteError) (replyTo : String) : Conn :=
  conn.sendError e.code e.text (some replyTo) false

/-- A registration that fails burns the nonce, so the connection is closed. -/
def register (P : Primitives) (c : ℕ) (conn : Conn) (reg : Register) (replyTo : String)
    (nowMs : ℕ) : Conn :=
  match conn.challenge.verify P reg nowMs with
  | (challenge, .error e) =>
      { conn with challenge := challenge }.sendError e.code e.text (some replyTo) true
  | (challenge, .ok pubkey) =>
      { conn with
        challenge := challenge
        task := .inserting ⟨reg.deviceId, pubkey, reg.role, reg.popRtt, c⟩ }

/-- A host's answer names its session in the body; a refusal ends the session once forwarded. -/
def connectResponse (conn : Conn) (sender : DeviceId) (response : ConnectResponse)
    (replyTo : String) : Conn :=
  match response.sessionId with
  | none => conn.sendError BAD_REQUEST "connect_response needs a session_id" (some replyTo) false
  | some sid =>
      { conn with
        task := .routing sender sid (.connectResponse response) replyTo
          (response.status ≠ .accepted) }

/-- A session-scoped message is passed on. -/
def forward (conn : Conn) (sender : DeviceId) (sid : Option String) (msg : Message)
    (replyTo : String) : Conn :=
  match sid with
  | none => conn.sendError BAD_REQUEST "message requires a session id" (some replyTo) false
  | some sid => { conn with task := .routing sender sid msg replyTo false }

/-- Handles one message, as far as nothing shared is touched. -/
def handle (P : Primitives) (c : ℕ) (conn : Conn) (env : Envelope) (nowMs : ℕ) : Conn :=
  match conn.identity with
  | none =>
      -- Before registration the only thing that may be sent is a registration.
      match env.msg with
      | .register reg => conn.register P c reg env.id nowMs
      | _ => conn.sendError NOT_REGISTERED "register first" (some env.id) false
  | some identity =>
      match env.msg with
      | .register _ => conn.sendError BAD_REQUEST "already registered" (some env.id) false
      | .heartbeat => { conn with task := .replying .heartbeatAck false }
      | .connectRequest request => { conn with task := .resolving identity request }
      | .connectResponse response => conn.connectResponse identity response env.id
      | .offer _ | .answer _ | .iceCandidate _ | .iceRestart | .channelsReady | .peerGone _ =>
          conn.forward identity env.sid env.msg env.id
      -- Server-originated messages have no meaning inbound.
      | .challenge .. | .registerAck .. | .heartbeatAck | .relayCredentials _ | .error _ => conn

/-- The next item of the socket's stream. -/
def receive (P : Primitives) (c : ℕ) (conn : Conn) (frame : Frame) (nowMs : ℕ) : Conn :=
  match frame with
  | .binary => conn.sendError BAD_REQUEST "signaling frames must be text" none false
  | .closed => { conn with task := conn.leave }
  | .keepalive => conn
  | .text parsed =>
      match conn.limiter.allow nowMs with
      | (limiter, false) =>
          { conn with limiter := limiter }.sendError RATE_LIMITED "too many messages" none true
      | (limiter, true) =>
          match parsed with
          | .ok env => { conn with limiter := limiter }.handle P c env nowMs
          | .error e => { conn with limiter := limiter }.sendError e.code e.text none false

end Conn

/-! ### Shared state -/

/-- A connection's outbound queue. -/
structure Queue where
  envelopes : List Envelope
  isOpen : Bool
  deriving DecidableEq

/-- The server. -/
structure Server where
  registry : Registry
  conns : ℕ → Option Conn
  queues : ℕ → Queue

/-- The server before its first connection. -/
def Server.new : Server := ⟨Registry.new, fun _ => none, fun _ => ⟨[], false⟩⟩

/-- What one step of a task does to what is shared. -/
inductive Effect
  | silent
  | insertPeer (peer : Peer)
  | removePeer (deviceId : DeviceId)
  | insertSession (session : Session)
  | removeSession (id : String)
  | send (queue : ℕ) (env : Envelope)
  deriving DecidableEq

/-- Puts an envelope on a queue; nothing is put on a closed one. -/
def Queue.push (q : Queue) (env : Envelope) : Queue :=
  if q.isOpen then { q with envelopes := q.envelopes ++ [env] } else q

def Server.apply (s : Server) : Effect → Server
  | .silent => s
  | .insertPeer peer => { s with registry := s.registry.register peer }
  | .removePeer d => { s with registry := s.registry.remove d }
  | .insertSession session => { s with registry := s.registry.createSession session }
  | .removeSession id => { s with registry := s.registry.endSession id }
  | .send k env => { s with queues := Function.update s.queues k ((s.queues k).push env) }

/-- What a step draws from outside: the clock, a fresh identifier, and what a listing finds. -/
structure Draw where
  nowMs : ℕ
  ulid : String
  found : List Session

/-- The next step of a connection's task, with its effect. -/
def Conn.act (config : Config) (s : Server) (c : ℕ) (conn : Conn) (draw : Draw) : Conn × Effect :=
  match conn.task with
  | .reading => (conn, .silent)
  | .gone => (conn, .silent)
  | .replying msg close =>
      ({ conn with task := if close then conn.leave else .reading }, .send c ⟨draw.ulid, none, msg⟩)
  | .inserting peer =>
      match s.registry.get peer.deviceId with
      | some displaced => ({ conn with task := .displacing peer displaced }, .insertPeer peer)
      | none => ({ conn with task := .acknowledging peer.deviceId }, .insertPeer peer)
  | .displacing peer displaced =>
      ({ conn with task := .acknowledging peer.deviceId },
        .send displaced.connId ⟨draw.ulid, none, .peerGone "replaced"⟩)
  | .acknowledging d =>
      ({ conn with identity := some d, task := .reading },
        .send c ⟨draw.ulid, none, .registerAck d config.heartbeatIntervalS config.sessionTtlS⟩)
  | .resolving sender request =>
      match s.registry.resolveTarget request.target with
      -- Offline and not-dialable are reported identically.
      | .error _ =>
          ({ conn with task := .replying (.connectResponse (.refuse .offline none)) false },
            .silent)
      | .ok host => ({ conn with task := .creating sender request host }, .silent)
  | .creating sender request host =>
      let session : Session := ⟨"sess_" ++ draw.ulid, sender, request.target, draw.nowMs⟩
      ({ conn with task := .measuring sender request host session }, .insertSession session)
  | .measuring sender request host session =>
      let controllerRtt := ((s.registry.get sender).map Peer.popRtt).getD []
      let credentials :=
        config.relayCredentials controllerRtt host.popRtt session.id (draw.nowMs / 1000)
      ({ conn with task := .requesting request host session credentials }, .silent)
  | .requesting request host session credentials =>
      ({ conn with task := .crediting host session credentials },
        .send host.connId ⟨draw.ulid, some session.id, .connectRequest request⟩)
  | .crediting host session credentials =>
      ({ conn with task := .creditingHost host session credentials },
        .send c ⟨draw.ulid, some session.id, .relayCredentials credentials⟩)
  | .creditingHost host session credentials =>
      ({ conn with task := .reading },
        .send host.connId ⟨draw.ulid, some session.id, .relayCredentials credentials⟩)
  | .routing sender sid msg replyTo ends =>
      match s.registry.session sid with
      | none => (conn.routeError .unknownSession replyTo, .silent)
      | some session =>
          match session.peerOf sender with
          | none => (conn.routeError .notAParticipant replyTo, .silent)
          | some target => ({ conn with task := .sending target sid msg replyTo ends }, .silent)
  | .sending target sid msg replyTo ends =>
      match s.registry.get target with
      | none => (conn.routeError .notConnected replyTo, .silent)
      | some peer =>
          if (s.queues peer.connId).isOpen then
            ({ conn with task := if ends then .ending sid else .reading },
              .send peer.connId ⟨draw.ulid, some sid, msg⟩)
          else (conn.routeError .queueClosed replyTo, .silent)
  | .ending sid => ({ conn with task := .reading }, .removeSession sid)
  | .looking d =>
      match s.registry.get d with
      | some peer =>
          ({ conn with task := if peer.connId = c then .removing d else .gone }, .silent)
      | none => ({ conn with task := .gone }, .silent)
  | .removing d => ({ conn with task := .listing d 0 [] }, .removePeer d)
  | .listing d shard found =>
      if shard < config.shards then
        if s.registry.Lists (fun id => (config.shardOf id).val = shard) d draw.found then
          ({ conn with task := .listing d (shard + 1) (found ++ draw.found) }, .silent)
        else (conn, .silent)
      else ({ conn with task := .departing d found }, .silent)
  | .departing _ [] => ({ conn with task := .gone }, .silent)
  | .departing d (session :: sessions) =>
      ({ conn with task := .closing d session sessions },
        match (session.peerOf d).bind s.registry.get with
        | some peer => .send peer.connId ⟨draw.ulid, some session.id, .peerGone "disconnected"⟩
        | none => .silent)
  | .closing d session sessions =>
      ({ conn with task := .departing d sessions }, .removeSession session.id)

/-! ### Where an effect comes from -/

namespace Conn

variable {config : Config} {s : Server} {c : ℕ} {conn : Conn} {draw : Draw}

theorem act_eq_insertPeer {peer : Peer} :
    (conn.act config s c draw).2 = .insertPeer peer ↔ conn.task = .inserting peer := by
  cases htask : conn.task <;> simp only [act, htask] <;> (repeat' split) <;> simp_all

theorem act_eq_removePeer {d : DeviceId} :
    (conn.act config s c draw).2 = .removePeer d ↔ conn.task = .removing d := by
  cases htask : conn.task <;> simp only [act, htask] <;> (repeat' split) <;> simp_all

/-- A teardown goes on to remove only what it has found to be its own. -/
theorem act_task_eq_removing {d : DeviceId}
    (h : (conn.act config s c draw).1.task = .removing d) :
    conn.task = .looking d ∧ ∃ peer, s.registry.get d = some peer ∧ peer.connId = c := by
  revert h
  cases htask : conn.task with
  | looking d' =>
      simp only [act, htask]
      split
      · rename_i peer hpeer
        split
        · intro h
          cases h
          exact ⟨rfl, peer, hpeer, ‹_›⟩
        · intro h
          cases h
      · intro h
        cases h
  | replying msg close =>
      simp only [act, htask, leave]
      (repeat' split) <;> simp_all
  | _ =>
      simp only [act, htask]
      (repeat' split) <;> simp_all [routeError, sendError]

end Conn

/-! ### What a frame starts -/

/-- The tasks that begin with a frame. -/
def Task.Started : Task → Prop
  | .reading | .replying .. | .inserting _ | .resolving .. | .routing .. | .looking _
  | .gone => True
  | _ => False

namespace Conn

variable {c : ℕ} {conn : Conn}

theorem leave_started (conn : Conn) : conn.leave.Started := by
  unfold leave
  split <;> trivial

theorem handle_started (h : conn.task.Started) (env : Envelope) (nowMs : ℕ) :
    (conn.handle P c env nowMs).task.Started := by
  unfold handle
  split
  · split
    · unfold register
      split <;> trivial
    · trivial
  · split
    · trivial
    · trivial
    · trivial
    · unfold connectResponse
      split <;> trivial
    all_goals first
      | exact h
      | (unfold forward; split <;> trivial)

/-- A frame begins a handler, or the connection's end. -/
theorem receive_started (h : conn.task.Started) (frame : Frame) (nowMs : ℕ) :
    (conn.receive P c frame nowMs).task.Started := by
  cases frame with
  | binary => trivial
  | closed => exact leave_started conn
  | keepalive => exact h
  | text parsed =>
      simp only [receive]
      split
      · trivial
      · rename_i limiter _
        have hconn : ({ conn with limiter := limiter } : Conn).task.Started := h
        cases parsed with
        | ok env => exact handle_started hconn env nowMs
        | error e => trivial

end Conn

/-! ### Steps -/

/-- A step of the server. -/
inductive Event
  /-- A socket connects; its challenge goes out before anything is accepted. -/
  | connect (nonce : Bytes NONCE_LEN) (nowMs : ℕ) (ulid : String)
  /-- A connection's socket yields its next item. -/
  | receive (c : ℕ) (frame : Frame) (nowMs : ℕ)
  /-- A connection's task makes its next step. -/
  | advance (c : ℕ) (draw : Draw)
  /-- A connection's writer stops, as it does when its socket cannot be written to. -/
  | stopWriter (c : ℕ)

/-- A connection that has just been accepted. -/
def Conn.new (config : Config) (nonce : Bytes NONCE_LEN) (nowMs : ℕ) : Conn where
  challenge := .issue nonce nowMs
  limiter := .new config.rateLimit config.rateWindowMs
  identity := none
  task := .reading

/-- One connection's variables are replaced. -/
def Server.setConn (s : Server) (c : ℕ) (conn : Conn) : Server :=
  { s with conns := Function.update s.conns c (some conn) }

/-- One step; a task only takes a frame while it is reading. -/
def Server.step (P : Primitives) (config : Config) (s : Server) : Event → Server
  | .connect nonce nowMs ulid =>
      let c := s.registry.nextConnId
      { registry := { s.registry with nextConnId := c + 1 }
        conns := Function.update s.conns c (some (.new config nonce nowMs))
        queues := Function.update s.queues c
          ⟨[⟨ulid, none, .challenge (P.encodeB64 nonce.toList) nowMs⟩], true⟩ }
  | .receive c frame nowMs =>
      match s.conns c with
      | some conn =>
          if conn.task = .reading then s.setConn c (conn.receive P c frame nowMs) else s
      | none => s
  | .advance c draw =>
      match s.conns c with
      | some conn =>
          (s.apply (conn.act config s c draw).2).setConn c (conn.act config s c draw).1
      | none => s
  | .stopWriter c =>
      { s with queues := Function.update s.queues c { s.queues c with isOpen := false } }

/-! ### What one step does -/

namespace Server

variable {config : Config} {s : Server} {c : ℕ} {conn : Conn}

@[simp] theorem apply_conns (s : Server) (e : Effect) : (s.apply e).conns = s.conns := by
  cases e <;> rfl

@[simp] theorem setConn_registry : (s.setConn c conn).registry = s.registry := rfl

@[simp] theorem setConn_queues : (s.setConn c conn).queues = s.queues := rfl

@[simp] theorem setConn_conns_self : (s.setConn c conn).conns c = some conn :=
  Function.update_self ..

theorem setConn_conns_of_ne {k : ℕ} (h : k ≠ c) : (s.setConn c conn).conns k = s.conns k :=
  Function.update_of_ne h ..

/-- The connection an event belongs to. -/
def owner (s : Server) : Event → ℕ
  | .connect .. => s.registry.nextConnId
  | .receive c .. | .advance c _ | .stopWriter c => c

/-- What an event does to the maps and, but for a new connection's own, to the queues. -/
def effect (config : Config) (s : Server) : Event → Effect
  | .advance c draw =>
      match s.conns c with
      | some conn => (conn.act config s c draw).2
      | none => .silent
  | _ => .silent

theorem effect_advance (h : s.conns c = some conn) (draw : Draw) :
    s.effect config (.advance c draw) = (conn.act config s c draw).2 := by
  simp only [effect, h]

/-- Whatever is done to what is shared is done by a task. -/
theorem exists_act {e : Event} (h : s.effect config e ≠ .silent) :
    ∃ c draw conn, e = .advance c draw ∧ s.conns c = some conn ∧
      s.effect config e = (conn.act config s c draw).2 := by
  cases e with
  | advance c draw =>
      cases hc : s.conns c with
      | none => simp [effect, hc] at h
      | some conn => exact ⟨c, draw, conn, rfl, hc, effect_advance hc draw⟩
  | _ => exact absurd rfl h

/-- **A step of a task** has the task's one effect. -/
theorem step_advance (h : s.conns c = some conn) (draw : Draw) :
    s.step P config (.advance c draw) =
      (s.apply (conn.act config s c draw).2).setConn c (conn.act config s c draw).1 := by
  simp only [step, h]

theorem step_advance_of_none (h : s.conns c = none) (draw : Draw) :
    s.step P config (.advance c draw) = s := by
  simp only [step, h]

theorem step_receive (h : s.conns c = some conn) (htask : conn.task = .reading) (frame : Frame)
    (nowMs : ℕ) :
    s.step P config (.receive c frame nowMs) = s.setConn c (conn.receive P c frame nowMs) := by
  simp only [step, h, if_pos htask]

theorem step_receive_of_ne (h : s.conns c = some conn) (htask : conn.task ≠ .reading)
    (frame : Frame) (nowMs : ℕ) : s.step P config (.receive c frame nowMs) = s := by
  simp only [step, h, if_neg htask]

theorem step_receive_of_none (h : s.conns c = none) (frame : Frame) (nowMs : ℕ) :
    s.step P config (.receive c frame nowMs) = s := by
  simp only [step, h]

@[simp] theorem step_connect_conns (s : Server) (nonce : Bytes NONCE_LEN) (nowMs : ℕ)
    (ulid : String) :
    (s.step P config (.connect nonce nowMs ulid)).conns s.registry.nextConnId =
      some (.new config nonce nowMs) := Function.update_self ..

/-- The registry a step leaves is the one its effect leaves, a new connection's number apart. -/
theorem step_registry (s : Server) (e : Event) :
    (s.step P config e).registry =
      { (s.apply (s.effect config e)).registry with
        nextConnId := (s.step P config e).registry.nextConnId } := by
  cases e with
  | connect nonce nowMs ulid => rfl
  | receive c frame nowMs =>
      simp only [step, effect, apply]
      split
      · split <;> rfl
      · rfl
  | advance c draw =>
      cases h : s.conns c with
      | none => simp only [step, effect, h, apply]
      | some conn => rw [step_advance h, effect_advance h, setConn_registry]
  | stopWriter c => rfl

/-- Who is registered after a step. -/
theorem step_get (s : Server) (e : Event) :
    (s.step P config e).registry.get = (s.apply (s.effect config e)).registry.get := by
  rw [step_registry]
  rfl

/-- Which sessions there are after a step. -/
theorem step_session (s : Server) (e : Event) :
    (s.step P config e).registry.session = (s.apply (s.effect config e)).registry.session := by
  rw [step_registry]
  rfl

/-- Sessions stay under their own ids. -/
theorem step_keyed (h : s.registry.Keyed) (e : Event) :
    (s.step P config e).registry.Keyed := by
  intro id session hsession
  rw [step_session] at hsession
  cases heffect : s.effect config e with
  | insertSession new =>
      rw [heffect] at hsession
      simp only [apply] at hsession
      by_cases hid : id = new.id
      · subst hid
        rw [Registry.session_createSession_self] at hsession
        exact congrArg Session.id (Option.some.inj hsession).symm
      · rw [Registry.session_createSession_of_ne _ _ hid] at hsession
        exact h id session hsession
  | removeSession old =>
      rw [heffect] at hsession
      simp only [apply] at hsession
      by_cases hid : id = old
      · subst hid
        rw [Registry.session_endSession_self] at hsession
        cases hsession
      · rw [Registry.session_endSession_of_ne _ hid] at hsession
        exact h id session hsession
  | silent | insertPeer | removePeer | send =>
      rw [heffect] at hsession
      exact h id session hsession

/-- A session stays while nobody ends it or takes its id. -/
theorem step_session_eq_some {e : Event} {session : Session}
    (h : s.registry.session session.id = some session)
    (hended : s.effect config e ≠ .removeSession session.id)
    (hnew : ∀ new, s.effect config e = .insertSession new → new.id ≠ session.id) :
    (s.step P config e).registry.session session.id = some session := by
  rw [step_session]
  cases heffect : s.effect config e with
  | insertSession new =>
      rw [apply, Registry.session_createSession_of_ne _ _ (hnew new heffect).symm, h]
  | removeSession id =>
      have hne : session.id ≠ id := fun hid => hended (by rw [heffect, hid])
      rw [apply, Registry.session_endSession_of_ne _ hne, h]
  | silent | insertPeer | removePeer | send => exact h

/-- An ended session stays so while nobody takes its id. -/
theorem step_session_eq_none {e : Event} {id : String} (h : s.registry.session id = none)
    (hnew : ∀ new, s.effect config e = .insertSession new → new.id ≠ id) :
    (s.step P config e).registry.session id = none := by
  rw [step_session]
  cases heffect : s.effect config e with
  | insertSession new =>
      rw [apply, Registry.session_createSession_of_ne _ _ (hnew new heffect).symm, h]
  | removeSession id' =>
      by_cases hid : id = id'
      · subst hid
        rw [apply, Registry.session_endSession_self]
      · rw [apply, Registry.session_endSession_of_ne _ hid, h]
  | silent | insertPeer | removePeer | send => exact h

/-- **A step belongs to one connection**; the variables of the others stay as they are. -/
theorem step_conns_of_ne {e : Event} {k : ℕ} (hk : k ≠ s.owner e) :
    (s.step P config e).conns k = s.conns k := by
  cases e with
  | connect nonce nowMs ulid => exact Function.update_of_ne hk ..
  | receive c frame nowMs =>
      simp only [step]
      split
      · split
        · exact setConn_conns_of_ne hk
        · rfl
      · rfl
  | advance c draw =>
      cases h : s.conns c with
      | none => rw [step_advance_of_none h]
      | some conn =>
          have hne : k ≠ c := hk
          rw [step_advance h, setConn_conns_of_ne hne, apply_conns]
  | stopWriter c => rfl

/-- **Where a connection's variables come from**: they are as they were, and what was done to what
is shared was not this connection's doing; or the connection is new, has read a frame, or has made a
step. -/
theorem of_step_conns {e : Event} {k : ℕ} {conn' : Conn}
    (h : (s.step P config e).conns k = some conn') :
    (s.conns k = some conn' ∧ (k ≠ s.owner e ∨ s.effect config e = .silent)) ∨
    (∃ nonce nowMs ulid, e = .connect nonce nowMs ulid ∧ k = s.registry.nextConnId ∧
      conn' = .new config nonce nowMs) ∨
    (∃ conn frame nowMs, e = .receive k frame nowMs ∧ s.conns k = some conn ∧
      conn.task = .reading ∧ conn' = conn.receive P k frame nowMs) ∨
    ∃ conn draw, e = .advance k draw ∧ s.conns k = some conn ∧
      conn' = (conn.act config s k draw).1 := by
  by_cases howner : k = s.owner e
  swap
  · rw [step_conns_of_ne howner] at h
    exact Or.inl ⟨h, Or.inl howner⟩
  cases e with
  | connect nonce nowMs ulid =>
      obtain rfl : k = s.registry.nextConnId := howner
      rw [step_connect_conns] at h
      exact Or.inr (Or.inl ⟨nonce, nowMs, ulid, rfl, rfl, (Option.some.inj h).symm⟩)
  | receive c frame nowMs =>
      obtain rfl : k = c := howner
      cases hk : s.conns k with
      | none =>
          rw [step_receive_of_none hk, hk] at h
          cases h
      | some conn =>
          by_cases htask : conn.task = .reading
          · rw [step_receive hk htask, setConn_conns_self] at h
            exact Or.inr (Or.inr (Or.inl ⟨conn, frame, nowMs, rfl, rfl, htask,
              (Option.some.inj h).symm⟩))
          · rw [step_receive_of_ne hk htask, hk] at h
            exact Or.inl ⟨h, Or.inr rfl⟩
  | advance c draw =>
      obtain rfl : k = c := howner
      cases hk : s.conns k with
      | none =>
          rw [step_advance_of_none hk, hk] at h
          cases h
      | some conn =>
          rw [step_advance hk, setConn_conns_self] at h
          exact Or.inr (Or.inr (Or.inr ⟨conn, draw, rfl, rfl, (Option.some.inj h).symm⟩))
  | stopWriter c => exact Or.inl ⟨h, Or.inr rfl⟩

variable (P config) in
/-- No connection is forgotten. -/
theorem exists_step_conns {k : ℕ} {conn : Conn} (hk : s.conns k = some conn) (e : Event) :
    ∃ conn', (s.step P config e).conns k = some conn' := by
  by_cases howner : k = s.owner e
  swap
  · exact ⟨conn, (step_conns_of_ne howner).trans hk⟩
  cases e with
  | connect nonce nowMs ulid =>
      obtain rfl : k = s.registry.nextConnId := howner
      exact ⟨_, step_connect_conns ..⟩
  | receive c frame nowMs =>
      obtain rfl : k = c := howner
      by_cases htask : conn.task = .reading
      · exact ⟨_, by rw [step_receive hk htask, setConn_conns_self]⟩
      · exact ⟨conn, by rw [step_receive_of_ne hk htask, hk]⟩
  | advance c draw =>
      obtain rfl : k = c := howner
      exact ⟨_, by rw [step_advance hk, setConn_conns_self]⟩
  | stopWriter c => exact ⟨conn, hk⟩

/-- Connection numbers are handed out in order. -/
theorem nextConnId_le_step (s : Server) (e : Event) :
    s.registry.nextConnId ≤ (s.step P config e).registry.nextConnId := by
  cases e with
  | connect => exact Nat.le_succ _
  | receive c frame nowMs =>
      simp only [step]
      split
      · split <;> exact le_rfl
      · exact le_rfl
  | advance c draw =>
      cases h : s.conns c with
      | none => rw [step_advance_of_none h]
      | some conn =>
          rw [step_advance h, setConn_registry]
          cases (conn.act config s c draw).2 <;> exact le_rfl
  | stopWriter => exact le_rfl

/-- A number that has not been handed out has no connection. -/
theorem step_fresh (hs : ∀ k, s.registry.nextConnId ≤ k → s.conns k = none) (e : Event) (k : ℕ)
    (hk : (s.step P config e).registry.nextConnId ≤ k) : (s.step P config e).conns k = none := by
  have hold : s.conns k = none := hs k ((nextConnId_le_step s e).trans hk)
  cases hnew : (s.step P config e).conns k with
  | none => rfl
  | some conn' =>
      rcases of_step_conns hnew with ⟨hc, -⟩ | ⟨_, _, _, rfl, rfl, -⟩ | ⟨conn, _, _, -, hc, -⟩ |
        ⟨conn, _, -, hc, -⟩
      · exact absurd hc (by simp [hold])
      · exact absurd hk (Nat.not_succ_le_self _)
      · exact absurd hc (by simp [hold])
      · exact absurd hc (by simp [hold])

/-- What is on a queue after a step was put there by its effect, or is the challenge of a new
connection. -/
theorem mem_step_queues {e : Event} {k : ℕ} {env : Envelope}
    (h : env ∈ ((s.step P config e).queues k).envelopes) :
    env ∈ ((s.apply (s.effect config e)).queues k).envelopes ∨
      ∃ id nonce serverTime, env = ⟨id, none, .challenge nonce serverTime⟩ := by
  cases e with
  | connect nonce nowMs ulid =>
      by_cases hk : k = s.registry.nextConnId
      · subst hk
        simp only [step, Function.update_self, List.mem_singleton] at h
        exact Or.inr ⟨_, _, _, h⟩
      · simp only [step, Function.update_of_ne hk] at h
        exact Or.inl h
  | receive c frame nowMs =>
      refine Or.inl ?_
      simp only [step] at h
      split at h
      · split at h <;> exact h
      · exact h
  | advance c draw =>
      refine Or.inl ?_
      cases hc : s.conns c with
      | none =>
          rw [step_advance_of_none hc] at h
          simpa only [effect, hc, apply] using h
      | some conn =>
          rw [step_advance hc, setConn_queues] at h
          rwa [effect_advance hc]
  | stopWriter c =>
      refine Or.inl ?_
      by_cases hk : k = c
      · subst hk
        simpa only [step, effect, apply, Function.update_self] using h
      · simpa only [step, effect, apply, Function.update_of_ne hk] using h

/-- What is on a queue stays there. -/
theorem mem_queues_step {k : ℕ} {env : Envelope} (h : env ∈ (s.queues k).envelopes)
    (hk : k ≠ s.registry.nextConnId) (e : Event) :
    env ∈ ((s.step P config e).queues k).envelopes := by
  cases e with
  | connect nonce nowMs ulid => simpa only [step, Function.update_of_ne hk] using h
  | receive c frame nowMs =>
      simp only [step]
      split
      · split <;> exact h
      · exact h
  | advance c draw =>
      cases hc : s.conns c with
      | none => rwa [step_advance_of_none hc]
      | some conn =>
          rw [step_advance hc, setConn_queues]
          cases (conn.act config s c draw).2 with
          | send k' env' =>
              by_cases hkk : k = k'
              · subst hkk
                simp only [apply, Function.update_self, Queue.push]
                split
                · exact List.mem_append_left _ h
                · exact h
              · simpa only [apply, Function.update_of_ne hkk] using h
          | _ => exact h
  | stopWriter c =>
      by_cases hkc : k = c
      · subst hkc
        simpa only [step, Function.update_self] using h
      · simpa only [step, Function.update_of_ne hkc] using h

/-- What is sent to an open queue is on it. -/
theorem mem_queues_of_send {k : ℕ} {env : Envelope} {e : Event}
    (h : s.effect config e = .send k env) (hopen : (s.queues k).isOpen = true) :
    env ∈ ((s.step P config e).queues k).envelopes := by
  obtain ⟨c, draw, conn, rfl, hc, hact⟩ := exists_act (by rw [h]; simp)
  rw [step_advance hc, setConn_queues, ← hact, h]
  simp [apply, Queue.push, hopen]

/-- What an effect leaves on a queue was there, or it was sent. -/
theorem mem_apply_queues {e : Effect} {k : ℕ} {env : Envelope}
    (h : env ∈ ((s.apply e).queues k).envelopes) :
    env ∈ (s.queues k).envelopes ∨ e = .send k env := by
  cases e with
  | send k' env' =>
      by_cases hk : k = k'
      · subst hk
        simp only [apply, Function.update_self, Queue.push] at h
        split at h
        · rcases List.mem_append.1 h with hold | hnew
          · exact Or.inl hold
          · exact Or.inr (by rw [List.mem_singleton.1 hnew])
        · exact Or.inl h
      · simp only [apply, Function.update_of_ne hk] at h
        exact Or.inl h
  | _ => exact Or.inl h

end Server

end Signal

end Rda
