/-
**Routing safety of the signaling server.**

Every connection is a program of its own and none of them need be honest.  What the registry, the
queues and the program counters hold is justified by what has happened on the way: an entry by an
accepted registration on that socket, an envelope on a queue by what another connection sent, in a
session that names both, or by the end of the other participant's connection.

The facts about the past are stated with `Machine.Sometime`; `Signal.Inv` says what they justify,
and holds of every run.

Main definitions:

* `Rda.Signal.Verified` — a connection's registration was accepted;
* `Rda.Signal.Forwarded`, `Rda.Signal.Departed` — the two reasons for a routed envelope;
* `Rda.Signal.Inv` — what holds of a run and the state it leads to.

Main results:

* `Rda.Signal.inv_run` — the invariant, over any interleaving;
* `Rda.Signal.signalling_routes_safely` — **no envelope of a session reaches a stranger or comes
  from one**.
-/

import Rda.SignalServer

set_option relaxedAutoImplicit false
set_option autoImplicit false

namespace Rda

namespace Signal

open Machine

variable (P : Primitives) (config : Config)

/-! ### What has happened -/

/-- The state a run of the server leads to. -/
def run (events : List Event) : Server := Machine.run (Server.step P config) Server.new events

theorem run_snoc (events : List Event) (e : Event) :
    run P config (events ++ [e]) = (run P config events).step P config e := run_append ..

/-- At some point of the run an event was taken from a state it fits. -/
def Past (p : Server → Event → Prop) (events : List Event) : Prop :=
  Sometime (Server.step P config) p Server.new events

/-- The challenge was issued to the connection when its socket connected. -/
def Issued (c : ℕ) (nonce : Bytes NONCE_LEN) (issuedMs : ℕ) (events : List Event) : Prop :=
  Past P config (fun s e => ∃ ulid, e = .connect nonce issuedMs ulid ∧ s.registry.nextConnId = c)
    events

/-- The entry's connection sent a registration for it, with a signature over the challenge that was
issued to this very socket and was neither spent nor expired. -/
def Verified (peer : Peer) (events : List Event) : Prop :=
  ∃ nonce issuedMs, Issued P config peer.connId nonce issuedMs events ∧
    Past P config (fun s e => ∃ conn env reg nowMs,
      e = .receive peer.connId (.text (.ok env)) nowMs ∧ env.msg = .register reg ∧
      s.conns peer.connId = some conn ∧ conn.challenge.nonce = nonce ∧
      conn.challenge.issuedMs = issuedMs ∧ conn.challenge.Usable nowMs ∧
      conn.challenge.Answers P reg peer.pubkey ∧ reg.deviceId = peer.deviceId ∧
      reg.role = peer.role) events

/-- The connection is the device's: a registration for it was accepted there. -/
def Owns (c : ℕ) (d : DeviceId) (events : List Event) : Prop :=
  ∃ peer, Verified P config peer events ∧ peer.connId = c ∧ peer.deviceId = d

/-- The connection, with this identity, was sent the message, and it named the session. -/
def Sent (c : ℕ) (d : DeviceId) (sid : String) (msg : Message) (events : List Event) : Prop :=
  Past P config (fun s e => ∃ conn env nowMs, e = .receive c (.text (.ok env)) nowMs ∧
    s.conns c = some conn ∧ conn.identity = some d ∧ env.msg = msg ∧ env.names = some sid) events

/-- When the message was routed, the session it names was between these two devices. -/
def Routed (c : ℕ) (d : DeviceId) (sid : String) (msg : Message) (target : DeviceId)
    (events : List Event) : Prop :=
  Past P config (fun s e => ∃ draw conn replyTo ends session, e = .advance c draw ∧
    s.conns c = some conn ∧ conn.task = .routing d sid msg replyTo ends ∧
    s.registry.session sid = some session ∧ session.peerOf d = some target) events

/-- The message was sent on a connection of the other participant of the session. -/
def Forwarded (sid : String) (msg : Message) (target : DeviceId) (events : List Event) : Prop :=
  ∃ c d, Owns P config c d events ∧ Sent P config c d sid msg events ∧
    Routed P config c d sid msg target events

/-- The connection was the device's registered one when its teardown looked. -/
def TornDown (c : ℕ) (d : DeviceId) (events : List Event) : Prop :=
  Past P config (fun s e => ∃ draw conn peer, e = .advance c draw ∧ s.conns c = some conn ∧
    conn.task = .looking d ∧ s.registry.get d = some peer ∧ peer.connId = c) events

/-- When the device's sessions were listed for its teardown, this one was with the other device. -/
def Listed (c : ℕ) (d : DeviceId) (sid : String) (target : DeviceId) (events : List Event) : Prop :=
  Past P config (fun s e => ∃ draw conn shard found session, e = .advance c draw ∧
    s.conns c = some conn ∧ conn.task = .listing d shard found ∧
    s.registry.session sid = some session ∧ session.peerOf d = some target) events

/-- The message is the server's own: the other participant's registered connection was torn down. -/
def Departed (sid : String) (msg : Message) (target : DeviceId) (events : List Event) : Prop :=
  msg = .peerGone "disconnected" ∧ ∃ c d, Owns P config c d events ∧
    TornDown P config c d events ∧ Listed P config c d sid target events

/-- The reasons for which an envelope of a session is on the queue of a connection. -/
def Justified (k : ℕ) (env : Envelope) (events : List Event) : Prop :=
  env.msg.IsRouted → ∀ sid, env.sid = some sid → ∃ target, Owns P config k target events ∧
    (Forwarded P config sid env.msg target events ∨ Departed P config sid env.msg target events)

/-! ### The invariant -/

/-- What the program counter holds is justified. -/
def TaskTrue (c : ℕ) (identity : Option DeviceId) (events : List Event) : Task → Prop
  | .reading | .gone | .replying .. => True
  | .inserting peer | .displacing peer _ => Verified P config peer events ∧ peer.connId = c
  | .acknowledging d => Owns P config c d events
  | .resolving .. | .creating .. | .measuring .. | .requesting .. | .crediting ..
  | .creditingHost .. | .ending _ => identity ≠ none
  | .routing sender sid msg _ _ => identity = some sender ∧ Sent P config c sender sid msg events
  | .sending target sid msg _ _ => ∃ sender, identity = some sender ∧
      Sent P config c sender sid msg events ∧ Routed P config c sender sid msg target events
  | .looking d => identity = some d
  | .removing d => identity = some d ∧ TornDown P config c d events
  | .listing d _ sessions | .departing d sessions => identity = some d ∧
      TornDown P config c d events ∧ ∀ session ∈ sessions, ∀ target,
        session.peerOf d = some target → Listed P config c d session.id target events
  | .closing d _ sessions => identity = some d ∧
      TornDown P config c d events ∧ ∀ session ∈ sessions, ∀ target,
        session.peerOf d = some target → Listed P config c d session.id target events

/-- What a connection's variables hold is justified. -/
structure ConnTrue (c : ℕ) (conn : Conn) (events : List Event) : Prop where
  issued : Issued P config c conn.challenge.nonce conn.challenge.issuedMs events
  owns : ∀ d, conn.identity = some d → Owns P config c d events
  task : TaskTrue P config c conn.identity events conn.task

/-- What holds of a run and the state it leads to. -/
structure Inv (events : List Event) (s : Server) : Prop where
  fresh : ∀ c, s.registry.nextConnId ≤ c → s.conns c = none
  conns : ∀ c conn, s.conns c = some conn → ConnTrue P config c conn events
  peers : ∀ d peer, s.registry.get d = some peer →
    peer.deviceId = d ∧ Verified P config peer events
  queues : ∀ k env, env ∈ (s.queues k).envelopes → Justified P config k env events
  keyed : s.registry.Keyed

/-- What a step does to what is shared is justified. -/
def EffectTrue (events : List Event) : Effect → Prop
  | .insertPeer peer => Verified P config peer events
  | .send k env => Justified P config k env events
  | .silent | .removePeer _ | .insertSession _ | .removeSession _ => True

/-! ### The past stays -/

section Mono

variable {P config} {events : List Event} {e : Event}

theorem Past.mono {p : Server → Event → Prop} (h : Past P config p events) :
    Past P config p (events ++ [e]) := Sometime.append h [e]

/-- The last event of a run is part of its past. -/
theorem Past.last {p : Server → Event → Prop} (h : p (run P config events) e) :
    Past P config p (events ++ [e]) := sometime_of_last h

theorem Verified.mono {peer : Peer} (h : Verified P config peer events) :
    Verified P config peer (events ++ [e]) := by
  obtain ⟨nonce, issuedMs, hissued, hsent⟩ := h
  exact ⟨nonce, issuedMs, Past.mono hissued, hsent.mono⟩

theorem Owns.mono {c : ℕ} {d : DeviceId} (h : Owns P config c d events) :
    Owns P config c d (events ++ [e]) := by
  obtain ⟨peer, hverified, hc, hd⟩ := h
  exact ⟨peer, hverified.mono, hc, hd⟩

theorem Forwarded.mono {sid : String} {msg : Message} {target : DeviceId}
    (h : Forwarded P config sid msg target events) :
    Forwarded P config sid msg target (events ++ [e]) := by
  obtain ⟨c, d, howns, hsent, hrouted⟩ := h
  exact ⟨c, d, howns.mono, Past.mono hsent, Past.mono hrouted⟩

theorem Departed.mono {sid : String} {msg : Message} {target : DeviceId}
    (h : Departed P config sid msg target events) :
    Departed P config sid msg target (events ++ [e]) := by
  obtain ⟨hmsg, c, d, howns, htorn, hlisted⟩ := h
  exact ⟨hmsg, c, d, howns.mono, Past.mono htorn, Past.mono hlisted⟩

theorem Justified.mono {k : ℕ} {env : Envelope} (h : Justified P config k env events) :
    Justified P config k env (events ++ [e]) := by
  intro hrouted sid hsid
  obtain ⟨target, howns, hreason⟩ := h hrouted sid hsid
  exact ⟨target, howns.mono, hreason.imp Forwarded.mono Departed.mono⟩

theorem TaskTrue.mono {c : ℕ} {identity : Option DeviceId} {task : Task}
    (h : TaskTrue P config c identity events task) :
    TaskTrue P config c identity (events ++ [e]) task := by
  cases task with
  | reading | gone | replying => trivial
  | inserting | displacing => exact ⟨h.1.mono, h.2⟩
  | acknowledging => exact Owns.mono h
  | resolving | creating | measuring | requesting | crediting | creditingHost | ending => exact h
  | routing => exact ⟨h.1, Past.mono h.2⟩
  | sending =>
      obtain ⟨sender, hid, hsent, hrouted⟩ := h
      exact ⟨sender, hid, Past.mono hsent, Past.mono hrouted⟩
  | looking => exact h
  | removing => exact ⟨h.1, Past.mono h.2⟩
  | listing | departing | closing =>
      exact ⟨h.1, Past.mono h.2.1, fun session hmem target ht =>
        Past.mono (h.2.2 session hmem target ht)⟩

theorem ConnTrue.mono {c : ℕ} {conn : Conn} (h : ConnTrue P config c conn events) :
    ConnTrue P config c conn (events ++ [e]) where
  issued := Past.mono h.issued
  owns d hd := (h.owns d hd).mono
  task := h.task.mono

end Mono

/-! ### One step of a task -/

section Step

variable {P config} {events : List Event} {c : ℕ} {conn : Conn}

/-- A program counter that is justified can be moved to. -/
theorem ConnTrue.withTask (h : ConnTrue P config c conn events) {task : Task}
    (ht : TaskTrue P config c conn.identity events task) :
    ConnTrue P config c { conn with task := task } events where
  issued := h.issued
  owns := h.owns
  task := ht

theorem ConnTrue.sendError (h : ConnTrue P config c conn events) (code : UInt16)
    (message : String) (inReplyTo : Option String) (close : Bool) :
    ConnTrue P config c (conn.sendError code message inReplyTo close) events :=
  h.withTask trivial

theorem ConnTrue.leave (h : ConnTrue P config c conn events) :
    ConnTrue P config c { conn with task := conn.leave } events := by
  refine h.withTask ?_
  unfold Conn.leave
  cases hid : conn.identity with
  | none => trivial
  | some d => exact rfl

/-- After a step of its task a connection's variables are justified. -/
theorem ConnTrue.act (hinv : Inv P config events (run P config events))
    (hc : (run P config events).conns c = some conn) (draw : Draw) :
    ConnTrue P config c (conn.act config (run P config events) c draw).1
      (events ++ [.advance c draw]) := by
  have h : ConnTrue P config c conn (events ++ [.advance c draw]) := (hinv.conns c conn hc).mono
  have ht := h.task
  cases htask : conn.task with
  | reading | gone =>
      simp only [Conn.act, htask]
      exact h
  | replying msg close =>
      simp only [Conn.act, htask]
      cases close with
      | false => exact h.withTask trivial
      | true => exact h.leave
  | inserting peer =>
      simp only [Conn.act, htask]
      rw [htask] at ht
      split
      · exact h.withTask ht
      · exact h.withTask ⟨peer, ht.1, ht.2, rfl⟩
  | displacing peer displaced =>
      simp only [Conn.act, htask]
      rw [htask] at ht
      exact h.withTask ⟨peer, ht.1, ht.2, rfl⟩
  | acknowledging d =>
      simp only [Conn.act, htask]
      rw [htask] at ht
      exact ⟨h.issued, fun d' hd => Option.some.inj hd ▸ ht, trivial⟩
  | resolving sender request =>
      simp only [Conn.act, htask]
      rw [htask] at ht
      split
      · exact h.withTask trivial
      · exact h.withTask ht
  | creating | measuring | requesting | crediting =>
      simp only [Conn.act, htask]
      rw [htask] at ht
      exact h.withTask ht
  | creditingHost =>
      simp only [Conn.act, htask]
      exact h.withTask trivial
  | routing sender sid msg replyTo ends =>
      simp only [Conn.act, htask]
      rw [htask] at ht
      split
      · exact h.sendError ..
      rename_i session hsession
      split
      · exact h.sendError ..
      rename_i target htarget
      refine h.withTask ⟨sender, ht.1, ht.2, Past.last ?_⟩
      exact ⟨draw, conn, replyTo, ends, session, rfl, hc, htask, hsession, htarget⟩
  | sending target sid msg replyTo ends =>
      simp only [Conn.act, htask]
      rw [htask] at ht
      obtain ⟨sender, hid, -⟩ := ht
      split
      · exact h.sendError ..
      split
      · refine h.withTask ?_
        cases ends with
        | false => trivial
        | true => exact hid ▸ Option.some_ne_none sender
      · exact h.sendError ..
  | ending sid =>
      simp only [Conn.act, htask]
      exact h.withTask trivial
  | looking d =>
      simp only [Conn.act, htask]
      rw [htask] at ht
      split
      · rename_i peer hpeer
        refine h.withTask ?_
        split
        · exact ⟨ht, Past.last ⟨draw, conn, peer, rfl, hc, htask, hpeer, ‹peer.connId = c›⟩⟩
        · trivial
      · exact h.withTask trivial
  | removing d =>
      simp only [Conn.act, htask]
      rw [htask] at ht
      exact h.withTask ⟨ht.1, ht.2, by simp⟩
  | listing d shard found =>
      simp only [Conn.act, htask]
      rw [htask] at ht
      obtain ⟨hid, htorn, hfound⟩ := ht
      split
      · split
        · rename_i hlists
          refine h.withTask ⟨hid, htorn, ?_⟩
          intro session hmem target htarget
          rcases List.mem_append.1 hmem with hold | hnew
          · exact hfound session hold target htarget
          · -- Found by this very step.
            have hlive := ((Registry.mem_of_lists hinv.keyed hlists).1 hnew).1
            exact Past.last ⟨draw, conn, shard, found, session, rfl, hc, htask, hlive, htarget⟩
        · exact h
      · exact h.withTask ⟨hid, htorn, hfound⟩
  | departing d sessions =>
      rw [htask] at ht
      obtain ⟨hid, htorn, hlisted⟩ := ht
      cases sessions with
      | nil =>
          simp only [Conn.act, htask]
          exact h.withTask trivial
      | cons session sessions =>
          simp only [Conn.act, htask]
          refine h.withTask ⟨hid, htorn, ?_⟩
          exact fun session' hmem => hlisted session' (List.mem_cons_of_mem _ hmem)
  | closing d session sessions =>
      simp only [Conn.act, htask]
      rw [htask] at ht
      exact h.withTask ht

/-- An envelope without a session id needs no justification. -/
theorem justified_of_sid_none {k : ℕ} {id : String} {msg : Message} :
    Justified P config k ⟨id, none, msg⟩ events := by
  intro _ sid hsid
  cases hsid

/-- A message that belongs to no session needs no justification. -/
theorem justified_of_not_isRouted {k : ℕ} {env : Envelope} (h : ¬ env.msg.IsRouted) :
    Justified P config k env events := fun hrouted => absurd hrouted h

/-- What a step of a task does to what is shared is justified. -/
theorem ConnTrue.act_effect (hinv : Inv P config events (run P config events))
    (hc : (run P config events).conns c = some conn) (draw : Draw) :
    EffectTrue P config (events ++ [.advance c draw])
      (conn.act config (run P config events) c draw).2 := by
  have h : ConnTrue P config c conn (events ++ [.advance c draw]) := (hinv.conns c conn hc).mono
  have ht := h.task
  -- A queue is reached through the entry of the device it belongs to.
  have howner : ∀ target peer, (run P config events).registry.get target = some peer →
      Owns P config peer.connId target (events ++ [.advance c draw]) := by
    intro target peer hget
    obtain ⟨hid, hverified⟩ := hinv.peers target peer hget
    exact ⟨peer, hverified.mono, rfl, hid⟩
  cases htask : conn.task with
  | reading | gone | creating | measuring | ending | removing | closing =>
      simp only [Conn.act, htask]
      trivial
  | replying | displacing | acknowledging =>
      simp only [Conn.act, htask]
      exact justified_of_sid_none
  | inserting peer =>
      simp only [Conn.act, htask]
      rw [htask] at ht
      split <;> exact ht.1
  | requesting | crediting | creditingHost =>
      simp only [Conn.act, htask]
      exact justified_of_not_isRouted (by simp [Message.IsRouted])
  | resolving | looking =>
      simp only [Conn.act, htask]
      split <;> trivial
  | routing =>
      simp only [Conn.act, htask]
      split
      · trivial
      · split <;> trivial
  | sending target sid msg replyTo ends =>
      simp only [Conn.act, htask]
      rw [htask] at ht
      obtain ⟨sender, hid, hsent, hrouted⟩ := ht
      split
      · trivial
      rename_i peer hpeer
      split
      · intro _ sid' hsid
        cases hsid
        exact ⟨target, howner target peer hpeer,
          Or.inl ⟨c, sender, h.owns sender hid, hsent, hrouted⟩⟩
      · trivial
  | listing =>
      simp only [Conn.act, htask]
      split
      · split <;> trivial
      · trivial
  | departing d sessions =>
      rw [htask] at ht
      obtain ⟨hid, htorn, hlisted⟩ := ht
      cases sessions with
      | nil =>
          simp only [Conn.act, htask]
          trivial
      | cons session sessions =>
          simp only [Conn.act, htask]
          split
          · rename_i peer hpeer
            obtain ⟨target, htarget, hget⟩ := Option.bind_eq_some_iff.1 hpeer
            intro _ sid hsid
            cases hsid
            exact ⟨target, howner target peer hget, Or.inr ⟨rfl, c, d, h.owns d hid, htorn,
              hlisted session List.mem_cons_self target htarget⟩⟩
          · trivial

/-! ### One step of the server -/

/-- After a registration a connection's variables are justified: an accepted one by the signature
over the connection's own challenge. -/
theorem ConnTrue.register {conn' : Conn} {env : Envelope} {reg : Register} {nowMs : ℕ}
    (hc : (run P config events).conns c = some conn) (hmsg : env.msg = .register reg)
    (hchallenge : conn'.challenge = conn.challenge)
    (h : ConnTrue P config c conn' (events ++ [.receive c (.text (.ok env)) nowMs])) :
    ConnTrue P config c (conn'.register P c reg env.id nowMs)
      (events ++ [.receive c (.text (.ok env)) nowMs]) := by
  have hnonce := Challenge.verify_nonce (P := P) conn'.challenge reg nowMs
  have hissued := Challenge.verify_issuedMs (P := P) conn'.challenge reg nowMs
  -- The challenge is spent now, but it is still the one that was issued.
  have hkept : Issued P config c (conn'.challenge.verify P reg nowMs).1.nonce
      (conn'.challenge.verify P reg nowMs).1.issuedMs
      (events ++ [.receive c (.text (.ok env)) nowMs]) := by
    rw [hnonce, hissued]
    exact h.issued
  unfold Conn.register
  split
  · rename_i challenge e hverify
    rw [hverify] at hkept
    have hspent : ConnTrue P config c { conn' with challenge := challenge }
        (events ++ [.receive c (.text (.ok env)) nowMs]) := ⟨hkept, h.owns, h.task⟩
    exact hspent.sendError ..
  · rename_i challenge pubkey hverify
    obtain ⟨husable, hanswers⟩ := Challenge.verify_eq_ok (congrArg Prod.snd hverify)
    rw [hverify] at hkept
    refine ⟨hkept, h.owns, ⟨conn'.challenge.nonce, conn'.challenge.issuedMs, h.issued, ?_⟩, rfl⟩
    rw [hchallenge] at husable hanswers ⊢
    exact Past.last ⟨conn, env, reg, nowMs, rfl, hmsg, hc, rfl, rfl, husable, hanswers, rfl, rfl⟩

/-- After a message a connection's variables are justified. -/
theorem ConnTrue.handle {conn' : Conn} {env : Envelope} {nowMs : ℕ}
    (hc : (run P config events).conns c = some conn)
    (hchallenge : conn'.challenge = conn.challenge) (hidentity : conn'.identity = conn.identity)
    (h : ConnTrue P config c conn' (events ++ [.receive c (.text (.ok env)) nowMs])) :
    ConnTrue P config c (conn'.handle P c env nowMs)
      (events ++ [.receive c (.text (.ok env)) nowMs]) := by
  unfold Conn.handle
  split
  · split
    · exact ConnTrue.register hc ‹_› hchallenge h
    · exact h.sendError ..
  rename_i identity hid
  have hsent : ∀ sid, env.names = some sid → Sent P config c identity sid env.msg
      (events ++ [.receive c (.text (.ok env)) nowMs]) := fun sid hnames =>
    Past.last ⟨conn, env, nowMs, rfl, hc, hidentity ▸ hid, rfl, hnames⟩
  have hforward : ∀ msg, env.msg = msg → env.names = env.sid → ConnTrue P config c
      (conn'.forward identity env.sid msg env.id)
      (events ++ [.receive c (.text (.ok env)) nowMs]) := by
    rintro msg rfl hnames
    unfold Conn.forward
    split
    · exact h.sendError ..
    · exact h.withTask ⟨hid, hsent _ (hnames.trans ‹_›)⟩
  cases hmsg : env.msg with
  | register => exact h.sendError ..
  | heartbeat => exact h.withTask trivial
  | connectRequest request => exact h.withTask (by simp [TaskTrue, hid])
  | connectResponse response =>
      simp only [Conn.connectResponse]
      split
      · exact h.sendError ..
      · rename_i sid hsid
        refine h.withTask ⟨hid, hmsg ▸ hsent sid ?_⟩
        simpa only [Envelope.names, hmsg] using hsid
  | offer | answer | iceCandidate | iceRestart | channelsReady | peerGone =>
      exact hforward _ hmsg (by simp only [Envelope.names, hmsg])
  | challenge | registerAck | heartbeatAck | relayCredentials | error => exact h

/-- After a frame a connection's variables are justified. -/
theorem ConnTrue.receive (hinv : Inv P config events (run P config events))
    (hc : (run P config events).conns c = some conn) (frame : Frame) (nowMs : ℕ) :
    ConnTrue P config c (conn.receive P c frame nowMs)
      (events ++ [.receive c frame nowMs]) := by
  have h : ConnTrue P config c conn (events ++ [.receive c frame nowMs]) :=
    (hinv.conns c conn hc).mono
  have hlimiter : ∀ limiter : RateLimiter, ConnTrue P config c { conn with limiter := limiter }
      (events ++ [.receive c frame nowMs]) := fun _ => ⟨h.issued, h.owns, h.task⟩
  cases frame with
  | binary => exact h.sendError ..
  | closed => exact h.leave
  | keepalive => exact h
  | text parsed =>
      simp only [Conn.receive]
      split
      · exact (hlimiter _).sendError ..
      · cases parsed with
        | ok env => exact ConnTrue.handle hc rfl rfl (hlimiter _)
        | error e => exact (hlimiter _).sendError ..

theorem Inv.step_conns (hinv : Inv P config events (run P config events)) (e : Event) {k : ℕ}
    {conn' : Conn} (hk : ((run P config events).step P config e).conns k = some conn') :
    ConnTrue P config k conn' (events ++ [e]) := by
  rcases Server.of_step_conns hk with ⟨hold, -⟩ | ⟨nonce, nowMs, ulid, rfl, rfl, rfl⟩ |
    ⟨conn, frame, nowMs, rfl, hc, -, rfl⟩ | ⟨conn, draw, rfl, hc, rfl⟩
  · exact (hinv.conns k conn' hold).mono
  · exact ⟨Past.last ⟨ulid, rfl, rfl⟩, by simp [Conn.new], trivial⟩
  · exact ConnTrue.receive hinv hc frame nowMs
  · exact ConnTrue.act hinv hc draw

/-- The effect of every step is justified. -/
theorem Inv.step_effect (hinv : Inv P config events (run P config events)) (e : Event) :
    EffectTrue P config (events ++ [e]) ((run P config events).effect config e) := by
  cases e with
  | advance c draw =>
      cases hc : (run P config events).conns c with
      | none =>
          simp only [Server.effect, hc]
          trivial
      | some conn =>
          rw [Server.effect_advance hc]
          exact ConnTrue.act_effect hinv hc draw
  | _ => trivial

theorem Inv.step_peers (hinv : Inv P config events (run P config events)) (e : Event)
    {d : DeviceId} {peer : Peer}
    (h : ((run P config events).step P config e).registry.get d = some peer) :
    peer.deviceId = d ∧ Verified P config peer (events ++ [e]) := by
  have hold : ∀ peer, (run P config events).registry.get d = some peer →
      peer.deviceId = d ∧ Verified P config peer (events ++ [e]) := fun peer h =>
    (hinv.peers d peer h).imp_right Verified.mono
  have htrue := hinv.step_effect e
  rw [Server.step_get] at h
  cases heffect : (run P config events).effect config e with
  | insertPeer peer' =>
      rw [heffect] at h htrue
      simp only [Server.apply] at h
      by_cases hd : d = peer'.deviceId
      · subst hd
        rw [Registry.get_register_self] at h
        obtain rfl := Option.some.inj h
        exact ⟨rfl, htrue⟩
      · rw [Registry.get_register_of_ne _ _ hd] at h
        exact hold peer h
  | removePeer d' =>
      rw [heffect] at h
      simp only [Server.apply] at h
      by_cases hd : d = d'
      · subst hd
        rw [Registry.get_remove_self] at h
        cases h
      · rw [Registry.get_remove_of_ne _ hd] at h
        exact hold peer h
  | silent | insertSession | removeSession | send =>
      rw [heffect] at h
      exact hold peer h

/-- Every step keeps the invariant. -/
theorem Inv.step (hinv : Inv P config events (run P config events)) (e : Event) :
    Inv P config (events ++ [e]) ((run P config events).step P config e) where
  fresh := Server.step_fresh hinv.fresh e
  conns _ _ hk := hinv.step_conns e hk
  peers _ _ h := hinv.step_peers e h
  queues k env h := by
    rcases Server.mem_step_queues h with h | ⟨id, nonce, serverTime, rfl⟩
    · rcases Server.mem_apply_queues h with hold | hsend
      · exact (hinv.queues k env hold).mono
      · have htrue := hinv.step_effect e
        rwa [hsend] at htrue
    · exact justified_of_sid_none
  keyed := Server.step_keyed hinv.keyed e

theorem inv_new : Inv P config [] Server.new where
  fresh _ _ := rfl
  conns _ _ h := by cases h
  peers _ _ h := by cases h
  queues _ _ h := by cases h
  keyed _ _ h := by cases h

/-- **The invariant holds of every run**, however the connections' steps are interleaved. -/
theorem inv_run (events : List Event) : Inv P config events (run P config events) :=
  run_history (Inv P config) inv_new (fun _ e hinv => hinv.step e) events

/-- The device id of a verified entry is derived from its key. -/
theorem Verified.deviceId_eq {peer : Peer} (h : Verified P config peer events) :
    deviceIdFromPubkey P peer.pubkey = peer.deviceId := by
  obtain ⟨nonce, issuedMs, -, hsent⟩ := h
  obtain ⟨_, _, conn, env, reg, nowMs, -, -, -, -, -, -, hanswers, hid, -⟩ := hsent.exists
  exact hanswers.id_eq.trans hid

/-! ### Before registration -/

/-- A registration has been accepted and is being entered. -/
def Task.Registering : Task → Prop
  | .inserting _ | .displacing .. | .acknowledging _ => True
  | _ => False

/-- The connection has not registered. -/
def Conn.Stranger (conn : Conn) : Prop := conn.identity = none ∧ ¬ conn.task.Registering

/-- An unregistered connection reads, answers itself or is gone. -/
theorem ConnTrue.task_of_stranger (h : ConnTrue P config c conn events) (hconn : conn.Stranger) :
    conn.task = .reading ∨ conn.task = .gone ∨ ∃ msg close, conn.task = .replying msg close := by
  obtain ⟨hid, htask⟩ := hconn
  have ht := h.task
  rw [hid] at ht
  cases hcase : conn.task with
  | reading => exact Or.inl rfl
  | gone => exact Or.inr (Or.inl rfl)
  | replying msg close => exact Or.inr (Or.inr ⟨msg, close, rfl⟩)
  | inserting | displacing | acknowledging =>
      rw [hcase] at htask
      exact absurd trivial htask
  | resolving | creating | measuring | requesting | crediting | creditingHost | ending =>
      rw [hcase] at ht
      exact absurd rfl ht
  | routing | looking =>
      rw [hcase] at ht
      simp [TaskTrue] at ht
  | sending | removing | listing | departing | closing =>
      rw [hcase] at ht
      simp [TaskTrue] at ht

/-- What a frame other than a registration leaves of an unregistered connection. -/
theorem stranger_receive (hconn : conn.Stranger) {frame : Frame} {nowMs : ℕ}
    (hreg : ∀ env reg, frame = .text (.ok env) → env.msg ≠ .register reg) :
    (conn.receive P c frame nowMs).Stranger := by
  obtain ⟨hid, htask⟩ := hconn
  have hsend : ∀ (limiter : RateLimiter) (code : UInt16) (message : String)
      (inReplyTo : Option String) (close : Bool),
      ({ conn with limiter := limiter }.sendError code message inReplyTo close).Stranger :=
    fun _ _ _ _ _ => ⟨hid, id⟩
  cases frame with
  | binary => exact hsend conn.limiter ..
  | closed => exact ⟨hid, by simp [Conn.receive, Conn.leave, hid, Task.Registering]⟩
  | keepalive => exact ⟨hid, htask⟩
  | text parsed =>
      simp only [Conn.receive]
      split
      · exact hsend _ ..
      · cases parsed with
        | error e => exact hsend _ ..
        | ok env =>
            simp only [Conn.handle, hid]
            split
            · exact absurd ‹_› (hreg env _ rfl)
            · exact ⟨rfl, id⟩

/-- **Before registration** no step of a connection but a registration changes the registry, the
sessions or what any other connection holds or receives, and the connection stays unregistered. -/
theorem stranger_step (hinv : Inv P config events (run P config events))
    (hc : (run P config events).conns c = some conn) (hconn : conn.Stranger) {e : Event}
    (howner : (run P config events).owner e = c)
    (hreg : ∀ env reg nowMs, e = .receive c (.text (.ok env)) nowMs → env.msg ≠ .register reg) :
    ((run P config events).step P config e).registry = (run P config events).registry ∧
      (∀ k, k ≠ c →
        ((run P config events).step P config e).queues k = (run P config events).queues k ∧
        ((run P config events).step P config e).conns k = (run P config events).conns k) ∧
      ∃ conn', ((run P config events).step P config e).conns c = some conn' ∧ conn'.Stranger := by
  have hconns : ∀ k, k ≠ c → ((run P config events).step P config e).conns k =
      (run P config events).conns k := fun k hk => Server.step_conns_of_ne (howner ▸ hk)
  cases e with
  | connect nonce nowMs ulid =>
      rw [hinv.fresh c howner.le] at hc
      cases hc
  | receive c' frame nowMs =>
      obtain rfl : c' = c := howner
      by_cases htask : conn.task = .reading
      · rw [Server.step_receive hc htask] at hconns ⊢
        refine ⟨rfl, fun k hk => ⟨rfl, hconns k hk⟩, _, Server.setConn_conns_self, ?_⟩
        refine stranger_receive hconn ?_
        rintro env reg rfl
        exact hreg env reg nowMs rfl
      · rw [Server.step_receive_of_ne hc htask] at hconns ⊢
        exact ⟨rfl, fun k hk => ⟨rfl, hconns k hk⟩, conn, hc, hconn⟩
  | advance c' draw =>
      obtain rfl : c' = c := howner
      rw [Server.step_advance hc] at hconns ⊢
      rcases (hinv.conns c' conn hc).task_of_stranger hconn with htask | htask | ⟨msg, close, htask⟩
      · simp only [Conn.act, htask] at hconns ⊢
        exact ⟨rfl, fun k hk => ⟨rfl, hconns k hk⟩, conn, Server.setConn_conns_self, hconn⟩
      · simp only [Conn.act, htask] at hconns ⊢
        exact ⟨rfl, fun k hk => ⟨rfl, hconns k hk⟩, conn, Server.setConn_conns_self, hconn⟩
      · simp only [Conn.act, htask] at hconns ⊢
        refine ⟨rfl, fun k hk => ⟨Function.update_of_ne hk .., hconns k hk⟩, _,
          Server.setConn_conns_self, hconn.1, ?_⟩
        cases close with
        | false => exact id
        | true => simp [Conn.leave, hconn.1, Task.Registering]
  | stopWriter c' =>
      obtain rfl : c' = c := howner
      exact ⟨rfl, fun k hk => ⟨Function.update_of_ne hk .., rfl⟩, conn, hc, hconn⟩

end Step

/-- **Signalling routing safety.**  After any interleaving of any number of connections: every entry
of the registry carries the id of its own key, shown by a signature over the nonce issued to that
very socket; every envelope of a session on a device's queue was sent on a connection of the other
participant, or is the server's own notice that the other participant's connection was torn down;
and a connection that has not registered changes nothing but what it is answered itself. -/
theorem signalling_routes_safely (events : List Event) :
    (∀ d peer, (run P config events).registry.get d = some peer →
      peer.deviceId = d ∧ deviceIdFromPubkey P peer.pubkey = d ∧ Verified P config peer events) ∧
    (∀ k env sid, env ∈ ((run P config events).queues k).envelopes → env.msg.IsRouted →
      env.sid = some sid → ∃ target, Owns P config k target events ∧
        (Forwarded P config sid env.msg target events ∨
          Departed P config sid env.msg target events)) ∧
    (∀ c conn e, (run P config events).conns c = some conn → conn.Stranger →
      (run P config events).owner e = c →
      (∀ env reg nowMs, e = .receive c (.text (.ok env)) nowMs → env.msg ≠ .register reg) →
      (run P config (events ++ [e])).registry = (run P config events).registry ∧
        (∀ k, k ≠ c → (run P config (events ++ [e])).queues k = (run P config events).queues k ∧
          (run P config (events ++ [e])).conns k = (run P config events).conns k) ∧
        ∃ conn', (run P config (events ++ [e])).conns c = some conn' ∧ conn'.Stranger) := by
  have hinv : Inv P config events (run P config events) := inv_run events
  refine ⟨?_, ?_, ?_⟩
  · intro d peer hget
    obtain ⟨hid, hverified⟩ := hinv.peers d peer hget
    exact ⟨hid, hverified.deviceId_eq.trans hid, hverified⟩
  · intro k env sid hmem hrouted hsid
    exact hinv.queues k env hmem hrouted sid hsid
  · intro c conn e hc hconn howner hreg
    rw [run_snoc]
    exact stranger_step hinv hc hconn howner hreg

end Signal

end Rda
