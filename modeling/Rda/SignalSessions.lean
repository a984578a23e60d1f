/-
**The end of a session.**

A session is to end with the connection of either participant: the teardown of a registered
connection lists the device's sessions, tells the other participant of each and ends it.  It can
only list what is there.  A session that is created after one of its participants has been
deregistered, because the target was resolved before, or because a displaced connection goes on, is
in no list.

Main definitions:

* `Rda.Signal.Orderly` — no session is created for a device that is not registered, and a teardown
  finds each session still there and its other participant able to hear of it;
* `Rda.Signal.Task.Covers`, `Rda.Signal.Covered` — a teardown that will come to a session, and a
  device that is registered or has such a teardown;
* `Rda.Signal.Noted` — the other participant has been sent the notice.

Main results:

* `Rda.Signal.covered_run` — every participant of every live session is covered;
* `Rda.Signal.sessions_end` — **along orderly runs no session outlives a participant**, and the
  other one has been told;
* `Rda.Signal.session_leaked` — a session that is live when every connection is gone.
-/

import Rda.SignalRefusal

set_option relaxedAutoImplicit false
set_option autoImplicit false

namespace Rda

namespace Signal

open Machine

variable (P : Primitives) (config : Config)

/-! ### Orderly runs -/

/-- What a step must respect for sessions to end with their participants. -/
structure Orderly (s : Server) (e : Event) : Prop where
  /-- A session is created while both participants are registered. -/
  created : ∀ session, s.effect config e = .insertSession session → ∀ d, session.Has d →
    ∃ peer, s.registry.get d = some peer
  /-- A session is not ended while another connection's teardown still has to list it. -/
  ended : ∀ id session, s.effect config e = .removeSession id →
    s.registry.session id = some session → ∀ k conn d shard found, k ≠ s.owner e →
      s.conns k = some conn → conn.task = .listing d shard found → session.Has d →
        (config.shardOf id).val < shard
  /-- The other participant is registered, with a running writer, when a teardown comes to it. -/
  noted : ∀ c draw conn d session sessions, e = .advance c draw → s.conns c = some conn →
    conn.task = .departing d (session :: sessions) → ∀ target, session.peerOf d = some target →
      ∃ peer, s.registry.get target = some peer ∧ (s.queues peer.connId).isOpen = true

/-- The ids of the sessions a run creates. -/
def createdIds : Server → List Event → List String
  | _, [] => []
  | s, e :: events =>
      match s.effect config e with
      | .insertSession session => session.id :: createdIds (s.step P config e) events
      | _ => createdIds (s.step P config e) events

/-- No session is given the id of an earlier one: the identifiers drawn are unique. -/
def FreshIds (events : List Event) : Prop := (createdIds P config Server.new events).Nodup

/-! ### What a teardown still comes to -/

/-- The teardown of a connection of the device still comes to the session. -/
def Task.Covers (config : Config) (d : DeviceId) (session : Session) : Task → Prop
  | .listing d' shard found => d' = d ∧ (shard ≤ (config.shardOf session.id).val ∨ session ∈ found)
  | .departing d' sessions => d' = d ∧ session ∈ sessions
  | .closing d' current sessions => d' = d ∧ (current = session ∨ session ∈ sessions)
  | _ => False

/-- The device is registered, or a teardown of it still comes to the session. -/
def Covered (s : Server) (d : DeviceId) (session : Session) : Prop :=
  (∃ peer, s.registry.get d = some peer) ∨
    ∃ c conn, s.conns c = some conn ∧ conn.task.Covers config d session

/-- Every participant of every live session is covered. -/
def AllCovered (s : Server) : Prop :=
  ∀ session d, s.registry.session session.id = some session → session.Has d →
    Covered config s d session

variable {P config} {s : Server} {e : Event}

/-- **A teardown comes to its sessions**: with each step it still comes to one, or has just ended
it. -/
theorem covers_act {c : ℕ} {conn : Conn} {d : DeviceId} {session : Session}
    (hkeyed : s.registry.Keyed) (hcovers : conn.task.Covers config d session)
    (hlive : s.registry.session session.id = some session) (hhas : session.Has d) (draw : Draw) :
    (conn.act config s c draw).1.task.Covers config d session ∨
      (conn.act config s c draw).2 = .removeSession session.id := by
  cases htask : conn.task with
  | listing d' shard found =>
      rw [htask] at hcovers
      obtain ⟨rfl, hcovers⟩ := hcovers
      refine Or.inl ?_
      simp only [Conn.act, htask]
      split
      · split
        · rename_i hlists
          refine ⟨rfl, ?_⟩
          rcases hcovers with hle | hfound
          · rcases Nat.lt_or_eq_of_le hle with hlt | heq
            · exact Or.inl hlt
            · -- The session's own shard has just been listed.
              refine Or.inr (List.mem_append_right _ ?_)
              exact (Registry.mem_of_lists hkeyed hlists).2 ⟨hlive, by simp [heq], hhas⟩
          · exact Or.inr (List.mem_append_left _ hfound)
        · rw [htask]
          exact ⟨rfl, hcovers⟩
      · rename_i hshard
        refine ⟨rfl, hcovers.resolve_left ?_⟩
        have hlt := (config.shardOf session.id).isLt
        omega
  | departing d' sessions =>
      rw [htask] at hcovers
      obtain ⟨rfl, hmem⟩ := hcovers
      cases sessions with
      | nil => cases hmem
      | cons current sessions =>
          refine Or.inl ?_
          simp only [Conn.act, htask]
          exact ⟨rfl, (List.mem_cons.1 hmem).imp Eq.symm id⟩
  | closing d' current sessions =>
      rw [htask] at hcovers
      obtain ⟨rfl, hmem⟩ := hcovers
      simp only [Conn.act, htask]
      rcases hmem with rfl | hmem
      · exact Or.inr rfl
      · exact Or.inl ⟨rfl, hmem⟩
  | _ =>
      rw [htask] at hcovers
      exact hcovers.elim

/-- A connection whose task covers something is not changed by a frame. -/
theorem step_covers {k : ℕ} {conn : Conn} {d : DeviceId} {session : Session}
    (hfresh : ∀ k, s.registry.nextConnId ≤ k → s.conns k = none) (hkeyed : s.registry.Keyed)
    (hk : s.conns k = some conn) (hcovers : conn.task.Covers config d session)
    (hlive : s.registry.session session.id = some session) (hhas : session.Has d)
    (hkept : s.effect config e ≠ .removeSession session.id) :
    ∃ conn', (s.step P config e).conns k = some conn' ∧ conn'.task.Covers config d session := by
  obtain ⟨conn', hk'⟩ := Server.exists_step_conns P config hk e
  refine ⟨conn', hk', ?_⟩
  rcases Server.of_step_conns hk' with ⟨hold, -⟩ | ⟨_, _, _, -, rfl, -⟩ |
    ⟨conn₀, frame, nowMs, rfl, hk₀, hread, -⟩ | ⟨conn₀, draw, rfl, hk₀, rfl⟩
  · obtain rfl := Option.some.inj (hk.symm.trans hold)
    exact hcovers
  · rw [hfresh _ le_rfl] at hk
    cases hk
  · obtain rfl := Option.some.inj (hk.symm.trans hk₀)
    rw [hread] at hcovers
    exact hcovers.elim
  · obtain rfl := Option.some.inj (hk.symm.trans hk₀)
    refine (covers_act hkeyed hcovers hlive hhas draw).resolve_right ?_
    rwa [← Server.effect_advance hk]

/-- A removal leaves the device to the teardown that made it. -/
theorem step_removing {d : DeviceId} (heffect : s.effect config e = .removePeer d)
    (session : Session) :
    ∃ c conn, (s.step P config e).conns c = some conn ∧ conn.task.Covers config d session := by
  have hne : s.effect config e ≠ .silent := by simp [heffect]
  obtain ⟨c, draw, conn, rfl, hc, hact⟩ := Server.exists_act hne
  rw [heffect] at hact
  have htask := Conn.act_eq_removePeer.1 hact.symm
  refine ⟨c, (conn.act config s c draw).1, ?_, ?_⟩
  · rw [Server.step_advance hc, Server.setConn_conns_self]
  · simp only [Conn.act, htask]
    exact ⟨rfl, Or.inl (Nat.zero_le _)⟩

/-- What is covered stays so while its session is there. -/
theorem Covered.step {d : DeviceId} {session : Session} (h : Covered config s d session)
    (hfresh : ∀ k, s.registry.nextConnId ≤ k → s.conns k = none) (hkeyed : s.registry.Keyed)
    (hlive : s.registry.session session.id = some session) (hhas : session.Has d)
    (hkept : s.effect config e ≠ .removeSession session.id) :
    Covered config (s.step P config e) d session := by
  rcases h with ⟨peer, hget⟩ | ⟨k, conn, hk, hcovers⟩
  · cases heffect : s.effect config e with
    | insertPeer new =>
        refine Or.inl ?_
        rw [Server.step_get, heffect, Server.apply]
        by_cases hd : d = new.deviceId
        · exact ⟨new, hd ▸ Registry.get_register_self ..⟩
        · exact ⟨peer, (Registry.get_register_of_ne _ _ hd).trans hget⟩
    | removePeer d' =>
        by_cases hd : d = d'
        · exact Or.inr (step_removing (hd ▸ heffect) session)
        · refine Or.inl ⟨peer, ?_⟩
          rw [Server.step_get, heffect, Server.apply, Registry.get_remove_of_ne _ hd, hget]
    | silent | insertSession | removeSession | send =>
        refine Or.inl ⟨peer, ?_⟩
        rw [Server.step_get, heffect]
        exact hget
  · obtain ⟨conn', hk', hcovers'⟩ := step_covers hfresh hkeyed hk hcovers hlive hhas hkept
    exact Or.inr ⟨k, conn', hk', hcovers'⟩

/-- **Orderly steps keep every participant covered.** -/
theorem AllCovered.step (hs : AllCovered config s)
    (hfresh : ∀ k, s.registry.nextConnId ≤ k → s.conns k = none) (hkeyed : s.registry.Keyed)
    (hgood : Orderly config s e) : AllCovered config (s.step P config e) := by
  intro session d hlive hhas
  rw [Server.step_session] at hlive
  have hold : s.registry.session session.id = some session →
      s.effect config e ≠ .removeSession session.id →
        Covered config (s.step P config e) d session := fun hlive hkept =>
    (hs session d hlive hhas).step hfresh hkeyed hlive hhas hkept
  cases heffect : s.effect config e with
  | insertSession new =>
      rw [heffect, Server.apply] at hlive
      by_cases hid : session.id = new.id
      · rw [hid, Registry.session_createSession_self] at hlive
        obtain rfl := Option.some.inj hlive
        obtain ⟨peer, hget⟩ := hgood.created new heffect d hhas
        refine Or.inl ⟨peer, ?_⟩
        rw [Server.step_get, heffect]
        exact hget
      · rw [Registry.session_createSession_of_ne _ _ hid] at hlive
        exact hold hlive (by simp [heffect])
  | removeSession id =>
      rw [heffect, Server.apply] at hlive
      by_cases hid : session.id = id
      · rw [hid, Registry.session_endSession_self] at hlive
        cases hlive
      · rw [Registry.session_endSession_of_ne _ hid] at hlive
        refine hold hlive ?_
        rw [heffect]
        exact fun h => hid (Effect.removeSession.inj h).symm
  | silent | insertPeer | removePeer | send =>
      rw [heffect] at hlive
      exact hold hlive (by simp [heffect])

/-- **Every participant of every live session is covered** in every state of an orderly run. -/
theorem covered_run {events : List Event}
    (hgood : Along (Server.step P config) (Orderly config) Server.new events) :
    AllCovered config (run P config events) := by
  induction events using List.reverseRec with
  | nil => exact fun _ _ h => by cases h
  | append_singleton events e ih =>
      obtain ⟨hbefore, hlast⟩ := along_append.1 hgood
      have hinv : Inv P config events (run P config events) := inv_run events
      rw [run_snoc]
      exact (ih hbefore).step hinv.fresh hinv.keyed hlast.1

/-! ### Entries and their connections -/

/-- The connection has entered the device and its teardown has not removed it. -/
def Conn.Holds (d : DeviceId) (conn : Conn) : Prop :=
  match conn.task with
  | .inserting _ | .listing .. | .departing .. | .closing .. | .gone => False
  | .displacing peer _ => peer.deviceId = d
  | .acknowledging d' | .looking d' | .removing d' => d' = d
  | _ => conn.identity = some d

/-- Every entry is held by its connection. -/
def EntriesHeld (s : Server) : Prop :=
  ∀ d peer, s.registry.get d = some peer →
    ∃ conn, s.conns peer.connId = some conn ∧ conn.Holds d

theorem leave_holds {conn : Conn} {d : DeviceId} (hid : conn.identity = some d) :
    Conn.Holds d { conn with task := conn.leave } := by
  simp only [Conn.Holds, Conn.leave, hid]

theorem receive_holds {c : ℕ} {conn : Conn} {d : DeviceId} (hid : conn.identity = some d)
    (hread : conn.task = .reading) (frame : Frame) (nowMs : ℕ) :
    (conn.receive P c frame nowMs).Holds d := by
  cases frame with
  | binary => exact hid
  | closed => exact leave_holds hid
  | keepalive =>
      simp only [Conn.receive, Conn.Holds, hread]
      exact hid
  | text parsed =>
      simp only [Conn.receive]
      split
      · exact hid
      · cases parsed with
        | error e => exact hid
        | ok env =>
            simp only [Conn.handle, hid]
            split
            · rfl
            · rfl
            · rfl
            · simp only [Conn.connectResponse]
              split <;> rfl
            all_goals first
              | (simp only [Conn.forward]; split <;> rfl)
              | simp only [Conn.Holds, hread]

/-- A connection goes on holding its entry, or removes it. -/
theorem act_holds {c : ℕ} {conn : Conn} {d : DeviceId} {peer : Peer} (h : conn.Holds d)
    (hget : s.registry.get d = some peer) (hpeer : peer.connId = c) (draw : Draw) :
    (conn.act config s c draw).1.Holds d ∨ (conn.act config s c draw).2 = .removePeer d := by
  unfold Conn.Holds at h
  cases htask : conn.task with
  | inserting | listing | departing | closing | gone =>
      rw [htask] at h
      exact h.elim
  | reading =>
      rw [htask] at h
      refine Or.inl ?_
      simp only [Conn.act, Conn.Holds, htask]
      exact h
  | replying msg close =>
      rw [htask] at h
      refine Or.inl ?_
      simp only [Conn.act, htask]
      cases close with
      | false => exact h
      | true => exact leave_holds h
  | displacing peer displaced =>
      rw [htask] at h
      refine Or.inl ?_
      simp only [Conn.act, htask]
      exact h
  | acknowledging d' =>
      rw [htask] at h
      refine Or.inl ?_
      simp only [Conn.act, htask]
      exact congrArg some h
  | looking d' =>
      rw [htask] at h
      obtain rfl := h
      refine Or.inl ?_
      simp only [Conn.act, htask, hget, if_pos hpeer]
      exact rfl
  | removing d' =>
      rw [htask] at h
      obtain rfl := h
      exact Or.inr (by simp only [Conn.act, htask])
  | creating | measuring | requesting | crediting | creditingHost | ending =>
      rw [htask] at h
      refine Or.inl ?_
      simp only [Conn.act, htask]
      exact h
  | resolving =>
      rw [htask] at h
      refine Or.inl ?_
      simp only [Conn.act, htask]
      split <;> exact h
  | routing =>
      rw [htask] at h
      refine Or.inl ?_
      simp only [Conn.act, htask]
      split
      · exact h
      · split <;> exact h
  | sending target sid msg replyTo ends =>
      rw [htask] at h
      refine Or.inl ?_
      simp only [Conn.act, htask]
      split
      · exact h
      · split
        · cases ends <;> exact h
        · exact h

/-- An entry that a step leaves is held after it. -/
theorem EntriesHeld.kept (hs : EntriesHeld s)
    (hfresh : ∀ k, s.registry.nextConnId ≤ k → s.conns k = none) {d : DeviceId} {peer : Peer}
    (hget : s.registry.get d = some peer) (hkept : s.effect config e ≠ .removePeer d) :
    ∃ conn, (s.step P config e).conns peer.connId = some conn ∧ conn.Holds d := by
  obtain ⟨conn, hk, hholds⟩ := hs d peer hget
  obtain ⟨conn', hk'⟩ := Server.exists_step_conns P config hk e
  refine ⟨conn', hk', ?_⟩
  rcases Server.of_step_conns hk' with ⟨hold, -⟩ | ⟨_, _, _, -, heq, -⟩ |
    ⟨conn₀, frame, nowMs, rfl, hk₀, hread, rfl⟩ | ⟨conn₀, draw, rfl, hk₀, rfl⟩
  · obtain rfl := Option.some.inj (hk.symm.trans hold)
    exact hholds
  · rw [hfresh _ heq.ge] at hk
    cases hk
  · obtain rfl := Option.some.inj (hk.symm.trans hk₀)
    refine receive_holds ?_ hread frame nowMs
    unfold Conn.Holds at hholds
    rwa [hread] at hholds
  · obtain rfl := Option.some.inj (hk.symm.trans hk₀)
    refine (act_holds hholds hget rfl draw).resolve_right ?_
    rwa [← Server.effect_advance hk]

/-- Every entry is held by its connection, after any run. -/
theorem entriesHeld_run (events : List Event) : EntriesHeld (run P config events) := by
  induction events using List.reverseRec with
  | nil => exact fun _ _ h => by cases h
  | append_singleton events e ih =>
      have hinv : Inv P config events (run P config events) := inv_run events
      intro d peer hget
      rw [run_snoc] at hget ⊢
      rw [Server.step_get] at hget
      cases heffect : (run P config events).effect config e with
      | insertPeer new =>
          rw [heffect, Server.apply] at hget
          by_cases hd : d = new.deviceId
          · subst hd
            rw [Registry.get_register_self] at hget
            obtain rfl := Option.some.inj hget
            have hne : (run P config events).effect config e ≠ .silent := by simp [heffect]
            obtain ⟨c, draw, conn, rfl, hc, hact⟩ := Server.exists_act hne
            rw [heffect] at hact
            have htask := Conn.act_eq_insertPeer.1 hact.symm
            obtain rfl : new.connId = c := by
              have htrue := (hinv.conns c conn hc).task
              rw [htask] at htrue
              exact htrue.2
            refine ⟨(conn.act config (run P config events) new.connId draw).1, ?_, ?_⟩
            · rw [Server.step_advance hc, Server.setConn_conns_self]
            · simp only [Conn.act, htask]
              split <;> exact rfl
          · rw [Registry.get_register_of_ne _ _ hd] at hget
            exact ih.kept hinv.fresh hget (by simp [heffect])
      | removePeer d' =>
          rw [heffect, Server.apply] at hget
          by_cases hd : d = d'
          · subst hd
            rw [Registry.get_remove_self] at hget
            cases hget
          · rw [Registry.get_remove_of_ne _ hd] at hget
            refine ih.kept hinv.fresh hget ?_
            rw [heffect]
            exact fun h => hd (Effect.removePeer.inj h).symm
      | silent | insertSession | removeSession | send =>
          rw [heffect] at hget
          exact ih.kept hinv.fresh hget (by simp [heffect])

/-- A covered participant has a connection that is not gone. -/
theorem Covered.exists_conn {events : List Event} {d : DeviceId} {session : Session}
    (h : Covered config (run P config events) d session) :
    ∃ c conn, (run P config events).conns c = some conn ∧ conn.task ≠ .gone ∧
      Owns P config c d events := by
  have hinv : Inv P config events (run P config events) := inv_run events
  rcases h with ⟨peer, hget⟩ | ⟨c, conn, hc, hcovers⟩
  · obtain ⟨conn, hc, hholds⟩ := entriesHeld_run events d peer hget
    obtain ⟨hid, hverified⟩ := hinv.peers d peer hget
    refine ⟨peer.connId, conn, hc, ?_, peer, hverified, rfl, hid⟩
    intro htask
    unfold Conn.Holds at hholds
    rw [htask] at hholds
    exact hholds
  · have htrue := hinv.conns c conn hc
    have htask := htrue.task
    cases hcase : conn.task with
    | listing | departing | closing =>
        rw [hcase] at htask hcovers
        obtain ⟨rfl, -⟩ := hcovers
        exact ⟨c, conn, hc, by simp [hcase], htrue.owns _ htask.1⟩
    | _ =>
        rw [hcase] at hcovers
        exact hcovers.elim

/-! ### The notice -/

/-- The device has been sent the notice that the session is over. -/
def Noted (P : Primitives) (config : Config) (target : DeviceId) (session : Session)
    (events : List Event) : Prop :=
  ∃ k env, k < (run P config events).registry.nextConnId ∧ Owns P config k target events ∧
    env ∈ ((run P config events).queues k).envelopes ∧ env.sid = some session.id ∧
    env.msg = .peerGone "disconnected"

theorem Noted.mono {target : DeviceId} {session : Session} {events : List Event}
    (h : Noted P config target session events) (e : Event) :
    Noted P config target session (events ++ [e]) := by
  obtain ⟨k, env, hlt, howns, hmem, hsid, hmsg⟩ := h
  refine ⟨k, env, ?_, howns.mono, ?_, hsid, hmsg⟩
  · rw [run_snoc]
    exact hlt.trans_le (Server.nextConnId_le_step _ e)
  · rw [run_snoc]
    exact Server.mem_queues_step hmem hlt.ne e

/-- The session is over and the other participant has been told. -/
def Settled (P : Primitives) (config : Config) (target : DeviceId) (session : Session)
    (events : List Event) : Prop :=
  (run P config events).registry.session session.id = none ∧ Noted P config target session events

/-- Where a teardown stands with a session that was there when it removed its entry. -/
def Settling (P : Primitives) (config : Config) (d target : DeviceId) (session : Session)
    (events : List Event) : Task → Prop
  | .listing d' shard found => d' = d ∧ (session ∈ found ∨
      (run P config events).registry.session session.id = some session ∧
        shard ≤ (config.shardOf session.id).val)
  | .departing d' sessions => d' = d ∧
      (session ∈ sessions ∨ Settled P config target session events)
  | .closing d' current sessions => d' = d ∧
      (current = session ∧ Noted P config target session events ∨ session ∈ sessions ∨
        Settled P config target session events)
  | .gone => Settled P config target session events
  | _ => False

/-- What a teardown puts on the queue of a registered device with a running writer is its notice. -/
theorem noted_of_send {events : List Event} {e : Event} {target : DeviceId} {session : Session}
    {peer : Peer} (id : String) (hget : (run P config events).registry.get target = some peer)
    (hopen : ((run P config events).queues peer.connId).isOpen = true)
    (heffect : (run P config events).effect config e =
      .send peer.connId ⟨id, some session.id, .peerGone "disconnected"⟩) :
    Noted P config target session (events ++ [e]) := by
  have hinv : Inv P config events (run P config events) := inv_run events
  obtain ⟨hid, hverified⟩ := hinv.peers target peer hget
  have hlt : peer.connId < (run P config events).registry.nextConnId := by
    obtain ⟨conn, hc, -⟩ := entriesHeld_run events target peer hget
    by_contra hle
    rw [hinv.fresh _ (Nat.le_of_not_lt hle)] at hc
    cases hc
  refine ⟨peer.connId, ⟨id, some session.id, .peerGone "disconnected"⟩, ?_,
    ⟨peer, hverified.mono, rfl, hid⟩, ?_, rfl, rfl⟩
  · rw [run_snoc]
    exact hlt.trans_le (Server.nextConnId_le_step _ e)
  · rw [run_snoc]
    exact Server.mem_queues_of_send heffect hopen

/-- A listing reads the registry and changes nothing. -/
theorem act_listing_silent {s : Server} {c : ℕ} {conn : Conn} {d : DeviceId} {shard : ℕ}
    {found : List Session} (htask : conn.task = .listing d shard found) (draw : Draw) :
    (conn.act config s c draw).2 = .silent := by
  simp only [Conn.act, htask]
  split
  · split
    · rfl
    · rfl
  · rfl

/-- **A teardown settles its sessions**: each orderly step of it brings a session nearer its end. -/
theorem settling_act {events : List Event} {c : ℕ} {conn : Conn} {d target : DeviceId}
    {session : Session} {draw : Draw} (hc : (run P config events).conns c = some conn)
    (hsettling : Settling P config d target session events conn.task)
    (hgood : Orderly config (run P config events) (.advance c draw))
    (htarget : session.peerOf d = some target) :
    Settling P config d target session (events ++ [.advance c draw])
      (conn.act config (run P config events) c draw).1.task := by
  have hinv : Inv P config events (run P config events) := inv_run events
  have hsettled : (∀ new, (run P config events).effect config (.advance c draw) ≠
      .insertSession new) → Settled P config target session events →
      Settled P config target session (events ++ [.advance c draw]) := by
    rintro hnone ⟨hended, hnoted⟩
    refine ⟨?_, hnoted.mono _⟩
    rw [run_snoc]
    exact Server.step_session_eq_none hended fun new h => absurd h (hnone new)
  rw [Server.effect_advance hc] at hsettled
  cases htask : conn.task with
  | gone =>
      rw [htask] at hsettling
      simp only [Conn.act, htask] at hsettled ⊢
      exact hsettled (by simp) hsettling
  | listing d' shard found =>
      rw [htask] at hsettling
      obtain ⟨rfl, hfound⟩ := hsettling
      have hlive : (run P config events).registry.session session.id = some session →
          (run P config (events ++ [.advance c draw])).registry.session session.id =
            some session := by
        intro hlive
        have hsilent : (run P config events).effect config (.advance c draw) = .silent :=
          (Server.effect_advance hc draw).trans (act_listing_silent htask draw)
        rw [run_snoc]
        exact Server.step_session_eq_some hlive (by simp [hsilent]) (by simp [hsilent])
      simp only [Conn.act, htask]
      split
      · split
        · rename_i hlists
          refine ⟨rfl, ?_⟩
          rcases hfound with hfound | ⟨hthere, hle⟩
          · exact Or.inl (List.mem_append_left _ hfound)
          · rcases Nat.lt_or_eq_of_le hle with hlt | heq
            · exact Or.inr ⟨hlive hthere, hlt⟩
            · refine Or.inl (List.mem_append_right _ ?_)
              exact (Registry.mem_of_lists hinv.keyed hlists).2
                ⟨hthere, by simp [heq], (Session.has_of_peerOf htarget).1⟩
        · rw [htask]
          exact ⟨rfl, hfound.imp_right fun h => ⟨hlive h.1, h.2⟩⟩
      · rename_i hshard
        refine ⟨rfl, Or.inl (hfound.resolve_right ?_)⟩
        rintro ⟨-, hle⟩
        have hlt := (config.shardOf session.id).isLt
        omega
  | departing d' sessions =>
      rw [htask] at hsettling
      obtain ⟨rfl, hmem⟩ := hsettling
      cases sessions with
      | nil =>
          simp only [Conn.act, htask] at hsettled ⊢
          exact hsettled (by simp) (hmem.resolve_left List.not_mem_nil)
      | cons current sessions =>
          rcases hmem with hmem | hdone
          · rcases List.mem_cons.1 hmem with rfl | hrest
            · obtain ⟨peer, hget, hopen⟩ :=
                hgood.noted c draw conn d' session sessions rfl hc htask target htarget
              have hnoted : Noted P config target session (events ++ [.advance c draw]) := by
                refine noted_of_send draw.ulid hget hopen ?_
                rw [Server.effect_advance hc]
                simp only [Conn.act, htask, htarget, Option.bind_some, hget]
              simp only [Conn.act, htask]
              exact ⟨rfl, Or.inl ⟨rfl, hnoted⟩⟩
            · simp only [Conn.act, htask]
              exact ⟨rfl, Or.inr (Or.inl hrest)⟩
          · simp only [Conn.act, htask] at hsettled ⊢
            refine ⟨rfl, Or.inr (Or.inr (hsettled ?_ hdone))⟩
            intro new
            split <;> simp
  | closing d' current sessions =>
      rw [htask] at hsettling
      obtain ⟨rfl, hmem⟩ := hsettling
      simp only [Conn.act, htask] at hsettled ⊢
      refine ⟨rfl, ?_⟩
      rcases hmem with ⟨rfl, hnoted⟩ | hrest | hdone
      · refine Or.inr ⟨?_, hnoted.mono _⟩
        rw [run_snoc, Server.step_session, Server.effect_advance hc]
        simp only [Conn.act, htask, Server.apply, Registry.session_endSession_self]
      · exact Or.inl hrest
      · exact Or.inr (hsettled (by simp) hdone)
  | _ =>
      rw [htask] at hsettling
      exact hsettling.elim

/-- Nobody else's orderly step undoes what a teardown has done about a session. -/
theorem settling_other {events : List Event} {e : Event} {c : ℕ} {conn : Conn}
    {d target : DeviceId} {session : Session} (hc : (run P config events).conns c = some conn)
    (hother : c ≠ (run P config events).owner e ∨ (run P config events).effect config e = .silent)
    (hsettling : Settling P config d target session events conn.task)
    (hgood : Orderly config (run P config events) e) (htarget : session.peerOf d = some target)
    (hfresh : ∀ new, (run P config events).effect config e = .insertSession new →
      new.id ≠ session.id) :
    Settling P config d target session (events ++ [e]) conn.task := by
  have hsettled : Settled P config target session events →
      Settled P config target session (events ++ [e]) := by
    rintro ⟨hended, hnoted⟩
    refine ⟨?_, hnoted.mono e⟩
    rw [run_snoc]
    exact Server.step_session_eq_none hended hfresh
  cases htask : conn.task with
  | listing d' shard found =>
      rw [htask] at hsettling
      obtain ⟨rfl, hfound⟩ := hsettling
      refine ⟨rfl, hfound.imp_right ?_⟩
      rintro ⟨hlive, hle⟩
      refine ⟨?_, hle⟩
      rw [run_snoc]
      refine Server.step_session_eq_some hlive ?_ hfresh
      intro hended
      have howner := hother.resolve_right (by simp [hended])
      have hlt := hgood.ended session.id session hended hlive c conn d' shard found howner hc htask
        (Session.has_of_peerOf htarget).1
      omega
  | departing d' sessions =>
      rw [htask] at hsettling
      exact ⟨hsettling.1, hsettling.2.imp_right hsettled⟩
  | closing d' current sessions =>
      rw [htask] at hsettling
      exact ⟨hsettling.1, hsettling.2.imp (And.imp_right fun h => h.mono e)
        (Or.imp_right hsettled)⟩
  | gone =>
      rw [htask] at hsettling
      exact hsettled hsettling
  | _ =>
      rw [htask] at hsettling
      exact hsettling.elim

/-- Whoever moves, a teardown stands no worse with a session after an orderly step. -/
theorem settling_step {events : List Event} {e : Event} {c : ℕ} {conn : Conn}
    {d target : DeviceId} {session : Session} (hc : (run P config events).conns c = some conn)
    (hsettling : Settling P config d target session events conn.task)
    (hgood : Orderly config (run P config events) e) (htarget : session.peerOf d = some target)
    (hfresh : ∀ new, (run P config events).effect config e = .insertSession new →
      new.id ≠ session.id) :
    ∃ conn', (run P config (events ++ [e])).conns c = some conn' ∧
      Settling P config d target session (events ++ [e]) conn'.task := by
  have hinv : Inv P config events (run P config events) := inv_run events
  obtain ⟨conn', hc'⟩ := Server.exists_step_conns P config hc e
  refine ⟨conn', (congrArg (Server.conns · c) (run_snoc P config events e)).trans hc', ?_⟩
  rcases Server.of_step_conns hc' with ⟨hold, hother⟩ | ⟨_, _, _, -, rfl, -⟩ |
    ⟨conn₀, frame, nowMs, rfl, hc₀, hread, -⟩ | ⟨conn₀, draw, rfl, hc₀, rfl⟩
  · obtain rfl := Option.some.inj (hc.symm.trans hold)
    exact settling_other hc hother hsettling hgood htarget hfresh
  · rw [hinv.fresh _ le_rfl] at hc
    cases hc
  · obtain rfl := Option.some.inj (hc.symm.trans hc₀)
    rw [hread] at hsettling
    exact hsettling.elim
  · obtain rfl := Option.some.inj (hc.symm.trans hc₀)
    exact settling_act hc hsettling hgood htarget

theorem createdIds_append (s : Server) (before after : List Event) :
    createdIds P config s (before ++ after) = createdIds P config s before ++
      createdIds P config (Machine.run (Server.step P config) s before) after := by
  induction before generalizing s with
  | nil => rfl
  | cons e before ih =>
      simp only [List.cons_append, createdIds, run_cons, ih]
      split <;> simp

theorem mem_createdIds_of_effect {new : Session} (h : s.effect config e = .insertSession new) :
    new.id ∈ createdIds P config s [e] := by
  rw [createdIds, h]
  exact List.mem_cons_self

/-- A session that is there has been created. -/
theorem mem_createdIds (events : List Event) {id : String}
    (h : (run P config events).registry.session id ≠ none) :
    id ∈ createdIds P config Server.new events := by
  induction events using List.reverseRec with
  | nil => exact absurd rfl h
  | append_singleton events e ih =>
      rw [createdIds_append, List.mem_append]
      by_cases hnew : ∃ new,
          (run P config events).effect config e = .insertSession new ∧ new.id = id
      · obtain ⟨new, heffect, rfl⟩ := hnew
        exact Or.inr (mem_createdIds_of_effect heffect)
      · refine Or.inl (ih ?_)
        intro hnone
        rw [run_snoc] at h
        refine h (Server.step_session_eq_none hnone ?_)
        intro new heffect hid
        exact hnew ⟨new, heffect, hid⟩

/-- With unique identifiers a new session has a new id. -/
theorem FreshIds.new {events : List Event} {e : Event} {new : Session}
    (h : FreshIds P config (events ++ [e]))
    (heffect : (run P config events).effect config e = .insertSession new) :
    new.id ∉ createdIds P config Server.new events := by
  unfold FreshIds at h
  rw [createdIds_append, List.nodup_append] at h
  intro hmem
  exact h.2.2 new.id hmem new.id (mem_createdIds_of_effect heffect) rfl

/-- **The teardown of a participant** ends its sessions and tells the other participants. -/
theorem settling_run {before after : List Event} {c : ℕ} {draw : Draw} {d target : DeviceId}
    {session : Session}
    (hgood : Along (Server.step P config) (Orderly config) Server.new
      (before ++ .advance c draw :: after))
    (hfresh : FreshIds P config (before ++ .advance c draw :: after))
    (hremove : (run P config before).effect config (.advance c draw) = .removePeer d)
    (hlive : (run P config before).registry.session session.id = some session)
    (htarget : session.peerOf d = some target) :
    ∃ conn, (run P config (before ++ .advance c draw :: after)).conns c = some conn ∧
      Settling P config d target session (before ++ .advance c draw :: after) conn.task := by
  induction after using List.reverseRec with
  | nil =>
      obtain ⟨_, _, conn, heq, hc, hact⟩ := Server.exists_act (by rw [hremove]; simp)
      obtain ⟨rfl, rfl⟩ := Event.advance.inj heq
      rw [hremove] at hact
      have htask := Conn.act_eq_removePeer.1 hact.symm
      refine ⟨(conn.act config (run P config before) c draw).1, ?_, ?_⟩
      · rw [run_snoc, Server.step_advance hc, Server.setConn_conns_self]
      · simp only [Conn.act, htask]
        refine ⟨rfl, Or.inr ⟨?_, Nat.zero_le _⟩⟩
        rw [run_snoc]
        exact Server.step_session_eq_some hlive (by simp [hremove]) (by simp [hremove])
  | append_singleton after e ih =>
      have happend : before ++ .advance c draw :: (after ++ [e]) =
          before ++ .advance c draw :: after ++ [e] := by simp
      rw [happend] at hgood hfresh ⊢
      obtain ⟨hbefore, hlast⟩ := along_append.1 hgood
      have hold : FreshIds P config (before ++ .advance c draw :: after) := by
        unfold FreshIds at hfresh
        rw [createdIds_append] at hfresh
        exact (List.nodup_append.1 hfresh).1
      obtain ⟨conn, hc, hsettling⟩ := ih hbefore hold
      refine settling_step hc hsettling hlast.1 htarget ?_
      intro new heffect hid
      -- The session was created before its teardown, so its id is not drawn again.
      refine hfresh.new heffect ?_
      rw [hid, createdIds_append]
      exact List.mem_append_left _ (mem_createdIds before (by rw [hlive]; simp))

/-- **No session outlives its participants.**  Along an orderly run: every participant of a live
session has a connection that is not gone, so that none is left once all connections are; and a
session that is there when the teardown of a participant's registered connection removes its entry
is over when that teardown is, and the other participant has been sent the notice. -/
theorem sessions_end {events : List Event}
    (hgood : Along (Server.step P config) (Orderly config) Server.new events)
    (hfresh : FreshIds P config events) :
    (∀ session d, (run P config events).registry.session session.id = some session →
      session.Has d → ∃ c conn, (run P config events).conns c = some conn ∧ conn.task ≠ .gone ∧
        Owns P config c d events) ∧
    ((∀ c conn, (run P config events).conns c = some conn → conn.task = .gone) →
      ∀ id, (run P config events).registry.session id = none) ∧
    (∀ before c draw after session d target conn, events = before ++ .advance c draw :: after →
      (run P config before).effect config (.advance c draw) = .removePeer d →
      (run P config before).registry.session session.id = some session →
      session.peerOf d = some target → (run P config events).conns c = some conn →
      conn.task = .gone →
      (run P config events).registry.session session.id = none ∧
        Noted P config target session events) := by
  have hcovered := covered_run hgood
  have hinv : Inv P config events (run P config events) := inv_run events
  refine ⟨?_, ?_, ?_⟩
  · intro session d hlive hhas
    exact (hcovered session d hlive hhas).exists_conn
  · intro hgone id
    cases hsession : (run P config events).registry.session id with
    | none => rfl
    | some session =>
        have hid := hinv.keyed id session hsession
        obtain ⟨c, conn, hc, hne, -⟩ :=
          (hcovered session session.controller (by rw [hid, hsession]) (Or.inl rfl)).exists_conn
        exact absurd (hgone c conn hc) hne
  · rintro before c draw after session d target conn rfl hremove hlive htarget hc htask
    obtain ⟨conn', hc', hsettling⟩ := settling_run hgood hfresh hremove hlive htarget
    obtain rfl := Option.some.inj (hc.symm.trans hc')
    rw [htask] at hsettling
    exact hsettling

/-! ### Checking a run -/

/-- `Orderly`, decided: of the connections only those that exist are looked at. -/
def orderlyCheck (config : Config) (s : Server) (e : Event) : Bool :=
  (match s.effect config e with
    | .insertSession session =>
        (s.registry.get session.controller).isSome && (s.registry.get session.host).isSome
    | .removeSession _ =>
        (List.range s.registry.nextConnId).all fun k =>
          k = s.owner e || match (s.conns k).map Conn.task with
            | some (.listing ..) => false
            | _ => true
    | _ => true) &&
  match e with
  | .advance c _ =>
      match (s.conns c).map Conn.task with
      | some (.departing d (session :: _)) =>
          match session.peerOf d with
          | none => true
          | some target =>
              match s.registry.get target with
              | none => false
              | some peer => (s.queues peer.connId).isOpen
      | _ => true
  | _ => true

theorem orderly_of_check (hfresh : ∀ k, s.registry.nextConnId ≤ k → s.conns k = none)
    (h : orderlyCheck config s e = true) : Orderly config s e := by
  unfold orderlyCheck at h
  rw [Bool.and_eq_true] at h
  obtain ⟨heffect, hnoted⟩ := h
  refine ⟨?_, ?_, ?_⟩
  · intro session hcreate d hhas
    rw [hcreate] at heffect
    simp only [Bool.and_eq_true, Option.isSome_iff_exists] at heffect
    rcases hhas with rfl | rfl
    · exact heffect.1
    · exact heffect.2
  · intro id session hremove _ k conn d shard found hne hk htask _
    rw [hremove] at heffect
    have hlt : k < s.registry.nextConnId := by
      by_contra hle
      rw [hfresh k (Nat.le_of_not_lt hle)] at hk
      cases hk
    have hnot := List.all_eq_true.1 heffect k (List.mem_range.2 hlt)
    simp [hne, hk, htask] at hnot
  · rintro c draw conn d session sessions rfl hc htask target htarget
    simp only [hc, Option.map_some, htask, htarget] at hnoted
    cases hget : s.registry.get target with
    | none =>
        rw [hget] at hnoted
        cases hnoted
    | some peer =>
        rw [hget] at hnoted
        exact ⟨peer, rfl, hnoted⟩

theorem orderly_along {events : List Event}
    (h : Along (Server.step P config) (fun s e => orderlyCheck config s e = true) Server.new
      events) :
    Along (Server.step P config) (Orderly config) Server.new events :=
  h.imp (fun s => ∀ k, s.registry.nextConnId ≤ k → s.conns k = none)
    (fun _ e hs => Server.step_fresh hs e) (fun _ _ hs => orderly_of_check hs) fun _ _ => rfl

namespace Sample

/-- A teardown's listing of the one shard. -/
def list (c : ℕ) (found : List Session) : Event := .advance c ⟨0, "", found⟩

/-- The host's socket closes, up to the removal of its entry. -/
def hostClosed : List Event := dialled ++ [.receive 0 .closed 0, next 0]

/-- The rest of its teardown. -/
def hostTornDown : List Event := [list 0 [session], next 0, next 0, next 0, next 0]

/-- A displaced connection dials a host, and both devices are torn down before the session is
created: the controller's second connection, then the host's. -/
def dialledLate : List Event :=
  hello 0 hostRegistration ++ [next 0, next 0] ++
    hello 1 controllerRegistration ++ [next 1, next 1] ++
    hello 2 controllerRegistration ++ [next 2, next 2, next 2] ++
    [.receive 2 .closed 0, next 2, next 2, next 2, next 2, next 2] ++
    [send 1 none (.connectRequest ⟨host, "", none, .pin, none, []⟩), next 1] ++
    [.receive 0 .closed 0, next 0, next 0, next 0, next 0, next 0] ++
    List.replicate 5 (next 1) ++ [.receive 1 .closed 0, next 1]

end Sample

/-- The host of a session is torn down, and the controller is told. -/
theorem sessions_end_hostTornDown :
    (run Sample.libraries Sample.oneShard
        (Sample.hostClosed ++ Sample.next 0 :: Sample.hostTornDown)).registry.session
        Sample.session.id = none ∧
      Noted Sample.libraries Sample.oneShard Sample.controller Sample.session
        (Sample.hostClosed ++ Sample.next 0 :: Sample.hostTornDown) := by
  have hgood : Along (Server.step Sample.libraries Sample.oneShard) (Orderly Sample.oneShard)
      Server.new (Sample.hostClosed ++ Sample.next 0 :: Sample.hostTornDown) :=
    orderly_along (by decide +kernel)
  have hfresh : FreshIds Sample.libraries Sample.oneShard
      (Sample.hostClosed ++ Sample.next 0 :: Sample.hostTornDown) := by
    unfold FreshIds
    decide +kernel
  have hgone : ((run Sample.libraries Sample.oneShard (Sample.hostClosed ++ Sample.next 0 ::
      Sample.hostTornDown)).conns 0).map Conn.task = some .gone := by decide +kernel
  obtain ⟨conn, hc, htask⟩ := Option.map_eq_some_iff.1 hgone
  exact (sessions_end hgood hfresh).2.2 Sample.hostClosed 0 _ Sample.hostTornDown Sample.session
    Sample.host Sample.controller conn rfl (by decide +kernel) (by decide +kernel)
    (by decide +kernel) hc htask

/-- **A session is leaked.**  Every connection is gone and a session is live. -/
theorem session_leaked :
    (∀ c conn, (run Sample.libraries Sample.oneShard Sample.dialledLate).conns c = some conn →
      conn.task = .gone) ∧
      (run Sample.libraries Sample.oneShard Sample.dialledLate).registry.session
        Sample.session.id = some Sample.session := by
  have hinv : Inv Sample.libraries Sample.oneShard Sample.dialledLate
      (run Sample.libraries Sample.oneShard Sample.dialledLate) := inv_run _
  have hnext : (run Sample.libraries Sample.oneShard Sample.dialledLate).registry.nextConnId
      = 3 := by decide +kernel
  have htasks : ∀ c < 3, ((run Sample.libraries Sample.oneShard Sample.dialledLate).conns c).map
      Conn.task = some .gone := by decide +kernel
  refine ⟨?_, by decide +kernel⟩
  intro c conn hc
  have hlt : c < 3 := by
    by_contra hle
    rw [hinv.fresh c (by omega)] at hc
    cases hc
  have htask := htasks c hlt
  rw [hc, Option.map_some] at htask
  exact Option.some.inj htask

end Signal

end Rda
