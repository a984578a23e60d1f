/-
**Presence across reconnections.**

A device that reconnects displaces its own old socket, and the old socket's teardown is meant to
leave the new registration alone: it only removes an entry that is still its own.  But it looks at
the entry first and removes it later, and the device can register again in between.

`Signal.lastRegistered` says who should be registered: the last connection that registered the
device, until that connection is torn down.

Main definitions:

* `Rda.Signal.lastRegistered` — the presence a device is promised;
* `Rda.Signal.RemovesOnlyOwn`, `Rda.Signal.StaysRegistered` — the two halves of the promise;
* `Rda.Signal.NotMidRemoval` — nobody registers a device between a teardown's look and its removal.

Main results:

* `Rda.Signal.lastRegistered_eq` — the registry refines the promise along such runs;
* `Rda.Signal.presence_kept_iff` — **presence is kept exactly along such runs**;
* `Rda.Signal.presence_lost` — a reconnection that is removed by the old socket's teardown.
-/

import Rda.SignalRouting

set_option relaxedAutoImplicit false
set_option autoImplicit false

namespace Rda

namespace Signal

open Machine

variable (P : Primitives) (config : Config)

/-! ### What a device is promised -/

/-- The last registered connection of each device that has not itself been torn down. -/
abbrev Presence : Type := DeviceId → Option ℕ

/-- A registration makes its connection the last one; the teardown of that connection, and of no
other, ends its presence. -/
def Presence.watch (s : Server) (e : Event) (present : Presence) : Presence :=
  match s.effect config e with
  | .insertPeer peer => Function.update present peer.deviceId (some peer.connId)
  | .removePeer d =>
      if present d = some (s.owner e) then Function.update present d none else present
  | _ => present

/-- The server, watched. -/
def watchStep (x : Server × Presence) (e : Event) : Server × Presence :=
  (x.1.step P config e, x.2.watch config x.1 e)

/-- Who should be registered after a run. -/
def lastRegistered (events : List Event) : Presence :=
  (Machine.run (watchStep P config) (Server.new, fun _ => none) events).2

/-- Whichever connection moves next, a teardown removes no entry but its own. -/
def RemovesOnlyOwn (s : Server) : Prop :=
  ∀ c draw d peer, s.effect config (.advance c draw) = .removePeer d →
    s.registry.get d = some peer → peer.connId = c

/-- A device whose last registered connection has not been torn down is registered with it. -/
def StaysRegistered (events : List Event) : Prop :=
  ∀ d c, lastRegistered P config events d = some c →
    ∃ peer, (run P config events).registry.get d = some peer ∧ peer.connId = c

/-- No device is registered while a teardown of it stands between its look and its removal. -/
def NotMidRemoval (s : Server) (e : Event) : Prop :=
  ∀ peer, s.effect config e = .insertPeer peer →
    ∀ c conn, s.conns c = some conn → conn.task ≠ .removing peer.deviceId

section

variable {P config} {events : List Event} {s : Server} {e : Event}

/-! ### Watching -/

theorem Presence.watch_insertPeer {peer : Peer} (h : s.effect config e = .insertPeer peer)
    (present : Presence) :
    present.watch config s e = Function.update present peer.deviceId (some peer.connId) := by
  rw [Presence.watch, h]

theorem Presence.watch_removePeer {d : DeviceId} (h : s.effect config e = .removePeer d)
    {present : Presence} (hown : present d = some (s.owner e)) :
    present.watch config s e = Function.update present d none := by
  rw [Presence.watch, h]
  exact if_pos hown

theorem run_watchStep (events : List Event) :
    (Machine.run (watchStep P config) (Server.new, fun _ => none) events).1 =
      run P config events := by
  induction events using List.reverseRec with
  | nil => rfl
  | append_singleton events e ih =>
      rw [run_append, run_snoc, ← ih]
      rfl

theorem lastRegistered_snoc (events : List Event) (e : Event) :
    lastRegistered P config (events ++ [e]) =
      (lastRegistered P config events).watch config (run P config events) e := by
  rw [lastRegistered, run_append, ← run_watchStep]
  rfl

end

/-! ### The invariant -/

/-- Every teardown that has looked still finds its own entry. -/
def Undisturbed (s : Server) : Prop :=
  ∀ c conn d, s.conns c = some conn → conn.task = .removing d →
    ∃ peer, s.registry.get d = some peer ∧ peer.connId = c

variable {P config} {events : List Event} {s : Server} {e : Event}

/-- What another connection's step leaves of a teardown that has looked. -/
theorem Undisturbed.get_step (hs : Undisturbed s) (hgood : NotMidRemoval config s e) {k : ℕ}
    {conn : Conn} {d : DeviceId} (hk : s.conns k = some conn) (htask : conn.task = .removing d)
    (howner : k ≠ s.owner e) :
    ∃ peer, (s.step P config e).registry.get d = some peer ∧ peer.connId = k := by
  obtain ⟨peer, hget, hpeer⟩ := hs k conn d hk htask
  refine ⟨peer, ?_, hpeer⟩
  rw [Server.step_get]
  cases heffect : s.effect config e with
  | insertPeer new =>
      have hne : d ≠ new.deviceId := by
        rintro rfl
        exact hgood new heffect k conn hk htask
      rw [Server.apply, Registry.get_register_of_ne _ _ hne, hget]
  | removePeer d' =>
      have hne : d ≠ d' := by
        rintro rfl
        have hne : s.effect config e ≠ .silent := by simp [heffect]
        obtain ⟨c, draw, conn', rfl, hc, hact⟩ := Server.exists_act hne
        rw [heffect] at hact
        obtain ⟨peer', hget', hpeer'⟩ := hs c conn' d hc (Conn.act_eq_removePeer.1 hact.symm)
        rw [hget] at hget'
        obtain rfl := Option.some.inj hget'
        exact howner (hpeer.symm.trans hpeer')
      rw [Server.apply, Registry.get_remove_of_ne _ hne, hget]
  | silent | insertSession | removeSession | send => exact hget

/-- **Steps that leave standing teardowns alone** keep it so that each of them finds its own
entry. -/
theorem Undisturbed.step (hs : Undisturbed s) (hgood : NotMidRemoval config s e) :
    Undisturbed (s.step P config e) := by
  intro k conn' d hk htask
  rcases Server.of_step_conns hk with ⟨hold, howner | hsilent⟩ |
    ⟨nonce, nowMs, ulid, rfl, rfl, rfl⟩ | ⟨conn, frame, nowMs, rfl, hc, hread, rfl⟩ |
    ⟨conn, draw, rfl, hc, rfl⟩
  · exact hs.get_step hgood hold htask howner
  · rw [Server.step_get, hsilent]
    exact hs k conn' d hold htask
  · cases htask
  · -- No frame starts a removal.
    have hstarted : (conn.receive P k frame nowMs).task.Started :=
      Conn.receive_started (by rw [hread]; trivial) frame nowMs
    rw [htask] at hstarted
    exact hstarted.elim
  · obtain ⟨hlooking, peer, hget, hpeer⟩ := Conn.act_task_eq_removing htask
    refine ⟨peer, ?_, hpeer⟩
    rw [Server.step_advance hc, Server.setConn_registry]
    simp only [Conn.act, hlooking, hget, Server.apply]

theorem undisturbed_new : Undisturbed Server.new := fun _ _ _ h => by cases h

/-- An undisturbed teardown removes its own entry. -/
theorem Undisturbed.removesOnlyOwn (hs : Undisturbed s) : RemovesOnlyOwn config s := by
  intro c draw d peer heffect hget
  obtain ⟨c', draw', conn, he, hc, hact⟩ := Server.exists_act (by rw [heffect]; simp)
  obtain ⟨rfl, rfl⟩ := Event.advance.inj he
  rw [heffect] at hact
  obtain ⟨peer', hget', hpeer'⟩ := hs c conn d hc (Conn.act_eq_removePeer.1 hact.symm)
  rw [hget] at hget'
  exact Option.some.inj hget' ▸ hpeer'

/-- **The registry refines the promise** along a run in which no standing teardown is disturbed. -/
theorem lastRegistered_eq
    (hgood : Along (Server.step P config) (NotMidRemoval config) Server.new events)
    (d : DeviceId) :
    ((run P config events).registry.get d).map Peer.connId = lastRegistered P config events d := by
  induction events using List.reverseRec generalizing d with
  | nil => rfl
  | append_singleton events e ih =>
      obtain ⟨hbefore, hlast⟩ := along_append.1 hgood
      have hund : Undisturbed (run P config events) :=
        run_invariant_along Undisturbed (fun _ _ hs hgood => hs.step hgood) undisturbed_new hbefore
      rw [lastRegistered_snoc, run_snoc, Server.step_get]
      cases heffect : (run P config events).effect config e with
      | insertPeer peer =>
          rw [Presence.watch_insertPeer heffect, Server.apply]
          by_cases hd : d = peer.deviceId
          · subst hd
            rw [Registry.get_register_self, Function.update_self]
            rfl
          · rw [Registry.get_register_of_ne _ _ hd, Function.update_of_ne hd]
            exact ih hbefore d
      | removePeer d' =>
          have hne : (run P config events).effect config e ≠ .silent := by simp [heffect]
          obtain ⟨c, draw, conn, rfl, hc, hact⟩ := Server.exists_act hne
          rw [heffect] at hact
          obtain ⟨peer, hget, hpeer⟩ := hund c conn d' hc (Conn.act_eq_removePeer.1 hact.symm)
          have hown : lastRegistered P config events d' = some c := by
            rw [← ih hbefore d', hget, Option.map_some, hpeer]
          rw [Presence.watch_removePeer heffect hown, Server.apply]
          by_cases hd : d = d'
          · subst hd
            rw [Registry.get_remove_self, Function.update_self]
            rfl
          · rw [Registry.get_remove_of_ne _ hd, Function.update_of_ne hd]
            exact ih hbefore d
      | silent | insertSession | removeSession | send =>
          rw [Presence.watch, heffect]
          exact ih hbefore d

/-- A registration in the middle of a removal is removed by it. -/
theorem not_removesOnlyOwn (hinv : Inv P config events (run P config events))
    (hbad : ¬ NotMidRemoval config (run P config events) e) :
    ¬ RemovesOnlyOwn config ((run P config events).step P config e) := by
  intro hremoves
  simp only [NotMidRemoval, not_forall, not_not] at hbad
  obtain ⟨peer, heffect, k, conn, hk, hremoving⟩ := hbad
  have hne : (run P config events).effect config e ≠ .silent := by simp [heffect]
  obtain ⟨c, draw, conn', rfl, hc, hact⟩ := Server.exists_act hne
  rw [heffect] at hact
  have hinserting : conn'.task = .inserting peer := Conn.act_eq_insertPeer.1 hact.symm
  have hown : peer.connId = c := by
    have htask := (hinv.conns c conn' hc).task
    rw [hinserting] at htask
    exact htask.2
  -- The connection that removes is not the one that registers.
  have hck : k ≠ c := by
    rintro rfl
    rw [hc] at hk
    obtain rfl := Option.some.inj hk
    rw [hremoving] at hinserting
    cases hinserting
  have hk' : ((run P config events).step P config (.advance c draw)).conns k = some conn :=
    (Server.step_conns_of_ne hck).trans hk
  have hget : ((run P config events).step P config (.advance c draw)).registry.get peer.deviceId =
      some peer := by
    rw [Server.step_get, heffect, Server.apply, Registry.get_register_self]
  have hremove : ((run P config events).step P config (.advance c draw)).effect config
      (.advance k draw) = .removePeer peer.deviceId := by
    rw [Server.effect_advance hk', Conn.act_eq_removePeer.2 hremoving]
  exact hck (hremoves k draw peer.deviceId peer hremove hget ▸ hown)

/-- **Reconnection keeps presence** exactly along the runs in which no device registers while a
teardown of it stands between its look and its removal: then no teardown removes another
connection's entry, and a device stays registered with its last registered connection. -/
theorem presence_kept_iff (events : List Event) :
    (∀ js, js <+: events →
      RemovesOnlyOwn config (run P config js) ∧ StaysRegistered P config js) ↔
      Along (Server.step P config) (NotMidRemoval config) Server.new events := by
  have hinv : ∀ js, Inv P config js (run P config js) := inv_run
  constructor
  · intro h
    refine (forall_prefix_iff_along (fun s => (∃ js, run P config js = s) ∧ Undisturbed s)
      (RemovesOnlyOwn config) (fun s hs => hs.2.removesOnlyOwn) ?_ ?_
      ⟨⟨[], rfl⟩, undisturbed_new⟩ events).1 fun js hjs => (h js hjs).1
    · rintro _ e ⟨⟨js, rfl⟩, hs⟩ hgood
      exact ⟨⟨js ++ [e], run_snoc P config js e⟩, hs.step hgood⟩
    · rintro _ e ⟨⟨js, rfl⟩, -⟩ hbad
      exact not_removesOnlyOwn (hinv js) hbad
  · rintro h js ⟨ks, rfl⟩
    have hjs := (along_append.1 h).1
    refine ⟨(run_invariant_along Undisturbed (fun _ _ hs hgood => hs.step hgood) undisturbed_new
      hjs).removesOnlyOwn, ?_⟩
    intro d c hlast
    rw [← lastRegistered_eq hjs d] at hlast
    exact Option.map_eq_some_iff.1 hlast

/-! ### A small server -/

namespace Sample

/-- One shard, and credentials for no relay. -/
def oneShard : Config where
  heartbeatIntervalS := 30
  sessionTtlS := 86400
  rateLimit := 60
  rateWindowMs := 10000
  shards := 1
  shardOf _ := 0
  relayCredentials _ _ _ _ := ⟨[], 3600, []⟩

def nonce : Bytes NONCE_LEN := List.Vector.replicate NONCE_LEN 7

def hostKey : Bytes 32 := List.Vector.replicate 32 1

def controllerKey : Bytes 32 := List.Vector.replicate 32 2

/-- The device of a signing key. -/
def device (key : Bytes 32) : DeviceId :=
  deviceIdFromPubkey .sample (Primitives.sample.verifyingKey key).1

def host : DeviceId := device hostKey

def controller : DeviceId := device controllerKey

/-- The bytes a registration carries in base64; a name stands for the encoded text. -/
def decode (s : String) : Option (List UInt8) :=
  if s = "host key" then some (Primitives.sample.verifyingKey hostKey).1.toList
  else if s = "controller key" then some (Primitives.sample.verifyingKey controllerKey).1.toList
  else if s = "host signature" then
    some (Primitives.sample.sign hostKey (Register.signingInput nonce.toList host .host)).toList
  else if s = "controller signature" then
    some (Primitives.sample.sign controllerKey
      (Register.signingInput nonce.toList controller .controller)).toList
  else none

/-- The libraries, with short texts for what is encoded. -/
def libraries : Primitives := { Primitives.sample with decodeB64 := decode }

def hostRegistration : Register := ⟨host, "host key", "host signature", .host, []⟩

def controllerRegistration : Register :=
  ⟨controller, "controller key", "controller signature", .controller, []⟩

/-- The next step of a connection's task, which is not a listing. -/
def next (c : ℕ) : Event := .advance c ⟨0, "", []⟩

/-- A client's message. -/
def send (c : ℕ) (sid : Option String) (msg : Message) : Event :=
  .receive c (.text (.ok ⟨"", sid, msg⟩)) 0

/-- A socket connects and sends its registration. -/
def hello (c : ℕ) (reg : Register) : List Event :=
  [.connect nonce 0 "", send c none (.register reg)]

/-- A device reconnects.  Its old socket, the connection `0`, closes and looks at the registry just
before its new one is entered. -/
def reconnect : List Event :=
  hello 0 hostRegistration ++ [next 0, next 0] ++ hello 1 hostRegistration ++
    [.receive 0 .closed 0, next 0, next 1]

end Sample

/-- **A reconnection is lost.**  The old socket's teardown is about to remove the entry of the new
connection; once it has, the device is not registered, though its last registered connection is
up. -/
theorem presence_lost :
    ¬ RemovesOnlyOwn Sample.oneShard (run Sample.libraries Sample.oneShard Sample.reconnect) ∧
      ¬ StaysRegistered Sample.libraries Sample.oneShard (Sample.reconnect ++ [Sample.next 0]) := by
  have hremove : (run Sample.libraries Sample.oneShard Sample.reconnect).effect Sample.oneShard
      (Sample.next 0) = .removePeer Sample.host := by decide +kernel
  have hentry : ((run Sample.libraries Sample.oneShard Sample.reconnect).registry.get
      Sample.host).map Peer.connId = some 1 := by decide +kernel
  have hlast : lastRegistered Sample.libraries Sample.oneShard (Sample.reconnect ++ [Sample.next 0])
      Sample.host = some 1 := by decide +kernel
  have hgone : (run Sample.libraries Sample.oneShard
      (Sample.reconnect ++ [Sample.next 0])).registry.get Sample.host = none := by decide +kernel
  constructor
  · intro h
    obtain ⟨peer, hget, hpeer⟩ := Option.map_eq_some_iff.1 hentry
    have hown := h 0 _ _ peer hremove hget
    omega
  · intro h
    obtain ⟨peer, hget, -⟩ := h _ _ hlast
    rw [hgone] at hget
    cases hget

end Signal

end Rda
