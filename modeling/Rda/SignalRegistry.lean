/-
**Device registry, presence and session routing.**

The server's shared state is two concurrent maps.  An operation of the source that touches a map
once is one function here; one that touches a map several times, `unregister`, `sessions_for` and
`forward_in_session`, is taken apart into its single accesses by `Rda.SignalServer`, where other
connections can come in between.

A listing of a concurrent map goes through it shard by shard and is atomic within a shard only; the
order of the entries of a shard is the map's own.

Main definitions:

* `Rda.Signal.Peer`, `Rda.Signal.Session`, `Rda.Signal.Session.peerOf` — what the maps hold;
* `Rda.Signal.Registry` — the maps, with the operations on them;
* `Rda.Signal.Registry.Lists` — what a listing of one shard can find.

Main results:

* `Rda.Signal.Session.peerOf_eq_some` — a session routes between its two participants only;
* `Rda.Signal.Registry.mem_of_lists` — a listing finds exactly the device's sessions.
-/

import Mathlib.Data.List.AList
import Rda.SignalMessages

set_option relaxedAutoImplicit false
set_option autoImplicit false

namespace Rda

namespace Signal

/-! ### Entries -/

/-- A registered, connected device.  The queue it is reached by is its connection's. -/
structure Peer where
  deviceId : DeviceId
  pubkey : Bytes 32
  role : Role
  popRtt : PopRtt
  connId : ℕ
  deriving DecidableEq

/-- A session between a controller and a host. -/
structure Session where
  id : String
  controller : DeviceId
  host : DeviceId
  createdMs : ℕ
  deriving DecidableEq

namespace Session

/-- The other end of the session, none for a device that takes no part in it. -/
def peerOf (s : Session) (sender : DeviceId) : Option DeviceId :=
  if sender = s.controller then some s.host
  else if sender = s.host then some s.controller
  else none

/-- The device takes part in the session. -/
def Has (s : Session) (d : DeviceId) : Prop := s.controller = d ∨ s.host = d

instance (s : Session) (d : DeviceId) : Decidable (s.Has d) :=
  inferInstanceAs (Decidable (_ ∨ _))

/-- **Routing within a session** goes from one participant to the other. -/
theorem peerOf_eq_some {s : Session} {d e : DeviceId} (h : s.peerOf d = some e) :
    s.controller = d ∧ s.host = e ∨ s.host = d ∧ s.controller = e := by
  unfold peerOf at h
  split at h
  · exact Or.inl ⟨(‹d = s.controller›).symm, Option.some.inj h⟩
  · split at h
    · exact Or.inr ⟨(‹d = s.host›).symm, Option.some.inj h⟩
    · cases h

theorem has_of_peerOf {s : Session} {d e : DeviceId} (h : s.peerOf d = some e) :
    s.Has d ∧ s.Has e := by
  rcases peerOf_eq_some h with ⟨hc, hh⟩ | ⟨hh, hc⟩
  · exact ⟨Or.inl hc, Or.inr hh⟩
  · exact ⟨Or.inr hh, Or.inl hc⟩

end Session

/-- Why a send to a peer failed. -/
inductive RouteError
  | notConnected
  | notDialable
  | notAParticipant
  | unknownSession
  | queueClosed
  deriving DecidableEq, Repr

/-- The text of a routing error. -/
def RouteError.text : RouteError → String
  | .notConnected => "target device is not connected"
  | .notDialable => "target device is not dialable"
  | .notAParticipant => "sender is not a participant in that session"
  | .unknownSession => "unknown session"
  | .queueClosed => "peer queue closed"

/-- The code a client is sent for it. -/
def RouteError.code : RouteError → UInt16
  | .notDialable => CAPABILITY_DENIED
  | _ => UNKNOWN_TARGET

/-! ### The registry -/

/-- Shared server state. -/
structure Registry where
  peers : AList fun _ : DeviceId => Peer
  sessions : AList fun _ : String => Session
  nextConnId : ℕ

namespace Registry

/-- A fresh, empty registry. -/
def new : Registry := ⟨∅, ∅, 0⟩

/-- Looks up a connected device. -/
def get (r : Registry) (d : DeviceId) : Option Peer := r.peers.lookup d

/-- Registers a device, replacing any previous connection for the same identity; the displaced peer
is the one that was there. -/
def register (r : Registry) (peer : Peer) : Registry :=
  { r with peers := r.peers.insert peer.deviceId peer }

/-- The second half of a deregistration: whatever is registered for the device is removed. -/
def remove (r : Registry) (d : DeviceId) : Registry := { r with peers := r.peers.erase d }

/-- Resolves a dial target, refusing devices that did not register as dialable. -/
def resolveTarget (r : Registry) (target : DeviceId) : Except RouteError Peer :=
  match r.get target with
  | none => .error .notConnected
  | some peer => if peer.role.isDialable then .ok peer else .error .notDialable

/-- Looks up a session. -/
def session (r : Registry) (id : String) : Option Session := r.sessions.lookup id

/-- Creates a session between two devices. -/
def createSession (r : Registry) (s : Session) : Registry :=
  { r with sessions := r.sessions.insert s.id s }

/-- Ends a session. -/
def endSession (r : Registry) (id : String) : Registry :=
  { r with sessions := r.sessions.erase id }

/-- The sessions a device takes part in whose ids `here` holds of. -/
def sessionsIn (r : Registry) (here : String → Bool) (d : DeviceId) : List Session :=
  (r.sessions.entries.map Sigma.snd).filter fun s => here s.id && decide (s.Has d)

/-- What the listing of one shard can find: the device's sessions there, in the map's order. -/
def Lists (r : Registry) (here : String → Bool) (d : DeviceId) (found : List Session) : Prop :=
  found.Perm (r.sessionsIn here d)

instance (r : Registry) (here : String → Bool) (d : DeviceId) (found : List Session) :
    Decidable (r.Lists here d found) :=
  inferInstanceAs (Decidable (found.Perm _))

/-- Sessions are kept under their own ids. -/
def Keyed (r : Registry) : Prop := ∀ id s, r.session id = some s → s.id = id

variable {r : Registry}

theorem mem_sessionsIn (hr : r.Keyed) {here : String → Bool} {d : DeviceId} {s : Session} :
    s ∈ r.sessionsIn here d ↔ r.session s.id = some s ∧ here s.id = true ∧ s.Has d := by
  have hmem : s ∈ r.sessions.entries.map Sigma.snd ↔ r.session s.id = some s := by
    rw [List.mem_map]
    constructor
    · rintro ⟨⟨id, s'⟩, hentry, rfl⟩
      have hlook : r.session id = some s' := AList.mem_lookup_iff.2 hentry
      have hid : s'.id = id := hr id s' hlook
      rw [show (⟨id, s'⟩ : Sigma fun _ : String => Session).2.id = id from hid]
      exact hlook
    · intro h
      exact ⟨⟨s.id, s⟩, AList.mem_lookup_iff.1 h, rfl⟩
  rw [sessionsIn, List.mem_filter, hmem, Bool.and_eq_true, decide_eq_true_eq]

/-- **A listing** finds exactly the device's sessions of the shard. -/
theorem mem_of_lists (hr : r.Keyed) {here : String → Bool} {d : DeviceId} {found : List Session}
    (h : r.Lists here d found) {s : Session} :
    s ∈ found ↔ r.session s.id = some s ∧ here s.id = true ∧ s.Has d :=
  h.mem_iff.trans (mem_sessionsIn hr)

/-! ### Lookups after an operation -/

@[simp] theorem get_new (d : DeviceId) : new.get d = none := rfl

@[simp] theorem session_new (id : String) : new.session id = none := rfl

@[simp] theorem get_register_self (r : Registry) (peer : Peer) :
    (r.register peer).get peer.deviceId = some peer := AList.lookup_insert _

theorem get_register_of_ne (r : Registry) (peer : Peer) {d : DeviceId} (h : d ≠ peer.deviceId) :
    (r.register peer).get d = r.get d := AList.lookup_insert_ne h

@[simp] theorem get_remove_self (r : Registry) (d : DeviceId) : (r.remove d).get d = none :=
  AList.lookup_erase _ _

theorem get_remove_of_ne (r : Registry) {d e : DeviceId} (h : e ≠ d) :
    (r.remove d).get e = r.get e := AList.lookup_erase_ne h

@[simp] theorem session_register (r : Registry) (peer : Peer) :
    (r.register peer).session = r.session := rfl

@[simp] theorem session_remove (r : Registry) (d : DeviceId) :
    (r.remove d).session = r.session := rfl

@[simp] theorem get_createSession (r : Registry) (s : Session) :
    (r.createSession s).get = r.get := rfl

@[simp] theorem get_endSession (r : Registry) (id : String) : (r.endSession id).get = r.get := rfl

@[simp] theorem session_createSession_self (r : Registry) (s : Session) :
    (r.createSession s).session s.id = some s := AList.lookup_insert _

theorem session_createSession_of_ne (r : Registry) (s : Session) {id : String} (h : id ≠ s.id) :
    (r.createSession s).session id = r.session id := AList.lookup_insert_ne h

@[simp] theorem session_endSession_self (r : Registry) (id : String) :
    (r.endSession id).session id = none := AList.lookup_erase _ _

theorem session_endSession_of_ne (r : Registry) {id id' : String} (h : id' ≠ id) :
    (r.endSession id).session id' = r.session id' := AList.lookup_erase_ne h

end Registry

end Signal

end Rda
