/-
**The host's authorization state machine.**

A host session goes from a connection request, through the local user's consent and one of two
authentication paths, to a grant; every check that gates input injection is on the way.  This
module embeds the six operations with their error exits and says, once, what a call can do to a
session (`Rda.HostSession.Move`, `Rda.HostSession.step_move`); the modules after it derive what
holds over whole runs.

The random draws are arguments of the call that makes them: the PIN of `applyConsent` and the
SPAKE2 scalar of `beginPinAuth`.  A call returns the audit records it writes, oldest first.

Main definitions:

* `Rda.SessionState`, `Rda.SessionError`, `Rda.HostSession`;
* `Rda.HostSession.applyConsent`, `beginPinAuth`, `completePinAuth`, `authenticateWithToken`,
  `restrict`, `close` — the operations;
* `Rda.HostSession.Call`, `Rda.HostSession.step` — an operation with its arguments, as one step;
* `Rda.HostSession.Move` — the moves a step can make.

Main results:

* `Rda.HostSession.completePinAuth_cases`, `Rda.HostSession.authenticateWithToken_cases` — what
  the two operations that issue a grant have checked when they do;
* `Rda.HostSession.step_move` — every step is a move.
-/

import Rda.Grant
import Rda.Pake
import Rda.Token

set_option relaxedAutoImplicit false
set_option autoImplicit false

namespace Rda

/-! ### The session -/

/-- Where a session has got to. -/
inductive SessionState
  | awaitingConsent
  | authenticating
  | awaitingConfirmation
  | established
  | closed (reason : String)
  | failed (reason : String)
  deriving DecidableEq, Repr

/-- What the local user decided about an incoming connection. -/
inductive ConsentDecision
  | allow (caps : SessionCaps)
  | deny
  deriving DecidableEq

/-- Why a session failed. -/
inductive SessionError
  | consentDenied
  | consentTimeout
  | pin (e : PakeError)
  | token (e : TokenError)
  | binding (e : BindingError)
  | keyChanged
  | wrongState
  deriving DecidableEq, Repr

/-- How long the local user has to respond to a connection request. -/
def CONSENT_TIMEOUT_MS : ℕ := 30000

variable {P : Primitives}

/-- Everything a peer presents to prove who it is. -/
structure PeerCredentials (P : Primitives) where
  identity : PublicIdentity P
  binding : BindingVerifier
  proof : BindingProof P

/-- A host-side session, from connection request to teardown. -/
structure HostSession (P : Primitives) where
  sessionId : String
  peerId : DeviceId
  peerIdentity : Option (PublicIdentity P)
  state : SessionState
  requestedCaps : SessionCaps
  consentedCaps : Option SessionCaps
  grant : Option SessionGrant
  pin : Option PinVerifier
  pendingKey : Option (Bytes 32)
  startedAtMs : ℕ
  sas : Option (List String)

/-- What the host sends back to complete a PIN exchange. -/
structure PinAuthResponse where
  pakeMessage : List UInt8
  confirmation : Bytes 32

/-- What a call leaves behind: the session, the audit records it wrote and its result. -/
structure Outcome (P : Primitives) (α : Type) where
  session : HostSession P
  audit : List (ℕ × AuditEvent)
  result : Except SessionError α

namespace HostSession

/-- Begins a session in response to a connection request. -/
def new (P : Primitives) (sessionId : String) (peerId : DeviceId) (requestedCaps : SessionCaps)
    (nowMs : ℕ) : HostSession P where
  sessionId := sessionId
  peerId := peerId
  peerIdentity := none
  state := .awaitingConsent
  requestedCaps := requestedCaps
  consentedCaps := none
  grant := none
  pin := none
  pendingKey := none
  startedAtMs := nowMs
  sas := none

/-- The session as it was, with nothing written. -/
def refuse {α : Type} (s : HostSession P) (e : SessionError) : Outcome P α := ⟨s, [], .error e⟩

/-- The session in a terminal failure. -/
def fail (s : HostSession P) (reason : String) : HostSession P :=
  { s with state := .failed reason }

/-- The session with a grant for the peer it was dialled by. -/
def establish (s : HostSession P) (peer : PeerCredentials P) (caps : SessionCaps)
    (method : AuthMethod) (nowMs : ℕ) : HostSession P :=
  { s with
    peerIdentity := some peer.identity
    sas := some (shortAuthenticationString P (peer.binding.transcriptHash P) s.sessionId)
    grant := some (SessionGrant.issue s.sessionId s.peerId caps method nowMs)
    state := .established }

/-- The record of a session that was admitted. -/
def started (s : HostSession P) (caps : SessionCaps) (method : AuthMethod) (nowMs : ℕ) :
    List (ℕ × AuditEvent) :=
  [(nowMs, .sessionStarted s.sessionId s.peerId caps method)]

/-! ### The operations -/

/-- The session once the local user has allowed it, with the PIN that was drawn. -/
def allowed (s : HostSession P) (caps : SessionCaps) (pinValue : Fin 1000000) (nowMs : ℕ) :
    HostSession P :=
  { s with
    consentedCaps := some (s.requestedCaps.clampTo caps)
    pin := some ⟨s.sessionId, SessionPin.generate pinValue nowMs⟩
    state := .authenticating }

@[simp] theorem allowed_state (s : HostSession P) (caps : SessionCaps) (pinValue : Fin 1000000)
    (nowMs : ℕ) : (s.allowed caps pinValue nowMs).state = .authenticating := rfl

@[simp] theorem allowed_pin (s : HostSession P) (caps : SessionCaps) (pinValue : Fin 1000000)
    (nowMs : ℕ) :
    (s.allowed caps pinValue nowMs).pin
      = some ⟨s.sessionId, SessionPin.generate pinValue nowMs⟩ := rfl

/-- Records the local user's decision; a PIN is drawn when it is to allow. -/
def applyConsent (s : HostSession P) (decision : ConsentDecision) (pinValue : Fin 1000000)
    (nowMs : ℕ) : Outcome P Unit :=
  if s.state ≠ .awaitingConsent then s.refuse .wrongState
  else if nowMs - s.startedAtMs > CONSENT_TIMEOUT_MS then
    ⟨s.fail "consent timed out", [], .error .consentTimeout⟩
  else
    match decision with
    | .deny =>
        ⟨s.fail "consent denied", [(nowMs, .injectionRefused s.sessionId "consent denied")],
          .error .consentDenied⟩
    | .allow caps => ⟨s.allowed caps pinValue nowMs, [], .ok ()⟩

/-- Runs the PAKE round and returns the host's SPAKE2 message and key confirmation. -/
def beginPinAuth (s : HostSession P) (scalar : ℕ) (peerPakeMessage : List UInt8) (nowMs : ℕ) :
    Outcome P PinAuthResponse :=
  if s.state ≠ .authenticating then s.refuse .wrongState
  else
    match s.pin with
    | none => s.refuse .wrongState
    | some verifier =>
        match verifier.respond P scalar peerPakeMessage nowMs with
        | (.error e, verifier') =>
            ⟨{ s with pin := some verifier' }.fail "PIN authentication failed", [],
              .error (.pin e)⟩
        | (.ok (ours, key), verifier') =>
            ⟨{ s with
                pin := some verifier'
                pendingKey := some key
                state := .awaitingConfirmation },
              [], .ok ⟨ours, confirm P key "host" s.sessionId⟩⟩

/-- The checks between the PAKE round and the grant, in this order: key confirmation, address book
and binding.  A refusal gives the reason the session fails with and the error of the call; the
address book comes back as the checks leave it. -/
def pinChecks (s : HostSession P) (key peerConfirmation : Bytes 32) (peer : PeerCredentials P)
    (book : AddressBook) : Except (String × SessionError) Unit × AddressBook :=
  if !confirmMatches (confirm P key "controller" s.sessionId) peerConfirmation then
    (.error ("PIN confirmation failed", .pin .failed), book)
  else
    let (trust, book') := book.checkAndPin peer.identity
    if trust = .keyChanged then (.error ("peer identity key changed", .keyChanged), book')
    else
      match peer.binding.verify peer.proof (some s.peerId) with
      | .error e => (.error ("fingerprint binding failed", .binding e), book')
      | .ok () => (.ok (), book')

/-- The session once those checks have passed: the PIN is spent, the pending key is gone, and the
peer is admitted. -/
def pinAdmitted (s : HostSession P) (peer : PeerCredentials P) (caps : SessionCaps) (nowMs : ℕ) :
    HostSession P :=
  { s with pendingKey := none, pin := s.pin.map PinVerifier.consume }.establish peer caps
    .sessionPin nowMs

/-- Verifies the peer's key confirmation, address book entry and fingerprint binding, then issues
the grant.  The pending key is taken before anything is checked. -/
def completePinAuth (s : HostSession P) (peerConfirmation : Bytes 32) (peer : PeerCredentials P)
    (book : AddressBook) (nowMs : ℕ) : Outcome P Unit × AddressBook :=
  if s.state ≠ .awaitingConfirmation then (s.refuse .wrongState, book)
  else
    match s.consentedCaps, s.pendingKey with
    | some caps, some key =>
        match s.pinChecks key peerConfirmation peer book with
        | (.error (reason, e), book') =>
            (⟨{ s with pendingKey := none }.fail reason, [], .error e⟩, book')
        | (.ok (), book') =>
            (⟨s.pinAdmitted peer caps nowMs, s.started caps .sessionPin nowMs, .ok ()⟩, book')
    | _, _ => (s.refuse .wrongState, book)

/-- Authenticates an unattended session from a signed token. -/
def authenticateWithToken (s : HostSession P) (encodedToken : String) (hostIdentity : Identity)
    (tokens : TokenStore) (peer : PeerCredentials P) (nowMs : ℕ) : Outcome P Unit :=
  if s.state ≠ .awaitingConsent ∧ s.state ≠ .authenticating then s.refuse .wrongState
  else
    match tokens.verify encodedToken hostIdentity peer.identity (nowMs / 1000) with
    | .error e => ⟨s.fail "token rejected", [], .error (.token e)⟩
    | .ok token =>
        match peer.binding.verify peer.proof (some s.peerId) with
        | .error e => ⟨s.fail "fingerprint binding failed", [], .error (.binding e)⟩
        | .ok () =>
            let caps := s.requestedCaps.clampTo token.claims.sessionCaps
            ⟨s.establish peer caps .unattendedToken nowMs, s.started caps .unattendedToken nowMs,
              .ok ()⟩

/-- Narrows the session's capabilities mid-flight. -/
def restrict (s : HostSession P) (limit : SessionCaps) (nowMs : ℕ) : Outcome P Unit :=
  match s.grant with
  | some grant =>
      let narrowed := grant.restrict limit
      ⟨{ s with grant := some narrowed },
        [(nowMs, .capabilitiesChanged s.sessionId narrowed.caps)], .ok ()⟩
  | none => ⟨s, [], .ok ()⟩

/-- Ends the session. -/
def close (s : HostSession P) (reason : String) (nowMs : ℕ) : Outcome P Unit :=
  match s.state with
  | .closed _ => ⟨s, [], .ok ()⟩
  | _ =>
      ⟨{ s with grant := none, pendingKey := none, state := .closed reason },
        [(nowMs, .sessionEnded s.sessionId (nowMs - s.startedAtMs))], .ok ()⟩

/-! ### What the operations that issue a grant have checked -/

/-- The checks of the PIN path, all passed: the state, the consent, the key of the PAKE round and
its confirmation, the address book, and the binding. -/
structure PinAccepts (s : HostSession P) (confirmation : Bytes 32) (peer : PeerCredentials P)
    (book : AddressBook) (caps : SessionCaps) (key : Bytes 32) : Prop where
  state : s.state = .awaitingConfirmation
  consented : s.consentedCaps = some caps
  pending : s.pendingKey = some key
  confirmed : confirm P key "controller" s.sessionId = confirmation
  trusted : book.check peer.identity ≠ .keyChanged
  bound : peer.binding.verify peer.proof (some s.peerId) = .ok ()

theorem pinChecks_eq_ok_iff {s : HostSession P} {key confirmation : Bytes 32}
    {peer : PeerCredentials P} {book : AddressBook} :
    (s.pinChecks key confirmation peer book).1 = .ok () ↔
      confirm P key "controller" s.sessionId = confirmation ∧
        book.check peer.identity ≠ .keyChanged ∧
        peer.binding.verify peer.proof (some s.peerId) = .ok () := by
  rw [← AddressBook.checkAndPin_trust, ← confirmMatches_iff]
  unfold pinChecks
  cases confirmMatches (confirm P key "controller" s.sessionId) confirmation with
  | false => simp
  | true =>
      by_cases htrust : (book.checkAndPin peer.identity).1 = .keyChanged
      · simp [htrust]
      · cases hb : peer.binding.verify peer.proof (some s.peerId) with
        | error e => simp [htrust]
        | ok u => simp [htrust]

/-- No check answers that the state was wrong. -/
theorem pinChecks_ne_wrongState {s : HostSession P} {key confirmation : Bytes 32}
    {peer : PeerCredentials P} {book : AddressBook} {reason : String} {e : SessionError}
    (h : (s.pinChecks key confirmation peer book).1 = .error (reason, e)) : e ≠ .wrongState := by
  unfold pinChecks at h
  rintro rfl
  cases hm : confirmMatches (confirm P key "controller" s.sessionId) confirmation with
  | false => simp [hm] at h
  | true =>
      by_cases htrust : (book.checkAndPin peer.identity).1 = .keyChanged
      · simp [hm, htrust] at h
      · cases hb : peer.binding.verify peer.proof (some s.peerId) with
        | error e => simp [hm, htrust, hb] at h
        | ok u => simp [hm, htrust, hb] at h

theorem completePinAuth_of_accepts {s : HostSession P} {confirmation : Bytes 32}
    {peer : PeerCredentials P} {book : AddressBook} {caps : SessionCaps} {key : Bytes 32}
    (h : s.PinAccepts confirmation peer book caps key) (nowMs : ℕ) :
    (s.completePinAuth confirmation peer book nowMs).1 =
      ⟨s.pinAdmitted peer caps nowMs, s.started caps .sessionPin nowMs, .ok ()⟩ := by
  have hchecks := pinChecks_eq_ok_iff.2 ⟨h.confirmed, h.trusted, h.bound⟩
  rw [completePinAuth, if_neg (not_not.2 h.state), h.consented, h.pending]
  rcases hc : s.pinChecks key confirmation peer book with ⟨r, book'⟩
  rw [hc] at hchecks
  cases hchecks
  simp only [hc]

/-- `completePinAuth` admits the peer after all its checks, or fails for good, or was called in
the wrong state and changes nothing. -/
theorem completePinAuth_cases (s : HostSession P) (confirmation : Bytes 32)
    (peer : PeerCredentials P) (book : AddressBook) (nowMs : ℕ) :
    (∃ caps key, s.PinAccepts confirmation peer book caps key) ∨
      (∃ reason e, s.state = .awaitingConfirmation ∧ e ≠ .wrongState ∧
        (s.completePinAuth confirmation peer book nowMs).1 =
          ⟨{ s with pendingKey := none }.fail reason, [], .error e⟩) ∨
      s.completePinAuth confirmation peer book nowMs = (s.refuse .wrongState, book) := by
  unfold completePinAuth
  by_cases hstate : s.state = .awaitingConfirmation
  · rw [if_neg (not_not.2 hstate)]
    cases hcaps : s.consentedCaps with
    | none => exact .inr (.inr rfl)
    | some caps =>
        cases hkey : s.pendingKey with
        | none => exact .inr (.inr rfl)
        | some key =>
            rcases hc : s.pinChecks key confirmation peer book with ⟨⟨reason, e⟩ | u, book'⟩
            · refine .inr (.inl ⟨reason, e, hstate, ?_, by simp [hc]⟩)
              exact pinChecks_ne_wrongState (congrArg Prod.fst hc)
            · obtain ⟨hconf, htrust, hbound⟩ := pinChecks_eq_ok_iff.1 (congrArg Prod.fst hc)
              exact .inl ⟨caps, key, hstate, hcaps, hkey, hconf, htrust, hbound⟩
  · rw [if_pos hstate]
    exact .inr (.inr rfl)

/-- The checks of the token path, all passed. -/
structure TokenAccepts (s : HostSession P) (encodedToken : String) (hostIdentity : Identity)
    (tokens : TokenStore) (peer : PeerCredentials P) (nowMs : ℕ) (token : AccessToken) : Prop where
  state : s.state = .awaitingConsent ∨ s.state = .authenticating
  verified : tokens.verify encodedToken hostIdentity peer.identity (nowMs / 1000) = .ok token
  bound : peer.binding.verify peer.proof (some s.peerId) = .ok ()

/-- The capabilities a token admits this session with. -/
def tokenCaps (s : HostSession P) (token : AccessToken) : SessionCaps :=
  s.requestedCaps.clampTo token.claims.sessionCaps

theorem authenticateWithToken_of_accepts {s : HostSession P} {encodedToken : String}
    {hostIdentity : Identity} {tokens : TokenStore} {peer : PeerCredentials P} {nowMs : ℕ}
    {token : AccessToken} (h : s.TokenAccepts encodedToken hostIdentity tokens peer nowMs token) :
    s.authenticateWithToken encodedToken hostIdentity tokens peer nowMs =
      ⟨s.establish peer (s.tokenCaps token) .unattendedToken nowMs,
        s.started (s.tokenCaps token) .unattendedToken nowMs, .ok ()⟩ := by
  have hstate : ¬ (s.state ≠ .awaitingConsent ∧ s.state ≠ .authenticating) := by
    rcases h.state with hs | hs <;> simp [hs]
  simp only [authenticateWithToken, hstate, if_false, h.verified, h.bound]
  rfl

/-- `authenticateWithToken` admits the peer after all its checks, or fails for good, or was called
in the wrong state and changes nothing. -/
theorem authenticateWithToken_cases (s : HostSession P) (encodedToken : String)
    (hostIdentity : Identity) (tokens : TokenStore) (peer : PeerCredentials P) (nowMs : ℕ) :
    (∃ token, s.TokenAccepts encodedToken hostIdentity tokens peer nowMs token) ∨
      (∃ reason e, (s.state = .awaitingConsent ∨ s.state = .authenticating) ∧ e ≠ .wrongState ∧
        s.authenticateWithToken encodedToken hostIdentity tokens peer nowMs =
          ⟨s.fail reason, [], .error e⟩) ∨
      s.authenticateWithToken encodedToken hostIdentity tokens peer nowMs
        = s.refuse .wrongState := by
  unfold authenticateWithToken
  by_cases hstate : s.state ≠ .awaitingConsent ∧ s.state ≠ .authenticating
  · exact .inr (.inr (if_pos hstate))
  · have hlive : s.state = .awaitingConsent ∨ s.state = .authenticating := by tauto
    rw [if_neg hstate]
    cases hv : tokens.verify encodedToken hostIdentity peer.identity (nowMs / 1000) with
    | error e => exact .inr (.inl ⟨_, .token e, hlive, by simp, rfl⟩)
    | ok token =>
        cases hb : peer.binding.verify peer.proof (some s.peerId) with
        | error e => exact .inr (.inl ⟨_, .binding e, hlive, by simp, rfl⟩)
        | ok u => exact .inl ⟨token, hlive, hv, hb⟩

/-! ### Calls and moves -/

/-- One call of an operation, with all its arguments. -/
inductive Call (P : Primitives)
  | applyConsent (decision : ConsentDecision) (pinValue : Fin 1000000) (nowMs : ℕ)
  | beginPinAuth (scalar : ℕ) (peerPakeMessage : List UInt8) (nowMs : ℕ)
  | completePinAuth (confirmation : Bytes 32) (peer : PeerCredentials P) (book : AddressBook)
      (nowMs : ℕ)
  | authenticateWithToken (encodedToken : String) (hostIdentity : Identity) (tokens : TokenStore)
      (peer : PeerCredentials P) (nowMs : ℕ)
  | restrict (limit : SessionCaps) (nowMs : ℕ)
  | close (reason : String) (nowMs : ℕ)

/-- Makes a call.  What a call returns besides its success goes to the peer, not to the session,
and is dropped. -/
def step (s : HostSession P) : Call P → Outcome P Unit
  | .applyConsent decision pinValue nowMs => s.applyConsent decision pinValue nowMs
  | .beginPinAuth scalar message nowMs =>
      let o := s.beginPinAuth scalar message nowMs
      ⟨o.session, o.audit, o.result.map fun _ => ()⟩
  | .completePinAuth confirmation peer book nowMs =>
      (s.completePinAuth confirmation peer book nowMs).1
  | .authenticateWithToken encoded host tokens peer nowMs =>
      s.authenticateWithToken encoded host tokens peer nowMs
  | .restrict limit nowMs => s.restrict limit nowMs
  | .close reason nowMs => s.close reason nowMs

/-- Neither established nor over: the states authentication is still going on in. -/
def Live (s : HostSession P) : Prop :=
  s.state = .awaitingConsent ∨ s.state = .authenticating ∨ s.state = .awaitingConfirmation

/-- The moves a step can make, each with the audit records it writes. -/
inductive Move : HostSession P → HostSession P → List (ℕ × AuditEvent) → Prop
  /-- Nothing changes. -/
  | stay (s) : Move s s []
  /-- The session fails; a key that was pending is gone. -/
  | fail (s) (reason : String) (pin : Option PinVerifier) (key : Option (Bytes 32))
      (written : List (ℕ × AuditEvent)) (live : s.Live)
      (forgets : key = none ∨ key = s.pendingKey ∧ s.state ≠ .awaitingConfirmation)
      (unended : ∀ e ∈ written, e.2.isSessionEnded = false) :
      Move s ({ s with pin := pin, pendingKey := key }.fail reason) written
  /-- The local user allows the session. -/
  | consent (s) (caps : SessionCaps) (pin : Option PinVerifier)
      (state : s.state = .awaitingConsent) :
      Move s { s with consentedCaps := some (s.requestedCaps ⊓ caps), pin := pin,
                      state := .authenticating } []
  /-- The PAKE round leaves a key to be confirmed. -/
  | pake (s) (pin : Option PinVerifier) (key : Bytes 32) (state : s.state = .authenticating) :
      Move s { s with pin := pin, pendingKey := some key, state := .awaitingConfirmation } []
  /-- A grant is issued, within the consent or within the request. -/
  | establish (s) (peer : PeerCredentials P) (caps : SessionCaps) (method : AuthMethod) (nowMs : ℕ)
      (pin : Option PinVerifier) (key : Option (Bytes 32)) (live : s.Live)
      (within : s.consentedCaps = some caps ∨ caps ≤ s.requestedCaps)
      (forgets : key = none ∨ key = s.pendingKey ∧ s.state ≠ .awaitingConfirmation) :
      Move s ({ s with pin := pin, pendingKey := key }.establish peer caps method nowMs)
        (s.started caps method nowMs)
  /-- The grant is narrowed. -/
  | narrow (s) (grant : SessionGrant) (limit : SessionCaps) (nowMs : ℕ)
      (holds : s.grant = some grant) :
      Move s { s with grant := some (grant.restrict limit) }
        [(nowMs, .capabilitiesChanged s.sessionId (grant.restrict limit).caps)]
  /-- The session is closed. -/
  | close (s) (reason : String) (nowMs durationMs : ℕ) (opened : ∀ r, s.state ≠ .closed r) :
      Move s { s with grant := none, pendingKey := none, state := .closed reason }
        [(nowMs, .sessionEnded s.sessionId durationMs)]

theorem applyConsent_move (s : HostSession P) (decision : ConsentDecision)
    (pinValue : Fin 1000000) (nowMs : ℕ) :
    Move s (s.applyConsent decision pinValue nowMs).session
      (s.applyConsent decision pinValue nowMs).audit := by
  unfold applyConsent
  by_cases hstate : s.state = .awaitingConsent
  · have hne : s.state ≠ .awaitingConfirmation := by simp [hstate]
    rw [if_neg (not_not.2 hstate)]
    split_ifs
    · exact .fail s _ s.pin s.pendingKey [] (.inl hstate) (.inr ⟨rfl, hne⟩) (by simp)
    · cases decision with
      | deny =>
          exact .fail s _ s.pin s.pendingKey _ (.inl hstate) (.inr ⟨rfl, hne⟩)
            (by simp [AuditEvent.isSessionEnded])
      | allow caps => exact .consent s caps _ hstate
  · rw [if_pos hstate]
    exact .stay s

theorem beginPinAuth_move (s : HostSession P) (scalar : ℕ) (message : List UInt8) (nowMs : ℕ) :
    Move s (s.beginPinAuth scalar message nowMs).session
      (s.beginPinAuth scalar message nowMs).audit := by
  unfold beginPinAuth
  by_cases hstate : s.state = .authenticating
  · have hne : s.state ≠ .awaitingConfirmation := by simp [hstate]
    rw [if_neg (not_not.2 hstate)]
    cases hpin : s.pin with
    | none => exact .stay s
    | some verifier =>
        rcases hr : verifier.respond P scalar message nowMs with ⟨e | ⟨ours, key⟩, verifier'⟩
        · simp only [hr]
          exact .fail s _ _ s.pendingKey [] (.inr (.inl hstate)) (.inr ⟨rfl, hne⟩) (by simp)
        · simp only [hr]
          exact .pake s _ key hstate
  · rw [if_pos hstate]
    exact .stay s

theorem completePinAuth_move (s : HostSession P) (confirmation : Bytes 32)
    (peer : PeerCredentials P) (book : AddressBook) (nowMs : ℕ) :
    Move s (s.completePinAuth confirmation peer book nowMs).1.session
      (s.completePinAuth confirmation peer book nowMs).1.audit := by
  rcases completePinAuth_cases s confirmation peer book nowMs with
    ⟨caps, key, h⟩ | ⟨reason, e, hstate, -, h⟩ | h
  · rw [completePinAuth_of_accepts h]
    exact .establish s peer caps .sessionPin nowMs _ none (.inr (.inr h.state)) (.inl h.consented)
      (.inl rfl)
  · rw [h]
    exact .fail s reason s.pin none [] (.inr (.inr hstate)) (.inl rfl) (by simp)
  · rw [h]
    exact .stay s

theorem authenticateWithToken_move (s : HostSession P) (encodedToken : String)
    (hostIdentity : Identity) (tokens : TokenStore) (peer : PeerCredentials P) (nowMs : ℕ) :
    Move s (s.authenticateWithToken encodedToken hostIdentity tokens peer nowMs).session
      (s.authenticateWithToken encodedToken hostIdentity tokens peer nowMs).audit := by
  have live : s.state = .awaitingConsent ∨ s.state = .authenticating →
      s.Live ∧ s.state ≠ .awaitingConfirmation := by
    rintro (h | h)
    · exact ⟨.inl h, by simp [h]⟩
    · exact ⟨.inr (.inl h), by simp [h]⟩
  rcases authenticateWithToken_cases s encodedToken hostIdentity tokens peer nowMs with
    ⟨token, h⟩ | ⟨reason, e, hstate, -, h⟩ | h
  · obtain ⟨hlive, hne⟩ := live h.state
    rw [authenticateWithToken_of_accepts h]
    exact .establish s peer _ .unattendedToken nowMs s.pin s.pendingKey hlive (.inr inf_le_left)
      (.inr ⟨rfl, hne⟩)
  · obtain ⟨hlive, hne⟩ := live hstate
    rw [h]
    exact .fail s reason s.pin s.pendingKey [] hlive (.inr ⟨rfl, hne⟩) (by simp)
  · rw [h]
    exact .stay s

/-- **Every step is a move.** -/
theorem step_move (s : HostSession P) (call : Call P) :
    Move s (s.step call).session (s.step call).audit := by
  cases call with
  | applyConsent decision pinValue nowMs => exact applyConsent_move s decision pinValue nowMs
  | beginPinAuth scalar message nowMs => exact beginPinAuth_move s scalar message nowMs
  | completePinAuth confirmation peer book nowMs =>
      exact completePinAuth_move s confirmation peer book nowMs
  | authenticateWithToken encoded host tokens peer nowMs =>
      exact authenticateWithToken_move s encoded host tokens peer nowMs
  | restrict limit nowMs =>
      simp only [step, restrict]
      cases hg : s.grant with
      | none => exact .stay s
      | some grant => exact .narrow s grant limit nowMs hg
  | close reason nowMs =>
      simp only [step, close]
      split
      · exact .stay s
      · rename_i hopen
        exact .close s reason nowMs _ hopen

end HostSession

/-! ### Concrete credentials -/

/-- An array of one byte. -/
def Sample.bytes (n : ℕ) (b : UInt8) : Bytes n := ⟨List.replicate n b, List.length_replicate⟩

/-- The session context of a controller, with certificates `0xAA` and `0xBB`. -/
def Sample.context (role : PeerRole) : BindingVerifier :=
  match role with
  | .controller => .new "sess_1" .controller (Sample.bytes 32 1) (Sample.bytes 32 2)
      ⟨Sample.bytes 32 0xAA⟩ ⟨Sample.bytes 32 0xBB⟩
  | .host => .new "sess_1" .host (Sample.bytes 32 2) (Sample.bytes 32 1)
      ⟨Sample.bytes 32 0xBB⟩ ⟨Sample.bytes 32 0xAA⟩

/-- The credentials of a controller that presents `claimed` and signs as `signer`. -/
def Sample.credentials (claimed : PublicIdentity .sample) (signer : Identity) :
    PeerCredentials .sample where
  identity := claimed
  binding := Sample.context .host
  proof := (Sample.context .controller).prove .sample signer

theorem Sample.verify_credentials (claimed : PublicIdentity .sample) (signer : Identity) :
    (Sample.credentials claimed signer).binding.verify (Sample.credentials claimed signer).proof
      (some (signer.deviceId .sample)) = .ok () :=
  BindingVerifier.verify_own_id (BindingVerifier.verify_prove Primitives.sample_lawful ..)

end Rda
