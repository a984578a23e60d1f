/-
**Whose key a session is bound to.**

Both authentication paths receive two identities: the one that is looked up in the address book or
matched against the token's subject, and the one inside the binding proof, whose signature ties it
to the transport.  Nothing compares the two: the proof is only checked against the device id the
session was opened for.  So whoever can sign for that device id is admitted under any other
identity it presents.

Main definitions:

* `Rda.PeerCredentials.KeysBound` — the two identities carry one key;
* `Rda.HostSession.pinCalls` — the PIN path, from the consent to the grant.

Main results:

* `Rda.HostSession.established_pinCalls_iff` — when the PIN path as a whole ends in a grant;
* `Rda.HostSession.identity_binding_iff` — **the identity is bound exactly for the credentials
  whose two keys agree or whose proof is invalid**.
-/

import Rda.HostSessionInv

set_option relaxedAutoImplicit false
set_option autoImplicit false

namespace Rda

variable {P : Primitives}

/-- The identity that was looked up carries the key that signed the binding. -/
def PeerCredentials.KeysBound (peer : PeerCredentials P) : Prop :=
  peer.identity.key = peer.proof.identity.key

namespace HostSession

/-! ### The PIN path as a whole -/

/-- The calls of the PIN path. -/
def pinCalls (caps : SessionCaps) (pinValue : Fin 1000000) (consentMs : ℕ) (scalar : ℕ)
    (message : List UInt8) (authMs : ℕ) (confirmation : Bytes 32) (peer : PeerCredentials P)
    (book : AddressBook) (doneMs : ℕ) : List (Call P) :=
  [.applyConsent (.allow caps) pinValue consentMs, .beginPinAuth scalar message authMs,
    .completePinAuth confirmation peer book doneMs]

/-- A consent in time opens the session for authentication. -/
theorem applyConsent_allow {s : HostSession P} (hstate : s.state = .awaitingConsent)
    {caps : SessionCaps} {pinValue : Fin 1000000} {nowMs : ℕ}
    (htime : nowMs - s.startedAtMs ≤ CONSENT_TIMEOUT_MS) :
    (s.applyConsent (.allow caps) pinValue nowMs).session = s.allowed caps pinValue nowMs := by
  rw [applyConsent, if_neg (not_not.2 hstate), if_neg (Nat.not_lt.2 htime)]

/-- A consent that comes too late fails the session. -/
theorem applyConsent_late {s : HostSession P} (hstate : s.state = .awaitingConsent)
    {decision : ConsentDecision} {pinValue : Fin 1000000} {nowMs : ℕ}
    (htime : ¬ nowMs - s.startedAtMs ≤ CONSENT_TIMEOUT_MS) :
    (s.applyConsent decision pinValue nowMs).session = s.fail "consent timed out" := by
  simp only [applyConsent, hstate, ne_eq, not_true_eq_false, if_false, Nat.lt_of_not_le htime,
    if_true]

/-- A PAKE round with a usable PIN that yields a key leaves the key pending. -/
theorem beginPinAuth_of_key {s : HostSession P} {verifier : PinVerifier}
    (hstate : s.state = .authenticating) (hpin : s.pin = some verifier) {scalar : ℕ}
    {message : List UInt8} {nowMs : ℕ} {key : Bytes 32}
    (husable : verifier.pin.isUsable nowMs = true)
    (hkey : pakeKey P (pakeStart P .b scalar verifier.sessionId verifier.pin.digits) message
      = .ok key) :
    (s.beginPinAuth scalar message nowMs).session =
      { s with
        pin := some (verifier.respond P scalar message nowMs).2
        pendingKey := some key
        state := .awaitingConfirmation } := by
  have hok := PinVerifier.respond_eq_ok_iff.2 ⟨husable, hkey, rfl⟩
  rcases hr : verifier.respond P scalar message nowMs with ⟨r, verifier'⟩
  rw [hr] at hok
  cases hok
  rw [beginPinAuth, if_neg (not_not.2 hstate), hpin]
  simp only [hr]

/-- Any other PAKE round fails the session. -/
theorem beginPinAuth_of_no_key {s : HostSession P} {verifier : PinVerifier}
    (hstate : s.state = .authenticating) (hpin : s.pin = some verifier) {scalar : ℕ}
    {message : List UInt8} {nowMs : ℕ}
    (hno : ¬ (verifier.pin.isUsable nowMs = true ∧ ∃ key,
      pakeKey P (pakeStart P .b scalar verifier.sessionId verifier.pin.digits) message = .ok key)) :
    (s.beginPinAuth scalar message nowMs).session.state = .failed "PIN authentication failed" := by
  rcases hr : verifier.respond P scalar message nowMs with ⟨e | ⟨ours, key⟩, verifier'⟩
  · rw [beginPinAuth, if_neg (not_not.2 hstate), hpin]
    simp only [hr]
    rfl
  · obtain ⟨husable, hkey, -⟩ := PinVerifier.respond_eq_ok_iff.1 (congrArg Prod.fst hr)
    exact absurd ⟨husable, key, hkey⟩ hno

/-- `completePinAuth` establishes a session that awaits a confirmation exactly when its checks
pass. -/
theorem completePinAuth_established_iff {s : HostSession P} {confirmation : Bytes 32}
    {peer : PeerCredentials P} {book : AddressBook} {nowMs : ℕ} (hs : s.state ≠ .established) :
    (s.completePinAuth confirmation peer book nowMs).1.session.state = .established ↔
      ∃ caps key, s.PinAccepts confirmation peer book caps key := by
  constructor
  · intro h
    rcases completePinAuth_cases s confirmation peer book nowMs with
      hacc | ⟨reason, e, -, -, hout⟩ | hout
    · exact hacc
    · rw [hout] at h
      cases h
    · rw [hout] at h
      exact absurd h hs
  · rintro ⟨caps, key, hacc⟩
    rw [completePinAuth_of_accepts hacc]
    rfl

/-- What the PIN path needs to end in a grant: the consent in time, the PIN still valid, a key from
the PAKE round that the peer confirms, no other key in the address book for the identity presented,
and a binding that verifies for the device id of the request. -/
def PinPathAccepts (P : Primitives) (sessionId : String) (peerId : DeviceId) (startedMs : ℕ)
    (pinValue : Fin 1000000) (consentMs scalar : ℕ) (message : List UInt8) (authMs : ℕ)
    (confirmation : Bytes 32) (peer : PeerCredentials P) (book : AddressBook) : Prop :=
  consentMs - startedMs ≤ CONSENT_TIMEOUT_MS ∧ authMs - consentMs ≤ PIN_TTL_MS ∧
    ∃ key, pakeKey P (pakeStart P .b scalar sessionId (formatPin pinValue)) message = .ok key ∧
      confirm P key "controller" sessionId = confirmation ∧
      book.check peer.identity ≠ .keyChanged ∧
      peer.binding.verify peer.proof (some peerId) = .ok ()

section PinPath

variable {sessionId : String} {peerId : DeviceId} {requested : SessionCaps} {startedMs : ℕ}
  {caps : SessionCaps} {pinValue : Fin 1000000} {consentMs scalar : ℕ} {message : List UInt8}
  {authMs : ℕ} {confirmation : Bytes 32} {peer : PeerCredentials P} {book : AddressBook}
  {doneMs : ℕ}

theorem run_pinCalls (s : HostSession P) :
    (run s (pinCalls caps pinValue consentMs scalar message authMs confirmation peer book
        doneMs)).session =
      ((((s.applyConsent (.allow caps) pinValue consentMs).session.beginPinAuth scalar message
        authMs).session).completePinAuth confirmation peer book doneMs).1.session := rfl

theorem isUsable_generate :
    (SessionPin.generate pinValue consentMs).isUsable authMs = true ↔
      authMs - consentMs ≤ PIN_TTL_MS := by
  simp [SessionPin.isUsable, SessionPin.generate, MAX_PIN_ATTEMPTS]

/-- The session after the consent and a PAKE round that yielded `key`. -/
def keyed (s : HostSession P) (caps : SessionCaps) (pinValue : Fin 1000000)
    (consentMs scalar : ℕ) (message : List UInt8) (authMs : ℕ) (key : Bytes 32) : HostSession P :=
  { s.allowed caps pinValue consentMs with
    pin := some ((PinVerifier.mk s.sessionId (SessionPin.generate pinValue consentMs)).respond P
      scalar message authMs).2
    pendingKey := some key
    state := .awaitingConfirmation }

theorem beginPinAuth_allowed (s : HostSession P) {key : Bytes 32}
    (httl : authMs - consentMs ≤ PIN_TTL_MS)
    (hkey : pakeKey P (pakeStart P .b scalar s.sessionId (formatPin pinValue)) message = .ok key) :
    ((s.allowed caps pinValue consentMs).beginPinAuth scalar message authMs).session =
      s.keyed caps pinValue consentMs scalar message authMs key :=
  beginPinAuth_of_key (s.allowed_state caps pinValue consentMs)
    (s.allowed_pin caps pinValue consentMs) (isUsable_generate.2 httl) hkey

/-- The PIN path admits the peer, with what was requested and consented to. -/
theorem grant_pinCalls
    (h : PinPathAccepts P sessionId peerId startedMs pinValue consentMs scalar message authMs
      confirmation peer book) :
    (run (new P sessionId peerId requested startedMs) (pinCalls caps pinValue consentMs scalar
        message authMs confirmation peer book doneMs)).session.state = .established ∧
      (run (new P sessionId peerId requested startedMs) (pinCalls caps pinValue consentMs scalar
        message authMs confirmation peer book doneMs)).session.grant =
          some (.issue sessionId peerId (requested ⊓ caps) .sessionPin doneMs) := by
  obtain ⟨htime, httl, key, hkey, hconf, htrust, hbound⟩ := h
  have hacc : ((new P sessionId peerId requested startedMs).keyed caps pinValue consentMs scalar
      message authMs key).PinAccepts confirmation peer book (requested ⊓ caps) key :=
    ⟨rfl, rfl, rfl, hconf, htrust, hbound⟩
  rw [run_pinCalls, applyConsent_allow rfl htime,
    beginPinAuth_allowed (new P sessionId peerId requested startedMs) httl hkey,
    completePinAuth_of_accepts hacc]
  exact ⟨rfl, rfl⟩

/-- **The PIN path as a whole.**  It ends in an established session exactly when every check on
the way passes. -/
theorem established_pinCalls_iff :
    (run (new P sessionId peerId requested startedMs) (pinCalls caps pinValue consentMs scalar
        message authMs confirmation peer book doneMs)).session.state = .established ↔
      PinPathAccepts P sessionId peerId startedMs pinValue consentMs scalar message authMs
        confirmation peer book := by
  refine ⟨?_, fun h => (grant_pinCalls h).1⟩
  intro h
  rw [run_pinCalls] at h
  by_cases htime : consentMs - startedMs ≤ CONSENT_TIMEOUT_MS
  · rw [applyConsent_allow rfl htime] at h
    by_cases hkey : (SessionPin.generate pinValue consentMs).isUsable authMs = true ∧ ∃ key,
        pakeKey P (pakeStart P .b scalar sessionId (formatPin pinValue)) message = .ok key
    · obtain ⟨husable, key, hkey⟩ := hkey
      have httl := isUsable_generate.1 husable
      rw [beginPinAuth_allowed (new P sessionId peerId requested startedMs) httl hkey,
        completePinAuth_established_iff (by simp [keyed])] at h
      obtain ⟨caps', key', hacc⟩ := h
      have hk : key = key' := Option.some.inj hacc.pending
      exact ⟨htime, httl, key, hkey, hk ▸ hacc.confirmed, hacc.trusted, hacc.bound⟩
    · have hfailed := beginPinAuth_of_no_key
        (allowed_state (new P sessionId peerId requested startedMs) caps pinValue consentMs)
        (allowed_pin _ _ _ _) hkey
      rw [completePinAuth_established_iff (by simp [hfailed])] at h
      obtain ⟨_, _, hacc⟩ := h
      exact absurd (hacc.state.symm.trans hfailed) (by simp)
  · rw [applyConsent_late rfl htime] at h
    simp [beginPinAuth, completePinAuth, HostSession.fail, refuse] at h

end PinPath

/-! ### The two identities -/

/-- The token path establishes a session exactly when its checks pass. -/
theorem authenticateWithToken_established_iff {s : HostSession P} {encodedToken : String}
    {hostIdentity : Identity} {tokens : TokenStore} {peer : PeerCredentials P} {nowMs : ℕ}
    (hs : s.state ≠ .established) :
    (s.authenticateWithToken encodedToken hostIdentity tokens peer nowMs).session.state
        = .established ↔
      ∃ token, s.TokenAccepts encodedToken hostIdentity tokens peer nowMs token := by
  constructor
  · intro h
    rcases authenticateWithToken_cases s encodedToken hostIdentity tokens peer nowMs with
      hacc | ⟨reason, e, -, -, hout⟩ | hout
    · exact hacc
    · rw [hout] at h
      cases h
    · rw [hout] at h
      exact absurd h hs
  · rintro ⟨token, hacc⟩
    rw [authenticateWithToken_of_accepts hacc]
    rfl

/-- A session of the device that signed the proof, with the PAKE round behind it. -/
def confirmable (peer : PeerCredentials P) (key : Bytes 32) : HostSession P :=
  { new P peer.binding.sessionId peer.proof.identity.deviceId .viewOnly 0 with
    state := .awaitingConfirmation
    consentedCaps := some .viewOnly
    pendingKey := some key }

/-- **The identity is bound exactly for the credentials whose two keys agree or whose proof is
invalid**: a session is established only under the key that signed the binding, whatever the
session, the confirmation, the address book and the time, if and only if the identity presented
carries that key or the proof does not verify.  The token path is the same, for the tokens that
are accepted for the identity presented. -/
theorem identity_binding_iff (peer : PeerCredentials P) :
    ((∀ (s : HostSession P) confirmation book nowMs, s.state ≠ .established →
        (s.completePinAuth confirmation peer book nowMs).1.session.state = .established →
        peer.KeysBound) ↔
      peer.KeysBound ∨ peer.binding.verify peer.proof none ≠ .ok ()) ∧
    ∀ encodedToken hostIdentity tokens nowMs,
      (∀ s : HostSession P, s.state ≠ .established →
        (s.authenticateWithToken encodedToken hostIdentity tokens peer nowMs).session.state
          = .established → peer.KeysBound) ↔
      peer.KeysBound ∨ peer.binding.verify peer.proof none ≠ .ok () ∨
        ∀ token, tokens.verify encodedToken hostIdentity peer.identity (nowMs / 1000)
          ≠ .ok token := by
  refine ⟨⟨?_, ?_⟩, fun encodedToken hostIdentity tokens nowMs => ⟨?_, ?_⟩⟩
  · intro h
    by_contra hn
    rw [not_or, not_not] at hn
    -- an address book that has never seen anyone, and the device that signed as the caller
    refine hn.1 (h (confirmable peer (P.sha256 []))
      (confirm P (P.sha256 []) "controller" peer.binding.sessionId) .new 0 (by simp [confirmable])
      ((completePinAuth_established_iff (by simp [confirmable])).2 ?_))
    exact ⟨.viewOnly, P.sha256 [], rfl, rfl, rfl, rfl, by simp, BindingVerifier.verify_own_id hn.2⟩
  · intro hcond s confirmation book nowMs hs hest
    obtain ⟨caps, key, hacc⟩ := (completePinAuth_established_iff hs).1 hest
    rcases hcond with hkeys | hproof
    · exact hkeys
    · exact absurd (BindingVerifier.verify_some_iff.1 hacc.bound).1 hproof
  · intro h
    by_contra hn
    simp only [not_or, not_not, not_forall] at hn
    obtain ⟨hkeys, hproof, token, htoken⟩ := hn
    refine hkeys (h (new P peer.binding.sessionId peer.proof.identity.deviceId .viewOnly 0)
      (by simp [new]) ((authenticateWithToken_established_iff (by simp [new])).2 ?_))
    exact ⟨token, .inl rfl, htoken, BindingVerifier.verify_own_id hproof⟩
  · intro hcond s hs hest
    obtain ⟨token, hacc⟩ := (authenticateWithToken_established_iff hs).1 hest
    rcases hcond with hkeys | hproof | htoken
    · exact hkeys
    · exact absurd (BindingVerifier.verify_some_iff.1 hacc.bound).1 hproof
    · exact absurd hacc.verified (htoken token)

/-- Device 3 signs its own binding, presents the identity of device 2, and is admitted on both
paths: with a PIN it was told, and with a token that was issued to device 2. -/
theorem identity_binding_fails :
    ¬ (Sample.credentials ((Sample.device 2).toPublic .sample) (Sample.device 3)).KeysBound ∧
      (∃ key, (run (new .sample "sess_1" ((Sample.device 3).deviceId .sample) .viewOnly 0)
        (pinCalls .viewOnly Sample.pinValue 1000 5
          (Primitives.sample.pakeMessage
            (pakeStart .sample .a 7 "sess_1" (formatPin Sample.pinValue))) 2000
          (confirm .sample key "controller" "sess_1")
          (Sample.credentials ((Sample.device 2).toPublic .sample) (Sample.device 3)) .new
          3000)).session.state = .established) ∧
      ((new .sample "sess_1" ((Sample.device 3).deviceId .sample) .viewOnly 0).authenticateWithToken
        ((Sample.token ((Sample.device 2).toPublic .sample) .viewOnly).encode .sample)
        (Sample.device 1) .new
        (Sample.credentials ((Sample.device 2).toPublic .sample) (Sample.device 3))
        5000).session.state = .established := by
  have hbound := Sample.verify_credentials ((Sample.device 2).toPublic .sample) (Sample.device 3)
  refine ⟨?_, ?_, ?_⟩
  · unfold PeerCredentials.KeysBound
    decide
  · obtain ⟨key, -, hkey⟩ := PinVerifier.respond_agrees Primitives.sample_lawful 7 5 "sess_1"
      (formatPin Sample.pinValue)
    exact ⟨key, established_pinCalls_iff.2 ⟨by decide, by decide, key, hkey, rfl, by simp, hbound⟩⟩
  · have htoken := Sample.verify_token ((Sample.device 2).toPublic .sample) .viewOnly
      (by decide +kernel) (show 5 < 1000 by decide)
    exact (authenticateWithToken_established_iff (by simp [new])).2 ⟨_, .inl rfl, htoken, hbound⟩

end HostSession

end Rda
