/-
**What a failed PIN authentication leaves in the address book.**

Completing the PIN path looks the peer up in the address book and pins its key on first contact,
before the binding is verified.  A peer that knows the PIN but whose binding does not verify is
refused, and its key stays in the book all the same.

Main definitions:

* `Rda.HostSession.PinsThenRefuses` — the calls that pin the peer and then refuse its binding.

Main results:

* `Rda.HostSession.pinChecks_book` — the checks change the book exactly when they get past the
  confirmation with a peer the book does not know;
* `Rda.HostSession.failed_auth_pins_nothing_iff` — **a failed authentication leaves the book as it
  was exactly when it is not such a call**.
-/

import Rda.HostSessionBinding

set_option relaxedAutoImplicit false
set_option autoImplicit false

namespace Rda

variable {P : Primitives}

namespace AddressBook

/-- The peer has no entry in the book. -/
def Unknown (book : AddressBook) (peer : PublicIdentity P) : Prop :=
  book.entries peer.deviceId = none

/-- Looking a peer up with `checkAndPin` changes the book exactly when the peer is unknown. -/
theorem checkAndPin_book_eq_iff {book : AddressBook} {peer : PublicIdentity P} :
    (book.checkAndPin peer).2 = book ↔ ¬ book.Unknown peer := by
  unfold checkAndPin Unknown
  cases hentry : book.entries peer.deviceId with
  | some pinned => simp
  | none =>
      refine ⟨?_, fun h => absurd rfl h⟩
      intro h
      have hsame := congrArg (fun b : AddressBook => b.entries peer.deviceId) h
      simp [hentry] at hsame

/-- A peer the book does not know has not changed its key. -/
theorem Unknown.trust {book : AddressBook} {peer : PublicIdentity P} (h : book.Unknown peer) :
    (book.checkAndPin peer).1 ≠ .keyChanged := by
  rw [checkAndPin, h]
  simp

end AddressBook

namespace HostSession

variable {s : HostSession P} {key confirmation : Bytes 32} {peer : PeerCredentials P}
  {book : AddressBook}

/-- The checks leave the book as it was unless the confirmation matches and the peer is unknown. -/
theorem pinChecks_book :
    (s.pinChecks key confirmation peer book).2 = book ↔
      ¬ (confirm P key "controller" s.sessionId = confirmation ∧ book.Unknown peer.identity) := by
  rw [← confirmMatches_iff]
  unfold pinChecks
  cases confirmMatches (confirm P key "controller" s.sessionId) confirmation with
  | false => simp
  | true =>
      have hbook : (book.checkAndPin peer.identity).2 = book ↔ _ :=
        AddressBook.checkAndPin_book_eq_iff
      by_cases htrust : (book.checkAndPin peer.identity).1 = .keyChanged
      · simp [htrust, hbook]
      · cases hb : peer.binding.verify peer.proof (some s.peerId) with
        | error e => simp [htrust, hbook]
        | ok u => simp [htrust, hbook]

/-- The call gets past the confirmation with a peer the book does not know, and the binding does
not verify. -/
structure PinsThenRefuses (s : HostSession P) (confirmation : Bytes 32) (peer : PeerCredentials P)
    (book : AddressBook) : Prop where
  state : s.state = .awaitingConfirmation
  consented : s.consentedCaps ≠ none
  confirmed : ∃ key, s.pendingKey = some key ∧ confirm P key "controller" s.sessionId = confirmation
  unknown : book.Unknown peer.identity
  unbound : peer.binding.verify peer.proof (some s.peerId) ≠ .ok ()

/-- **A failed authentication pins nothing exactly when the peer was in the book already, its
binding verifies, or an earlier check stops the call.** -/
theorem failed_auth_pins_nothing_iff (s : HostSession P) (confirmation : Bytes 32)
    (peer : PeerCredentials P) (book : AddressBook) (nowMs : ℕ) :
    (∀ e, (s.completePinAuth confirmation peer book nowMs).1.result = .error e →
      (s.completePinAuth confirmation peer book nowMs).2 = book) ↔
    ¬ s.PinsThenRefuses confirmation peer book := by
  by_cases hstate : s.state = .awaitingConfirmation
  · cases hcaps : s.consentedCaps with
    | none =>
        simp only [completePinAuth, hstate, hcaps, ne_eq, not_true_eq_false, if_false, refuse,
          implies_true, true_iff]
        exact fun h => h.consented hcaps
    | some caps =>
        cases hkey : s.pendingKey with
        | none =>
            simp only [completePinAuth, hstate, hcaps, hkey, ne_eq, not_true_eq_false, if_false,
              refuse, implies_true, true_iff]
            rintro ⟨-, -, ⟨key, hsome, -⟩, -, -⟩
            rw [hkey] at hsome
            cases hsome
        | some key =>
            have hbook : (s.pinChecks key confirmation peer book).2 = book ↔ _ := pinChecks_book
            have hok : (s.pinChecks key confirmation peer book).1 = .ok () ↔ _ :=
              pinChecks_eq_ok_iff
            rcases hc : s.pinChecks key confirmation peer book with ⟨⟨reason, e⟩ | u, book'⟩
            · rw [hc] at hbook hok
              have herr : ¬ (confirm P key "controller" s.sessionId = confirmation ∧
                  book.check peer.identity ≠ .keyChanged ∧
                  peer.binding.verify peer.proof (some s.peerId) = .ok ()) := by
                rw [← hok]
                simp
              simp only [completePinAuth, hstate, hcaps, hkey, ne_eq, not_true_eq_false, if_false,
                hc, Except.error.injEq, forall_eq']
              rw [hbook]
              refine not_congr ⟨?_, ?_⟩
              · rintro ⟨hconf, hunknown⟩
                have htrust := hunknown.trust
                rw [AddressBook.checkAndPin_trust] at htrust
                exact ⟨hstate, by simp [hcaps], ⟨key, hkey, hconf⟩, hunknown,
                  fun hbound => herr ⟨hconf, htrust, hbound⟩⟩
              · rintro ⟨-, -, ⟨key', hkey', hconf⟩, hunknown, -⟩
                rw [hkey] at hkey'
                exact ⟨Option.some.inj hkey' ▸ hconf, hunknown⟩
            · -- The peer was admitted: its binding did verify.
              simp only [completePinAuth, hstate, hcaps, hkey, ne_eq, not_true_eq_false, if_false,
                hc, reduceCtorEq, false_implies, implies_true, true_iff]
              rw [hc] at hok
              exact fun h => h.unbound (hok.1 rfl).2.2
  · simp only [completePinAuth, hstate, ne_eq, not_false_eq_true, if_true, refuse, implies_true,
      true_iff]
    exact fun h => hstate h.state

/-- A session that device 2 asked for, after the consent and a PAKE round with the right PIN. -/
def Sample.awaitingConfirmation : HostSession .sample :=
  (run (new .sample "sess_1" ((Sample.device 2).deviceId .sample) .viewOnly 0)
    [.applyConsent (.allow .viewOnly) Sample.pinValue 1000,
      .beginPinAuth 5 (Primitives.sample.pakeMessage
        (pakeStart .sample .a 7 "sess_1" (formatPin Sample.pinValue))) 2000]).session

/-- The key both sides of that round have derived. -/
def Sample.pinKey : Bytes 32 :=
  Sample.digest 32 (pakePassword .sample "sess_1" (formatPin Sample.pinValue) ++ ID_CONTROLLER ++
    ID_HOST ++ Sample.pakeMessage (pakeStart .sample .a 7 "sess_1" (formatPin Sample.pinValue)) ++
    Sample.pakeMessage (pakeStart .sample .b 5 "sess_1" (formatPin Sample.pinValue)))

/-- Device 3 was told the PIN of that session, and presents the identity of device 2 with a binding
it signed itself.  It is refused, and the host's empty address book now has an entry. -/
theorem failed_auth_pins :
    let o := Sample.awaitingConfirmation.completePinAuth
      (confirm .sample Sample.pinKey "controller" "sess_1")
      (Sample.credentials ((Sample.device 2).toPublic .sample) (Sample.device 3)) .new 3000
    o.1.result = .error (.binding .identityMismatch) ∧
      o.2.check ((Sample.device 2).toPublic .sample) = .known ∧ o.2 ≠ .new := by
  have hcheck : ∀ o : Outcome .sample Unit × AddressBook,
      o.2.check ((Sample.device 2).toPublic .sample) = .known → o.2 ≠ .new := by
    intro o hknown hnew
    rw [hnew] at hknown
    cases hknown
  exact ⟨by decide +kernel, by decide +kernel, hcheck _ (by decide +kernel)⟩

end HostSession

end Rda
