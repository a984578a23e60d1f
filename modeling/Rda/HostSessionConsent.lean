/-
**Consent as a ceiling.**

The local user consents to a set of capabilities.  The PIN path grants exactly what was consented
to, within the request.  The token path takes its ceiling from the token alone, and a session that
is waiting for a PIN still accepts a token: after a consent to `caps`, such a token puts the
session above `caps` unless what the token adds to the request was consented to anyway.

Main definitions:

* `Rda.HostSession.WithinConsent` — a call that does not redeem a token for more than was
  consented to.

Main results:

* `Rda.HostSession.step_grant` — where the grant of a session comes from;
* `Rda.HostSession.consent_ceiling_iff` — **consent is a ceiling exactly along the runs that redeem
  no token above it**.
-/

import Rda.HostSessionInv

set_option relaxedAutoImplicit false
set_option autoImplicit false

namespace Rda

namespace HostSession

variable {P : Primitives}

/-! ### Where a grant comes from -/

theorem applyConsent_grant (s : HostSession P) (decision : ConsentDecision)
    (pinValue : Fin 1000000) (nowMs : ℕ) :
    (s.applyConsent decision pinValue nowMs).session.grant = s.grant := by
  unfold applyConsent
  split_ifs
  · rfl
  · rfl
  · cases decision <;> rfl

theorem beginPinAuth_grant (s : HostSession P) (scalar : ℕ) (message : List UInt8) (nowMs : ℕ) :
    (s.beginPinAuth scalar message nowMs).session.grant = s.grant := by
  unfold beginPinAuth
  split_ifs
  · rfl
  · cases s.pin with
    | none => rfl
    | some verifier =>
        rcases hr : verifier.respond P scalar message nowMs with ⟨e | r, verifier'⟩
        · simp [hr, HostSession.fail]
        · simp [hr]

/-- The call redeems a token the session accepts. -/
def Redeems (s : HostSession P) (call : Call P) (token : AccessToken) : Prop :=
  ∃ encoded host tokens peer nowMs,
    call = .authenticateWithToken encoded host tokens peer nowMs ∧
      s.TokenAccepts encoded host tokens peer nowMs token

theorem redeems_iff {s : HostSession P} {encoded : String} {host : Identity} {tokens : TokenStore}
    {peer : PeerCredentials P} {nowMs : ℕ} {token : AccessToken} :
    s.Redeems (.authenticateWithToken encoded host tokens peer nowMs) token ↔
      s.TokenAccepts encoded host tokens peer nowMs token := by
  constructor
  · rintro ⟨_, _, _, _, _, ⟨⟩, h⟩
    exact h
  · intro h
    exact ⟨_, _, _, _, _, rfl, h⟩

/-- A redeemed token gives a grant for the request within the token. -/
theorem grant_of_redeems {s : HostSession P} {call : Call P} {token : AccessToken}
    (h : s.Redeems call token) :
    ∃ g, (s.step call).session.grant = some g ∧ g.caps = s.tokenCaps token := by
  obtain ⟨encoded, host, tokens, peer, nowMs, rfl, hacc⟩ := h
  rw [step, authenticateWithToken_of_accepts hacc]
  exact ⟨_, rfl, rfl⟩

/-- A grant after a call was there before and has been narrowed, or is what was consented to, or
comes from a token. -/
theorem step_grant {s : HostSession P} {call : Call P} {g : SessionGrant}
    (h : (s.step call).session.grant = some g) :
    (∃ g₀, s.grant = some g₀ ∧ g.caps ≤ g₀.caps) ∨ s.consentedCaps = some g.caps ∨
      ∃ token, s.Redeems call token ∧ g.caps = s.tokenCaps token := by
  cases call with
  | applyConsent decision pinValue nowMs =>
      exact .inl ⟨g, (applyConsent_grant s decision pinValue nowMs).symm.trans h, le_rfl⟩
  | beginPinAuth scalar message nowMs =>
      exact .inl ⟨g, (beginPinAuth_grant s scalar message nowMs).symm.trans h, le_rfl⟩
  | completePinAuth confirmation peer book nowMs =>
      rcases completePinAuth_cases s confirmation peer book nowMs with
        ⟨caps, key, hacc⟩ | ⟨reason, e, -, -, hout⟩ | hout
      · rw [step, completePinAuth_of_accepts hacc] at h
        rw [← Option.some.inj h]
        exact .inr (.inl hacc.consented)
      · rw [step, hout] at h
        exact .inl ⟨g, h, le_rfl⟩
      · rw [step, hout] at h
        exact .inl ⟨g, h, le_rfl⟩
  | authenticateWithToken encoded host tokens peer nowMs =>
      rcases authenticateWithToken_cases s encoded host tokens peer nowMs with
        ⟨token, hacc⟩ | ⟨reason, e, -, -, hout⟩ | hout
      · rw [step, authenticateWithToken_of_accepts hacc] at h
        rw [← Option.some.inj h]
        exact .inr (.inr ⟨token, ⟨_, _, _, _, _, rfl, hacc⟩, rfl⟩)
      · rw [step, hout] at h
        exact .inl ⟨g, h, le_rfl⟩
      · rw [step, hout] at h
        exact .inl ⟨g, h, le_rfl⟩
  | restrict limit nowMs =>
      simp only [step, restrict] at h
      cases hg : s.grant with
      | none => rw [hg] at h; simp only [hg] at h; cases h
      | some g₀ =>
          rw [hg] at h
          rw [← Option.some.inj h]
          exact .inl ⟨g₀, rfl, g₀.restrict_caps_le limit⟩
  | close reason nowMs =>
      simp only [step, close] at h
      split at h
      · exact .inl ⟨g, h, le_rfl⟩
      · cases h

/-! ### After the consent -/

/-- The call redeems no token for more than `caps`. -/
def WithinConsent (caps : SessionCaps) (h : History P) (call : Call P) : Prop :=
  ∀ token, h.session.Redeems call token → h.session.tokenCaps token ≤ caps

/-- What a consent to `caps` leaves behind, as long as no call goes beyond it. -/
structure Consented (requested caps : SessionCaps) (h : History P) : Prop where
  request : h.session.requestedCaps = requested
  consent : h.session.consentedCaps = some (requested ⊓ caps)
  decided : h.session.state ≠ .awaitingConsent
  grant_le : ∀ g, h.session.grant = some g → g.caps ≤ requested ⊓ caps

/-- The consent is recorded once: no later move changes it. -/
theorem consented_move {s s' : HostSession P} {written : List (ℕ × AuditEvent)}
    (hmove : Move s s' written) (hs : s.state ≠ .awaitingConsent) :
    s'.requestedCaps = s.requestedCaps ∧ s'.consentedCaps = s.consentedCaps ∧
      s'.state ≠ .awaitingConsent := by
  cases hmove with
  | stay => exact ⟨rfl, rfl, hs⟩
  | fail => exact ⟨rfl, rfl, by simp [HostSession.fail]⟩
  | consent caps pin state => exact absurd state hs
  | pake => exact ⟨rfl, rfl, by simp⟩
  | establish => exact ⟨rfl, rfl, by simp [HostSession.establish]⟩
  | narrow => exact ⟨rfl, rfl, hs⟩
  | close => exact ⟨rfl, rfl, by simp⟩

theorem Consented.step {requested caps : SessionCaps} {h : History P} {call : Call P}
    (hc : Consented requested caps h) (hcall : WithinConsent caps h call) :
    Consented requested caps (h.step call) := by
  obtain ⟨hreq, hcons, hstate⟩ := consented_move (h.session.step_move call) hc.decided
  refine ⟨hreq.trans hc.request, hcons.trans hc.consent, hstate, ?_⟩
  intro g hg
  rcases step_grant hg with ⟨g₀, hg₀, hle⟩ | hconsent | ⟨token, hredeems, hcaps⟩
  · exact hle.trans (hc.grant_le g₀ hg₀)
  · rw [hc.consent] at hconsent
    exact (Option.some.inj hconsent).ge
  · rw [hcaps]
    refine le_inf ?_ (hcall token hredeems)
    exact hc.request ▸ inf_le_left

/-- A call beyond the consent leaves a grant beyond the consent. -/
theorem exceeds_of_not_withinConsent {caps : SessionCaps} {h : History P} {call : Call P}
    (hcall : ¬ WithinConsent caps h call) :
    ∃ g, (h.step call).session.grant = some g ∧ ¬ g.caps ≤ caps := by
  simp only [WithinConsent, not_forall] at hcall
  obtain ⟨token, hredeems, hexceeds⟩ := hcall
  obtain ⟨g, hg, hcaps⟩ := grant_of_redeems hredeems
  exact ⟨g, hg, hcaps ▸ hexceeds⟩

/-- A consent that succeeds was asked for, in time. -/
theorem consented_of_applyConsent {h : History P} {caps : SessionCaps} {pinValue : Fin 1000000}
    {nowMs : ℕ} (hinv : Inv h)
    (hok : (h.session.step (.applyConsent (.allow caps) pinValue nowMs)).result = .ok ()) :
    Consented h.session.requestedCaps caps
      (h.step (.applyConsent (.allow caps) pinValue nowMs)) := by
  simp only [HostSession.step, applyConsent] at hok
  split_ifs at hok with hstate htime
  · cases hok
  · have hlive : h.session.Live := .inl (not_not.1 hstate)
    have hg : h.session.grant = none := hinv.grant_of_live hlive
    refine ⟨?_, ?_, ?_, ?_⟩ <;>
      simp [History.step, HostSession.step, applyConsent, allowed, hstate, htime, hg,
        SessionCaps.clampTo_eq_inf]

/-- **Consent is a ceiling exactly along the runs that redeem no token above it.**  After any calls
and a consent to `caps` that succeeded, every grant of the session stays within the request and
`caps` at every later point, if and only if no later call redeems a token for more than `caps`. -/
theorem consent_ceiling_iff (sessionId : String) (peerId : DeviceId) (requested : SessionCaps)
    (startedMs : ℕ) (before : List (Call P)) (caps : SessionCaps) (pinValue : Fin 1000000)
    (nowMs : ℕ)
    (hok : ((run (new P sessionId peerId requested startedMs) before).session.step
      (.applyConsent (.allow caps) pinValue nowMs)).result = .ok ())
    (after : List (Call P)) :
    let h := (run (new P sessionId peerId requested startedMs) before).step
      (.applyConsent (.allow caps) pinValue nowMs)
    (∀ later, later <+: after → ∀ g,
        (Machine.run History.step h later).session.grant = some g → g.caps ≤ requested ⊓ caps) ↔
      Machine.Along History.step (WithinConsent caps) h after := by
  intro h
  have hnew : Inv ⟨new P sessionId peerId requested startedMs, []⟩ := inv_new ..
  have hreq : (run (new P sessionId peerId requested startedMs) before).session.requestedCaps
      = requested := (later_run hnew before).requested
  have hcons : Consented requested caps h := by
    have := consented_of_applyConsent (inv_run hnew before) hok
    rwa [show (Machine.run History.step _ before).session.requestedCaps = requested from hreq]
      at this
  refine Machine.forall_prefix_iff_along (Consented requested caps)
    (fun h => ∀ g, h.session.grant = some g → g.caps ≤ requested ⊓ caps)
    (fun _ hc => hc.grant_le) (fun _ _ hc hcall => hc.step hcall) ?_ hcons after
  intro h call _ hcall hQ
  obtain ⟨g, hg, hexceeds⟩ := exceeds_of_not_withinConsent hcall
  exact hexceeds ((hQ g hg).trans inf_le_right)

/-! ### A token redeemed after a consent -/

/-- Viewing and input. -/
def viewInput : SessionCaps := ⟨true, true, false, false, false⟩

/-- The token of device 2. -/
def token (caps : SessionCaps) : AccessToken :=
  Sample.token ((Sample.device 2).toPublic .sample) caps

/-- Device 2 redeems its token. -/
def redeem (caps : SessionCaps) : Call .sample :=
  .authenticateWithToken ((token caps).encode .sample) (Sample.device 1) .new
    (Sample.credentials ((Sample.device 2).toPublic .sample) (Sample.device 2)) 5000

/-- Its session, with viewing and input requested and viewing allowed. -/
def viewAllowed : History .sample :=
  (run (new .sample "sess_1" ((Sample.device 2).deviceId .sample) viewInput 0) []).step
    (.applyConsent (.allow .viewOnly) Sample.pinValue 1000)

theorem viewAllowed_accepts (caps : SessionCaps) (hbody : (token caps).body.length < 1000) :
    viewAllowed.session.TokenAccepts ((token caps).encode .sample) (Sample.device 1) .new
      (Sample.credentials ((Sample.device 2).toPublic .sample) (Sample.device 2)) 5000
      (token caps) where
  state := .inr rfl
  verified := Sample.verify_token _ caps hbody (by decide)
  bound := Sample.verify_credentials _ _

theorem viewAllowed_tokenCaps (caps : SessionCaps) :
    viewAllowed.session.tokenCaps (token caps) = viewInput ⊓ caps :=
  congrArg (viewInput ⊓ ·) (SessionCaps.fromNames_toNames caps)

/-- A token that only lets its holder view respects a consent to viewing. -/
theorem consent_ceiling_view_token :
    ∃ g, (viewAllowed.step (redeem .viewOnly)).session.grant = some g ∧
      g.caps ≤ viewInput ⊓ .viewOnly := by
  have haccepts := viewAllowed_accepts .viewOnly (by decide +kernel)
  have hceiling : ∀ later, later <+: [redeem .viewOnly] → ∀ g,
      (Machine.run History.step viewAllowed later).session.grant = some g →
        g.caps ≤ viewInput ⊓ .viewOnly := by
    refine (consent_ceiling_iff "sess_1" ((Sample.device 2).deviceId .sample) viewInput 0 []
      .viewOnly Sample.pinValue 1000 rfl [redeem .viewOnly]).2 ⟨?_, trivial⟩
    intro token' hredeems
    have htoken := (redeems_iff.1 hredeems).verified.symm.trans haccepts.verified
    rw [Except.ok.inj htoken]
    exact (viewAllowed_tokenCaps .viewOnly).le.trans inf_le_right
  have hredeems : viewAllowed.session.Redeems (redeem .viewOnly) (token .viewOnly) :=
    redeems_iff.2 haccepts
  obtain ⟨g, hg, -⟩ := grant_of_redeems hredeems
  rw [← History.step_session] at hg
  exact ⟨g, hg, hceiling [redeem .viewOnly] (List.prefix_refl _) g hg⟩

/-- After a consent to viewing only, a token for viewing and input gives the session input. -/
theorem consent_ceiling_fails_for_token :
    (∃ g, (viewAllowed.step (redeem viewInput)).session.grant = some g ∧ g.caps = viewInput) ∧
      ¬ ∀ later, later <+: [redeem viewInput] → ∀ g,
        (Machine.run History.step viewAllowed later).session.grant = some g →
          g.caps ≤ viewInput ⊓ .viewOnly := by
  have hredeems : viewAllowed.session.Redeems (redeem viewInput) (token viewInput) :=
    redeems_iff.2 (viewAllowed_accepts viewInput (by decide +kernel))
  obtain ⟨g, hg, hcaps⟩ := grant_of_redeems hredeems
  rw [viewAllowed_tokenCaps, inf_idem] at hcaps
  rw [← History.step_session] at hg
  refine ⟨⟨g, hg, hcaps⟩, ?_⟩
  intro h
  have hle := h [redeem viewInput] (List.prefix_refl _) g hg
  rw [hcaps] at hle
  revert hle
  decide

end HostSession

end Rda
