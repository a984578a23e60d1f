/-
**One token, many sessions.**

A host serves any number of sessions over one store of revoked tokens.  A controller presents a
token to a session, and the session reads the store; nothing in the two of them writes to it.  An
established session cannot be established again, so a session accepts one token at most, but a
token that was accepted is refused elsewhere only after someone else revokes it.

The run below interleaves presentations to any sessions, by anyone and at any times, with the two
operations that change the store.

Main definitions:

* `Rda.TokenHost`, `Rda.TokenHost.step` — the store, the sessions and the tokens accepted so far;
* `Rda.TokenHost.AtMostOnce`, `Rda.TokenHost.Invalidated` — a token establishes one session at
  most, and an accepted token is not accepted again;
* `Rda.TokenHost.Event.Admits`, `Rda.TokenHost.Event.Reuses` — a presentation that passes every
  check, and one of a token that has established a session before.

Main results:

* `Rda.TokenHost.present_of_admits`, `Rda.TokenHost.present_of_refused` — one presentation;
* `Rda.TokenHost.atMostOnce_iff`, `Rda.TokenHost.invalidated_iff` — whole runs;
* `Rda.TokenHost.rotation_iff` — **the runs in which tokens rotate**.
-/

import Mathlib.Logic.Function.Basic
import Rda.HostSessionInv

set_option relaxedAutoImplicit false
set_option autoImplicit false

namespace Rda

/-- Sessions over one store of revoked tokens, with the tokens that established them, in order. -/
structure TokenHost (P : Primitives) where
  tokens : TokenStore
  sessions : ℕ → HostSession P
  admitted : List (ℕ × String)

namespace TokenHost

variable {P : Primitives}

/-- A host no one has presented a token to. -/
def new (tokens : TokenStore) (sessions : ℕ → HostSession P) : TokenHost P :=
  ⟨tokens, sessions, []⟩

/-- What can happen to the sessions and the store. -/
inductive Event (P : Primitives)
  | authenticateWithToken (k : ℕ) (encodedToken : String) (hostIdentity : Identity)
      (peer : PeerCredentials P) (nowMs : ℕ)
  | revoke (jti : Bytes 16)
  | pruneExpired (expiredJtis : List (Bytes 16))

/-- A token is presented to session `k`. -/
def present (h : TokenHost P) (k : ℕ) (encodedToken : String) (hostIdentity : Identity)
    (peer : PeerCredentials P) (nowMs : ℕ) : TokenHost P :=
  let o := (h.sessions k).authenticateWithToken encodedToken hostIdentity h.tokens peer nowMs
  { h with
    sessions := Function.update h.sessions k o.session
    admitted := match o.result with
      | .ok () => h.admitted ++ [(k, encodedToken)]
      | .error _ => h.admitted }

/-- One event. -/
def step (h : TokenHost P) : Event P → TokenHost P
  | .authenticateWithToken k encodedToken hostIdentity peer nowMs =>
      h.present k encodedToken hostIdentity peer nowMs
  | .revoke jti => { h with tokens := h.tokens.revoke jti }
  | .pruneExpired expiredJtis => { h with tokens := h.tokens.pruneExpired expiredJtis }

/-- The presentation passes every check of the session it is made to. -/
def Event.Admits (h : TokenHost P) : Event P → Prop
  | .authenticateWithToken k encodedToken hostIdentity peer nowMs =>
      ∃ token, (h.sessions k).TokenAccepts encodedToken hostIdentity h.tokens peer nowMs token
  | .revoke _ => False
  | .pruneExpired _ => False

/-- The presentation is of a token that has established a session before. -/
def Event.Reuses (h : TokenHost P) : Event P → Prop
  | .authenticateWithToken _ encodedToken _ _ _ =>
      ∃ a ∈ h.admitted,
        TokenStore.presentedJti P a.2 = TokenStore.presentedJti P encodedToken
  | .revoke _ => False
  | .pruneExpired _ => False

/-- A token establishes at most one session. -/
def AtMostOnce (h : TokenHost P) : Prop :=
  ∀ a ∈ h.admitted, ∀ b ∈ h.admitted,
    TokenStore.presentedJti P a.2 = TokenStore.presentedJti P b.2 → a.1 = b.1

/-- A token that has established a session is accepted by no one, however it is encoded. -/
def Invalidated (h : TokenHost P) : Prop :=
  ∀ a ∈ h.admitted, ∀ (encodedToken : String) (hostIdentity : Identity)
    (subject : PublicIdentity P) (nowUnix : ℕ) (token : AccessToken),
    TokenStore.presentedJti P encodedToken = TokenStore.presentedJti P a.2 →
      h.tokens.verify encodedToken hostIdentity subject nowUnix ≠ .ok token

/-! ### One presentation -/

section Present

variable {h : TokenHost P} {k : ℕ} {encodedToken : String} {hostIdentity : Identity}
  {peer : PeerCredentials P} {nowMs : ℕ}

@[simp] theorem present_tokens :
    (h.present k encodedToken hostIdentity peer nowMs).tokens = h.tokens := rfl

theorem present_of_admits
    (hacc : (Event.authenticateWithToken k encodedToken hostIdentity peer nowMs).Admits h) :
    ((h.present k encodedToken hostIdentity peer nowMs).sessions k).state = .established ∧
      (h.present k encodedToken hostIdentity peer nowMs).admitted
        = h.admitted ++ [(k, encodedToken)] := by
  obtain ⟨token, hacc⟩ := hacc
  constructor
  · simp only [present, HostSession.authenticateWithToken_of_accepts hacc, Function.update_self]
    rfl
  · simp only [present, HostSession.authenticateWithToken_of_accepts hacc]

theorem present_of_refused
    (hacc : ¬ (Event.authenticateWithToken k encodedToken hostIdentity peer nowMs).Admits h) :
    (h.present k encodedToken hostIdentity peer nowMs).admitted = h.admitted := by
  rcases HostSession.authenticateWithToken_cases (h.sessions k) encodedToken hostIdentity h.tokens
    peer nowMs with hok | ⟨reason, e, -, -, hout⟩ | hout
  · exact absurd hok hacc
  · simp only [present, hout]
  · simp only [present, hout, HostSession.refuse]

end Present

/-- A session that has been established is not waiting for a token. -/
def Spent (h : TokenHost P) : Prop :=
  ∀ a ∈ h.admitted, (h.sessions a.1).state ≠ .awaitingConsent ∧
    (h.sessions a.1).state ≠ .authenticating

/-- A presentation leaves a session that is not waiting for a token as it is. -/
theorem present_sessions_of_spent {h : TokenHost P} {j k : ℕ} {encodedToken : String}
    {hostIdentity : Identity} {peer : PeerCredentials P} {nowMs : ℕ}
    (hj : (h.sessions j).state ≠ .awaitingConsent ∧ (h.sessions j).state ≠ .authenticating) :
    (h.present k encodedToken hostIdentity peer nowMs).sessions j = h.sessions j := by
  by_cases hjk : j = k
  · subst hjk
    have hrefused : (h.sessions j).authenticateWithToken encodedToken hostIdentity h.tokens peer
        nowMs = (h.sessions j).refuse .wrongState := by
      rw [HostSession.authenticateWithToken, if_pos hj]
    simp only [present, hrefused, HostSession.refuse, Function.update_self]
  · exact Function.update_of_ne hjk _ _

theorem spent_step {h : TokenHost P} (hspent : h.Spent) (e : Event P) : (h.step e).Spent := by
  cases e with
  | authenticateWithToken k encodedToken hostIdentity peer nowMs =>
      have hold : ∀ a ∈ h.admitted,
          ((h.present k encodedToken hostIdentity peer nowMs).sessions a.1).state
              ≠ .awaitingConsent ∧
            ((h.present k encodedToken hostIdentity peer nowMs).sessions a.1).state
              ≠ .authenticating := by
        intro a ha
        rw [present_sessions_of_spent (hspent a ha)]
        exact hspent a ha
      by_cases hacc : (Event.authenticateWithToken k encodedToken hostIdentity peer nowMs).Admits h
      · obtain ⟨hstate, hadmitted⟩ := present_of_admits hacc
        intro a ha
        rw [step, hadmitted, List.mem_append, List.mem_singleton] at ha
        rcases ha with ha | rfl
        · exact hold a ha
        · simp [step, hstate]
      · intro a ha
        rw [step, present_of_refused hacc] at ha
        exact hold a ha
  | revoke jti => exact hspent
  | pruneExpired expiredJtis => exact hspent

/-! ### Whole runs -/

/-- **At most one session.**  At every point of a run each token has established one session at
most, exactly when no presentation of the run passes the checks with a token that has established a
session before. -/
theorem atMostOnce_iff (tokens : TokenStore) (sessions : ℕ → HostSession P) (es : List (Event P)) :
    (∀ js, js <+: es → (Machine.run step (new tokens sessions) js).AtMostOnce) ↔
      Machine.Along step (fun h e => ¬ (e.Reuses h ∧ e.Admits h)) (new tokens sessions) es := by
  refine Machine.forall_prefix_iff_along (fun h : TokenHost P => h.Spent ∧ h.AtMostOnce) _
    (fun h hinv => hinv.2) ?_ ?_ ?_ es
  · intro h e hinv hgood
    refine ⟨spent_step hinv.1 e, ?_⟩
    cases e with
    | authenticateWithToken k encodedToken hostIdentity peer nowMs =>
        by_cases hacc :
          (Event.authenticateWithToken k encodedToken hostIdentity peer nowMs).Admits h
        · have hfresh : ∀ a ∈ h.admitted, TokenStore.presentedJti P a.2
              ≠ TokenStore.presentedJti P encodedToken := by
            intro a ha heq
            exact hgood ⟨⟨a, ha, heq⟩, hacc⟩
          intro a ha b hb heq
          rw [step, (present_of_admits hacc).2, List.mem_append, List.mem_singleton] at ha hb
          rcases ha with ha | rfl <;> rcases hb with hb | rfl
          · exact hinv.2 a ha b hb heq
          · exact absurd heq (hfresh a ha)
          · exact absurd heq.symm (hfresh b hb)
          · rfl
        · intro a ha b hb
          rw [step, present_of_refused hacc] at ha hb
          exact hinv.2 a ha b hb
    | revoke jti => exact hinv.2
    | pruneExpired expiredJtis => exact hinv.2
  · intro h e hinv hbad honce
    rw [not_not] at hbad
    obtain ⟨hreuse, hacc⟩ := hbad
    cases e with
    | authenticateWithToken k encodedToken hostIdentity peer nowMs =>
        obtain ⟨a, ha, heq⟩ := hreuse
        rw [step, AtMostOnce, (present_of_admits hacc).2] at honce
        have hak : a.1 = k :=
          honce a (List.mem_append_left _ ha) (k, encodedToken) (by simp) heq
        -- The session that was established then is not waiting for a token now.
        obtain ⟨token, hacc⟩ := hacc
        have hspent := hinv.1 a ha
        rw [hak] at hspent
        exact hacc.state.elim hspent.1 hspent.2
    | revoke jti => exact hreuse
    | pruneExpired expiredJtis => exact hreuse
  · exact ⟨by simp [Spent, new], by simp [AtMostOnce, new]⟩

/-- **No longer accepted.**  At every point of a run the tokens used so far are invalid, exactly
when no token was used: a presentation that passes the checks leaves the store as it was, and the
store accepts the same token again. -/
theorem invalidated_iff (tokens : TokenStore) (sessions : ℕ → HostSession P)
    (es : List (Event P)) :
    (∀ js, js <+: es → (Machine.run step (new tokens sessions) js).Invalidated) ↔
      Machine.Along step (fun h e => ¬ e.Admits h) (new tokens sessions) es := by
  refine Machine.forall_prefix_iff_along (fun h : TokenHost P => h.admitted = []) _ ?_ ?_ ?_ rfl es
  · intro h hnone a ha
    simp [hnone] at ha
  · intro h e hnone hgood
    cases e with
    | authenticateWithToken k encodedToken hostIdentity peer nowMs =>
        exact (present_of_refused hgood).trans hnone
    | revoke jti => exact hnone
    | pruneExpired expiredJtis => exact hnone
  · intro h e hnone hbad hinvalid
    rw [not_not] at hbad
    cases e with
    | authenticateWithToken k encodedToken hostIdentity peer nowMs =>
        have hadmitted := (present_of_admits hbad).2
        obtain ⟨token, hacc⟩ := hbad
        refine hinvalid (k, encodedToken) ?_ encodedToken hostIdentity peer.identity (nowMs / 1000)
          token rfl hacc.verified
        rw [step, hadmitted]
        exact List.mem_append_right _ (List.mem_singleton_self _)
    | revoke jti => exact hbad
    | pruneExpired expiredJtis => exact hbad

/-- **The runs in which tokens rotate.**  A token establishes one session at most exactly in the
runs in which no accepted token is presented again to a session that would accept it, and an
accepted token is invalid from then on exactly in the runs that accept none. -/
theorem rotation_iff (tokens : TokenStore) (sessions : ℕ → HostSession P) (es : List (Event P)) :
    ((∀ js, js <+: es → (Machine.run step (new tokens sessions) js).AtMostOnce) ↔
      Machine.Along step (fun h e => ¬ (e.Reuses h ∧ e.Admits h)) (new tokens sessions) es) ∧
    ((∀ js, js <+: es → (Machine.run step (new tokens sessions) js).Invalidated) ↔
      Machine.Along step (fun h e => ¬ e.Admits h) (new tokens sessions) es) :=
  ⟨atMostOnce_iff tokens sessions es, invalidated_iff tokens sessions es⟩

/-- The token device 1 issued to device 2. -/
def Sample.token : String :=
  (Rda.Sample.token ((Rda.Sample.device 2).toPublic .sample) .viewOnly).encode .sample

/-- Sessions that device 2 has asked for. -/
def Sample.sessions (_ : ℕ) : HostSession .sample :=
  .new .sample "sess_1" ((Rda.Sample.device 2).deviceId .sample) .viewOnly 0

/-- Device 2 presents its token to session `k`. -/
def Sample.present (k : ℕ) : Event .sample :=
  .authenticateWithToken k Sample.token (Rda.Sample.device 1)
    (Rda.Sample.credentials ((Rda.Sample.device 2).toPublic .sample) (Rda.Sample.device 2)) 5000

theorem Sample.admits_present {h : TokenHost .sample} (htokens : h.tokens = .new) {k : ℕ}
    (hk : h.sessions k = Sample.sessions k) : (Sample.present k).Admits h := by
  refine ⟨Rda.Sample.token ((Rda.Sample.device 2).toPublic .sample) .viewOnly, ?_, ?_, ?_⟩
  · exact .inl (by rw [hk]; rfl)
  · rw [htokens]
    exact Rda.Sample.verify_token _ .viewOnly (by decide +kernel) (by decide)
  · rw [hk]
    exact Rda.Sample.verify_credentials _ (Rda.Sample.device 2)

/-- Device 2 presents the same token to two sessions, and both are established. -/
theorem token_reused :
    (Machine.run step (new .new Sample.sessions) [Sample.present 0, Sample.present 1]).admitted
        = [(0, Sample.token), (1, Sample.token)] ∧
      ¬ (Machine.run step (new .new Sample.sessions)
        [Sample.present 0, Sample.present 1]).AtMostOnce ∧
      ¬ (Machine.run step (new .new Sample.sessions) [Sample.present 0]).Invalidated := by
  have hfirst := Sample.admits_present (h := new .new Sample.sessions) (k := 0) rfl rfl
  have hsecond := Sample.admits_present (h := (new .new Sample.sessions).step (Sample.present 0))
    (k := 1) rfl rfl
  have hone : (Machine.run step (new .new Sample.sessions) [Sample.present 0]).admitted
      = [(0, Sample.token)] := (present_of_admits hfirst).2
  have htwo : (Machine.run step (new .new Sample.sessions)
      [Sample.present 0, Sample.present 1]).admitted
      = [(0, Sample.token), (1, Sample.token)] := by
    refine (present_of_admits hsecond).2.trans ?_
    rw [show ((new .new Sample.sessions).step (Sample.present 0)).admitted = [(0, Sample.token)]
      from hone]
    rfl
  refine ⟨htwo, ?_, ?_⟩
  · intro honce
    rw [AtMostOnce, htwo] at honce
    exact absurd (honce (0, Sample.token) (by simp) (1, Sample.token) (by simp) rfl) (by decide)
  · intro hinvalid
    obtain ⟨token, hacc⟩ := hfirst
    rw [Invalidated, hone] at hinvalid
    exact hinvalid (0, Sample.token) (by simp) Sample.token _ _ _ token rfl hacc.verified

end TokenHost

end Rda
