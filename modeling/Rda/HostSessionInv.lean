/-
**What holds of a host session in every state it can reach.**

The operations of `Rda/HostSession.lean` may be called in any order, with any arguments and at any
times.  Every state such a run reaches satisfies `Rda.HostSession.Inv`; between two states of a
run the grant only narrows, and a session that is over stays over (`Rda.HostSession.Later`).  Both
are read off the moves, one case each, and carried over runs by the rules of `Rda/Machine.lean`.

Main definitions:

* `Rda.HostSession.History` — a session with the audit records it has written;
* `Rda.HostSession.Inv`, `Rda.HostSession.Later` — the invariant, and the relation between an
  earlier and a later state;
* `Rda.HostSession.Call.validIn` — the states an operation is meant for.

Main results:

* `Rda.HostSession.inv_move`, `Rda.HostSession.later_move` — one move;
* `Rda.HostSession.inv_run`, `Rda.HostSession.later_run` — whole runs;
* `Rda.HostSession.step_of_wrong_state` — a call in the wrong state is refused;
* `Rda.HostSession.reachable_invariant` — **the invariant of every reachable session**.
-/

import Rda.HostSession
import Rda.Machine

set_option relaxedAutoImplicit false
set_option autoImplicit false

namespace Rda

/-- Whether a session has been closed. -/
def SessionState.isClosed : SessionState → Bool
  | .closed _ => true
  | _ => false

/-- Whether a session has ended, by failure or by closing. -/
def SessionState.isOver : SessionState → Bool
  | .closed _ => true
  | .failed _ => true
  | _ => false

namespace HostSession

variable {P : Primitives}

/-! ### Histories -/

/-- A session with the audit records it has written, oldest first. -/
structure History (P : Primitives) where
  session : HostSession P
  audit : List (ℕ × AuditEvent)

/-- One call, on a history. -/
def History.step (h : History P) (call : Call P) : History P :=
  ⟨(h.session.step call).session, h.audit ++ (h.session.step call).audit⟩

@[simp] theorem History.step_session (h : History P) (call : Call P) :
    (h.step call).session = (h.session.step call).session := rfl

/-- The history a list of calls leads to. -/
def run (s : HostSession P) (calls : List (Call P)) : History P :=
  Machine.run History.step ⟨s, []⟩ calls

/-- How many session ends have been recorded. -/
def History.ended (h : History P) : ℕ := h.audit.countP fun e => e.2.isSessionEnded

/-! ### The invariant -/

/-- What every reachable history satisfies. -/
structure Inv (h : History P) : Prop where
  grant_iff : h.session.grant.isSome = true ↔ h.session.state = .established
  grant_le : ∀ g, h.session.grant = some g → g.caps ≤ h.session.requestedCaps
  consented_le : ∀ c, h.session.consentedCaps = some c → c ≤ h.session.requestedCaps
  pending : h.session.pendingKey.isSome = true → h.session.state = .awaitingConfirmation
  ended : h.ended = if h.session.state.isClosed then 1 else 0

theorem Live.ne_established {s : HostSession P} (h : s.Live) : s.state ≠ .established := by
  rcases h with h | h | h <;> simp [h]

theorem Live.isClosed {s : HostSession P} (h : s.Live) : s.state.isClosed = false := by
  rcases h with h | h | h <;> simp [h, SessionState.isClosed]

theorem Live.isOver {s : HostSession P} (h : s.Live) : s.state.isOver = false := by
  rcases h with h | h | h <;> simp [h, SessionState.isOver]

theorem Inv.grant_of_live {s : HostSession P} {audit : List (ℕ × AuditEvent)}
    (h : Inv ⟨s, audit⟩) (hlive : s.Live) : s.grant = none := by
  cases hg : s.grant with
  | none => rfl
  | some g => exact absurd (h.grant_iff.1 (by simp [hg])) hlive.ne_established

theorem Inv.ended_of_live {s : HostSession P} {audit : List (ℕ × AuditEvent)}
    (h : Inv ⟨s, audit⟩) (hlive : s.Live) : (⟨s, audit⟩ : History P).ended = 0 := by
  rw [h.ended, hlive.isClosed]
  rfl

theorem ended_append (s s' : HostSession P) (audit written : List (ℕ × AuditEvent)) :
    (⟨s', audit ++ written⟩ : History P).ended
      = (⟨s, audit⟩ : History P).ended + written.countP fun e => e.2.isSessionEnded := by
  simp [History.ended, List.countP_append]

/-- A pending key survives a failure or an admission only where there was none. -/
theorem Inv.pending_none {s : HostSession P} {audit : List (ℕ × AuditEvent)}
    (h : Inv ⟨s, audit⟩) {key : Option (Bytes 32)}
    (hkey : key = none ∨ key = s.pendingKey ∧ s.state ≠ .awaitingConfirmation) : key = none := by
  rcases hkey with hkey | ⟨rfl, hne⟩
  · exact hkey
  · cases hp : s.pendingKey with
    | none => rfl
    | some k => exact absurd (h.pending (by simp [hp])) hne

/-- Every move keeps the invariant. -/
theorem inv_move {s s' : HostSession P} {audit written : List (ℕ × AuditEvent)}
    (hmove : Move s s' written) (h : Inv ⟨s, audit⟩) : Inv ⟨s', audit ++ written⟩ := by
  cases hmove with
  | stay => simpa using h
  | fail reason pin key written live forgets unended =>
      have hg := h.grant_of_live live
      have hkey := h.pending_none forgets
      -- Failing writes no end of the session: only `close` does.
      have hcount : written.countP (fun e => e.2.isSessionEnded) = 0 := by
        rw [List.countP_eq_zero]
        intro e he
        simp [unended e he]
      refine ⟨?_, ?_, h.consented_le, ?_, ?_⟩
      · simp [HostSession.fail, hg]
      · simp [HostSession.fail, hg]
      · simp [HostSession.fail, hkey]
      · rw [ended_append s, h.ended_of_live live, hcount]
        rfl
  | consent caps pin state =>
      have hlive : s.Live := .inl state
      have hg := h.grant_of_live hlive
      refine ⟨by simp [hg], by simp [hg], ?_, ?_, ?_⟩
      · intro c hc
        rw [← Option.some.inj hc]
        exact inf_le_left
      · intro hp
        rw [show s.state = .awaitingConfirmation from h.pending hp] at state
        cases state
      · rw [ended_append s, h.ended_of_live hlive]
        rfl
  | pake pin key state =>
      have hlive : s.Live := .inr (.inl state)
      have hg := h.grant_of_live hlive
      refine ⟨by simp [hg], by simp [hg], h.consented_le, by simp, ?_⟩
      rw [ended_append s, h.ended_of_live hlive]
      rfl
  | establish peer caps method nowMs pin key live within forgets =>
      have hkey := h.pending_none forgets
      refine ⟨by simp [HostSession.establish], ?_, h.consented_le, ?_, ?_⟩
      · intro g hg
        rw [← Option.some.inj hg]
        rcases within with hc | hle
        · exact h.consented_le caps hc
        · exact hle
      · simp [HostSession.establish, hkey]
      · rw [ended_append s, h.ended_of_live live]
        rfl
  | narrow grant limit nowMs holds =>
      refine ⟨?_, ?_, h.consented_le, h.pending, ?_⟩
      · have := h.grant_iff
        simpa [holds] using this
      · intro g hg
        rw [← Option.some.inj hg]
        exact (grant.restrict_caps_le limit).trans (h.grant_le grant holds)
      · rw [ended_append s, h.ended]
        rfl
  | close reason nowMs durationMs opened =>
      have hc : s.state.isClosed = false := by
        cases hs : s.state with
        | closed r => exact absurd hs (opened r)
        | _ => rfl
      refine ⟨by simp, by simp, h.consented_le, by simp, ?_⟩
      rw [ended_append s, h.ended, hc]
      rfl

theorem inv_new (sessionId : String) (peerId : DeviceId) (caps : SessionCaps) (nowMs : ℕ) :
    Inv ⟨new P sessionId peerId caps nowMs, []⟩ where
  grant_iff := by simp [new]
  grant_le := by simp [new]
  consented_le := by simp [new]
  pending := by simp [new]
  ended := rfl

theorem inv_step (h : History P) (call : Call P) (hinv : Inv h) : Inv (h.step call) :=
  inv_move (h.session.step_move call) hinv

/-- Every run keeps the invariant. -/
theorem inv_run {h : History P} (hinv : Inv h) (calls : List (Call P)) :
    Inv (Machine.run History.step h calls) :=
  Machine.run_invariant _ inv_step hinv calls

/-! ### Earlier and later -/

/-- What an earlier state of a session says about a later one: the request is the same, a session
that is over stays over, and a grant is narrowed unless the session is over. -/
structure Later (s t : HostSession P) : Prop where
  requested : t.requestedCaps = s.requestedCaps
  isOver : s.state.isOver = true → t.state.isOver = true
  grant : ∀ g, s.grant = some g →
    t.state.isOver = true ∨ ∃ g', t.grant = some g' ∧ g'.caps ≤ g.caps

theorem Later.refl (s : HostSession P) : Later s s :=
  ⟨rfl, id, fun g hg => .inr ⟨g, hg, le_rfl⟩⟩

theorem Later.trans {s t u : HostSession P} (hst : Later s t) (htu : Later t u) : Later s u where
  requested := htu.requested.trans hst.requested
  isOver h := htu.isOver (hst.isOver h)
  grant g hg := by
    rcases hst.grant g hg with h | ⟨g', hg', hle⟩
    · exact .inl (htu.isOver h)
    · rcases htu.grant g' hg' with h | ⟨g'', hg'', hle'⟩
      · exact .inl h
      · exact .inr ⟨g'', hg'', hle'.trans hle⟩

/-- Every move from an invariant state goes to a later one. -/
theorem later_move {s s' : HostSession P} {audit written : List (ℕ × AuditEvent)}
    (hmove : Move s s' written) (h : Inv ⟨s, audit⟩) : Later s s' := by
  cases hmove with
  | stay => exact Later.refl s
  | fail reason pin key written live forgets unended =>
      exact ⟨rfl, fun _ => rfl, fun _ _ => .inl rfl⟩
  | consent caps pin state =>
      have hlive : s.Live := .inl state
      have hg := h.grant_of_live hlive
      refine ⟨rfl, ?_, by simp [hg]⟩
      intro ho
      simp [hlive.isOver] at ho
  | pake pin key state =>
      have hlive : s.Live := .inr (.inl state)
      have hg := h.grant_of_live hlive
      refine ⟨rfl, ?_, by simp [hg]⟩
      intro ho
      simp [hlive.isOver] at ho
  | establish peer caps method nowMs pin key live within forgets =>
      have hg := h.grant_of_live live
      refine ⟨rfl, ?_, by simp [hg]⟩
      intro ho
      simp [live.isOver] at ho
  | narrow grant limit nowMs holds =>
      refine ⟨rfl, id, ?_⟩
      intro g hg
      refine .inr ⟨_, rfl, ?_⟩
      rw [holds, Option.some.injEq] at hg
      exact hg ▸ grant.restrict_caps_le limit
  | close reason nowMs durationMs opened =>
      exact ⟨rfl, fun _ => rfl, fun _ _ => .inl rfl⟩

/-- Every run from an invariant state goes to a later one. -/
theorem later_run {h : History P} (hinv : Inv h) (calls : List (Call P)) :
    Later h.session (Machine.run History.step h calls).session :=
  Machine.run_relates (R := fun a b : History P => Later a.session b.session)
    (fun h => Later.refl h.session) (fun _ _ _ => Later.trans) inv_step
    (fun h call hinv => later_move (h.session.step_move call) hinv) hinv calls

/-! ### Calls in the wrong state -/

/-- The states an operation is meant for. -/
def Call.validIn : Call P → SessionState → Bool
  | .applyConsent .., state => state == .awaitingConsent
  | .beginPinAuth .., state => state == .authenticating
  | .completePinAuth .., state => state == .awaitingConfirmation
  | .authenticateWithToken .., state => state == .awaitingConsent || state == .authenticating
  | .restrict .., state => state == .established
  | .close .., state => !state.isClosed

/-- A call that leaves the session, the audit log and the address book as they were. -/
def Unchanged (s : HostSession P) (call : Call P) : Prop :=
  (s.step call).session = s ∧ (s.step call).audit = [] ∧
    ∀ confirmation peer book nowMs, call = .completePinAuth confirmation peer book nowMs →
      (s.completePinAuth confirmation peer book nowMs).2 = book

/-- A call refused for its state changes nothing. -/
theorem step_of_refused (s : HostSession P) (call : Call P)
    (h : (s.step call).result = .error .wrongState) : Unchanged s call := by
  cases call with
  | applyConsent decision pinValue nowMs =>
      refine ⟨?_, ?_, by simp⟩ <;>
      · simp only [step, applyConsent] at h ⊢
        split_ifs at h ⊢
        · rfl
        · cases h
        · cases decision <;> cases h
  | beginPinAuth scalar message nowMs =>
      refine ⟨?_, ?_, by simp⟩ <;>
      · simp only [step, beginPinAuth] at h ⊢
        split_ifs at h ⊢
        · rfl
        · cases hp : s.pin with
          | none => rfl
          | some verifier =>
              rw [hp] at h
              rcases hr : verifier.respond P scalar message nowMs with ⟨e | r, verifier'⟩
              · simp [hr, Except.map] at h
              · simp [hr, Except.map] at h
  | completePinAuth confirmation peer book nowMs =>
      rcases completePinAuth_cases s confirmation peer book nowMs with
        ⟨caps, key, hacc⟩ | ⟨reason, e, -, hne, hout⟩ | hout
      · rw [step, completePinAuth_of_accepts hacc] at h
        cases h
      · rw [step, hout] at h
        exact absurd (Except.error.inj h) hne
      · refine ⟨by rw [step, hout]; rfl, by rw [step, hout]; rfl, ?_⟩
        rintro _ _ _ _ ⟨⟩
        rw [hout]
  | authenticateWithToken encoded host tokens peer nowMs =>
      rcases authenticateWithToken_cases s encoded host tokens peer nowMs with
        ⟨token, hacc⟩ | ⟨reason, e, -, hne, hout⟩ | hout
      · rw [step, authenticateWithToken_of_accepts hacc] at h
        cases h
      · rw [step, hout] at h
        exact absurd (Except.error.inj h) hne
      · exact ⟨by rw [step, hout]; rfl, by rw [step, hout]; rfl, by simp⟩
  | restrict limit nowMs =>
      simp only [step, restrict] at h
      cases hg : s.grant with
      | none => simp [hg] at h
      | some g => simp [hg] at h
  | close reason nowMs =>
      simp only [step, close] at h
      split at h <;> cases h

/-- A call in the wrong state is refused, or silently ignored where the operation cannot fail, and
changes nothing. -/
theorem step_of_wrong_state {h : History P} (hinv : Inv h) (call : Call P)
    (hcall : call.validIn h.session.state = false) : Unchanged h.session call := by
  cases call with
  | restrict limit nowMs =>
      have hg : h.session.grant = none := by
        cases hg : h.session.grant with
        | none => rfl
        | some g => simp [Call.validIn, hinv.grant_iff.1 (by simp [hg])] at hcall
      refine ⟨?_, ?_, by simp⟩ <;> simp [step, restrict, hg]
  | close reason nowMs =>
      cases hs : h.session.state with
      | closed r => refine ⟨?_, ?_, by simp⟩ <;> simp [step, close, hs]
      | _ => simp [Call.validIn, hs, SessionState.isClosed] at hcall
  | applyConsent decision pinValue nowMs =>
      refine step_of_refused _ _ ?_
      have hs : h.session.state ≠ .awaitingConsent := by simpa [Call.validIn] using hcall
      simp [step, applyConsent, hs, refuse]
  | beginPinAuth scalar message nowMs =>
      refine step_of_refused _ _ ?_
      have hs : h.session.state ≠ .authenticating := by simpa [Call.validIn] using hcall
      simp [step, beginPinAuth, hs, refuse, Except.map]
  | completePinAuth confirmation peer book nowMs =>
      refine step_of_refused _ _ ?_
      have hs : h.session.state ≠ .awaitingConfirmation := by simpa [Call.validIn] using hcall
      simp [step, completePinAuth, hs, refuse]
  | authenticateWithToken encoded host tokens peer nowMs =>
      refine step_of_refused _ _ ?_
      have hs : h.session.state ≠ .awaitingConsent ∧ h.session.state ≠ .authenticating := by
        simpa [Call.validIn] using hcall
      simp [step, authenticateWithToken, hs, refuse]

/-! ### Every reachable session -/

/-- A session that is over never has a grant again. -/
theorem Inv.of_over {h : History P} (hinv : Inv h) (hover : h.session.state.isOver = true)
    (calls : List (Call P)) :
    (Machine.run History.step h calls).session.state ≠ .established ∧
      (Machine.run History.step h calls).session.grant = none := by
  have hne : (Machine.run History.step h calls).session.state ≠ .established := by
    intro he
    have := (later_run hinv calls).isOver hover
    rw [he] at this
    cases this
  refine ⟨hne, ?_⟩
  cases hg : (Machine.run History.step h calls).session.grant with
  | none => rfl
  | some g => exact absurd ((inv_run hinv calls).grant_iff.1 (by simp [hg])) hne

/-- A grant never grows. -/
theorem Inv.grant_narrows {h : History P} (hinv : Inv h) (calls : List (Call P))
    {g g' : SessionGrant} (hg : h.session.grant = some g)
    (hg' : (Machine.run History.step h calls).session.grant = some g') : g'.caps ≤ g.caps := by
  rcases (later_run hinv calls).grant g hg with hover | ⟨g'', hg'', hle⟩
  · have hnone := ((inv_run hinv calls).of_over hover []).2
    rw [Machine.run_nil, hg'] at hnone
    cases hnone
  · rw [hg', Option.some.injEq] at hg''
    exact hg'' ▸ hle

/-- **The invariant of every reachable session.**  After any calls, with any arguments and at any
times: there is a grant exactly when the session is established; the grant stays within the
request and never grows; a key is pending only while its confirmation is awaited; a session that
failed or was closed never comes back; a call in the wrong state changes nothing; and the end of
the session is recorded at most once. -/
theorem reachable_invariant (sessionId : String) (peerId : DeviceId) (caps : SessionCaps)
    (nowMs : ℕ) (calls : List (Call P)) :
    let h := run (new P sessionId peerId caps nowMs) calls
    (h.session.grant.isSome = true ↔ h.session.state = .established) ∧
      h.session.requestedCaps = caps ∧
      (∀ g, h.session.grant = some g → g.caps ≤ caps) ∧
      (∀ more g g', h.session.grant = some g →
        (Machine.run History.step h more).session.grant = some g' → g'.caps ≤ g.caps) ∧
      (h.session.pendingKey.isSome = true → h.session.state = .awaitingConfirmation) ∧
      (h.session.state.isOver = true → ∀ more,
        (Machine.run History.step h more).session.state ≠ .established ∧
          (Machine.run History.step h more).session.grant = none) ∧
      (∀ call : Call P, call.validIn h.session.state = false ∨
        (h.session.step call).result = .error .wrongState → Unchanged h.session call) ∧
      h.ended ≤ 1 := by
  intro h
  have hnew : Inv ⟨new P sessionId peerId caps nowMs, []⟩ := inv_new sessionId peerId caps nowMs
  have hinv : Inv h := inv_run hnew calls
  have hreq : h.session.requestedCaps = caps := (later_run hnew calls).requested
  refine ⟨hinv.grant_iff, hreq, fun g hg => hreq ▸ hinv.grant_le g hg,
    fun more g g' => hinv.grant_narrows more, hinv.pending, fun hover => hinv.of_over hover, ?_,
    ?_⟩
  · rintro call (hcall | hcall)
    · exact step_of_wrong_state hinv call hcall
    · exact step_of_refused h.session call hcall
  · rw [hinv.ended]
    split_ifs <;> omega

end HostSession

end Rda
