/-
**How many guesses a session PIN allows.**

The verifier counts an attempt before it does any cryptography and refuses a PIN that has used up
its attempts, has been spent or is too old.  The host session above it is stricter: the PAKE round
takes it out of the one state in which it answers, whether the round succeeds or not, and a wrong
confirmation fails it.  A session that failed can still be closed; nothing else changes it.

Main definitions:

* `Rda.PinVerifier.Guesses` — a verifier with the times at which it ran an exchange, as its answers
  tell;
* `Rda.HostSession.pakeResponses` — how many PAKE responses a run produces;
* `Rda.HostSession.WrongConfirmation` — the call that presents a confirmation for another key.

Main results:

* `Rda.PinVerifier.Guesses.inv_run` — the exchanges are counted, in time and before the PIN is
  spent;
* `Rda.HostSession.pakeResponses_le_one` — a session answers once;
* `Rda.HostSession.failed_run` — a failed session stays failed until it is closed;
* `Rda.HostSession.pin_attempt_cap` — **the cap on guesses**.
-/

import Rda.HostSessionBook

set_option relaxedAutoImplicit false
set_option autoImplicit false

namespace Rda

variable {P : Primitives}

/-! ### The verifier -/

namespace PinVerifier

/-- A call of a verifier. -/
inductive PinCall where
  | respond (scalar : ℕ) (peerMessage : List UInt8) (nowMs : ℕ)
  | consume

/-- A verifier, with the times at which it ran a PAKE exchange. -/
structure Guesses where
  verifier : PinVerifier
  exchanges : List ℕ := []

/-- Whether an answer of `respond` is one that comes out of an exchange: its messages and key, or
its failure.  The other answers are given instead of one. -/
def ranExchange : Except PakeError (List UInt8 × Bytes 32) → Bool
  | .ok _ => true
  | .error e => e == .failed

/-- A verifier answers a call; the exchanges are told from what it answers. -/
def Guesses.step (P : Primitives) (x : Guesses) : PinCall → Guesses
  | .respond scalar peerMessage nowMs =>
      let (answer, verifier) := x.verifier.respond P scalar peerMessage nowMs
      ⟨verifier, if ranExchange answer then x.exchanges ++ [nowMs] else x.exchanges⟩
  | .consume => { x with verifier := x.verifier.consume }

/-- The verifier of a session with a fresh PIN. -/
def Guesses.fresh (sessionId : String) (pinValue : Fin 1000000) (issuedMs : ℕ) : Guesses :=
  ⟨⟨sessionId, SessionPin.generate pinValue issuedMs⟩, []⟩

section Answers

variable (P) {v : PinVerifier} {nowMs : ℕ} (scalar : ℕ) (peerMessage : List UInt8)

/-- A PIN that is not usable runs no exchange and is left as it was. -/
theorem respond_unusable (h : v.pin.isUsable nowMs = false) :
    (v.respond P scalar peerMessage nowMs).2 = v ∧
      ranExchange (v.respond P scalar peerMessage nowMs).1 = false := by
  rw [respond, if_pos (by simp [h])]
  refine ⟨rfl, ?_⟩
  split <;> rfl

/-- An exchange counts one attempt, whether it yields a key or not. -/
theorem respond_usable (h : v.pin.isUsable nowMs = true) :
    (v.respond P scalar peerMessage nowMs).2
        = { v with pin := { v.pin with attempts := v.pin.attempts + 1 } } ∧
      ranExchange (v.respond P scalar peerMessage nowMs).1 = true := by
  simp only [respond, h, Bool.not_true, Bool.false_eq_true, if_false, pakeKey]
  split <;> rename_i hkey
  · -- The only failure of the exchange itself.
    split at hkey
    · cases hkey
    · cases hkey
      exact ⟨rfl, rfl⟩
  · exact ⟨rfl, rfl⟩

end Answers

theorem isUsable_iff {pin : SessionPin} {nowMs : ℕ} :
    pin.isUsable nowMs = true ↔
      pin.consumed = false ∧ pin.attempts < MAX_PIN_ATTEMPTS ∧
        nowMs - pin.issuedMs ≤ PIN_TTL_MS := by
  simp [SessionPin.isUsable, and_assoc]

/-- Every exchange is an attempt, there are at most as many as allowed, and none comes too late. -/
structure Guesses.Inv (issuedMs : ℕ) (x : Guesses) : Prop where
  issued : x.verifier.pin.issuedMs = issuedMs
  counted : x.verifier.pin.attempts = x.exchanges.length
  capped : x.exchanges.length ≤ MAX_PIN_ATTEMPTS
  in_time : ∀ t ∈ x.exchanges, t ≤ issuedMs + PIN_TTL_MS

theorem Guesses.inv_step {issuedMs : ℕ} (x : Guesses) (call : PinCall) (h : Inv issuedMs x) :
    Inv issuedMs (x.step P call) := by
  cases call with
  | consume => exact ⟨h.issued, h.counted, h.capped, h.in_time⟩
  | respond scalar peerMessage nowMs =>
      cases husable : x.verifier.pin.isUsable nowMs with
      | false =>
          obtain ⟨hsame, hnone⟩ := respond_unusable P scalar peerMessage husable
          simp only [step, hsame, hnone, Bool.false_eq_true, if_false]
          exact h
      | true =>
          obtain ⟨-, hattempts, htime⟩ := isUsable_iff.1 husable
          rw [h.counted] at hattempts
          rw [h.issued] at htime
          obtain ⟨hcount, hran⟩ := respond_usable P scalar peerMessage husable
          simp only [step, hcount, hran, if_true]
          refine ⟨h.issued, ?_, ?_, ?_⟩
          · simp [h.counted]
          · rw [List.length_append]
            exact hattempts
          · intro t ht
            rcases List.mem_append.1 ht with ht | ht
            · exact h.in_time t ht
            · rw [List.mem_singleton.1 ht]
              omega

/-- Every run of a fresh verifier. -/
theorem Guesses.inv_run (P : Primitives) (sessionId : String) (pinValue : Fin 1000000)
    (issuedMs : ℕ) (calls : List PinCall) :
    Inv issuedMs (Machine.run (step P) (fresh sessionId pinValue issuedMs) calls) := by
  have hfresh : Inv issuedMs (fresh sessionId pinValue issuedMs) :=
    ⟨rfl, rfl, Nat.zero_le _, fun _ ht => absurd ht List.not_mem_nil⟩
  exact Machine.run_invariant _ inv_step hfresh calls

/-- A spent PIN stays spent and runs no exchange. -/
theorem Guesses.run_of_consumed {x : Guesses} (h : x.verifier.pin.consumed = true)
    (calls : List PinCall) : (Machine.run (step P) x calls).exchanges = x.exchanges := by
  induction calls generalizing x with
  | nil => rfl
  | cons call calls ih =>
      rw [Machine.run_cons]
      cases call with
      | consume => exact ih rfl
      | respond scalar peerMessage nowMs =>
          have husable : x.verifier.pin.isUsable nowMs = false := by simp [SessionPin.isUsable, h]
          obtain ⟨hsame, hnone⟩ := respond_unusable P scalar peerMessage husable
          simp only [step, hsame, hnone, Bool.false_eq_true, if_false]
          exact ih h

end PinVerifier

/-! ### The session -/

namespace HostSession

/-- The call produces a PAKE response. -/
def answersPake (s : HostSession P) : Call P → Bool
  | .beginPinAuth scalar message nowMs =>
      match (s.beginPinAuth scalar message nowMs).result with
      | .ok _ => true
      | .error _ => false
  | _ => false

/-- How many PAKE responses the calls produce. -/
def pakeResponses : HostSession P → List (Call P) → ℕ
  | _, [] => 0
  | s, call :: calls =>
      (if s.answersPake call then 1 else 0) + pakeResponses (s.step call).session calls

/-- The states before the PAKE round. -/
def BeforePake (s : HostSession P) : Prop :=
  s.state = .awaitingConsent ∨ s.state = .authenticating

/-- A session that has left the states before the PAKE round never returns to them. -/
theorem not_beforePake_move {s s' : HostSession P} {written : List (ℕ × AuditEvent)}
    (hmove : Move s s' written) (h : ¬ s.BeforePake) : ¬ s'.BeforePake := by
  cases hmove with
  | stay => exact h
  | fail reason pin key written live forgets unended => simp [BeforePake, HostSession.fail]
  | consent caps pin state => exact absurd (.inl state) h
  | pake pin key state => exact absurd (.inr state) h
  | establish peer caps method nowMs pin key live within forgets =>
      simp [BeforePake, HostSession.establish]
  | narrow grant limit nowMs holds => exact h
  | close reason nowMs durationMs opened => simp [BeforePake]

/-- A PAKE response is only produced before the round, and takes the session out of it. -/
theorem answersPake_step {s : HostSession P} {call : Call P} (h : s.answersPake call = true) :
    s.BeforePake ∧ ¬ (s.step call).session.BeforePake := by
  cases call with
  | beginPinAuth scalar message nowMs =>
      simp only [answersPake, beginPinAuth] at h
      simp only [step, beginPinAuth]
      by_cases hstate : s.state = .authenticating
      · rw [if_neg (not_not.2 hstate)] at h ⊢
        cases hpin : s.pin with
        | none => simp [hpin, refuse] at h
        | some verifier =>
            rcases hr : verifier.respond P scalar message nowMs with ⟨e | ⟨ours, key⟩, verifier'⟩
            · simp [hpin, hr] at h
            · simp only [hr]
              exact ⟨.inr hstate, by simp [BeforePake]⟩
      · simp [hstate, refuse] at h
  | _ => simp [answersPake] at h

/-- After the round no response is produced. -/
theorem pakeResponses_eq_zero {s : HostSession P} (h : ¬ s.BeforePake) (calls : List (Call P)) :
    s.pakeResponses calls = 0 := by
  induction calls generalizing s with
  | nil => rfl
  | cons call calls ih =>
      have hno : s.answersPake call = false :=
        Bool.eq_false_iff.2 fun hyes => h (answersPake_step hyes).1
      simp only [pakeResponses, hno, Bool.false_eq_true, if_false, Nat.zero_add]
      exact ih (not_beforePake_move (s.step_move call) h)

/-- **A session answers at most once.** -/
theorem pakeResponses_le_one (s : HostSession P) (calls : List (Call P)) :
    s.pakeResponses calls ≤ 1 := by
  induction calls generalizing s with
  | nil => exact Nat.zero_le 1
  | cons call calls ih =>
      cases hanswers : s.answersPake call with
      | true =>
          rw [pakeResponses, pakeResponses_eq_zero (answersPake_step hanswers).2]
          simp [hanswers]
      | false =>
          simp only [pakeResponses, hanswers, Bool.false_eq_true, if_false, Nat.zero_add]
          exact ih _

/-! ### A wrong confirmation -/

/-- A session that has been allowed has its consent, and one that awaits a confirmation has a key
to compare it with. -/
structure Ready (s : HostSession P) : Prop where
  authenticating : s.state = .authenticating → s.consentedCaps ≠ none
  awaiting : s.state = .awaitingConfirmation → s.consentedCaps ≠ none ∧ s.pendingKey ≠ none

theorem ready_move {s s' : HostSession P} {written : List (ℕ × AuditEvent)}
    (hmove : Move s s' written) (h : s.Ready) : s'.Ready := by
  cases hmove with
  | stay => exact h
  | fail reason pin key written live forgets unended =>
      exact ⟨by simp [HostSession.fail], by simp [HostSession.fail]⟩
  | consent caps pin state => exact ⟨by simp, by simp⟩
  | pake pin key state => exact ⟨by simp, fun _ => ⟨h.authenticating state, by simp⟩⟩
  | establish peer caps method nowMs pin key live within forgets =>
      exact ⟨by simp [HostSession.establish], by simp [HostSession.establish]⟩
  | narrow grant limit nowMs holds => exact ⟨h.authenticating, h.awaiting⟩
  | close reason nowMs durationMs opened => exact ⟨by simp, by simp⟩

/-- Every reachable session is ready. -/
theorem ready_run {s : HostSession P} (h : s.Ready) (calls : List (Call P)) :
    (run s calls).session.Ready :=
  Machine.run_invariant (fun h : History P => h.session.Ready)
    (fun h call hready => ready_move (h.session.step_move call) hready)
    (s := ⟨s, []⟩) h calls

theorem ready_new (sessionId : String) (peerId : DeviceId) (caps : SessionCaps) (nowMs : ℕ) :
    (new P sessionId peerId caps nowMs).Ready := ⟨by simp [new], by simp [new]⟩

/-- A confirmation that was not made with the key that is pending. -/
def WrongConfirmation (s : HostSession P) (confirmation : Bytes 32) : Prop :=
  s.state = .awaitingConfirmation ∧
    ∀ key, s.pendingKey = some key → confirm P key "controller" s.sessionId ≠ confirmation

/-- A wrong confirmation fails the session. -/
theorem WrongConfirmation.step {s : HostSession P} {confirmation : Bytes 32}
    (h : s.WrongConfirmation confirmation) (hready : s.Ready) (peer : PeerCredentials P)
    (book : AddressBook) (nowMs : ℕ) :
    (s.step (.completePinAuth confirmation peer book nowMs)).session.state
      = .failed "PIN confirmation failed" := by
  obtain ⟨hstate, hwrong⟩ := h
  obtain ⟨hcaps, hkey⟩ := hready.awaiting hstate
  obtain ⟨caps, hcaps⟩ := Option.ne_none_iff_exists'.1 hcaps
  obtain ⟨key, hkey⟩ := Option.ne_none_iff_exists'.1 hkey
  have hno : confirmMatches (confirm P key "controller" s.sessionId) confirmation = false :=
    Bool.eq_false_iff.2 (mt confirmMatches_iff.1 (hwrong key hkey))
  simp only [HostSession.step, completePinAuth, hstate, hcaps, hkey, pinChecks, hno, ne_eq,
    not_true_eq_false, if_false, Bool.not_false, if_true]
  rfl

/-- A session that is over is only changed by closing it, and then only if it was not closed. -/
theorem step_of_over {h : History P} (hinv : Inv h) (hover : h.session.state.isOver = true)
    (call : Call P) :
    (h.session.step call).session = h.session ∨
      h.session.state.isClosed = false ∧ ∃ reason nowMs, call = .close reason nowMs ∧
        (h.session.step call).session.state = .closed reason := by
  cases hvalid : call.validIn h.session.state with
  | false => exact .inl (step_of_wrong_state hinv call hvalid).1
  | true =>
      cases call with
      | close reason nowMs =>
          have hopen : h.session.state.isClosed = false := by simpa [Call.validIn] using hvalid
          refine .inr ⟨hopen, reason, nowMs, rfl, ?_⟩
          cases hs : h.session.state with
          | closed r => simp [hs, SessionState.isClosed] at hopen
          | _ => simp [step, close, hs]
      | _ =>
          cases hs : h.session.state with
          | closed r => simp [Call.validIn, hs] at hvalid
          | failed r => simp [Call.validIn, hs] at hvalid
          | _ => simp [SessionState.isOver, hs] at hover

/-- A closed session stays as it is. -/
theorem closed_run {h : History P} (hinv : Inv h) {reason : String}
    (hclosed : h.session.state = .closed reason) (calls : List (Call P)) :
    (Machine.run History.step h calls).session.state = .closed reason := by
  induction calls generalizing h with
  | nil => exact hclosed
  | cons call calls ih =>
      have hover : h.session.state.isOver = true := by rw [hclosed]; rfl
      rcases step_of_over hinv hover call with hsame | ⟨hopen, -⟩
      · exact ih (inv_step h call hinv) (by rw [History.step_session, hsame, hclosed])
      · rw [hclosed] at hopen
        cases hopen

/-- **A failed session stays failed until it is closed.** -/
theorem failed_run {h : History P} (hinv : Inv h) {reason : String}
    (hfailed : h.session.state = .failed reason) (calls : List (Call P)) :
    (Machine.run History.step h calls).session.state = .failed reason ∨
      ∃ closing nowMs, .close closing nowMs ∈ calls ∧
        (Machine.run History.step h calls).session.state = .closed closing := by
  induction calls generalizing h with
  | nil => exact .inl hfailed
  | cons call calls ih =>
      have hover : h.session.state.isOver = true := by rw [hfailed]; rfl
      have hinv' := inv_step h call hinv
      rcases step_of_over hinv hover call with hsame | ⟨-, closing, nowMs, rfl, hclosed⟩
      · rcases ih hinv' (by rw [History.step_session, hsame, hfailed]) with hstill | hclosed
        · exact .inl hstill
        · obtain ⟨closing, nowMs, hmem, hclosed⟩ := hclosed
          exact .inr ⟨closing, nowMs, List.mem_cons_of_mem _ hmem, hclosed⟩
      · exact .inr ⟨closing, nowMs, List.mem_cons_self, closed_run hinv' hclosed calls⟩

/-- **The cap on guesses.**  A verifier runs at most three exchanges, none later than the lifetime
of the PIN and none once the PIN is spent; a session produces at most one PAKE response, and after a
wrong confirmation it is failed until it is closed and never has a grant. -/
theorem pin_attempt_cap (P : Primitives) (sessionId : String) :
    (∀ (pinValue : Fin 1000000) (issuedMs : ℕ) (calls : List PinVerifier.PinCall),
      let x := Machine.run (PinVerifier.Guesses.step P) (.fresh sessionId pinValue issuedMs) calls
      x.exchanges.length ≤ MAX_PIN_ATTEMPTS ∧
      (∀ t ∈ x.exchanges, t ≤ issuedMs + PIN_TTL_MS) ∧
      ∀ js ks, calls = js ++ .consume :: ks →
        x.exchanges = (Machine.run (PinVerifier.Guesses.step P)
          (.fresh sessionId pinValue issuedMs) js).exchanges) ∧
    ∀ (peerId : DeviceId) (caps : SessionCaps) (startedMs : ℕ) (calls : List (Call P)),
      pakeResponses (new P sessionId peerId caps startedMs) calls ≤ 1 ∧
      ∀ js confirmation peer book nowMs ks,
        calls = js ++ .completePinAuth confirmation peer book nowMs :: ks →
        (run (new P sessionId peerId caps startedMs) js).session.WrongConfirmation confirmation →
        let t := (run (new P sessionId peerId caps startedMs) calls).session
        (t.state = .failed "PIN confirmation failed" ∨
          ∃ reason closedMs, .close reason closedMs ∈ ks ∧ t.state = .closed reason) ∧
        t.grant = none := by
  refine ⟨?_, ?_⟩
  · intro pinValue issuedMs calls x
    have hinv : PinVerifier.Guesses.Inv issuedMs x :=
      PinVerifier.Guesses.inv_run P sessionId pinValue issuedMs calls
    refine ⟨hinv.capped, hinv.in_time, ?_⟩
    intro js ks hcalls
    simp only [x, hcalls, Machine.run_append, Machine.run_cons]
    exact PinVerifier.Guesses.run_of_consumed rfl ks
  · intro peerId caps startedMs calls
    refine ⟨pakeResponses_le_one _ calls, ?_⟩
    intro js confirmation peer book nowMs ks hcalls hwrong t
    have hinv := inv_run (inv_new (P := P) sessionId peerId caps startedMs) js
    have hready := ready_run (ready_new (P := P) sessionId peerId caps startedMs) js
    have hfailed := hwrong.step hready peer book nowMs
    have hinv' := inv_step _ (.completePinAuth confirmation peer book nowMs) hinv
    have ht : t = (Machine.run History.step ((run (new P sessionId peerId caps startedMs) js).step
        (.completePinAuth confirmation peer book nowMs)) ks).session := by
      simp only [t, hcalls, run, Machine.run_append, Machine.run_cons]
    have hover : ((run (new P sessionId peerId caps startedMs) js).step
        (.completePinAuth confirmation peer book nowMs)).session.state.isOver = true := by
      rw [History.step_session, hfailed]
      rfl
    rw [ht]
    exact ⟨failed_run hinv' hfailed ks, (hinv'.of_over hover ks).2⟩

/-- A session that failed by a wrong confirmation is closed, and is then no longer in `failed`. -/
theorem failed_then_closed :
    let o := Sample.awaitingConfirmation.completePinAuth (Sample.bytes 32 0)
      (Sample.credentials ((Sample.device 2).toPublic .sample) (Sample.device 2)) .new 3000
    confirm .sample Sample.pinKey "controller" "sess_1" ≠ Sample.bytes 32 0 ∧
      Sample.awaitingConfirmation.pendingKey = some Sample.pinKey ∧
      o.1.session.state = .failed "PIN confirmation failed" ∧
      (o.1.session.close "bye" 4000).session.state = .closed "bye" := by
  refine ⟨by decide +kernel, by decide +kernel, by decide +kernel, by decide +kernel⟩

end HostSession

end Rda
