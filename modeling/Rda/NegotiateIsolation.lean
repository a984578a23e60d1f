/-
**Envelopes of other sessions.**

A signaling connection is used for one session after another, and what is left of an earlier one is
still in its inbox when the next one is negotiated.  Neither the wait of the controller nor the pump
looks at the session id of an envelope, so that the leftovers are acted upon as if they were of this
session.

To say what an envelope changes, a run is compared with the run on what is left when the envelopes
of other sessions have not arrived: a round of the wait that such an envelope ended does not take
place, and a turn of the pump that such an envelope ended is ended by something the pump ignores.

Main definitions:

* `Rda.Envelope.foreign` — an envelope of another session;
* `Rda.Dialling.Input.without` — what is left of an input without such an envelope;
* `Rda.Dialling.Isolated` — the two runs agree at every point;
* `Rda.Dialling.Interferes` — an envelope of another session is acted upon.

Main results:

* `Rda.Dialling.isolated_iff` — **a negotiation is isolated** exactly when no envelope of another
  session is acted upon.
-/

import Rda.Dial

set_option relaxedAutoImplicit false
set_option autoImplicit false

namespace Rda

/-! ### The log of what was taken -/

namespace Pump

/-- The pump with another log of the envelopes it has taken. -/
def withInbox (inbox : List Envelope) (p : Pump) : Pump := { p with inbox := inbox }

end Pump

section Blind

open Program (Blind)

variable {config : PumpConfig} {t : Turn} {x : List Envelope}

theorem blind_sendSignal (result : Except String Unit) (message : Message) :
    Blind (Pump.withInbox x) (sendSignal config result message) := by
  intro p
  cases result with
  | ok u => rfl
  | error e => rfl

theorem blind_checkChannels : Blind (Pump.withInbox x) (checkChannels t) := by
  intro p
  have hsame : (p.withInbox x).connectedAt = p.connectedAt := rfl
  simp only [EStateM.run, checkChannels, hsame]
  cases p.connectedAt with
  | none => rfl
  | some since =>
      by_cases h : t.elapsedAt - since ≥ CHANNEL_OPEN_TIMEOUT_MS ∧ t.unopenedAtTimeout ≠ []
      · simp only [if_pos h]
        rfl
      · simp only [if_neg h]
        rfl

theorem blind_announceReadiness : Blind (Pump.withInbox x) (announceReadiness config t) := by
  intro p
  have hrun : ∀ p : Pump, (announceReadiness config t).run p
      = if p.allOpen && !p.announcedReady then
          (sendSignal config t.readySend .channelsReady).run { p with announcedReady := true }
        else .ok () p := fun _ => rfl
  have hsame : ((p.withInbox x).allOpen && !(p.withInbox x).announcedReady)
      = (p.allOpen && !p.announcedReady) := rfl
  rw [hrun, hrun, hsame]
  by_cases h : (p.allOpen && !p.announcedReady) = true
  · rw [if_pos h, if_pos h]
    exact blind_sendSignal t.readySend .channelsReady { p with announcedReady := true }
  · rw [if_neg h, if_neg h]
    rfl

theorem blind_checkDeadline : Blind (Pump.withInbox x) (checkDeadline config t) := by
  intro p
  by_cases h : t.deadlineAt ≥ config.deadline
  · simp only [EStateM.run, checkDeadline, if_pos h]
    rfl
  · simp only [EStateM.run, checkDeadline, if_neg h]
    rfl

theorem blind_acceptOffer (sdp : String) : Blind (Pump.withInbox x) (acceptOffer t sdp) := by
  intro p
  simp only [EStateM.run, acceptOffer]
  cases t.acceptOffer with
  | ok answer => rfl
  | error e => rfl

theorem blind_acceptAnswer (sdp : String) : Blind (Pump.withInbox x) (acceptAnswer t sdp) := by
  intro p
  simp only [EStateM.run, acceptAnswer]
  cases t.acceptAnswer with
  | ok u => rfl
  | error e => rfl

theorem blind_onMessage (message : Message) :
    Blind (Pump.withInbox x) (onMessage config t message) := by
  cases message with
  | offer sdp =>
      unfold onMessage
      split_ifs
      · obtain ⟨_ | sdp⟩ := sdp
        · exact .pure _
        · exact .bind (blind_acceptOffer sdp) fun answer => .bind (blind_sendSignal _ _) fun _ =>
            .modify fun _ => rfl
      · exact .pure _
  | answer sdp =>
      unfold onMessage
      split_ifs
      · exact .pure _
      · obtain ⟨_ | sdp⟩ := sdp
        · exact .pure _
        · exact .bind (blind_acceptAnswer sdp) fun _ => .modify fun _ => rfl
  | iceCandidate c =>
      refine .modify fun p => ?_
      have hsame : (p.withInbox x).remoteDescribed = p.remoteDescribed := rfl
      rw [Pump.candidate, Pump.candidate, hsame]
      by_cases h : p.remoteDescribed = true
      · rw [if_pos h, if_pos h]
        rfl
      · rw [if_neg h, if_neg h]
        rfl
  | channelsReady => exact .modify fun _ => rfl
  | peerGone => exact .throw _
  | _ => exact .pure _

theorem blind_onEvent (event : TransportEvent) :
    Blind (Pump.withInbox x) (onEvent config t event) := by
  cases event with
  | localCandidate c => exact blind_sendSignal _ _
  | channelOpen channel => exact .modify fun _ => rfl
  | frame channel frame => exact .modify fun _ => rfl
  | closed => exact .throw _
  | connectionState state =>
      cases state with
      | connected => exact .modify fun _ => rfl
      | failed => exact .throw _
      | _ => exact .pure _
  | _ => exact .pure _

theorem blind_onTick : Blind (Pump.withInbox x) (onTick t) := by
  refine .modify fun p => ?_
  have hsame : (p.withInbox x).connected = p.connected := rfl
  rw [hsame]
  by_cases h : p.connected = true
  · rw [if_pos h, if_pos h]
    rfl
  · rw [if_neg h, if_neg h]

end Blind

/-! ### A turn without its envelope -/

/-- The part of a turn before its arm. -/
def head (config : PumpConfig) (t : Turn) : Negotiate Unit := do
  checkChannels t
  announceReadiness config t
  checkDeadline config t

/-- The turn, ended by an event that the pump ignores. -/
def Turn.quiet (t : Turn) : Turn := { t with arm := .event (some .gatheringComplete) }

/-- What the pump does something about, given whether the peer is known to be ready. -/
def ActsOn (config : PumpConfig) (peerReady : Bool) : Message → Prop
  | .offer sdp => config.expectOffer = true ∧ sdp.sdp ≠ none
  | .answer sdp => config.expectOffer = false ∧ sdp.sdp ≠ none
  | .iceCandidate _ => True
  | .channelsReady => peerReady = false
  | .peerGone => True
  | _ => False

section Turns

variable {config : PumpConfig} {t : Turn} {p p' : Pump}

theorem turn_eq_head_bind (config : PumpConfig) (t : Turn) :
    turn config t = head config t >>= fun _ => select config t := by
  simp only [turn, head, bind_assoc]

theorem run_head_eq_ok_iff {u : Unit} :
    (head config t).run p = .ok u p' ↔ t.Proceeds config p ∧ p' = p.announce config := by
  simp only [head, Program.run_bind_eq_ok_iff, run_checkChannels_eq_ok_iff,
    run_announceReadiness_eq_ok_iff, run_checkDeadline_eq_ok_iff]
  constructor
  · rintro ⟨-, p₁, ⟨hch, rfl⟩, -, p₂, ⟨hready, rfl⟩, hdl, rfl⟩
    exact ⟨⟨hch, hready, hdl⟩, rfl⟩
  · rintro ⟨⟨hch, hready, hdl⟩, rfl⟩
    exact ⟨(), p, ⟨hch, rfl⟩, (), _, ⟨hready, rfl⟩, hdl, rfl⟩

theorem run_turn_of_proceeds (h : t.Proceeds config p) :
    (turn config t).run p = (select config t).run (p.announce config) := by
  have hhead : (head config t).run p = .ok () (p.announce config) :=
    run_head_eq_ok_iff.2 ⟨h, rfl⟩
  rw [turn_eq_head_bind, Program.run_bind_of_ok hhead]

/-- A turn that does not get to its arm fails, whatever the arm is. -/
theorem run_turn_of_not_proceeds (h : ¬ t.Proceeds config p) :
    ∃ e q, (turn config t).run p = .error e q ∧ (turn config t.quiet).run p = .error e q := by
  cases hhead : (head config t).run p with
  | ok u q => exact absurd (run_head_eq_ok_iff.1 hhead).1 h
  | error e q =>
      have hquiet : (head config t.quiet).run p = .error e q := hhead
      refine ⟨e, q, ?_, ?_⟩
      · rw [turn_eq_head_bind, Program.run_bind_of_error hhead]
      · rw [turn_eq_head_bind, Program.run_bind_of_error hquiet]

theorem blind_head {x : List Envelope} : Program.Blind (Pump.withInbox x) (head config t) :=
  .bind blind_checkChannels fun _ => .bind blind_announceReadiness fun _ => blind_checkDeadline

/-- The log of what was taken is written and never read. -/
theorem run_turn_withInbox (config : PumpConfig) (t : Turn) (p : Pump) (x : List Envelope) :
    ∃ y, (turn config t).run (p.withInbox x)
      = Program.onState (Pump.withInbox y) ((turn config t).run p) := by
  rw [turn_eq_head_bind, EStateM.run_bind, EStateM.run_bind, blind_head p]
  cases (head config t).run p with
  | error e q => exact ⟨x, rfl⟩
  | ok u q =>
      change ∃ y, (select config t).run (q.withInbox x)
        = Program.onState (Pump.withInbox y) ((select config t).run q)
      unfold select
      cases t.arm with
      | envelope envelope =>
          cases envelope with
          | none => exact ⟨x, rfl⟩
          | some envelope => exact ⟨x ++ [envelope], blind_onMessage envelope.msg (q.take envelope)⟩
      | event event =>
          cases event with
          | none => exact ⟨x, rfl⟩
          | some event => exact ⟨x, blind_onEvent event q⟩
      | tick => exact ⟨x, blind_onTick q⟩

/-- What the pump has received from the peer has become more. -/
def Pump.Advances (p p' : Pump) : Prop :=
  p.calls.length < p'.calls.length ∨ p.pending.length < p'.pending.length ∨
    p'.peerReady ≠ p.peerReady

theorem run_onMessage_of_not_actsOn {message : Message}
    (h : ¬ ActsOn config p.peerReady message) : (onMessage config t message).run p = .ok () p := by
  cases message with
  | offer sdp =>
      unfold onMessage
      split_ifs with hrole
      · obtain ⟨_ | sdp⟩ := sdp
        · rfl
        · exact absurd ⟨hrole, Option.some_ne_none sdp⟩ h
      · rfl
  | answer sdp =>
      unfold onMessage
      split_ifs with hrole
      · rfl
      · obtain ⟨_ | sdp⟩ := sdp
        · rfl
        · exact absurd ⟨by simpa using hrole, Option.some_ne_none sdp⟩ h
  | iceCandidate c => exact absurd trivial h
  | channelsReady =>
      have hready : p.peerReady = true := by simpa [ActsOn] using h
      have hrun : (onMessage config t .channelsReady).run p = .ok () { p with peerReady := true } :=
        rfl
      rw [hrun, ← hready]
  | peerGone => exact absurd trivial h
  | _ => rfl

/-- A description makes the calls more. -/
theorem advances_described (p : Pump) (sdp : String) :
    p.Advances (p.call (.remoteDescription sdp)).described := by
  refine .inl ?_
  simp only [Pump.described, Pump.drainPending, Pump.call, List.length_append,
    List.length_singleton]
  omega

theorem run_onMessage_of_actsOn {message : Message} (h : ActsOn config p.peerReady message) :
    (∃ e q, (onMessage config t message).run p = .error e q) ∨
      ∃ q, (onMessage config t message).run p = .ok () q ∧ p.Advances q := by
  cases hrun : (onMessage config t message).run p with
  | error e q => exact .inl ⟨e, q, rfl⟩
  | ok u q =>
      refine .inr ⟨q, rfl, ?_⟩
      cases message with
      | offer sdp =>
          obtain ⟨_ | sdp⟩ := sdp
          · exact absurd rfl h.2
          · rw [onMessage, if_pos h.1] at hrun
            obtain ⟨answer, p₁, haccept, h₁⟩ := Program.run_bind_eq_ok_iff.1 hrun
            obtain ⟨_, p₂, hsend, h₂⟩ := Program.run_bind_eq_ok_iff.1 h₁
            obtain ⟨-, rfl⟩ := run_acceptOffer_eq_ok_iff.1 haccept
            obtain ⟨-, rfl⟩ := run_sendSignal_eq_ok_iff.1 hsend
            obtain rfl := Program.run_modify_eq_ok_iff.1 h₂
            exact advances_described p sdp
      | answer sdp =>
          obtain ⟨_ | sdp⟩ := sdp
          · exact absurd rfl h.2
          · rw [onMessage, if_neg (by simp [h.1])] at hrun
            obtain ⟨_, p₁, haccept, h₁⟩ := Program.run_bind_eq_ok_iff.1 hrun
            obtain ⟨-, rfl⟩ := run_acceptAnswer_eq_ok_iff.1 haccept
            obtain rfl := Program.run_modify_eq_ok_iff.1 h₁
            exact advances_described p sdp
      | iceCandidate c =>
          obtain rfl := Program.run_modify_eq_ok_iff.1 hrun
          rw [Pump.candidate]
          split_ifs
          · exact .inl (by simp [Pump.call])
          · exact .inr (.inl (by simp))
      | channelsReady =>
          obtain rfl := Program.run_modify_eq_ok_iff.1 hrun
          exact .inr (.inr (by simpa [ActsOn] using h))
      | peerGone => cases hrun
      | _ => cases h

end Turns

/-! ### The pump -/

namespace Negotiation

/-- Two pumps agree but for the log of what they have taken. -/
def Same (n n' : Negotiation) : Prop :=
  n'.result = n.result ∧ ∃ inbox, n'.pump = n.pump.withInbox inbox

theorem Same.refl (n : Negotiation) : n.Same n := ⟨rfl, n.pump.inbox, rfl⟩

theorem Same.symm {n n' : Negotiation} (h : n.Same n') : n'.Same n := by
  obtain ⟨hresult, inbox, hpump⟩ := h
  refine ⟨hresult.symm, n.pump.inbox, ?_⟩
  rw [hpump]
  rfl

theorem Same.trans {n n' n'' : Negotiation} (h : n.Same n') (h' : n'.Same n'') : n.Same n'' := by
  obtain ⟨hresult, inbox, hpump⟩ := h
  obtain ⟨hresult', inbox', hpump'⟩ := h'
  refine ⟨hresult'.trans hresult, inbox', ?_⟩
  rw [hpump', hpump]
  rfl

variable {config : PumpConfig} {n n' : Negotiation} {t : Turn}

/-- What the loop becomes after a turn. -/
def after : EStateM.Result NegotiateError Pump Unit → Negotiation
  | .ok () p => next p
  | .error e p => ⟨p, some (.error e)⟩

theorem step_of_running (h : n.result = none) (t : Turn) :
    n.step config t = after ((turn config t).run n.pump) := by
  rw [step, h]
  cases (turn config t).run n.pump with
  | ok u p => rfl
  | error e p => rfl

theorem same_after (r : EStateM.Result NegotiateError Pump Unit) (inbox : List Envelope) :
    (after r).Same (after (Program.onState (Pump.withInbox inbox) r)) := by
  cases r with
  | ok u p => exact ⟨rfl, inbox, rfl⟩
  | error e p => exact ⟨rfl, inbox, rfl⟩

/-- Pumps that agree agree after a turn. -/
theorem Same.step (h : n.Same n') (t : Turn) : (n.step config t).Same (n'.step config t) := by
  obtain ⟨hresult, inbox, hpump⟩ := h
  cases hr : n.result with
  | some r =>
      rw [step_of_returned hr, step_of_returned (hresult.trans hr)]
      exact ⟨hresult, inbox, hpump⟩
  | none =>
      obtain ⟨inbox', hrun⟩ := run_turn_withInbox config t n.pump inbox
      rw [step_of_running hr, step_of_running (hresult.trans hr), hpump, hrun]
      exact same_after _ inbox'

/-- The pump does something about the envelope of its turn. -/
structure Reacts (config : PumpConfig) (n : Negotiation) (t : Turn) (envelope : Envelope) :
    Prop where
  running : n.result = none
  proceeds : t.Proceeds config n.pump
  acts : ActsOn config n.pump.peerReady envelope.msg

/-- The error of a turn is not undone by a turn that succeeds. -/
theorem not_same_error {e : NegotiateError} {p q : Pump} :
    ¬ (⟨p, some (.error e)⟩ : Negotiation).Same (next q) := by
  rintro ⟨hresult, -⟩
  rw [next] at hresult
  split at hresult <;> cases hresult

theorem not_same_of_advances {p q : Pump} (h : p.Advances q) : ¬ (next q).Same (next p) := by
  rintro ⟨-, inbox, hpump⟩
  have hpump : p = q.withInbox inbox := hpump
  rw [hpump] at h
  rcases h with h | h | h
  · exact lt_irrefl _ h
  · exact lt_irrefl _ h
  · exact h rfl

/-- An envelope makes a difference exactly when the pump does something about it. -/
theorem same_quiet_iff {envelope : Envelope} (harm : t.arm = .envelope (some envelope)) :
    (n.step config t).Same (n.step config t.quiet) ↔ ¬ n.Reacts config t envelope := by
  cases hr : n.result with
  | some r =>
      rw [step_of_returned hr, step_of_returned hr]
      refine iff_of_true (.refl n) fun h => ?_
      rw [h.running] at hr
      cases hr
  | none =>
      rw [step_of_running hr, step_of_running hr]
      by_cases hproceeds : t.Proceeds config n.pump
      · have hquiet : t.quiet.Proceeds config n.pump :=
          ⟨hproceeds.channels, hproceeds.ready, hproceeds.deadline⟩
        have hselect : (select config t).run (n.pump.announce config)
            = (onMessage config t envelope.msg).run ((n.pump.announce config).take envelope) := by
          rw [select, harm]
          rfl
        have hready : ((n.pump.announce config).take envelope).peerReady = n.pump.peerReady := by
          obtain ⟨announcedReady, outbox, hannounce⟩ := n.pump.announce_eq config
          rw [hannounce]
          rfl
        -- The quiet turn stops where the envelope would have been taken.
        rw [run_turn_of_proceeds hproceeds, run_turn_of_proceeds hquiet, hselect]
        change (after _).Same (next (n.pump.announce config)) ↔ _
        by_cases hacts : ActsOn config n.pump.peerReady envelope.msg
        · refine iff_of_false ?_ (not_not.2 ⟨hr, hproceeds, hacts⟩)
          rw [← hready] at hacts
          rcases run_onMessage_of_actsOn (t := t) hacts with ⟨e, q, hrun⟩ | ⟨q, hrun, hadvances⟩
          · rw [hrun]
            exact not_same_error
          · rw [hrun]
            exact not_same_of_advances (p := n.pump.announce config) hadvances
        · refine iff_of_true ?_ fun h => hacts h.acts
          rw [← hready] at hacts
          rw [run_onMessage_of_not_actsOn hacts]
          exact ⟨rfl, (n.pump.announce config).inbox, rfl⟩
      · obtain ⟨e, q, hrun, hquiet⟩ := run_turn_of_not_proceeds hproceeds
        rw [hrun, hquiet]
        exact iff_of_true (.refl _) fun h => hproceeds h.proceeds

end Negotiation

/-! ### Dialling -/

/-- An envelope of another session. -/
def Envelope.foreign (own : String) (envelope : Envelope) : Bool :=
  match envelope.sid with
  | some sid => sid != own
  | none => false

theorem Envelope.sid_of_foreign {own : String} {envelope : Envelope}
    (h : envelope.foreign own = true) : ∃ sid, envelope.sid = some sid := by
  cases hsid : envelope.sid with
  | some sid => exact ⟨sid, rfl⟩
  | none =>
      rw [foreign, hsid] at h
      cases h

/-- What the wait does something about, if the envelope has a session id: there is none yet, the
envelope brings other credentials, a refusal, or another session id. -/
def DialWait.ActsOn (w : DialWait) (message : Message) : Prop :=
  w.sessionId = none ∨
    match message with
    | .relayCredentials c => w.credentials ≠ some c
    | .connectResponse r =>
        r.status ≠ .accepted ∨ ∃ sid, r.sessionId = some sid ∧ w.sessionId ≠ some sid
    | _ => False

theorem DialWait.take_eq_ok_iff {w : DialWait} {envelope : Envelope} {sid : String}
    (hsid : envelope.sid = some sid) :
    w.take envelope = .ok w ↔ ¬ w.ActsOn envelope.msg := by
  obtain ⟨credentials, sessionId⟩ := w
  obtain ⟨sid', message⟩ := envelope
  cases hsid
  cases sessionId with
  | none =>
      -- Any envelope with an id is adopted by a wait that has none.
      refine iff_of_false ?_ (not_not.2 (.inl rfl))
      cases message with
      | connectResponse r =>
          simp only [take, Option.none_or]
          split
          · simp
          · cases r.sessionId <;> simp
      | _ => simp [take]
  | some own =>
      cases message with
      | relayCredentials c => simp [take, ActsOn, eq_comm]
      | connectResponse r =>
          by_cases hstatus : r.status = .accepted
          · cases hid : r.sessionId with
            | none => simp [take, ActsOn, hstatus, hid]
            | some sid => simp [take, ActsOn, hstatus, hid, eq_comm]
          · simp [take, ActsOn, hstatus]
      | _ => simp [take, ActsOn]

namespace Dialling

/-- What is left of an input when the envelopes of other sessions have not arrived: nothing of a
round of the wait that such an envelope ended, and a turn of the pump ended by something else. -/
def Input.without (own : String) : Input → Option Input
  | .envelope e => if e.foreign own then none else some (.envelope e)
  | .turn t =>
      match t.arm with
      | .envelope (some e) => if e.foreign own then some (.turn t.quiet) else some (.turn t)
      | _ => some (.turn t)
  | i => some i

/-- Two runs agree: on the session id and the credentials during the wait, on the arguments and
the variables of the pump but for the log of what it has taken, and on the result. -/
def Same : Dialling → Dialling → Prop
  | .waiting w, .waiting w' => w = w'
  | .pumping config n, .pumping config' n' => config = config' ∧ n.Same n'
  | .failed e, .failed e' => e = e'
  | _, _ => False

/-- At every point of the run it is as if the envelopes of other sessions had not arrived. -/
def Isolated (world : DialWorld) (own : String) (d : Dialling) (is : List Input) : Prop :=
  ∀ js, js <+: is →
    (Machine.run (step world) d js).Same
      (Machine.run (step world) d (js.filterMap (Input.without own)))

/-- An envelope of another session is acted upon. -/
def Interferes (own : String) : Dialling → Input → Prop
  | .waiting w, .envelope envelope => envelope.foreign own = true ∧ w.ActsOn envelope.msg
  | .pumping config n, .turn t =>
      ∃ envelope, t.arm = .envelope (some envelope) ∧ envelope.foreign own = true ∧
        n.Reacts config t envelope
  | _, _ => False

variable {world : DialWorld} {own : String} {d d' : Dialling} {i : Input}

theorem Same.refl (d : Dialling) : d.Same d := by
  cases d with
  | waiting w => rfl
  | pumping config n => exact ⟨rfl, .refl n⟩
  | failed e => rfl

/-- Runs that agree agree after the same step. -/
theorem Same.step (h : d.Same d') (i : Input) : (d.step world i).Same (d'.step world i) := by
  cases d with
  | waiting w =>
      cases d' with
      | waiting w' =>
          obtain rfl : w = w' := h
          exact .refl _
      | pumping _ _ | failed _ => cases h
  | pumping config n =>
      cases d' with
      | pumping config' n' =>
          obtain ⟨rfl, hsame⟩ := h
          cases i with
          | turn t => exact ⟨rfl, hsame.step t⟩
          | envelope _ | closed | timedOut => exact ⟨rfl, hsame⟩
      | waiting _ | failed _ => cases h
  | failed e =>
      cases d' with
      | failed e' =>
          obtain rfl : e = e' := h
          exact .refl _
      | waiting _ | pumping _ _ => cases h

/-- A round of the wait makes no difference exactly when the wait takes nothing from the envelope.
-/
theorem same_waiting_iff {w : DialWait} {envelope : Envelope} (hopen : w.Open) :
    ((waiting w).step world (.envelope envelope)).Same (waiting w) ↔ w.take envelope = .ok w := by
  rw [step]
  cases htake : w.take envelope with
  | error e => exact iff_of_false id (by simp)
  | ok w' =>
      rw [Except.ok.injEq]
      change (resume world w').Same (waiting w) ↔ w' = w
      constructor
      · intro h
        cases hresume : resume world w' with
        | waiting w'' =>
            rw [hresume] at h
            obtain rfl : w'' = w := h
            exact (eq_of_resume_eq_waiting hresume).1
        | pumping _ _ | failed _ =>
            rw [hresume] at h
            cases h
      · rintro rfl
        rw [resume_of_open hopen]
        exact .refl _

theorem Input.without_turn {t : Turn}
    (h : ∀ e, t.arm = .envelope (some e) → ¬ e.foreign own = true) :
    (Input.turn t).without own = some (.turn t) := by
  rw [without]
  split
  · next e harm => rw [if_neg (h e harm)]
  · rfl

variable (world own) in
/-- The run and the run without the envelopes of other sessions, side by side. -/
def twoRuns : Dialling × Dialling → Input → Dialling × Dialling :=
  Machine.pair (step world) (step world) (Input.without own)

/-- An envelope in the wait or after it. -/
theorem same_twoRuns_envelope_iff (hsound : d.Sound) (h : d.Same d') (e : Envelope) :
    (twoRuns world own (d, d') (.envelope e)).1.Same (twoRuns world own (d, d') (.envelope e)).2 ↔
      ¬ d.Interferes own (.envelope e) := by
  by_cases hforeign : e.foreign own = true
  · -- The second run skips the round.
    have hwithout : (Input.envelope e).without own = none := if_pos hforeign
    rw [twoRuns, Machine.pair_of_none hwithout]
    cases d with
    | waiting w =>
        cases d' with
        | waiting w' =>
            obtain rfl : w = w' := h
            obtain ⟨sid, hsid⟩ := Envelope.sid_of_foreign hforeign
            change _ ↔ ¬ (e.foreign own = true ∧ w.ActsOn e.msg)
            rw [and_iff_right hforeign, ← DialWait.take_eq_ok_iff hsid]
            exact same_waiting_iff hsound
        | pumping _ _ | failed _ => cases h
    | pumping _ _ | failed _ => exact iff_of_true h id
  · have hwithout : (Input.envelope e).without own = some (.envelope e) := if_neg hforeign
    rw [twoRuns, Machine.pair_of_some hwithout]
    refine iff_of_true (h.step _) ?_
    cases d with
    | waiting w => exact fun hinterferes => hforeign hinterferes.1
    | pumping _ _ | failed _ => exact id

/-- A turn of the pump, or before it. -/
theorem same_twoRuns_turn_iff (h : d.Same d') (t : Turn) :
    (twoRuns world own (d, d') (.turn t)).1.Same (twoRuns world own (d, d') (.turn t)).2 ↔
      ¬ d.Interferes own (.turn t) := by
  by_cases hforeign : ∃ e, t.arm = .envelope (some e) ∧ e.foreign own = true
  · obtain ⟨e, harm, hforeign⟩ := hforeign
    -- The second run takes the turn without its envelope.
    have hwithout : (Input.turn t).without own = some (.turn t.quiet) := by
      rw [Input.without, harm]
      exact if_pos hforeign
    rw [twoRuns, Machine.pair_of_some hwithout]
    cases d with
    | pumping config n =>
        cases d' with
        | pumping config' n' =>
            obtain ⟨rfl, hsame⟩ := h
            have hiff := @Negotiation.same_quiet_iff config n t e harm
            have hquiet : (n.step config t.quiet).Same (n'.step config t.quiet) :=
              hsame.step t.quiet
            constructor
            · rintro ⟨-, hstep⟩ ⟨e', harm', -, hreacts⟩
              rw [harm] at harm'
              cases harm'
              exact hiff.1 (hstep.trans hquiet.symm) hreacts
            · intro hnot
              refine ⟨rfl, Negotiation.Same.trans (hiff.2 fun hreacts => ?_) hquiet⟩
              exact hnot ⟨e, harm, hforeign, hreacts⟩
        | waiting _ | failed _ => cases h
    | waiting _ | failed _ => exact iff_of_true (h.step (.turn t.quiet)) id
  · have hwithout : (Input.turn t).without own = some (.turn t) :=
      Input.without_turn fun e harm he => hforeign ⟨e, harm, he⟩
    rw [twoRuns, Machine.pair_of_some hwithout]
    refine iff_of_true (h.step _) ?_
    cases d with
    | pumping config n =>
        rintro ⟨e, harm, he, -⟩
        exact hforeign ⟨e, harm, he⟩
    | waiting _ | failed _ => exact id

/-- **One step.**  Runs that agreed agree after a step exactly when it does not interfere. -/
theorem same_twoRuns_iff (hsound : d.Sound) (h : d.Same d') (i : Input) :
    (twoRuns world own (d, d') i).1.Same (twoRuns world own (d, d') i).2 ↔
      ¬ d.Interferes own i := by
  cases i with
  | envelope e => exact same_twoRuns_envelope_iff hsound h e
  | turn t => exact same_twoRuns_turn_iff h t
  | closed | timedOut =>
      refine iff_of_true (h.step _) ?_
      cases d <;> exact id

/-- From a sound state the runs agree all along exactly when no step interferes. -/
theorem isolated_iff_along (hsound : d.Sound) (is : List Input) :
    Isolated world own d is ↔
      Machine.Along (step world) (fun d i => ¬ d.Interferes own i) d is := by
  have halong : Machine.Along (twoRuns world own) (fun x i => ¬ x.1.Interferes own i) (d, d) is ↔
      Machine.Along (step world) (fun d i => ¬ d.Interferes own i) d is :=
    @Machine.along_pair_iff _ _ _ (fun (d : Dialling) i => ¬ d.Interferes own i) _ _ _
      (Input.without own) (d, d) is
  rw [← halong, ← Machine.forall_prefix_iff_along
    (fun x : Dialling × Dialling => x.1.Sound ∧ x.1.Same x.2) (fun x => x.1.Same x.2)]
  · refine forall_congr' fun js => imp_congr_right fun _ => ?_
    rw [twoRuns, Machine.run_pair]
  · exact fun x hx => hx.2
  · intro x i hx hgood
    exact ⟨sound_step world hx.1 i, (same_twoRuns_iff hx.1 hx.2 i).2 hgood⟩
  · intro x i hx hbad hsame
    exact hbad ((same_twoRuns_iff hx.1 hx.2 i).1 hsame)
  · exact ⟨hsound, .refl d⟩

/-- **A negotiation is isolated exactly when no envelope of another session is acted upon**: a
controller's, from the request on and whichever id turns out to be its own, and the pump's on
either side. -/
theorem isolated_iff (world : DialWorld) :
    (∀ own is, Isolated world own (connectToHost world) is ↔
      Machine.Along (step world) (fun d i => ¬ d.Interferes own i) (connectToHost world) is) ∧
    ∀ config is, Isolated world config.sessionId (.pumping config (.start config)) is ↔
      Machine.Along (step world) (fun d i => ¬ d.Interferes config.sessionId i)
        (.pumping config (.start config)) is := by
  constructor
  · intro own is
    exact isolated_iff_along (sound_connectToHost world) is
  · intro config is
    have hsound : (Dialling.pumping config (.start config)).Sound := trivial
    exact isolated_iff_along hsound is

/-- A world in which nothing goes wrong. -/
def Sample.calmWorld : DialWorld where
  requestSend := .ok ()
  deadline := NEGOTIATION_TIMEOUT_MS
  sessionNew _ := .ok ()
  createOffer := .ok "offer"
  offerSend := .ok ()

/-- What is left of the session `sess_0`. -/
def Sample.leftover : Envelope := ⟨some "sess_0", .peerGone⟩

/-- The end of the session before, still in the inbox: a controller takes the old session id for
its own, and the pump of a host that has just accepted `sess_1` gives up. -/
theorem not_isolated_from_leftover :
    (¬ Isolated Sample.calmWorld "sess_1" (connectToHost Sample.calmWorld)
        [.envelope Sample.leftover] ∧
      Machine.run (step Sample.calmWorld) (connectToHost Sample.calmWorld)
          [.envelope Sample.leftover]
        = .waiting ⟨none, some "sess_0"⟩) ∧
    ¬ Isolated Sample.calmWorld "sess_1"
        (.pumping ⟨"sess_1", NEGOTIATION_TIMEOUT_MS, true⟩
          (.start ⟨"sess_1", NEGOTIATION_TIMEOUT_MS, true⟩))
        [.turn (Sample.turn (.envelope (some Sample.leftover)) [])] ∧
      (pump ⟨"sess_1", NEGOTIATION_TIMEOUT_MS, true⟩
        [Sample.turn (.envelope (some Sample.leftover)) []]).result = some (.error .closed) := by
  refine ⟨⟨fun h => ?_, rfl⟩, fun h => ?_, rfl⟩
  · have hsame : (⟨none, some "sess_0"⟩ : DialWait) = {} := h _ List.prefix_rfl
    revert hsame
    decide
  · obtain ⟨-, hresult, -⟩ := h _ List.prefix_rfl
    cases hresult

end Dialling

end Rda
