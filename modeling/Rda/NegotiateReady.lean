/-
**The readiness handshake.**

Neither end may send application data before both have opened their channels, so each announces that
its channels are open and waits for the other's announcement.  The announcement is made at the head
of a turn and the loop's exit is decided at its end: a loop that is connected, has heard the other
end, and finds its own channels open in the arm of a turn leaves without having announced anything,
and the other end waits for nothing.

Main definitions:

* `Rda.ReadyAgreement` — a loop that has returned announced itself once and heard the other end;
* `Rda.Turn.LeavesSilently` — the turn that breaks it;
* `Rda.Pair` — two loops and a signaling server that relays their envelopes in order.

Main results:

* `Rda.readyAgreement_iff` — **a run agrees all along exactly when no turn of it leaves silently**;
* `Rda.Pair.agreement_of_neverSilent` — two ends that never leave silently agree;
* `Rda.Pair.never_returns` — an end whose peer has left silently waits for ever.
-/

import Rda.Negotiate

set_option relaxedAutoImplicit false
set_option autoImplicit false

namespace Rda

/-! ### One end -/

/-- The announcement, whatever session it is for. -/
def Envelope.isReady (e : Envelope) : Bool := decide (e.msg = .channelsReady)

/-- The announcements a loop has sent. -/
def Pump.readies (p : Pump) : List Envelope := p.outbox.filter Envelope.isReady

/-- A loop that has returned has sent exactly one announcement, for its own session, and has taken
one from the server. -/
def ReadyAgreement (config : PumpConfig) (n : Negotiation) : Prop :=
  ∀ frames, n.result = some (.ok frames) →
    n.pump.readies = [⟨some config.sessionId, .channelsReady⟩] ∧
      ∃ e ∈ n.pump.inbox, e.msg = .channelsReady

/-- The arm of the turn finds all channels open. -/
def Turn.OpensAll (t : Turn) : Prop :=
  t.unopened = [] ∧ (t.arm = .tick ∨ ∃ channel, t.arm = .event (some (.channelOpen channel)))

/-- The turn finds all channels open in a loop that is connected and has heard the other end, but
had not found them open before. -/
structure Turn.LeavesSilently (t : Turn) (config : PumpConfig) (n : Negotiation) : Prop where
  running : n.result = none
  proceeds : t.Proceeds config n.pump
  connected : n.pump.connected = true
  peerReady : n.pump.peerReady = true
  notOpen : n.pump.allOpen = false
  silent : n.pump.announcedReady = false
  opensAll : t.OpensAll

/-- What a loop's variables say about its envelopes. -/
structure Pump.ReadyInv (config : PumpConfig) (p : Pump) : Prop where
  announced : p.readies =
    if p.announcedReady then [⟨some config.sessionId, .channelsReady⟩] else []
  heard : p.peerReady = true → ∃ e ∈ p.inbox, e.msg = .channelsReady

section OneEnd

variable {config : PumpConfig} {t : Turn} {p p' : Pump}

theorem Pump.readies_post (message : Message) :
    (p.post config message).readies =
      p.readies ++ if message = .channelsReady then [⟨some config.sessionId, message⟩] else [] := by
  simp only [readies, post, List.filter_append, List.filter_cons, List.filter_nil,
    Envelope.isReady, decide_eq_true_eq]

theorem Pump.ReadyInv.announce (h : p.ReadyInv config) : (p.announce config).ReadyInv config := by
  unfold Pump.announce
  split_ifs with hopen
  · rw [Bool.and_eq_true, Bool.not_eq_true'] at hopen
    refine ⟨?_, h.heard⟩
    rw [Pump.readies_post]
    have hnone : p.readies = [] := by rw [h.announced, hopen.2]; rfl
    exact congrArg (· ++ [_]) hnone
  · exact h

/-- An arm announces nothing: that is done before it. -/
theorem Took.readies (h : Took config t p p') : p'.readies = p.readies := by
  cases h with
  | offer envelope sdp answer harm hmsg hrole =>
      exact (Pump.readies_post (p := (p.take envelope).call _) _).trans (by simp; rfl)
  | localCandidate c => exact (Pump.readies_post _).trans (by simp)
  | candidate envelope c harm hmsg =>
      obtain ⟨pending, calls, heq⟩ := Pump.candidate_eq c (p.take envelope)
      rw [heq]
      rfl
  | _ => rfl

theorem Took.announcedReady (h : Took config t p p') : p'.announcedReady = p.announcedReady := by
  cases h with
  | candidate envelope c harm hmsg =>
      obtain ⟨pending, calls, heq⟩ := Pump.candidate_eq c (p.take envelope)
      rw [heq]
      rfl
  | _ => rfl

/-- Only a message of the other end makes it ready. -/
theorem Took.heard (h : Took config t p p')
    (hp : p.peerReady = true → ∃ e ∈ p.inbox, e.msg = .channelsReady) :
    p'.peerReady = true → ∃ e ∈ p'.inbox, e.msg = .channelsReady := by
  have hmore : ∀ e : Envelope, p.peerReady = true →
      ∃ e' ∈ p.inbox ++ [e], e'.msg = .channelsReady := by
    intro e hready
    obtain ⟨e', hmem, hmsg⟩ := hp hready
    exact ⟨e', List.mem_append_left _ hmem, hmsg⟩
  cases h with
  | ignoredMessage envelope harm hready hcandidate => exact hmore envelope
  | offer envelope sdp answer harm hmsg hrole => exact hmore envelope
  | answer envelope sdp harm hmsg hrole => exact hmore envelope
  | candidate envelope c harm hmsg =>
      obtain ⟨pending, calls, heq⟩ := Pump.candidate_eq c (p.take envelope)
      rw [heq]
      exact hmore envelope
  | peerReady envelope harm hmsg =>
      exact fun _ => ⟨envelope, List.mem_append_right _ (List.mem_singleton.2 rfl), hmsg⟩
  | _ => exact hp

/-- An arm finds the channels open only by looking, and then it does nothing else. -/
theorem Took.opened (h : Took config t p p') (hp : p.allOpen = false) (hp' : p'.allOpen = true) :
    t.OpensAll ∧ p' = { p with allOpen := true } := by
  cases h with
  | channelOpen channel harm =>
      have hempty : t.unopened.isEmpty = true := hp'
      exact ⟨⟨List.isEmpty_iff.1 hempty, .inr ⟨channel, harm⟩⟩, by rw [hempty]⟩
  | tick harm hconnected =>
      have hempty : t.unopened.isEmpty = true := hp'
      exact ⟨⟨List.isEmpty_iff.1 hempty, .inl harm⟩, by rw [hempty]⟩
  | candidate envelope c harm hmsg =>
      obtain ⟨pending, calls, heq⟩ := Pump.candidate_eq c (p.take envelope)
      rw [heq] at hp'
      exact absurd (hp.symm.trans hp') Bool.false_ne_true
  | _ => exact absurd (hp.symm.trans hp') Bool.false_ne_true

theorem Took.readyInv (h : Took config t p p') (hp : p.ReadyInv config) : p'.ReadyInv config :=
  ⟨by rw [h.readies, h.announcedReady, hp.announced], h.heard hp.heard⟩

variable (config) in
theorem Pump.announce_of_notOpen (h : p.allOpen = false) : p.announce config = p := by
  simp [announce, h]

theorem Pump.announcedReady_announce (h : p.allOpen = true) :
    (p.announce config).announcedReady = true := by
  unfold announce
  split_ifs with hann
  · rfl
  · simpa [h] using hann

end OneEnd

namespace Negotiation

variable {config : PumpConfig} {n : Negotiation} {t : Turn}

/-- The loop's variables are truthful unless it has failed, and it has not returned unheard. -/
structure Truthful (config : PumpConfig) (n : Negotiation) : Prop where
  pump : (∀ e, n.result ≠ some (.error e)) → n.pump.ReadyInv config
  returned : ∀ frames, n.result = some (.ok frames) → n.pump.peerReady = true

/-- Besides, the loop has not returned unannounced. -/
structure ReadyInv (config : PumpConfig) (n : Negotiation) : Prop extends Truthful config n where
  announced : ∀ frames, n.result = some (.ok frames) → n.pump.announcedReady = true

theorem ReadyInv.agreement (h : n.ReadyInv config) : ReadyAgreement config n := by
  intro frames hret
  have hpump := h.pump (by simp [hret])
  refine ⟨?_, hpump.heard (h.returned frames hret)⟩
  rw [hpump.announced, h.announced frames hret]
  rfl

theorem ReadyInv.start (config : PumpConfig) : (Negotiation.start config).ReadyInv config :=
  ⟨⟨fun _ => ⟨rfl, fun h => absurd h Bool.false_ne_true⟩, fun _ h => nomatch h⟩,
    fun _ h => nomatch h⟩

/-- A loop returns only when its exit condition holds. -/
theorem finished_of_next {p : Pump} {frames : List (Channel × ControlFrame)}
    (h : (next p).result = some (.ok frames)) :
    p.connected = true ∧ p.allOpen = true ∧ p.peerReady = true := by
  have hfinished : p.finished = true := by
    by_contra hn
    simp [next, hn] at h
  simpa only [Pump.finished, Bool.and_eq_true, and_assoc] using hfinished

theorem Truthful.step (h : n.Truthful config) : (n.step config t).Truthful config := by
  cases hres : n.result with
  | some r =>
      rw [step_of_returned hres]
      exact h
  | none =>
      have hpump := h.pump (by simp [hres])
      rcases step_cases config hres t with ⟨p, hproceeds, htook, heq⟩ | ⟨e, p, -, heq⟩
      · rw [heq]
        exact ⟨fun _ => htook.readyInv hpump.announce,
          fun frames hret => (finished_of_next hret).2.2⟩
      · rw [heq]
        exact ⟨fun hne => absurd rfl (hne e), fun _ hret => nomatch hret⟩

/-- A turn that does not leave silently keeps the invariant. -/
theorem ReadyInv.step (h : n.ReadyInv config) (hgood : ¬ t.LeavesSilently config n) :
    (n.step config t).ReadyInv config := by
  refine ⟨h.toTruthful.step, ?_⟩
  intro frames hret
  cases hres : n.result with
  | some r =>
      rw [step_of_returned hres] at hret ⊢
      exact h.announced frames hret
  | none =>
      rcases step_cases config hres t with ⟨p, hproceeds, htook, heq⟩ | ⟨e, p, -, heq⟩
      · rw [heq] at hret ⊢
        obtain ⟨hconnected, hopen, hready⟩ := finished_of_next hret
        -- If the channels were open before, the head of the turn has announced it.
        by_contra hann
        rw [Bool.not_eq_true, next, htook.announcedReady] at hann
        have hnotOpen : n.pump.allOpen = false := by
          by_contra hopen'
          rw [Pump.announcedReady_announce (Bool.not_eq_false _ ▸ hopen')] at hann
          exact absurd hann (by decide)
        rw [Pump.announce_of_notOpen config hnotOpen] at hann htook
        obtain ⟨hopens, hp⟩ := htook.opened hnotOpen hopen
        rw [hp] at hconnected hready
        exact hgood ⟨hres, hproceeds, hconnected, hready, hnotOpen, hann, hopens⟩
      · rw [heq] at hret
        exact nomatch hret

/-- A turn that leaves silently returns without an announcement. -/
theorem not_agreement_of_leavesSilently (h : n.ReadyInv config) (hbad : t.LeavesSilently config n) :
    ¬ ReadyAgreement config (n.step config t) := by
  have hannounce := Pump.announce_of_notOpen config hbad.notOpen
  have hselect : (select config t).run (n.pump.announce config)
      = .ok () { n.pump with allOpen := true } := by
    rw [hannounce, select]
    rcases hbad.opensAll with ⟨hempty, harm | ⟨channel, harm⟩⟩
    · rw [harm]
      exact Program.run_modify_eq_ok_iff.2 (by simp [hempty, hbad.connected])
    · rw [harm]
      exact Program.run_modify_eq_ok_iff.2 (by simp [hempty])
  have hstep := step_of_select hbad.running hbad.proceeds hselect
  have hfinished : ({ n.pump with allOpen := true } : Pump).finished = true := by
    simp [Pump.finished, hbad.connected, hbad.peerReady]
  have hreadies : ({ n.pump with allOpen := true } : Pump).readies = [] := by
    have := (h.pump (by simp [hbad.running])).announced
    rwa [hbad.silent] at this
  rw [hstep, next, hfinished]
  intro hagree
  obtain ⟨hone, -⟩ := hagree _ rfl
  rw [hreadies] at hone
  exact absurd hone (by simp)

end Negotiation

/-- **A run agrees all along exactly when no turn of it leaves silently.** -/
theorem readyAgreement_iff (config : PumpConfig) (ts : List Turn) :
    (∀ ts', ts' <+: ts → ReadyAgreement config (pump config ts')) ↔
      Machine.Along (Negotiation.step config) (fun n t => ¬ t.LeavesSilently config n)
        (.start config) ts :=
  Machine.forall_prefix_iff_along (Negotiation.ReadyInv config) (ReadyAgreement config)
    (fun _ h => h.agreement) (fun _ _ h hgood => h.step hgood)
    (fun _ _ h hbad => Negotiation.not_agreement_of_leavesSilently h (not_not.1 hbad))
    (Negotiation.ReadyInv.start config) ts

/-! ### Whose announcement it is

The loop takes any announcement for its peer's.  Where the announcements that come are those of the
session, as the server sends them, the one that was heard is. -/

/-- An announcement that comes in this turn is for this session. -/
def Turn.FromPeer (t : Turn) (config : PumpConfig) : Prop :=
  ∀ e, t.arm = .envelope (some e) → e.msg = .channelsReady → e.sid = some config.sessionId

/-- The announcements that were taken are for this session. -/
def Negotiation.HeardPeer (config : PumpConfig) (n : Negotiation) : Prop :=
  ∀ e ∈ n.pump.inbox, e.msg = .channelsReady → e.sid = some config.sessionId

theorem Negotiation.HeardPeer.step {config : PumpConfig} {n : Negotiation} {t : Turn}
    (h : n.HeardPeer config) (ht : t.FromPeer config) : (n.step config t).HeardPeer config := by
  intro e hmem hmsg
  rcases step_exchanges config n t with hex | ⟨envelope, harm, hex⟩
  · rw [hex.inbox] at hmem
    exact h e hmem hmsg
  · rw [hex.inbox] at hmem
    rcases List.mem_append.1 hmem with hold | hnew
    · exact h e hold hmsg
    · cases List.mem_singleton.1 hnew
      exact ht e harm hmsg

/-- A run in which no turn leaves silently and all announcements are for this session returns only
after the announcement of this session was taken. -/
theorem readyAgreement_fromPeer {config : PumpConfig} {ts : List Turn}
    (h : Machine.Along (Negotiation.step config)
      (fun n t => ¬ t.LeavesSilently config n ∧ t.FromPeer config) (.start config) ts)
    {frames : List (Channel × ControlFrame)} (hret : (pump config ts).result = some (.ok frames)) :
    (pump config ts).pump.readies = [⟨some config.sessionId, .channelsReady⟩] ∧
      ⟨some config.sessionId, .channelsReady⟩ ∈ (pump config ts).pump.inbox := by
  have hinv := Machine.run_invariant_along
    (fun n : Negotiation => n.ReadyInv config ∧ n.HeardPeer config)
    (fun _ _ hn hgood => ⟨hn.1.step hgood.1, hn.2.step hgood.2⟩)
    ⟨Negotiation.ReadyInv.start config, fun _ hmem => absurd hmem List.not_mem_nil⟩ h
  obtain ⟨hone, e, hmem, hmsg⟩ := hinv.1.agreement frames hret
  have hsid := hinv.2 e hmem hmsg
  obtain ⟨sid, msg⟩ := e
  cases hmsg
  cases hsid
  exact ⟨hone, hmem⟩

/-! ### Two ends -/

/-- The two ends of a negotiation. -/
inductive Side
  | controller | host
  deriving DecidableEq, Repr

/-- The other end. -/
def Side.other : Side → Side
  | .controller => .host
  | .host => .controller

/-- The messages the ends send each other through the server; all others are the server's own. -/
def Message.isRelayed : Message → Bool
  | .offer _ | .answer _ | .iceCandidate _ | .iceRestart | .channelsReady => true
  | _ => false

/-- What is fixed for a negotiation of two ends: the session, the two deadlines, and the offer with
which the controller opens. -/
structure PairConfig where
  sessionId : String
  deadline : Side → ℕ
  offer : String

/-- The arguments of an end's loop. -/
def PairConfig.pumpConfig (config : PairConfig) (side : Side) : PumpConfig :=
  ⟨config.sessionId, config.deadline side, decide (side = .host)⟩

/-- Two loops. -/
abbrev Pair : Type := Side → Negotiation

namespace Pair

variable (config : PairConfig)

/-- Both loops at their start. -/
def start : Pair := fun side => .start (config.pumpConfig side)

/-- Everything an end has sent through the server. -/
def sent (pair : Pair) : Side → List Envelope
  | .controller =>
      ⟨some config.sessionId, .offer (.plain config.offer)⟩ :: (pair .controller).pump.outbox
  | .host => (pair .host).pump.outbox

/-- The relayed envelopes an end has taken. -/
def relayed (pair : Pair) (side : Side) : List Envelope :=
  (pair side).pump.inbox.filter fun e => e.msg.isRelayed

/-- A reliable server: a relayed envelope that is taken is the next one the other end has sent. -/
def delivers (pair : Pair) (side : Side) (t : Turn) : Bool :=
  match t.arm with
  | .envelope (some e) =>
      !e.msg.isRelayed || (pair.sent config side.other)[(pair.relayed side).length]? == some e
  | _ => true

/-- One end takes a turn that the server makes possible; other turns do not happen. -/
def step (pair : Pair) (input : Side × Turn) : Pair :=
  if pair.delivers config input.1 input.2 then
    Function.update pair input.1 ((pair input.1).step (config.pumpConfig input.1) input.2)
  else pair

/-- Both ends, after a schedule of turns. -/
def run (schedule : List (Side × Turn)) : Pair := Machine.run (step config) (start config) schedule

/-- What each end has taken is what the other has sent, in order. -/
def Relays (pair : Pair) : Prop :=
  ∀ side, pair.relayed side <+: pair.sent config side.other

variable {config} {pair : Pair}

theorem Side.other_ne (side : Side) : side.other ≠ side := by
  cases side with
  | controller => decide
  | host => decide

theorem Side.other_other (side : Side) : side.other.other = side := by
  cases side with
  | controller => rfl
  | host => rfl

/-- What an end has sent is up to that end alone. -/
theorem sent_congr {pair pair' : Pair} {side : Side} (h : pair' side = pair side) :
    pair'.sent config side = pair.sent config side := by
  cases side with
  | controller => simp only [sent, h]
  | host => simp only [sent, h]

theorem sent_prefix_sent {pair pair' : Pair} {side : Side}
    (h : (pair side).pump.outbox <+: (pair' side).pump.outbox) :
    pair.sent config side <+: pair'.sent config side := by
  cases side with
  | controller => exact List.cons_prefix_cons.2 ⟨rfl, h⟩
  | host => exact h

/-- The next entry of a list extends a prefix of it. -/
theorem concat_prefix {l m : List Envelope} {e : Envelope} (h : l <+: m)
    (he : m[l.length]? = some e) : l ++ [e] <+: m := by
  obtain ⟨r, rfl⟩ := h
  rw [List.getElem?_append_right le_rfl, Nat.sub_self] at he
  cases r with
  | nil => simp at he
  | cons e' r =>
      cases he
      exact ⟨r, by simp⟩

variable (config) in
/-- A step is a turn of one end that the server makes possible, or nothing. -/
theorem step_eq (pair : Pair) (input : Side × Turn) :
    pair.step config input = pair ∨
      pair.delivers config input.1 input.2 = true ∧ pair.step config input =
        Function.update pair input.1 ((pair input.1).step (config.pumpConfig input.1) input.2) := by
  unfold step
  split_ifs with h
  · exact .inr ⟨h, rfl⟩
  · exact .inl rfl

theorem relayed_of_exchanges {side : Side} {t : Turn} {n : Negotiation}
    (hrelays : Relays config pair) (hdelivers : pair.delivers config side t = true)
    (h : t.Exchanges (pair side).pump.inbox (pair side).pump.outbox n.pump) :
    (n.pump.inbox.filter fun e => e.msg.isRelayed) <+: pair.sent config side.other := by
  rcases h with h | ⟨e, harm, h⟩
  · rw [h.inbox]
    exact hrelays side
  · rw [h.inbox, List.filter_append]
    cases hrel : e.msg.isRelayed with
    | false => simpa [hrel, relayed] using hrelays side
    | true =>
        simp only [delivers, harm, hrel, Bool.not_true, Bool.false_or, beq_iff_eq] at hdelivers
        simpa [hrel, relayed] using concat_prefix (hrelays side) hdelivers

theorem Relays.step (h : Relays config pair) (input : Side × Turn) :
    Relays config (pair.step config input) := by
  obtain ⟨side, t⟩ := input
  rcases step_eq config pair (side, t) with heq | ⟨hdelivers, heq⟩
  · rw [heq]
    exact h
  · rw [heq]
    dsimp only at hdelivers ⊢
    have hex := Negotiation.step_exchanges (config.pumpConfig side) (pair side) t
    intro side'
    by_cases hside : side' = side
    · -- The side that took the turn: what it has read is a prefix of what the other has sent.
      subst hside
      rw [relayed, Function.update_self,
        sent_congr (Function.update_of_ne (Side.other_ne side') _ _)]
      exact relayed_of_exchanges h hdelivers hex
    · -- The other side: what it may read has only become more.
      have hother : side'.other = side := by
        cases side' with
        | controller => cases side with
          | controller => exact absurd rfl hside
          | host => rfl
        | host => cases side with
          | controller => rfl
          | host => exact absurd rfl hside
      rw [relayed, Function.update_of_ne hside]
      refine (h side').trans ?_
      rw [hother]
      refine sent_prefix_sent ?_
      rw [Function.update_self]
      rcases hex with hex | ⟨e, -, hex⟩
      · exact hex.outbox
      · exact hex.outbox

theorem relays_run (schedule : List (Side × Turn)) : Relays config (run config schedule) := by
  have hstart : Relays config (start config) := fun _ => List.nil_prefix
  exact Machine.run_invariant (Relays config) (fun _ input h => h.step input) hstart schedule

variable (config) in
/-- A step changes one end, and that one by a turn of its loop. -/
theorem step_side (pair : Pair) (input : Side × Turn) (side : Side) :
    pair.step config input side = pair side ∨ side = input.1 ∧
      pair.step config input side = (pair side).step (config.pumpConfig side) input.2 := by
  rcases step_eq config pair input with heq | ⟨-, heq⟩
  · exact .inl (by rw [heq])
  · rw [heq]
    by_cases hside : side = input.1
    · subst hside
      exact .inr ⟨rfl, Function.update_self _ _ _⟩
    · exact .inl (Function.update_of_ne hside _ _)

variable (config) in
/-- Both ends are truthful. -/
theorem truthful_run (schedule : List (Side × Turn)) (side : Side) :
    (run config schedule side).Truthful (config.pumpConfig side) := by
  refine Machine.run_invariant (fun pair : Pair => (pair side).Truthful (config.pumpConfig side))
    (fun pair input h => ?_) (Negotiation.ReadyInv.start _).toTruthful schedule
  rcases step_side config pair input side with heq | ⟨-, heq⟩
  · rw [heq]
    exact h
  · rw [heq]
    exact h.step

/-- No turn of the schedule leaves silently. -/
def NeverSilent (config : PairConfig) (schedule : List (Side × Turn)) : Prop :=
  Machine.Along (step config)
    (fun pair input => ¬ input.2.LeavesSilently (config.pumpConfig input.1) (pair input.1))
    (start config) schedule

theorem readyInv_run {schedule : List (Side × Turn)} (h : NeverSilent config schedule)
    (side : Side) : (run config schedule side).ReadyInv (config.pumpConfig side) := by
  refine Machine.run_invariant_along
    (fun pair : Pair => (pair side).ReadyInv (config.pumpConfig side))
    (fun pair input h hgood => ?_) (Negotiation.ReadyInv.start _) h
  rcases step_side config pair input side with heq | ⟨hside, heq⟩
  · rw [heq]
    exact h
  · rw [heq]
    subst hside
    exact h.step hgood

/-- What an end has heard, the other one has announced. -/
theorem announced_of_heard {schedule : List (Side × Turn)} {side : Side}
    (h : ∃ e ∈ (run config schedule side).pump.inbox, e.msg = .channelsReady) :
    (run config schedule side.other).pump.readies ≠ [] := by
  obtain ⟨e, hmem, hmsg⟩ := h
  have hrelayed : e ∈ (run config schedule).relayed side :=
    List.mem_filter.2 ⟨hmem, by rw [hmsg]; rfl⟩
  have hsent := (relays_run schedule side).subset hrelayed
  have hout : e ∈ (run config schedule side.other).pump.outbox := by
    cases side with
    | controller => exact hsent
    | host =>
        rcases List.mem_cons.1 hsent with heq | hout
        · rw [heq] at hmsg
          cases hmsg
        · exact hout
  exact List.ne_nil_of_mem (List.mem_filter.2 ⟨hout, decide_eq_true hmsg⟩)

/-- **Two ends agree.**  If no turn leaves silently, an end that returns has announced itself
exactly once, and the other end has announced itself too. -/
theorem agreement_of_neverSilent {schedule : List (Side × Turn)} (h : NeverSilent config schedule)
    {side : Side} {frames : List (Channel × ControlFrame)}
    (hret : (run config schedule side).result = some (.ok frames)) :
    (run config schedule side).pump.readies = [⟨some config.sessionId, .channelsReady⟩] ∧
      (run config schedule side.other).pump.readies ≠ [] := by
  obtain ⟨hone, hheard⟩ := (readyInv_run h side).agreement frames hret
  exact ⟨hone, announced_of_heard hheard⟩

/-- An end that has returned stays as it is. -/
theorem run_of_returned {schedule : List (Side × Turn)} {side : Side}
    {r : Except NegotiateError (List (Channel × ControlFrame))}
    (h : (run config schedule side).result = some r) (more : List (Side × Turn)) :
    run config (schedule ++ more) side = run config schedule side := by
  have hframe : ∀ pair : Pair, pair side = run config schedule side →
      ∀ input, pair.step config input side = run config schedule side := by
    intro pair hpair input
    rcases step_side config pair input side with heq | ⟨-, heq⟩
    · rw [heq, hpair]
    · rw [heq, hpair]
      exact Negotiation.step_of_returned h _
  rw [run, Machine.run_append]
  exact Machine.run_invariant (fun pair : Pair => pair side = run config schedule side)
    (fun pair input hpair => hframe pair hpair input) rfl more

/-- **An end whose peer has left silently waits for ever.** -/
theorem never_returns {schedule : List (Side × Turn)} {side : Side}
    {r : Except NegotiateError (List (Channel × ControlFrame))}
    (hret : (run config schedule side).result = some r)
    (hsilent : (run config schedule side).pump.readies = []) (more : List (Side × Turn))
    (frames : List (Channel × ControlFrame)) :
    (run config (schedule ++ more) side.other).result ≠ some (.ok frames) := by
  intro hother
  have htruth := truthful_run config (schedule ++ more) side.other
  have hheard := (htruth.pump (by simp [hother])).heard (htruth.returned frames hother)
  have hready := announced_of_heard hheard
  rw [Side.other_other, run_of_returned hret] at hready
  exact hready hsilent

end Pair

/-- **The readiness handshake.**  A loop agrees at every point of a run exactly when no turn of the
run leaves silently; what it has heard then is its peer's announcement, if announcements of other
sessions do not come; and two ends of which no turn leaves silently agree, in every interleaving. -/
theorem readiness_agreement (config : PumpConfig) (ts : List Turn) :
    ((∀ ts', ts' <+: ts → ReadyAgreement config (pump config ts')) ↔
      Machine.Along (Negotiation.step config) (fun n t => ¬ t.LeavesSilently config n)
        (.start config) ts) ∧
    (Machine.Along (Negotiation.step config)
        (fun n t => ¬ t.LeavesSilently config n ∧ t.FromPeer config) (.start config) ts →
      ∀ frames, (pump config ts).result = some (.ok frames) →
        (pump config ts).pump.readies = [⟨some config.sessionId, .channelsReady⟩] ∧
          ⟨some config.sessionId, .channelsReady⟩ ∈ (pump config ts).pump.inbox) ∧
    ∀ (pairConfig : PairConfig) (schedule : List (Side × Turn)),
      Pair.NeverSilent pairConfig schedule →
      ∀ side frames, (Pair.run pairConfig schedule side).result = some (.ok frames) →
        (Pair.run pairConfig schedule side).pump.readies
            = [⟨some pairConfig.sessionId, .channelsReady⟩] ∧
          (Pair.run pairConfig schedule side.other).pump.readies ≠ [] :=
  ⟨readyAgreement_iff config ts, fun h _ hret => readyAgreement_fromPeer h hret,
    fun _ _ h _ _ hret => Pair.agreement_of_neverSilent h hret⟩

/-! ### A silent exit -/

def Sample.pairConfig : PairConfig := ⟨"sess_1", fun _ => NEGOTIATION_TIMEOUT_MS, "offer"⟩

/-- The host's channels open first and it says so; the controller hears it while its own channels
are still opening, and finds them open at the next tick. -/
def Sample.silentSchedule : List (Side × Turn) :=
  [(.host, Sample.turn (Sample.envelope (.offer (.plain "offer"))) [.control]),
    (.controller, Sample.turn (Sample.envelope (.answer (.plain "answer"))) [.control]),
    (.host, Sample.turn (.event (some (.connectionState .connected))) [.control]),
    (.controller, Sample.turn (.event (some (.connectionState .connected))) [.control]),
    (.host, Sample.turn (.event (some (.channelOpen .control))) []),
    (.host, Sample.turn .tick []),
    (.controller, Sample.turn (Sample.envelope .channelsReady) [.control]),
    (.controller, Sample.turn .tick [])]

/-- The controller returns without having announced itself, and the host waits for ever. -/
theorem readiness_agreement_fails :
    ¬ ReadyAgreement (Sample.pairConfig.pumpConfig .controller)
        (pump (Sample.pairConfig.pumpConfig .controller)
          ((Sample.silentSchedule.filter fun i => i.1 = .controller).map Prod.snd)) ∧
      (Pair.run Sample.pairConfig Sample.silentSchedule .controller).result = some (.ok []) ∧
      ∀ more frames,
        (Pair.run Sample.pairConfig (Sample.silentSchedule ++ more) .host).result
          ≠ some (.ok frames) := by
  have hret : (Pair.run Sample.pairConfig Sample.silentSchedule .controller).result
      = some (.ok []) := rfl
  have hsilent : (Pair.run Sample.pairConfig Sample.silentSchedule .controller).pump.readies = [] :=
    rfl
  refine ⟨?_, hret, fun more frames => Pair.never_returns hret hsilent more frames⟩
  intro h
  obtain ⟨hone, -⟩ := h [] rfl
  exact absurd hone (by decide)

end Rda
