/-
**A retry after a transient failure.**

The controller retries a negotiation that failed by a timing accident, with the PIN it was started
with.  The host ends its session when a negotiation fails, whatever the reason, and begins the next
one with a PIN of its own.  So a retry dials a host that shows another PIN, unless the same digits
are drawn again.

A round is one session of the host and the attempt of the controller that meets it.

Main definitions:

* `Rda.NegotiateError.isTransient`, `Rda.SessionConfig.run`, `Rda.SessionConfig.runWithRetry` — the
  controller's side;
* `Rda.shown`, `Rda.ServeWorld.drawn` — the digits on the host's screen;
* `Rda.Round`, `Rda.Retried` — the rounds of a composition that retries;
* `Rda.Undisturbed` — a round in which nothing goes wrong.

Main results:

* `Rda.waitLoop_drawn` — the PIN a session authenticates with is the last one it drew;
* `Rda.undisturbed_authenticates` — with the host's PIN an undisturbed round authenticates;
* `Rda.retry_keeps_pin_iff` — **the retries that meet the PIN they were started with**.
-/

import Rda.Dial
import Rda.Machine
import Rda.Serve

set_option relaxedAutoImplicit false
set_option autoImplicit false

namespace Rda

variable {P : Primitives}

/-! ### The controller -/

/-- Whether retrying the whole negotiation is likely to succeed. -/
def NegotiateError.isTransient : NegotiateError → Bool
  | .channelsNotOpen _ | .timedOut | .iceFailed | .closed => true
  | _ => false

/-- How many times a transient setup failure is retried before giving up. -/
def SETUP_ATTEMPTS : ℕ := 3

/-- What a controller is started with. -/
structure SessionConfig where
  pin : String
  identity : Identity

/-- Why an attempt failed. -/
inductive RunError
  | unreachable (what : String)
  | negotiation (e : NegotiateError)
  | authentication (e : AuthError)
  deriving DecidableEq, Repr

/-- Whether the error is a negotiation that may be tried again. -/
def RunError.isTransient : RunError → Bool
  | .negotiation e => e.isTransient
  | _ => false

/-- What the world decides in one attempt. -/
structure AttemptWorld where
  /-- Whether the signaling server can be reached. -/
  connect : Except String Unit
  dial : DialWorld
  inputs : List Dialling.Input
  handshake : HandshakeEnv
  /-- What arrives on the peer connection after negotiation. -/
  arrivals : List Arrival

/-- What dialling has come to: the session and its early frames. -/
def Dialling.result : Dialling →
    Option (Except NegotiateError (String × List (Channel × ControlFrame)))
  | .waiting _ => none
  | .pumping config n =>
      match n.result with
      | none => none
      | some (.error e) => some (.error e)
      | some (.ok frames) => some (.ok (config.sessionId, frames))
  | .failed e => some (.error e)

/-- Dials, and pumps until the peer connection is up. -/
def AttemptWorld.negotiate (world : AttemptWorld) :
    Option (Except NegotiateError (String × List (Channel × ControlFrame))) :=
  (Machine.run (Dialling.step world.dial) (.connectToHost world.dial) world.inputs).result

/-- Connects and authenticates; none while it is still negotiating. -/
def SessionConfig.run (P : Primitives) (config : SessionConfig) (world : AttemptWorld) :
    Option (Except RunError (Authenticated P)) :=
  match world.connect with
  | .error e => some (.error (.unreachable e))
  | .ok () =>
      match world.negotiate with
      | none => none
      | some (.error e) => some (.error (.negotiation e))
      | some (.ok (sessionId, frames)) =>
          match (authenticateAsController P world.handshake sessionId config.identity
              config.pin).run (.start (pushBackFrames frames world.arrivals)) with
          | .error e _ => some (.error (.authentication e))
          | .ok authenticated _ => some (.ok authenticated)

/-- An attempt that negotiates and authenticates succeeds. -/
theorem SessionConfig.run_of_negotiated {config : SessionConfig} {world : AttemptWorld}
    {sessionId : String} {frames : List (Channel × ControlFrame)} {authenticated : Authenticated P}
    {link : Link} (hconnect : world.connect = .ok ())
    (hnegotiate : world.negotiate = some (.ok (sessionId, frames)))
    (hauth : (authenticateAsController P world.handshake sessionId config.identity
      config.pin).run (.start (pushBackFrames frames world.arrivals)) = .ok authenticated link) :
    config.run P world = some (.ok authenticated) := by
  simp only [SessionConfig.run, hconnect, hnegotiate, hauth]

/-- Connects and authenticates, with `left` attempts left; a transient failure is retried. -/
def SessionConfig.runWithRetry (P : Primitives) (config : SessionConfig) :
    ℕ → List AttemptWorld → Option (Except RunError (Authenticated P))
  | _, [] => none
  | left, world :: rest =>
      match config.run P world with
      | none => none
      | some (.ok authenticated) => some (.ok authenticated)
      | some (.error e) =>
          if !e.isTransient || left ≤ 1 then some (.error e)
          else config.runWithRetry P (left - 1) rest

/-! ### The digits on the screen -/

/-- The digits on the screen and when they were drawn. -/
structure Shown where
  value : Fin 1000000
  issuedMs : ℕ

/-- What a turn of the wait does to the screen of a host that draws its PINs. -/
def Shown.next (s : Shown) : WaitTurn → Shown
  | .quiet nowMs value => if nowMs - s.issuedMs ≥ PIN_REFRESH_MS then ⟨value, nowMs⟩ else s
  | _ => s

/-- The PIN that shows these digits. -/
def Shown.pin (s : Shown) : SessionPin := .generate s.value s.issuedMs

/-- What the screen shows after some turns of the wait. -/
def shown (s : Shown) (turns : List WaitTurn) : Shown := Machine.run Shown.next s turns

/-- The turns of a wait up to the envelope that completes a dial. -/
def untilDialled : Waiting → List WaitTurn → List WaitTurn
  | _, [] => []
  | w, .envelope envelope :: rest =>
      if (w.take envelope).dialled.isSome then []
      else .envelope envelope :: untilDialled (w.take envelope) rest
  | w, turn :: rest => turn :: untilDialled w rest

/-- What the screen of a session shows when the session is dialled. -/
def ServeWorld.drawn (world : ServeWorld) : Shown :=
  shown ⟨world.pinValue, 0⟩
    (untilDialled ⟨.generate world.pinValue 0, 0, none, none⟩ world.waits)

/-- Whether a dial is complete has nothing to do with the PIN. -/
theorem untilDialled_repin (w : Waiting) (pin : SessionPin) (issuedMs : ℕ)
    (turns : List WaitTurn) :
    untilDialled { w with pin := pin, pinIssuedMs := issuedMs } turns = untilDialled w turns := by
  induction turns generalizing w with
  | nil => rfl
  | cons turn rest ih =>
      cases turn with
      | envelope envelope =>
          have htake : Waiting.take { w with pin := pin, pinIssuedMs := issuedMs } envelope
              = { w.take envelope with pin := pin, pinIssuedMs := issuedMs } := by
            unfold Waiting.take
            split <;> rfl
          have hdialled : Waiting.dialled { w.take envelope with
              pin := pin, pinIssuedMs := issuedMs } = (w.take envelope).dialled := rfl
          rw [untilDialled, untilDialled, htake, hdialled, ih]
      | closed => rw [untilDialled, untilDialled, ih] <;> simp
      | quiet nowMs value => rw [untilDialled, untilDialled, ih] <;> simp

/-- A host that was started without a PIN. -/
def drawing (allowInput : Bool) : ServeOptions := ⟨none, allowInput⟩

/-- The loop is left with the PIN that is on the screen then. -/
theorem waitLoop_shown {allowInput : Bool} (s : Shown) {w w' : Waiting} (hpin : w.pin = s.pin)
    (hissued : w.pinIssuedMs = s.issuedMs) {turns : List WaitTurn}
    {d : String × ConnectRequest × RelayCredentials}
    (h : waitLoop (drawing allowInput) w turns = some (.ok (w', d))) :
    w'.pin = (shown s (untilDialled w turns)).pin ∧
      w'.pinIssuedMs = (shown s (untilDialled w turns)).issuedMs := by
  induction turns generalizing s w with
  | nil => simp [waitLoop] at h
  | cons turn rest ih =>
      cases turn with
      | closed => simp [waitLoop] at h
      | quiet nowMs value =>
          rw [untilDialled, shown, Machine.run_cons, Shown.next, ← hissued]
          · rw [waitLoop] at h
            by_cases hdue : nowMs - w.pinIssuedMs ≥ PIN_REFRESH_MS
            · rw [if_pos hdue] at h ⊢
              rw [← untilDialled_repin w (.generate value nowMs) nowMs]
              exact ih ⟨value, nowMs⟩ rfl rfl h
            · rw [if_neg hdue] at h ⊢
              exact ih s hpin hissued h
          · simp
      | envelope envelope =>
          have htake := w.take_pin envelope
          rw [waitLoop] at h
          rw [untilDialled]
          cases hd : (w.take envelope).dialled with
          | some dialled =>
              simp only [hd] at h
              cases h
              exact ⟨htake.1.trans hpin, htake.2.trans hissued⟩
          | none =>
              simp only [hd] at h
              exact ih s (htake.1.trans hpin) (htake.2.trans hissued) h

/-- A session is dialled: the wait loop is left, with these variables. -/
def ServeWorld.Dialled (options : ServeOptions) (world : ServeWorld) (w : Waiting)
    (d : String × ConnectRequest × RelayCredentials) : Prop :=
  waitLoop options ⟨.generate world.pinValue 0, 0, none, none⟩ world.waits = some (.ok (w, d))

/-- The PIN a session authenticates with is the last one it drew. -/
theorem waitLoop_drawn {allowInput : Bool} {world : ServeWorld} {w : Waiting}
    {d : String × ConnectRequest × RelayCredentials} (h : world.Dialled (drawing allowInput) w d) :
    w.pin = world.drawn.pin ∧ w.pinIssuedMs = world.drawn.issuedMs :=
  waitLoop_shown ⟨world.pinValue, 0⟩ rfl rfl h

/-! ### Rounds -/

/-- One session of the host and the attempt of the controller that meets it. -/
structure Round where
  host : ServeWorld
  attempt : AttemptWorld
  /-- The host's clock when the round failed. -/
  failedAtMs : ℕ

section Rounds

variable (P) (allowInput : Bool) (identity : Identity) (config : SessionConfig)

/-- The round fails by a timing accident on both sides, before authentication, while the PIN of the
session is still young. -/
structure Round.Failed (r : Round) : Prop where
  host : ∃ e, oneSession P (drawing allowInput) identity r.host = some (.error (.negotiation e)) ∧
    e.isTransient = true
  controller : ∃ e, config.run P r.attempt = some (.error (.negotiation e)) ∧ e.isTransient = true
  young : r.failedAtMs - r.host.drawn.issuedMs ≤ PIN_REFRESH_MS

/-- The round is a retry: all rounds before it have failed, and attempts were left. -/
def Retried (rounds : List Round) (r : Round) : Prop :=
  ∃ before after, rounds = before ++ r :: after ∧ before ≠ [] ∧ before.length < SETUP_ATTEMPTS ∧
    ∀ r' ∈ before, r'.Failed P allowInput identity config

/-- The controller comes to every retry. -/
theorem runWithRetry_of_retried {rounds : List Round} {r : Round}
    (h : Retried P allowInput identity config rounds r) :
    ∃ left after, 0 < left ∧
      config.runWithRetry P SETUP_ATTEMPTS (rounds.map Round.attempt)
        = config.runWithRetry P left (r.attempt :: after) := by
  obtain ⟨before, after, rfl, -, hleft, hfailed⟩ := h
  -- Each failed round uses up one attempt.
  have main : ∀ left, before.length < left →
      config.runWithRetry P left ((before ++ r :: after).map Round.attempt)
        = config.runWithRetry P (left - before.length) (r.attempt :: after.map Round.attempt) := by
    intro left hlt
    induction before generalizing left with
    | nil => rfl
    | cons r' before ih =>
        obtain ⟨e, hrun, htransient⟩ := (hfailed r' List.mem_cons_self).controller
        simp only [List.length_cons] at hlt hleft ⊢
        rw [List.cons_append, List.map_cons, SessionConfig.runWithRetry, hrun]
        have hgo : (!(RunError.negotiation e).isTransient || decide (left ≤ 1)) = false := by
          simp only [RunError.isTransient, htransient, Bool.not_true, Bool.false_or,
            decide_eq_false_iff_not]
          omega
        simp only [hgo, Bool.false_eq_true, if_false]
        refine (ih (by omega) (fun r'' h => hfailed r'' (List.mem_cons_of_mem _ h)) (left - 1)
          (by omega)).trans ?_
        rw [show left - 1 - before.length = left - (before.length + 1) by omega]
  exact ⟨_, _, Nat.sub_pos_of_lt hleft, main SETUP_ATTEMPTS hleft⟩

end Rounds

/-- A round in which nothing goes wrong: the host is dialled, both ends agree on a session and see
each other's certificate, everything they send is sent, and the PIN is alive. -/
structure Undisturbed (P : Primitives) (allowInput : Bool) (r : Round) where
  w : Waiting
  sessionId : String
  request : ConnectRequest
  credentials : RelayCredentials
  fpController : Bytes 32
  fpHost : Bytes 32
  dialled : r.host.Dialled (drawing allowInput) w (sessionId, request, credentials)
  accepted : acceptConnection r.host sessionId credentials = some (.ok [])
  connected : r.attempt.connect = .ok ()
  negotiated : r.attempt.negotiate = some (.ok (sessionId, []))
  controllerLocal : r.attempt.handshake.localFingerprint = some fpController
  controllerRemote : r.attempt.handshake.remoteFingerprint = some fpHost
  hostLocal : r.host.handshake.localFingerprint = some fpHost
  hostRemote : r.host.handshake.remoteFingerprint = some fpController
  controllerSends : ∀ n, r.attempt.handshake.sendResult n = .ok ()
  hostSends : ∀ n, r.host.handshake.sendResult n = .ok ()
  alive : r.host.authMs - w.pinIssuedMs ≤ PIN_TTL_MS

namespace Undisturbed

variable {allowInput : Bool} {r : Round}

/-- The two ends of an undisturbed round. -/
def pairing (u : Undisturbed P allowInput r) (identity controller : Identity) : Pairing where
  sessionId := u.sessionId
  pin := u.w.pin
  granted := (drawing allowInput).granted
  nowMs := r.host.authMs
  controller := controller
  host := identity
  controllerEnv := r.attempt.handshake
  hostEnv := r.host.handshake
  fpController := u.fpController
  fpHost := u.fpHost
  controllerLocal := u.controllerLocal
  controllerRemote := u.controllerRemote
  hostLocal := u.hostLocal
  hostRemote := u.hostRemote

/-- Both ends authenticate, on what they send each other. -/
def Authenticates (u : Undisturbed P allowInput r) (identity : Identity) (config : SessionConfig) :
    Prop :=
  ∃ (toController toHost : List Arrival) (authC authH : Authenticated P) (linkC linkH : Link)
    (served : Served P),
    (u.pairing identity config.identity).Completed toController toHost authC authH linkC linkH ∧
      oneSession P (drawing allowInput) identity { r.host with arrivals := toHost }
        = some (.ok served) ∧
      config.run P { r.attempt with arrivals := toController } = some (.ok authC)

/-- With the host's PIN an undisturbed round authenticates. -/
theorem authenticates (hP : P.Lawful) (u : Undisturbed P allowInput r) (identity : Identity)
    {config : SessionConfig} (hpin : u.w.pin.digits = config.pin) :
    u.Authenticates identity config := by
  obtain ⟨hdrawn, hissued⟩ := waitLoop_drawn u.dialled
  have husable : u.w.pin.isUsable r.host.authMs = true := by
    have halive := u.alive
    rw [hissued] at halive
    rw [hdrawn]
    simpa [SessionPin.isUsable, Shown.pin, SessionPin.generate, MAX_PIN_ATTEMPTS] using halive
  obtain ⟨toController, toHost, authC, authH, linkC, linkH, hcompleted⟩ :=
    Pairing.exists_completed hP (u.pairing identity config.identity) husable u.controllerSends
      u.hostSends
  refine ⟨toController, toHost, authC, authH, linkC, linkH, _, hcompleted,
    oneSession_eq_ok_iff.2 ⟨_, u.w, u.sessionId, u.request, u.credentials, [], authH, linkH, rfl,
      u.dialled, u.accepted, hcompleted.host, rfl⟩, ?_⟩
  have hcontroller : (authenticateAsController P r.attempt.handshake u.sessionId config.identity
      config.pin).run (.start toController) = .ok authC linkC := hpin ▸ hcompleted.controller
  exact SessionConfig.run_of_negotiated u.connected u.negotiated hcontroller

end Undisturbed

/-! ### Retries -/

/-- What the screen of a session shows after some turns of its wait. -/
def ServeWorld.screen (world : ServeWorld) (turns : ℕ) : Shown :=
  shown ⟨world.pinValue, 0⟩ (world.waits.take turns)

/-- A controller that is started with what a screen shows. -/
def SessionConfig.reading (s : Shown) (controller : Identity) : SessionConfig :=
  ⟨s.pin.digits, controller⟩

/-- A session that is dialled verifies against the digits on a screen exactly when they are those it
drew last. -/
theorem dialled_pin_iff {allowInput : Bool} {world : ServeWorld} {w : Waiting}
    {d : String × ConnectRequest × RelayCredentials} (h : world.Dialled (drawing allowInput) w d)
    (s : Shown) : w.pin.digits = s.pin.digits ↔ world.drawn.value = s.value := by
  rw [(waitLoop_drawn h).1]
  exact formatPin_injective.eq_iff

/-- **The retries that meet the PIN they were started with.**  Whatever the rounds are, every retry
is verified against the PIN that was on the screen when the controller first dialled exactly when
the session of every retry that is dialled has drawn the digits of that PIN again.  Such a retry, if
nothing else goes wrong, authenticates. -/
theorem retry_keeps_pin_iff (P : Primitives) (allowInput : Bool) (identity controller : Identity)
    (first : Round) (rest : List Round) (dialledAt : ℕ) :
    ((∀ r, Retried P allowInput identity (.reading (first.host.screen dialledAt) controller)
          (first :: rest) r →
        ∀ w d, r.host.Dialled (drawing allowInput) w d →
          w.pin.digits = (first.host.screen dialledAt).pin.digits) ↔
      ∀ r, Retried P allowInput identity (.reading (first.host.screen dialledAt) controller)
          (first :: rest) r →
        (∃ w d, r.host.Dialled (drawing allowInput) w d) →
          r.host.drawn.value = (first.host.screen dialledAt).value) ∧
    (P.Lawful → ∀ r : Round, r.host.drawn.value = (first.host.screen dialledAt).value →
      ∀ u : Undisturbed P allowInput r,
        u.Authenticates identity (.reading (first.host.screen dialledAt) controller)) := by
  refine ⟨⟨?_, ?_⟩, ?_⟩
  · rintro h r hr ⟨w, d, hdialled⟩
    exact (dialled_pin_iff hdialled _).1 (h r hr w d hdialled)
  · intro h r hr w d hdialled
    exact (dialled_pin_iff hdialled _).2 (h r hr ⟨w, d, hdialled⟩)
  · intro hP r hdrawn u
    exact u.authenticates hP identity ((dialled_pin_iff u.dialled _).2 hdrawn)

/-! ### A retry -/

namespace Sample

/-- Device 1 dials, and takes these turns of the pump. -/
def attempt (turns : List Turn) : AttemptWorld where
  connect := .ok ()
  dial := ⟨.ok (), 30000, fun _ => .ok (), .ok "offer", .ok ()⟩
  inputs := .envelope ⟨some "sess_1", .relayCredentials ⟨[], 600, []⟩⟩ :: turns.map .turn
  handshake := (pairing options.granted).controllerEnv
  arrivals := []

/-- A session that shows these digits and takes these turns of the pump. -/
def session (value : Fin 1000000) (turns : List Turn) : ServeWorld :=
  { world ["view"] with pinValue := value, turns := turns }

/-- No path to the other end is found. -/
def lostPath : List Turn := [turn (.event (some (.connectionState .failed))) []]

/-- A round that fails by accident, ten seconds after the PIN was shown. -/
def failing : Round := ⟨session pinValue lostPath, attempt lostPath, 10000⟩

/-- The retry, met with these digits, in which nothing goes wrong. -/
def retry (value : Fin 1000000) : Round :=
  ⟨session value (world ["view"]).turns, attempt (world ["view"]).turns, 0⟩

theorem failed_failing (pin : String) :
    failing.Failed .sample true (device 2) ⟨pin, device 1⟩ where
  host := ⟨.iceFailed, rfl, rfl⟩
  controller := ⟨.iceFailed, rfl, rfl⟩
  young := by decide

theorem retried_retry (pin : String) (value : Fin 1000000) :
    Retried .sample true (device 2) ⟨pin, device 1⟩ [failing, retry value] (retry value) := by
  refine ⟨[failing], [], rfl, by simp, by decide, ?_⟩
  intro r hr
  rw [List.mem_singleton.1 hr]
  exact failed_failing pin

/-- The retry, if the digits are the same. -/
def undisturbed : Undisturbed .sample true (retry pinValue) where
  w := _
  sessionId := _
  request := _
  credentials := _
  fpController := _
  fpHost := _
  dialled := rfl
  accepted := rfl
  connected := rfl
  negotiated := rfl
  controllerLocal := rfl
  controllerRemote := rfl
  hostLocal := rfl
  hostRemote := rfl
  controllerSends _ := rfl
  hostSends _ := rfl
  alive := by decide

end Sample

/-- A retry that is met with the digits of the first PIN authenticates. -/
theorem retry_authenticates :
    Sample.undisturbed.Authenticates (Sample.device 2)
      (.reading (Sample.failing.host.screen 0) (Sample.device 1)) :=
  (retry_keeps_pin_iff .sample true (Sample.device 2) (Sample.device 1) Sample.failing
    [Sample.retry Sample.pinValue] 0).2 Primitives.sample_lawful _ rfl Sample.undisturbed

/-- The path is lost in the first round, on both sides, and nothing goes wrong in the second; but
the host shows another PIN by then. -/
theorem retry_meets_new_pin :
    Retried .sample true (Sample.device 2)
        (.reading (Sample.failing.host.screen 0) (Sample.device 1))
        [Sample.failing, Sample.retry 0] (Sample.retry 0) ∧
      ∃ w d, (Sample.retry 0).host.Dialled (drawing true) w d ∧
        w.pin.digits ≠ (Sample.failing.host.screen 0).pin.digits :=
  ⟨Sample.retried_retry _ 0, _, _, rfl, by decide⟩

end Rda
