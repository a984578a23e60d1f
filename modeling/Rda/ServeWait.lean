/-
**The PIN on the screen.**

While the host waits to be dialled it shows a PIN, which has a limited life.  The wait loop replaces
an old PIN, but it looks at the PIN only when an interval has passed without an envelope.  Every
envelope, also one that is ignored, starts the interval anew.

A timed schedule says how each wait ends: an envelope comes before the interval has passed, or the
interval passes.  The loop's variables at the start of each wait, with the clock, are a machine with
these as its inputs; the machine stands still once the loop has been left.

Main definitions:

* `Rda.TimedTurn`, `Rda.clocked` — a schedule, and the turns of the wait loop it makes;
* `Rda.Screen`, `Rda.Screen.step` — the clock and the loop's variables;
* `Rda.Screen.Valid` — the PIN is alive, and a request accepted now is given a recent one;
* `Rda.Screen.Prompt` — an envelope that does not complete a dial comes before the PIN is due.

Main results:

* `Rda.waitLoop_clocked_iff` — the machine is the wait loop;
* `Rda.Screen.inv_step`, `Rda.Screen.valid_iff_along` — one turn, and whole schedules;
* `Rda.displayed_pin_valid_iff` — **the schedules that keep the displayed PIN valid**.
-/

import Rda.Machine
import Rda.Serve

set_option relaxedAutoImplicit false
set_option autoImplicit false

namespace Rda

/-- How often the wait loop wakes to check whether the displayed PIN has aged out. -/
def PIN_CHECK_INTERVAL_MS : ℕ := 10000

/-! ### Timed schedules -/

/-- How one wait ends. -/
inductive TimedTurn
  /-- An envelope comes before the interval has passed. -/
  | arrives (afterMs : ℕ) (inTime : afterMs ≤ PIN_CHECK_INTERVAL_MS) (envelope : Envelope)
  /-- The interval passes; the digits that are drawn if the PIN has to be replaced. -/
  | quiet (value : Fin 1000000)

namespace TimedTurn

/-- How long the wait took. -/
def duration : TimedTurn → ℕ
  | .arrives afterMs _ _ => afterMs
  | .quiet _ => PIN_CHECK_INTERVAL_MS

/-- The turn of the wait loop that ends at `nowMs`. -/
def turn (nowMs : ℕ) : TimedTurn → WaitTurn
  | .arrives _ _ envelope => .envelope envelope
  | .quiet value => .quiet nowMs value

end TimedTurn

/-- The turns of the wait loop that a schedule makes from `nowMs` on. -/
def clocked (nowMs : ℕ) : List TimedTurn → List WaitTurn
  | [] => []
  | t :: ts => t.turn (nowMs + t.duration) :: clocked (nowMs + t.duration) ts

/-! ### The loop as a machine -/

/-- What the loop does to its variables at a quiet moment. -/
def Waiting.refresh (options : ServeOptions) (w : Waiting) (nowMs : ℕ) (value : Fin 1000000) :
    Waiting :=
  if nowMs - w.pinIssuedMs ≥ PIN_REFRESH_MS then
    match mintPin options value nowMs with
    | .ok pin => { w with pin := pin, pinIssuedMs := nowMs }
    | .error _ => w
  else w

/-- The clock and the loop's variables, at the start of a wait or when the loop was left. -/
structure Screen where
  nowMs : ℕ
  w : Waiting

namespace Screen

/-- A PIN is shown and nobody has called. -/
def start (pin : SessionPin) : Screen := ⟨0, ⟨pin, 0, none, none⟩⟩

/-- A session can begin, so the loop has been left. -/
def left (s : Screen) : Bool := s.w.dialled.isSome

/-- One wait. -/
def step (options : ServeOptions) (s : Screen) (t : TimedTurn) : Screen :=
  if s.left then s
  else
    match t with
    | .arrives afterMs _ envelope => ⟨s.nowMs + afterMs, s.w.take envelope⟩
    | .quiet value =>
        ⟨s.nowMs + PIN_CHECK_INTERVAL_MS,
          s.w.refresh options (s.nowMs + PIN_CHECK_INTERVAL_MS) value⟩

/-- How old the PIN on the screen is. -/
def pinAge (s : Screen) (afterMs : ℕ) : ℕ := s.nowMs + afterMs - s.w.pinIssuedMs

/-- While the host waits, the PIN on the screen is alive and a request that is accepted before the
loop looks at the PIN again is given a recent one; and so was the request that ended the wait. -/
structure Valid (s : Screen) : Prop where
  alive : s.left = false → ∀ afterMs ≤ PIN_CHECK_INTERVAL_MS, s.pinAge afterMs < PIN_TTL_MS
  handed : s.left = false → ∀ afterMs ≤ PIN_CHECK_INTERVAL_MS,
    s.pinAge afterMs ≤ PIN_REFRESH_MS + PIN_CHECK_INTERVAL_MS
  accepted : s.left = true → s.pinAge 0 ≤ PIN_REFRESH_MS + PIN_CHECK_INTERVAL_MS

/-- An envelope that does not complete a dial comes while the PIN is not yet due for replacement. -/
def Prompt (s : Screen) : TimedTurn → Prop
  | .arrives afterMs _ envelope =>
      s.left = true ∨ (s.w.take envelope).dialled.isSome = true ∨ s.pinAge afterMs ≤ PIN_REFRESH_MS
  | .quiet _ => True

instance (s : Screen) : DecidablePred s.Prompt
  | .arrives _ _ _ => inferInstanceAs (Decidable (_ ∨ _ ∨ _))
  | .quiet _ => inferInstanceAs (Decidable True)

end Screen

/-! ### The machine is the loop -/

theorem mintPin_ok {options : ServeOptions} {value : Fin 1000000} {nowMs : ℕ} {pin : SessionPin}
    (h : mintPin options value nowMs = .ok pin) (value' : Fin 1000000) (nowMs' : ℕ) :
    ∃ pin' : SessionPin, mintPin options value' nowMs' = .ok pin' ∧ pin'.issuedMs = nowMs' ∧
      pin'.attempts = 0 ∧ pin'.consumed = false := by
  unfold mintPin at h ⊢
  cases hfixed : options.fixedPin with
  | none => exact ⟨_, rfl, rfl, rfl, rfl⟩
  | some digits =>
      rw [hfixed] at h
      by_cases hpin : isPin digits = true
      · refine ⟨⟨digits, nowMs', 0, false, hpin⟩, ?_, rfl, rfl, rfl⟩
        simp [SessionPin.fromDigits, hpin, Except.mapError]
      · simp [SessionPin.fromDigits, hpin, Except.mapError] at h

theorem refresh_dialled (options : ServeOptions) (w : Waiting) (nowMs : ℕ) (value : Fin 1000000) :
    (w.refresh options nowMs value).dialled = w.dialled := by
  unfold Waiting.refresh
  split_ifs
  · split <;> rfl
  · rfl

/-- A PIN can be made at any time: the host was started with no PIN, or with a well-formed one. -/
def Mintable (options : ServeOptions) : Prop :=
  ∃ value nowMs pin, mintPin options value nowMs = .ok pin

theorem Mintable.refresh_cases {options : ServeOptions} (h : Mintable options) (w : Waiting)
    (nowMs : ℕ) (value : Fin 1000000) :
    (nowMs - w.pinIssuedMs < PIN_REFRESH_MS ∧ w.refresh options nowMs value = w) ∨
      (PIN_REFRESH_MS ≤ nowMs - w.pinIssuedMs ∧ ∃ pin, mintPin options value nowMs = .ok pin ∧
        pin.issuedMs = nowMs ∧ pin.attempts = 0 ∧ pin.consumed = false ∧
        w.refresh options nowMs value = { w with pin := pin, pinIssuedMs := nowMs }) := by
  obtain ⟨value₀, nowMs₀, pin₀, h⟩ := h
  obtain ⟨pin, hpin, hissued, hattempts, hconsumed⟩ := mintPin_ok h value nowMs
  unfold Waiting.refresh
  by_cases hdue : nowMs - w.pinIssuedMs ≥ PIN_REFRESH_MS
  · rw [if_pos hdue, hpin]
    exact .inr ⟨hdue, pin, rfl, hissued, hattempts, hconsumed, rfl⟩
  · rw [if_neg hdue]
    exact .inl ⟨by omega, rfl⟩

theorem waitLoop_quiet {options : ServeOptions} (h : Mintable options) (w : Waiting) (nowMs : ℕ)
    (value : Fin 1000000) (rest : List WaitTurn) :
    waitLoop options w (.quiet nowMs value :: rest)
      = waitLoop options (w.refresh options nowMs value) rest := by
  rw [waitLoop]
  rcases h.refresh_cases w nowMs value with ⟨hfresh, heq⟩ | ⟨hdue, pin, hpin, -, -, -, heq⟩
  · rw [if_neg (by omega), heq]
  · rw [if_pos hdue, heq, hpin]

theorem Screen.step_of_left {options : ServeOptions} {s : Screen} (h : s.left = true)
    (t : TimedTurn) : s.step options t = s := if_pos h

theorem Screen.step_arrives {options : ServeOptions} {s : Screen} (h : s.left = false) (afterMs : ℕ)
    (inTime : afterMs ≤ PIN_CHECK_INTERVAL_MS) (envelope : Envelope) :
    s.step options (.arrives afterMs inTime envelope)
      = ⟨s.nowMs + afterMs, s.w.take envelope⟩ := if_neg (by simp [h])

theorem Screen.step_quiet {options : ServeOptions} {s : Screen} (h : s.left = false)
    (value : Fin 1000000) :
    s.step options (.quiet value) = ⟨s.nowMs + PIN_CHECK_INTERVAL_MS,
      s.w.refresh options (s.nowMs + PIN_CHECK_INTERVAL_MS) value⟩ := if_neg (by simp [h])

theorem Screen.run_of_left {options : ServeOptions} {s : Screen} (h : s.left = true)
    (ts : List TimedTurn) : Machine.run (Screen.step options) s ts = s := by
  induction ts with
  | nil => rfl
  | cons t ts ih => rw [Machine.run_cons, step_of_left h, ih]

/-- **The machine is the wait loop.**  The loop is left with what the machine stands still at. -/
theorem waitLoop_clocked_iff {options : ServeOptions} (h : Mintable options) {s : Screen}
    (hs : s.left = false) (ts : List TimedTurn) {w : Waiting}
    {d : String × ConnectRequest × RelayCredentials} :
    waitLoop options s.w (clocked s.nowMs ts) = some (.ok (w, d)) ↔
      (Machine.run (Screen.step options) s ts).w = w ∧ w.dialled = some d := by
  induction ts generalizing s with
  | nil =>
      simp only [clocked, waitLoop, Machine.run_nil]
      constructor
      · intro h
        cases h
      · rintro ⟨rfl, hd⟩
        simp [Screen.left, hd] at hs
  | cons t ts ih =>
      cases t with
      | arrives afterMs inTime envelope =>
          rw [clocked, Machine.run_cons, Screen.step_arrives hs, TimedTurn.turn, waitLoop]
          cases hd : (s.w.take envelope).dialled with
          | none =>
              exact ih (s := ⟨s.nowMs + afterMs, s.w.take envelope⟩) (by simp [Screen.left, hd])
          | some dialled =>
              rw [Screen.run_of_left (by simp [Screen.left, hd])]
              constructor
              · intro heq
                cases heq
                exact ⟨rfl, hd⟩
              · rintro ⟨rfl, hd'⟩
                rw [Option.some.inj (hd.symm.trans hd')]
      | quiet value =>
          rw [clocked, Machine.run_cons, Screen.step_quiet hs, TimedTurn.turn, waitLoop_quiet h]
          refine ih (s := ⟨s.nowMs + PIN_CHECK_INTERVAL_MS,
            s.w.refresh options (s.nowMs + PIN_CHECK_INTERVAL_MS) value⟩) ?_
          rw [Screen.left, refresh_dialled]
          exact hs

/-! ### Schedules -/

namespace Screen

/-- What holds at the start of every wait, and when the loop is left, if the schedule is prompt. -/
structure Inv (s : Screen) : Prop where
  stamped : s.w.pin.issuedMs = s.w.pinIssuedMs
  unspent : s.w.pin.attempts = 0 ∧ s.w.pin.consumed = false
  waiting : s.left = false → s.pinAge 0 ≤ PIN_REFRESH_MS
  accepted : s.left = true → s.pinAge 0 ≤ PIN_REFRESH_MS + PIN_CHECK_INTERVAL_MS

theorem Inv.valid {s : Screen} (h : s.Inv) : s.Valid := by
  have hrefresh : PIN_REFRESH_MS = 150000 := rfl
  have hinterval : PIN_CHECK_INTERVAL_MS = 10000 := rfl
  have httl : PIN_TTL_MS = 300000 := rfl
  constructor
  · intro hw afterMs hafter
    have hage := h.waiting hw
    simp only [pinAge] at hage ⊢
    omega
  · intro hw afterMs hafter
    have hage := h.waiting hw
    simp only [pinAge] at hage ⊢
    omega
  · exact h.accepted

/-- A prompt turn keeps the PIN recent. -/
theorem inv_step {options : ServeOptions} (hm : Mintable options) {s : Screen} (h : s.Inv)
    {t : TimedTurn} (hprompt : s.Prompt t) : (s.step options t).Inv := by
  cases hs : s.left with
  | true =>
      rw [step_of_left hs]
      exact h
  | false =>
      have hage := h.waiting hs
      cases t with
      | arrives afterMs inTime envelope =>
          rw [step_arrives hs]
          obtain ⟨hpin, hissued⟩ := Waiting.take_pin s.w envelope
          refine ⟨?_, ?_, ?_, ?_⟩
          · simp only [hpin, hissued, h.stamped]
          · simp only [hpin, h.unspent, and_self]
          · intro hopen
            -- The envelope does not complete a dial, so it came before the PIN was due.
            rcases hprompt with hleft | hdial | hdue
            · simp [hs] at hleft
            · simp [left, hdial] at hopen
            · simpa only [pinAge, hissued, Nat.add_zero] using hdue
          · intro _
            simp only [pinAge, hissued] at hage ⊢
            omega
      | quiet value =>
          rw [step_quiet hs]
          have hopen : (s.w.refresh options (s.nowMs + PIN_CHECK_INTERVAL_MS) value).dialled.isSome
              = false := by
            rw [refresh_dialled]
            exact hs
          rcases hm.refresh_cases s.w (s.nowMs + PIN_CHECK_INTERVAL_MS) value with
            ⟨hfresh, heq⟩ | ⟨-, pin, -, hissued, hattempts, hconsumed, heq⟩
          · rw [heq] at hopen ⊢
            refine ⟨h.stamped, h.unspent, fun _ => ?_, fun hl => ?_⟩
            · simp only [pinAge]
              omega
            · simp [left, hopen] at hl
          · rw [heq] at hopen ⊢
            refine ⟨hissued, ⟨hattempts, hconsumed⟩, fun _ => ?_, fun hl => ?_⟩
            · simp only [pinAge]
              omega
            · simp [left, hopen] at hl

theorem inv_start {options : ServeOptions} {value : Fin 1000000} {pin : SessionPin}
    (h : mintPin options value 0 = .ok pin) : (start pin).Inv := by
  obtain ⟨pin', hpin', hissued, hattempts, hconsumed⟩ := mintPin_ok h value 0
  cases h.symm.trans hpin'
  exact ⟨hissued, ⟨hattempts, hconsumed⟩, fun _ => Nat.zero_le _, fun hl => by cases hl⟩

/-- **Whole schedules.**  The displayed PIN is valid at every point of a schedule, whatever comes
next, exactly when every turn of it is prompt. -/
theorem valid_iff_along {options : ServeOptions} (hm : Mintable options) {s : Screen} (hs : s.Inv)
    (ts : List TimedTurn) :
    (∀ js, js <+: ts → (Machine.run (step options) s js).Valid) ↔
      Machine.Along (step options) Prompt s ts := by
  refine Machine.forall_prefix_iff_along Inv Valid (fun s h => h.valid)
    (fun s t h hprompt => inv_step hm h hprompt) ?_ hs ts
  intro s t _ hbad hvalid
  cases t with
  | arrives afterMs inTime envelope =>
      simp only [Prompt, not_or, Bool.not_eq_true, not_le] at hbad
      obtain ⟨hopen, hnodial, hdue⟩ := hbad
      -- The next look at the PIN is a whole interval away, and a request may come right before it.
      rw [step_arrives hopen] at hvalid
      have hage := hvalid.handed hnodial PIN_CHECK_INTERVAL_MS le_rfl
      simp only [pinAge, (Waiting.take_pin s.w envelope).2] at hage hdue
      omega
  | quiet value => exact hbad trivial

end Screen

/-- **The schedules that keep the displayed PIN valid.**  At every point of a schedule, whatever
comes next, the PIN on the screen is alive and a request is given one that is recent, exactly when
no envelope that leaves the host waiting comes after the PIN is due for replacement.  In such a
schedule the PIN that authentication is run with is recent, and usable. -/
theorem displayed_pin_valid_iff {options : ServeOptions} {value : Fin 1000000} {pin : SessionPin}
    (h : mintPin options value 0 = .ok pin) (ts : List TimedTurn) :
    ((∀ js, js <+: ts → (Machine.run (Screen.step options) (.start pin) js).Valid) ↔
      Machine.Along (Screen.step options) Screen.Prompt (.start pin) ts) ∧
    (Machine.Along (Screen.step options) Screen.Prompt (.start pin) ts →
      ∀ w d, waitLoop options ⟨pin, 0, none, none⟩ (clocked 0 ts) = some (.ok (w, d)) →
        (Machine.run (Screen.step options) (.start pin) ts).nowMs - w.pinIssuedMs
            ≤ PIN_REFRESH_MS + PIN_CHECK_INTERVAL_MS ∧
          w.pin.isUsable (Machine.run (Screen.step options) (.start pin) ts).nowMs = true) := by
  have hm : Mintable options := ⟨value, 0, pin, h⟩
  refine ⟨Screen.valid_iff_along hm (Screen.inv_start h) ts, ?_⟩
  intro hprompt w d hloop
  obtain ⟨hw, hd⟩ := (waitLoop_clocked_iff hm (s := .start pin) rfl ts).1 hloop
  have hinv := Machine.run_invariant_along Screen.Inv
    (fun s t hs hprompt => (Screen.inv_step hm hs hprompt : (s.step options t).Inv))
    (Screen.inv_start h) hprompt
  have hage := hinv.accepted (by rw [Screen.left, hw, hd]; rfl)
  simp only [Screen.pinAge, hw, Nat.add_zero] at hage
  refine ⟨hage, ?_⟩
  have hstamped := hinv.stamped
  have hunspent := hinv.unspent
  rw [hw] at hstamped hunspent
  simp only [SessionPin.isUsable, hunspent, hstamped, Bool.not_false, Bool.true_and,
    Bool.and_eq_true, decide_eq_true_eq]
  have hbound : PIN_REFRESH_MS + PIN_CHECK_INTERVAL_MS ≤ PIN_TTL_MS := by decide
  exact ⟨by decide, hage.trans hbound⟩

/-! ### Two schedules -/

namespace Sample

/-- An envelope that a waiting host ignores. -/
def ignored : Envelope := ⟨some "sess_0", .peerGone⟩

/-- Nobody calls for five minutes, and then device 1 does. -/
def idleSchedule : List TimedTurn :=
  List.replicate 30 (.quiet 7) ++
    [.arrives 5000 (by decide) ⟨some "sess_1", .relayCredentials ⟨[], 600, []⟩⟩,
      .arrives 0 (by decide) ⟨some "sess_1", .connectRequest (request ["view"])⟩]

/-- Every nine seconds there is an envelope to ignore, for more than five minutes. -/
def busySchedule : List TimedTurn :=
  List.replicate 34 (.arrives 9000 (by decide) ignored) ++
    [.arrives 5000 (by decide) ⟨some "sess_1", .relayCredentials ⟨[], 600, []⟩⟩,
      .arrives 0 (by decide) ⟨some "sess_1", .connectRequest (request ["view"])⟩]

end Sample

theorem displayed_pin_valid_idle :
    mintPin Sample.options Sample.pinValue 0 = .ok (.generate Sample.pinValue 0) ∧
      ∀ js, js <+: Sample.idleSchedule →
        (Machine.run (Screen.step Sample.options)
          (.start (.generate Sample.pinValue 0)) js).Valid :=
  ⟨rfl, (displayed_pin_valid_iff
    (show mintPin Sample.options Sample.pinValue 0 = .ok (.generate Sample.pinValue 0) from rfl)
    Sample.idleSchedule).1.2 (by decide +kernel)⟩

/-- The PIN is never looked at: it is dead while it is still on the screen, and the request that
comes then is accepted with it. -/
theorem displayed_pin_dies :
    ¬ (Machine.run (Screen.step Sample.options) (.start (.generate Sample.pinValue 0))
        (Sample.busySchedule.take 34)).Valid ∧
      ∃ w d, waitLoop Sample.options ⟨.generate Sample.pinValue 0, 0, none, none⟩
          (clocked 0 Sample.busySchedule) = some (.ok (w, d)) ∧
        w.pin = .generate Sample.pinValue 0 ∧ w.pin.isUsable 311000 = false := by
  constructor
  · intro h
    exact absurd (h.alive (by decide +kernel) 0 (by decide)) (by decide +kernel)
  · exact ⟨_, _, rfl, rfl, by decide⟩

end Rda
