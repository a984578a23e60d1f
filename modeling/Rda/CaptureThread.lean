/-
**The capture thread and its recovery.**

The thread asks the backend for one frame after the other.  When the session is lost it starts the
capture again, and it gives up after five failures in a row.  Both are decided elsewhere: a start
that fails leaves the backend with nothing to capture, which it reports as an error that nobody
recovers from; and a start that succeeds finds the display as it was when the displays were
enumerated, so that frames of a display with another size are lost again, one after the other.

The system decides what it has an image of, and when: at each turn of the loop, for the frame and,
should the capture be started again, for that.

Main definitions:

* `Rda.CaptureThread.spawn`, `Rda.CaptureThread.step` — the thread;
* `Rda.CaptureThread.RestartFails` — a turn in which the session is lost and cannot be restarted;
* `Rda.Steady` — the display can be captured, keeps its size, and changes;
* `Rda.CaptureThread.Recovers` — the thread goes on and publishes a frame.

Main results:

* `Rda.CaptureThread.step_capturing` — one turn of a thread that has something to capture;
* `Rda.CaptureThread.failures_le_one` — five failures in a row never happen;
* `Rda.CaptureThread.recovers_iff` — **the runs that the thread recovers from**.
-/

import Rda.MacosCapturer
import Rda.Machine

set_option relaxedAutoImplicit false
set_option autoImplicit false

namespace Rda

/-- How long to wait for a frame before looping. -/
def FRAME_TIMEOUT_US : ℕ := 250000

/-- Consecutive errors tolerated before the thread gives up. -/
def MAX_CONSECUTIVE_FAILURES : ℕ := 5

/-- How long the thread waits after a failed restart. -/
def RESTART_PAUSE_US : ℕ := 200000

/-- What happens in one turn of the loop: whether the thread is asked to stop, how long after the
turn before it begins, and what the system has an image of, for the frame and for a restart. -/
structure CaptureTick where
  stop : Bool
  waitUs : ℕ
  image : Option Image
  restartImage : Option Image

/-- A frame is due in this turn, whenever the last one was captured. -/
def CaptureTick.Due (config : CaptureConfig) (t : CaptureTick) : Prop :=
  config.intervalUs ≤ t.waitUs + FRAME_TIMEOUT_US

/-- The capture thread, with the slot it publishes to. -/
structure CaptureThread where
  capturer : MacosCapturer
  displayId : UInt8
  config : CaptureConfig
  slot : FrameSlot
  consecutiveFailures : ℕ
  restarts : ℕ
  nowUs : ℕ
  running : Bool

namespace CaptureThread

/-- Starts capturing a display on a dedicated thread. -/
def spawn (capturer : MacosCapturer) (displayId : UInt8) (config : CaptureConfig)
    (image : Option Image) : Except CaptureError CaptureThread :=
  match capturer.start displayId config image with
  | .ok capturer => .ok ⟨capturer, displayId, config, .channel, 0, 0, 0, true⟩
  | .error e => .error e

/-- The thread ends. -/
def quit (c : CaptureThread) : CaptureThread :=
  { c with capturer := c.capturer.stop, running := false }

/-- Rebuilds the capture session. -/
def restart (c : CaptureThread) (image : Option Image) : CaptureThread :=
  let c := { c with restarts := c.restarts + 1, capturer := c.capturer.stop }
  match c.capturer.start c.displayId c.config image with
  | .ok capturer => { c with capturer := capturer }
  | .error _ =>
      let c := { c with consecutiveFailures := c.consecutiveFailures + 1 }
      if MAX_CONSECUTIVE_FAILURES ≤ c.consecutiveFailures then c.quit
      else { c with nowUs := c.nowUs + RESTART_PAUSE_US }

/-- What the thread makes of the backend's answer. -/
def handle (c : CaptureThread) (answer : Except CaptureError (Option Frame))
    (restartImage : Option Image) : CaptureThread :=
  match answer with
  | .ok (some frame) => { c with consecutiveFailures := 0, slot := c.slot.capture frame }
  | .ok none => { c with consecutiveFailures := 0 }
  | .error e =>
      if e.isRecoverable then
        if e = .timeout then c else c.restart restartImage
      else c.quit

/-- One turn of the loop. -/
def step (c : CaptureThread) (t : CaptureTick) : CaptureThread :=
  if ¬ c.running then c
  else if t.stop then c.quit
  else
    let r := c.capturer.nextFrame FRAME_TIMEOUT_US (c.nowUs + t.waitUs) t.image
    { c with capturer := r.2.1, nowUs := r.2.2 }.handle r.1 t.restartImage

/-- The session is lost in this turn, and there is no image to start it again with. -/
def RestartFails (c : CaptureThread) (t : CaptureTick) : Prop :=
  ∃ a, c.capturer.active = some a ∧ a.waitUs (c.nowUs + t.waitUs) ≤ FRAME_TIMEOUT_US ∧
    (∀ i, t.image = some i → ¬ a.Fits i) ∧ t.restartImage = none

/-- The thread has a display to capture. -/
structure Capturing (display : DisplayInfo) (c : CaptureThread) : Prop where
  running : c.running = true
  found : (c.capturer.displays.find? fun d => d.id == c.displayId) = some display
  failures : c.consecutiveFailures = 0
  active : ∃ a, c.capturer.active = some a ∧ a.display = display ∧ a.config = c.config ∧
    ∀ last, a.lastFrameAtUs = some last → last ≤ c.nowUs

/-- The thread is still running, with nothing to capture. -/
structure Stranded (c : CaptureThread) : Prop where
  running : c.running = true
  inactive : c.capturer.active = none
  failures : c.consecutiveFailures = 1

/-- The hash of the frame that was captured last. -/
def lastHash (c : CaptureThread) : Option UInt64 := c.capturer.active.bind ActiveCapture.lastHash

variable {c : CaptureThread} {t : CaptureTick} {display : DisplayInfo}

theorem capturing_spawn {capturer : MacosCapturer} {displayId : UInt8} {config : CaptureConfig}
    {image : Option Image} (h : spawn capturer displayId config image = .ok c) :
    c.config = config ∧ ∃ display,
      (capturer.displays.find? fun d => d.id == displayId) = some display ∧
        c.Capturing display := by
  rw [spawn] at h
  cases hstart : capturer.start displayId config image with
  | error e =>
      rw [hstart] at h
      cases h
  | ok capturer' =>
      rw [hstart] at h
      obtain rfl := Except.ok.inj h
      obtain ⟨-, display, hfind, rfl⟩ := MacosCapturer.start_eq_ok_iff.1 hstart
      exact ⟨rfl, display, hfind, rfl, hfind, rfl, _, rfl, rfl, rfl, by simp⟩

/-- A thread that has ended does nothing. -/
theorem step_of_not_running (h : c.running = false) : c.step t = c := by
  rw [step, if_pos (by simp [h])]

/-- Without anything to capture the thread ends. -/
theorem step_stranded (h : c.Stranded) :
    (c.step t).running = false ∧ (c.step t).slot = c.slot ∧
      (c.step t).consecutiveFailures = c.consecutiveFailures := by
  rw [step, if_neg (by simp [h.running])]
  split_ifs
  · exact ⟨rfl, rfl, rfl⟩
  · simp only [MacosCapturer.nextFrame, h.inactive]
    exact ⟨rfl, rfl, rfl⟩

theorem config_handle (c : CaptureThread) (answer : Except CaptureError (Option Frame))
    (image : Option Image) : (c.handle answer image).config = c.config := by
  unfold handle
  split
  · rfl
  · rfl
  · split_ifs
    · rfl
    · unfold restart
      simp only
      split
      · rfl
      · split_ifs
        · rfl
        · rfl
    · rfl

/-- The configuration stays. -/
theorem config_step (c : CaptureThread) (t : CaptureTick) : (c.step t).config = c.config := by
  by_cases hrunning : c.running = true
  · rw [step, if_neg (by simp [hrunning])]
    split_ifs
    · rfl
    · exact config_handle _ _ _
  · rw [step, if_pos (by simp [hrunning])]

/-- A restart with an image of the display. -/
theorem restart_of_image
    (hfound : (c.capturer.displays.find? fun d => d.id == c.displayId) = some display)
    (image : Image) :
    c.restart (some image) =
      { c with
        restarts := c.restarts + 1
        capturer :=
          { c.capturer with active := some ⟨display, c.config, none, none⟩ } } := by
  have hstart : c.capturer.stop.start c.displayId c.config (some image) =
      .ok { c.capturer.stop with active := some ⟨display, c.config, none, none⟩ } :=
    MacosCapturer.start_eq_ok_iff.2 ⟨rfl, display, hfound, rfl⟩
  simp only [restart, hstart]
  rfl

/-- A restart without one, which is the first failure. -/
theorem restart_of_no_image
    (hfound : (c.capturer.displays.find? fun d => d.id == c.displayId) = some display)
    (hfailures : c.consecutiveFailures = 0) :
    c.restart none =
      { c with
        restarts := c.restarts + 1
        capturer := c.capturer.stop
        consecutiveFailures := 1
        nowUs := c.nowUs + RESTART_PAUSE_US } := by
  have hstart :
      c.capturer.stop.start c.displayId c.config none = .error MacosCapturer.notGranted := by
    have hfind : (c.capturer.stop.displays.find? fun d => d.id == c.displayId) = some display :=
      hfound
    rw [MacosCapturer.start, hfind]
  simp only [restart, hstart, hfailures]
  rfl

/-- A frame that the backend would have to wait for too long is not due in this turn. -/
theorem not_due_of_lt {a : ActiveCapture} {nowUs : ℕ}
    (hlast : ∀ last, a.lastFrameAtUs = some last → last ≤ nowUs)
    (hwait : FRAME_TIMEOUT_US < a.waitUs (nowUs + t.waitUs)) : ¬ t.Due a.config := by
  intro hdue
  rw [CaptureTick.Due] at hdue
  rw [ActiveCapture.waitUs] at hwait
  cases hl : a.lastFrameAtUs with
  | none =>
      rw [hl] at hwait
      exact absurd hwait (Nat.not_lt_zero _)
  | some last =>
      have hle := hlast last hl
      rw [hl] at hwait
      simp only at hwait
      omega

/-- A frame that is captured is published, unless its hash is the one before it. -/
theorem published_or_seen (slot : FrameSlot) (a : ActiveCapture) (sequence nowUs : ℕ) (i : Image) :
    slot.produced < (slot.capture (a.frame sequence i)).produced ∨
      slot.capture (a.frame sequence i) = slot ∧ a.lastHash = some (frameHash i.data) ∧
        (a.captured nowUs i).lastHash = a.lastHash := by
  by_cases hseen : a.Seen i
  · right
    refine ⟨FrameSlot.capture_of_unchanged ?_ slot, hseen.2, ?_⟩
    · rw [Bool.eq_false_iff]
      exact fun hworth => (a.isWorthEncoding_frame _ i).1 hworth hseen
    · rw [ActiveCapture.captured, hseen.2, if_pos hseen.1]
  · left
    rw [FrameSlot.capture_of_worth ((a.isWorthEncoding_frame _ i).2 hseen)]
    exact Nat.lt_succ_self _

/-- **One turn of a thread that has something to capture**: the session is lost and not restarted;
or no frame is due; or the session is restarted; or a frame is captured, and published unless it was
seen before. -/
theorem step_capturing (h : c.Capturing display) (ht : t.stop = false) :
    (c.RestartFails t ∧ (c.step t).Stranded ∧ (c.step t).slot = c.slot) ∨
    (¬ c.RestartFails t ∧ (c.step t).Capturing display ∧
      ((¬ t.Due c.config ∧ (c.step t).slot = c.slot ∧ (c.step t).lastHash = c.lastHash) ∨
        ((∀ i, t.image = some i → ¬ (i.width = display.width ∧ i.height = display.height)) ∧
          (c.step t).slot = c.slot) ∨
        ∃ i, t.image = some i ∧ i.width = display.width ∧ i.height = display.height ∧
          (c.slot.produced < (c.step t).slot.produced ∨
            (c.step t).slot = c.slot ∧ c.lastHash = some (frameHash i.data) ∧
              (c.step t).lastHash = c.lastHash))) := by
  obtain ⟨a, hactive, hdisplay, hconfig, hlast⟩ := h.active
  have hstep : c.step t =
      CaptureThread.handle
        { c with
          capturer := (c.capturer.nextFrame FRAME_TIMEOUT_US (c.nowUs + t.waitUs) t.image).2.1
          nowUs := (c.capturer.nextFrame FRAME_TIMEOUT_US (c.nowUs + t.waitUs) t.image).2.2 }
        (c.capturer.nextFrame FRAME_TIMEOUT_US (c.nowUs + t.waitUs) t.image).1
        t.restartImage := by
    rw [step, if_neg (by simp [h.running]), if_neg (by simp [ht])]
  rcases MacosCapturer.nextFrame_cases hactive FRAME_TIMEOUT_US (c.nowUs + t.waitUs) t.image with
    ⟨hwait, hnext⟩ | ⟨hwait, hlost, why, hnext⟩ | ⟨hwait, i, himage, hfits, hnext⟩
  · -- no frame is due
    right
    have hno : ¬ c.RestartFails t := by
      rintro ⟨a', ha', hdue, -, -⟩
      obtain rfl := Option.some.inj (hactive.symm.trans ha')
      omega
    rw [hnext] at hstep
    have hsame : c.step t =
        { c with nowUs := c.nowUs + t.waitUs, consecutiveFailures := 0 } := hstep
    rw [hsame]
    refine ⟨hno, ⟨h.running, h.found, rfl, a, hactive, hdisplay, hconfig, ?_⟩, .inl ⟨?_, rfl, rfl⟩⟩
    · intro last hl
      exact Nat.le_trans (hlast last hl) (Nat.le_add_right _ _)
    · rw [← hconfig]
      exact not_due_of_lt hlast hwait
  · -- the session is lost
    rw [hnext] at hstep
    let w : CaptureThread :=
      { c with nowUs := c.nowUs + t.waitUs + a.waitUs (c.nowUs + t.waitUs) }
    have hrestart : c.step t = w.restart t.restartImage := hstep
    cases himage : t.restartImage with
    | none =>
        left
        rw [himage, restart_of_no_image (c := w) h.found h.failures] at hrestart
        rw [hrestart]
        exact ⟨⟨a, hactive, hwait, hlost, himage⟩, ⟨h.running, rfl, rfl⟩, rfl⟩
    | some image =>
        right
        rw [himage, restart_of_image (c := w) h.found] at hrestart
        rw [hrestart]
        refine ⟨?_, ⟨h.running, h.found, h.failures, _, rfl, rfl, rfl, by simp⟩,
          .inr (.inl ⟨?_, rfl⟩)⟩
        · rintro ⟨-, -, -, -, hnone⟩
          rw [himage] at hnone
          cases hnone
        · intro i hi hfits
          rw [← hdisplay] at hfits
          exact hlost i hi hfits
  · -- a frame is captured
    right
    rw [hnext] at hstep
    have hno : ¬ c.RestartFails t := by
      rintro ⟨a', ha', -, hnone, -⟩
      obtain rfl := Option.some.inj (hactive.symm.trans ha')
      exact hnone i himage hfits
    have hcaptured : c.step t =
        { c with
          capturer :=
            { c.capturer with
              active := some (a.captured (c.nowUs + t.waitUs + a.waitUs (c.nowUs + t.waitUs)) i)
              sequence := c.capturer.sequence + 1 }
          nowUs := c.nowUs + t.waitUs + a.waitUs (c.nowUs + t.waitUs)
          consecutiveFailures := 0
          slot := c.slot.capture (a.frame c.capturer.sequence i) } := hstep
    rw [hcaptured]
    have hhash : c.lastHash = a.lastHash := by rw [lastHash, hactive, Option.bind_some]
    refine ⟨hno, ⟨h.running, h.found, rfl, _, rfl, hdisplay, hconfig, ?_⟩, .inr (.inr ?_)⟩
    · intro last hl
      exact Nat.le_of_eq (Option.some.inj hl).symm
    · refine ⟨i, himage, by rw [← hdisplay]; exact hfits.1, by rw [← hdisplay]; exact hfits.2, ?_⟩
      rw [hhash]
      exact published_or_seen c.slot a _ _ i

/-! ### Runs up to now -/

/-- The thread is not capturing, and will not be again. -/
def Lost (c : CaptureThread) : Prop := c.Stranded ∨ c.running = false

theorem lost_step (h : c.Lost) (t : CaptureTick) :
    (c.step t).running = false ∧ (c.step t).slot = c.slot := by
  rcases h with h | h
  · exact ⟨(step_stranded h).1, (step_stranded h).2.1⟩
  · rw [step_of_not_running h]
    exact ⟨h, rfl⟩

/-- As long as nobody stops it, the thread captures until a restart fails. -/
theorem capturing_run (h : c.Capturing display) {ticks : List CaptureTick}
    (hrun : ∀ t ∈ ticks, t.stop = false) :
    (Machine.Along step (fun c t => ¬ c.RestartFails t) c ticks ∧
        (Machine.run step c ticks).Capturing display) ∨
      ¬ Machine.Along step (fun c t => ¬ c.RestartFails t) c ticks ∧
        (Machine.run step c ticks).Lost := by
  induction ticks generalizing c with
  | nil => exact .inl ⟨trivial, h⟩
  | cons t ticks ih =>
      rw [List.forall_mem_cons] at hrun
      rcases step_capturing h hrun.1 with ⟨hfails, hstranded, -⟩ | ⟨hno, hcapturing, -⟩
      · right
        refine ⟨fun hgood => hgood.1 hfails, ?_⟩
        have hlost : (Machine.run step (c.step t) ticks).Lost :=
          Machine.run_invariant Lost (fun _ t h => .inr (lost_step h t).1) (.inl hstranded) ticks
        exact hlost
      · rcases ih hcapturing hrun.2 with ⟨hgood, hlater⟩ | ⟨hbad, hlater⟩
        · exact .inl ⟨⟨hno, hgood⟩, hlater⟩
        · exact .inr ⟨fun hgood => hbad hgood.2, hlater⟩

/-- **The limit is never reached**: from a thread that captures on, whatever happens, there are
never two failures in a row. -/
theorem failures_le_one (h : c.Capturing display) (ticks : List CaptureTick) :
    (Machine.run step c ticks).consecutiveFailures ≤ 1 := by
  have hkeep : ∀ (c : CaptureThread) t, (c.Capturing display ∨
      c.Lost ∧ c.consecutiveFailures ≤ 1) → ((c.step t).Capturing display ∨
        (c.step t).Lost ∧ (c.step t).consecutiveFailures ≤ 1) := by
    rintro c t (hc | ⟨hc | hc, hone⟩)
    · cases hstop : t.stop with
      | true =>
          right
          have hquit : c.step t = c.quit := by
            rw [step, if_neg (by simp [hc.running]), if_pos hstop]
          rw [hquit]
          exact ⟨.inr rfl, by simp [quit, hc.failures]⟩
      | false =>
          rcases step_capturing hc hstop with ⟨-, hstranded, -⟩ | ⟨-, hcapturing, -⟩
          · exact .inr ⟨.inl hstranded, Nat.le_of_eq hstranded.failures⟩
          · exact .inl hcapturing
    · right
      obtain ⟨hended, -, hfailures⟩ := step_stranded (t := t) hc
      exact ⟨.inr hended, by rw [hfailures]; exact hone⟩
    · right
      rw [step_of_not_running hc]
      exact ⟨.inr hc, hone⟩
  rcases Machine.run_invariant _ hkeep (.inl h) ticks with hc | ⟨-, hone⟩
  · rw [hc.failures]
    exact Nat.zero_le 1
  · exact hone

/-! ### What comes after -/

/-- The thread after as many turns of what is to come. -/
def after (c : CaptureThread) (future : ℕ → CaptureTick) : ℕ → CaptureThread
  | 0 => c
  | n + 1 => (c.after future n).step (future n)

/-- The thread goes on, and a frame is published in time. -/
def Recovers (c : CaptureThread) (future : ℕ → CaptureTick) : Prop :=
  (∀ n, (c.after future n).running = true) ∧
    ∃ n, c.slot.produced < (c.after future n).slot.produced

end CaptureThread

/-- From now on nobody stops the thread, the display can be captured and has this size, and it
changes: two frames that are due are told apart. -/
structure Steady (config : CaptureConfig) (width height : ℕ) (future : ℕ → CaptureTick) : Prop where
  goesOn : ∀ n, (future n).stop = false
  shown : ∀ n, ∃ i, (future n).image = some i ∧ i.width = width ∧ i.height = height
  restartable : ∀ n, ∃ i, (future n).restartImage = some i
  changes : ∃ m n i j, (future m).Due config ∧ (future m).image = some i ∧
    (future n).Due config ∧ (future n).image = some j ∧ frameHash i.data ≠ frameHash j.data

namespace CaptureThread

variable {c : CaptureThread} {display : DisplayInfo} {width height : ℕ}
  {future : ℕ → CaptureTick}

theorem config_after (c : CaptureThread) (future : ℕ → CaptureTick) (n : ℕ) :
    (c.after future n).config = c.config := by
  induction n with
  | zero => rfl
  | succ n ih => rw [after, config_step, ih]

/-- A thread that is lost publishes nothing. -/
theorem slot_after_of_lost (h : c.Lost) (n : ℕ) :
    (c.after future n).Lost ∧ (c.after future n).slot = c.slot := by
  induction n with
  | zero => exact ⟨h, rfl⟩
  | succ n ih =>
      obtain ⟨hended, hslot⟩ := lost_step ih.1 (future n)
      exact ⟨.inr hended, hslot.trans ih.2⟩

/-- While the display can be captured no restart fails. -/
theorem not_restartFails_of_steady {config : CaptureConfig}
    (hsteady : Steady config width height future) (c : CaptureThread) (n : ℕ) :
    ¬ c.RestartFails (future n) := by
  rintro ⟨-, -, -, -, hnone⟩
  obtain ⟨i, hi⟩ := hsteady.restartable n
  rw [hi] at hnone
  cases hnone

/-- While the display can be captured the thread goes on. -/
theorem capturing_step_of_steady (h : c.Capturing display)
    (hsteady : Steady c.config width height future) (n : ℕ) :
    (c.after future n).Capturing display := by
  induction n with
  | zero => exact h
  | succ n ih =>
      rcases step_capturing ih (hsteady.goesOn n) with ⟨hfails, -, -⟩ | ⟨-, hcapturing, -⟩
      · exact absurd hfails (not_restartFails_of_steady hsteady _ n)
      · exact hcapturing

/-- Frames of another size are lost, one after the other. -/
theorem slot_after_of_ne (h : c.Capturing display)
    (hsteady : Steady c.config width height future)
    (hne : ¬ (width = display.width ∧ height = display.height)) (n : ℕ) :
    (c.after future n).slot = c.slot := by
  induction n with
  | zero => rfl
  | succ n ih =>
      rcases step_capturing (capturing_step_of_steady h hsteady n) (hsteady.goesOn n) with
        ⟨-, -, hslot⟩ | ⟨-, -, ⟨-, hslot, -⟩ | ⟨-, hslot⟩ | ⟨i, hi, hwidth, hheight, -⟩⟩
      · exact hslot.trans ih
      · exact hslot.trans ih
      · exact hslot.trans ih
      · obtain ⟨j, hj, hw, hh⟩ := hsteady.shown n
        obtain rfl := Option.some.inj (hi.symm.trans hj)
        exact absurd ⟨hw.symm.trans hwidth, hh.symm.trans hheight⟩ hne

/-- Frames of the right size: unless one is published, the hash stays, and is that of every frame
that is due. -/
theorem seen_step (h : c.Capturing display)
    (hsteady : Steady c.config display.width display.height future) (n : ℕ) :
    (c.after future n).slot.produced < (c.after future (n + 1)).slot.produced ∨
      ((c.after future (n + 1)).slot = (c.after future n).slot ∧
        (c.after future (n + 1)).lastHash = (c.after future n).lastHash ∧
        ∀ i, (future n).Due c.config → (future n).image = some i →
          (c.after future n).lastHash = some (frameHash i.data)) := by
  have hcapturing := capturing_step_of_steady h hsteady n
  have hconfig := config_after c future n
  rcases step_capturing hcapturing (hsteady.goesOn n) with
    ⟨hfails, -, -⟩ | ⟨-, -, ⟨hearly, hslot, hhash⟩ | ⟨hlost, -⟩ | ⟨i, hi, -, -, hcase⟩⟩
  · exact absurd hfails (not_restartFails_of_steady hsteady _ n)
  · refine .inr ⟨hslot, hhash, ?_⟩
    intro i hdue
    rw [hconfig] at hearly
    exact absurd hdue hearly
  · obtain ⟨i, hi, hw, hh⟩ := hsteady.shown n
    exact absurd ⟨hw, hh⟩ (hlost i hi)
  · rcases hcase with hmore | ⟨hslot, hseen, hhash⟩
    · exact .inl hmore
    · refine .inr ⟨hslot, hhash, ?_⟩
      intro j _ hj
      obtain rfl := Option.some.inj (hi.symm.trans hj)
      exact hseen

/-- **A display that changes is seen to change.** -/
theorem publishes_of_steady (h : c.Capturing display)
    (hsteady : Steady c.config display.width display.height future) :
    ∃ n, c.slot.produced < (c.after future n).slot.produced := by
  by_contra hnever
  have hstay : ∀ n, (c.after future n).slot = c.slot ∧
      (c.after future n).lastHash = c.lastHash := by
    intro n
    induction n with
    | zero => exact ⟨rfl, rfl⟩
    | succ n ih =>
        rcases seen_step h hsteady n with hmore | ⟨hslot, hhash, -⟩
        · rw [ih.1] at hmore
          exact absurd ⟨n + 1, hmore⟩ hnever
        · exact ⟨hslot.trans ih.1, hhash.trans ih.2⟩
  have hseen : ∀ n i, (future n).Due c.config → (future n).image = some i →
      c.lastHash = some (frameHash i.data) := by
    intro n i hdue hi
    rcases seen_step h hsteady n with hmore | ⟨-, -, hhash⟩
    · rw [(hstay n).1] at hmore
      exact absurd ⟨n + 1, hmore⟩ hnever
    · rw [← (hstay n).2]
      exact hhash i hdue hi
  obtain ⟨m, n, i, j, hm, hi, hn, hj, hne⟩ := hsteady.changes
  exact hne (Option.some.inj ((hseen m i hm hi).symm.trans (hseen n j hn hj)))

/-- A thread that captures recovers exactly if the display has the size that it had when the
displays were enumerated. -/
theorem recovers_iff_of_capturing (h : c.Capturing display)
    (hsteady : Steady c.config width height future) :
    c.Recovers future ↔ width = display.width ∧ height = display.height := by
  constructor
  · rintro ⟨-, n, hmore⟩
    by_contra hne
    rw [slot_after_of_ne h hsteady hne n] at hmore
    exact absurd hmore (Nat.lt_irrefl _)
  · rintro ⟨rfl, rfl⟩
    exact ⟨fun n => (capturing_step_of_steady h hsteady n).running, publishes_of_steady h hsteady⟩

theorem not_recovers_of_lost (h : c.Lost) : ¬ c.Recovers future := by
  rintro ⟨-, n, hmore⟩
  rw [(slot_after_of_lost h n).2] at hmore
  exact absurd hmore (Nat.lt_irrefl _)

theorem config_run (c : CaptureThread) (ticks : List CaptureTick) :
    (Machine.run step c ticks).config = c.config :=
  Machine.run_invariant (fun d : CaptureThread => d.config = c.config)
    (fun d t h => (config_step d t).trans h) rfl ticks

/-- **The runs that the thread recovers from**: after any turns in which nobody stops it, a display
that can be captured, keeps its size and changes is published again exactly if no restart has
failed, and the size is the one that the display had when the displays were enumerated. -/
theorem recovers_iff {capturer : MacosCapturer} {displayId : UInt8} {config : CaptureConfig}
    {image : Option Image} (hspawn : spawn capturer displayId config image = .ok c)
    {ticks : List CaptureTick} (hrun : ∀ t ∈ ticks, t.stop = false)
    (hsteady : Steady config width height future) :
    (Machine.run step c ticks).Recovers future ↔
      Machine.Along step (fun c t => ¬ c.RestartFails t) c ticks ∧
        ∃ display, (capturer.displays.find? fun d => d.id == displayId) = some display ∧
          width = display.width ∧ height = display.height := by
  obtain ⟨rfl, display, hfind, hstart⟩ := capturing_spawn hspawn
  have hsteady' : Steady (Machine.run step c ticks).config width height future := by
    rw [config_run]
    exact hsteady
  have hsize : (∃ d, (capturer.displays.find? fun d => d.id == displayId) = some d ∧
      width = d.width ∧ height = d.height) ↔ width = display.width ∧ height = display.height := by
    rw [hfind]
    simp
  rw [hsize]
  rcases capturing_run hstart hrun with ⟨hgood, hcapturing⟩ | ⟨hbad, hlost⟩
  · rw [recovers_iff_of_capturing hcapturing hsteady']
    exact (and_iff_right hgood).symm
  · exact iff_of_false (not_recovers_of_lost hlost) fun h => hbad h.1

/-! ### A display that is resized -/

/-- A display of four by two pixels. -/
def Sample.smallDisplay : MacosCapturer := ⟨[⟨0, 1, 4, 2⟩], none, 0⟩

/-- An image of this size, in one colour. -/
def Sample.plainImage (width height : ℕ) (byte : UInt8) : Image :=
  ⟨width, height, 4 * width, List.replicate (4 * width * height) byte⟩

/-- Sixty frames a second, and only those that have changed. -/
def Sample.sixtyFps : CaptureConfig := ⟨60, true⟩

/-- The thread on the small display. -/
def Sample.captureThread : CaptureThread where
  capturer :=
    { Sample.smallDisplay with active := some ⟨⟨0, 1, 4, 2⟩, Sample.sixtyFps, none, none⟩ }
  displayId := 0
  config := Sample.sixtyFps
  slot := .channel
  consecutiveFailures := 0
  restarts := 0
  nowUs := 0
  running := true

/-- A display of this size that flickers. -/
def Sample.flickering (width height n : ℕ) : CaptureTick where
  stop := false
  waitUs := 20000
  image := some (Sample.plainImage width height (.ofNat (n % 2)))
  restartImage := some (Sample.plainImage width height 0)

/-- The display is larger for a moment, and the capture is restarted. -/
def Sample.resized : CaptureTick := Sample.flickering 8 4 0

/-- There is no image of the display for a moment. -/
def Sample.unplugged : CaptureTick := ⟨false, 20000, none, none⟩

theorem Sample.spawn_captureThread :
    spawn Sample.smallDisplay 0 Sample.sixtyFps (some (Sample.plainImage 4 2 0)) =
      .ok Sample.captureThread := rfl

/-- At four frames a second and more, no turn is too short for a frame. -/
theorem due_of_four_le {config : CaptureConfig} (h : 4 ≤ config.targetFps) (t : CaptureTick) :
    t.Due config := by
  have hmax : 4 ≤ max config.targetFps 1 := Nat.le_trans h (Nat.le_max_left _ _)
  have hinterval : config.intervalUs ≤ 1000000 / 4 := Nat.div_le_div_left hmax (by decide)
  exact Nat.le_trans hinterval (Nat.le_add_left _ _)

theorem Sample.steady_flickering {width height : ℕ}
    (h : frameHash (Sample.plainImage width height 0).data ≠
      frameHash (Sample.plainImage width height 1).data) :
    Steady Sample.sixtyFps width height (Sample.flickering width height) where
  goesOn _ := rfl
  shown _ := ⟨_, rfl, rfl, rfl⟩
  restartable _ := ⟨_, rfl⟩
  changes := ⟨0, 1, _, _, due_of_four_le (by decide) _, rfl, due_of_four_le (by decide) _, rfl, h⟩

/-- A display that gets its size back is captured again. -/
theorem recovers_resized :
    (Machine.run step Sample.captureThread [Sample.resized]).Recovers
      (Sample.flickering 4 2) := by
  refine (recovers_iff Sample.spawn_captureThread (by simp [Sample.resized, Sample.flickering])
    (Sample.steady_flickering (by decide))).2 ⟨⟨?_, trivial⟩, _, rfl, rfl, rfl⟩
  rintro ⟨-, -, -, -, hnone⟩
  cases hnone

/-- A display that keeps another size is not captured again, and neither is one that there was no
image of for a moment. -/
theorem not_recovers :
    (Steady Sample.sixtyFps 8 4 (Sample.flickering 8 4) ∧
      ¬ Sample.captureThread.Recovers (Sample.flickering 8 4)) ∧
    Steady Sample.sixtyFps 4 2 (Sample.flickering 4 2) ∧
      ¬ (Machine.run step Sample.captureThread [Sample.unplugged]).Recovers
        (Sample.flickering 4 2) := by
  have hlarge : Steady Sample.sixtyFps 8 4 (Sample.flickering 8 4) :=
    Sample.steady_flickering (by decide +kernel)
  have hsmall : Steady Sample.sixtyFps 4 2 (Sample.flickering 4 2) :=
    Sample.steady_flickering (by decide)
  obtain ⟨-, display, hfind, hstart⟩ := capturing_spawn Sample.spawn_captureThread
  refine ⟨⟨hlarge, ?_⟩, hsmall, ?_⟩
  · rw [recovers_iff_of_capturing hstart hlarge]
    obtain rfl : (⟨0, 1, 4, 2⟩ : DisplayInfo) = display := Option.some.inj hfind
    rintro ⟨hwidth, -⟩
    cases hwidth
  · refine not_recovers_of_lost (.inl ?_)
    exact ⟨rfl, rfl, rfl⟩

end CaptureThread

end Rda
