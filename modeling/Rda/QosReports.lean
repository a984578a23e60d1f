/-
**What the viewer reports.**

Once a second the viewer tells the host how many frames it has decoded and how many it has dropped.
The pictures are counted where they are decoded, the drops in the jitter buffer, and the telemetry
holds both until the report is built and narrows them to sixteen bits.  A report is documented to
count since the one before it.  Nothing ever sets the counts back: what is reported is what has been
counted since the session began.

Main definitions:

* `Rda.LinkTelemetry.toQosReport` — the report;
* `Rda.ViewerStream.turn` — one turn of the viewer's stream loop;
* `Rda.ReportRun` — the loop, and what had been counted when the last report was made;
* `Rda.ReportRun.Sums`, `Rda.ReportRun.PerInterval` — the reports add up, and a report that keeps
  them adding up.

Main results:

* `Rda.JitterBuffer.droppedTotal_call` — the buffer counts exactly what it drops;
* `Rda.ViewerStream.turn_cases` — what a turn reports;
* `Rda.ReportRun.sums_iff` — **the runs whose reports add up**.
-/

import Rda.JitterAccount
import Rda.LossAccount
import Rda.Reassembly

set_option relaxedAutoImplicit false
set_option autoImplicit false

namespace Rda

/-- How often the viewer reports. -/
def QOS_INTERVAL_US : ℕ := 1000000

/-- How long the viewer waits before it asks for a keyframe again. -/
def KEYFRAME_REQUEST_INTERVAL_US : ℕ := 1000000

/-- How long a loss sample counts. -/
def LOSS_WINDOW_MS : ℕ := 2000

/-! ### Telemetry -/

/-- Sliding-window packet loss estimator: when, how many packets arrived, how many were lost. -/
structure LossEstimator where
  events : List (ℕ × ℕ × ℕ) := []

namespace LossEstimator

/-- Records how many packets were delivered and how many are missing. -/
def sample (e : LossEstimator) (received lost nowMs : ℕ) : LossEstimator where
  events := (e.events ++ [(nowMs, received, lost)]).dropWhile fun x => LOSS_WINDOW_MS < nowMs - x.1

/-- Loss over the sliding window, in parts per thousand. -/
def permille (e : LossEstimator) : UInt16 :=
  let received := (e.events.map fun x => x.2.1).sum
  let lost := (e.events.map fun x => x.2.2).sum
  if received + lost = 0 then 0 else .ofNat (min (lost * 1000 / (received + lost)) 1000)

end LossEstimator

/-- Frame accounting. -/
structure FrameStats where
  decoded : ℕ := 0
  dropped : ℕ := 0

/-- The live picture of one session's link.  The viewer samples neither the round-trip time nor the
jitter here, so that their estimators are what they answer. -/
structure LinkTelemetry where
  rttSmoothedMs : Option ℕ := none
  jitterP95Ms : ℕ := 0
  loss : LossEstimator := {}
  frames : FrameStats := {}
  playoutDelayMs : ℕ := 0

/-- A count, narrowed to sixteen bits. -/
def clampToU16 (n : ℕ) : UInt16 := .ofNat (min n 65535)

theorem toNat_clampToU16 (n : ℕ) : (clampToU16 n).toNat = min n 65535 := by
  rw [clampToU16, UInt16.toNat_ofNat', Nat.mod_eq_of_lt]
  omega

/-- Builds the wire-format telemetry report. -/
def LinkTelemetry.toQosReport (t : LinkTelemetry) : QosReport where
  rttMs := clampToU16 (t.rttSmoothedMs.getD 0)
  jitterMs := clampToU16 t.jitterP95Ms
  lossPermille := t.loss.permille
  framesDecoded := clampToU16 t.frames.decoded
  framesDropped := clampToU16 t.frames.dropped
  renderFpsQ8 := 0
  playoutDelayMs := clampToU16 t.playoutDelayMs
  decodeTimeUs := 0

/-- Every frame that the buffer has dropped or rejected. -/
def JitterStats.dropped (s : JitterStats) : ℕ :=
  s.droppedLate + s.droppedOverflow + s.droppedReordered

/-! ### The viewer's stream loop -/

/-- What the viewer reports at the end of a session. -/
structure SessionReport where
  received : ℕ := 0
  decoded : ℕ := 0
  bytes : ℕ := 0

/-- What the transport answers within the time that the loop waits. -/
inductive NextEvent
  | timeout
  | ended
  | event (e : TransportEvent)

/-- What the decoder makes of a frame: pictures, each with whether it could be shown, or an error.
-/
inductive DecodeOutcome
  | pictures (shown : List Bool)
  | failed

/-- What happens in one turn of the loop: how long after the one before it starts, what arrives, how
long a ping has to wait for its answer, and what the decoder says if it is given a frame. -/
structure ViewerTurn where
  waitUs : ℕ
  next : NextEvent
  pongDelayUs : ℕ
  decoder : DecodeOutcome

/-- The viewer's stream loop, with the frames it has sent on its own account. -/
structure ViewerStream (J : Type) where
  nowUs : ℕ
  running : Bool
  jitter : JitterBuffer J
  reassembler : Reassembler
  sequences : SequenceTracker
  telemetry : LinkTelemetry
  lastReportUs : ℕ
  lastKeyframeRequestUs : Option ℕ
  controlSeq : UInt16
  report : SessionReport
  sent : List ControlFrame

namespace ViewerStream

variable {J : Type} (est : Estimator J)

/-- The loop when it starts. -/
def start : ViewerStream J where
  nowUs := 0
  running := true
  jitter := .new est
  reassembler := .new
  sequences := {}
  telemetry := {}
  lastReportUs := 0
  lastKeyframeRequestUs := none
  controlSeq := 0
  report := {}
  sent := []

/-- The clock of the loop. -/
def nowMs (v : ViewerStream J) : ℕ := v.nowUs / 1000

/-- Sends a frame with the next number. -/
def send (v : ViewerStream J) (payload : Payload) : ViewerStream J :=
  { v with
    controlSeq := v.controlSeq + 1
    sent := v.sent ++ [.new payload (v.controlSeq + 1) (.ofNat v.nowMs)] }

/-- The interval is over. -/
def ReportDue (v : ViewerStream J) : Prop := QOS_INTERVAL_US ≤ v.nowUs - v.lastReportUs

instance (v : ViewerStream J) : Decidable v.ReportDue := inferInstanceAs (Decidable (_ ≤ _))

/-- The telemetry that is reported. -/
def reportTelemetry (v : ViewerStream J) : LinkTelemetry :=
  { v.telemetry with
    loss :=
      v.telemetry.loss.sample v.sequences.take.1.1.toNat v.sequences.take.1.2.toNat v.nowMs
    playoutDelayMs := v.jitter.targetMs
    frames := { v.telemetry.frames with dropped := v.jitter.stats.dropped } }

/-- Reports what this end sees. -/
def sendReport (v : ViewerStream J) : ViewerStream J :=
  { v with
    lastReportUs := v.nowUs
    sequences := v.sequences.take.2
    telemetry := v.reportTelemetry }.send (.qosReport v.reportTelemetry.toQosReport)

/-- A fragment is counted. -/
def observe (v : ViewerStream J) (frame : ControlFrame) : ViewerStream J :=
  match frame.payload with
  | .videoFrame _ _ _ _ _ _ data =>
      { v with
        report := { v.report with bytes := v.report.bytes + data.length }
        sequences := v.sequences.observe frame.header.sequence }
  | _ => v

/-- A frame is complete. -/
def push (v : ViewerStream J) (assembled : EncodedFrame) : ViewerStream J :=
  { v with
    report := { v.report with received := v.report.received + 1 }
    jitter := (v.jitter.push est
      { assembled with sequence := .ofNat (v.report.received + 1) } v.nowMs).2 }

/-- A frame arrives on the video channel. -/
def receiveVideo (v : ViewerStream J) (frame : ControlFrame) : ViewerStream J :=
  let accepted := v.reassembler.accept frame.payload v.nowMs
  let v := { v.observe frame with reassembler := accepted.2 }
  match accepted.1 with
  | some assembled => v.push est assembled
  | none => v

/-- A frame arrives on the control channel. -/
def receiveControl (v : ViewerStream J) (frame : ControlFrame) (pongDelayUs : ℕ) :
    ViewerStream J :=
  match frame.payload with
  | .ping token => v.send (.pong token (clampToU16 pongDelayUs))
  | _ => v

/-- Takes what the transport answers. -/
def receive (v : ViewerStream J) (t : ViewerTurn) : ViewerStream J :=
  match t.next with
  | .event (.frame .video frame) => v.receiveVideo est frame
  | .event (.frame .control frame) => v.receiveControl frame t.pongDelayUs
  | .event .closed => { v with running := false }
  | .event _ => v
  | .ended => { v with running := false }
  | .timeout => v

/-- Shows the pictures, up to the first that cannot be shown. -/
def present (v : ViewerStream J) : List Bool → ViewerStream J
  | [] => v
  | shown :: rest =>
      let v :=
        { v with
          report := { v.report with decoded := v.report.decoded + 1 }
          telemetry :=
            { v.telemetry with
              frames := { v.telemetry.frames with decoded := v.telemetry.frames.decoded + 1 } } }
      if shown then v.present rest else { v with running := false }

/-- Asks for a keyframe, unless it has just done so. -/
def requestKeyframe (v : ViewerStream J) : ViewerStream J :=
  if ∀ lastUs ∈ v.lastKeyframeRequestUs, KEYFRAME_REQUEST_INTERVAL_US ≤ v.nowUs - lastUs then
    { v with lastKeyframeRequestUs := some v.nowUs }.send (.requestKeyframe .idr 0 0)
  else v

/-- Plays the frame that is due, if any. -/
def playout (v : ViewerStream J) (decoder : DecodeOutcome) : ViewerStream J :=
  let polled := v.jitter.poll v.nowMs
  let v := { v with jitter := polled.2 }
  match polled.1, decoder with
  | .play _, .pictures shown => v.present shown
  | .play _, .failed => v.requestKeyframe
  | _, _ => v

/-- The loop at the top of a turn. -/
def advance (v : ViewerStream J) (t : ViewerTurn) : ViewerStream J :=
  { v with nowUs := v.nowUs + t.waitUs }

/-- The turn begins with a report. -/
def Reports (v : ViewerStream J) (t : ViewerTurn) : Prop :=
  v.running = true ∧ (v.advance t).ReportDue

instance (v : ViewerStream J) (t : ViewerTurn) : Decidable (v.Reports t) :=
  inferInstanceAs (Decidable (_ ∧ _))

/-- One turn of the loop. -/
def turn (v : ViewerStream J) (t : ViewerTurn) : ViewerStream J :=
  if v.running then
    let v := v.advance t
    let v := if v.ReportDue then v.sendReport else v
    let v := v.receive est t
    if v.running then v.playout t.decoder else v
  else v

end ViewerStream

/-! ### What is counted -/

namespace JitterBuffer

variable {J : Type} (est : Estimator J)

/-- The frame that a push rejects because a later one has been played. -/
def rejected (b : JitterBuffer J) : JitterCall → List EncodedFrame
  | .push frame _ => if b.Fresh frame then [] else [frame]
  | .poll _ => []

/-- A poll counts the frames that it drops. -/
theorem droppedTotal_poll (b : JitterBuffer J) (nowMs : ℕ) :
    (b.poll nowMs).2.stats.dropped = b.stats.dropped + (b.late nowMs).length := by
  have hstats : ∀ s : JitterStats, s.droppedLate = b.stats.droppedLate + (b.late nowMs).length →
      s.droppedOverflow = b.stats.droppedOverflow → s.droppedReordered = b.stats.droppedReordered →
      s.dropped = b.stats.dropped + (b.late nowMs).length := by
    intro s hlate hoverflow hreordered
    simp only [JitterStats.dropped, hlate, hoverflow, hreordered]
    omega
  unfold poll
  cases b.left nowMs with
  | nil =>
      cases b.emptySinceMs with
      | none => exact hstats _ rfl rfl rfl
      | some since =>
          simp only
          split_ifs
          · exact hstats _ rfl rfl rfl
          · exact hstats _ rfl rfl rfl
  | cons front rest =>
      simp only
      split_ifs
      · exact hstats _ rfl rfl rfl
      · exact hstats _ rfl rfl rfl

/-- A push counts the frames that it gives up, or the one that it rejects. -/
theorem droppedTotal_push (b : JitterBuffer J) (frame : EncodedFrame) (nowMs : ℕ) :
    (b.push est frame nowMs).2.stats.dropped =
      b.stats.dropped + ((b.dropped est (.push frame nowMs)).length +
        (b.rejected (.push frame nowMs)).length) := by
  by_cases hfresh : b.Fresh frame
  · simp only [dropped, rejected, push, if_neg (not_not.2 hfresh), if_pos hfresh,
      stats_adaptTarget, arrive, JitterStats.dropped, List.length_nil]
    omega
  · simp only [dropped, rejected, push, if_pos hfresh, if_neg hfresh, arrive,
      JitterStats.dropped, List.length_nil, List.length_singleton]
    omega

/-- **The buffer counts exactly what it drops**, and what it rejects. -/
theorem droppedTotal_call (b : JitterBuffer J) (c : JitterCall) :
    (b.call est c).stats.dropped =
      b.stats.dropped + ((b.dropped est c).length + (b.rejected c).length) := by
  cases c with
  | push frame nowMs => exact droppedTotal_push est b frame nowMs
  | poll nowMs => exact b.droppedTotal_poll nowMs

end JitterBuffer

/-- The two fields that count frames. -/
inductive QosField
  | decoded
  | dropped
  deriving DecidableEq

/-- What a report says. -/
def QosField.inReport : QosField → QosReport → ℕ
  | .decoded, q => q.framesDecoded.toNat
  | .dropped, q => q.framesDropped.toNat

/-- What has been counted so far: the pictures that came out of the decoder, and the frames that the
buffer has dropped. -/
def QosField.counted {J : Type} : QosField → ViewerStream J → ℕ
  | .decoded, v => v.report.decoded
  | .dropped, v => v.jitter.stats.dropped

/-- The report in a frame. -/
def ControlFrame.qosReport (f : ControlFrame) : Option QosReport :=
  match f.payload with
  | .qosReport q => some q
  | _ => none

namespace ViewerStream

variable {J : Type} {est : Estimator J} {v v' v'' : ViewerStream J}

/-- The reports that have been sent. -/
def reports (v : ViewerStream J) : List QosReport := v.sent.filterMap ControlFrame.qosReport

/-- The telemetry has counted the pictures. -/
def Tallied (v : ViewerStream J) : Prop := v.telemetry.frames.decoded = v.report.decoded

/-- The loop goes on, without a report. -/
structure Continues (v v' : ViewerStream J) : Prop where
  reports : v'.reports = v.reports
  tallied : v.Tallied → v'.Tallied
  counted : ∀ f : QosField, f.counted v ≤ f.counted v'

theorem Continues.refl (v : ViewerStream J) : Continues v v where
  reports := rfl
  tallied := id
  counted _ := le_refl _

theorem Continues.trans (h : Continues v v') (h' : Continues v' v'') : Continues v v'' where
  reports := h'.reports.trans h.reports
  tallied ht := h'.tallied (h.tallied ht)
  counted f := (h.counted f).trans (h'.counted f)

/-- A step that sends no report and keeps the counts of the pictures. -/
theorem continues_of_dropped (hreports : v'.reports = v.reports)
    (htelemetry : v'.telemetry.frames.decoded = v.telemetry.frames.decoded)
    (hreport : v'.report.decoded = v.report.decoded)
    (hdropped : v.jitter.stats.dropped ≤ v'.jitter.stats.dropped) : Continues v v' where
  reports := hreports
  tallied ht := (htelemetry.trans ht).trans hreport.symm
  counted f := by
    cases f with
    | decoded => exact hreport.ge
    | dropped => exact hdropped

theorem reports_send (v : ViewerStream J) (payload : Payload) :
    (v.send payload).reports = v.reports ++
      (ControlFrame.new payload (v.controlSeq + 1) (.ofNat v.nowMs)).qosReport.toList := by
  rw [reports, send, List.filterMap_append]
  cases h : (ControlFrame.new payload (v.controlSeq + 1) (.ofNat v.nowMs)).qosReport with
  | none => simp [reports, h]
  | some q => simp [reports, h]

/-- Another payload is no report. -/
theorem continues_send {payload : Payload}
    (h : ∀ sequence timestampMs, (ControlFrame.new payload sequence timestampMs).qosReport = none) :
    Continues v (v.send payload) := by
  refine continues_of_dropped ?_ rfl rfl (le_refl _)
  rw [reports_send, h, Option.toList_none, List.append_nil]

theorem continues_receiveVideo (v : ViewerStream J) (frame : ControlFrame) :
    Continues v (v.receiveVideo est frame) := by
  have hobserve : Continues v (v.observe frame) := by
    unfold observe
    split
    · exact continues_of_dropped rfl rfl rfl (le_refl _)
    · exact Continues.refl v
  unfold receiveVideo
  refine hobserve.trans ?_
  simp only
  split
  · rename_i assembled heq
    refine continues_of_dropped rfl rfl rfl ?_
    exact (Nat.le_add_right _ _).trans_eq (JitterBuffer.droppedTotal_push est _ _ _).symm
  · exact continues_of_dropped rfl rfl rfl (le_refl _)

theorem continues_receiveControl (v : ViewerStream J) (frame : ControlFrame) (pongDelayUs : ℕ) :
    Continues v (v.receiveControl frame pongDelayUs) := by
  unfold receiveControl
  split
  · exact continues_send fun _ _ => rfl
  · exact Continues.refl v

theorem continues_receive (v : ViewerStream J) (t : ViewerTurn) :
    Continues v (v.receive est t) := by
  unfold receive
  split
  · exact continues_receiveVideo v _
  · exact continues_receiveControl v _ _
  · exact continues_of_dropped rfl rfl rfl (le_refl _)
  · exact Continues.refl v
  · exact continues_of_dropped rfl rfl rfl (le_refl _)
  · exact Continues.refl v

/-- A picture is counted twice: for the report at the end, and for those on the way. -/
theorem continues_present (v : ViewerStream J) (shown : List Bool) :
    Continues v (v.present shown) := by
  induction shown generalizing v with
  | nil => exact Continues.refl v
  | cons ok rest ih =>
      let w : ViewerStream J :=
        { v with
          report := { v.report with decoded := v.report.decoded + 1 }
          telemetry :=
            { v.telemetry with
              frames := { v.telemetry.frames with decoded := v.telemetry.frames.decoded + 1 } } }
      have hcount : Continues v w := by
        refine ⟨rfl, fun ht => congrArg (· + 1) ht, ?_⟩
        intro f
        cases f with
        | decoded => exact Nat.le_succ _
        | dropped => exact le_refl _
      refine hcount.trans ?_
      show Continues w (if ok then w.present rest else { w with running := false })
      split_ifs
      · exact ih w
      · exact continues_of_dropped rfl rfl rfl (le_refl _)

theorem continues_playout (v : ViewerStream J) (decoder : DecodeOutcome) :
    Continues v (v.playout decoder) := by
  have hpoll : Continues v { v with jitter := (v.jitter.poll v.nowMs).2 } := by
    refine continues_of_dropped rfl rfl rfl ?_
    exact (Nat.le_add_right _ _).trans_eq (v.jitter.droppedTotal_poll v.nowMs).symm
  refine hpoll.trans ?_
  unfold playout
  simp only
  split
  · exact continues_present _ _
  · unfold requestKeyframe
    split_ifs
    · refine Continues.trans ?_ (continues_send fun _ _ => rfl)
      exact continues_of_dropped rfl rfl rfl (le_refl _)
    · exact Continues.refl _
  · exact Continues.refl _

@[simp] theorem counted_advance (v : ViewerStream J) (t : ViewerTurn) (f : QosField) :
    f.counted (v.advance t) = f.counted v := by
  cases f with
  | decoded => rfl
  | dropped => rfl

@[simp] theorem counted_sendReport (v : ViewerStream J) (f : QosField) :
    f.counted v.sendReport = f.counted v := by
  cases f with
  | decoded => rfl
  | dropped => rfl

/-- The report of a turn has the counts of before it. -/
theorem inReport_reportTelemetry (h : v.Tallied) (f : QosField) :
    f.inReport v.reportTelemetry.toQosReport = min (f.counted v) 65535 := by
  cases f with
  | decoded => exact (toNat_clampToU16 _).trans (by rw [reportTelemetry, h, QosField.counted])
  | dropped => exact toNat_clampToU16 _

/-- **What a turn reports**: the counts of before it, if the interval is over. -/
theorem turn_cases (est : Estimator J) (v : ViewerStream J) (t : ViewerTurn) :
    (¬ v.Reports t ∧ Continues v (v.turn est t)) ∨
    (v.Reports t ∧ (v.turn est t).reports =
        v.reports ++ [(v.advance t).reportTelemetry.toQosReport] ∧
      (v.Tallied → (v.turn est t).Tallied) ∧
      ∀ f : QosField, f.counted v ≤ f.counted (v.turn est t)) := by
  have hrest : ∀ w : ViewerStream J, Continues w
      (if (w.receive est t).running then (w.receive est t).playout t.decoder
        else w.receive est t) := by
    intro w
    split_ifs
    · exact (continues_receive w t).trans (continues_playout _ _)
    · exact continues_receive w t
  by_cases hrunning : v.running = true
  · by_cases hdue : (v.advance t).ReportDue
    · right
      have hturn := hrest (v.advance t).sendReport
      simp only [turn, if_pos hrunning, if_pos hdue]
      refine ⟨⟨hrunning, hdue⟩, ?_, hturn.tallied, ?_⟩
      · rw [hturn.reports, sendReport, reports_send]
        rfl
      · intro f
        have hcounted := hturn.counted f
        rwa [counted_sendReport, counted_advance] at hcounted
    · left
      have hadvance : Continues v (v.advance t) :=
        ⟨rfl, id, fun f => (counted_advance v t f).ge⟩
      simp only [turn, if_pos hrunning, if_neg hdue]
      exact ⟨fun h => hdue h.2, hadvance.trans (hrest (v.advance t))⟩
  · left
    rw [turn, if_neg hrunning]
    exact ⟨fun h => hrunning h.1, Continues.refl v⟩

end ViewerStream

/-! ### Whole runs -/

/-- The loop, and what had been counted when the last report was made. -/
structure ReportRun (J : Type) where
  viewer : ViewerStream J
  atReport : QosField → ℕ

namespace ReportRun

variable {J : Type} (est : Estimator J)

/-- Before the first turn. -/
def start : ReportRun J := ⟨.start est, fun _ => 0⟩

/-- One turn. -/
def step (r : ReportRun J) (t : ViewerTurn) : ReportRun J where
  viewer := r.viewer.turn est t
  atReport := if r.viewer.Reports t then fun f => f.counted r.viewer else r.atReport

variable (f : QosField)

/-- What the reports say adds up to what had been counted when the last of them was made. -/
def Sums (r : ReportRun J) : Prop := (r.viewer.reports.map f.inReport).sum = r.atReport f

/-- What has been counted since the last report. -/
def interval (r : ReportRun J) : ℕ := f.counted r.viewer - r.atReport f

/-- What has been counted since the last report fits its field, if the turn makes a report. -/
def Fits (r : ReportRun J) (t : ViewerTurn) : Prop :=
  r.viewer.Reports t → r.interval f ≤ 65535

instance (r : ReportRun J) (t : ViewerTurn) : Decidable (r.Fits f t) :=
  inferInstanceAs (Decidable (_ → _))

/-- If the turn makes a report, then nothing had been counted when the last one was made, or as much
as a field holds has been counted since. -/
def PerInterval (r : ReportRun J) (t : ViewerTurn) : Prop :=
  r.viewer.Reports t → r.atReport f = 0 ∨ r.interval f = 65535

instance (r : ReportRun J) (t : ViewerTurn) : Decidable (r.PerInterval f t) :=
  inferInstanceAs (Decidable (_ → _))

/-- The reports add up so far. -/
structure Inv (r : ReportRun J) : Prop where
  tallied : r.viewer.Tallied
  counted : r.atReport f ≤ f.counted r.viewer
  sums : r.Sums f

variable {est f} {r : ReportRun J} {t : ViewerTurn}

theorem inv_start : (start est).Inv f where
  tallied := rfl
  counted := Nat.zero_le _
  sums := rfl

/-- **One turn**: the reports add up afterwards unless a report repeats what an earlier one said. -/
theorem step_cases (est : Estimator J) (h : r.Inv f) (t : ViewerTurn) :
    ((r.step est t).Sums f ↔ r.Fits f t ∧ r.PerInterval f t) ∧
      (r.step est t).viewer.Tallied ∧
      (r.step est t).atReport f ≤ f.counted (r.step est t).viewer := by
  have hsums : (r.viewer.reports.map f.inReport).sum = r.atReport f := h.sums
  have hcounted := h.counted
  rcases r.viewer.turn_cases est t with ⟨hno, hcont⟩ | ⟨hreports, hsent, htallied, hmono⟩
  · have hsame : (r.step est t).atReport = r.atReport := if_neg hno
    refine ⟨?_, hcont.tallied h.tallied, ?_⟩
    · rw [Sums, hsame]
      refine iff_of_true ?_ ⟨fun hr => absurd hr hno, fun hr => absurd hr hno⟩
      show ((r.viewer.turn est t).reports.map f.inReport).sum = r.atReport f
      rw [hcont.reports]
      exact hsums
    · rw [hsame]
      exact hcounted.trans (hcont.counted f)
  · have hnew : (r.step est t).atReport f = f.counted r.viewer :=
      congrFun (if_pos hreports) f
    have hsaid : f.inReport (r.viewer.advance t).reportTelemetry.toQosReport =
        min (f.counted r.viewer) 65535 := by
      have htold := ViewerStream.inReport_reportTelemetry (v := r.viewer.advance t) h.tallied f
      rwa [ViewerStream.counted_advance] at htold
    refine ⟨?_, htallied h.tallied, ?_⟩
    · have hsum : ((r.step est t).viewer.reports.map f.inReport).sum =
          r.atReport f + min (f.counted r.viewer) 65535 := by
        show ((r.viewer.turn est t).reports.map f.inReport).sum = _
        rw [hsent, List.map_append, List.sum_append, hsums, List.map_singleton,
          List.sum_singleton, hsaid]
      rw [Sums, hsum, hnew, Fits, PerInterval, interval]
      constructor
      · intro heq
        refine ⟨fun _ => ?_, fun _ => ?_⟩
        · omega
        · omega
      · rintro ⟨hfits, hper⟩
        have hle := hfits hreports
        have hor := hper hreports
        omega
    · rw [hnew]
      exact hmono f

/-- In every run: the reports add up after every turn exactly when none of them repeats what an
earlier one said and all that they have to say fits. -/
theorem sums_iff_along (turns : List ViewerTurn) :
    (∀ before, before <+: turns → (Machine.run (step est) (start est) before).Sums f) ↔
      Machine.Along (step est) (fun r t => r.Fits f t ∧ r.PerInterval f t) (start est) turns := by
  refine Machine.forall_prefix_iff_along (Inv f) (Sums f) (fun _ h => h.sums) ?_ ?_ inv_start turns
  · intro r t h hgood
    obtain ⟨hsums, htallied, hcounted⟩ := step_cases est h t
    exact ⟨htallied, hcounted, hsums.2 hgood⟩
  · intro r t h hbad hsums
    exact hbad ((step_cases est h t).1.1 hsums)

/-- **The reports of a run**: as long as what has been counted in each interval fits its field, the
reports add up after every turn exactly when none of them repeats what an earlier one said. -/
theorem sums_iff (est : Estimator J) (f : QosField) (turns : List ViewerTurn)
    (hfits : Machine.Along (step est) (Fits f) (start est) turns) :
    (∀ before, before <+: turns → (Machine.run (step est) (start est) before).Sums f) ↔
      Machine.Along (step est) (PerInterval f) (start est) turns := by
  rw [sums_iff_along, Machine.along_and]
  exact and_iff_right hfits

/-! ### One frame -/

/-- The only fragment of a frame. -/
def Sample.onlyFragment (frameId : UInt32) : NextEvent :=
  .event (.frame .video (.new (.videoFrame frameId 0 1 1 0 0 [0xAB]) 0 0))

/-- A report of nothing; then a frame arrives, is decoded and reported. -/
def Sample.firstFrame : List ViewerTurn :=
  [⟨1000000, Sample.onlyFragment 1, 0, .failed⟩, ⟨20000, .timeout, 0, .pictures [true]⟩,
    ⟨980000, .timeout, 0, .failed⟩]

/-- A frame arrives and is decoded, another one comes too late to be played, and two reports are
made after that. -/
def Sample.twoReports : List ViewerTurn :=
  [⟨0, Sample.onlyFragment 1, 0, .failed⟩, ⟨20000, .timeout, 0, .pictures [true]⟩,
    ⟨5000, Sample.onlyFragment 2, 0, .failed⟩, ⟨975000, .timeout, 0, .failed⟩,
    ⟨1000000, .timeout, 0, .failed⟩]

/-- The run with one frame makes two reports, and they add up to it. -/
theorem sums_firstFrame :
    (Machine.run (step jitterEstimator) (start jitterEstimator)
        Sample.firstFrame).viewer.reports.length = 2 ∧
      (Machine.run (step jitterEstimator) (start jitterEstimator)
        Sample.firstFrame).Sums .decoded := by
  refine ⟨by decide, ?_⟩
  exact (sums_iff jitterEstimator .decoded Sample.firstFrame (by decide)).2
    (by decide) Sample.firstFrame List.prefix_rfl

/-- The second report says again what the first one said: one frame decoded and one dropped, when
none has been since. -/
theorem sums_twoReports :
    (Machine.Along (step jitterEstimator) (Fits .decoded) (start jitterEstimator)
        Sample.twoReports ∧
      ¬ (Machine.run (step jitterEstimator) (start jitterEstimator)
        Sample.twoReports).Sums .decoded) ∧
    Machine.Along (step jitterEstimator) (Fits .dropped) (start jitterEstimator)
        Sample.twoReports ∧
      ¬ (Machine.run (step jitterEstimator) (start jitterEstimator)
        Sample.twoReports).Sums .dropped := by
  refine ⟨⟨by decide, ?_⟩, by decide, ?_⟩
  · unfold Sums
    decide
  · unfold Sums
    decide

end ReportRun

end Rda
