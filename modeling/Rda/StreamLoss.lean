/-
**Loss accounting from end to end.**

The host numbers what it sends with one counter, video fragments and pings alike, and the viewer
measures losses by the numbers of the video fragments it receives.  A ping between two fragments is
a number the video channel never carries, and the viewer counts it as a fragment that was lost.

Main definitions:

* `Rda.gaps` — how many other messages are sent between consecutive video fragments;
* `Rda.NumberedFrom`, `Rda.Stream.Numbered` — messages with consecutive numbers;
* `Rda.Stream.Turn.channels` — the channels of the messages of an undisturbed turn.

Main results:

* `Rda.Stream.numbered_run` — every run of the loop numbers its messages consecutively;
* `Rda.Stream.channels_run` — what a run sends, turn by turn;
* `Rda.zero_loss_iff` — **the runs without a phantom loss**.
-/

import Rda.LossAccount
import Rda.Stream

set_option relaxedAutoImplicit false
set_option autoImplicit false

namespace Rda

/-! ### Gaps -/

/-- The gaps between consecutive video fragments among messages on these channels, after so many
messages since the last fragment. -/
def gapsAfter : ℕ → List Channel → List ℕ
  | _, [] => []
  | gap, .video :: channels => gap :: gapsAfter 0 channels
  | gap, _ :: channels => gapsAfter (gap + 1) channels

/-- How many other messages are sent between consecutive video fragments. -/
def gaps : List Channel → List ℕ
  | [] => []
  | .video :: channels => gapsAfter 0 channels
  | _ :: channels => gaps channels

/-- Messages with consecutive numbers. -/
def NumberedFrom : ℕ → List ControlFrame → Prop
  | _, [] => True
  | n, frame :: frames => frame.header.sequence = .ofNat n ∧ NumberedFrom (n + 1) frames

/-- The video fragments among messages. -/
def videoFrames (frames : List ControlFrame) : List ControlFrame :=
  frames.filter fun frame => frame.channel = .video

theorem numberedFrom_append {n : ℕ} {frames : List ControlFrame} (h : NumberedFrom n frames)
    {frame : ControlFrame} (hframe : frame.header.sequence = .ofNat (n + frames.length)) :
    NumberedFrom n (frames ++ [frame]) := by
  induction frames generalizing n with
  | nil => exact ⟨hframe, trivial⟩
  | cons frame' frames ih =>
      refine ⟨h.1, ih h.2 ?_⟩
      rw [hframe, List.length_cons]
      congr 1
      omega

/-- The numbers of the fragments after the one numbered `last`. -/
theorem numbers_videoFrames_after {n : ℕ} {frames : List ControlFrame} (h : NumberedFrom n frames)
    {last : UInt16} {gap : ℕ} (hlast : UInt16.ofNat n = last + .ofNat (gap + 1)) :
    (videoFrames frames).map (·.header.sequence)
      = LossAccount.numbersAfter last (gapsAfter gap (frames.map ControlFrame.channel)) := by
  induction frames generalizing n last gap with
  | nil => rfl
  | cons frame frames ih =>
      by_cases hvideo : frame.channel = .video
      · have hnext : UInt16.ofNat (n + 1) = UInt16.ofNat n + .ofNat (0 + 1) := UInt16.ofNat_add n 1
        rw [videoFrames, List.filter_cons_of_pos (by simpa using hvideo), List.map_cons, h.1,
          List.map_cons, hvideo, gapsAfter, LossAccount.numbersAfter, ← hlast]
        exact congrArg _ (ih h.2 hnext)
      · have hnext : UInt16.ofNat (n + 1) = last + .ofNat (gap + 1 + 1) := by
          rw [UInt16.ofNat_add n, hlast, UInt16.ofNat_add (gap + 1), UInt16.add_assoc]
        have hgaps : gapsAfter gap (frame.channel :: frames.map ControlFrame.channel)
            = gapsAfter (gap + 1) (frames.map ControlFrame.channel) := by
          cases hchannel : frame.channel <;> first | rfl | exact absurd hchannel hvideo
        rw [videoFrames, List.filter_cons_of_neg (by simpa using hvideo), List.map_cons, hgaps]
        exact ih h.2 hnext

/-- The numbers of all fragments: the first one has some number, and the others follow it. -/
theorem numbers_videoFrames {n : ℕ} {frames : List ControlFrame} (h : NumberedFrom n frames) :
    (videoFrames frames = [] ∧ gaps (frames.map ControlFrame.channel) = []) ∨
    ∃ first, (videoFrames frames).map (·.header.sequence)
      = first :: LossAccount.numbersAfter first (gaps (frames.map ControlFrame.channel)) := by
  induction frames generalizing n with
  | nil => exact .inl ⟨rfl, rfl⟩
  | cons frame frames ih =>
      by_cases hvideo : frame.channel = .video
      · have hnext : UInt16.ofNat (n + 1) = UInt16.ofNat n + .ofNat (0 + 1) := UInt16.ofNat_add n 1
        refine .inr ⟨.ofNat n, ?_⟩
        rw [videoFrames, List.filter_cons_of_pos (by simpa using hvideo), List.map_cons, h.1,
          List.map_cons, hvideo, gaps]
        exact congrArg _ (numbers_videoFrames_after h.2 hnext)
      · have hgaps : gaps (frame.channel :: frames.map ControlFrame.channel)
            = gaps (frames.map ControlFrame.channel) := by
          cases hchannel : frame.channel <;> first | rfl | exact absurd hchannel hvideo
        rw [videoFrames, List.filter_cons_of_neg (by simpa using hvideo), List.map_cons, hgaps]
        exact ih h.2

/-! ### The host's numbering -/

namespace Stream

/-- A message of the loop: a ping or a fragment of a frame. -/
def Outgoing (frame : ControlFrame) : Prop :=
  (frame.channel = .control ∧ frame.payload.isVideoFrame = false) ∨
    (frame.channel = .video ∧ frame.payload.isVideoFrame = true)

/-- The messages are numbered consecutively, and the counter has the next number. -/
structure Numbered (s : Stream) : Prop where
  next : s.seq = .ofNat s.outbox.length
  numbered : NumberedFrom 0 s.outbox
  outgoing : ∀ frame ∈ s.outbox, Outgoing frame

theorem isVideoFrame_of_mem_fragmentVideo {frameId : UInt32} {kind temporalLayer : UInt8}
    {ptsUs : UInt64} {data : List UInt8} {payload : Payload}
    (h : payload ∈ fragmentVideo frameId kind temporalLayer ptsUs data) :
    payload.isVideoFrame = true := by
  rw [fragmentVideo, List.mem_mapIdx] at h
  obtain ⟨i, hi, rfl⟩ := h
  rfl

/-- A fragment travels on the video channel. -/
theorem channel_of_isVideoFrame {payload : Payload} (h : payload.isVideoFrame = true)
    (sequence : UInt16) (timestampMs : UInt32) :
    (ControlFrame.new payload sequence timestampMs).channel = .video := by
  cases payload with
  | videoFrame => rfl
  | _ => cases h

theorem outgoing_of_isMessage {payload : Payload} (h : IsMessage payload) (sequence : UInt16)
    (timestampMs : UInt32) : Outgoing (.new payload sequence timestampMs) := by
  rcases h with ⟨token, rfl⟩ | ⟨frameId, kind, temporalLayer, ptsUs, data, hmem⟩
  · exact .inl ⟨rfl, rfl⟩
  · have hvideo := isVideoFrame_of_mem_fragmentVideo hmem
    exact .inr ⟨channel_of_isVideoFrame hvideo sequence timestampMs, hvideo⟩

theorem numbered_kept (grant : SessionGrant) : Kept grant Numbered where
  alike := by
    intro s s' h hs
    constructor
    · rw [hs.seq, hs.outbox]
      exact h.next
    · rw [hs.outbox]
      exact h.numbered
    · rw [hs.outbox]
      exact h.outgoing
  input := fun h _ _ => ⟨h.next, h.numbered, h.outgoing⟩
  send := by
    intro s s' payload h hmessage hs
    obtain ⟨timestampMs, houtbox⟩ := hs.outbox
    constructor
    · rw [hs.seq, h.next, houtbox, List.length_append, UInt16.ofNat_add]
      rfl
    · rw [houtbox]
      refine numberedFrom_append h.numbered ?_
      rw [Nat.zero_add]
      exact h.next
    · rw [houtbox]
      intro frame hframe
      rcases List.mem_append.1 hframe with hmem | hmem
      · exact h.outgoing frame hmem
      · rw [List.mem_singleton.1 hmem]
        exact outgoing_of_isMessage hmessage s.seq timestampMs

/-- Every run of the loop numbers its messages consecutively. -/
theorem numbered_run (config : StreamConfig) (backend : Backend) (display : DisplayGeometry)
    (turns : List Turn) : (Machine.run (step config) (start backend display) turns).Numbered :=
  (numbered_kept config.grant).run
    ⟨rfl, trivial, fun _ h => absurd h List.not_mem_nil⟩ turns

/-! ### What a turn sends -/

/-- The channels of the messages of an undisturbed turn: a ping when it is due, and the fragments of
the frames that are not too large. -/
def Turn.channels (t : Turn) : List Channel :=
  (if t.pollDue then [.control] else []) ++ t.frames.flatMap fun encoded =>
    if MAX_VIDEO_FRAME < encoded.data.length then []
    else List.replicate (videoChunks encoded.data).length .video

/-- The turn is in time and does not bring the end of the session. -/
def Turn.Undisturbed (t : Turn) : Prop :=
  t.inTime = true ∧ ∀ e ∈ t.events, e ≠ none ∧ e ≠ some .closed

/-- The loop goes on, and has sent messages on these channels. -/
structure Going (s : Stream) (channels : List Channel) : Prop where
  running : s.closed = false ∧ s.returned = false
  sent : s.outbox.map ControlFrame.channel = channels

variable {s : Stream} {channels : List Channel}

theorem going_drain (h : s.Going channels) (grant : SessionGrant) (nowMs : ℕ)
    {events : List (Option TransportEvent)} (hevents : ∀ e ∈ events, e ≠ none ∧ e ≠ some .closed) :
    (s.drain grant nowMs events).Going channels := by
  have hcontrol : ∀ {s : Stream} payload, s.Going channels →
      (s.onControl payload nowMs).Going channels := by
    intro s payload h
    cases payload with
    | pong token hostDelayUs =>
        rw [onControl]
        split
        · exact ⟨h.running, h.sent⟩
        · exact h
    | requestKeyframe mode ltrIndex reason => exact ⟨h.running, h.sent⟩
    | _ => exact h
  have hstats : ∀ {s : Stream} payload, s.Going channels → (s.onStats payload).Going channels := by
    intro s payload h
    cases payload with
    | qosReport report => exact ⟨h.running, h.sent⟩
    | _ => exact h
  fun_induction drain grant nowMs s events with
  | case1 s => exact h
  | case2 s frame events ih => exact ih ⟨h.running, h.sent⟩ (List.forall_mem_cons.1 hevents).2
  | case3 s frame events ih => exact ih ⟨h.running, h.sent⟩ (List.forall_mem_cons.1 hevents).2
  | case4 s frame events ih => exact ih (hcontrol _ h) (List.forall_mem_cons.1 hevents).2
  | case5 s frame events ih => exact ih (hstats _ h) (List.forall_mem_cons.1 hevents).2
  | case6 s events => exact absurd rfl (List.forall_mem_cons.1 hevents).1.2
  | case7 s events => exact absurd rfl (List.forall_mem_cons.1 hevents).1.1
  | case8 s event events _ _ _ _ _ ih => exact ih h (List.forall_mem_cons.1 hevents).2

theorem going_ping (h : s.Going channels) (nowMs : ℕ) :
    (s.ping nowMs).Going (channels ++ [.control]) := by
  refine ⟨h.running, ?_⟩
  rw [ping, List.map_append, h.sent]
  rfl

variable {config : StreamConfig} (hlink : ∀ n, config.link n = .sent)
include hlink

theorem going_sendFragments (nowMs : ℕ) {fragments : List Payload}
    (hvideo : ∀ fragment ∈ fragments, fragment.isVideoFrame = true) (h : s.Going channels) :
    (sendFragments config nowMs s fragments).2.Going
      (channels ++ List.replicate fragments.length .video) := by
  induction fragments generalizing s channels with
  | nil => simpa [sendFragments] using h
  | cons fragment fragments ih =>
      obtain ⟨hfragment, hrest⟩ := List.forall_mem_cons.1 hvideo
      rw [sendFragments, List.length_cons, List.replicate_succ, List.append_cons channels]
      simp only [hlink]
      refine ih hrest ⟨h.running, ?_⟩
      rw [List.map_append, h.sent, List.map_singleton, channel_of_isVideoFrame hfragment]

theorem going_sendFrame (nowMs : ℕ) (encoded : EncodedFrame) (h : s.Going channels) :
    (sendFrame config nowMs s encoded).Going (channels ++
      if MAX_VIDEO_FRAME < encoded.data.length then []
      else List.replicate (videoChunks encoded.data).length .video) := by
  rw [sendFrame]
  split
  · rwa [List.append_nil]
  · have hnext : ({ s with frameId := s.frameId + 1 } : Stream).Going channels :=
      ⟨h.running, h.sent⟩
    have hvideo : ∀ fragment ∈ fragmentVideo s.frameId encoded.kind.code encoded.temporalLayer
        encoded.ptsUs encoded.data, fragment.isVideoFrame = true :=
      fun fragment hmem => isVideoFrame_of_mem_fragmentVideo hmem
    have hsent := going_sendFragments hlink nowMs hvideo hnext
    rw [fragmentVideo, List.length_mapIdx] at hsent
    dsimp only
    split
    · exact ⟨hsent.running, hsent.sent⟩
    · exact hsent

theorem going_sendFrames (nowMs : ℕ) (frames : List EncodedFrame) (h : s.Going channels) :
    (frames.foldl (sendFrame config nowMs) s).Going (channels ++ frames.flatMap fun encoded =>
      if MAX_VIDEO_FRAME < encoded.data.length then []
      else List.replicate (videoChunks encoded.data).length .video) := by
  induction frames generalizing s channels with
  | nil => simpa using h
  | cons encoded frames ih =>
      rw [List.flatMap_cons, ← List.append_assoc]
      exact ih (going_sendFrame hlink nowMs encoded h)

theorem going_step {t : Turn} (ht : t.Undisturbed) (h : s.Going channels) :
    (s.step config t).Going (channels ++ t.channels) := by
  have hdrained := going_drain h config.grant t.nowMs ht.2
  rw [step, h.running.1, h.running.2, ht.1]
  simp only [Bool.false_eq_true, if_false, Bool.not_true, Bool.or_false]
  rw [Turn.channels, ← List.append_assoc]
  refine going_sendFrames hlink t.nowMs t.frames ?_
  split
  · exact going_ping hdrained t.nowMs
  · rwa [List.append_nil]

/-- **What a run sends.**  As long as the transport takes every message and the session goes on, the
channels of the messages are those of the turns, one after the other. -/
theorem channels_run (backend : Backend) (display : DisplayGeometry) {turns : List Turn}
    (hturns : ∀ t ∈ turns, t.Undisturbed) :
    (Machine.run (step config) (start backend display) turns).outbox.map ControlFrame.channel
      = turns.flatMap Turn.channels := by
  have main : ∀ {s : Stream} {channels : List Channel}, s.Going channels →
      (Machine.run (step config) s turns).Going (channels ++ turns.flatMap Turn.channels) := by
    induction turns with
    | nil => intro s channels h; simpa using h
    | cons t turns ih =>
        intro s channels h
        rw [List.flatMap_cons, ← List.append_assoc]
        exact ih (fun t' h' => hturns t' (List.mem_cons_of_mem _ h'))
          (going_step hlink (hturns t List.mem_cons_self) h)
  exact (main (show (start backend display).Going [] from ⟨⟨rfl, rfl⟩, rfl⟩)).sent

end Stream

/-- **The runs without a phantom loss.**  Every video fragment of a run of the host's loop arrives
once and in order, among other messages and whenever the counts are taken.  No report shows a loss
exactly when every fragment is contiguous to the one the viewer measures from; how far they are
apart is decided by the pings between them. -/
theorem zero_loss_iff (config : StreamConfig) (backend : Backend) (display : DisplayGeometry)
    (turns : List Stream.Turn) :
    (∀ es : List LossAccount.Event, es.filterMap LossAccount.Event.fragment
          = videoFrames (Machine.run (Stream.step config) (.start backend display) turns).outbox →
        ∀ r ∈ (Machine.run LossAccount.step {} es).reports, r.2 = 0) ↔
      Machine.Along LossAccount.drift LossAccount.Contiguous 0
        (gaps ((Machine.run (Stream.step config) (.start backend display) turns).outbox.map
          ControlFrame.channel)) := by
  have hnumbered := Stream.numbered_run config backend display turns
  generalize Machine.run (Stream.step config) (.start backend display) turns = s at hnumbered ⊢
  have hvideo : ∀ frame ∈ videoFrames s.outbox, frame.payload.isVideoFrame = true := by
    intro frame hframe
    rw [videoFrames, List.mem_filter, decide_eq_true_eq] at hframe
    rcases hnumbered.outgoing frame hframe.1 with ⟨hcontrol, -⟩ | ⟨-, hpayload⟩
    · rw [hcontrol] at hframe
      cases hframe.2
    · exact hpayload
  have hobserved : ∀ es : List LossAccount.Event,
      es.filterMap LossAccount.Event.fragment = videoFrames s.outbox →
      es.filterMap LossAccount.Event.observed
        = (videoFrames s.outbox).map (·.header.sequence) := by
    intro es hes
    rw [← hes, List.map_filterMap]
    rfl
  rcases numbers_videoFrames hnumbered.numbered with ⟨hnone, hgaps⟩ | ⟨first, hnumbers⟩
  · -- Without a fragment there is nothing to count.
    rw [hgaps]
    refine ⟨fun _ => trivial, ?_⟩
    intro _ es hes
    have hsilent := hobserved es hes
    rw [hnone, List.map_nil, List.filterMap_eq_nil_iff] at hsilent
    exact (LossAccount.clean_of_silent LossAccount.clean_start hsilent).1.2
  · constructor
    · intro hzero
      exact LossAccount.along_of_eachReported_first hvideo hnumbers
        (hzero _ (LossAccount.filterMap_eachReported hvideo))
    · intro hgaps es hes
      exact (LossAccount.clean_of_first ((hobserved es hes).trans hnumbers) hgaps).2

/-- A frame of one fragment is sent, and a second later a ping and another frame. -/
def Sample.videoTurns : List Stream.Turn :=
  [⟨true, 0, [], false, [⟨[1], .keyframe, 0, 0, 0, none, none⟩]⟩,
    ⟨true, 1000, [], true, [⟨[2], .delta, 1000000, 1, 0, none, none⟩]⟩]

/-- The run of these turns. -/
def Sample.videoRun : Stream :=
  Machine.run (Stream.step ⟨Sample.grant true, fun _ => .sent⟩)
    (.start (.new fun _ => .ok ()) ⟨0, 0, 0, 1920, 1080⟩) Sample.videoTurns

/-- Both fragments of this run arrive, and the second report of the viewer shows a loss. -/
theorem phantom_loss :
    (LossAccount.eachReported (videoFrames Sample.videoRun.outbox)).filterMap
        LossAccount.Event.fragment = videoFrames Sample.videoRun.outbox ∧
    (Machine.run LossAccount.step {}
        (LossAccount.eachReported (videoFrames Sample.videoRun.outbox))).reports
      = [(1, 0), (1, 1)] := by
  decide

end Rda
