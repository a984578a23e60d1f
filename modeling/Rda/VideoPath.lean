/-
**From the encoder to the decoder.**

The host's loop numbers the frames that its encoder makes, cuts them into fragments and sends these
between its pings.  The viewer's loop takes what arrives apart again: it decodes the messages, puts
fragments together, queues the frames and hands them to its decoder when they are due.  Between the
two anything may happen to a message but that it is changed.

Whatever happens, the decoder is only given frames that the encoder made, each as the encoder made
it.  The host's half of the argument is that frames have different numbers, as long as these do not
wrap around; the viewer's half is that what it holds is always a part of a frame that was sent, and
what it queues is a whole one.

Main definitions:

* `Rda.Stream.Sends` — the frames that the host's loop has cut into fragments;
* `Rda.ViewerStream.decodes`, `Rda.ViewerStream.decoded` — what the viewer's decoder is given;
* `Rda.ViewerStream.Holds` — what the viewer holds is of frames that were sent.

Main results:

* `Rda.Stream.sends_run` — every run of the host's loop;
* `Rda.ViewerStream.holds_turn` — every turn of the viewer's loop;
* `Rda.decoded_was_encoded` — **what the viewer decodes is what the host encoded**.
-/

import Mathlib.Data.List.Nodup
import Rda.QosReports
import Rda.Stream
import Rda.VideoIntegrity

set_option relaxedAutoImplicit false
set_option autoImplicit false

namespace Rda

/-- The frame that is sent is the one that was encoded. -/
structure CarriesFrame (e : EncodedFrame) (f : SentFrame) : Prop where
  kind : f.kind = e.kind.code
  temporalLayer : f.temporalLayer = e.temporalLayer
  ptsUs : f.ptsUs = e.ptsUs
  data : f.data = e.data

/-! ### The host -/

namespace Stream

/-- The frames that have been cut into fragments: they are numbered in their order, each is one that
was encoded, and the messages that were sent are readable and fragments of them. -/
structure Sends (encoded : List EncodedFrame) (frames : List SentFrame) (s : Stream) : Prop where
  numbered : frames.map SentFrame.frameId = (List.range frames.length).map UInt32.ofNat
  next : s.frameId = .ofNat frames.length
  few : frames.length ≤ encoded.length
  carries : ∀ f ∈ frames, ∃ e ∈ encoded, CarriesFrame e f
  genuine : ∀ wire ∈ s.outbox, Genuine frames wire.payload
  readable : ∀ wire ∈ s.outbox, ControlFrame.decode wire.encode = .ok wire

theorem genuine_mono {frames frames' : List SentFrame} (h : frames ⊆ frames') {payload : Payload}
    (hp : Genuine frames payload) : Genuine frames' payload := by
  intro id hid
  obtain ⟨f, hf, hi⟩ := hp id hid
  exact ⟨f, h hf, hi⟩

variable {encoded : List EncodedFrame} {frames : List SentFrame} {s s' : Stream}

theorem sends_start (backend : Backend) (display : DisplayGeometry) :
    Sends [] [] (start backend display) where
  numbered := rfl
  next := rfl
  few := le_rfl
  carries := by simp
  genuine := by simp [start]
  readable := by simp [start]

/-- A step that cuts no frame and sends nothing. -/
theorem Sends.alike (h : Sends encoded frames s) (hframe : s'.frameId = s.frameId)
    (houtbox : s'.outbox = s.outbox) : Sends encoded frames s' where
  numbered := h.numbered
  next := hframe.trans h.next
  few := h.few
  carries := h.carries
  genuine := by rw [houtbox]; exact h.genuine
  readable := by rw [houtbox]; exact h.readable

/-- More may have been encoded than is sent. -/
theorem Sends.more (h : Sends encoded frames s) (rest : List EncodedFrame) :
    Sends (encoded ++ rest) frames s where
  numbered := h.numbered
  next := h.next
  few := by
    have := h.few
    rw [List.length_append]
    omega
  carries f hf := by
    obtain ⟨e, he, hcarries⟩ := h.carries f hf
    exact ⟨e, List.mem_append_left _ he, hcarries⟩
  genuine := h.genuine
  readable := h.readable

theorem drain_unsent (grant : SessionGrant) (nowMs : ℕ) (s : Stream)
    (events : List (Option TransportEvent)) :
    (s.drain grant nowMs events).frameId = s.frameId ∧
      (s.drain grant nowMs events).outbox = s.outbox := by
  have hcontrol : ∀ (s : Stream) (payload : Payload), (s.onControl payload nowMs).frameId =
      s.frameId ∧ (s.onControl payload nowMs).outbox = s.outbox := by
    intro s payload
    cases payload with
    | pong token hostDelayUs =>
        rw [onControl]
        split
        · exact ⟨rfl, rfl⟩
        · exact ⟨rfl, rfl⟩
    | _ => exact ⟨rfl, rfl⟩
  have hstats : ∀ (s : Stream) (payload : Payload), (s.onStats payload).frameId = s.frameId ∧
      (s.onStats payload).outbox = s.outbox := by
    intro s payload
    cases payload <;> exact ⟨rfl, rfl⟩
  fun_induction Stream.drain grant nowMs s events with
  | case1 s => exact ⟨rfl, rfl⟩
  | case2 s frame events ih => exact ih
  | case3 s frame events ih => exact ih
  | case4 s frame events ih =>
      exact ⟨ih.1.trans (hcontrol s frame.payload).1, ih.2.trans (hcontrol s frame.payload).2⟩
  | case5 s frame events ih =>
      exact ⟨ih.1.trans (hstats s frame.payload).1, ih.2.trans (hstats s frame.payload).2⟩
  | case6 s events => exact ⟨rfl, rfl⟩
  | case7 s events => exact ⟨rfl, rfl⟩
  | case8 s event events _ _ _ _ _ ih => exact ih

/-- A message is sent. -/
theorem Sends.send (h : Sends encoded frames s) (hframe : s'.frameId = s.frameId)
    {wires : List ControlFrame} (houtbox : s'.outbox = s.outbox ++ wires)
    (hgenuine : ∀ wire ∈ wires, Genuine frames wire.payload)
    (hreadable : ∀ wire ∈ wires, ControlFrame.decode wire.encode = .ok wire) :
    Sends encoded frames s' where
  numbered := h.numbered
  next := hframe.trans h.next
  few := h.few
  carries := h.carries
  genuine wire hwire := by
    rw [houtbox] at hwire
    exact (List.mem_append.1 hwire).elim (h.genuine wire) (hgenuine wire)
  readable wire hwire := by
    rw [houtbox] at hwire
    exact (List.mem_append.1 hwire).elim (h.readable wire) (hreadable wire)

theorem sends_ping (h : Sends encoded frames s) (nowMs : ℕ) :
    Sends encoded frames (s.ping nowMs) := by
  refine h.send rfl rfl ?_ ?_
  · intro wire hwire id hid
    rw [List.mem_singleton.1 hwire] at hid
    cases hid
  · intro wire hwire
    rw [List.mem_singleton.1 hwire]
    exact ControlFrame.decode_encode ⟨rfl, (by decide : (0 : UInt8) ≤ 0x0F), rfl, trivial⟩

/-- The fragments are sent in their order, up to some one of them. -/
theorem sendFragments_cases (config : StreamConfig) (nowMs : ℕ) (s : Stream)
    (fragments : List Payload) :
    (sendFragments config nowMs s fragments).2.frameId = s.frameId ∧
      ∃ wires, (sendFragments config nowMs s fragments).2.outbox = s.outbox ++ wires ∧
        ∀ wire ∈ wires, ∃ fragment ∈ fragments, ∃ sequence timestampMs,
          wire = .new fragment sequence timestampMs := by
  induction fragments generalizing s with
  | nil => exact ⟨rfl, [], (List.append_nil _).symm, by simp⟩
  | cons fragment fragments ih =>
      rw [sendFragments]
      dsimp only
      split
      · obtain ⟨hframe, wires, houtbox, hwires⟩ := ih _
        refine ⟨hframe, _ :: wires, by rw [houtbox, List.append_assoc]; rfl, ?_⟩
        intro wire hwire
        rcases List.mem_cons.1 hwire with rfl | hwire
        · exact ⟨fragment, by simp, _, _, rfl⟩
        · obtain ⟨g, hg, hsent⟩ := hwires wire hwire
          exact ⟨g, List.mem_cons_of_mem _ hg, hsent⟩
      · refine ⟨rfl, _, rfl, ?_⟩
        intro wire hwire
        rw [List.mem_singleton.1 hwire]
        exact ⟨fragment, by simp, _, _, rfl⟩

/-- One more frame is cut into fragments, unless it is too large. -/
theorem sends_sendFrame (config : StreamConfig) (nowMs : ℕ) (h : Sends encoded frames s)
    (e : EncodedFrame) :
    ∃ frames', Sends (encoded ++ [e]) frames' (sendFrame config nowMs s e) := by
  by_cases hlarge : MAX_VIDEO_FRAME < e.data.length
  · rw [sendFrame, if_pos hlarge]
    exact ⟨frames, h.more [e]⟩
  · have hkind : e.kind.code ≤ 2 := by
      cases e.kind <;> decide
    set f : SentFrame :=
      ⟨s.frameId, e.kind.code, e.temporalLayer, e.ptsUs, e.data, hkind, not_lt.1 hlarge⟩ with hf
    obtain ⟨hframe, wires, houtbox, hwires⟩ :=
      sendFragments_cases config nowMs { s with frameId := s.frameId + 1 } f.fragments
    have hall : ∀ wire ∈ wires, Genuine (frames ++ [f]) wire.payload ∧
        ControlFrame.decode wire.encode = .ok wire := by
      intro wire hwire
      obtain ⟨fragment, hfragment, sequence, timestampMs, rfl⟩ := hwires wire hwire
      obtain ⟨i, hi, rfl⟩ := f.mem_fragments.1 hfragment
      exact ⟨fun id _ => ⟨f, by simp, i, hi, rfl⟩, f.decode_encode_fragment hi _ _⟩
    have hcut : Sends (encoded ++ [e]) (frames ++ [f]) { s with frameId := s.frameId + 1 } := by
      refine ⟨?_, ?_, ?_, ?_, ?_, h.readable⟩
      · rw [List.map_append, h.numbered, List.length_append, List.length_singleton,
          List.range_succ, List.map_append, List.map_singleton, List.map_singleton, ← h.next]
      · rw [List.length_append, List.length_singleton, UInt32.ofNat_add, ← h.next]
        rfl
      · have := h.few
        rw [List.length_append, List.length_append]
        simpa using this
      · intro g hg
        rcases List.mem_append.1 hg with hg | hg
        · exact (h.more [e]).carries g hg
        · rw [List.mem_singleton.1 hg]
          exact ⟨e, by simp, rfl, rfl, rfl, rfl⟩
      · exact fun wire hwire =>
          genuine_mono (List.subset_append_left _ _) (h.genuine wire hwire)
    have hsent : Sends (encoded ++ [e]) (frames ++ [f])
        (sendFragments config nowMs { s with frameId := s.frameId + 1 } f.fragments).2 :=
      hcut.send hframe houtbox (fun wire hwire => (hall wire hwire).1)
        fun wire hwire => (hall wire hwire).2
    refine ⟨frames ++ [f], ?_⟩
    rw [sendFrame, if_neg hlarge]
    dsimp only
    split
    · exact hsent.alike rfl rfl
    · exact hsent

theorem sends_sendFrames (config : StreamConfig) (nowMs : ℕ) (more : List EncodedFrame)
    (h : Sends encoded frames s) :
    ∃ frames', Sends (encoded ++ more) frames' (more.foldl (sendFrame config nowMs) s) := by
  induction more generalizing encoded frames s with
  | nil => exact ⟨frames, by rwa [List.append_nil]⟩
  | cons e more ih =>
      obtain ⟨frames', h'⟩ := sends_sendFrame config nowMs h e
      obtain ⟨frames'', h''⟩ := ih h'
      exact ⟨frames'', by rwa [List.append_assoc] at h''⟩

/-- One turn. -/
theorem sends_step (config : StreamConfig) (h : Sends encoded frames s) (t : Turn) :
    ∃ frames', Sends (encoded ++ t.frames) frames' (step config s t) := by
  rw [step]
  split
  · exact ⟨frames, h.more _⟩
  · split
    · exact ⟨frames, (h.more _).alike rfl rfl⟩
    · obtain ⟨hframe, houtbox⟩ := drain_unsent config.grant t.nowMs s t.events
      have hdrained := h.alike hframe houtbox
      split
      · exact sends_sendFrames config t.nowMs t.frames (sends_ping hdrained t.nowMs)
      · exact sends_sendFrames config t.nowMs t.frames hdrained

/-- **The host.**  In every run the messages are fragments of frames that were encoded, numbered in
their order. -/
theorem sends_run (config : StreamConfig) (backend : Backend) (display : DisplayGeometry)
    (turns : List Turn) :
    ∃ frames, Sends (turns.flatMap Turn.frames) frames
      (Machine.run (step config) (start backend display) turns) := by
  induction turns using List.reverseRecOn with
  | nil => exact ⟨[], sends_start backend display⟩
  | append_singleton turns t ih =>
      obtain ⟨frames, h⟩ := ih
      rw [Machine.run_append, List.flatMap_append, List.flatMap_singleton]
      exact sends_step config h t

/-- As long as the numbers do not wrap around they are all different. -/
theorem Sends.distinguishable (h : Sends encoded frames s) (hmany : encoded.length ≤ 2 ^ 32) :
    Distinguishable frames := by
  have hnodup : (frames.map SentFrame.frameId).Nodup := by
    rw [h.numbered]
    refine List.Nodup.map_on (fun i hi j hj heq => ?_) List.nodup_range
    have hi' := List.mem_range.1 hi
    have hj' := List.mem_range.1 hj
    have := h.few
    have heq' := congrArg UInt32.toNat heq
    rwa [UInt32.toNat_ofNat', UInt32.toNat_ofNat', Nat.mod_eq_of_lt (by omega),
      Nat.mod_eq_of_lt (by omega)] at heq'
  intro f hf g hg heq _ _
  exact List.inj_on_of_nodup_map hnodup hf hg heq

end Stream

/-! ### The viewer -/

/-- In this turn a message with this payload arrives on the video channel. -/
def ViewerTurn.Brings (t : ViewerTurn) (payload : Payload) : Prop :=
  ∃ frame, t.next = .event (.frame .video frame) ∧ frame.payload = payload

/-- The frame is one of these, under the viewer's own number, and all its fragments came. -/
def Arrived (frames : List SentFrame) (past : List ViewerTurn) (e : EncodedFrame) : Prop :=
  ∃ f ∈ frames, e = { f.encoded with sequence := e.sequence } ∧
    ∀ i < f.chunks.length, ∃ t ∈ past, t.Brings (f.fragment i)

theorem Arrived.append {frames : List SentFrame} {past : List ViewerTurn} {e : EncodedFrame}
    (h : Arrived frames past e) (t : ViewerTurn) : Arrived frames (past ++ [t]) e := by
  obtain ⟨f, hf, heq, hcame⟩ := h
  refine ⟨f, hf, heq, fun i hi => ?_⟩
  obtain ⟨u, hu, hbrings⟩ := hcame i hi
  exact ⟨u, List.mem_append_left _ hu, hbrings⟩

namespace JitterBuffer

variable {J : Type}

/-- Only the new frame comes into the queue. -/
theorem mem_queue_push (est : Estimator J) {b : JitterBuffer J} {frame : EncodedFrame} {nowMs : ℕ}
    {q : Queued} (hq : q ∈ (b.push est frame nowMs).2.queue) :
    q.frame = frame ∨ ∃ q' ∈ b.queue, q'.frame = q.frame := by
  have hleft : q.frame ∈ (b.call est (.push frame nowMs)).queue.map Queued.frame :=
    List.mem_map_of_mem hq
  have hmem : q.frame ∈ b.accepted (.push frame nowMs) ++ b.queue.map Queued.frame :=
    (call_perm b (.push frame nowMs)).subset
      (List.mem_append_right _ (List.mem_append_right _ hleft))
  rcases List.mem_append.1 hmem with hnew | hold
  · rw [accepted] at hnew
    split at hnew
    · exact .inl (List.mem_singleton.1 hnew)
    · cases hnew
  · exact .inr (List.mem_map.1 hold)

/-- What a poll plays was in the queue, and so was what it leaves there. -/
theorem mem_queue_poll (est : Estimator J) {b : JitterBuffer J} {nowMs : ℕ} {e : EncodedFrame}
    (he : e ∈ (b.poll nowMs).1.frames ∨ ∃ q ∈ (b.poll nowMs).2.queue, q.frame = e) :
    ∃ q ∈ b.queue, q.frame = e := by
  have hperm : ((b.dropped est (.poll nowMs)).map Queued.frame ++ (b.played (.poll nowMs) ++
      (b.call est (.poll nowMs)).queue.map Queued.frame)).Perm
        (b.accepted (.poll nowMs) ++ b.queue.map Queued.frame) := call_perm b (.poll nowMs)
  rw [accepted, List.nil_append] at hperm
  refine List.mem_map.1 (hperm.subset (List.mem_append_right _ ?_))
  rcases he with hplayed | ⟨q, hq, rfl⟩
  · exact List.mem_append_left _ hplayed
  · exact List.mem_append_right _ (List.mem_map_of_mem hq)

end JitterBuffer

namespace ViewerStream

variable {J : Type} (est : Estimator J)

/-- The loop when it has reported, if that was due, and has taken what arrived. -/
def received (v : ViewerStream J) (t : ViewerTurn) : ViewerStream J :=
  let v := v.advance t
  (if v.ReportDue then v.sendReport else v).receive est t

/-- What the decoder is given in a turn. -/
def decodes (v : ViewerStream J) (t : ViewerTurn) : List EncodedFrame :=
  if v.running ∧ (v.received est t).running then
    ((v.received est t).jitter.poll (v.received est t).nowMs).1.frames
  else []

/-- What it is given in a run. -/
def decoded (v : ViewerStream J) : List ViewerTurn → List EncodedFrame
  | [] => []
  | t :: turns => v.decodes est t ++ decoded (v.turn est t) turns

theorem decoded_append (v : ViewerStream J) (turns more : List ViewerTurn) :
    v.decoded est (turns ++ more) =
      v.decoded est turns ++ (Machine.run (turn est) v turns).decoded est more := by
  induction turns generalizing v with
  | nil => rfl
  | cons t turns ih => rw [List.cons_append, decoded, decoded, ih, List.append_assoc]; rfl

/-- What the viewer holds: parts of frames that were sent, and in the queue whole ones. -/
structure Holds (frames : List SentFrame) (past : List ViewerTurn) (v : ViewerStream J) : Prop where
  parts : Sound frames (fun f i _ => ∃ t ∈ past, t.Brings (f.fragment i)) v.reassembler.partials
  queued : ∀ q ∈ v.jitter.queue, Arrived frames past q.frame

variable {frames : List SentFrame} {past : List ViewerTurn} {v v' : ViewerStream J}

theorem holds_start (frames : List SentFrame) : Holds frames [] (start est) where
  parts := Sound.empty frames _
  queued q hq := by cases hq

theorem Holds.append (h : Holds frames past v) (t : ViewerTurn) : Holds frames (past ++ [t]) v where
  parts := by
    refine h.parts.mono ?_
    rintro f i _ ⟨u, hu, hbrings⟩
    exact ⟨u, List.mem_append_left _ hu, hbrings⟩
  queued q hq := (h.queued q hq).append t

theorem Holds.alike (h : Holds frames past v) (hparts : v'.reassembler = v.reassembler)
    (hqueue : v'.jitter = v.jitter) : Holds frames past v' where
  parts := by rw [hparts]; exact h.parts
  queued := by rw [hqueue]; exact h.queued

theorem observe_alike (v : ViewerStream J) (frame : ControlFrame) :
    (v.observe frame).reassembler = v.reassembler ∧ (v.observe frame).jitter = v.jitter := by
  unfold observe
  split
  · exact ⟨rfl, rfl⟩
  · exact ⟨rfl, rfl⟩

variable {est}

/-- A message arrives on the video channel. -/
theorem holds_receiveVideo (hd : Distinguishable frames) (h : Holds frames past v) {t : ViewerTurn}
    {frame : ControlFrame} (hnext : t.next = .event (.frame .video frame))
    (hgenuine : Genuine frames frame.payload) :
    Holds frames (past ++ [t]) (v.receiveVideo est frame) := by
  have hmore := h.append t
  obtain ⟨-, hjitter⟩ := v.observe_alike frame
  cases hid : Reassembler.frameIdOf frame.payload with
  | none =>
      have hnone := Reassembler.accept_of_frameIdOf_eq_none hid v.reassembler v.nowMs
      rw [receiveVideo, hnone]
      exact hmore.alike rfl hjitter
  | some id =>
      obtain ⟨f, hf, i, hi, hpayload⟩ := hgenuine id hid
      have hbrings : ∃ u ∈ past ++ [t], u.Brings (f.fragment i) :=
        ⟨t, by simp, frame, hnext, hpayload.symm⟩
      obtain ⟨hsound, hwhole⟩ := Reassembler.accept_sound hd hmore.parts v.nowMs
        (fun _ _ _ hcame => hcame) hf hi hbrings fun _ _ _ _ => hbrings
      rw [hpayload] at hsound hwhole
      rw [receiveVideo]
      cases hout : (v.reassembler.accept frame.payload v.nowMs).1 with
      | none => exact ⟨hsound, by dsimp only; rw [hjitter]; exact hmore.queued⟩
      | some assembled =>
          obtain ⟨rfl, _, -, hcame⟩ := hwhole assembled hout
          refine ⟨hsound, fun q hq => ?_⟩
          rcases JitterBuffer.mem_queue_push est hq with hnew | ⟨q', hq', hold⟩
          · refine ⟨f, hf, ?_, hcame⟩
            rw [hnew]
          · rw [← hold]
            refine hmore.queued q' ?_
            rwa [← hjitter]

theorem holds_receive (hd : Distinguishable frames) (h : Holds frames past v) {t : ViewerTurn}
    (hgenuine : ∀ frame, t.next = .event (.frame .video frame) → Genuine frames frame.payload) :
    Holds frames (past ++ [t]) (v.receive est t) := by
  have hmore := h.append t
  rw [receive]
  split
  · next frame hnext => exact holds_receiveVideo hd h hnext (hgenuine frame hnext)
  · rw [receiveControl]
    split
    · exact hmore.alike rfl rfl
    · exact hmore
  · exact hmore.alike rfl rfl
  · exact hmore
  · exact hmore.alike rfl rfl
  · exact hmore

/-- The viewer, when it asks what is due. -/
theorem holds_received (est : Estimator J) (hd : Distinguishable frames) (h : Holds frames past v)
    {t : ViewerTurn}
    (hgenuine : ∀ frame, t.next = .event (.frame .video frame) → Genuine frames frame.payload) :
    Holds frames (past ++ [t]) (v.received est t) := by
  have hadvance : Holds frames past (v.advance t) := h.alike rfl rfl
  have hreport : Holds frames past (v.advance t).sendReport := h.alike rfl rfl
  rw [received]
  split
  · exact holds_receive hd hreport hgenuine
  · exact holds_receive hd hadvance hgenuine

theorem present_alike (v : ViewerStream J) (shown : List Bool) :
    (v.present shown).reassembler = v.reassembler ∧ (v.present shown).jitter = v.jitter := by
  induction shown generalizing v with
  | nil => exact ⟨rfl, rfl⟩
  | cons b shown ih =>
      rw [present]
      dsimp only
      split
      · exact ih _
      · exact ⟨rfl, rfl⟩

/-- A turn does nothing with the frames but take, poll and drop them. -/
theorem turn_eq (est : Estimator J) (v : ViewerStream J) (t : ViewerTurn) :
    v.running = false ∧ v.turn est t = v ∨
    v.running = true ∧ (v.received est t).running = false ∧ v.turn est t = v.received est t ∨
    v.running = true ∧ (v.received est t).running = true ∧
      (v.turn est t).reassembler = (v.received est t).reassembler ∧
      (v.turn est t).jitter = ((v.received est t).jitter.poll (v.received est t).nowMs).2 := by
  cases hrunning : v.running with
  | false =>
      refine .inl ⟨rfl, ?_⟩
      rw [turn, hrunning]
      rfl
  | true =>
      have hturn : v.turn est t = if (v.received est t).running then
          (v.received est t).playout t.decoder else v.received est t := by
        rw [turn, hrunning]
        rfl
      cases hreceived : (v.received est t).running with
      | false =>
          refine .inr (.inl ⟨rfl, rfl, ?_⟩)
          rw [hturn, hreceived]
          rfl
      | true =>
          refine .inr (.inr ⟨rfl, rfl, ?_⟩)
          rw [hturn, hreceived, if_pos rfl]
          unfold playout
          dsimp only
          split
          · exact present_alike _ _
          · rw [requestKeyframe]
            split
            · exact ⟨rfl, rfl⟩
            · exact ⟨rfl, rfl⟩
          · exact ⟨rfl, rfl⟩

/-- **One turn of the viewer's loop.** -/
theorem holds_turn (hd : Distinguishable frames) (h : Holds frames past v) {t : ViewerTurn}
    (hgenuine : ∀ frame, t.next = .event (.frame .video frame) → Genuine frames frame.payload) :
    Holds frames (past ++ [t]) (v.turn est t) ∧
      ∀ e ∈ v.decodes est t, Arrived frames (past ++ [t]) e := by
  have hreceived := holds_received est hd h hgenuine
  constructor
  · rcases turn_eq est v t with ⟨-, heq⟩ | ⟨-, -, heq⟩ | ⟨-, -, hparts, hqueue⟩
    · rw [heq]
      exact h.append t
    · rw [heq]
      exact hreceived
    · refine ⟨by rw [hparts]; exact hreceived.parts, fun q hq => ?_⟩
      rw [hqueue] at hq
      obtain ⟨q', hq', heq⟩ := JitterBuffer.mem_queue_poll est (.inr ⟨q, hq, rfl⟩)
      rw [← heq]
      exact hreceived.queued q' hq'
  · intro e he
    rw [decodes] at he
    split at he
    · obtain ⟨q, hq, rfl⟩ := JitterBuffer.mem_queue_poll est (.inl he)
      exact hreceived.queued q hq
    · cases he

/-- And a run of it. -/
theorem holds_run (hd : Distinguishable frames) {turns : List ViewerTurn}
    (hgenuine : ∀ t ∈ turns, ∀ frame, t.next = .event (.frame .video frame) →
      Genuine frames frame.payload) :
    Holds frames turns (Machine.run (turn est) (start est) turns) ∧
      ∀ e ∈ (start est).decoded est turns, Arrived frames turns e := by
  induction turns using List.reverseRecOn with
  | nil => exact ⟨holds_start est frames, fun e he => by cases he⟩
  | append_singleton turns t ih =>
      obtain ⟨hholds, hdecoded⟩ := ih fun u hu => hgenuine u (List.mem_append_left _ hu)
      obtain ⟨hturn, hlast⟩ := holds_turn hd hholds (hgenuine t (by simp))
      rw [Machine.run_append, decoded_append]
      refine ⟨hturn, fun e he => ?_⟩
      rcases List.mem_append.1 he with he | he
      · exact (hdecoded e he).append t
      · rw [decoded, decoded, List.append_nil] at he
        exact hlast e he

end ViewerStream

/-! ### Host, channel and viewer -/

/-- **What the viewer decodes is what the host encoded.**  For every run of the host's loop in which
no more than `2 ^ 32` frames are encoded, and every run of the viewer's loop in which every message
that arrives on the video channel reads as one that the host sent, no matter in which order, how
often, how late or whether at all: each frame that the viewer's decoder is given is one that the
host's encoder made, with its bytes, its kind, its layer and its timestamp. -/
theorem decoded_was_encoded {J : Type} (est : Estimator J) (config : StreamConfig)
    (backend : Backend) (display : DisplayGeometry) {host : List Stream.Turn}
    (hmany : (host.flatMap Stream.Turn.frames).length ≤ 2 ^ 32) {viewer : List ViewerTurn}
    (hchannel : ∀ t ∈ viewer, ∀ frame, t.next = .event (.frame .video frame) →
      ∃ wire ∈ (Machine.run (Stream.step config) (Stream.start backend display) host).outbox,
        ControlFrame.decode wire.encode = .ok frame) :
    ∀ d ∈ (ViewerStream.start est).decoded est viewer, ∃ e ∈ host.flatMap Stream.Turn.frames,
      d.data = e.data ∧ d.kind = e.kind ∧ d.ptsUs = e.ptsUs ∧
        d.temporalLayer = e.temporalLayer := by
  obtain ⟨frames, hsends⟩ := Stream.sends_run config backend display host
  have hgenuine : ∀ t ∈ viewer, ∀ frame, t.next = .event (.frame .video frame) →
      Genuine frames frame.payload := by
    intro t ht frame hnext
    obtain ⟨wire, hwire, hdecode⟩ := hchannel t ht frame hnext
    have hread := hsends.readable wire hwire
    rw [hdecode] at hread
    cases hread
    exact hsends.genuine _ hwire
  intro d hd
  obtain ⟨f, hf, heq, -⟩ :=
    (ViewerStream.holds_run (hsends.distinguishable hmany) hgenuine).2 d hd
  obtain ⟨e, he, hcarries⟩ := hsends.carries f hf
  refine ⟨e, he, ?_, ?_, ?_, ?_⟩
  · rw [heq]
    exact hcarries.data
  · rw [heq]
    change Partial.kindOf f.kind = e.kind
    rw [hcarries.kind, kindOf_code]
  · rw [heq]
    exact hcarries.ptsUs
  · rw [heq]
    exact hcarries.temporalLayer

/-- A small keyframe. -/
def Sample.coded : EncodedFrame := ⟨[1, 2, 3], .keyframe, 0, 0, 0, none, none⟩

/-- Its only fragment on the wire. -/
def Sample.codedWire : ControlFrame := .new (.videoFrame 0 0 1 1 0 0 [1, 2, 3]) 0 0

/-- The fragment arrives, and a fifth of a second later the frame is due. -/
def Sample.viewing : List ViewerTurn :=
  [⟨0, .event (.frame .video Sample.codedWire), 0, .pictures [true]⟩,
    ⟨200000, .timeout, 0, .pictures [true]⟩]

/-- One frame, from the encoder to the decoder. -/
theorem decoded_sample :
    ((ViewerStream.start jitterEstimator).decoded jitterEstimator Sample.viewing).length = 1 ∧
      ∀ d ∈ (ViewerStream.start jitterEstimator).decoded jitterEstimator Sample.viewing,
        ∃ e ∈ [{ Stream.Sample.turn [] with frames := [Sample.coded] }].flatMap Stream.Turn.frames,
          d.data = e.data ∧ d.kind = e.kind ∧ d.ptsUs = e.ptsUs ∧
            d.temporalLayer = e.temporalLayer := by
  refine ⟨rfl, ?_⟩
  refine decoded_was_encoded jitterEstimator ⟨Sample.grant true, fun _ => .sent⟩
    (.new fun _ => .ok ()) ⟨0, 0, 0, 1920, 1080⟩ (by decide) ?_
  intro t ht frame hnext
  refine ⟨Sample.codedWire, List.mem_singleton.2 rfl, ?_⟩
  rcases List.mem_cons.1 ht with rfl | ht
  · cases hnext
    rfl
  · rw [List.mem_singleton.1 ht] at hnext
    cases hnext

end Rda
