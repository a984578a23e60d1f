/-
**The host's streaming loop.**

A turn of the loop drains what arrived, hands the input frames to the injector, sends a ping when it
is due, and sends the frames the encoder produced.  The loop ends when the peer is gone, when a
message cannot be sent, or at the deadline of a demonstration; a turn in which the peer turns out to
be gone is still carried to its end.

What the world decides in a turn is part of the turn: the events, the clock, and the frames the
encoding pipeline produced.  The pipeline and the estimators behind it are surroundings of the loop;
of what the loop tells them the model keeps the counters and the round-trip samples.  The loop keeps
a log of the input frames it handed to the injector and of the frames it sent.

Main definitions:

* `Rda.Stream`, `Rda.Stream.Turn`, `Rda.Stream.step` — the loop;
* `Rda.Stream.heard` — the input frames that arrived, with the times.

Main results:

* `Rda.Stream.Kept.run` — **the rule for whole runs**: what input frames and sent messages keep;
* `Rda.Stream.injector_run` — the loop does nothing to the injector but hand it the input frames;
* `Rda.Stream.keys_up_iff` — **the keys at the end** of a run are up exactly when the peer's own
  input frames leave them up.
-/

import Rda.InjectorStrokes
import Rda.Signaling
import Rda.Video

set_option relaxedAutoImplicit false
set_option autoImplicit false

namespace Rda

/-- The answer of the transport to a message. -/
inductive SendAnswer
  | sent
  | failed (why : String)
  /-- The peer stopped reading, and the bounded wait ran out. -/
  | timedOut
  deriving DecidableEq

/-- What a session streams with: its grant, and the transport's answer to the `n`-th message. -/
structure StreamConfig where
  grant : SessionGrant
  link : ℕ → SendAnswer

/-- How long an unanswered ping is remembered, in milliseconds. -/
def PING_MEMORY_MS : ℕ := 10000

/-- The state of the loop. -/
structure Stream where
  injector : Injector
  sent : ℕ := 0
  bytes : ℕ := 0
  receivedInput : ℕ := 0
  reportsIn : ℕ := 0
  keyframeRequests : ℕ := 0
  pingToken : UInt32 := 0
  pingSent : Std.ExtTreeMap UInt32 ℕ := ∅
  rttSamples : List UInt32 := []
  seq : UInt16 := 0
  frameId : UInt32 := 0
  closed : Bool := false
  returned : Bool := false
  heard : List (ControlFrame × ℕ) := []
  outbox : List ControlFrame := []

namespace Stream

/-- What the world decides in one turn. -/
structure Turn where
  /-- The deadline, if there is one, has not passed. -/
  inTime : Bool
  nowMs : ℕ
  /-- What arrives before the drain finds nothing for a millisecond; `none` is the end of the
  events. -/
  events : List (Option TransportEvent)
  /-- A second has passed since the last ping. -/
  pollDue : Bool
  /-- What the pipeline made of the captured frame: nothing, if there was none or it was refused. -/
  frames : List EncodedFrame

/-- The loop before its first turn. -/
def start (backend : Backend) (display : DisplayGeometry) : Stream where
  injector := .new backend [display]

/-- An input frame. -/
def onInput (grant : SessionGrant) (frame : ControlFrame) (nowMs : ℕ) (s : Stream) : Stream :=
  { s with
    receivedInput := s.receivedInput + 1
    injector := s.injector.hear grant (frame, nowMs)
    heard := s.heard ++ [(frame, nowMs)] }

/-- A frame of the control channel: a request for a keyframe, or the answer to a ping. -/
def onControl (payload : Payload) (nowMs : ℕ) (s : Stream) : Stream :=
  match payload with
  | .requestKeyframe .. => { s with keyframeRequests := s.keyframeRequests + 1 }
  | .pong token hostDelayUs =>
      match s.pingSent[token]? with
      | some sent =>
          -- The viewer's own processing time is subtracted.
          let sample := nowMs - sent - hostDelayUs.toNat / 1000
          { s with
            pingSent := s.pingSent.erase token
            rttSamples := s.rttSamples ++ [UInt32.ofNat sample] }
      | none => s
  | _ => s

/-- A frame of the statistics channel. -/
def onStats (payload : Payload) (s : Stream) : Stream :=
  match payload with
  | .qosReport _ => { s with reportsIn := s.reportsIn + 1 }
  | _ => s

/-- Drains what arrived; the end of the session ends the drain too. -/
def drain (grant : SessionGrant) (nowMs : ℕ) (s : Stream) : List (Option TransportEvent) → Stream
  | [] => s
  | some (.frame .inputKeys frame) :: events =>
      drain grant nowMs (s.onInput grant frame nowMs) events
  | some (.frame .inputPointer frame) :: events =>
      drain grant nowMs (s.onInput grant frame nowMs) events
  | some (.frame .control frame) :: events =>
      drain grant nowMs (s.onControl frame.payload nowMs) events
  | some (.frame .stats frame) :: events => drain grant nowMs (s.onStats frame.payload) events
  | some .closed :: _ => { s with closed := true }
  | none :: _ => { s with closed := true }
  | some _ :: events => drain grant nowMs s events

/-- Sends a ping; what the transport answers is not looked at. -/
def ping (nowMs : ℕ) (s : Stream) : Stream :=
  let token := s.pingToken + 1
  { s with
    pingToken := token
    pingSent := (s.pingSent.insert token nowMs).filter fun _ sent => nowMs - sent < PING_MEMORY_MS
    seq := s.seq + 1
    outbox := s.outbox ++ [.new (.ping token) s.seq (.ofNat nowMs)] }

/-- Sends the fragments of a frame up to the first one that cannot be sent, and tells whether all of
them were. -/
def sendFragments (config : StreamConfig) (nowMs : ℕ) (s : Stream) : List Payload → Bool × Stream
  | [] => (true, s)
  | fragment :: fragments =>
      let wire := ControlFrame.new fragment s.seq (.ofNat nowMs)
      let s' :=
        { s with
          seq := s.seq + 1, bytes := s.bytes + wire.encode.length, outbox := s.outbox ++ [wire] }
      match config.link s.outbox.length with
      | .sent => sendFragments config nowMs s' fragments
      | _ => (false, { s' with closed := true })

/-- Sends one encoded frame, unless it is larger than the receiver would take. -/
def sendFrame (config : StreamConfig) (nowMs : ℕ) (s : Stream) (encoded : EncodedFrame) : Stream :=
  if MAX_VIDEO_FRAME < encoded.data.length then s
  else
    let fragments :=
      fragmentVideo s.frameId encoded.kind.code encoded.temporalLayer encoded.ptsUs encoded.data
    let (whole, s) := sendFragments config nowMs { s with frameId := s.frameId + 1 } fragments
    if whole then { s with sent := s.sent + 1 } else s

/-- One turn of the loop. -/
def step (config : StreamConfig) (s : Stream) (t : Turn) : Stream :=
  if s.returned then s
  else if s.closed || !t.inTime then { s with returned := true }
  else
    let s := s.drain config.grant t.nowMs t.events
    let s := if t.pollDue then s.ping t.nowMs else s
    t.frames.foldl (sendFrame config t.nowMs) s

/-! ### What the loop does -/

/-- A message of the loop: a ping or a fragment of a frame. -/
def IsMessage (payload : Payload) : Prop :=
  (∃ token, payload = .ping token) ∨
    ∃ frameId kind temporalLayer ptsUs data,
      payload ∈ fragmentVideo frameId kind temporalLayer ptsUs data

/-- Neither was the injector handed anything nor was anything sent. -/
structure Alike (s s' : Stream) : Prop where
  injector : s'.injector = s.injector
  heard : s'.heard = s.heard
  seq : s'.seq = s.seq
  outbox : s'.outbox = s.outbox

/-- A message was sent under the next number. -/
structure Sent (payload : Payload) (s s' : Stream) : Prop where
  injector : s'.injector = s.injector
  heard : s'.heard = s.heard
  seq : s'.seq = s.seq + 1
  outbox : ∃ timestampMs, s'.outbox = s.outbox ++ [.new payload s.seq timestampMs]

/-- Handing the injector an input frame and sending a message keep the property, and it speaks about
nothing else. -/
structure Kept (grant : SessionGrant) (I : Stream → Prop) : Prop where
  alike : ∀ {s s' : Stream}, I s → Alike s s' → I s'
  input : ∀ {s : Stream}, I s → ∀ (frame : ControlFrame) (nowMs : ℕ),
    I (s.onInput grant frame nowMs)
  send : ∀ {s s' : Stream} {payload : Payload}, I s → IsMessage payload → Sent payload s s' → I s'

namespace Kept

variable {config : StreamConfig} {grant : SessionGrant} {I : Stream → Prop} {s : Stream}

theorem onControl (hI : Kept grant I) (h : I s) (payload : Payload) (nowMs : ℕ) :
    I (s.onControl payload nowMs) := by
  cases payload with
  | pong token hostDelayUs =>
      rw [Stream.onControl]
      split
      · exact hI.alike h ⟨rfl, rfl, rfl, rfl⟩
      · exact h
  | requestKeyframe mode ltrIndex reason => exact hI.alike h ⟨rfl, rfl, rfl, rfl⟩
  | _ => exact h

theorem onStats (hI : Kept grant I) (h : I s) (payload : Payload) : I (s.onStats payload) := by
  cases payload with
  | qosReport report => exact hI.alike h ⟨rfl, rfl, rfl, rfl⟩
  | _ => exact h

theorem drain (hI : Kept grant I) (h : I s) (nowMs : ℕ) (events : List (Option TransportEvent)) :
    I (s.drain grant nowMs events) := by
  fun_induction Stream.drain grant nowMs s events with
  | case1 s => exact h
  | case2 s frame events ih => exact ih (hI.input h frame nowMs)
  | case3 s frame events ih => exact ih (hI.input h frame nowMs)
  | case4 s frame events ih => exact ih (hI.onControl h frame.payload nowMs)
  | case5 s frame events ih => exact ih (hI.onStats h frame.payload)
  | case6 s events => exact hI.alike h ⟨rfl, rfl, rfl, rfl⟩
  | case7 s events => exact hI.alike h ⟨rfl, rfl, rfl, rfl⟩
  | case8 s event events _ _ _ _ _ ih => exact ih h

theorem ping (hI : Kept grant I) (h : I s) (nowMs : ℕ) : I (s.ping nowMs) :=
  hI.send h (.inl ⟨_, rfl⟩) ⟨rfl, rfl, rfl, _, rfl⟩

theorem sendFragments (hI : Kept grant I) (config : StreamConfig) (nowMs : ℕ)
    {fragments : List Payload} (hmessages : ∀ fragment ∈ fragments, IsMessage fragment) (h : I s) :
    I (Stream.sendFragments config nowMs s fragments).2 := by
  induction fragments generalizing s with
  | nil => exact h
  | cons fragment fragments ih =>
      obtain ⟨hmessage, hrest⟩ := List.forall_mem_cons.1 hmessages
      rw [Stream.sendFragments]
      dsimp only
      split
      · exact ih hrest (hI.send h hmessage ⟨rfl, rfl, rfl, _, rfl⟩)
      · exact hI.send h hmessage ⟨rfl, rfl, rfl, _, rfl⟩

theorem sendFrame (hI : Kept grant I) (config : StreamConfig) (nowMs : ℕ) (encoded : EncodedFrame)
    (h : I s) : I (Stream.sendFrame config nowMs s encoded) := by
  have hnext : I { s with frameId := s.frameId + 1 } := hI.alike h ⟨rfl, rfl, rfl, rfl⟩
  have hmessages : ∀ fragment ∈ fragmentVideo s.frameId encoded.kind.code encoded.temporalLayer
      encoded.ptsUs encoded.data, IsMessage fragment :=
    fun fragment hmem => .inr ⟨_, _, _, _, _, hmem⟩
  have hsent := hI.sendFragments config nowMs hmessages hnext
  rw [Stream.sendFrame]
  split
  · exact h
  · dsimp only
    split
    · exact hI.alike hsent ⟨rfl, rfl, rfl, rfl⟩
    · exact hsent

/-- A turn of the loop does nothing else. -/
theorem step (hI : Kept config.grant I) (h : I s) (t : Turn) : I (s.step config t) := by
  rw [Stream.step]
  split
  · exact h
  · split
    · exact hI.alike h ⟨rfl, rfl, rfl, rfl⟩
    · refine Machine.run_invariant I
        (fun s encoded hs => hI.sendFrame config t.nowMs encoded hs) ?_ t.frames
      split
      · exact hI.ping (hI.drain h t.nowMs t.events) t.nowMs
      · exact hI.drain h t.nowMs t.events

/-- Neither does a run. -/
theorem run (hI : Kept config.grant I) {backend : Backend} {display : DisplayGeometry}
    (h : I (start backend display)) (turns : List Turn) :
    I (Machine.run (Stream.step config) (start backend display) turns) :=
  Machine.run_invariant I (fun _ t hs => hI.step hs t) h turns

end Kept

/-! ### The injector -/

/-- The injector has been handed the input frames, and nothing was done to it besides. -/
def Faithful (grant : SessionGrant) (injector : Injector) (s : Stream) : Prop :=
  s.injector = Machine.run (Injector.hear grant) injector s.heard

theorem faithful_kept (grant : SessionGrant) (injector : Injector) :
    Kept grant (Faithful grant injector) where
  alike := by
    intro s s' h hs
    rw [Faithful, hs.injector, hs.heard]
    exact h
  input := by
    intro s h frame nowMs
    rw [Faithful, onInput, Machine.run_append, ← h]
    rfl
  send := by
    intro s s' payload h _ hs
    rw [Faithful, hs.injector, hs.heard]
    exact h

/-- The loop does nothing to the injector but hand it the input frames. -/
theorem injector_run (config : StreamConfig) (backend : Backend) (display : DisplayGeometry)
    (turns : List Turn) :
    (Machine.run (step config) (start backend display) turns).injector
      = Machine.run (Injector.hear config.grant) (.new backend [display])
          (Machine.run (step config) (start backend display) turns).heard :=
  (faithful_kept config.grant _).run
    (show (start backend display).injector = Machine.run _ _ _ from rfl) turns

/-- **The keys at the end.**  Whatever the grant, the transport, the backend and the turns: at any
point of the run, and so when the loop has returned, every key is up at the machine exactly when
each input frame that pressed a key is followed by one that releases it.  The loop releases nothing
on its way out. -/
theorem keys_up_iff (config : StreamConfig) (answers : ℕ → Except BackendError Unit)
    (display : DisplayGeometry) (turns : List Turn) :
    (∀ usage, (Machine.run (step config) (start (.new answers) display) turns).injector.down
        (.key usage) = false) ↔
      ∀ usage, Machine.Undone (Injector.hear config.grant)
        (fun inj f => inj.Strikes config.grant usage true f)
        (fun inj f => inj.Strikes config.grant usage false f) (.new (.new answers) [display])
        (Machine.run (step config) (start (.new answers) display) turns).heard := by
  refine forall_congr' fun usage => ?_
  rw [injector_run]
  exact Injector.up_run_iff_undone rfl _

/-- A turn in which the given events arrive and nothing is sent. -/
def Sample.turn (events : List (Option TransportEvent)) : Turn where
  inTime := true
  nowMs := 0
  events := events
  pollDue := false
  frames := []

/-- The peer presses the left Ctrl key and disconnects: the loop returns with the key down. -/
theorem ctrl_down_at_return :
    (Machine.run (step ⟨Sample.grant true, fun _ => .sent⟩)
      (start (.new fun _ => .ok ()) ⟨0, 0, 0, 1920, 1080⟩)
      [Sample.turn [some (.frame .inputKeys
        (.new (.keyEvent USAGE_PAGE_KEYBOARD 0xE0 .down 0 0x01) 0 0))],
        Sample.turn [some .closed], Sample.turn []]).returned = true ∧
    (Machine.run (step ⟨Sample.grant true, fun _ => .sent⟩)
      (start (.new fun _ => .ok ()) ⟨0, 0, 0, 1920, 1080⟩)
      [Sample.turn [some (.frame .inputKeys
        (.new (.keyEvent USAGE_PAGE_KEYBOARD 0xE0 .down 0 0x01) 0 0))],
        Sample.turn [some .closed], Sample.turn []]).injector.down (.key 0xE0) = true := by
  decide

end Stream

end Rda
