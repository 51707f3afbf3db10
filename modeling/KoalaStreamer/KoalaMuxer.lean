import KoalaStreamer.Library.EventMachine
import KoalaStreamer.Library.NearestRounding
import KoalaStreamer.MediaFrame
import Mathlib.Logic.Function.Basic

/-!
# KoalaPlayer/src/koala_muxer.c: write_frame and mux_thread

`muxStep` is one evaluation of the loop condition of `mux_thread`, together with
the pass that follows it.  What the callbacks, `av_interleaved_write_frame` and
the field `end` answer during the pass is the action of the step.

FFmpeg is not part of the repository: `av_compare_ts` and `av_rescale` are
parameters.  Timestamps are integers that do not overflow.
-/

namespace KoalaStreamer

open EventMachine

/-- `AVRational`. -/
structure AVRational where
  num : Int
  den : Int
deriving DecidableEq, Repr

/-- `stream_type`. -/
inductive StreamType
  | video
  | audio
deriving DecidableEq, Repr

/-- The functions of FFmpeg that the loop computes with. -/
structure LibAv where
  /-- `av_compare_ts`. -/
  compareTs : Int → AVRational → Int → AVRational → Int
  /-- `av_rescale`. -/
  rescale : Int → Int → Int → Int

/-- The two functions without overflow, as FFmpeg documents them. -/
def exactLibAv : LibAv where
  compareTs := fun a tbA b tbB =>
    (a * tbA.num * tbB.den - b * tbB.num * tbA.den).sign
  rescale := fun a b c => NearestRounding.roundDiv (a * b) c

/-- `AVPacket`, the fields that `write_frame` sets. -/
structure AVPacket where
  data : ℕ
  size : Int
  pts : Int
  dts : Int
  streamIndex : Int
  flags : Int
deriving DecidableEq, Repr

/-- The handle; of the callbacks and the listener, whether they are set. -/
structure KoalaMuxer where
  acb : Bool
  vcb : Bool
  videStream : Int
  audioStream : Int
  lastAudioPts : Int
  lastVideoPts : Int
  firstPts : Int
  reqIFrame : Int
  conAbase : AVRational
  conVbase : AVRational
  listener : Bool
deriving DecidableEq, Repr

/-- `koala_get_muxer_handle`: zeroed, with `first_pts = -1`. -/
def koalaGetMuxerHandle : KoalaMuxer where
  acb := false
  vcb := false
  videStream := 0
  audioStream := 0
  lastAudioPts := 0
  lastVideoPts := 0
  firstPts := -1
  reqIFrame := 0
  conAbase := ⟨0, 0⟩
  conVbase := ⟨0, 0⟩
  listener := false

/-- `koala_muxer_reg_data_callback`. -/
def koalaMuxerRegDataCallback
    (pHandle : KoalaMuxer) (acb vcb : Bool) : KoalaMuxer :=
  { pHandle with acb := acb, vcb := vcb }

/-- `koala_muxer_set_listener`. -/
def koalaMuxerSetListener
    (pHandle : KoalaMuxer) (listener : Bool) : KoalaMuxer :=
  { pHandle with listener := listener }

/-- `!strncmp(fmt->name, "flv", 3)`. -/
def isFlv (fmtName : String) : Bool :=
  fmtName.toList.take 3 = ['f', 'l', 'v']

/-- The audio part of `koala_muxer_init_open`. -/
def initOpenAudio
    (pHandle : KoalaMuxer) (fmtName : String) (index samplerate : Int) :
    KoalaMuxer :=
  if pHandle.acb then
    { pHandle with
      audioStream := index
      conAbase := if isFlv fmtName then ⟨1, 1000⟩ else ⟨samplerate, 1000000⟩ }
  else
    pHandle

/-- The video part of `koala_muxer_init_open`. -/
def initOpenVideo
    (pHandle : KoalaMuxer) (fmtName : String) (index : Int) : KoalaMuxer :=
  if pHandle.vcb then
    { pHandle with
      videStream := index
      conVbase := if isFlv fmtName then ⟨1, 1000⟩ else ⟨1, 1⟩ }
  else
    pHandle

/-- A fresh handle with callbacks and listener, after `koala_muxer_init_open`. -/
def openedMuxer
    (acb vcb listener : Bool) (fmtName : String)
    (audioIndex videoIndex samplerate : Int) : KoalaMuxer :=
  initOpenVideo
    (initOpenAudio
      (koalaMuxerSetListener
        (koalaMuxerRegDataCallback koalaGetMuxerHandle acb vcb) listener)
      fmtName audioIndex samplerate)
    fmtName videoIndex

/-- `have_video` and `have_audio`. -/
def KoalaMuxer.haveStream (pHandle : KoalaMuxer) : StreamType → Bool
  | .video => pHandle.vcb
  | .audio => pHandle.acb

/-- `vide_stream` and `audio_stream`. -/
def KoalaMuxer.streamIndex (pHandle : KoalaMuxer) : StreamType → Int
  | .video => pHandle.videStream
  | .audio => pHandle.audioStream

/-- What a data callback returns for `callback_cmd_get_frame`. -/
structure CallbackResult where
  ret : Int
  frame : MediaFrame
deriving DecidableEq, Repr

/-- What the loop does that can be observed. -/
inductive MuxEvent
  /-- The callback of the stream was called for the `call`-th time. -/
  | asked (stream : StreamType) (call : ℕ) (ret : Int)
  /-- `av_interleaved_write_frame` was given `pkt`, made of the frame `frame`,
  which was `source` when the callback delivered it, and returned `ret`. -/
  | submitted (stream : StreamType) (call : ℕ)
      (source frame : MediaFrame) (pkt : AVPacket) (ret : Int)
  /-- The listener was called. -/
  | notified (event : Int)
  /-- `mediaFrameRelease` of the frame of that call. -/
  | released (stream : StreamType) (call : ℕ)
  /-- `av_write_trailer`. -/
  | trailer
deriving DecidableEq, Repr

section WriteFrame

/-- `sendEvent`. -/
def sendEvent (pHandle : KoalaMuxer) (event : Int) : List MuxEvent :=
  if pHandle.listener then [.notified event] else []

/-- How the part of `write_frame` that waits for a key frame ends. -/
inductive GateExit
  | pass (pHandle : KoalaMuxer)
  | drop (pHandle : KoalaMuxer)

/-- `write_frame`: the frames that `req_i_frame` keeps out. -/
def reqIFrameGate
    (pHandle : KoalaMuxer) (stream : StreamType) (frame : MediaFrame) :
    GateExit :=
  if pHandle.reqIFrame ≠ 0 then
    if stream = .video ∧ frame.flag ≠ 0 then
      .pass { pHandle with reqIFrame := 0, lastVideoPts := 0, lastAudioPts := 0 }
    else
      match stream with
      | .video => .drop { pHandle with lastVideoPts := frame.dts }
      | .audio => .drop { pHandle with lastAudioPts := frame.dts }
  else
    .pass pHandle

/-- `write_frame`: the first dts becomes the origin. -/
def latchFirstPts (pHandle : KoalaMuxer) (frame : MediaFrame) : KoalaMuxer :=
  if pHandle.firstPts < 0 then
    { pHandle with firstPts := frame.dts }
  else
    pHandle

/-- `write_frame`: the timestamps relative to the origin. -/
def rebase (pHandle : KoalaMuxer) (frame : MediaFrame) : MediaFrame :=
  if pHandle.firstPts > 0 then
    { frame with
      dts := frame.dts - pHandle.firstPts
      pts := frame.pts - pHandle.firstPts }
  else
    frame

/-- `write_frame`: the packet made of a rebased frame. -/
def fillPacket
    (lib : LibAv) (pHandle : KoalaMuxer) (stream : StreamType)
    (frame : MediaFrame) : AVPacket :=
  match stream with
  | .audio =>
      { data := frame.pBuffer
        size := frame.size
        pts := lib.rescale frame.pts pHandle.conAbase.num pHandle.conAbase.den
        dts := lib.rescale frame.pts pHandle.conAbase.num pHandle.conAbase.den
        streamIndex := pHandle.streamIndex stream
        flags := frame.flag }
  | .video =>
      { data := frame.pBuffer
        size := frame.size
        pts := lib.rescale frame.pts pHandle.conVbase.num pHandle.conVbase.den
        dts := lib.rescale frame.dts pHandle.conVbase.num pHandle.conVbase.den
        streamIndex := pHandle.streamIndex stream
        flags := frame.flag }

/-- `write_frame`: `last_video_pts` or `last_audio_pts` is set. -/
def setLastPts
    (pHandle : KoalaMuxer) (stream : StreamType) (pts : Int) : KoalaMuxer :=
  match stream with
  | .video => { pHandle with lastVideoPts := pts }
  | .audio => { pHandle with lastAudioPts := pts }

/-- The results of a write that the listener is told. -/
def Announced (ret : Int) : Prop :=
  -ETIMEDOUT = ret ∨ -EPIPE = ret ∨ -ENOTRECOVERABLE = ret

instance (ret : Int) : Decidable (Announced ret) := by
  unfold Announced
  infer_instance

/-- `write_frame`: the listener is told some of the results. -/
def announce (pHandle : KoalaMuxer) (ret : Int) : List MuxEvent :=
  if Announced ret then sendEvent pHandle ret else []

/-- How `write_frame` ends. -/
structure WriteFrameExit where
  ret : Int
  pHandle : KoalaMuxer
  events : List MuxEvent

/-- `write_frame` from the point where the frame is let through; `written` is
what `av_interleaved_write_frame` returns. -/
def writeSubmit
    (lib : LibAv) (pHandle : KoalaMuxer) (stream : StreamType) (call : ℕ)
    (frame : MediaFrame) (written : Int) : WriteFrameExit :=
  let latched := latchFirstPts pHandle frame
  let rebased := rebase latched frame
  let pkt := fillPacket lib latched stream rebased
  { ret := written
    pHandle := setLastPts latched stream rebased.pts
    events :=
      .submitted stream call frame rebased pkt written ::
        (announce latched written ++ [.released stream call]) }

/-- `write_frame` after the callback delivered `frame`. -/
def writeObtained
    (lib : LibAv) (pHandle : KoalaMuxer) (stream : StreamType) (call : ℕ)
    (frame : MediaFrame) (written : Int) : WriteFrameExit :=
  match reqIFrameGate pHandle stream frame with
  | .drop h => { ret := 0, pHandle := h, events := [.released stream call] }
  | .pass h => writeSubmit lib h stream call frame written

/-- `write_frame`.  Without a callback `get_video_frame` and `get_audio_frame`
return -1 and nobody is asked. -/
def writeFrame
    (lib : LibAv) (pHandle : KoalaMuxer) (stream : StreamType) (call : ℕ)
    (answer : CallbackResult) (written : Int) : WriteFrameExit :=
  if pHandle.haveStream stream then
    if answer.ret < 0 then
      { ret := 1, pHandle := pHandle, events := [.asked stream call answer.ret] }
    else
      let w := writeObtained lib pHandle stream call answer.frame written
      { w with events := .asked stream call answer.ret :: w.events }
  else
    { ret := 1, pHandle := pHandle, events := [] }

end WriteFrame

/-! ## mux_thread -/

/-- `AV_TIME_BASE_Q`, the time base of the comparison. -/
def muxTimeBase : AVRational := ⟨1, 1000000⟩

/-- The loop of `mux_thread`: its locals, and counters of the calls made. -/
structure MuxState where
  pHandle : KoalaMuxer
  /-- `encode_video` and `encode_audio`. -/
  encode : StreamType → Bool
  /-- How often the callback of a stream was called. -/
  calls : StreamType → ℕ
  /-- How often `av_interleaved_write_frame` was called. -/
  writes : ℕ
  /-- The trailer is written and the thread has returned. -/
  finished : Bool

/-- What the environment answers during one pass of the loop. -/
structure MuxAnswers where
  callback : StreamType → CallbackResult
  /-- The result of `av_interleaved_write_frame`. -/
  written : Int
  /-- `pHandle->end` at the end of the pass. -/
  ended : Bool

/-- `mux_thread` before its loop. -/
def MuxState.start (pHandle : KoalaMuxer) : MuxState where
  pHandle := pHandle
  encode := pHandle.haveStream
  calls := fun _ => 0
  writes := 0
  finished := false

/-- The stream to encode next; `none` when the loop condition fails. -/
def selectStream
    (lib : LibAv) (pHandle : KoalaMuxer) (encode : StreamType → Bool) :
    Option StreamType :=
  if encode .video || encode .audio then
    if encode .video && (!encode .audio ||
        lib.compareTs pHandle.lastVideoPts muxTimeBase
          pHandle.lastAudioPts muxTimeBase ≤ 0) then
      some .video
    else
      some .audio
  else
    none

/-- Whether a pass called the callback, as a number of calls. -/
def askedCount (es : List MuxEvent) : ℕ :=
  es.countP fun
    | .asked _ _ _ => true
    | _ => false

/-- How many packets a pass submitted. -/
def submittedCount (es : List MuxEvent) : ℕ :=
  es.countP fun
    | .submitted _ _ _ _ _ _ => true
    | _ => false

/-- `encode_video = !write_frame(..)`, or the same for audio. -/
def MuxState.serve
    (s : MuxState) (stream : StreamType) (w : WriteFrameExit) : MuxState :=
  { s with
    pHandle := w.pHandle
    encode := Function.update s.encode stream (w.ret = 0)
    calls := Function.update s.calls stream (s.calls stream + askedCount w.events)
    writes := s.writes + submittedCount w.events }

/-- One evaluation of the loop condition of `mux_thread` and the pass after it. -/
def muxStep (lib : LibAv) : Machine MuxState MuxAnswers MuxEvent :=
  fun s a =>
    if s.finished then none
    else
      match selectStream lib s.pHandle s.encode with
      | none => some ({ s with finished := true }, [.trailer])
      | some stream =>
          let w := writeFrame lib s.pHandle stream (s.calls stream)
            (a.callback stream) a.written
          if a.ended then
            some ({ s.serve stream w with finished := true },
              w.events ++ [.trailer])
          else
            some (s.serve stream w, w.events)

/-- A step of the loop in a run. -/
abbrev MuxTransition := Transition MuxState MuxAnswers MuxEvent

/-- A frame with timestamps, as an encoder hands it on. -/
def timedFrame (pts dts flag : Int) : MediaFrame :=
  { mediaFrameSetRelease mediaFrameCreate .releasePktBuffer 1 with
    pBuffer := 1, size := 100, pts := pts, dts := dts, flag := flag }

/-- Answers of one pass: both callbacks would deliver the frame. -/
def passAnswers (frame : MediaFrame) (written : Int) (ended : Bool) :
    MuxAnswers where
  callback := fun _ => ⟨0, frame⟩
  written := written
  ended := ended

/-! ### Observations -/

/-- One call of `av_interleaved_write_frame`. -/
structure Submission where
  stream : StreamType
  /-- The frame as the callback delivered it. -/
  source : MediaFrame
  /-- The frame after rebasing. -/
  frame : MediaFrame
  pkt : AVPacket
  ret : Int
deriving DecidableEq, Repr

/-- The call as an event of the pass that obtained the frame. -/
def Submission.event (x : Submission) (call : ℕ) : MuxEvent :=
  .submitted x.stream call x.source x.frame x.pkt x.ret

/-- The calls of `av_interleaved_write_frame`, in order. -/
def submissions (es : List MuxEvent) : List Submission :=
  es.filterMap fun
    | .submitted stream _ source frame pkt ret =>
        some ⟨stream, source, frame, pkt, ret⟩
    | _ => none

/-- The calls for one stream, in order. -/
def submissionsOf (stream : StreamType) (es : List MuxEvent) : List Submission :=
  (submissions es).filter (·.stream = stream)

@[simp] theorem submissions_nil : submissions [] = [] := by
  rfl

@[simp] theorem submissions_append
    (es es' : List MuxEvent) :
    submissions (es ++ es') = submissions es ++ submissions es' := by
  simp [submissions]

@[simp] theorem submissionsOf_append
    (stream : StreamType) (es es' : List MuxEvent) :
    submissionsOf stream (es ++ es') =
      submissionsOf stream es ++ submissionsOf stream es' := by
  simp [submissionsOf]

@[simp] theorem submissions_event
    (x : Submission) (call : ℕ) (es : List MuxEvent) :
    submissions (x.event call :: es) = x :: submissions es := by
  rfl

@[simp] theorem submissions_asked
    (stream : StreamType) (call : ℕ) (ret : Int) (es : List MuxEvent) :
    submissions (.asked stream call ret :: es) = submissions es := by
  rfl

@[simp] theorem submissions_released
    (stream : StreamType) (call : ℕ) (es : List MuxEvent) :
    submissions (.released stream call :: es) = submissions es := by
  rfl

@[simp] theorem submissions_trailer
    (es : List MuxEvent) :
    submissions (.trailer :: es) = submissions es := by
  rfl

theorem mem_submissionsOf
    {stream : StreamType} {es : List MuxEvent} {x : Submission} :
    x ∈ submissionsOf stream es ↔ x ∈ submissions es ∧ x.stream = stream := by
  simp [submissionsOf]

/-! ### What write_frame can do -/

/-- The part of a handle that a run of the loop does not change. -/
def KoalaMuxer.setup (pHandle : KoalaMuxer) : KoalaMuxer :=
  { pHandle with
    lastAudioPts := 0
    lastVideoPts := 0
    firstPts := 0
    reqIFrame := 0 }

theorem setup_eq_iff
    {h h' : KoalaMuxer} :
    h'.setup = h.setup ↔
      h'.acb = h.acb ∧ h'.vcb = h.vcb ∧ h'.videStream = h.videStream ∧
      h'.audioStream = h.audioStream ∧ h'.conAbase = h.conAbase ∧
      h'.conVbase = h.conVbase ∧ h'.listener = h.listener := by
  simp [KoalaMuxer.setup]

theorem haveStream_of_setup
    {h h' : KoalaMuxer} (heq : h'.setup = h.setup) :
    h'.haveStream = h.haveStream := by
  obtain ⟨hacb, hvcb, _⟩ := setup_eq_iff.mp heq
  funext stream
  cases stream with
  | video =>
      exact hvcb
  | audio =>
      exact hacb

theorem listener_of_setup
    {h h' : KoalaMuxer} (heq : h'.setup = h.setup) :
    h'.listener = h.listener := by
  obtain ⟨_, _, _, _, _, _, hlistener⟩ := setup_eq_iff.mp heq
  exact hlistener

@[simp] theorem latchFirstPts_setup
    (h : KoalaMuxer) (frame : MediaFrame) :
    (latchFirstPts h frame).setup = h.setup := by
  simp only [latchFirstPts]
  split <;> rfl

@[simp] theorem latchFirstPts_reqIFrame
    (h : KoalaMuxer) (frame : MediaFrame) :
    (latchFirstPts h frame).reqIFrame = h.reqIFrame := by
  simp only [latchFirstPts]
  split <;> rfl

@[simp] theorem setLastPts_setup
    (h : KoalaMuxer) (stream : StreamType) (pts : Int) :
    (setLastPts h stream pts).setup = h.setup := by
  cases stream <;> rfl

@[simp] theorem setLastPts_reqIFrame
    (h : KoalaMuxer) (stream : StreamType) (pts : Int) :
    (setLastPts h stream pts).reqIFrame = h.reqIFrame := by
  cases stream <;> rfl

@[simp] theorem setLastPts_firstPts
    (h : KoalaMuxer) (stream : StreamType) (pts : Int) :
    (setLastPts h stream pts).firstPts = h.firstPts := by
  cases stream <;> rfl

/-- Packets depend only on the set-up of the handle. -/
theorem fillPacket_of_setup
    {lib : LibAv} {h h' : KoalaMuxer} (heq : h'.setup = h.setup)
    (stream : StreamType) (frame : MediaFrame) :
    fillPacket lib h' stream frame = fillPacket lib h stream frame := by
  obtain ⟨_, _, hvi, hai, hA, hV, _⟩ := setup_eq_iff.mp heq
  cases stream <;> simp [fillPacket, KoalaMuxer.streamIndex, hA, hV, hai, hvi]

/-- All that a pass announces is the result of the write, to a listener. -/
theorem mem_announce
    {h : KoalaMuxer} {ret : Int} {e : MuxEvent} :
    e ∈ announce h ret ↔
      e = .notified ret ∧ Announced ret ∧ h.listener = true := by
  simp only [announce, sendEvent]
  by_cases hann : Announced ret
  · cases hl : h.listener <;> simp [hann]
  · simp [hann]

theorem announce_of_setup
    {h h' : KoalaMuxer} (heq : h'.setup = h.setup) (ret : Int) :
    announce h' ret = announce h ret := by
  simp [announce, sendEvent, listener_of_setup heq]

theorem announce_eq
    (h : KoalaMuxer) (ret : Int) :
    announce h ret = [] ∨ announce h ret = [.notified ret] := by
  simp only [announce, sendEvent]
  split
  · split
    · exact Or.inr rfl
    · exact Or.inl rfl
  · exact Or.inl rfl

@[simp] theorem submissions_announce
    (h : KoalaMuxer) (ret : Int) :
    submissions (announce h ret) = [] := by
  rcases announce_eq h ret with hann | hann <;> rw [hann] <;> rfl

/-- The call of `av_interleaved_write_frame` that is made for a frame. -/
def submissionOf
    (lib : LibAv) (h : KoalaMuxer) (stream : StreamType) (source : MediaFrame)
    (written : Int) : Submission where
  stream := stream
  source := source
  frame := rebase (latchFirstPts h source) source
  pkt := fillPacket lib h stream (rebase (latchFirstPts h source) source)
  ret := written

/-- A frame that is let through is submitted once and released once. -/
theorem writeSubmit_events
    (lib : LibAv) (h : KoalaMuxer) (stream : StreamType) (call : ℕ)
    (frame : MediaFrame) (written : Int) :
    (writeSubmit lib h stream call frame written).events =
      (submissionOf lib h stream frame written).event call ::
        (announce h written ++ [.released stream call]) := by
  have hsetup := latchFirstPts_setup h frame
  simp [writeSubmit, submissionOf, Submission.event,
    fillPacket_of_setup hsetup, announce_of_setup hsetup]

/-- Without a request for a key frame every frame passes. -/
theorem reqIFrameGate_of_zero
    {h : KoalaMuxer} (hreq : h.reqIFrame = 0)
    (stream : StreamType) (frame : MediaFrame) :
    reqIFrameGate h stream frame = .pass h := by
  simp [reqIFrameGate, hreq]

/-- The handle a gate leaves. -/
def GateExit.pHandle : GateExit → KoalaMuxer
  | .pass h => h
  | .drop h => h

@[simp] theorem reqIFrameGate_setup
    (h : KoalaMuxer) (stream : StreamType) (frame : MediaFrame) :
    (reqIFrameGate h stream frame).pHandle.setup = h.setup := by
  simp only [reqIFrameGate]
  split
  · split
    · rfl
    · cases stream <;> rfl
  · rfl

theorem setup_of_gate_pass
    {h h' : KoalaMuxer} {stream : StreamType} {frame : MediaFrame}
    (hgate : reqIFrameGate h stream frame = .pass h') :
    h'.setup = h.setup := by
  have hset := reqIFrameGate_setup h stream frame
  rw [hgate] at hset
  exact hset

/-- The ways `write_frame` can end. -/
inductive WriteMove
    (lib : LibAv) (h : KoalaMuxer) (stream : StreamType) (call : ℕ)
    (answer : CallbackResult) (written : Int) : WriteFrameExit → Prop
  | noCallback
      (hnone : h.haveStream stream = false) :
      WriteMove lib h stream call answer written
        { ret := 1, pHandle := h, events := [] }
  | sourceEnd
      (hhave : h.haveStream stream = true)
      (hret : answer.ret < 0) :
      WriteMove lib h stream call answer written
        { ret := 1, pHandle := h, events := [.asked stream call answer.ret] }
  | dropped (h' : KoalaMuxer)
      (hhave : h.haveStream stream = true)
      (hret : 0 ≤ answer.ret)
      (hgate : reqIFrameGate h stream answer.frame = .drop h') :
      WriteMove lib h stream call answer written
        { ret := 0
          pHandle := h'
          events := [.asked stream call answer.ret, .released stream call] }
  | wrote (h' : KoalaMuxer)
      (hhave : h.haveStream stream = true)
      (hret : 0 ≤ answer.ret)
      (hgate : reqIFrameGate h stream answer.frame = .pass h') :
      WriteMove lib h stream call answer written
        { ret := written
          pHandle := (writeSubmit lib h' stream call answer.frame written).pHandle
          events := .asked stream call answer.ret ::
            (submissionOf lib h' stream answer.frame written).event call ::
              (announce h' written ++ [.released stream call]) }

/-- Inversion of `write_frame`. -/
theorem writeFrame_move
    (lib : LibAv) (h : KoalaMuxer) (stream : StreamType) (call : ℕ)
    (answer : CallbackResult) (written : Int) :
    WriteMove lib h stream call answer written
      (writeFrame lib h stream call answer written) := by
  simp only [writeFrame]
  cases hhave : h.haveStream stream with
  | false =>
      exact .noCallback hhave
  | true =>
      rcases Int.lt_or_le answer.ret 0 with hret | hret
      · simp only [if_true, if_pos hret]
        exact .sourceEnd hhave hret
      · simp only [if_true, if_neg (Int.not_lt.mpr hret), writeObtained]
        cases hgate : reqIFrameGate h stream answer.frame with
        | drop h' =>
            exact .dropped h' hhave hret hgate
        | pass h' =>
            simp only [writeSubmit_events]
            exact .wrote h' hhave hret hgate

section WriteMove

variable {lib : LibAv} {h : KoalaMuxer} {stream : StreamType} {call : ℕ}
  {answer : CallbackResult} {written : Int} {w : WriteFrameExit}

/-- `write_frame` leaves the set-up alone. -/
theorem WriteMove.setup
    (hw : WriteMove lib h stream call answer written w) :
    w.pHandle.setup = h.setup := by
  cases hw with
  | noCallback hnone =>
      rfl
  | sourceEnd hhave hret =>
      rfl
  | dropped h' hhave hret hgate =>
      have hset := reqIFrameGate_setup h stream answer.frame
      rw [hgate] at hset
      exact hset
  | wrote h' hhave hret hgate =>
      simpa [writeSubmit] using setup_of_gate_pass hgate

/-- A handle that asks for no key frame never begins to. -/
theorem WriteMove.reqIFrame
    (hw : WriteMove lib h stream call answer written w)
    (hreq : h.reqIFrame = 0) :
    w.pHandle.reqIFrame = 0 := by
  have hpass := reqIFrameGate_of_zero hreq stream answer.frame
  cases hw with
  | noCallback hnone =>
      exact hreq
  | sourceEnd hhave hret =>
      exact hreq
  | dropped h' hhave hret hgate =>
      rw [hpass] at hgate
      cases hgate
  | wrote h' hhave hret hgate =>
      rw [hpass] at hgate
      cases hgate
      simpa [writeSubmit] using hreq

end WriteMove

/-! ### What a step of the loop can do -/

/-- The stream selected is still being encoded. -/
theorem selectStream_some
    {lib : LibAv} {h : KoalaMuxer} {encode : StreamType → Bool}
    {stream : StreamType}
    (hsel : selectStream lib h encode = some stream) :
    encode stream = true := by
  simp only [selectStream] at hsel
  split at hsel
  · rename_i hor
    split at hsel
    · rename_i hand
      cases hsel
      simp only [Bool.and_eq_true] at hand
      exact hand.1
    · -- the else branch: were audio finished, video would have been chosen
      rename_i hand
      cases hsel
      cases haudio : encode .audio with
      | true =>
          rfl
      | false =>
          simp_all
  · cases hsel

/-- Nothing is selected when both streams are done. -/
theorem selectStream_none
    {lib : LibAv} {h : KoalaMuxer} {encode : StreamType → Bool}
    (hsel : selectStream lib h encode = none) :
    ∀ stream, encode stream = false := by
  simp only [selectStream] at hsel
  split at hsel
  · split at hsel <;> cases hsel
  · rename_i hor
    intro stream
    cases stream <;> simp_all

/-- What a pass adds to the events of `write_frame` when it ends the loop. -/
def passEnd (ended : Bool) : List MuxEvent :=
  if ended then [.trailer] else []

theorem mem_passEnd
    {ended : Bool} {e : MuxEvent} :
    e ∈ passEnd ended ↔ ended = true ∧ e = .trailer := by
  cases ended <;> simp [passEnd]

@[simp] theorem submissions_passEnd
    (ended : Bool) :
    submissions (passEnd ended) = [] := by
  cases ended <;> rfl

/-- The two kinds of step: the loop ends, or it serves one stream. -/
inductive MuxMove (lib : LibAv) (s : MuxState) (a : MuxAnswers) :
    MuxState → List MuxEvent → Prop
  | loopEnd
      (hrun : s.finished = false)
      (hdone : ∀ stream, s.encode stream = false) :
      MuxMove lib s a { s with finished := true } [.trailer]
  | pass (stream : StreamType) (w : WriteFrameExit)
      (hrun : s.finished = false)
      (hencode : s.encode stream = true)
      (hw : WriteMove lib s.pHandle stream (s.calls stream)
        (a.callback stream) a.written w) :
      MuxMove lib s a
        { s.serve stream w with finished := a.ended }
        (w.events ++ passEnd a.ended)

/-- Inversion of a step of the loop. -/
theorem muxStep_move
    {lib : LibAv} {s s' : MuxState} {a : MuxAnswers} {es : List MuxEvent}
    (h : muxStep lib s a = some (s', es)) :
    MuxMove lib s a s' es := by
  simp only [muxStep] at h
  cases hrun : s.finished with
  | true =>
      simp [hrun] at h
  | false =>
      simp only [hrun, Bool.false_eq_true, if_false] at h
      cases hsel : selectStream lib s.pHandle s.encode with
      | none =>
          simp only [hsel, Option.some.injEq, Prod.mk.injEq] at h
          obtain ⟨rfl, rfl⟩ := h
          exact .loopEnd hrun (selectStream_none hsel)
      | some stream =>
          have hmove := MuxMove.pass stream _ hrun (selectStream_some hsel)
            (writeFrame_move lib s.pHandle stream (s.calls stream)
              (a.callback stream) a.written)
          simp only [hsel] at h
          cases hended : a.ended with
          | true =>
              simp only [hended, if_true, Option.some.injEq, Prod.mk.injEq,
                passEnd] at h hmove
              obtain ⟨rfl, rfl⟩ := h
              exact hmove
          | false =>
              simp only [hended, Bool.false_eq_true, if_false, Option.some.injEq,
                Prod.mk.injEq, passEnd, List.append_nil] at h hmove
              obtain ⟨rfl, rfl⟩ := h
              rw [← hrun] at hmove
              exact hmove

/-- A step of the loop ends it, or it serves the stream selected. -/
theorem muxStep_selected
    {lib : LibAv} {s s' : MuxState} {a : MuxAnswers} {es : List MuxEvent}
    (hstep : muxStep lib s a = some (s', es)) :
    (s' = { s with finished := true } ∧ es = [.trailer]) ∨
    ∃ stream w,
      selectStream lib s.pHandle s.encode = some stream ∧
      WriteMove lib s.pHandle stream (s.calls stream) (a.callback stream)
        a.written w ∧
      s'.pHandle = w.pHandle ∧
      s'.encode = Function.update s.encode stream (w.ret = 0) ∧
      es = w.events ++ passEnd a.ended := by
  simp only [muxStep] at hstep
  split at hstep
  · cases hstep
  · split at hstep
    · cases hstep
      exact Or.inl ⟨rfl, rfl⟩
    · rename_i stream hsel
      have hw := writeFrame_move lib s.pHandle stream (s.calls stream)
        (a.callback stream) a.written
      refine Or.inr ⟨stream, _, hsel, hw, ?_⟩
      split at hstep
      · rename_i hended
        cases hstep
        exact ⟨rfl, rfl, by simp [passEnd, hended]⟩
      · rename_i hended
        cases hstep
        exact ⟨rfl, rfl, by simp [passEnd, hended]⟩

/-- What every run keeps: the set-up, and only registered streams are encoded. -/
structure MuxSetupInv (h : KoalaMuxer) (s : MuxState) : Prop where
  setup : s.pHandle.setup = h.setup
  have_of_encode : ∀ stream, s.encode stream = true → h.haveStream stream = true

theorem muxStep_setupInv
    {lib : LibAv} {h : KoalaMuxer} {s s' : MuxState} {a : MuxAnswers}
    {es : List MuxEvent}
    (hinv : MuxSetupInv h s)
    (hstep : muxStep lib s a = some (s', es)) :
    MuxSetupInv h s' := by
  cases muxStep_move hstep with
  | loopEnd hrun hdone =>
      exact ⟨hinv.setup, hinv.have_of_encode⟩
  | pass stream w hrun hencode hw =>
      refine ⟨hw.setup.trans hinv.setup, ?_⟩
      intro st hst
      by_cases heq : st = stream
      · subst heq
        exact hinv.have_of_encode st hencode
      · simp only [MuxState.serve, Function.update_of_ne heq] at hst
        exact hinv.have_of_encode st hst

theorem run_setupInv
    {lib : LibAv} {h : KoalaMuxer} {s : MuxState} {tr : List MuxTransition}
    (run : Run (muxStep lib) (MuxState.start h) tr s) :
    MuxSetupInv h s := by
  refine Run.invariant (fun _ s => MuxSetupInv h s) ?_ ?_ run
  · exact ⟨rfl, fun _ hst => hst⟩
  · intro _ s a es t hinv hstep
    exact muxStep_setupInv hinv hstep

/-- A handle without a request for a key frame stays without one. -/
theorem muxStep_reqIFrame
    {lib : LibAv} {s s' : MuxState} {a : MuxAnswers} {es : List MuxEvent}
    (hreq : s.pHandle.reqIFrame = 0)
    (hstep : muxStep lib s a = some (s', es)) :
    s'.pHandle.reqIFrame = 0 := by
  cases muxStep_move hstep with
  | loopEnd hrun hdone =>
      exact hreq
  | pass stream w hrun hencode hw =>
      exact hw.reqIFrame hreq

end KoalaStreamer
