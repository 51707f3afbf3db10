import KoalaStreamer.KoalaMuxer
import KoalaStreamer.StreamStatistician

/-!
# MediaStreamer.c: what is counted and what is muxed

`mediaStreamer_prepare_internal` registers a record and a wrapper for each
stream.  A wrapper begins a frame, calls the callback of the user and ends the
frame if it was delivered.  The machine `streamingStep` is `mux_thread` over
these wrappers; the call of the user's callback lies between two steps, so that
other threads can reset the statistics while it waits.

Main results:
* `streaming_muxRun`: the part of a run that belongs to the mux thread is a run
  of `mux_thread`;
* `muxed_counted_iff`: in every state of a run the records agree with the frames
  that `write_frame` obtained, if and only if the user's video callback never
  returned a positive number.
-/

namespace KoalaStreamer

open EventMachine

/-- `ELEMENT_AUDIO` and `ELEMENT_VIDEO`. -/
def StreamType.element : StreamType → BitVec 32
  | .audio => 1 <<< 0
  | .video => 1 <<< 1

/-- `element & ELEMENT_AUDIO`, or the same for video. -/
def hasElement (element : BitVec 32) (stream : StreamType) : Bool :=
  element &&& stream.element ≠ 0

/-- The part of `mediaStreamer` that its data callbacks use. -/
structure StreamerInput where
  pInputStastic : StreamerStatistician
  videoInputStasticIndex : Int
  audioInputStasticIndex : Int
deriving DecidableEq, Repr

/-- `create_mediaStreamer`. -/
def createStreamerInput : StreamerInput where
  pInputStastic := streamerStatisticianCreate
  videoInputStasticIndex := 0
  audioInputStasticIndex := 0

/-- `mediaStreamer_prepare_internal`: the record of the audio stream. -/
def registerAudio (pHandle : StreamerInput) (element : BitVec 32) : StreamerInput :=
  if hasElement element .audio then
    { pHandle with
      pInputStastic := (addStream pHandle.pInputStastic .audio).2
      audioInputStasticIndex := (addStream pHandle.pInputStastic .audio).1 }
  else
    pHandle

/-- `mediaStreamer_prepare_internal`: the record of the video stream. -/
def registerVideo (pHandle : StreamerInput) (element : BitVec 32) : StreamerInput :=
  if hasElement element .video then
    { pHandle with
      pInputStastic := (addStream pHandle.pInputStastic .video).2
      videoInputStasticIndex := (addStream pHandle.pInputStastic .video).1 }
  else
    pHandle

/-- The streamer after `mediaStreamer_prepare_internal`. -/
def preparedInput (element : BitVec 32) : StreamerInput :=
  registerVideo (registerAudio createStreamerInput element) element

/-- The index of the record of a stream. -/
def StreamerInput.index (pHandle : StreamerInput) : StreamType → Int
  | .video => pHandle.videoInputStasticIndex
  | .audio => pHandle.audioInputStasticIndex

/-- `audio_callback` and `video_callback` before they call the user's. -/
def callbackBegin
    (pHandle : StreamerInput) (stream : StreamType) (clock : BeginClock) :
    StreamerInput :=
  { pHandle with
    pInputStastic := onFrameBegin pHandle.pInputStastic (pHandle.index stream) clock }

/-- `audio_callback` after the user's callback returned. -/
def audioCallbackEnd
    (pHandle : StreamerInput) (result : CallbackResult) (timeNow : Int) :
    StreamerInput :=
  if result.ret ≥ 0 then
    { pHandle with
      pInputStastic := onFrameEnd pHandle.pInputStastic
        pHandle.audioInputStasticIndex (some result.frame) timeNow }
  else
    pHandle

/-- `video_callback` after the user's callback returned. -/
def videoCallbackEnd
    (pHandle : StreamerInput) (result : CallbackResult) (timeNow : Int) :
    StreamerInput :=
  if result.ret = 0 then
    { pHandle with
      pInputStastic := onFrameEnd pHandle.pInputStastic
        pHandle.videoInputStasticIndex (some result.frame) timeNow }
  else
    pHandle

def callbackEnd
    (pHandle : StreamerInput) (stream : StreamType) (result : CallbackResult)
    (timeNow : Int) : StreamerInput :=
  match stream with
  | .audio => audioCallbackEnd pHandle result timeNow
  | .video => videoCallbackEnd pHandle result timeNow

/-- `mediaStreamer_resetStatistician`. -/
def mediaStreamerResetStatistician
    (pHandle : StreamerInput) (now : ℕ → Int) : StreamerInput :=
  { pHandle with pInputStastic := resetStatistician pHandle.pInputStastic now }

/-- `write_frame`: the frame it goes on with. -/
def writeFrameObtains (result : CallbackResult) : Option MediaFrame :=
  if result.ret < 0 then none else some result.frame

/-- `Stream_type` of a stream of the muxer. -/
def StreamType.koalaType : StreamType → KoalaStreamType
  | .video => .video
  | .audio => .audio

/-! ## mux_thread over the wrappers -/

structure StreamingState where
  mux : MuxState
  input : StreamerInput
  /-- The mux thread waits in the user's callback of this stream. -/
  asking : Option StreamType

inductive StreamingAction
  /-- The mux thread selects a stream; it ends, or calls a callback. -/
  | select (clock : BeginClock) (written : Int) (ended : Bool)
  /-- The user's callback returns, and the mux thread finishes the pass. -/
  | answer (result : CallbackResult) (timeNow : Int) (written : Int) (ended : Bool)
  | reset (now : ℕ → Int)

inductive StreamingEvent
  /-- What the user's callback returned. -/
  | returned (stream : StreamType) (result : CallbackResult)
  /-- `write_frame` obtained the frame. -/
  | obtained (stream : StreamType) (frame : MediaFrame)
  | mux (e : MuxEvent)
deriving DecidableEq, Repr

/-- What the environment answers in a pass whose callback returned `result`. -/
def answersOf (result : CallbackResult) (written : Int) (ended : Bool) :
    MuxAnswers where
  callback := fun _ => result
  written := written
  ended := ended

/-- A pass of the loop without a callback. -/
def muxPass (lib : LibAv) (s : StreamingState) (answers : MuxAnswers) :
    Option (StreamingState × List StreamingEvent) :=
  (muxStep lib s.mux answers).map fun r =>
    ({ s with mux := r.1, asking := none }, r.2.map .mux)

/-- One step of the mux thread or of a thread that resets the statistics; a reset is
taken as one step. -/
def streamingStep (lib : LibAv) :
    Machine StreamingState StreamingAction StreamingEvent :=
  fun s a =>
    match a, s.asking with
    | .reset now, _ =>
        some ({ s with input := mediaStreamerResetStatistician s.input now }, [])
    | .select _ _ _, some _ => none
    | .select clock written ended, none =>
        if s.mux.finished then none
        else
          match selectStream lib s.mux.pHandle s.mux.encode with
          | some stream =>
              if s.mux.pHandle.haveStream stream then
                some ({ s with
                  input := callbackBegin s.input stream clock
                  asking := some stream }, [])
              else
                muxPass lib s (answersOf ⟨-1, mediaFrameCreate⟩ written ended)
          | none => muxPass lib s (answersOf ⟨-1, mediaFrameCreate⟩ written ended)
    | .answer _ _ _ _, none => none
    | .answer result timeNow written ended, some stream =>
        (muxPass lib
          { s with input := callbackEnd s.input stream result timeNow }
          (answersOf result written ended)).map fun r =>
            (r.1, .returned stream result ::
              ((writeFrameObtains result).toList.map (.obtained stream) ++ r.2))

abbrev StreamingTransition :=
  Transition StreamingState StreamingAction StreamingEvent

/-- A prepared streamer when its mux thread begins. -/
def StreamingState.start (element : BitVec 32) (pHandle : KoalaMuxer) :
    StreamingState where
  mux := MuxState.start pHandle
  input := preparedInput element
  asking := none

/-! ### What a step can do -/

section Streaming

variable {lib : LibAv} {element : BitVec 32} {s s' : StreamingState}
  {a : StreamingAction} {es : List StreamingEvent}

/-- The four kinds of step. -/
inductive StreamingMove (lib : LibAv) (s : StreamingState) :
    StreamingState → List StreamingEvent → Prop
  | reset (now : ℕ → Int) :
      StreamingMove lib s
        { s with input := mediaStreamerResetStatistician s.input now } []
  | begin (stream : StreamType) (clock : BeginClock)
      (hhave : s.mux.pHandle.haveStream stream = true) :
      StreamingMove lib s
        { s with input := callbackBegin s.input stream clock, asking := some stream }
        []
  | alone (answers : MuxAnswers) (mux : MuxState) (es : List MuxEvent)
      (hmux : muxStep lib s.mux answers = some (mux, es)) :
      StreamingMove lib s { s with mux := mux, asking := none } (es.map .mux)
  | answer (stream : StreamType) (result : CallbackResult) (timeNow : Int)
      (answers : MuxAnswers) (mux : MuxState) (es : List MuxEvent)
      (hasking : s.asking = some stream)
      (hmux : muxStep lib s.mux answers = some (mux, es)) :
      StreamingMove lib s
        { mux := mux
          input := callbackEnd s.input stream result timeNow
          asking := none }
        (.returned stream result ::
          ((writeFrameObtains result).toList.map (.obtained stream) ++
            es.map .mux))

theorem muxPass_move
    {answers : MuxAnswers}
    (h : muxPass lib s answers = some (s', es)) :
    ∃ mux es', muxStep lib s.mux answers = some (mux, es') ∧
      s' = { s with mux := mux, asking := none } ∧ es = es'.map .mux := by
  simp only [muxPass, Option.map_eq_some_iff, Prod.exists] at h
  obtain ⟨mux, es', hmux, heq⟩ := h
  cases heq
  exact ⟨mux, es', hmux, rfl, rfl⟩

/-- Inversion of a step. -/
theorem streamingStep_move
    (h : streamingStep lib s a = some (s', es)) :
    StreamingMove lib s s' es := by
  cases a with
  | reset now =>
      cases h
      exact .reset now
  | select clock written ended =>
      cases hasking : s.asking with
      | some stream =>
          simp [streamingStep, hasking] at h
      | none =>
          simp only [streamingStep, hasking] at h
          split at h
          · cases h
          · split at h
            · rename_i stream _
              split at h
              · rename_i hhave
                cases h
                exact .begin stream clock hhave
              · obtain ⟨mux, es', hmux, rfl, rfl⟩ := muxPass_move h
                exact .alone _ mux es' hmux
            · obtain ⟨mux, es', hmux, rfl, rfl⟩ := muxPass_move h
              exact .alone _ mux es' hmux
  | answer result timeNow written ended =>
      cases hasking : s.asking with
      | none =>
          simp [streamingStep, hasking] at h
      | some stream =>
          simp only [streamingStep, hasking, Option.map_eq_some_iff,
            Prod.exists] at h
          obtain ⟨s₁, es₁, hpass, heq⟩ := h
          obtain ⟨mux, es', hmux, rfl, rfl⟩ := muxPass_move hpass
          cases heq
          exact .answer stream result timeNow _ mux es' hasking hmux

/-- The events of the mux thread among those of a run. -/
def muxEvents (es : List StreamingEvent) : List MuxEvent :=
  es.filterMap fun
    | .mux e => some e
    | _ => none

@[simp] theorem muxEvents_append
    (es es' : List StreamingEvent) :
    muxEvents (es ++ es') = muxEvents es ++ muxEvents es' := by
  simp [muxEvents]

@[simp] theorem muxEvents_map_mux
    (es : List MuxEvent) :
    muxEvents (es.map .mux) = es := by
  simp [muxEvents]

@[simp] theorem muxEvents_returned
    (stream : StreamType) (result : CallbackResult) (es : List StreamingEvent) :
    muxEvents (.returned stream result :: es) = muxEvents es := by
  rfl

@[simp] theorem muxEvents_map_obtained
    (stream : StreamType) (frames : List MediaFrame) :
    muxEvents (frames.map (.obtained stream)) = [] := by
  simp [muxEvents]

/-- What the mux thread does in a run is a run of `mux_thread`. -/
theorem streaming_muxRun
    {s₀ : StreamingState} {tr : List StreamingTransition}
    (run : Run (streamingStep lib) s₀ tr s) :
    ∃ tr', Run (muxStep lib) s₀.mux tr' s.mux ∧
      eventsOf tr' = muxEvents (eventsOf tr) := by
  induction run with
  | nil =>
      exact ⟨[], Run.nil, rfl⟩
  | snoc run step ih =>
      obtain ⟨tr', hrun, hes⟩ := ih
      cases streamingStep_move step with
      | reset now =>
          exact ⟨tr', hrun, by simpa using hes⟩
      | begin stream clock hhave =>
          exact ⟨tr', hrun, by simpa using hes⟩
      | alone answers mux es hmux =>
          exact ⟨_, Run.snoc hrun hmux, by simp [hes]⟩
      | answer stream result timeNow answers mux es hasking hmux =>
          exact ⟨_, Run.snoc hrun hmux, by simp [hes]⟩

/-- `write_frame` obtains a frame exactly if it goes on to release it. -/
theorem writeFrame_released_iff
    {h : KoalaMuxer} {stream : StreamType} {call : ℕ} {result : CallbackResult}
    {written : Int} :
    .released stream call ∈ (writeFrame lib h stream call result written).events ↔
      h.haveStream stream = true ∧ (writeFrameObtains result).isSome = true := by
  have hw := writeFrame_move lib h stream call result written
  generalize writeFrame lib h stream call result written = w at hw
  cases hw with
  | noCallback hnone =>
      simp [hnone]
  | sourceEnd hhave hret =>
      simp [writeFrameObtains, hret]
  | dropped h' hhave hret hgate =>
      simp [writeFrameObtains, hhave, hret]
  | wrote h' hhave hret hgate =>
      simp [writeFrameObtains, hhave, hret]

/-! ### The records -/

/-- The frames that `write_frame` obtained from a stream, in order. -/
def obtainedFrames (stream : StreamType) (es : List StreamingEvent) :
    List MediaFrame :=
  es.filterMap fun
    | .obtained st frame => if st = stream then some frame else none
    | _ => none

/-- What the user's callback of a stream returned, in order. -/
def callbackResults (stream : StreamType) (es : List StreamingEvent) :
    List CallbackResult :=
  es.filterMap fun
    | .returned st result => if st = stream then some result else none
    | _ => none

theorem mem_callbackResults
    {stream : StreamType} {es : List StreamingEvent} {result : CallbackResult} :
    result ∈ callbackResults stream es ↔ .returned stream result ∈ es := by
  simp only [callbackResults, List.mem_filterMap]
  constructor
  · rintro ⟨e, he, heq⟩
    cases e with
    | returned st result' =>
        simp only [Option.ite_none_right_eq_some, Option.some.injEq] at heq
        obtain ⟨rfl, rfl⟩ := heq
        exact he
    | obtained st frame =>
        cases heq
    | mux e =>
        cases heq
  · intro hmem
    exact ⟨_, hmem, by simp⟩

/-- What is recorded for the stream is what was obtained from it. -/
def Counted (stream : StreamType) (es : List StreamingEvent) (s : StreamingState) :
    Prop :=
  s.input.pInputStastic.recorded stream.koalaType =
    Recorded.ofFrames (obtainedFrames stream es)

instance (stream : StreamType) (es : List StreamingEvent) (s : StreamingState) :
    Decidable (Counted stream es s) :=
  inferInstanceAs (Decidable (_ = _))

/-- The wrapper of the stream ends a frame on this result. -/
def WrapperCounts : StreamType → CallbackResult → Prop
  | .audio, result => result.ret ≥ 0
  | .video, result => result.ret = 0

@[simp] theorem obtainedFrames_append
    (stream : StreamType) (es es' : List StreamingEvent) :
    obtainedFrames stream (es ++ es') =
      obtainedFrames stream es ++ obtainedFrames stream es' := by
  simp [obtainedFrames]

@[simp] theorem obtainedFrames_map_mux
    (stream : StreamType) (es : List MuxEvent) :
    obtainedFrames stream (es.map .mux) = [] := by
  simp [obtainedFrames]

@[simp] theorem obtainedFrames_returned
    (stream st : StreamType) (result : CallbackResult) (es : List StreamingEvent) :
    obtainedFrames stream (.returned st result :: es) = obtainedFrames stream es := by
  rfl

theorem obtainedFrames_map_obtained
    (stream st : StreamType) (frames : List MediaFrame) :
    obtainedFrames stream (frames.map (.obtained st)) =
      if st = stream then frames else [] := by
  by_cases hst : st = stream <;> simp [obtainedFrames, hst]

theorem koalaType_injective
    {stream st : StreamType} :
    stream.koalaType = st.koalaType ↔ stream = st := by
  cases stream <;> cases st <;> simp [StreamType.koalaType]

/-- The records of a prepared streamer: one for each registered stream. -/
structure RecordsPrepared (element : BitVec 32) (p : StreamerInput) : Prop where
  distinct : p.pInputStastic.types.Nodup
  indexed : ∀ stream, hasElement element stream = true →
    0 ≤ p.index stream ∧ p.index stream < maxStreames ∧
      p.pInputStastic.types[(p.index stream).toNat]? = some stream.koalaType

theorem preparedInput_types
    (element : BitVec 32) :
    (preparedInput element).pInputStastic.types =
      (if hasElement element .audio then [.audio] else []) ++
        (if hasElement element .video then [.video] else []) := by
  cases haudio : hasElement element .audio <;>
    cases hvideo : hasElement element .video <;>
    simp [preparedInput, registerVideo, registerAudio, haudio, hvideo, addStream,
      createStreamerInput, streamerStatisticianCreate, maxStreames,
      StreamerStatistician.types]

theorem preparedInput_index
    (element : BitVec 32) (stream : StreamType) :
    (preparedInput element).index stream =
      if stream = .video ∧ hasElement element .video = true ∧
        hasElement element .audio = true then 1 else 0 := by
  cases stream <;> cases haudio : hasElement element .audio <;>
    cases hvideo : hasElement element .video <;>
    simp [preparedInput, registerVideo, registerAudio, haudio, hvideo, addStream,
      createStreamerInput, streamerStatisticianCreate, maxStreames,
      StreamerInput.index]

/-- Nothing is recorded before the first frame. -/
theorem preparedInput_recorded
    (element : BitVec 32) (stream : StreamType) :
    (preparedInput element).pInputStastic.recorded stream.koalaType =
      Recorded.ofFrames [] := by
  cases stream <;> cases haudio : hasElement element .audio <;>
    cases hvideo : hasElement element .video <;>
    simp [preparedInput, registerVideo, registerAudio, haudio, hvideo, addStream,
      createStreamerInput, streamerStatisticianCreate, maxStreames,
      StreamerStatistician.recorded, StreamerStatistician.record,
      StreamStatistics.recorded, StatisticsData.zero, StreamType.koalaType,
      Recorded.ofFrames]

theorem preparedInput_records
    (element : BitVec 32) :
    RecordsPrepared element (preparedInput element) := by
  constructor
  · rw [preparedInput_types]
    split <;> split <;> decide
  · intro stream hhave
    rw [preparedInput_types, preparedInput_index]
    cases stream with
    | audio =>
        simp [hhave, maxStreames, StreamType.koalaType]
    | video =>
        cases hasElement element .audio <;>
          simp [hhave, maxStreames, StreamType.koalaType]

/-- The streams and their indices are the same. -/
structure SameStreams (p p' : StreamerInput) : Prop where
  types : p'.pInputStastic.types = p.pInputStastic.types
  index : p'.index = p.index

/-- Whatever keeps the streams and the indices keeps the records prepared. -/
theorem RecordsPrepared.of_same
    {p p' : StreamerInput}
    (h : RecordsPrepared element p) (hsame : SameStreams p p') :
    RecordsPrepared element p' := by
  constructor
  · rw [hsame.types]
    exact h.distinct
  · rw [hsame.types, hsame.index]
    exact h.indexed

/-- A registered stream has its record at its index. -/
theorem RecordsPrepared.streamerAt
    {p : StreamerInput} {stream : StreamType}
    (h : RecordsPrepared element p)
    (hhave : hasElement element stream = true) :
    ∃ r, p.pInputStastic.streamerAt (p.index stream) = some r ∧
      r.type = stream.koalaType := by
  obtain ⟨hnn, _, htype⟩ := h.indexed stream hhave
  simp only [StreamerStatistician.types, List.getElem?_map,
    Option.map_eq_some_iff] at htype
  obtain ⟨r, hr, htype⟩ := htype
  refine ⟨r, ?_, htype⟩
  simp only [StreamerStatistician.streamerAt, hr]
  rw [if_neg (by omega)]

/-! ### The wrappers -/

section Wrappers

variable {p : StreamerInput} {stream : StreamType}

theorem sameStreams_callbackBegin
    (p : StreamerInput) (stream : StreamType) (clock : BeginClock) :
    SameStreams p (callbackBegin p stream clock) := by
  refine ⟨types_onFrameBegin _ _ _, ?_⟩
  funext st
  cases st <;> rfl

theorem sameStreams_reset
    (p : StreamerInput) (now : ℕ → Int) :
    SameStreams p (mediaStreamerResetStatistician p now) := by
  refine ⟨types_reset _ _, ?_⟩
  funext st
  cases st <;> rfl

/-- A wrapper ends a frame in the record of its stream, or does nothing. -/
theorem callbackEnd_cases
    (p : StreamerInput) (stream : StreamType) (result : CallbackResult)
    (timeNow : Int) :
    (WrapperCounts stream result ∧
      callbackEnd p stream result timeNow =
        { p with
          pInputStastic := onFrameEnd p.pInputStastic (p.index stream)
            (some result.frame) timeNow }) ∨
    (¬ WrapperCounts stream result ∧ callbackEnd p stream result timeNow = p) := by
  cases stream with
  | audio =>
      simp only [callbackEnd, audioCallbackEnd, WrapperCounts]
      split
      · rename_i hret
        exact Or.inl ⟨hret, rfl⟩
      · rename_i hret
        exact Or.inr ⟨hret, rfl⟩
  | video =>
      simp only [callbackEnd, videoCallbackEnd, WrapperCounts]
      split
      · rename_i hret
        exact Or.inl ⟨hret, rfl⟩
      · rename_i hret
        exact Or.inr ⟨hret, rfl⟩

theorem sameStreams_callbackEnd
    (p : StreamerInput) (stream : StreamType) (result : CallbackResult)
    (timeNow : Int) :
    SameStreams p (callbackEnd p stream result timeNow) := by
  rcases callbackEnd_cases p stream result timeNow with ⟨_, heq⟩ | ⟨_, heq⟩
  · rw [heq]
    refine ⟨types_onFrameEnd _ _ _ _, ?_⟩
    funext st
    cases st <;> rfl
  · rw [heq]
    exact ⟨rfl, rfl⟩

/-- A wrapper that counts records the frame for its stream. -/
theorem recorded_callbackEnd
    (h : RecordsPrepared element p)
    (hhave : hasElement element stream = true)
    {result : CallbackResult} (hcounts : WrapperCounts stream result)
    (timeNow : Int) (st : StreamType) :
    (callbackEnd p stream result timeNow).pInputStastic.recorded st.koalaType =
      if st = stream then
        (p.pInputStastic.recorded st.koalaType).add result.frame
      else
        p.pInputStastic.recorded st.koalaType := by
  obtain ⟨r, hr, htype⟩ := h.streamerAt hhave
  have hlt := (h.indexed stream hhave).2.1
  have hend := recorded_onFrameEnd h.distinct hlt hr result.frame timeNow
    st.koalaType
  rw [htype] at hend
  simp only [koalaType_injective] at hend
  rcases callbackEnd_cases p stream result timeNow with ⟨_, heq⟩ | ⟨hnot, _⟩
  · rw [heq]
    exact hend
  · exact absurd hcounts hnot

/-- A wrapper that does not count records nothing. -/
theorem callbackEnd_of_not_counts
    {result : CallbackResult} (hnot : ¬ WrapperCounts stream result)
    (p : StreamerInput) (timeNow : Int) :
    callbackEnd p stream result timeNow = p := by
  rcases callbackEnd_cases p stream result timeNow with ⟨hcounts, _⟩ | ⟨_, heq⟩
  · exact absurd hcounts hnot
  · exact heq

/-- Apart from a positive result of the video callback, the wrapper counts
exactly the results with which `write_frame` goes on. -/
theorem wrapperCounts_iff
    {result : CallbackResult}
    (hret : stream = .video → result.ret ≤ 0) :
    WrapperCounts stream result ↔ writeFrameObtains result = some result.frame := by
  cases stream with
  | audio =>
      simp [WrapperCounts, writeFrameObtains]
  | video =>
      have hle := hret rfl
      simp only [WrapperCounts, writeFrameObtains, ite_eq_right_iff, reduceCtorEq,
        imp_false, not_lt]
      omega

end Wrappers

/-! ### Runs -/

/-- What every run keeps. -/
structure StreamingInv (element : BitVec 32) (s : StreamingState) : Prop where
  records : RecordsPrepared element s.input
  haveStream : s.mux.pHandle.haveStream = hasElement element
  asking : ∀ stream, s.asking = some stream → hasElement element stream = true

theorem muxStep_haveStream
    {m m' : MuxState} {answers : MuxAnswers} {es : List MuxEvent}
    (hmux : muxStep lib m answers = some (m', es)) :
    m'.pHandle.haveStream = m.pHandle.haveStream := by
  cases muxStep_move hmux with
  | loopEnd hrun hdone =>
      rfl
  | pass stream w hrun hencode hw =>
      exact haveStream_of_setup hw.setup

theorem StreamingMove.inv
    (hinv : StreamingInv element s)
    (hmove : StreamingMove lib s s' es) :
    StreamingInv element s' := by
  cases hmove with
  | reset now =>
      exact ⟨hinv.records.of_same (sameStreams_reset _ now), hinv.haveStream, hinv.asking⟩
  | begin stream clock hhave =>
      refine ⟨hinv.records.of_same (sameStreams_callbackBegin _ stream clock),
        hinv.haveStream, ?_⟩
      intro st hst
      cases hst
      rw [← hinv.haveStream]
      exact hhave
  | alone answers mux es hmux =>
      exact ⟨hinv.records, (muxStep_haveStream hmux).trans hinv.haveStream,
        fun _ hst => nomatch hst⟩
  | answer stream result timeNow answers mux es hasking hmux =>
      exact ⟨hinv.records.of_same (sameStreams_callbackEnd _ stream result timeNow),
        (muxStep_haveStream hmux).trans hinv.haveStream, fun _ hst => nomatch hst⟩

/-- A step keeps what is recorded in line with what was obtained, as long as the
video callback returns nothing positive. -/
theorem StreamingMove.counted
    {es' : List StreamingEvent}
    (hinv : StreamingInv element s)
    (hcounted : ∀ stream, Counted stream es' s)
    (hmove : StreamingMove lib s s' es)
    (hret : ∀ result, .returned .video result ∈ es → result.ret ≤ 0) :
    ∀ stream, Counted stream (es' ++ es) s' := by
  intro st
  have hst := hcounted st
  simp only [Counted, obtainedFrames_append] at hst ⊢
  cases hmove with
  | reset now =>
      simpa [mediaStreamerResetStatistician, recorded_reset, obtainedFrames] using hst
  | begin stream clock hhave =>
      have hbegin := recorded_onFrameBegin hinv.records.distinct
        (s.input.index stream) clock st.koalaType
      simpa [callbackBegin, hbegin, obtainedFrames] using hst
  | alone answers mux es hmux =>
      simpa using hst
  | answer stream result timeNow answers mux es hasking hmux =>
      have hhave := hinv.asking stream hasking
      have hle : stream = .video → result.ret ≤ 0 := by
        rintro rfl
        exact hret result (by simp)
      simp only [obtainedFrames_returned, obtainedFrames_append,
        obtainedFrames_map_mux, obtainedFrames_map_obtained, List.append_nil]
      by_cases hcounts : WrapperCounts stream result
      · rw [recorded_callbackEnd hinv.records hhave hcounts,
          (wrapperCounts_iff hle).mp hcounts]
        by_cases heq : st = stream
        · rw [if_pos heq, if_pos heq.symm, Option.toList_some,
            Recorded.ofFrames_snoc, hst]
        · rw [if_neg heq, if_neg (Ne.symm heq), List.append_nil]
          exact hst
      · have hnone : writeFrameObtains result = none := by
          by_contra hsome
          refine hcounts ((wrapperCounts_iff hle).mpr ?_)
          simp only [writeFrameObtains] at hsome ⊢
          split at hsome <;> simp_all
        rw [callbackEnd_of_not_counts hcounts, hnone]
        simpa using hst

/-- A positive result of the video callback is obtained and not recorded. -/
theorem StreamingMove.not_counted
    {es' : List StreamingEvent} {result : CallbackResult}
    (hmove : StreamingMove lib s s' es)
    (hmem : .returned .video result ∈ es)
    (hret : 0 < result.ret)
    (hcounted : Counted .video es' s) :
    ¬ Counted .video (es' ++ es) s' := by
  cases hmove with
  | reset now =>
      simp at hmem
  | begin stream clock hhave =>
      simp at hmem
  | alone answers mux es hmux =>
      simp at hmem
  | answer stream result' timeNow answers mux es hasking hmux =>
      have heq : stream = .video ∧ result' = result := by
        simpa [eq_comm] using hmem
      obtain ⟨rfl, rfl⟩ := heq
      have hnot : ¬ WrapperCounts .video result' := by
        simp only [WrapperCounts]
        omega
      have hobtains : writeFrameObtains result' = some result'.frame := by
        simp only [writeFrameObtains]
        rw [if_neg (by omega)]
      simp only [Counted] at hcounted ⊢
      rw [callbackEnd_of_not_counts hnot, hobtains, hcounted]
      simp only [obtainedFrames_append, obtainedFrames_returned,
        obtainedFrames_map_mux, obtainedFrames_map_obtained, List.append_nil,
        if_true, Option.toList_some, Recorded.ofFrames_snoc]
      exact fun h => Recorded.add_ne _ _ h.symm

/-- The muxer of a prepared streamer, opened. -/
def preparedMuxer
    (element : BitVec 32) (listener : Bool) (fmtName : String)
    (audioIndex videoIndex samplerate : Int) : KoalaMuxer :=
  openedMuxer (hasElement element .audio) (hasElement element .video) listener
    fmtName audioIndex videoIndex samplerate

theorem streamingInv_start
    (element : BitVec 32) (listener : Bool) (fmtName : String)
    (audioIndex videoIndex samplerate : Int) :
    StreamingInv element
      (StreamingState.start element
        (preparedMuxer element listener fmtName audioIndex videoIndex
          samplerate)) where
  records := preparedInput_records element
  haveStream := by
    funext stream
    cases haudio : hasElement element .audio <;>
      cases hvideo : hasElement element .video <;>
      cases stream <;>
      simp [StreamingState.start, MuxState.start, preparedMuxer, haudio, hvideo,
        openedMuxer, initOpenVideo, initOpenAudio, koalaMuxerSetListener,
        koalaMuxerRegDataCallback, koalaGetMuxerHandle, KoalaMuxer.haveStream]
  asking := fun _ hst => nomatch hst

variable {listener : Bool} {fmtName : String}
  {audioIndex videoIndex samplerate : Int} {tr : List StreamingTransition}

theorem run_streamingInv
    (run : Run (streamingStep lib)
      (StreamingState.start element
        (preparedMuxer element listener fmtName audioIndex videoIndex samplerate))
      tr s) :
    StreamingInv element s := by
  refine Run.invariant (fun _ s => StreamingInv element s) ?_ ?_ run
  · exact streamingInv_start element listener fmtName audioIndex videoIndex
      samplerate
  · intro tr s a es t hinv hstep
    exact (streamingStep_move hstep).inv hinv

/-- Without a positive result of the video callback everything is counted. -/
theorem run_counted
    (run : Run (streamingStep lib)
      (StreamingState.start element
        (preparedMuxer element listener fmtName audioIndex videoIndex samplerate))
      tr s)
    (hret : ∀ result, .returned .video result ∈ eventsOf tr → result.ret ≤ 0) :
    ∀ stream, Counted stream (eventsOf tr) s := by
  induction run with
  | nil =>
      exact preparedInput_recorded element
  | snoc run step ih =>
      rw [eventsOf_snoc] at hret ⊢
      refine (streamingStep_move step).counted (run_streamingInv run) (ih ?_) ?_
      · intro result hmem
        exact hret result (List.mem_append_left _ hmem)
      · intro result hmem
        exact hret result (List.mem_append_right _ hmem)

/--
In every state of a run, for every stream, the frames and bytes recorded (total
plus current period) are those of the frames that `write_frame` obtained, if and
only if the user's video callback returned nothing positive in the run.
-/
theorem muxed_counted_iff
    (run : Run (streamingStep lib)
      (StreamingState.start element
        (preparedMuxer element listener fmtName audioIndex videoIndex samplerate))
      tr s) :
    (∀ tr' s', tr' <+: tr →
      Run (streamingStep lib)
        (StreamingState.start element
          (preparedMuxer element listener fmtName audioIndex videoIndex samplerate))
        tr' s' →
      ∀ stream, Counted stream (eventsOf tr') s') ↔
    ∀ result ∈ callbackResults .video (eventsOf tr), result.ret ≤ 0 := by
  simp only [mem_callbackResults]
  constructor
  · intro hall result hmem
    by_contra hpos
    obtain ⟨τ, hτ, hmem⟩ := List.mem_flatMap.mp hmem
    obtain ⟨tr', hpre, hrun⟩ := run.prefix_of_mem τ hτ
    have hstep := run.valid τ hτ
    have hbefore := hall tr' τ.src ((List.prefix_append _ _).trans hpre) hrun .video
    have hafter := hall _ τ.dst hpre (Run.snoc hrun hstep) .video
    rw [eventsOf_snoc] at hafter
    exact (streamingStep_move hstep).not_counted hmem (by omega) hbefore hafter
  · intro hret tr' s' hpre hrun
    refine run_counted hrun ?_
    intro result hmem
    obtain ⟨rest, rfl⟩ := hpre
    refine hret result ?_
    simp only [eventsOf, List.flatMap_append]
    exact List.mem_append_left _ hmem

end Streaming

/-- A video frame and, after a reset while the callback waits, an audio frame
whose callback returned 3. -/
theorem muxed_counted_iff_reset_while_waiting :
    ∃ (tr : List StreamingTransition) (s : StreamingState),
      Run (streamingStep exactLibAv)
        (StreamingState.start 3 (preparedMuxer 3 true "flv" 0 1 44100)) tr s ∧
      (callbackResults .audio (eventsOf tr)).map (·.ret) = [3] ∧
      s.input.pInputStastic.recorded .video = ⟨1, 100⟩ ∧
      ∀ tr' s', tr' <+: tr →
        Run (streamingStep exactLibAv)
          (StreamingState.start 3 (preparedMuxer 3 true "flv" 0 1 44100)) tr' s' →
        ∀ stream, Counted stream (eventsOf tr') s' := by
  obtain ⟨tr, s, run, haudio, hrecorded, hret⟩ :=
    Run.exists_of_exec (streamingStep exactLibAv)
      (StreamingState.start 3 (preparedMuxer 3 true "flv" 0 1 44100))
      [.select ⟨1, 1, 1⟩ 0 false,
        .answer ⟨0, timedFrame 10 0 1⟩ 2 0 false,
        .select ⟨3, 3, 3⟩ 0 false,
        .reset fun _ => 4,
        .answer ⟨3, timedFrame 5 5 0⟩ 5 0 false]
      (fun r =>
        (callbackResults .audio (eventsOf r.1)).map (·.ret) = [3] ∧
        r.2.input.pInputStastic.recorded .video = ⟨1, 100⟩ ∧
        ∀ result ∈ callbackResults .video (eventsOf r.1), result.ret ≤ 0)
      (by decide +kernel)
  exact ⟨tr, s, run, haudio, hrecorded, (muxed_counted_iff run).mpr hret⟩

/-- A video callback that returns 1 delivers a frame that is muxed and not
counted. -/
theorem muxed_counted_fails_video_one :
    ∃ (tr : List StreamingTransition) (s : StreamingState),
      Run (streamingStep exactLibAv)
        (StreamingState.start 3 (preparedMuxer 3 true "flv" 0 1 44100)) tr s ∧
      callbackResults .video (eventsOf tr) = [⟨1, timedFrame 10 0 1⟩] ∧
      obtainedFrames .video (eventsOf tr) = [timedFrame 10 0 1] ∧
      s.input.pInputStastic.recorded .video = ⟨0, 0⟩ ∧
      ¬ Counted .video (eventsOf tr) s :=
  Run.exists_of_exec (streamingStep exactLibAv)
    (StreamingState.start 3 (preparedMuxer 3 true "flv" 0 1 44100))
    [.select ⟨1, 1, 1⟩ 0 false, .answer ⟨1, timedFrame 10 0 1⟩ 2 0 false]
    (fun r =>
      callbackResults .video (eventsOf r.1) = [⟨1, timedFrame 10 0 1⟩] ∧
      obtainedFrames .video (eventsOf r.1) = [timedFrame 10 0 1] ∧
      r.2.input.pInputStastic.recorded .video = ⟨0, 0⟩ ∧
      ¬ Counted .video (eventsOf r.1) r.2)
    (by decide +kernel)

end KoalaStreamer
