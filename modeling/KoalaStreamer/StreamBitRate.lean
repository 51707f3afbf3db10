import KoalaStreamer.InputStatistics
import KoalaStreamer.Library.SingleFloat
import KoalaStreamer.StatisticianRecords

/-!
# MediaStreamer.c: the bit rate of a stream

`mediaStreamer_getStreamBitRate` reads the record at the index of the stream.
Preparation sets the index of the streams that the element mask contains; the
index of any other stream stays 0, and 0 is the index of the first record.

The machine `liveStep` is the preparation of a streamer followed by the mux thread
over the wrappers, with resets at any time.  What a stream has seen is the part of
a run that is about it: its frames, and the readings of the clock taken for them
and for its record.

Main results:
* `run_liveInv`: the record of a stream is determined by what the stream has seen;
* `LiveInv.bitRate`: so is the bit rate of a stream of the mask.
-/

namespace KoalaStreamer

open EventMachine
open SingleFloat

/-- `streamerStatistician_getStreamBitRate`, with a record at hand. -/
def StreamStatistics.bitRate
    (cast : UintCast) (pStream : StreamStatistics) (timeNow : Int) : UInt32 :=
  let time := ofInt ((timeNow - pStream.statistics.startTime).tdiv 1000000)
  if time == 0 then
    0
  else
    cast.toUInt32 ((UInt64.ofBitVec pStream.statistics.size).toFloat32 * 8 / time)

/-- `streamerStatistician_getStreamBitRate`. -/
def getStreamBitRate
    (cast : UintCast) (pHandle : StreamerStatistician) (index timeNow : Int) : UInt32 :=
  match pHandle.streamerAt index with
  | none => 0
  | some pStream => pStream.bitRate cast timeNow

/-- `mediaStreamer_getStreamBitRate`. -/
def mediaStreamerGetStreamBitRate
    (cast : UintCast) (pHandle : StreamerInput) (type : StreamType) (timeNow : Int) :
    UInt32 :=
  let index :=
    if type = .video then pHandle.videoInputStasticIndex
    else pHandle.audioInputStasticIndex
  getStreamBitRate cast pHandle.pInputStastic index timeNow

/-- The other stream. -/
def StreamType.other : StreamType → StreamType
  | .video => .audio
  | .audio => .video

/-! ## Preparation and streaming -/

inductive LiveState
  /-- `mediaStreamer_prepare_internal`, before or after the record of the audio
  stream. -/
  | preparing (pHandle : StreamerInput) (audioDone : Bool)
  | streaming (s : StreamingState)

namespace LiveState

def input : LiveState → StreamerInput
  | preparing pHandle _ => pHandle
  | streaming s => s.input

/-- The stream whose callback the mux thread waits in. -/
def asking : LiveState → Option StreamType
  | preparing _ _ => none
  | streaming s => s.asking

/-- The stream has a record. -/
def registered (live : LiveState) (t : StreamType) : Bool :=
  t.koalaType ∈ live.input.pInputStastic.types

end LiveState

inductive LiveAction
  | registerAudio
  | registerVideo
  | reset (now : ℕ → Int)
  | streaming (a : StreamingAction)

abbrev LiveTransition := Transition LiveState LiveAction StreamingEvent

/-- `element` is the mask given to `mediaStreamer_set_inPut`; `mMuxer` is the muxer
that `mediaStreamer_prepare_internal` has opened. -/
def liveStep (lib : LibAv) (element : BitVec 32) (mMuxer : KoalaMuxer) :
    Machine LiveState LiveAction StreamingEvent
  | .preparing pHandle false, .registerAudio =>
      some (.preparing (registerAudio pHandle element) true, [])
  | .preparing pHandle true, .registerVideo =>
      some (.streaming
        { mux := MuxState.start mMuxer
          input := registerVideo pHandle element
          asking := none }, [])
  | .preparing pHandle audioDone, .reset now =>
      some (.preparing (mediaStreamerResetStatistician pHandle now) audioDone, [])
  | .streaming s, .streaming a =>
      (streamingStep lib s a).map fun r => (.streaming r.1, r.2)
  | _, _ => none

/-- A new streamer. -/
def LiveState.start : LiveState := .preparing createStreamerInput false

/-! ## What a stream sees -/

/-- What concerns the record of one stream. -/
inductive StreamSight
  | begun (clock : BeginClock)
  | delivered (frame : MediaFrame) (timeNow : Int)
  | reset (now : Int)
deriving DecidableEq, Repr

/-- The index that preparation gives to a stream that it registers. -/
def recordIndex (element : BitVec 32) (t : StreamType) : ℕ :=
  ((preparedInput element).index t).toNat

/-- The reading of the clock that a reset takes for the record of the stream. -/
def resetSeen
    (element : BitVec 32) (t : StreamType) (live : LiveState) (now : ℕ → Int) :
    List StreamSight :=
  if live.registered t then [.reset (now (recordIndex element t))] else []

instance (stream : StreamType) (result : CallbackResult) :
    Decidable (WrapperCounts stream result) :=
  match stream with
  | .audio => inferInstanceAs (Decidable (result.ret ≥ 0))
  | .video => inferInstanceAs (Decidable (result.ret = 0))

def seen (element : BitVec 32) (t : StreamType) (τ : LiveTransition) :
    List StreamSight :=
  match τ.action with
  | .registerAudio => []
  | .registerVideo => []
  | .reset now => resetSeen element t τ.src now
  | .streaming (.reset now) => resetSeen element t τ.src now
  | .streaming (.select clock _ _) =>
      if τ.dst.asking = some t then [.begun clock] else []
  | .streaming (.answer result timeNow _ _) =>
      if τ.src.asking = some t ∧ WrapperCounts t result then
        [.delivered result.frame timeNow]
      else
        []

/-- All that a stream has seen in a run. -/
def sights (element : BitVec 32) (t : StreamType) (tr : List LiveTransition) :
    List StreamSight :=
  tr.flatMap (seen element t)

/-- A record after what its stream has seen. -/
def StreamStatistics.after (r : StreamStatistics) : StreamSight → StreamStatistics
  | .begun clock => r.frameBegin clock
  | .delivered frame timeNow => r.frameEnd frame timeNow
  | .reset now => r.reset now

/-- A record as `addStream` makes it. -/
def freshRecord (t : StreamType) : StreamStatistics where
  total := .zero
  statistics := .zero
  frameStartTime := 0
  type := t.koalaType

/-! ## The records of the streams -/

section Records

variable {element : BitVec 32} {t stream : StreamType} {p p' : StreamerInput}
  {r : StreamStatistics}

theorem preparedInput_recordIndex
    (element : BitVec 32) (t : StreamType) :
    (preparedInput element).index t = (recordIndex element t : Int) := by
  rw [recordIndex, preparedInput_index]
  split <;> rfl

theorem recordIndex_ne
    (ht : hasElement element t = true) (hstream : hasElement element stream = true)
    (hne : stream ≠ t) : recordIndex element stream ≠ recordIndex element t := by
  simp only [recordIndex, preparedInput_index]
  cases t <;> cases stream <;> simp_all

/-- The streams of the mask have their records and their indices. -/
structure AllRegistered (element : BitVec 32) (p : StreamerInput) : Prop where
  types : p.pInputStastic.types = (preparedInput element).pInputStastic.types
  index : ∀ stream, p.index stream = (recordIndex element stream : Int)

theorem AllRegistered.of_same
    (h : AllRegistered element p) (hsame : SameStreams p p') :
    AllRegistered element p' :=
  ⟨hsame.types.trans h.types,
    fun stream => (congrFun hsame.index stream).trans (h.index stream)⟩

theorem AllRegistered.wellFormed
    (h : AllRegistered element p) : p.pInputStastic.WellFormed := by
  have hlength := congrArg List.length h.types
  rw [preparedInput_types, StreamerStatistician.types, List.length_map] at hlength
  rw [StreamerStatistician.WellFormed, hlength]
  split <;> split <;> decide

theorem AllRegistered.registered_iff
    (h : AllRegistered element p) :
    t.koalaType ∈ p.pInputStastic.types ↔ hasElement element t = true := by
  rw [h.types, preparedInput_types]
  cases t <;> cases hasElement element .audio <;> cases hasElement element .video <;>
    simp [StreamType.koalaType]

/-- The begin of a frame of some stream, seen from the record of `t`. -/
theorem AllRegistered.callbackBegin
    (h : AllRegistered element p)
    (ht : hasElement element t = true) (hstream : hasElement element stream = true)
    (hr : p.pInputStastic.streamers[recordIndex element t]? = some r)
    (clock : BeginClock) :
    (callbackBegin p stream clock).pInputStastic.streamers[recordIndex element t]? =
      some (if stream = t then r.frameBegin clock else r) := by
  simp only [KoalaStreamer.callbackBegin, h.index, streamers_onFrameBegin h.wellFormed]
  by_cases hsame : stream = t
  · subst hsame
    rw [List.getElem?_modify_eq, hr, if_pos rfl]
    rfl
  · rw [List.getElem?_modify_ne _ _ (recordIndex_ne ht hstream hsame), hr,
      if_neg hsame]

/-- The end of a frame of some stream, seen from the record of `t`. -/
theorem AllRegistered.callbackEnd
    (h : AllRegistered element p)
    (ht : hasElement element t = true) (hstream : hasElement element stream = true)
    (hr : p.pInputStastic.streamers[recordIndex element t]? = some r)
    (result : CallbackResult) (timeNow : Int) :
    (callbackEnd p stream result timeNow).pInputStastic.streamers[
        recordIndex element t]? =
      some (if stream = t ∧ WrapperCounts stream result then
        r.frameEnd result.frame timeNow else r) := by
  rcases callbackEnd_cases p stream result timeNow with ⟨hcounts, heq⟩ | ⟨hnot, heq⟩
  · rw [heq]
    simp only [h.index, streamers_onFrameEnd h.wellFormed]
    by_cases hsame : stream = t
    · subst hsame
      rw [List.getElem?_modify_eq, hr, if_pos ⟨rfl, hcounts⟩]
      rfl
    · rw [List.getElem?_modify_ne _ _ (recordIndex_ne ht hstream hsame), hr,
        if_neg fun hboth => hsame hboth.1]
  · rw [heq, hr, if_neg fun hboth => hnot hboth.2]

theorem getElem?_reset
    (p : StreamerStatistician) (now : ℕ → Int) (i : ℕ) :
    (resetStatistician p now).streamers[i]? =
      p.streamers[i]?.map fun r => r.reset (now i) :=
  List.getElem?_mapIdx

end Records

/-! ## One step -/

section Steps

variable {lib : LibAv} {element : BitVec 32} {t : StreamType} {s s' : StreamingState}
  {es : List StreamingEvent}

/-- A pass of the mux thread begins a frame or leaves the records alone. -/
theorem streamingStep_select
    {clock : BeginClock} {written : Int} {ended : Bool}
    (h : streamingStep lib s (.select clock written ended) = some (s', es)) :
    (∃ stream, s.mux.pHandle.haveStream stream = true ∧ s'.asking = some stream ∧
      s'.input = callbackBegin s.input stream clock) ∨
    (s'.asking = none ∧ s'.input = s.input) := by
  have halone : ∀ {answers : MuxAnswers}, muxPass lib s answers = some (s', es) →
      s'.asking = none ∧ s'.input = s.input := by
    intro answers hpass
    obtain ⟨mux, es', _, rfl, _⟩ := muxPass_move hpass
    exact ⟨rfl, rfl⟩
  cases hasking : s.asking with
  | some stream =>
      simp [streamingStep, hasking] at h
  | none =>
      simp only [streamingStep, hasking] at h
      split at h
      · cases h
      · split at h
        · rename_i stream _
          split at h
          · rename_i hhave
            cases h
            exact Or.inl ⟨stream, hhave, rfl, rfl⟩
          · exact Or.inr (halone h)
        · exact Or.inr (halone h)

/-- The answer of a callback ends a frame, if the wrapper counts it. -/
theorem streamingStep_answer
    {result : CallbackResult} {timeNow written : Int} {ended : Bool}
    (h : streamingStep lib s (.answer result timeNow written ended) = some (s', es)) :
    ∃ stream, s.asking = some stream ∧
      s'.input = callbackEnd s.input stream result timeNow := by
  cases hasking : s.asking with
  | none =>
      simp [streamingStep, hasking] at h
  | some stream =>
      simp only [streamingStep, hasking, Option.map_eq_some_iff, Prod.exists] at h
      obtain ⟨s₁, es₁, hpass, heq⟩ := h
      obtain ⟨mux, es', _, rfl, _⟩ := muxPass_move hpass
      cases heq
      exact ⟨stream, rfl, rfl⟩

end Steps

/-! ## Runs -/

section Live

variable {lib : LibAv} {element : BitVec 32} {t : StreamType} {p : StreamerInput}
  {view : List StreamSight}

/-- The record of the stream shows what the stream has seen since it was registered;
before that it has seen nothing. -/
def Tracked
    (element : BitVec 32) (t : StreamType) (view : List StreamSight)
    (p : StreamerInput) : Prop :=
  if t.koalaType ∈ p.pInputStastic.types then
    p.pInputStastic.streamers[recordIndex element t]? =
      some (view.foldl StreamStatistics.after (freshRecord t))
  else
    view = []

inductive LiveInv (element : BitVec 32) (t : StreamType) (view : List StreamSight) :
    LiveState → Prop
  | preparing {p : StreamerInput} {audioDone : Bool}
      (types : p.pInputStastic.types =
        if audioDone = true ∧ hasElement element .audio = true then [.audio] else [])
      (index : ∀ stream, p.index stream = 0)
      (empty : ∀ r ∈ p.pInputStastic.streamers, r.statistics.size = 0)
      (tracked : Tracked element t view p) :
      LiveInv element t view (.preparing p audioDone)
  | streaming {s : StreamingState}
      (inv : StreamingInv element s)
      (all : AllRegistered element s.input)
      (tracked : Tracked element t view s.input) :
      LiveInv element t view (.streaming s)

theorem Tracked.reset
    (live : LiveState) (h : Tracked element t view live.input) (now : ℕ → Int) :
    Tracked element t (view ++ resetSeen element t live now)
      (mediaStreamerResetStatistician live.input now) := by
  simp only [Tracked, resetSeen, LiveState.registered, mediaStreamerResetStatistician,
    types_reset, decide_eq_true_eq] at h ⊢
  split
  · rename_i hregistered
    rw [if_pos hregistered] at h
    rw [getElem?_reset, h, List.foldl_append]
    rfl
  · rename_i hnot
    rw [if_neg hnot] at h
    rw [h]
    rfl

/-! ### Preparation -/

theorem length_of_types
    {types : List KoalaStreamType} (h : p.pInputStastic.types = types) :
    p.pInputStastic.streamers.length = types.length := by
  rw [← h, StreamerStatistician.types, List.length_map]

/-- A stream gets a record, behind those that there are. -/
theorem addStream_of_room
    {q : StreamerStatistician} (hroom : q.streamers.length < maxStreames)
    (st : StreamType) :
    addStream q st.koalaType =
      ((q.streamers.length : Int), { q with streamers := q.streamers ++ [freshRecord st] }) := by
  rw [addStream, if_neg (Nat.not_le.mpr hroom)]
  rfl

/-- A stream that gets its record at its index is tracked from then on. -/
theorem Tracked.append
    {p' : StreamerInput} (h : Tracked element t view p) (st : StreamType)
    (hnew : st.koalaType ∉ p.pInputStastic.types)
    (hlength : p.pInputStastic.streamers.length = recordIndex element st)
    (hp' : p'.pInputStastic.streamers = p.pInputStastic.streamers ++ [freshRecord st]) :
    Tracked element t view p' := by
  have htypes : p'.pInputStastic.types = p.pInputStastic.types ++ [st.koalaType] := by
    simp only [StreamerStatistician.types, hp', List.map_append, List.map_singleton,
      freshRecord]
  simp only [Tracked, htypes, List.mem_append, List.mem_singleton, hp'] at h ⊢
  by_cases hsame : t = st
  · subst hsame
    rw [if_neg hnew] at h
    rw [if_pos (Or.inr rfl), ← hlength, List.getElem?_concat_length, h]
    rfl
  · have hother : ¬ t.koalaType = st.koalaType := fun heq =>
      hsame (koalaType_injective.mp heq)
    simp only [hother, or_false]
    split
    · rename_i hregistered
      rw [if_pos hregistered] at h
      obtain ⟨hlt, _⟩ := List.getElem?_eq_some_iff.mp h
      rw [List.getElem?_append_left hlt]
      exact h
    · rename_i hnot
      rw [if_neg hnot] at h
      exact h

theorem registerAudio_of_has
    (hroom : p.pInputStastic.streamers.length < maxStreames)
    (haudio : hasElement element .audio = true) :
    registerAudio p element =
      { p with
        pInputStastic :=
          { p.pInputStastic with
            streamers := p.pInputStastic.streamers ++ [freshRecord .audio] }
        audioInputStasticIndex := p.pInputStastic.streamers.length } := by
  have hadd := addStream_of_room hroom .audio
  simp only [StreamType.koalaType] at hadd
  rw [registerAudio, if_pos haudio, hadd]

theorem registerVideo_of_has
    (hroom : p.pInputStastic.streamers.length < maxStreames)
    (hvideo : hasElement element .video = true) :
    registerVideo p element =
      { p with
        pInputStastic :=
          { p.pInputStastic with
            streamers := p.pInputStastic.streamers ++ [freshRecord .video] }
        videoInputStasticIndex := p.pInputStastic.streamers.length } := by
  have hadd := addStream_of_room hroom .video
  simp only [StreamType.koalaType] at hadd
  rw [registerVideo, if_pos hvideo, hadd]

theorem liveInv_registerAudio
    (h : LiveInv element t view (.preparing p false)) :
    LiveInv element t view (.preparing (registerAudio p element) true) := by
  cases h with
  | preparing types index empty tracked =>
      have htypes : p.pInputStastic.types = [] := by simpa using types
      have hlength : p.pInputStastic.streamers.length = 0 := length_of_types htypes
      by_cases haudio : hasElement element .audio = true
      · have hnone := List.eq_nil_of_length_eq_zero hlength
        rw [registerAudio_of_has (by rw [hlength]; decide) haudio]
        refine .preparing ?_ ?_ ?_ (tracked.append .audio ?_ ?_ rfl)
        · simp [StreamerStatistician.types, hnone, haudio, freshRecord,
            StreamType.koalaType]
        · intro stream
          have hindex := index stream
          cases stream with
          | video =>
              exact hindex
          | audio =>
              simp [StreamerInput.index, hlength]
        · simp [hnone, freshRecord, StatisticsData.zero]
        · simp [htypes]
        · simp [hlength, recordIndex, preparedInput_index]
      · rw [registerAudio, if_neg haudio]
        exact .preparing (by simp [htypes, haudio]) index empty tracked

/-- The mux thread begins. -/
theorem liveInv_registerVideo
    {mMuxer : KoalaMuxer}
    (h : LiveInv element t view (.preparing p true))
    (hhave : mMuxer.haveStream = hasElement element) :
    LiveInv element t view (.streaming
      { mux := MuxState.start mMuxer
        input := registerVideo p element
        asking := none }) := by
  cases h with
  | preparing types index empty tracked =>
      have hlength := length_of_types types
      simp only [true_and] at hlength types
      have hboth : AllRegistered element (registerVideo p element) ∧
          Tracked element t view (registerVideo p element) := by
        by_cases hvideo : hasElement element .video = true
        · have hroom : p.pInputStastic.streamers.length < maxStreames := by
            rw [hlength]
            split <;> decide
          rw [registerVideo_of_has hroom hvideo]
          have hindex : p.pInputStastic.streamers.length = recordIndex element .video := by
            rw [hlength, recordIndex, preparedInput_index]
            cases haudio : hasElement element .audio <;> simp [hvideo]
          refine ⟨⟨?_, ?_⟩, tracked.append .video ?_ hindex rfl⟩
          · rw [preparedInput_types, if_pos hvideo, ← types]
            simp [StreamerStatistician.types, freshRecord, StreamType.koalaType]
          · intro stream
            cases stream with
            | video =>
                exact congrArg Nat.cast hindex
            | audio =>
                have hzero : recordIndex element .audio = 0 := by
                  rw [recordIndex, preparedInput_index]
                  simp
                rw [hzero]
                exact index .audio
          · rw [types]
            split <;> simp [StreamType.koalaType]
        · rw [registerVideo, if_neg hvideo]
          refine ⟨⟨?_, ?_⟩, tracked⟩
          · simp [types, preparedInput_types, hvideo]
          · intro stream
            rw [index stream, recordIndex, preparedInput_index, if_neg (by simp [hvideo])]
            rfl
      refine .streaming ⟨?_, hhave, fun _ hst => by cases hst⟩ hboth.1 hboth.2
      refine (preparedInput_records element).of_same ⟨hboth.1.types, ?_⟩
      funext stream
      rw [preparedInput_recordIndex]
      exact hboth.1.index stream

/-! ### The mux thread -/

theorem AllRegistered.tracked_iff
    (h : AllRegistered element p) :
    Tracked element t view p ↔
      if hasElement element t = true then
        p.pInputStastic.streamers[recordIndex element t]? =
          some (view.foldl StreamStatistics.after (freshRecord t))
      else view = [] := by
  rw [Tracked]
  by_cases ht : hasElement element t = true
  · rw [if_pos (h.registered_iff.mpr ht), if_pos ht]
  · rw [if_neg fun hmem => ht (h.registered_iff.mp hmem), if_neg ht]

/-- What a step makes of the record of a stream is what the stream sees of it. -/
theorem AllRegistered.tracked_step
    {p' : StreamerInput} {stream : StreamType} {news : List StreamSight}
    (h : AllRegistered element p) (h' : AllRegistered element p')
    (hstream : hasElement element stream = true)
    (hother : stream ≠ t → news = [])
    (hrecord : ∀ r, hasElement element t = true →
      p.pInputStastic.streamers[recordIndex element t]? = some r →
      p'.pInputStastic.streamers[recordIndex element t]? =
        some (news.foldl StreamStatistics.after r))
    (htracked : Tracked element t view p) :
    Tracked element t (view ++ news) p' := by
  rw [h.tracked_iff] at htracked
  rw [h'.tracked_iff]
  by_cases ht : hasElement element t = true
  · rw [if_pos ht] at htracked ⊢
    rw [hrecord _ ht htracked, List.foldl_append]
  · rw [if_neg ht] at htracked ⊢
    have hne : stream ≠ t := by
      rintro rfl
      exact ht hstream
    rw [htracked, hother hne]
    rfl

section Seen

variable {s s' : StreamingState} {es : List StreamingEvent} {stream : StreamType}

theorem seen_begun
    {clock : BeginClock} {written : Int} {ended : Bool}
    (h : s'.asking = some stream) :
    seen element t ⟨.streaming s, .streaming (.select clock written ended), es,
      .streaming s'⟩ = if stream = t then [.begun clock] else [] := by
  simp [seen, LiveState.asking, h]

theorem seen_alone
    {clock : BeginClock} {written : Int} {ended : Bool}
    (h : s'.asking = none) :
    seen element t ⟨.streaming s, .streaming (.select clock written ended), es,
      .streaming s'⟩ = [] := by
  simp [seen, LiveState.asking, h]

theorem seen_answered
    {result : CallbackResult} {timeNow written : Int} {ended : Bool}
    (h : s.asking = some stream) :
    seen element t ⟨.streaming s, .streaming (.answer result timeNow written ended), es,
      .streaming s'⟩ =
      if stream = t ∧ WrapperCounts stream result then
        [.delivered result.frame timeNow]
      else [] := by
  by_cases hsame : stream = t
  · subst hsame
    simp [seen, LiveState.asking, h]
  · simp [seen, LiveState.asking, h, hsame]

end Seen

/-- A step of the mux thread or a reset shows in the record of a stream exactly as
far as the stream sees it. -/
theorem liveInv_streaming
    {s s' : StreamingState} {a : StreamingAction} {es : List StreamingEvent}
    (h : LiveInv element t view (.streaming s))
    (hstep : streamingStep lib s a = some (s', es)) :
    LiveInv element t
      (view ++ seen element t ⟨.streaming s, .streaming a, es, .streaming s'⟩)
      (.streaming s') := by
  cases h with
  | streaming inv all tracked =>
      have hnext := (streamingStep_move hstep).inv inv
      cases a with
      | reset now =>
          obtain ⟨rfl, rfl⟩ := Prod.mk.inj (Option.some.inj hstep)
          exact .streaming hnext (all.of_same (sameStreams_reset _ now))
            (Tracked.reset (.streaming s) tracked now)
      | select clock written ended =>
          rcases streamingStep_select hstep with
            ⟨stream, hhave, hasking, hinput⟩ | ⟨hasking, hinput⟩
          · rw [inv.haveStream] at hhave
            have hall := all.of_same (sameStreams_callbackBegin _ stream clock)
            refine .streaming hnext (hinput ▸ hall) ?_
            rw [hinput, seen_begun hasking]
            refine all.tracked_step hall hhave (fun hne => if_neg hne) ?_ tracked
            intro r ht hr
            rw [all.callbackBegin ht hhave hr clock]
            split <;> rfl
          · rw [seen_alone hasking, List.append_nil]
            exact .streaming hnext (hinput ▸ all) (hinput ▸ tracked)
      | answer result timeNow written ended =>
          obtain ⟨stream, hasking, hinput⟩ := streamingStep_answer hstep
          have hhave := inv.asking stream hasking
          have hall := all.of_same (sameStreams_callbackEnd _ stream result timeNow)
          refine .streaming hnext (hinput ▸ hall) ?_
          rw [hinput, seen_answered hasking]
          refine all.tracked_step hall hhave (fun hne => if_neg fun h => hne h.1) ?_ tracked
          intro r ht hr
          rw [all.callbackEnd ht hhave hr result timeNow]
          split <;> rfl

/-! ### Whole runs -/

theorem liveInv_start : LiveInv element t [] LiveState.start := by
  refine .preparing ?_ ?_ ?_ ?_
  · rfl
  · intro stream
    cases stream <;> rfl
  · simp [createStreamerInput, streamerStatisticianCreate]
  · simp [Tracked, createStreamerInput, streamerStatisticianCreate,
      StreamerStatistician.types]

theorem liveStep_inv
    {mMuxer : KoalaMuxer} {live live' : LiveState} {a : LiveAction}
    {es : List StreamingEvent}
    (hhave : mMuxer.haveStream = hasElement element)
    (h : LiveInv element t view live)
    (hstep : liveStep lib element mMuxer live a = some (live', es)) :
    LiveInv element t (view ++ seen element t ⟨live, a, es, live'⟩) live' := by
  cases live with
  | preparing p audioDone =>
      cases a with
      | registerAudio =>
          cases audioDone with
          | false =>
              cases hstep
              rw [seen, List.append_nil]
              exact liveInv_registerAudio h
          | true =>
              cases hstep
      | registerVideo =>
          cases audioDone with
          | false =>
              cases hstep
          | true =>
              cases hstep
              rw [seen, List.append_nil]
              exact liveInv_registerVideo h hhave
      | reset now =>
          have hnext : LiveInv element t
              (view ++ resetSeen element t (.preparing p audioDone) now)
              (.preparing (mediaStreamerResetStatistician p now) audioDone) := by
            cases h with
            | preparing types index empty tracked =>
                have hsame := sameStreams_reset p now
                refine .preparing (hsame.types.trans types) ?_ ?_
                  (Tracked.reset (.preparing p audioDone) tracked now)
                · intro stream
                  exact (congrFun hsame.index stream).trans (index stream)
                · intro r hr
                  obtain ⟨i, _, rfl⟩ := List.mem_mapIdx.mp hr
                  rfl
          cases audioDone <;> cases hstep <;> exact hnext
      | streaming a =>
          cases audioDone <;> cases hstep
  | streaming s =>
      cases a with
      | streaming a =>
          simp only [liveStep, Option.map_eq_some_iff, Prod.exists] at hstep
          obtain ⟨s', es', hstep, heq⟩ := hstep
          cases heq
          exact liveInv_streaming h hstep
      | registerAudio =>
          cases hstep
      | registerVideo =>
          cases hstep
      | reset now =>
          cases hstep

variable {mMuxer : KoalaMuxer} {live : LiveState} {tr : List LiveTransition}

theorem run_liveInv
    (hhave : mMuxer.haveStream = hasElement element) (t : StreamType)
    (run : Run (liveStep lib element mMuxer) LiveState.start tr live) :
    LiveInv element t (sights element t tr) live := by
  refine Run.invariant (fun tr live => LiveInv element t (sights element t tr) live)
    ?_ ?_ run
  · exact liveInv_start
  · intro tr live a es live' hinv hstep
    rw [sights, List.flatMap_append, List.flatMap_singleton]
    exact liveStep_inv hhave hinv hstep

/-! ## The bit rate -/

theorem mediaStreamerGetStreamBitRate_eq
    (cast : UintCast) (p : StreamerInput) (t : StreamType) (timeNow : Int) :
    mediaStreamerGetStreamBitRate cast p t timeNow =
      getStreamBitRate cast p.pInputStastic (p.index t) timeNow := by
  cases t <;> rfl

/-- Without bytes the bit rate is 0. -/
theorem bitRate_of_empty
    (cast : UintCast) {r : StreamStatistics} (h : r.statistics.size = 0) (timeNow : Int) :
    r.bitRate cast timeNow = 0 := by
  simp only [StreamStatistics.bitRate, h]
  split
  · rfl
  · rename_i hne
    exact cast.zero_div hne

theorem getStreamBitRate_of_some
    (cast : UintCast) {q : StreamerStatistician} {i : ℕ} {r : StreamStatistics}
    (h : q.streamers[i]? = some r) (timeNow : Int) :
    getStreamBitRate cast q i timeNow = r.bitRate cast timeNow := by
  rw [getStreamBitRate, StreamerStatistician.streamerAt, if_neg (by omega),
    Int.toNat_natCast, h]

theorem getStreamBitRate_of_empty
    (cast : UintCast) {q : StreamerStatistician}
    (h : ∀ r ∈ q.streamers, r.statistics.size = 0) (i : ℕ) (timeNow : Int) :
    getStreamBitRate cast q i timeNow = 0 := by
  cases hr : q.streamers[i]? with
  | none =>
      rw [getStreamBitRate, StreamerStatistician.streamerAt, if_neg (by omega),
        Int.toNat_natCast, hr]
  | some r =>
      rw [getStreamBitRate_of_some cast hr]
      exact bitRate_of_empty cast (h r (List.mem_of_getElem? hr)) timeNow

/-- The bit rate of a stream of the mask, from what the stream has seen. -/
theorem LiveInv.bitRate
    (h : LiveInv element t view live) (ht : hasElement element t = true)
    (cast : UintCast) (timeNow : Int) :
    mediaStreamerGetStreamBitRate cast live.input t timeNow =
      (view.foldl StreamStatistics.after (freshRecord t)).bitRate cast timeNow := by
  rw [mediaStreamerGetStreamBitRate_eq]
  cases h with
  | preparing types index empty tracked =>
      have hzero := getStreamBitRate_of_empty cast empty 0 timeNow
      rw [LiveState.input, index t]
      refine hzero.trans (bitRate_of_empty cast ?_ timeNow).symm
      rw [Tracked] at tracked
      split at tracked
      · exact empty _ (List.mem_of_getElem? tracked)
      · rw [tracked]
        rfl
  | streaming inv all tracked =>
      rw [all.tracked_iff, if_pos ht] at tracked
      rw [LiveState.input, all.index t]
      exact getStreamBitRate_of_some cast tracked timeNow

theorem LiveInv.bitRate_preparing
    {audioDone : Bool} (h : LiveInv element t view (.preparing p audioDone))
    (cast : UintCast) (timeNow : Int) :
    mediaStreamerGetStreamBitRate cast p t timeNow = 0 := by
  cases h with
  | preparing types index empty tracked =>
      rw [mediaStreamerGetStreamBitRate_eq, index t]
      exact getStreamBitRate_of_empty cast empty 0 timeNow

/-- Without any stream there is no bit rate. -/
theorem LiveInv.bitRate_none
    (h : LiveInv element t view live)
    (ht : hasElement element t = false) (hother : hasElement element t.other = false)
    (cast : UintCast) (timeNow : Int) :
    mediaStreamerGetStreamBitRate cast live.input t timeNow = 0 := by
  cases live with
  | preparing p audioDone =>
      exact h.bitRate_preparing cast timeNow
  | streaming s =>
      cases h with
      | streaming inv all tracked =>
          have hlength := length_of_types (all.types.trans (preparedInput_types element))
          have hnone : s.input.pInputStastic.streamers = [] := by
            refine List.eq_nil_of_length_eq_zero (hlength.trans ?_)
            cases t <;> simp_all [StreamType.other]
          rw [mediaStreamerGetStreamBitRate_eq, LiveState.input, all.index t]
          exact getStreamBitRate_of_empty cast (by simp [hnone]) _ timeNow

/-- A stream of the mask has bit rate 0 until it is registered. -/
theorem LiveInv.bitRate_unregistered
    (h : LiveInv element t view live) (ht : hasElement element t = true)
    (hnot : live.registered t = false) (cast : UintCast) (timeNow : Int) :
    mediaStreamerGetStreamBitRate cast live.input t timeNow = 0 := by
  cases live with
  | preparing p audioDone =>
      exact h.bitRate_preparing cast timeNow
  | streaming s =>
      cases h with
      | streaming inv all tracked =>
          exact absurd (all.registered_iff.mpr ht) (of_decide_eq_false hnot)

end Live

end KoalaStreamer
