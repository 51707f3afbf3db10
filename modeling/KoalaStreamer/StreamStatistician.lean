import KoalaStreamer.MediaFrame
import Mathlib.Algebra.Order.Ring.Int
import Mathlib.Data.List.Nodup
import Mathlib.Tactic.Basic

/-!
# streamStatistician.c: the counters of the input streams

A statistician has a record for each registered stream, with the counters of
the current period and those of the periods before it.  The counters are
unsigned 64-bit numbers; the readings of the clock are arguments.

Main results, for what is recorded for a stream in all periods together:
* `recorded_onFrameBegin`, `recorded_reset`: it is not changed by the begin of a
  frame and by a reset;
* `recorded_onFrameEnd`: the end of a frame adds the frame to its stream only.
-/

namespace KoalaStreamer

/-- `Stream_type` of koala_type.h. -/
inductive KoalaStreamType
  | unknown
  | video
  | audio
  | sub
  | num
deriving DecidableEq, Repr

/-- `statistics_data`. -/
structure StatisticsData where
  size : BitVec 64
  frames : BitVec 64
  waitMs : BitVec 64
  waitTimes : BitVec 64
  startTime : Int
deriving DecidableEq, Repr

/-- All bytes zero. -/
def StatisticsData.zero : StatisticsData where
  size := 0
  frames := 0
  waitMs := 0
  waitTimes := 0
  startTime := 0

/-- `stream_statistics`. -/
structure StreamStatistics where
  total : StatisticsData
  statistics : StatisticsData
  frameStartTime : Int
  type : KoalaStreamType
deriving DecidableEq, Repr

/-- `streamerStatistician`; `streamers` holds the first `streamerNum` entries of
the array, the others are NULL. -/
structure StreamerStatistician where
  streamers : List StreamStatistics
  startTime : Int
deriving DecidableEq, Repr

/-- `MAX_STREAMES`. -/
def maxStreames : ℕ := 8

/-- The readings of the clock that one call of `onFrameBegin` can take. -/
structure BeginClock where
  start : Int
  period : Int
  frame : Int
deriving DecidableEq, Repr

/-- `streamerStatisticianCreate`. -/
def streamerStatisticianCreate : StreamerStatistician where
  streamers := []
  startTime := 0

/-- `streamerStatistician_addStream`: the index of the new record, or -1. -/
def addStream
    (pHandle : StreamerStatistician) (type : KoalaStreamType) :
    Int × StreamerStatistician :=
  if pHandle.streamers.length ≥ maxStreames then
    (-1, pHandle)
  else
    (pHandle.streamers.length,
      { pHandle with
        streamers := pHandle.streamers ++
          [{ total := .zero, statistics := .zero, frameStartTime := 0,
             type := type }] })

namespace StreamerStatistician

/-- `streamers[index]`, `none` for NULL.  A negative index would be outside the
array; the indices in use are those that `addStream` gave for a new record. -/
def streamerAt
    (pHandle : StreamerStatistician) (index : Int) : Option StreamStatistics :=
  if index < 0 then none else pHandle.streamers[index.toNat]?

/-- `*streamers[index] = pStream`. -/
def setStreamer
    (pHandle : StreamerStatistician) (index : Int) (pStream : StreamStatistics) :
    StreamerStatistician :=
  { pHandle with streamers := pHandle.streamers.set index.toNat pStream }

end StreamerStatistician

/-- The part of `onFrameBegin` that works on the record of the stream. -/
def StreamStatistics.frameBegin
    (pStream : StreamStatistics) (clock : BeginClock) : StreamStatistics :=
  { pStream with
    statistics :=
      { pStream.statistics with
        startTime :=
          if pStream.statistics.startTime = 0 then clock.period
          else pStream.statistics.startTime }
    frameStartTime := clock.frame }

/-- `streamerStatistician_onFrameBegin`; its frame argument is not used. -/
def onFrameBegin
    (pHandle : StreamerStatistician) (index : Int) (clock : BeginClock) :
    StreamerStatistician :=
  if index ≥ maxStreames then
    pHandle
  else
    match pHandle.streamerAt index with
    | none => pHandle
    | some pStream =>
        StreamerStatistician.setStreamer
          { pHandle with
            startTime :=
              if pHandle.startTime = 0 then clock.start else pHandle.startTime }
          index (pStream.frameBegin clock)

/-- The part of `onFrameEnd` that works on the record of the stream. -/
def StreamStatistics.frameEnd
    (pStream : StreamStatistics) (frame : MediaFrame) (timeNow : Int) :
    StreamStatistics :=
  let delayTimeMs := (timeNow - pStream.frameStartTime).tdiv 1000
  { pStream with
    statistics :=
      { pStream.statistics with
        frames := pStream.statistics.frames + 1
        size := pStream.statistics.size + BitVec.ofInt 64 frame.size
        waitTimes :=
          if delayTimeMs ≥ 10 then pStream.statistics.waitTimes + 1
          else pStream.statistics.waitTimes
        waitMs :=
          if delayTimeMs ≥ 10 then
            pStream.statistics.waitMs + BitVec.ofInt 64 delayTimeMs
          else pStream.statistics.waitMs } }

/-- `streamerStatistician_onFrameEnd`; a NULL frame is `none`. -/
def onFrameEnd
    (pHandle : StreamerStatistician) (index : Int) (frame : Option MediaFrame)
    (timeNow : Int) : StreamerStatistician :=
  match frame with
  | none => pHandle
  | some frame =>
      if index ≥ maxStreames then
        pHandle
      else
        match pHandle.streamerAt index with
        | none => pHandle
        | some pStream =>
            pHandle.setStreamer index (pStream.frameEnd frame timeNow)

/-- What `reset` does with one record. -/
def StreamStatistics.reset
    (pStream : StreamStatistics) (now : Int) : StreamStatistics :=
  { pStream with
    total :=
      { pStream.total with
        size := pStream.total.size + pStream.statistics.size
        frames := pStream.total.frames + pStream.statistics.frames
        waitMs := pStream.total.waitMs + pStream.statistics.waitMs
        waitTimes := pStream.total.waitTimes + pStream.statistics.waitTimes }
    statistics := { StatisticsData.zero with startTime := now } }

/-- `streamerStatistician_reset`; the clock is read once for each record. -/
def resetStatistician
    (pHandle : StreamerStatistician) (now : ℕ → Int) : StreamerStatistician :=
  { pHandle with
    streamers := pHandle.streamers.mapIdx fun i pStream => pStream.reset (now i) }

/-! ## What is recorded -/

/-- Frames and bytes counted for a stream. -/
structure Recorded where
  frames : BitVec 64
  size : BitVec 64
deriving DecidableEq, Repr

/-- All periods together: total plus current period. -/
def StreamStatistics.recorded (pStream : StreamStatistics) : Recorded where
  frames := pStream.total.frames + pStream.statistics.frames
  size := pStream.total.size + pStream.statistics.size

/-- What `frames` amount to. -/
def Recorded.ofFrames (frames : List MediaFrame) : Recorded where
  frames := BitVec.ofNat 64 frames.length
  size := BitVec.ofInt 64 (frames.map (·.size)).sum

/-- One more frame. -/
def Recorded.add (r : Recorded) (frame : MediaFrame) : Recorded where
  frames := r.frames + 1
  size := r.size + BitVec.ofInt 64 frame.size

theorem Recorded.ofFrames_snoc
    (frames : List MediaFrame) (frame : MediaFrame) :
    Recorded.ofFrames (frames ++ [frame]) = (Recorded.ofFrames frames).add frame := by
  simp [Recorded.ofFrames, Recorded.add, BitVec.ofNat_add, BitVec.ofInt_add]

/-- One frame more is never the same number of frames. -/
theorem Recorded.add_ne
    (r : Recorded) (frame : MediaFrame) :
    r.add frame ≠ r := by
  intro h
  have hframes := congrArg Recorded.frames h
  simp [Recorded.add] at hframes

@[simp] theorem StreamStatistics.recorded_frameBegin
    (pStream : StreamStatistics) (clock : BeginClock) :
    (pStream.frameBegin clock).recorded = pStream.recorded := by
  rfl

@[simp] theorem StreamStatistics.recorded_frameEnd
    (pStream : StreamStatistics) (frame : MediaFrame) (timeNow : Int) :
    (pStream.frameEnd frame timeNow).recorded = pStream.recorded.add frame := by
  simp only [StreamStatistics.recorded, StreamStatistics.frameEnd, Recorded.add,
    BitVec.add_assoc]

@[simp] theorem StreamStatistics.recorded_reset
    (pStream : StreamStatistics) (now : Int) :
    (pStream.reset now).recorded = pStream.recorded := by
  simp [StreamStatistics.recorded, StreamStatistics.reset, StatisticsData.zero]

section Records

variable {p : StreamerStatistician} {index : Int} {r : StreamStatistics}

/-- The record of a stream. -/
def StreamerStatistician.record
    (pHandle : StreamerStatistician) (type : KoalaStreamType) :
    Option StreamStatistics :=
  pHandle.streamers.find? (·.type = type)

/-- What is recorded for a stream; nothing for one that is not registered. -/
def StreamerStatistician.recorded
    (pHandle : StreamerStatistician) (type : KoalaStreamType) : Recorded :=
  ((pHandle.record type).map (·.recorded)).getD ⟨0, 0⟩

/-- The streams in the order of their registration. -/
def StreamerStatistician.types
    (pHandle : StreamerStatistician) : List KoalaStreamType :=
  pHandle.streamers.map (·.type)

theorem streamerAt_eq_some
    (h : p.streamerAt index = some r) :
    0 ≤ index ∧ p.streamers[index.toNat]? = some r := by
  simp only [StreamerStatistician.streamerAt] at h
  split at h
  · cases h
  · exact ⟨by omega, h⟩

/-- Writing a record that keeps its stream changes what is found for it only. -/
theorem find?_set
    {l : List StreamStatistics} {i : ℕ} {r r' : StreamStatistics}
    (hdistinct : (l.map (·.type)).Nodup)
    (hi : l[i]? = some r)
    (htype : r'.type = r.type)
    (type : KoalaStreamType) :
    (l.set i r').find? (·.type = type) =
      if type = r.type then some r' else l.find? (·.type = type) := by
  induction l generalizing i with
  | nil =>
      simp at hi
  | cons x l ih =>
      rw [List.map_cons, List.nodup_cons] at hdistinct
      cases i with
      | zero =>
          obtain rfl : x = r := by simpa using hi
          by_cases ht : type = x.type
          · simp [ht, htype]
          · have hx : x.type ≠ type := fun h => ht h.symm
            simp [ht, htype, hx]
      | succ i =>
          simp only [List.getElem?_cons_succ] at hi
          have hne : x.type ≠ r.type := by
            intro heq
            apply hdistinct.1
            rw [heq]
            exact List.mem_map_of_mem (List.mem_of_getElem? hi)
          rw [List.set_cons_succ, List.find?_cons, List.find?_cons,
            ih hdistinct.2 hi]
          by_cases ht : type = r.type
          · have hx : x.type ≠ type := fun h => hne (h.trans ht)
            simp [ht, hne]
          · by_cases hx : x.type = type <;> simp [hx, ht]

/-- Writing a record that keeps its stream keeps the list of streams. -/
theorem types_setStreamer
    {r' : StreamStatistics}
    (hi : p.streamerAt index = some r)
    (htype : r'.type = r.type) :
    (p.setStreamer index r').types = p.types := by
  obtain ⟨_, hget⟩ := streamerAt_eq_some hi
  simp only [StreamerStatistician.setStreamer, StreamerStatistician.types]
  rw [List.map_set, htype]
  refine List.ext_getElem? fun i => ?_
  rw [List.getElem?_set]
  split
  · rename_i heq
    subst heq
    obtain ⟨hlt, hr⟩ := List.getElem?_eq_some_iff.mp hget
    simp [hlt, hr]
  · rfl

/-- The record at an index is the record of its stream. -/
theorem record_of_streamerAt
    (hdistinct : p.types.Nodup)
    (hi : p.streamerAt index = some r) :
    p.record r.type = some r := by
  obtain ⟨_, hget⟩ := streamerAt_eq_some hi
  have hset := find?_set hdistinct hget rfl r.type
  rw [if_pos rfl] at hset
  have hsame : p.streamers.set index.toNat r = p.streamers := by
    obtain ⟨hlt, hr⟩ := List.getElem?_eq_some_iff.mp hget
    rw [← hr]
    exact List.set_getElem_self hlt
  rw [hsame] at hset
  exact hset

/-- Writing a record changes what is recorded for its stream only. -/
theorem recorded_setStreamer
    (r' : StreamStatistics)
    (hdistinct : p.types.Nodup)
    (hi : p.streamerAt index = some r)
    (htype : r'.type = r.type)
    (type : KoalaStreamType) :
    (p.setStreamer index r').recorded type =
      if type = r.type then r'.recorded else p.recorded type := by
  obtain ⟨_, hget⟩ := streamerAt_eq_some hi
  have hset := find?_set hdistinct hget htype type
  simp only [StreamerStatistician.recorded, StreamerStatistician.record,
    StreamerStatistician.setStreamer, hset]
  by_cases ht : type = r.type
  · simp [ht]
  · simp [ht]

/-! ### The operations -/

theorem types_onFrameBegin
    (p : StreamerStatistician) (index : Int) (clock : BeginClock) :
    (onFrameBegin p index clock).types = p.types := by
  simp only [onFrameBegin]
  split
  · rfl
  · cases hi : p.streamerAt index with
    | none =>
        rfl
    | some r =>
        exact types_setStreamer (p := { p with startTime := _ }) hi rfl

theorem types_onFrameEnd
    (p : StreamerStatistician) (index : Int) (frame : Option MediaFrame)
    (timeNow : Int) :
    (onFrameEnd p index frame timeNow).types = p.types := by
  cases frame with
  | none =>
      rfl
  | some frame =>
      simp only [onFrameEnd]
      split
      · rfl
      · cases hi : p.streamerAt index with
        | none =>
            rfl
        | some r =>
            exact types_setStreamer hi rfl

theorem types_reset
    (p : StreamerStatistician) (now : ℕ → Int) :
    (resetStatistician p now).types = p.types := by
  simp only [resetStatistician, StreamerStatistician.types]
  induction p.streamers generalizing now with
  | nil =>
      rfl
  | cons x l ih =>
      rw [List.mapIdx_cons, List.map_cons, List.map_cons]
      exact congrArg _ (ih fun i => now (i + 1))

/-- The begin of a frame records nothing. -/
theorem recorded_onFrameBegin
    (hdistinct : p.types.Nodup)
    (index : Int) (clock : BeginClock) (type : KoalaStreamType) :
    (onFrameBegin p index clock).recorded type = p.recorded type := by
  simp only [onFrameBegin]
  split
  · rfl
  · cases hi : p.streamerAt index with
    | none =>
        rfl
    | some r =>
        have hrecord := record_of_streamerAt hdistinct hi
        have hset := recorded_setStreamer (p := { p with startTime := _ })
          (r.frameBegin clock) hdistinct hi rfl type
        refine hset.trans ?_
        split
        · rename_i ht
          subst ht
          simp [StreamerStatistician.recorded, hrecord]
        · rfl

/-- The end of a frame records the frame for its stream. -/
theorem recorded_onFrameEnd
    (hdistinct : p.types.Nodup)
    (hindex : index < maxStreames)
    (hi : p.streamerAt index = some r)
    (frame : MediaFrame) (timeNow : Int) (type : KoalaStreamType) :
    (onFrameEnd p index (some frame) timeNow).recorded type =
      if type = r.type then (p.recorded type).add frame else p.recorded type := by
  have hrecord := record_of_streamerAt hdistinct hi
  have hset := recorded_setStreamer (r.frameEnd frame timeNow) hdistinct hi
    rfl type
  simp only [onFrameEnd, hi, if_neg (show ¬ index ≥ maxStreames by omega)]
  refine hset.trans ?_
  split
  · rename_i ht
    subst ht
    simp [StreamerStatistician.recorded, hrecord]
  · rfl

/-- A reset moves what is recorded to the total and loses nothing. -/
theorem recorded_reset
    (p : StreamerStatistician) (now : ℕ → Int) (type : KoalaStreamType) :
    (resetStatistician p now).recorded type = p.recorded type := by
  simp only [resetStatistician, StreamerStatistician.recorded,
    StreamerStatistician.record]
  congr 1
  induction p.streamers generalizing now with
  | nil =>
      rfl
  | cons x l ih =>
      rw [List.mapIdx_cons, List.find?_cons, List.find?_cons]
      have htype : (x.reset (now 0)).type = x.type := rfl
      rw [htype]
      cases decide (x.type = type) with
      | true =>
          simp
      | false =>
          exact ih fun i => now (i + 1)

end Records

end KoalaStreamer
