import KoalaStreamer.StreamBitRate

/-!
# MediaStreamer.c: the bit rates of the two streams

The bit rate of a stream counts from its last reset, or else from the begin of its
first frame.  `mux_thread` asks for video first.  So the first audio frame begins
when the video frames let it, and an audio bit rate shows when they came.

Two runs are compared by what a stream is delivered, by the resets, and by the clock
when `mux_thread` makes its first pass.  When the later frames begin is not
compared: it is up to the streamer.

Main result:
* `bit_rates_apart_iff`: the bit rate of a stream is determined by these, and is 0 as
  long as the stream is not registered, if and only if the mask does not contain the
  other stream, or the stream is video and the mask contains it.
-/

namespace KoalaStreamer

open EventMachine
open SingleFloat

/-! ## The period of a record -/

section Period

variable {t : StreamType} {r : StreamStatistics} {view : List StreamSight}

/-- What comes to the streamer from outside: a frame or a reset. -/
def StreamSight.isInput : StreamSight → Bool
  | .begun _ => false
  | .delivered _ _ => true
  | .reset _ => true

/-- The readings of the clock that start a period are positive. -/
def StreamSight.ClockRuns : StreamSight → Prop
  | .begun clock => 0 < clock.period
  | .delivered _ _ => True
  | .reset now => 0 < now

/-- The reading of the last reset. -/
def lastReset : List StreamSight → Option Int
  | [] => none
  | .reset now :: view => (lastReset view).or (some now)
  | .begun _ :: view => lastReset view
  | .delivered _ _ :: view => lastReset view

/-- The readings of the first begin. -/
def firstBegun : List StreamSight → Option BeginClock
  | [] => none
  | .begun clock :: _ => some clock
  | .delivered _ _ :: view => firstBegun view
  | .reset _ :: view => firstBegun view

/-- The bytes of the current period, after one more sight. -/
def bytesAfter (size : BitVec 64) : StreamSight → BitVec 64
  | .begun _ => size
  | .delivered frame _ => size + BitVec.ofInt 64 frame.size
  | .reset _ => 0

theorem firstBegun_append
    (view view' : List StreamSight) :
    firstBegun (view ++ view') = (firstBegun view).or (firstBegun view') := by
  induction view with
  | nil =>
      rfl
  | cons x view ih =>
      cases x with
      | begun clock =>
          rfl
      | _ =>
          exact ih

theorem lastReset_filter
    (view : List StreamSight) :
    lastReset (view.filter StreamSight.isInput) = lastReset view := by
  induction view with
  | nil =>
      rfl
  | cons x view ih =>
      cases x with
      | reset now =>
          exact congrArg (fun last => Option.or last (some now)) ih
      | _ =>
          exact ih

/-- A period starts with the last reset, or else with the first begin. -/
theorem startTime_after
    (hclock : ∀ x ∈ view, x.ClockRuns) :
    (view.foldl StreamStatistics.after r).statistics.startTime =
      (lastReset view).getD
        (if r.statistics.startTime = 0 then ((firstBegun view).map (·.period)).getD 0
          else r.statistics.startTime) := by
  induction view generalizing r with
  | nil =>
      simp [lastReset, firstBegun]
  | cons x view ih =>
      have hx := hclock x List.mem_cons_self
      rw [List.foldl_cons, ih fun y hy => hclock y (List.mem_cons_of_mem x hy)]
      cases x with
      | begun clock =>
          have hpos : clock.period ≠ 0 := (show 0 < clock.period from hx).ne'
          by_cases hunset : r.statistics.startTime = 0
          · simp [StreamStatistics.after, StreamStatistics.frameBegin, lastReset,
              firstBegun, hunset, hpos]
          · simp [StreamStatistics.after, StreamStatistics.frameBegin, lastReset, hunset]
      | delivered frame timeNow =>
          rfl
      | reset now =>
          have hpos : now ≠ 0 := (show 0 < now from hx).ne'
          cases hlast : lastReset view <;>
            simp [StreamStatistics.after, StreamStatistics.reset, lastReset, hlast, hpos]

theorem size_after
    (view : List StreamSight) (r : StreamStatistics) :
    (view.foldl StreamStatistics.after r).statistics.size =
      view.foldl bytesAfter r.statistics.size := by
  refine (List.foldl_hom (fun r : StreamStatistics => r.statistics.size) ?_).symm
  intro r x
  cases x <;> rfl

/-- The begin of a frame brings no bytes. -/
theorem bytesAfter_filter
    (view : List StreamSight) (size : BitVec 64) :
    (view.filter StreamSight.isInput).foldl bytesAfter size =
      view.foldl bytesAfter size := by
  rw [List.foldl_filter]
  congr 1
  funext size x
  cases x <;> rfl

/-- Neither do resets. -/
theorem bytesAfter_resets
    (hresets : ∀ x ∈ view, ∃ now, x = .reset now) :
    view.foldl bytesAfter 0 = 0 := by
  induction view with
  | nil =>
      rfl
  | cons x view ih =>
      obtain ⟨now, rfl⟩ := hresets x List.mem_cons_self
      exact ih fun y hy => hresets y (List.mem_cons_of_mem _ hy)

end Period

/-! ## The first pass -/

section FirstPass

variable {lib : LibAv} {element : BitVec 32} {mMuxer : KoalaMuxer} {t : StreamType}
  {live live' : LiveState} {tr : List LiveTransition} {a : LiveAction}
  {es : List StreamingEvent}

/-- The readings of the clock at the begin of a pass. -/
def passClock (τ : LiveTransition) : Option BeginClock :=
  match τ.action with
  | .streaming (.select clock _ _) => some clock
  | _ => none

/-- The clock when `mux_thread` makes its first pass. -/
def firstPass (tr : List LiveTransition) : Option BeginClock :=
  tr.findSome? passClock

/-- `gettimeofday` counts from the epoch, so every reading is positive. -/
def LiveAction.ClockRuns : LiveAction → Prop
  | .registerAudio => True
  | .registerVideo => True
  | .reset now => ∀ i < maxStreames, 0 < now i
  | .streaming (.reset now) => ∀ i < maxStreames, 0 < now i
  | .streaming (.select clock _ _) => 0 < clock.start ∧ 0 < clock.period ∧ 0 < clock.frame
  | .streaming (.answer _ timeNow _ _) => 0 < timeNow

instance : ∀ a : LiveAction, Decidable a.ClockRuns
  | .registerAudio => isTrue trivial
  | .registerVideo => isTrue trivial
  | .reset now => inferInstanceAs (Decidable (∀ i < maxStreames, 0 < now i))
  | .streaming (.reset now) => inferInstanceAs (Decidable (∀ i < maxStreames, 0 < now i))
  | .streaming (.select clock _ _) =>
      inferInstanceAs (Decidable (0 < clock.start ∧ 0 < clock.period ∧ 0 < clock.frame))
  | .streaming (.answer _ timeNow _ _) => inferInstanceAs (Decidable (0 < timeNow))

theorem recordIndex_lt
    (element : BitVec 32) (t : StreamType) : recordIndex element t < maxStreames := by
  rw [recordIndex, preparedInput_index]
  split <;> decide

/-- What a stream sees of a step is read from a running clock. -/
theorem clockRuns_seen
    {τ : LiveTransition} (h : τ.action.ClockRuns) :
    ∀ x ∈ seen element t τ, x.ClockRuns := by
  obtain ⟨live, a, es, live'⟩ := τ
  have hreset : ∀ now : ℕ → Int, (∀ i < maxStreames, 0 < now i) →
      ∀ x ∈ resetSeen element t live now, x.ClockRuns := by
    intro now hnow x hx
    rw [resetSeen] at hx
    split at hx
    · rw [List.mem_singleton.mp hx]
      exact hnow _ (recordIndex_lt element t)
    · cases hx
  intro x hx
  cases a with
  | registerAudio =>
      cases hx
  | registerVideo =>
      cases hx
  | reset now =>
      exact hreset now h x hx
  | streaming a =>
      cases a with
      | reset now =>
          exact hreset now h x hx
      | select clock written ended =>
          simp only [seen] at hx
          split at hx
          · rw [List.mem_singleton.mp hx]
            exact h.2.1
          · cases hx
      | answer result timeNow written ended =>
          simp only [seen] at hx
          split at hx
          · rw [List.mem_singleton.mp hx]
            trivial
          · cases hx

/-- What a stream has seen when `mux_thread` asks for it first: before the first pass
resets only, and then its first frame begins with the first pass. -/
inductive PassInv (mMuxer : KoalaMuxer) :
    Option BeginClock → List StreamSight → LiveState → Prop
  | waiting {view : List StreamSight} {live : LiveState}
      (untouched : ∀ s, live = .streaming s →
        s.mux = MuxState.start mMuxer ∧ s.asking = none)
      (resets : ∀ x ∈ view, ∃ now, x = .reset now) :
      PassInv mMuxer none view live
  | passed {clock : BeginClock} {view : List StreamSight} {live : LiveState}
      (first : firstBegun view = some clock) :
      PassInv mMuxer (some clock) view live

theorem firstBegun_resets
    {view : List StreamSight} (hresets : ∀ x ∈ view, ∃ now, x = .reset now) :
    firstBegun view = none := by
  induction view with
  | nil =>
      rfl
  | cons x view ih =>
      obtain ⟨now, rfl⟩ := hresets x List.mem_cons_self
      exact ih fun y hy => hresets y (List.mem_cons_of_mem _ hy)

theorem resetSeen_resets
    (live : LiveState) (now : ℕ → Int) :
    ∀ x ∈ resetSeen element t live now, ∃ now, x = .reset now := by
  intro x hx
  rw [resetSeen] at hx
  split at hx
  · exact ⟨_, List.mem_singleton.mp hx⟩
  · cases hx

/-- The first pass asks for the stream that the merge selects first. -/
theorem streamingStep_firstPass
    {s s' : StreamingState} {clock : BeginClock} {written : Int} {ended : Bool}
    (hfirst : selectStream lib mMuxer mMuxer.haveStream = some t)
    (hmux : s.mux = MuxState.start mMuxer) (hasking : s.asking = none)
    (h : streamingStep lib s (.select clock written ended) = some (s', es)) :
    s'.asking = some t := by
  have hhave : mMuxer.haveStream t = true := selectStream_some hfirst
  have hselect : selectStream lib s.mux.pHandle s.mux.encode = some t := by
    rw [hmux]
    exact hfirst
  have hrunning : s.mux.finished = false := by rw [hmux]; rfl
  have hcallback : s.mux.pHandle.haveStream t = true := by
    rw [hmux]
    exact hhave
  simp only [streamingStep, hasking, hrunning, hselect, hcallback, if_true,
    Bool.false_eq_true, if_false] at h
  obtain ⟨rfl, -⟩ := Prod.mk.inj (Option.some.inj h)
  rfl

/-- Before the first pass. -/
theorem PassInv.step_waiting
    {view : List StreamSight}
    (hfirst : selectStream lib mMuxer mMuxer.haveStream = some t)
    (untouched : ∀ s, live = .streaming s →
      s.mux = MuxState.start mMuxer ∧ s.asking = none)
    (resets : ∀ x ∈ view, ∃ now, x = .reset now)
    (hstep : liveStep lib element mMuxer live a = some (live', es)) :
    PassInv mMuxer (passClock ⟨live, a, es, live'⟩)
      (view ++ seen element t ⟨live, a, es, live'⟩) live' := by
  have hmore : ∀ now, ∀ x ∈ view ++ resetSeen element t live now, ∃ now, x = .reset now := by
    intro now x hx
    rcases List.mem_append.mp hx with hx | hx
    · exact resets x hx
    · exact resetSeen_resets live now x hx
  cases live with
  | preparing p audioDone =>
      cases a with
      | registerAudio =>
          cases audioDone <;> cases hstep
          exact .waiting (fun s hs => by cases hs) (by simpa [seen] using resets)
      | registerVideo =>
          cases audioDone <;> cases hstep
          exact .waiting (fun s hs => by cases hs; exact ⟨rfl, rfl⟩)
            (by simpa [seen] using resets)
      | reset now =>
          cases audioDone <;> cases hstep <;>
            exact .waiting (fun s hs => by cases hs) (hmore now)
      | streaming a =>
          cases audioDone <;> cases hstep
  | streaming s =>
      obtain ⟨hmux, hasking⟩ := untouched s rfl
      cases a with
      | registerAudio =>
          cases hstep
      | registerVideo =>
          cases hstep
      | reset now =>
          cases hstep
      | streaming a =>
          simp only [liveStep, Option.map_eq_some_iff, Prod.exists] at hstep
          obtain ⟨s', es', hstep, heq⟩ := hstep
          obtain ⟨rfl, rfl⟩ := Prod.mk.inj heq
          cases a with
          | reset now =>
              obtain ⟨rfl, rfl⟩ := Prod.mk.inj (Option.some.inj hstep)
              exact .waiting (fun s hs => by cases hs; exact ⟨hmux, hasking⟩) (hmore now)
          | select clock written ended =>
              have hasks := streamingStep_firstPass hfirst hmux hasking hstep
              refine .passed ?_
              rw [seen_begun hasks, if_pos rfl, firstBegun_append,
                firstBegun_resets resets]
              rfl
          | answer result timeNow written ended =>
              simp [streamingStep, hasking] at hstep

theorem run_passInv
    (hfirst : selectStream lib mMuxer mMuxer.haveStream = some t)
    (run : Run (liveStep lib element mMuxer) LiveState.start tr live) :
    PassInv mMuxer (firstPass tr) (sights element t tr) live := by
  refine Run.invariant
    (fun tr live => PassInv mMuxer (firstPass tr) (sights element t tr) live) ?_ ?_ run
  · exact .waiting (fun s hs => by cases hs) (by simp [sights])
  · intro tr live a es live' hinv hstep
    have hpass : firstPass (tr ++ [⟨live, a, es, live'⟩]) =
        (firstPass tr).or (passClock ⟨live, a, es, live'⟩) := by
      rw [firstPass, List.findSome?_append, List.findSome?_singleton, firstPass]
    rw [hpass, sights, List.flatMap_append, List.flatMap_singleton]
    generalize hclock : firstPass tr = clock at hinv
    cases hinv with
    | waiting untouched resets =>
        exact PassInv.step_waiting hfirst untouched resets hstep
    | passed first =>
        refine .passed ?_
        rw [firstBegun_append, show firstBegun (tr.flatMap _) = _ from first]
        rfl

end FirstPass

/-! ## Runs of a streamer -/

/-- A run of preparation and streaming with this mask.  `av_compare_ts` finds a time
equal to itself. -/
def LiveRun (element : BitVec 32) (tr : List LiveTransition) (live : LiveState) : Prop :=
  ∃ (lib : LibAv) (listener : Bool) (fmtName : String)
    (audioIndex videoIndex samplerate : Int),
    lib.compareTs 0 muxTimeBase 0 muxTimeBase = 0 ∧
    Run (liveStep lib element
        (preparedMuxer element listener fmtName audioIndex videoIndex samplerate))
      LiveState.start tr live

/-- The frames delivered for the stream and the resets of its record, in order, with the
readings of the clock. -/
def deliveries (element : BitVec 32) (t : StreamType) (tr : List LiveTransition) :
    List StreamSight :=
  (sights element t tr).filter StreamSight.isInput

/-- The same is delivered for the stream at the same times, and `mux_thread` makes its
first pass at the same time.  The frames of the other stream may differ. -/
structure SameInput
    (element : BitVec 32) (t : StreamType) (tr tr' : List LiveTransition) : Prop where
  deliveries : deliveries element t tr = deliveries element t tr'
  firstPass : ∀ clock ∈ firstPass tr, ∀ clock' ∈ firstPass tr', clock = clock'

/-- The bit rate of the stream depends only on what is delivered for it and on the
clock, and is 0 as long as the stream is not registered. -/
structure BitRatesApart (cast : UintCast) (element : BitVec 32) (t : StreamType) :
    Prop where
  independent : ∀ tr live tr' live',
    LiveRun element tr live → LiveRun element tr' live' →
    (∀ τ ∈ tr, τ.action.ClockRuns) → (∀ τ ∈ tr', τ.action.ClockRuns) →
    SameInput element t tr tr' → ∀ timeNow,
    mediaStreamerGetStreamBitRate cast live.input t timeNow =
      mediaStreamerGetStreamBitRate cast live'.input t timeNow
  unregistered : ∀ tr live, LiveRun element tr live → live.registered t = false →
    ∀ timeNow, mediaStreamerGetStreamBitRate cast live.input t timeNow = 0

section Masks

variable {element element' : BitVec 32} {t : StreamType} {tr tr' : List LiveTransition}
  {live live' : LiveState}

theorem LiveRun.inv
    (h : LiveRun element tr live) (t : StreamType) :
    LiveInv element t (sights element t tr) live := by
  obtain ⟨lib, listener, fmtName, audioIndex, videoIndex, samplerate, -, run⟩ := h
  exact run_liveInv (streamingInv_start element listener fmtName audioIndex videoIndex
    samplerate).haveStream t run

/-- A stream of the mask that `mux_thread` asks first: video, or the only one. -/
def AskedFirst (element : BitVec 32) (t : StreamType) : Prop :=
  hasElement element t = true ∧ (t = .video ∨ hasElement element t.other = false)

theorem LiveRun.passInv
    (h : LiveRun element tr live) (hfirst : AskedFirst element t) :
    ∃ mMuxer, PassInv mMuxer (firstPass tr) (sights element t tr) live := by
  obtain ⟨lib, listener, fmtName, audioIndex, videoIndex, samplerate, hcompare, run⟩ := h
  refine ⟨_, run_passInv ?_ run⟩
  have hhave := (streamingInv_start element listener fmtName audioIndex videoIndex
    samplerate).haveStream
  obtain ⟨ht, hother⟩ := hfirst
  rw [show (preparedMuxer element listener fmtName audioIndex videoIndex
    samplerate).haveStream = hasElement element from hhave]
  cases t with
  | video =>
      have hle : lib.compareTs 0 muxTimeBase 0 muxTimeBase ≤ 0 := hcompare.le
      cases haudio : hasElement element .audio <;>
        simp [selectStream, ht, haudio, preparedMuxer, openedMuxer, initOpenVideo,
          initOpenAudio, koalaMuxerSetListener, koalaMuxerRegDataCallback,
          koalaGetMuxerHandle, hle]
  | audio =>
      have hvideo : hasElement element .video = false := by
        simpa [StreamType.other] using hother
      simp [selectStream, ht, hvideo]

/-- A bit rate is read from the bytes of the period and its start. -/
theorem bitRate_congr
    (cast : UintCast) {r r' : StreamStatistics}
    (hsize : r.statistics.size = r'.statistics.size)
    (hstart : r.statistics.startTime = r'.statistics.startTime) (timeNow : Int) :
    r.bitRate cast timeNow = r'.bitRate cast timeNow := by
  simp only [StreamStatistics.bitRate, hsize, hstart]

theorem clockRuns_sights
    (hclock : ∀ τ ∈ tr, τ.action.ClockRuns) :
    ∀ x ∈ sights element t tr, x.ClockRuns := by
  intro x hx
  obtain ⟨τ, hτ, hx⟩ := List.mem_flatMap.mp hx
  exact clockRuns_seen (hclock τ hτ) x hx

/-- The bit rate of the stream asked first depends on its input only. -/
theorem bitRate_of_sameInput
    (hfirst : AskedFirst element t)
    (run : LiveRun element tr live) (run' : LiveRun element tr' live')
    (hclock : ∀ τ ∈ tr, τ.action.ClockRuns) (hclock' : ∀ τ ∈ tr', τ.action.ClockRuns)
    (hsame : SameInput element t tr tr') (cast : UintCast) (timeNow : Int) :
    mediaStreamerGetStreamBitRate cast live.input t timeNow =
      mediaStreamerGetStreamBitRate cast live'.input t timeNow := by
  obtain ⟨hdeliveries, hpass⟩ := hsame
  rw [(run.inv t).bitRate hfirst.1, (run'.inv t).bitRate hfirst.1]
  have hsize : ((sights element t tr).foldl StreamStatistics.after
        (freshRecord t)).statistics.size =
      ((sights element t tr').foldl StreamStatistics.after
        (freshRecord t)).statistics.size := by
    rw [size_after, size_after, ← bytesAfter_filter, ← bytesAfter_filter (sights _ _ tr')]
    exact congrArg (List.foldl bytesAfter _) hdeliveries
  have hreset : lastReset (sights element t tr) = lastReset (sights element t tr') := by
    rw [← lastReset_filter, ← lastReset_filter (sights _ _ tr')]
    exact congrArg lastReset hdeliveries
  -- before the first pass a stream has no bytes
  have hnone : ∀ {view : List StreamSight}, (∀ x ∈ view, ∃ now, x = .reset now) →
      (view.foldl StreamStatistics.after (freshRecord t)).statistics.size = 0 :=
    fun hresets => (size_after _ _).trans (bytesAfter_resets hresets)
  obtain ⟨_, hinv⟩ := run.passInv hfirst
  obtain ⟨_, hinv'⟩ := run'.passInv hfirst
  generalize firstPass tr = pass at hinv hpass
  generalize firstPass tr' = pass' at hinv' hpass
  cases hinv with
  | waiting untouched resets =>
      rw [bitRate_of_empty cast (hnone resets),
        bitRate_of_empty cast (hsize.symm.trans (hnone resets))]
  | @passed clock _ _ first =>
      cases hinv' with
      | waiting untouched resets =>
          rw [bitRate_of_empty cast (hnone resets),
            bitRate_of_empty cast (hsize.trans (hnone resets))]
      | @passed clock' _ _ first' =>
          obtain rfl : clock = clock' := hpass clock rfl clock' rfl
          refine bitRate_congr cast hsize ?_ timeNow
          rw [startTime_after (clockRuns_sights hclock),
            startTime_after (clockRuns_sights hclock'), hreset, first, first']

/-! ### Masks -/

theorem recordIndex_of_mask
    (hmask : hasElement element = hasElement element') (t : StreamType) :
    recordIndex element t = recordIndex element' t := by
  simp only [recordIndex, preparedInput_index, hmask]

theorem deliveries_of_mask
    (hmask : hasElement element = hasElement element') (t : StreamType)
    (tr : List LiveTransition) : deliveries element t tr = deliveries element' t tr := by
  have hseen : seen element t = seen element' t := by
    funext τ
    simp only [seen, resetSeen, recordIndex_of_mask hmask]
  rw [deliveries, sights, hseen]
  rfl

/-- Only the two bits of the mask matter. -/
theorem LiveRun.of_mask
    (hmask : hasElement element = hasElement element')
    (h : LiveRun element tr live) : LiveRun element' tr live := by
  obtain ⟨lib, listener, fmtName, audioIndex, videoIndex, samplerate, hcompare, run⟩ := h
  have hstep : ∀ mMuxer, liveStep lib element mMuxer = liveStep lib element' mMuxer := by
    intro mMuxer
    funext live a
    cases live with
    | preparing p audioDone =>
        cases audioDone <;> cases a <;>
          simp [liveStep, registerAudio, registerVideo, hmask]
    | streaming s =>
        cases a <;> rfl
  have hmuxer : preparedMuxer element listener fmtName audioIndex videoIndex samplerate =
      preparedMuxer element' listener fmtName audioIndex videoIndex samplerate := by
    simp only [preparedMuxer, hmask]
  rw [hstep, hmuxer] at run
  exact ⟨lib, listener, fmtName, audioIndex, videoIndex, samplerate, hcompare, run⟩

/-- A mask that contains only the other stream. -/
theorem hasElement_other
    (ht : hasElement element t = false) (hother : hasElement element t.other = true) :
    hasElement t.other.element = hasElement element := by
  funext stream
  cases t with
  | video =>
      cases stream with
      | video =>
          rw [ht]
          decide
      | audio =>
          rw [StreamType.other] at hother
          rw [hother]
          decide
  | audio =>
      cases stream with
      | video =>
          rw [StreamType.other] at hother
          rw [hother]
          decide
      | audio =>
          rw [ht]
          decide

/-- A mask that contains both streams. -/
theorem hasElement_both
    (ht : hasElement element .audio = true) (hother : hasElement element .video = true) :
    hasElement 3 = hasElement element := by
  funext stream
  cases stream with
  | video =>
      rw [hother]
      decide
  | audio =>
      rw [ht]
      decide

/-! ### Where the bit rates are not apart -/

/-- The first record shows a frame of 1000 bytes in a period that began at `start`, and
the bit rate of the stream is read from it. -/
def ShowsFrame (t : StreamType) (start : Int) (live : LiveState) : Prop :=
  live.input.index t = 0 ∧
  live.input.pInputStastic.streamers[0]?.map
      (fun r => (r.statistics.size, r.statistics.startTime)) = some (1000, start)

instance (t : StreamType) (start : Int) (live : LiveState) :
    Decidable (ShowsFrame t start live) :=
  inferInstanceAs (Decidable (_ ∧ _))

theorem ShowsFrame.bitRate
    {start : Int} (h : ShowsFrame t start live) (cast : UintCast) (timeNow : Int) :
    mediaStreamerGetStreamBitRate cast live.input t timeNow =
      if ofInt ((timeNow - start).tdiv 1000000) == 0 then 0
      else cast.toUInt32 ((UInt64.ofBitVec 1000).toFloat32 * 8 /
        ofInt ((timeNow - start).tdiv 1000000)) := by
  obtain ⟨hindex, hrecord⟩ := h
  obtain ⟨r, hr, hr'⟩ := Option.map_eq_some_iff.mp hrecord
  obtain ⟨hsize, hstart⟩ := Prod.mk.inj hr'
  rw [mediaStreamerGetStreamBitRate_eq, hindex]
  refine (getStreamBitRate_of_some cast hr timeNow).trans ?_
  simp only [StreamStatistics.bitRate, hsize, hstart]

/-- A frame of 1000 bytes is delivered. -/
def oneFrame : List LiveAction :=
  [.registerAudio, .registerVideo,
    .streaming (.select ⟨1000000, 1000000, 1000000⟩ 0 false),
    .streaming (.answer ⟨0, { mediaFrameCreate with size := 1000 }⟩ 1000000 0 false)]

theorem oneFrame_mixedUp
    (t : StreamType) :
    ∃ tr live, LiveRun t.other.element tr live ∧
      live.registered t = false ∧ ShowsFrame t 1000000 live := by
  have hrun : ∃ tr live,
      Run (liveStep exactLibAv t.other.element
        (preparedMuxer t.other.element true "flv" 0 0 44100)) LiveState.start tr live ∧
      live.registered t = false ∧ ShowsFrame t 1000000 live := by
    cases t with
    | video =>
        exact Run.exists_of_exec _ _ oneFrame
          (fun r => LiveState.registered r.2 .video = false ∧
            ShowsFrame .video 1000000 r.2)
          (by decide +kernel)
    | audio =>
        exact Run.exists_of_exec _ _ oneFrame
          (fun r => LiveState.registered r.2 .audio = false ∧
            ShowsFrame .audio 1000000 r.2)
          (by decide +kernel)
  obtain ⟨tr, live, run, hmixed⟩ := hrun
  exact ⟨tr, live, ⟨exactLibAv, _, _, _, _, _, by decide, run⟩, hmixed⟩

/-- A second later that is a bit rate of 8000. -/
theorem bitRate_second
    (cast : UintCast) (h : ShowsFrame t 1000000 live) :
    mediaStreamerGetStreamBitRate cast live.input t 2000000 = 8000 := by
  rw [h.bitRate cast, if_neg (by decide +kernel),
    cast.truncates _ (by decide +kernel) (by decide +kernel)]
  decide +kernel

/-- A video frame is delivered at `timeNow`, and an audio frame of 1000 bytes at 10 s. -/
def bothFrames (timeNow : Int) : List LiveAction :=
  [.registerAudio, .registerVideo,
    .streaming (.select ⟨1000000, 1000000, 1000000⟩ 0 false),
    .streaming (.answer ⟨0, { mediaFrameCreate with pts := 1 }⟩ timeNow 0 false),
    .streaming (.select ⟨timeNow, timeNow, timeNow⟩ 0 false),
    .streaming (.answer ⟨0, { mediaFrameCreate with size := 1000 }⟩ 10000000 0 false)]

/-- What the audio stream is delivered does not tell when the video frame came, but
the period of its record does. -/
theorem bothFrames_run
    {timeNow : Int} (h : timeNow = 1000000 ∨ timeNow = 6000000) :
    ∃ tr live, LiveRun 3 tr live ∧ (∀ τ ∈ tr, τ.action.ClockRuns) ∧
      deliveries 3 .audio tr =
        [.delivered { mediaFrameCreate with size := 1000 } 10000000] ∧
      firstPass tr = some ⟨1000000, 1000000, 1000000⟩ ∧ ShowsFrame .audio timeNow live := by
  have hrun : ∃ tr live,
      Run (liveStep exactLibAv 3 (preparedMuxer 3 true "flv" 0 1 44100))
        LiveState.start tr live ∧ (∀ τ ∈ tr, τ.action.ClockRuns) ∧
      deliveries 3 .audio tr =
        [.delivered { mediaFrameCreate with size := 1000 } 10000000] ∧
      firstPass tr = some ⟨1000000, 1000000, 1000000⟩ ∧
      ShowsFrame .audio timeNow live := by
    refine Run.exists_of_exec _ _ (bothFrames timeNow)
      (fun r => (∀ τ ∈ r.1, τ.action.ClockRuns) ∧
        deliveries 3 .audio r.1 =
          [.delivered { mediaFrameCreate with size := 1000 } 10000000] ∧
        firstPass r.1 = some ⟨1000000, 1000000, 1000000⟩ ∧
        ShowsFrame .audio timeNow r.2) ?_
    rcases h with rfl | rfl <;> decide +kernel
  obtain ⟨tr, live, run, hshows⟩ := hrun
  exact ⟨tr, live, ⟨exactLibAv, _, _, _, _, _, by decide, run⟩, hshows⟩

/-- The bit rate of the audio stream of a mask with both streams depends on the video
frames: at 11 s it is 800 or 1600. -/
theorem bothFrames_differ
    (cast : UintCast) (haudio : hasElement element .audio = true)
    (hvideo : hasElement element .video = true) : ¬ BitRatesApart cast element .audio := by
  intro hapart
  have hmask := hasElement_both haudio hvideo
  obtain ⟨tr, live, run, hclock, hdelivered, hpass, hshows⟩ := bothFrames_run (Or.inl rfl)
  obtain ⟨tr', live', run', hclock', hdelivered', hpass', hshows'⟩ :=
    bothFrames_run (Or.inr rfl)
  have hsame : SameInput element .audio tr tr' := by
    refine ⟨?_, ?_⟩
    · rw [← deliveries_of_mask hmask, ← deliveries_of_mask hmask, hdelivered, hdelivered']
    · rw [hpass, hpass']
      rintro _ ⟨⟩ _ ⟨⟩
      rfl
  have hrate := hapart.independent tr live tr' live' (run.of_mask hmask)
    (run'.of_mask hmask) hclock hclock' hsame 11000000
  rw [hshows.bitRate cast, hshows'.bitRate cast, if_neg (by decide +kernel),
    if_neg (by decide +kernel),
    cast.truncates _ (by decide +kernel) (by decide +kernel),
    cast.truncates _ (by decide +kernel) (by decide +kernel)] at hrate
  exact absurd hrate (by decide +kernel)

end Masks

end KoalaStreamer
