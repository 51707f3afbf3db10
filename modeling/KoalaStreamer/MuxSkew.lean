import KoalaStreamer.KoalaMuxer
import Mathlib.Algebra.Order.Group.Int
import Mathlib.Algebra.Order.Group.Unbundled.Abs
import Mathlib.Data.List.Chain

/-!
# mux_thread keeps the streams together

`mux_thread` chooses the stream to serve from the timestamps that were written
last, not from those that come next.  It serves the stream that lags, so a step
moves the lagging timestamp, and by no more than one gap of its own stream.

Main result: `audio_video_skew_bounded`: if neighbouring timestamps of each
stream are at most `D` apart, the two last timestamps are at most `D` apart
whenever both streams are served.
-/

namespace KoalaStreamer

open EventMachine

/-- `av_compare_ts` on two times in the same time base compares the integers. -/
def ComparesIntegers (lib : LibAv) : Prop :=
  ∀ (tb : AVRational) (a b : Int), 0 < tb.num → 0 < tb.den →
    lib.compareTs a tb b tb = (a - b).sign

theorem exactLibAv_comparesIntegers :
    ComparesIntegers exactLibAv := by
  intro tb a b hnum hden
  simp only [exactLibAv]
  rw [← Int.sub_mul, ← Int.sub_mul, Int.sign_mul, Int.sign_mul,
    Int.sign_eq_one_of_pos hnum, Int.sign_eq_one_of_pos hden, Int.mul_one,
    Int.mul_one]

/-- `last_video_pts` and `last_audio_pts`. -/
def KoalaMuxer.lastPts (pHandle : KoalaMuxer) : StreamType → Int
  | .video => pHandle.lastVideoPts
  | .audio => pHandle.lastAudioPts

/-- The rebased pts of the frames submitted for a stream, in order. -/
def submittedPts (stream : StreamType) (es : List MuxEvent) : List Int :=
  (submissionsOf stream es).map (·.frame.pts)

/-- Neighbours do not decrease and are at most `D` apart. -/
def GapsAtMost (D : Int) (ts : List Int) : Prop :=
  ts.IsChain fun t t' => t ≤ t' ∧ t' - t ≤ D

instance (D : Int) (ts : List Int) : Decidable (GapsAtMost D ts) :=
  inferInstanceAs (Decidable (ts.IsChain fun t t' => t ≤ t' ∧ t' - t ≤ D))

section Skew

variable {lib : LibAv} {h : KoalaMuxer} {stream : StreamType} {D : Int}

@[simp] theorem setLastPts_lastPts_self
    (h : KoalaMuxer) (stream : StreamType) (pts : Int) :
    (setLastPts h stream pts).lastPts stream = pts := by
  cases stream <;> rfl

theorem setLastPts_lastPts_of_ne
    (h : KoalaMuxer) {stream other : StreamType} (hne : other ≠ stream) (pts : Int) :
    (setLastPts h stream pts).lastPts other = h.lastPts other := by
  cases stream <;> cases other <;> first | rfl | exact absurd rfl hne

@[simp] theorem latchFirstPts_lastPts
    (h : KoalaMuxer) (frame : MediaFrame) :
    (latchFirstPts h frame).lastPts = h.lastPts := by
  simp only [latchFirstPts]
  split <;> rfl

@[simp] theorem submittedPts_append
    (stream : StreamType) (es es' : List MuxEvent) :
    submittedPts stream (es ++ es') =
      submittedPts stream es ++ submittedPts stream es' := by
  simp [submittedPts]

@[simp] theorem submittedPts_passEnd
    (stream : StreamType) (ended : Bool) :
    submittedPts stream (passEnd ended) = [] := by
  simp [submittedPts, submissionsOf]

/-- `write_frame` sets the last timestamp of its stream to that of the frame it
submits, and keeps the other one.  Without a submission the stream ends. -/
theorem WriteMove.lastPts
    {call : ℕ} {answer : CallbackResult} {written : Int} {w : WriteFrameExit}
    (hw : WriteMove lib h stream call answer written w)
    (hreq : h.reqIFrame = 0) :
    (∀ other, other ≠ stream →
      w.pHandle.lastPts other = h.lastPts other ∧ submittedPts other w.events = []) ∧
    (submittedPts stream w.events = [w.pHandle.lastPts stream] ∨
      submittedPts stream w.events = [] ∧ w.ret ≠ 0 ∧ w.pHandle = h) := by
  have hpass := reqIFrameGate_of_zero hreq stream answer.frame
  cases hw with
  | noCallback hnone =>
      exact ⟨fun other _ => ⟨rfl, rfl⟩, Or.inr ⟨rfl, by simp, rfl⟩⟩
  | sourceEnd hhave hret =>
      exact ⟨fun other _ => ⟨rfl, rfl⟩, Or.inr ⟨rfl, by simp, rfl⟩⟩
  | dropped h' hhave hret hgate =>
      rw [hpass] at hgate
      cases hgate
  | wrote h' hhave hret hgate =>
      rw [hpass] at hgate
      cases hgate
      constructor
      · intro other hne
        constructor
        · simp [writeSubmit, setLastPts_lastPts_of_ne _ hne]
        · simp [submittedPts, submissionsOf, submissionOf, hne.symm]
      · left
        simp [submittedPts, submissionsOf, submissionOf, writeSubmit]

/-- After a step of the loop the last timestamp of a stream is that of its last
submission, if the step made one. -/
theorem muxStep_lastPts
    {s s' : MuxState} {a : MuxAnswers} {es : List MuxEvent}
    (hreq : s.pHandle.reqIFrame = 0) (hstep : muxStep lib s a = some (s', es))
    (stream : StreamType) :
    s'.pHandle.lastPts stream =
      (submittedPts stream es).getLast?.getD (s.pHandle.lastPts stream) := by
  rcases muxStep_selected hstep with ⟨rfl, rfl⟩ | ⟨served, w, -, hw, hhandle, -, rfl⟩
  · simp [submittedPts, submissionsOf]
  · obtain ⟨hother, hself⟩ := hw.lastPts hreq
    rw [hhandle, submittedPts_append, submittedPts_passEnd, List.append_nil]
    by_cases heq : stream = served
    · subst heq
      rcases hself with hone | ⟨hnone, -, hsame⟩
      · simp [hone]
      · simp [hnone, hsame]
    · obtain ⟨hsame, hnone⟩ := hother stream heq
      simp [hnone, hsame]

/-- With both streams served, the one that lags is selected. -/
theorem selectStream_lagging
    {encode : StreamType → Bool}
    (hcompare : ComparesIntegers lib)
    (hserved : ∀ st, encode st = true)
    (hsel : selectStream lib h encode = some stream) :
    ∀ other, h.lastPts stream ≤ h.lastPts other := by
  have hcmp := hcompare muxTimeBase h.lastVideoPts h.lastAudioPts (by decide)
    (by decide)
  simp only [selectStream, hserved, hcmp, Bool.or_true, if_true, Bool.not_true,
    Bool.false_or, Bool.true_and, decide_eq_true_eq, Int.sign_nonpos_iff] at hsel
  split at hsel
  · cases hsel
    intro other
    cases other with
    | video =>
        exact le_refl _
    | audio =>
        show h.lastVideoPts ≤ h.lastAudioPts
        omega
  · cases hsel
    intro other
    cases other with
    | video =>
        show h.lastAudioPts ≤ h.lastVideoPts
        omega
    | audio =>
        exact le_refl _

/-- Advancing the smaller of two numbers by at most `D` keeps them within `D`. -/
theorem abs_sub_le_of_advance
    {a b b' : Int}
    (hle : b ≤ a) (hnear : |a - b| ≤ D) (hmono : b ≤ b') (hgap : b' - b ≤ D) :
    |a - b'| ≤ D := by
  rw [abs_le] at hnear ⊢
  omega

/-- What a run of the loop keeps. -/
structure SkewInv (D : Int) (es : List MuxEvent) (s : MuxState) : Prop where
  reqIFrame : s.pHandle.reqIFrame = 0
  last : ∀ stream, (0 :: submittedPts stream es).getLast? =
    some (s.pHandle.lastPts stream)
  skew : (∀ stream, s.encode stream = true) → ∀ stream other,
    |s.pHandle.lastPts stream - s.pHandle.lastPts other| ≤ D

/-- A pass that submits a frame advances one stream by one of its gaps. -/
theorem gap_of_snoc
    {ts : List Int} {t t' : Int}
    (hgaps : GapsAtMost D (0 :: (ts ++ [t'])))
    (hlast : (0 :: ts).getLast? = some t) :
    t ≤ t' ∧ t' - t ≤ D := by
  rw [← List.cons_append] at hgaps
  exact (List.isChain_append.mp hgaps).2.2 t hlast t' (by simp)

theorem muxStep_skewInv
    {es es' : List MuxEvent} {s s' : MuxState} {a : MuxAnswers}
    (hcompare : ComparesIntegers lib)
    (hinv : SkewInv D es s)
    (hstep : muxStep lib s a = some (s', es'))
    (hgaps : ∀ stream, GapsAtMost D (0 :: submittedPts stream (es ++ es'))) :
    SkewInv D (es ++ es') s' := by
  have hreq := muxStep_reqIFrame hinv.reqIFrame hstep
  have hlast : ∀ st, (0 :: submittedPts st (es ++ es')).getLast? =
      some (s'.pHandle.lastPts st) := by
    intro st
    rw [muxStep_lastPts hinv.reqIFrame hstep st, submittedPts_append, ← List.cons_append,
      List.getLast?_append, hinv.last st, Option.or_some]
  rcases muxStep_selected hstep with ⟨rfl, rfl⟩ |
    ⟨stream, w, hsel, hw, hhandle, hencode, rfl⟩
  · exact ⟨hreq, hlast, hinv.skew⟩
  · obtain ⟨hother, hself⟩ := hw.lastPts hinv.reqIFrame
    have hkeep : ∀ other, other ≠ stream →
        s'.pHandle.lastPts other = s.pHandle.lastPts other := by
      intro other hne
      rw [hhandle]
      exact (hother other hne).1
    refine ⟨hreq, hlast, ?_⟩
    intro hserved
    have hret : w.ret = 0 := by
      have hself := hserved stream
      rw [hencode, Function.update_self] at hself
      exact of_decide_eq_true hself
    have hbefore : ∀ st, s.encode st = true := by
      intro st
      by_cases hst : st = stream
      · exact hst ▸ selectStream_some hsel
      · have hst' := hserved st
        rwa [hencode, Function.update_of_ne hst] at hst'
    have hsub : submittedPts stream w.events = [s'.pHandle.lastPts stream] := by
      rcases hself with hsub | ⟨_, hne, _⟩
      · rw [hhandle]
        exact hsub
      · exact absurd hret hne
    have hgap : s.pHandle.lastPts stream ≤ s'.pHandle.lastPts stream ∧
        s'.pHandle.lastPts stream - s.pHandle.lastPts stream ≤ D := by
      have hgaps := hgaps stream
      simp only [submittedPts_append, submittedPts_passEnd, hsub,
        List.append_nil] at hgaps
      exact gap_of_snoc hgaps (hinv.last stream)
    have hlag := selectStream_lagging hcompare hbefore hsel
    have hold := hinv.skew hbefore
    have hnew : ∀ other, other ≠ stream →
        |s'.pHandle.lastPts other - s'.pHandle.lastPts stream| ≤ D := by
      intro other hne
      rw [hkeep other hne]
      exact abs_sub_le_of_advance (hlag other) (hold other stream) hgap.1 hgap.2
    intro st other
    by_cases hst : st = stream
    · by_cases hot : other = stream
      · rw [hst, hot, sub_self, abs_zero]
        omega
      · rw [hst, abs_sub_comm]
        exact hnew other hot
    · by_cases hot : other = stream
      · rw [hot]
        exact hnew st hst
      · rw [hkeep st hst, hkeep other hot]
        exact hold st other

/--
A run with both streams in which the rebased pts of each stream, after a first
0, do not decrease and lie at most `D` apart.  While both streams are served
the two timestamps written last are at most `D` apart: the fields hold the pts
submitted last of each stream, or the first 0.
-/
theorem audio_video_skew_bounded
    {listener : Bool} {fmtName : String}
    {audioIndex videoIndex samplerate : Int}
    {s : MuxState} {tr : List MuxTransition}
    (hcompare : ComparesIntegers lib)
    (hD : 0 ≤ D)
    (run : Run (muxStep lib)
      (MuxState.start (openedMuxer true true listener fmtName audioIndex
        videoIndex samplerate)) tr s)
    (hgaps : ∀ stream, GapsAtMost D (0 :: submittedPts stream (eventsOf tr)))
    (hserved : s.encode .video = true ∧ s.encode .audio = true) :
    |s.pHandle.lastVideoPts - s.pHandle.lastAudioPts| ≤ D := by
  have hinv : (∀ stream, GapsAtMost D (0 :: submittedPts stream (eventsOf tr))) →
      SkewInv D (eventsOf tr) s := by
    refine Run.invariant (fun tr s =>
      (∀ stream, GapsAtMost D (0 :: submittedPts stream (eventsOf tr))) →
        SkewInv D (eventsOf tr) s) ?_ ?_ run
    · intro _
      refine ⟨rfl, ?_, ?_⟩
      · intro stream
        cases stream <;> rfl
      · intro _ stream other
        cases stream <;> cases other <;> exact hD
    · intro tr s a es t ih hstep hgaps
      rw [eventsOf_snoc] at hgaps ⊢
      refine muxStep_skewInv hcompare (ih ?_) hstep hgaps
      intro stream
      have hall := hgaps stream
      rw [submittedPts_append, ← List.cons_append] at hall
      exact hall.left_of_append
  refine (hinv hgaps).skew ?_ .video .audio
  intro stream
  cases stream with
  | video =>
      exact hserved.1
  | audio =>
      exact hserved.2

end Skew

/-- Video at 0, 40 and audio at 10, 30: after four passes the streams are 10
apart. -/
theorem audio_video_skew_bounded_forty :
    ∃ (tr : List MuxTransition) (s : MuxState),
      Run (muxStep exactLibAv)
        (MuxState.start (openedMuxer true true true "flv" 0 1 44100)) tr s ∧
      (submissions (eventsOf tr)).map (fun x => (x.stream, x.frame.pts)) =
        [(.video, 0), (.video, 40), (.audio, 10), (.audio, 30)] ∧
      |s.pHandle.lastVideoPts - s.pHandle.lastAudioPts| ≤ 40 := by
  obtain ⟨tr, s, run, hsub, hgaps, hserved⟩ :=
    Run.exists_of_exec (muxStep exactLibAv)
      (MuxState.start (openedMuxer true true true "flv" 0 1 44100))
      [passAnswers (timedFrame 0 0 1) 0 false,
        passAnswers (timedFrame 40 40 0) 0 false,
        passAnswers (timedFrame 10 10 0) 0 false,
        passAnswers (timedFrame 30 30 0) 0 false]
      (fun r =>
        (submissions (eventsOf r.1)).map (fun x => (x.stream, x.frame.pts)) =
          [(.video, 0), (.video, 40), (.audio, 10), (.audio, 30)] ∧
        (GapsAtMost 40 (0 :: submittedPts .video (eventsOf r.1)) ∧
          GapsAtMost 40 (0 :: submittedPts .audio (eventsOf r.1))) ∧
        (r.2.encode .video = true ∧ r.2.encode .audio = true))
      (by decide +kernel)
  refine ⟨tr, s, run, hsub, audio_video_skew_bounded
    exactLibAv_comparesIntegers (by decide) run ?_ hserved⟩
  intro stream
  cases stream with
  | video =>
      exact hgaps.1
  | audio =>
      exact hgaps.2

end KoalaStreamer
