import KoalaStreamer.KoalaMuxer
import Mathlib.Algebra.Order.Ring.Int
import Mathlib.Data.List.Pairwise

/-!
# The time line of a run of mux_thread

`write_frame` takes the dts of a frame as the origin of the run while no origin
is set, and a negative `first_pts` means that none is set.

Main results:
* `common_origin_iff`: all frames of a run are shifted by one constant if and
  only if the first non-negative dts of the run is its first dts or 0;
* `packets_keep_time_order`: when the run begins with a non-negative dts, the
  packets of each stream keep the order of time through the rescaling.
-/

namespace KoalaStreamer

open EventMachine NearestRounding

/-- The timestamps of the frame are those of its source, less `c`. -/
def ShiftedBy (c : Int) (x : Submission) : Prop :=
  x.frame.dts = x.source.dts - c ∧ x.frame.pts = x.source.pts - c

/-- The dts of the frames as the callbacks delivered them. -/
def sourceDts (xs : List Submission) : List Int :=
  xs.map (·.source.dts)

/-- The first non-negative dts, if there is one, comes first or is 0. -/
def OriginAtOnce (ds : List Int) : Prop :=
  ∀ d, ds.find? (0 ≤ ·) = some d → d = 0 ∨ ds.head? = some d

section Origin

variable {lib : LibAv} {h : KoalaMuxer}

/--
How the frames submitted so far relate to `first_pts`: while every dts was
negative nothing is shifted; from the first non-negative dts on, everything is
shifted by it.
-/
inductive Latched : Int → List Submission → Prop
  | unset {firstPts : Int} {xs : List Submission}
      (hneg : ∀ x ∈ xs, x.source.dts < 0)
      (hshift : ∀ x ∈ xs, ShiftedBy 0 x)
      (hfirst : firstPts < 0) :
      Latched firstPts xs
  | set {before after : List Submission} (x₀ : Submission)
      (hneg : ∀ x ∈ before, x.source.dts < 0)
      (hbefore : ∀ x ∈ before, ShiftedBy 0 x)
      (hpos : 0 ≤ x₀.source.dts)
      (hafter : ∀ x ∈ x₀ :: after, ShiftedBy x₀.source.dts x) :
      Latched x₀.source.dts (before ++ x₀ :: after)

/-- A non-negative origin is subtracted. -/
theorem rebase_of_nonneg
    {h : KoalaMuxer} (hfirst : 0 ≤ h.firstPts) (frame : MediaFrame) :
    (rebase h frame).dts = frame.dts - h.firstPts ∧
    (rebase h frame).pts = frame.pts - h.firstPts := by
  simp only [rebase]
  split
  · exact ⟨rfl, rfl⟩
  · have hzero : h.firstPts = 0 := by omega
    simp [hzero]

/-- A negative origin is not. -/
theorem rebase_of_neg
    {h : KoalaMuxer} (hfirst : h.firstPts < 0) (frame : MediaFrame) :
    rebase h frame = frame := by
  simp only [rebase]
  rw [if_neg (by omega)]

/-- One more frame is submitted. -/
theorem Latched.snoc
    {xs : List Submission}
    (hxs : Latched h.firstPts xs)
    (stream : StreamType) (frame : MediaFrame) (written : Int) :
    Latched (latchFirstPts h frame).firstPts
      (xs ++ [submissionOf lib h stream frame written]) := by
  generalize hfirstPts : h.firstPts = firstPts at hxs
  cases hxs with
  | unset hneg hshift hfirst =>
      have hlatch : (latchFirstPts h frame).firstPts = frame.dts := by
        simp [latchFirstPts, hfirstPts, hfirst]
      rcases lt_or_ge frame.dts 0 with hdts | hdts
      · refine .unset ?_ ?_ (hlatch ▸ hdts)
        · intro x hx
          rcases List.mem_append.mp hx with hx | hx
          · exact hneg x hx
          · rw [List.mem_singleton.mp hx]
            exact hdts
        · intro x hx
          rcases List.mem_append.mp hx with hx | hx
          · exact hshift x hx
          · rw [List.mem_singleton.mp hx]
            have hkeep := rebase_of_neg (h := latchFirstPts h frame)
              (hlatch ▸ hdts) frame
            simp [ShiftedBy, submissionOf, hkeep]
      · rw [hlatch]
        refine .set (submissionOf lib h stream frame written)
          hneg hshift hdts ?_
        intro x hx
        rw [List.mem_singleton.mp hx]
        have hsub := rebase_of_nonneg (h := latchFirstPts h frame)
          (hlatch ▸ hdts) frame
        rw [hlatch] at hsub
        exact hsub
  | @set before after x₀ hneg hbefore hpos hafter =>
      have hlatch : latchFirstPts h frame = h := by
        simp [latchFirstPts, hfirstPts, not_lt.mpr hpos]
      rw [hlatch, hfirstPts, List.append_assoc, List.cons_append]
      refine .set x₀ hneg hbefore hpos ?_
      intro x hx
      rw [← List.cons_append] at hx
      rcases List.mem_append.mp hx with hx | hx
      · exact hafter x hx
      · rw [List.mem_singleton.mp hx, ← hfirstPts]
        have hsub := rebase_of_nonneg (by rw [hfirstPts]; exact hpos) frame
        simpa [ShiftedBy, submissionOf, hlatch] using hsub

/-- When the origin was latched, all shifts agree exactly under `OriginAtOnce`. -/
theorem Latched.common_iff
    {firstPts : Int} {xs : List Submission}
    (hxs : Latched firstPts xs) :
    (∃ c, ∀ x ∈ xs, ShiftedBy c x) ↔ OriginAtOnce (sourceDts xs) := by
  cases hxs with
  | unset hneg hshift hfirst =>
      refine iff_of_true ⟨0, hshift⟩ ?_
      intro d hd
      obtain ⟨x, hx, rfl⟩ := List.mem_map.mp (List.mem_of_find?_eq_some hd)
      have hnn := List.find?_some hd
      have := hneg x hx
      simp at hnn
      omega
  | @set before after x₀ hneg hbefore hpos hafter =>
      have hfind : (sourceDts (before ++ x₀ :: after)).find? (0 ≤ ·) =
          some x₀.source.dts := by
        have hnone : (sourceDts before).find? (0 ≤ ·) = none := by
          simpa [sourceDts] using hneg
        rw [sourceDts, List.map_append, List.find?_append]
        rw [sourceDts] at hnone
        simp [hnone, hpos]
      constructor
      · rintro ⟨c, hc⟩ d hd
        rw [hfind] at hd
        obtain rfl := Option.some.inj hd
        cases before with
        | nil =>
            exact Or.inr rfl
        | cons y ys =>
            -- the frames before the origin were not shifted at all
            left
            have hy := (hc y (by simp)).1
            have hy₀ := (hbefore y (by simp)).1
            have hx := (hc x₀ (by simp)).1
            have hx₀ := (hafter x₀ (by simp)).1
            omega
      · intro hone
        rcases hone _ hfind with hzero | hhead
        · refine ⟨0, ?_⟩
          intro x hx
          rcases List.mem_append.mp hx with hx | hx
          · exact hbefore x hx
          · rw [hzero] at hafter
            exact hafter x hx
        · cases before with
          | nil =>
              exact ⟨_, hafter⟩
          | cons y ys =>
              have hy := hneg y (by simp)
              have heq : y.source.dts = x₀.source.dts := by
                simpa [sourceDts] using hhead
              omega

/-- What a step of the loop submits, when no key frame is requested. -/
theorem muxStep_submissions
    {s s' : MuxState} {a : MuxAnswers} {es : List MuxEvent}
    (hinv : MuxSetupInv h s)
    (hreq : s.pHandle.reqIFrame = 0)
    (hstep : muxStep lib s a = some (s', es)) :
    (submissions es = [] ∧ s'.pHandle.firstPts = s.pHandle.firstPts) ∨
    ∃ stream frame written, h.haveStream stream = true ∧
      submissions es = [submissionOf lib s.pHandle stream frame written] ∧
      s'.pHandle.firstPts = (latchFirstPts s.pHandle frame).firstPts := by
  cases muxStep_move hstep with
  | loopEnd hrun hdone =>
      exact Or.inl ⟨rfl, rfl⟩
  | pass stream w hrun hencode hw =>
      have hpass := reqIFrameGate_of_zero hreq stream (a.callback stream).frame
      cases hw with
      | noCallback hnone =>
          exact Or.inl ⟨by simp, rfl⟩
      | sourceEnd hhave hret =>
          exact Or.inl ⟨by simp, rfl⟩
      | dropped h' hhave hret hgate =>
          rw [hpass] at hgate
          cases hgate
      | wrote h' hhave hret hgate =>
          rw [hpass] at hgate
          cases hgate
          refine Or.inr ⟨stream, (a.callback stream).frame, a.written,
            hinv.have_of_encode stream hencode, by simp, ?_⟩
          simp [MuxState.serve, writeSubmit]

/-- The origin and the packets of a run from a fresh handle. -/
theorem run_latched
    {s : MuxState} {tr : List MuxTransition}
    (hfirst : h.firstPts = -1)
    (hreq : h.reqIFrame = 0)
    (run : Run (muxStep lib) (MuxState.start h) tr s) :
    Latched s.pHandle.firstPts (submissions (eventsOf tr)) ∧
    ∀ x ∈ submissions (eventsOf tr), h.haveStream x.stream = true ∧
      x.pkt = fillPacket lib h x.stream x.frame := by
  have hboth : (Latched s.pHandle.firstPts (submissions (eventsOf tr)) ∧
      ∀ x ∈ submissions (eventsOf tr), h.haveStream x.stream = true ∧
        x.pkt = fillPacket lib h x.stream x.frame) ∧
      MuxSetupInv h s ∧ s.pHandle.reqIFrame = 0 := by
    refine Run.invariant
      (fun tr s => (Latched s.pHandle.firstPts (submissions (eventsOf tr)) ∧
        ∀ x ∈ submissions (eventsOf tr), h.haveStream x.stream = true ∧
          x.pkt = fillPacket lib h x.stream x.frame) ∧
        MuxSetupInv h s ∧ s.pHandle.reqIFrame = 0) ?_ ?_ run
    · refine ⟨⟨.unset (by simp) (by simp) ?_, by simp⟩,
        ⟨rfl, fun _ hst => hst⟩, hreq⟩
      show h.firstPts < 0
      omega
    · rintro tr s a es s' ⟨⟨hlatched, hpkts⟩, hinv, hzero⟩ hstep
      refine ⟨?_, muxStep_setupInv hinv hstep, muxStep_reqIFrame hzero hstep⟩
      rw [eventsOf_snoc, submissions_append]
      rcases muxStep_submissions hinv hzero hstep with
        ⟨hnone, hsame⟩ | ⟨stream, frame, written, hhave, hone, hnew⟩
      · rw [hnone, List.append_nil, hsame]
        exact ⟨hlatched, hpkts⟩
      · rw [hone, hnew]
        refine ⟨hlatched.snoc stream frame written, ?_⟩
        intro x hx
        rcases List.mem_append.mp hx with hx | hx
        · exact hpkts x hx
        · rw [List.mem_singleton.mp hx]
          exact ⟨hhave, fillPacket_of_setup hinv.setup _ _⟩
  exact hboth.1

/--
In a run from a fresh handle, one constant shifts the timestamps of all frames
submitted, of both streams, if and only if the first non-negative dts among the
frames delivered is that of the first frame, or is 0, or does not exist.
-/
theorem common_origin_iff
    {s : MuxState} {tr : List MuxTransition}
    (hfirst : h.firstPts = -1)
    (hreq : h.reqIFrame = 0)
    (run : Run (muxStep lib) (MuxState.start h) tr s) :
    (∃ c, ∀ x ∈ submissions (eventsOf tr), ShiftedBy c x) ↔
      OriginAtOnce (sourceDts (submissions (eventsOf tr))) :=
  (run_latched hfirst hreq run).1.common_iff

end Origin

/-- The first two frames are video frames, at -5 and at 10: the first one keeps
its time, the second one is moved by 10. -/
theorem common_origin_fails_negative_first :
    ¬ ∀ (tr : List MuxTransition) (s : MuxState),
        Run (muxStep exactLibAv)
          (MuxState.start (openedMuxer true true true "flv" 0 1 44100)) tr s →
        ∃ c, ∀ x ∈ submissions (eventsOf tr), ShiftedBy c x := by
  intro hcommon
  obtain ⟨tr, s, run, x, hx, y, hy, hxd, hxs, hyd, hys⟩ :=
    Run.exists_of_exec (muxStep exactLibAv)
      (MuxState.start (openedMuxer true true true "flv" 0 1 44100))
      [passAnswers (timedFrame (-5) (-5) 1) 0 false,
        passAnswers (timedFrame 10 10 0) 0 false]
      (fun r => ∃ x ∈ submissions (eventsOf r.1),
        ∃ y ∈ submissions (eventsOf r.1),
          x.frame.dts = -5 ∧ x.source.dts = -5 ∧
          y.frame.dts = 0 ∧ y.source.dts = 10)
      (by decide +kernel)
  obtain ⟨c, hc⟩ := hcommon tr s run
  have hxc := (hc x hx).1
  have hyc := (hc y hy).1
  omega

/-- The video frame at 7 comes first and sets the origin for both streams. -/
theorem common_origin_iff_first_seven :
    ∃ (tr : List MuxTransition) (s : MuxState),
      Run (muxStep exactLibAv)
        (MuxState.start (openedMuxer true true true "flv" 0 1 44100)) tr s ∧
      sourceDts (submissions (eventsOf tr)) = [7, 30, -3] ∧
      ((∃ c, ∀ x ∈ submissions (eventsOf tr), ShiftedBy c x) ↔
        OriginAtOnce (sourceDts (submissions (eventsOf tr)))) := by
  obtain ⟨tr, s, run, hdts⟩ :=
    Run.exists_of_exec (muxStep exactLibAv)
      (MuxState.start (openedMuxer true true true "flv" 0 1 44100))
      [passAnswers (timedFrame 7 7 1) 0 false,
        passAnswers (timedFrame 30 30 0) 0 false,
        passAnswers (timedFrame (-3) (-3) 0) 0 false]
      (fun r => sourceDts (submissions (eventsOf r.1)) = [7, 30, -3])
      (by decide +kernel)
  exact ⟨tr, s, run, hdts, common_origin_iff rfl rfl run⟩

/-! ## The order of the packets -/

/-- `av_rescale` as documented: `a * b / c` rounded to nearest. -/
def RoundsExactly (lib : LibAv) : Prop :=
  ∀ a b c, 0 ≤ b → 0 < c → IsNearest (a * b) c (lib.rescale a b c)

theorem exactLibAv_roundsExactly : RoundsExactly exactLibAv := by
  intro a b c _ hc
  exact roundDiv_isNearest (a * b) hc

/-- `conVbase` and `conAbase`. -/
def KoalaMuxer.conBase (pHandle : KoalaMuxer) : StreamType → AVRational
  | .video => pHandle.conVbase
  | .audio => pHandle.conAbase

section Order

variable {lib : LibAv} {h : KoalaMuxer}

/-- The time bases that `koala_muxer_init_open` sets for the streams present. -/
theorem openedMuxer_conBase
    {acb vcb listener : Bool} {fmtName : String}
    {audioIndex videoIndex samplerate : Int} {stream : StreamType}
    (hhave : (openedMuxer acb vcb listener fmtName audioIndex videoIndex
      samplerate).haveStream stream = true) :
    (openedMuxer acb vcb listener fmtName audioIndex videoIndex
      samplerate).conBase stream =
      if isFlv fmtName then ⟨1, 1000⟩
      else match stream with
        | .video => ⟨1, 1⟩
        | .audio => ⟨samplerate, 1000000⟩ := by
  cases acb <;> cases vcb <;> cases stream <;>
    simp [openedMuxer, initOpenAudio, initOpenVideo, koalaMuxerSetListener,
      koalaMuxerRegDataCallback, KoalaMuxer.conBase, KoalaMuxer.haveStream,
      koalaGetMuxerHandle] at hhave ⊢

/-- Rescaling by a non-negative factor keeps the order. -/
theorem rescale_mono
    (hround : RoundsExactly lib) {b c : Int} (hb : 0 ≤ b) (hc : 0 < c)
    {a a' : Int} (hle : a ≤ a') :
    lib.rescale a b c ≤ lib.rescale a' b c :=
  IsNearest.mono hc (mul_le_mul_of_nonneg_right hle hb)
    (hround a b c hb hc) (hround a' b c hb hc)

/-- Milliseconds of times that are 1000 microseconds apart differ. -/
theorem rescale_lt
    (hround : RoundsExactly lib) {a a' : Int} (hle : a + 1000 ≤ a') :
    lib.rescale a 1 1000 < lib.rescale a' 1 1000 :=
  IsNearest.lt_of_add_le (by decide) (by omega)
    (hround a 1 1000 (by decide) (by decide))
    (hround a' 1 1000 (by decide) (by decide))

/-- The factor of a stream that is present is not negative. -/
theorem openedMuxer_conBase_pos
    {acb vcb listener : Bool} {fmtName : String}
    {audioIndex videoIndex samplerate : Int} {stream : StreamType}
    (hrate : 0 ≤ samplerate)
    (hhave : (openedMuxer acb vcb listener fmtName audioIndex videoIndex
      samplerate).haveStream stream = true) :
    0 ≤ ((openedMuxer acb vcb listener fmtName audioIndex videoIndex
      samplerate).conBase stream).num ∧
    0 < ((openedMuxer acb vcb listener fmtName audioIndex videoIndex
      samplerate).conBase stream).den := by
  rw [openedMuxer_conBase hhave]
  cases isFlv fmtName <;> cases stream <;> simp [hrate]

/-- The time of the source that decides the dts of the packet. -/
def Submission.time (x : Submission) : Int :=
  match x.stream with
  | .video => x.source.dts
  | .audio => x.source.pts

/-- A packet's dts and pts are the shifted times of its source, rescaled. -/
theorem pkt_times
    {c : Int} {x : Submission}
    (hshift : ShiftedBy c x)
    (hpkt : x.pkt = fillPacket lib h x.stream x.frame) :
    x.pkt.dts = lib.rescale (x.time - c)
      (h.conBase x.stream).num (h.conBase x.stream).den ∧
    x.pkt.pts = lib.rescale (x.source.pts - c)
      (h.conBase x.stream).num (h.conBase x.stream).den := by
  obtain ⟨hdts, hpts⟩ := hshift
  rw [hpkt]
  cases hstream : x.stream with
  | video =>
      simp [fillPacket, KoalaMuxer.conBase, Submission.time, hstream, hdts, hpts]
  | audio =>
      simp [fillPacket, KoalaMuxer.conBase, Submission.time, hstream, hpts]

/-- A run that begins with a non-negative dts has its origin at once. -/
theorem originAtOnce_of_first
    {xs : List Submission}
    (hfirst : ∀ x, xs.head? = some x → 0 ≤ x.source.dts) :
    OriginAtOnce (sourceDts xs) := by
  intro d hd
  right
  cases xs with
  | nil =>
      simp [sourceDts] at hd
  | cons x xs =>
      have hx := hfirst x rfl
      simpa [sourceDts, hx] using hd

/--
A run from a fresh handle whose first frame has a non-negative dts.  If the dts
of the video source does not decrease and is at most the pts of its frame, and
the pts of the audio source does not decrease, then the packet dts of each
stream does not decrease, no packet has a pts below its dts, and in FLV output
video frames at least 1000 apart get different packet dts in the same order.
-/
theorem packets_keep_time_order
    {acb vcb listener : Bool} {fmtName : String}
    {audioIndex videoIndex samplerate : Int}
    {s : MuxState} {tr : List MuxTransition}
    (hround : RoundsExactly lib)
    (hrate : 0 ≤ samplerate)
    (run : Run (muxStep lib)
      (MuxState.start (openedMuxer acb vcb listener fmtName audioIndex videoIndex
        samplerate)) tr s)
    (hfirst : ∀ x, (submissions (eventsOf tr)).head? = some x →
      0 ≤ x.source.dts)
    (hvideo : (submissionsOf .video (eventsOf tr)).Pairwise
      fun x y => x.source.dts ≤ y.source.dts)
    (hvideoPts : ∀ x ∈ submissionsOf .video (eventsOf tr),
      x.source.dts ≤ x.source.pts)
    (haudio : (submissionsOf .audio (eventsOf tr)).Pairwise
      fun x y => x.source.pts ≤ y.source.pts) :
    (∀ stream, (submissionsOf stream (eventsOf tr)).Pairwise
      fun x y => x.pkt.dts ≤ y.pkt.dts) ∧
    (∀ x ∈ submissions (eventsOf tr), x.pkt.dts ≤ x.pkt.pts) ∧
    (isFlv fmtName = true → ∀ x ∈ submissionsOf .video (eventsOf tr),
      ∀ y ∈ submissionsOf .video (eventsOf tr),
        x.source.dts + 1000 ≤ y.source.dts → x.pkt.dts < y.pkt.dts) := by
  let h := openedMuxer acb vcb listener fmtName audioIndex videoIndex samplerate
  have hfresh : h.firstPts = -1 ∧ h.reqIFrame = 0 := by
    cases acb <;> cases vcb <;> exact ⟨rfl, rfl⟩
  obtain ⟨hlatched, hpkts⟩ := run_latched hfresh.1 hfresh.2 run
  obtain ⟨c, hc⟩ := hlatched.common_iff.mpr (originAtOnce_of_first hfirst)
  have htimes := fun x hx => pkt_times (hc x hx) (hpkts x hx).2
  have hbase := fun x hx =>
    openedMuxer_conBase_pos hrate (hpkts x hx).1
  have htime : ∀ stream, (submissionsOf stream (eventsOf tr)).Pairwise
      fun x y => x.time ≤ y.time := by
    intro stream
    cases stream with
    | video =>
        refine hvideo.imp_of_mem ?_
        intro x y hx hy hle
        simpa [Submission.time, (mem_submissionsOf.mp hx).2,
          (mem_submissionsOf.mp hy).2] using hle
    | audio =>
        refine haudio.imp_of_mem ?_
        intro x y hx hy hle
        simpa [Submission.time, (mem_submissionsOf.mp hx).2,
          (mem_submissionsOf.mp hy).2] using hle
  refine ⟨?_, ?_, ?_⟩
  · intro stream
    refine (htime stream).imp_of_mem ?_
    intro x y hx hy hle
    obtain ⟨hx, hxs⟩ := mem_submissionsOf.mp hx
    obtain ⟨hy, hys⟩ := mem_submissionsOf.mp hy
    have hb := hbase x hx
    rw [(htimes x hx).1, (htimes y hy).1, hys, ← hxs]
    exact rescale_mono hround hb.1 hb.2 (by omega)
  · intro x hx
    have hb := hbase x hx
    have hle : x.time ≤ x.source.pts := by
      cases hstream : x.stream with
      | video =>
          have := hvideoPts x (mem_submissionsOf.mpr ⟨hx, hstream⟩)
          simpa [Submission.time, hstream] using this
      | audio =>
          simp [Submission.time, hstream]
    rw [(htimes x hx).1, (htimes x hx).2]
    exact rescale_mono hround hb.1 hb.2 (by omega)
  · intro hflv x hx y hy hle
    obtain ⟨hx, hxs⟩ := mem_submissionsOf.mp hx
    obtain ⟨hy, hys⟩ := mem_submissionsOf.mp hy
    have hbx := openedMuxer_conBase (hpkts x hx).1
    have hby := openedMuxer_conBase (hpkts y hy).1
    rw [if_pos hflv] at hbx hby
    rw [(htimes x hx).1, (htimes y hy).1, hbx, hby]
    refine rescale_lt hround ?_
    simp only [Submission.time, hxs, hys]
    omega

end Order

/-- Two streams in FLV; the audio frame lies before the origin, and two of the
rescaled times are halves. -/
theorem packets_keep_time_order_flv :
    ∃ (tr : List MuxTransition) (s : MuxState),
      Run (muxStep exactLibAv)
        (MuxState.start (openedMuxer true true true "flv" 0 1 44100)) tr s ∧
      (submissions (eventsOf tr)).map (fun x => (x.pkt.dts, x.pkt.pts)) =
        [(0, 0), (2, 2), (-1, -1)] ∧
      ((∀ stream, (submissionsOf stream (eventsOf tr)).Pairwise
          fun x y => x.pkt.dts ≤ y.pkt.dts) ∧
        (∀ x ∈ submissions (eventsOf tr), x.pkt.dts ≤ x.pkt.pts) ∧
        (isFlv "flv" = true → ∀ x ∈ submissionsOf .video (eventsOf tr),
          ∀ y ∈ submissionsOf .video (eventsOf tr),
            x.source.dts + 1000 ≤ y.source.dts → x.pkt.dts < y.pkt.dts)) := by
  obtain ⟨tr, s, run, hpkts, hfirst, hvideo, hvideoPts, haudio⟩ :=
    Run.exists_of_exec (muxStep exactLibAv)
      (MuxState.start (openedMuxer true true true "flv" 0 1 44100))
      [passAnswers (timedFrame 5000 5000 1) 0 false,
        passAnswers (timedFrame 7000 6500 0) 0 false,
        passAnswers (timedFrame 4500 4500 0) 0 true]
      (fun r =>
        (submissions (eventsOf r.1)).map (fun x => (x.pkt.dts, x.pkt.pts)) =
          [(0, 0), (2, 2), (-1, -1)] ∧
        (∀ x ∈ (submissions (eventsOf r.1)).head?, 0 ≤ x.source.dts) ∧
        (submissionsOf .video (eventsOf r.1)).Pairwise
          (fun x y => x.source.dts ≤ y.source.dts) ∧
        (∀ x ∈ submissionsOf .video (eventsOf r.1),
          x.source.dts ≤ x.source.pts) ∧
        (submissionsOf .audio (eventsOf r.1)).Pairwise
          (fun x y => x.source.pts ≤ y.source.pts))
      (by decide +kernel)
  exact ⟨tr, s, run, hpkts, packets_keep_time_order exactLibAv_roundsExactly
    (by decide) run hfirst hvideo hvideoPts haudio⟩

end KoalaStreamer
