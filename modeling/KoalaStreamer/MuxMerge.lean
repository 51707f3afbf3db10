import KoalaStreamer.KoalaMuxer
import Mathlib.Data.List.Nodup
import Mathlib.Algebra.Order.Group.Unbundled.Int
import Mathlib.Tactic.Linarith

/-!
# mux_thread as a merge of two sources

Main results:
* `mux_thread_merge`: for finite sources and writes that return 0 or a negative
  number, the loop terminates, submits each source in order up to its first
  failed write, takes over what the writes return, asks no callback again after
  its end, releases every frame once and writes the trailer once, last;
* `streams_stop_aloud_iff`: no stream stops without a message to the listener
  if and only if every negative result of a write is one of the announced ones.
-/

namespace KoalaStreamer

open EventMachine

/-! ## Silent stops -/

/-- What these events say about why the stream is no longer served: it had
reported its end, or the listener was sent the negative result of its write. -/
def StopExplained (stream : StreamType) (es : List MuxEvent) : Prop :=
  (∃ call ret, .asked stream call ret ∈ es ∧ ret < 0) ∨
  ∃ x ∈ submissionsOf stream es, x.ret < 0 ∧ .notified x.ret ∈ es

/-- A stream that is no longer served after this step does not stop silently. -/
def StopsAloud (τ : MuxTransition) : Prop :=
  ∀ stream, τ.src.encode stream = true → τ.dst.encode stream = false →
    StopExplained stream τ.events

/-- Every negative result of a write is one of those the listener is told. -/
def WritesAnnounced (es : List MuxEvent) : Prop :=
  ∀ x ∈ submissions es, x.ret < 0 → Announced x.ret

section SilentStops

variable {lib : LibAv} {h : KoalaMuxer}

theorem writesAnnounced_append
    {es es' : List MuxEvent} :
    WritesAnnounced (es ++ es') ↔ WritesAnnounced es ∧ WritesAnnounced es' := by
  simp [WritesAnnounced, or_imp, forall_and]

theorem writesAnnounced_eventsOf
    {tr : List MuxTransition} :
    WritesAnnounced (eventsOf tr) ↔ ∀ τ ∈ tr, WritesAnnounced τ.events := by
  induction tr with
  | nil =>
      simp [WritesAnnounced]
  | cons τ tr ih =>
      have hcons : eventsOf (τ :: tr) = τ.events ++ eventsOf tr := by
        simp [eventsOf]
      rw [hcons, writesAnnounced_append, ih]
      simp

/-- The end of a pass explains nothing. -/
theorem stopExplained_passEnd
    {stream : StreamType} {es : List MuxEvent} {ended : Bool} :
    StopExplained stream (es ++ passEnd ended) ↔ StopExplained stream es := by
  simp [StopExplained, mem_submissionsOf, mem_passEnd]

/-- `write_frame` explains a result that ends the stream exactly when it
announces the result of its write. -/
theorem WriteMove.explained_iff
    {stream : StreamType} {call : ℕ} {answer : CallbackResult} {written : Int}
    {w : WriteFrameExit}
    (hw : WriteMove lib h stream call answer written w)
    (hhave : h.haveStream stream = true)
    (hlistener : h.listener = true)
    (hwritten : written ≤ 0) :
    (w.ret ≠ 0 → StopExplained stream w.events) ↔ WritesAnnounced w.events := by
  cases hw with
  | noCallback hnone =>
      rw [hhave] at hnone
      cases hnone
  | sourceEnd _ hret =>
      have hexplained : StopExplained stream [.asked stream call answer.ret] :=
        Or.inl ⟨call, answer.ret, by simp, hret⟩
      simp [hexplained, WritesAnnounced]
  | dropped h' _ hret hgate =>
      simp [WritesAnnounced]
  | wrote h' _ hret hgate =>
      have hl : h'.listener = true :=
        (listener_of_setup (setup_of_gate_pass hgate)).trans hlistener
      have hone : WritesAnnounced (.asked stream call answer.ret ::
          (submissionOf lib h' stream answer.frame written).event call ::
            (announce h' written ++ [.released stream call])) ↔
          (written < 0 → Announced written) := by
        simp [WritesAnnounced, submissionOf]
      rw [hone]
      constructor
      · intro hexpl hneg
        rcases hexpl (by simpa using hneg.ne) with
          ⟨c, ret, hmem, hlt⟩ | ⟨x, hx, _, hmem⟩
        · -- the only callback that was asked delivered a frame
          simp [Submission.event, mem_announce] at hmem
          omega
        · obtain ⟨hx, _⟩ := mem_submissionsOf.mp hx
          simp only [submissions_asked, submissions_event, submissions_append,
            submissions_announce, submissions_released, submissions_nil,
            List.append_nil, List.mem_singleton] at hx
          subst hx
          simp [Submission.event, mem_announce, submissionOf] at hmem
          exact hmem.1
      · intro hann hne
        have hneg : written < 0 := by
          have : written ≠ 0 := by simpa using hne
          omega
        refine Or.inr ⟨submissionOf lib h' stream answer.frame written, ?_, hneg, ?_⟩
        · simp [mem_submissionsOf, submissionOf]
        · simp [mem_announce, submissionOf, hann hneg, hl]

/-- One step stops no stream silently exactly when it announces its write. -/
theorem stopsAloud_iff_of_valid
    {τ : MuxTransition}
    (hτ : τ.Valid (muxStep lib))
    (hinv : MuxSetupInv h τ.src)
    (hlistener : h.listener = true)
    (hwritten : τ.action.written ≤ 0) :
    StopsAloud τ ↔ WritesAnnounced τ.events := by
  obtain ⟨s, a, es, s'⟩ := τ
  cases (muxStep_move hτ : MuxMove lib s a s' es) with
  | loopEnd hrun hdone =>
      simp [StopsAloud, WritesAnnounced, hdone]
  | pass stream w hrun hencode hw =>
      have hhave : s.pHandle.haveStream stream = true := by
        rw [haveStream_of_setup hinv.setup]
        exact hinv.have_of_encode stream hencode
      have hl : s.pHandle.listener = true :=
        (listener_of_setup hinv.setup).trans hlistener
      have hends := hw.explained_iff hhave hl hwritten
      have hwrites : WritesAnnounced (w.events ++ passEnd a.ended) ↔
          WritesAnnounced w.events := by
        simp [WritesAnnounced]
      rw [show WritesAnnounced _ ↔ _ from hwrites, ← hends]
      constructor
      · intro hloud hret
        have hexpl := hloud stream hencode (by simp [MuxState.serve, hret])
        exact stopExplained_passEnd.mp hexpl
      · intro hexpl st hst hst'
        by_cases heq : st = stream
        · subst heq
          refine stopExplained_passEnd.mpr (hexpl ?_)
          simpa [MuxState.serve] using hst'
        · simp only [MuxState.serve, Function.update_of_ne heq] at hst'
          exact absurd (hst.symm.trans hst') (by simp)

/--
With a listener and writes that return 0 or a negative number, no stream of a
run stops silently if and only if every negative result of a write in the run
is `-ETIMEDOUT`, `-EPIPE` or `-ENOTRECOVERABLE`.
-/
theorem streams_stop_aloud_iff
    {s : MuxState} {tr : List MuxTransition}
    (hlistener : h.listener = true)
    (run : Run (muxStep lib) (MuxState.start h) tr s)
    (hwritten : ∀ τ ∈ tr, τ.action.written ≤ 0) :
    (∀ τ ∈ tr, StopsAloud τ) ↔ WritesAnnounced (eventsOf tr) := by
  have hstep : ∀ τ ∈ tr, StopsAloud τ ↔ WritesAnnounced τ.events := by
    intro τ hτ
    obtain ⟨tr', _, hpre⟩ := run.prefix_of_mem τ hτ
    exact stopsAloud_iff_of_valid (run.valid τ hτ) (run_setupInv hpre)
      hlistener (hwritten τ hτ)
  rw [writesAnnounced_eventsOf]
  constructor
  · intro hloud τ hτ
    exact (hstep τ hτ).mp (hloud τ hτ)
  · intro hann τ hτ
    exact (hstep τ hτ).mpr (hann τ hτ)

end SilentStops

/-- Video and audio; the peer closes the connection on the second video frame,
and the listener is told. -/
theorem streams_stop_aloud_iff_broken_pipe :
    ∃ (tr : List MuxTransition) (s : MuxState),
      Run (muxStep exactLibAv)
        (MuxState.start (openedMuxer true true true "flv" 0 1 44100)) tr s ∧
      .notified (-EPIPE) ∈ eventsOf tr ∧
      ((∀ τ ∈ tr, StopsAloud τ) ↔ WritesAnnounced (eventsOf tr)) := by
  obtain ⟨tr, s, run, hnotified, hwritten⟩ :=
    Run.exists_of_exec (muxStep exactLibAv)
      (MuxState.start (openedMuxer true true true "flv" 0 1 44100))
      [passAnswers (timedFrame 7 7 1) 0 false,
        passAnswers (timedFrame 30 30 0) (-EPIPE) false,
        passAnswers (timedFrame 9 9 0) 0 true]
      (fun r => .notified (-EPIPE) ∈ eventsOf r.1 ∧
        ∀ τ ∈ r.1, τ.action.written ≤ 0)
      (by decide +kernel)
  exact ⟨tr, s, run, hnotified, streams_stop_aloud_iff rfl run hwritten⟩

/-- One video frame whose write returns -5, an input/output error: the stream
stops and the listener is not told. -/
theorem streams_stop_aloud_fails_io_error :
    ¬ ∀ (tr : List MuxTransition) (s : MuxState),
        Run (muxStep exactLibAv)
          (MuxState.start (openedMuxer false true true "flv" 0 0 0)) tr s →
        (∀ τ ∈ tr, τ.action.written ≤ 0) → ∀ τ ∈ tr, StopsAloud τ := by
  intro haloud
  obtain ⟨tr, s, run, hwritten, x, hx, hret⟩ :=
    Run.exists_of_exec (muxStep exactLibAv)
      (MuxState.start (openedMuxer false true true "flv" 0 0 0))
      [passAnswers (timedFrame 0 0 1) (-5) false]
      (fun r => (∀ τ ∈ r.1, τ.action.written ≤ 0) ∧
        ∃ x ∈ submissions (eventsOf r.1), x.ret = -5)
      (by decide +kernel)
  have hann : WritesAnnounced (eventsOf tr) := by
    rw [writesAnnounced_eventsOf]
    intro τ hτ
    obtain ⟨tr', _, hpre⟩ := run.prefix_of_mem τ hτ
    exact (stopsAloud_iff_of_valid (run.valid τ hτ) (run_setupInv hpre) rfl
      (hwritten τ hτ)).mp (haloud tr s run hwritten τ hτ)
  have hbad := hann x hx (by rw [hret]; decide)
  rw [hret] at hbad
  exact absurd hbad (by decide)

/-! ## The merge -/

/-- The callbacks and the writes of a whole run, by the number of the call. -/
structure MuxEnv where
  callback : StreamType → ℕ → CallbackResult
  written : ℕ → Int

/-- What the environment answers in a state; `end` is never set. -/
def MuxEnv.answers (env : MuxEnv) (s : MuxState) : MuxAnswers where
  callback := fun stream => env.callback stream (s.calls stream)
  written := env.written s.writes
  ended := false

/-- The callback delivers the frames of `source` and then reports its end. -/
def Offers (callback : ℕ → CallbackResult) (source : List MediaFrame) : Prop :=
  (∀ n x, source[n]? = some x → 0 ≤ (callback n).ret ∧ (callback n).frame = x) ∧
  (callback source.length).ret < 0

/-- The event calls the callback of the stream. -/
def MuxEvent.Asks (stream : StreamType) : MuxEvent → Prop
  | .asked st _ _ => st = stream
  | _ => False

/-- The event is the end of the stream: its callback reported it, or a write of
the stream failed. -/
def MuxEvent.Ends (stream : StreamType) : MuxEvent → Prop
  | .asked st _ ret => st = stream ∧ ret < 0
  | .submitted st _ _ _ _ ret => st = stream ∧ ret < 0
  | _ => False

/-- The frames obtained from the callbacks, as stream and number of the call. -/
def obtainedCalls (es : List MuxEvent) : List (StreamType × ℕ) :=
  es.filterMap fun
    | .asked stream call ret => if ret < 0 then none else some (stream, call)
    | _ => none

/-- The frames released, as stream and number of the call. -/
def releasedCalls (es : List MuxEvent) : List (StreamType × ℕ) :=
  es.filterMap fun
    | .released stream call => some (stream, call)
    | _ => none

/-- The packets of one stream are its frames in order, up to and including the
first whose write failed, and all of them if none failed. -/
structure StreamMerged (source : List MediaFrame) (xs : List Submission) :
    Prop where
  inOrder : xs.map (·.source) <+: source
  onlyLastFails : ∀ x ∈ xs.dropLast, x.ret = 0
  complete : (∀ x ∈ xs, x.ret = 0) → xs.map (·.source) = source

/-- The packet carries the buffer of its frame on its stream. -/
def CarriesSource (h : KoalaMuxer) (x : Submission) : Prop :=
  x.pkt.data = x.source.pBuffer ∧ x.pkt.size = x.source.size ∧
  x.pkt.flags = x.source.flag ∧ x.pkt.streamIndex = h.streamIndex x.stream

/-- The results of the packets are those of the calls of
`av_interleaved_write_frame`, in order. -/
def WritesAnswered (written : ℕ → Int) (es : List MuxEvent) : Prop :=
  ∀ k x, (submissions es)[k]? = some x → x.ret = written k

/-- What a finished run of the loop has done with its sources, when the writes
return `written`. -/
structure Merged
    (h : KoalaMuxer) (source : StreamType → List MediaFrame) (written : ℕ → Int)
    (es : List MuxEvent) : Prop where
  streams : ∀ stream, StreamMerged (source stream) (submissionsOf stream es)
  results : WritesAnswered written es
  packets : ∀ x ∈ submissions es, CarriesSource h x
  neverAskedAgain : ∀ stream, es.Pairwise fun e e' =>
    e.Ends stream → ¬ e'.Asks stream
  releasedOnce : releasedCalls es = obtainedCalls es ∧ (obtainedCalls es).Nodup
  trailerLast : ∃ body, es = body ++ [.trailer] ∧ .trailer ∉ body

section Merge

variable {lib : LibAv} {h : KoalaMuxer} {env : MuxEnv}
  {source : StreamType → List MediaFrame}

@[simp] theorem obtainedCalls_append
    (es es' : List MuxEvent) :
    obtainedCalls (es ++ es') = obtainedCalls es ++ obtainedCalls es' := by
  simp [obtainedCalls]

@[simp] theorem releasedCalls_append
    (es es' : List MuxEvent) :
    releasedCalls (es ++ es') = releasedCalls es ++ releasedCalls es' := by
  simp [releasedCalls]

@[simp] theorem obtainedCalls_announce
    (g : KoalaMuxer) (ret : Int) :
    obtainedCalls (announce g ret) = [] := by
  rcases announce_eq g ret with hann | hann <;> rw [hann] <;> rfl

@[simp] theorem releasedCalls_announce
    (g : KoalaMuxer) (ret : Int) :
    releasedCalls (announce g ret) = [] := by
  rcases announce_eq g ret with hann | hann <;> rw [hann] <;> rfl

/-- What the loop relies on in every state of the merge. -/
structure MergeState
    (h : KoalaMuxer) (source : StreamType → List MediaFrame) (s : MuxState) :
    Prop where
  setup : MuxSetupInv h s
  noRequest : s.pHandle.reqIFrame = 0
  within : ∀ stream, s.encode stream = true →
    s.calls stream ≤ (source stream).length

/-- The ways a step of the merge can go. -/
inductive MergeMove
    (lib : LibAv) (h : KoalaMuxer) (source : StreamType → List MediaFrame)
    (s : MuxState) : MuxState → List MuxEvent → Prop
  | loopEnd
      (hrun : s.finished = false)
      (hdone : ∀ stream, s.encode stream = false) :
      MergeMove lib h source s { s with finished := true } [.trailer]
  | sourceEnd (s' : MuxState) (stream : StreamType) (ret : Int)
      (hrun' : s'.finished = false)
      (hencode : s.encode stream = true)
      (hret : ret < 0)
      (hcalls : s.calls stream = (source stream).length)
      (hencode' : s'.encode = Function.update s.encode stream false)
      (hcalls' : s'.calls =
        Function.update s.calls stream (s.calls stream + 1)) :
      MergeMove lib h source s s' [.asked stream (s.calls stream) ret]
  | wrote (s' : MuxState) (stream : StreamType) (ret : Int) (x : Submission)
      (g : KoalaMuxer)
      (hrun' : s'.finished = false)
      (hencode : s.encode stream = true)
      (hret : 0 ≤ ret)
      (hsource : (source stream)[s.calls stream]? = some x.source)
      (hstream : x.stream = stream)
      (hcarries : CarriesSource h x)
      (hxret : x.ret ≤ 0)
      (hencode' : s'.encode =
        Function.update s.encode stream (decide (x.ret = 0)))
      (hcalls' : s'.calls =
        Function.update s.calls stream (s.calls stream + 1)) :
      MergeMove lib h source s s'
        (.asked stream (s.calls stream) ret :: x.event (s.calls stream) ::
          (announce g x.ret ++ [.released stream (s.calls stream)]))

/-- A submitted packet carries its frame. -/
theorem submissionOf_carries
    {h' : KoalaMuxer} (hsetup : h'.setup = h.setup)
    (stream : StreamType) (frame : MediaFrame) (written : Int) :
    CarriesSource h (submissionOf lib h' stream frame written) := by
  have hrebase : ∀ g : KoalaMuxer,
      (rebase g frame).pBuffer = frame.pBuffer ∧
      (rebase g frame).size = frame.size ∧ (rebase g frame).flag = frame.flag := by
    intro g
    simp only [rebase]
    split <;> simp
  obtain ⟨hbuf, hsize, hflag⟩ := hrebase (latchFirstPts h' frame)
  have hindex : h'.streamIndex stream = h.streamIndex stream := by
    obtain ⟨_, _, hvi, hai, _⟩ := setup_eq_iff.mp hsetup
    cases stream with
    | video =>
        exact hvi
    | audio =>
        exact hai
  cases stream <;>
    simp [CarriesSource, submissionOf, fillPacket, hbuf, hsize, hflag, hindex]

/-- A source that is not exhausted delivers its next frame, an exhausted one
reports its end. -/
theorem Offers.answer
    {callback : ℕ → CallbackResult} {frames : List MediaFrame} {n : ℕ}
    (hoffers : Offers callback frames)
    (hn : n ≤ frames.length) :
    (n = frames.length ∧ (callback n).ret < 0) ∨
    (n < frames.length ∧ 0 ≤ (callback n).ret ∧
      frames[n]? = some (callback n).frame) := by
  rcases Nat.lt_or_eq_of_le hn with hlt | heq
  · have hget : frames[n]? = some frames[n] := List.getElem?_eq_getElem hlt
    obtain ⟨hret, hframe⟩ := hoffers.1 n _ hget
    rw [← hframe] at hget
    exact Or.inr ⟨hlt, hret, hget⟩
  · subst heq
    exact Or.inl ⟨rfl, hoffers.2⟩

/-- A pass that wrote called the callback once. -/
theorem askedCount_wrote
    (g : KoalaMuxer) (stream : StreamType) (call : ℕ) (ret written : Int)
    (x : Submission) :
    askedCount (.asked stream call ret :: x.event call ::
      (announce g written ++ [.released stream call])) = 1 := by
  rcases announce_eq g written with hann | hann <;> rw [hann] <;> rfl

/-- Serving a stream once more keeps its calls within its source, if it is
still encoded only when the source was not exhausted. -/
theorem within_of_serve
    {s s' : MuxState} (stream : StreamType) {b : Bool}
    (hwithin : ∀ st, s.encode st = true → s.calls st ≤ (source st).length)
    (hencode' : s'.encode = Function.update s.encode stream b)
    (hcalls' : s'.calls =
      Function.update s.calls stream (s.calls stream + 1))
    (hroom : b = true → s.calls stream < (source stream).length) :
    ∀ st, s'.encode st = true → s'.calls st ≤ (source st).length := by
  intro st hst
  rw [hencode'] at hst
  rw [hcalls']
  by_cases heq : st = stream
  · subst heq
    rw [Function.update_self] at hst ⊢
    exact hroom hst
  · rw [Function.update_of_ne heq] at hst ⊢
    exact hwithin st hst

/-- Inversion of a step of the merge, which also keeps what it relies on. -/
theorem mergeStep_move
    {s s' : MuxState} {es : List MuxEvent}
    (hoffers : ∀ stream, h.haveStream stream = true →
      Offers (env.callback stream) (source stream))
    (hwritten : ∀ n, env.written n ≤ 0)
    (hs : MergeState h source s)
    (hstep : muxStep lib s (env.answers s) = some (s', es)) :
    MergeMove lib h source s s' es ∧ MergeState h source s' := by
  have hsetup' := muxStep_setupInv hs.setup hstep
  cases muxStep_move hstep with
  | loopEnd hrun hdone =>
      exact ⟨.loopEnd hrun hdone, hsetup', hs.noRequest, hs.within⟩
  | pass stream w hrun hencode hw =>
      have hhave : s.pHandle.haveStream stream = true := by
        rw [haveStream_of_setup hs.setup.setup]
        exact hs.setup.have_of_encode stream hencode
      have hanswer := (hoffers stream
        (hs.setup.have_of_encode stream hencode)).answer (hs.within stream hencode)
      have hreq' := hw.reqIFrame hs.noRequest
      have hgate₀ := reqIFrameGate_of_zero hs.noRequest stream
        ((env.answers s).callback stream).frame
      rw [show passEnd (env.answers s).ended = [] from rfl, List.append_nil]
      cases hw with
      | noCallback hnone =>
          rw [hhave] at hnone
          cases hnone
      | dropped h' _ hret hgate =>
          rw [hgate₀] at hgate
          cases hgate
      | sourceEnd _ hret =>
          have hcalls : s.calls stream = (source stream).length := by
            rcases hanswer with ⟨hlen, _⟩ | ⟨_, hge, _⟩
            · exact hlen
            · exact absurd hret (Int.not_lt.mpr hge)
          refine ⟨.sourceEnd _ stream _ rfl hencode hret hcalls ?_ ?_,
            hsetup', hreq', ?_⟩
          · simp [MuxState.serve]
          · simp [MuxState.serve, askedCount]
          · exact within_of_serve stream (b := false) hs.within
              (by simp [MuxState.serve]) (by simp [MuxState.serve, askedCount])
              (by simp)
      | wrote h' _ hret hgate =>
          obtain ⟨hlt, hsource⟩ : s.calls stream < (source stream).length ∧
              (source stream)[s.calls stream]? =
                some ((env.answers s).callback stream).frame := by
            rcases hanswer with ⟨_, hneg⟩ | ⟨hlt, _, hget⟩
            · exact absurd hneg (Int.not_lt.mpr hret)
            · exact ⟨hlt, hget⟩
          have hsetup : h'.setup = h.setup :=
            (setup_of_gate_pass hgate).trans hs.setup.setup
          refine ⟨.wrote _ stream _ _ h' rfl hencode hret hsource rfl
            (submissionOf_carries hsetup _ _ _) (hwritten _) ?_ ?_,
            hsetup', hreq', ?_⟩
          · rfl
          · simp only [MuxState.serve, askedCount_wrote]
          · exact within_of_serve stream hs.within
              rfl (by simp only [MuxState.serve, askedCount_wrote]) (fun _ => hlt)

/-- How much of the merge is done in a state that a run has reached. -/
structure MergeInv
    (h : KoalaMuxer) (source : StreamType → List MediaFrame)
    (es : List MuxEvent) (s : MuxState) : Prop where
  serving : ∀ stream, s.encode stream = true →
    (submissionsOf stream es).map (·.source) =
      (source stream).take (s.calls stream) ∧
    (∀ x ∈ submissionsOf stream es, x.ret = 0) ∧
    ∀ e ∈ es, ¬ e.Ends stream
  done : ∀ stream, s.encode stream = false →
    StreamMerged (source stream) (submissionsOf stream es)
  packets : ∀ x ∈ submissions es, CarriesSource h x
  neverAskedAgain : ∀ stream, es.Pairwise fun e e' =>
    e.Ends stream → ¬ e'.Asks stream
  released : releasedCalls es = obtainedCalls es
  obtained : (obtainedCalls es).Nodup ∧
    ∀ p ∈ obtainedCalls es, p.2 < s.calls p.1
  running : s.finished = false → .trailer ∉ es
  trailer : s.finished = true →
    (∀ stream, s.encode stream = false) ∧
    ∃ body, es = body ++ [.trailer] ∧ .trailer ∉ body

/-- Frames submitted so far without failure, and one more. -/
theorem streamMerged_of_failed
    {frames : List MediaFrame} {xs : List Submission} {x : Submission} {n : ℕ}
    (hsources : xs.map (·.source) = frames.take n)
    (hzero : ∀ y ∈ xs, y.ret = 0)
    (hx : frames[n]? = some x.source)
    (hfailed : x.ret ≠ 0) :
    StreamMerged frames (xs ++ [x]) := by
  refine ⟨?_, ?_, ?_⟩
  · rw [List.map_append, hsources, List.map_singleton,
      show [x.source] = frames[n]?.toList by rw [hx]; rfl, ← List.take_add_one]
    exact List.take_prefix _ _
  · simpa using hzero
  · intro hall
    exact absurd (hall x (by simp)) hfailed

/-- The end of a source that was read without a failed write. -/
theorem streamMerged_of_exhausted
    {frames : List MediaFrame} {xs : List Submission}
    (hsources : xs.map (·.source) = frames)
    (hzero : ∀ y ∈ xs, y.ret = 0) :
    StreamMerged frames xs := by
  refine ⟨hsources ▸ List.prefix_refl _, ?_, fun _ => hsources⟩
  intro x hx
  exact hzero x (List.dropLast_subset _ hx)

/-- The events of a pass that served a stream and submitted `xs`. -/
structure PassTrace
    (stream : StreamType) (call : ℕ) (xs : List Submission)
    (es : List MuxEvent) : Prop where
  asksFirst : ∃ ret tail, es = .asked stream call ret :: tail ∧
    ∀ e ∈ tail, ∀ st, ¬ e.Asks st
  endsOwn : ∀ e ∈ es, ∀ st, e.Ends st → st = stream
  submits : submissions es = xs
  ownStream : ∀ x ∈ xs, x.stream = stream
  released : releasedCalls es = obtainedCalls es
  obtained : obtainedCalls es = [] ∨ obtainedCalls es = [(stream, call)]
  noTrailer : .trailer ∉ es

theorem passTrace_sourceEnd
    (stream : StreamType) (call : ℕ) {ret : Int} (hret : ret < 0) :
    PassTrace stream call [] [.asked stream call ret] := by
  constructor
  · exact ⟨ret, [], rfl, by simp⟩
  · intro e he st hends
    rw [List.mem_singleton.mp he] at hends
    exact hends.1.symm
  · rfl
  · simp
  · simp [releasedCalls, obtainedCalls, hret]
  · simp [obtainedCalls, hret]
  · simp

theorem passTrace_wrote
    (g : KoalaMuxer) (call : ℕ) {ret : Int} (hret : 0 ≤ ret) (x : Submission) :
    PassTrace x.stream call [x]
      (.asked x.stream call ret :: x.event call ::
        (announce g x.ret ++ [.released x.stream call])) := by
  have hobtained : obtainedCalls (.asked x.stream call ret :: x.event call ::
      (announce g x.ret ++ [.released x.stream call])) = [(x.stream, call)] := by
    have htail := obtainedCalls_append (announce g x.ret) [.released x.stream call]
    rw [obtainedCalls_announce] at htail
    simpa [obtainedCalls, Submission.event, not_lt.mpr hret] using htail
  have hreleased : releasedCalls (.asked x.stream call ret :: x.event call ::
      (announce g x.ret ++ [.released x.stream call])) = [(x.stream, call)] := by
    have htail := releasedCalls_append (announce g x.ret) [.released x.stream call]
    rw [releasedCalls_announce] at htail
    simpa [releasedCalls, Submission.event] using htail
  constructor
  · refine ⟨ret, _, rfl, ?_⟩
    intro e he st hasks
    simp only [List.mem_cons, List.mem_append, mem_announce, List.not_mem_nil,
      or_false] at he
    rcases he with rfl | ⟨rfl, _⟩ | rfl <;> exact hasks
  · intro e he st hends
    simp only [List.mem_cons, List.mem_append, mem_announce, List.not_mem_nil,
      or_false] at he
    rcases he with rfl | rfl | ⟨rfl, _⟩ | rfl
    · exact hends.1.symm
    · exact hends.1.symm
    · exact hends.elim
    · exact hends.elim
  · simp
  · simp
  · rw [hreleased, hobtained]
  · exact Or.inr hobtained
  · simp [Submission.event, mem_announce]

/-- A pass asks nobody again: only its first event asks, and its stream had not
ended. -/
theorem PassTrace.neverAskedAgain
    {es es' : List MuxEvent} {stream : StreamType} {call : ℕ}
    {xs : List Submission}
    (htrace : PassTrace stream call xs es')
    (hopen : ∀ e ∈ es, ¬ e.Ends stream)
    {st : StreamType}
    (hbefore : es.Pairwise fun e e' => e.Ends st → ¬ e'.Asks st) :
    (es ++ es').Pairwise fun e e' => e.Ends st → ¬ e'.Asks st := by
  obtain ⟨ret, tail, hes', htail⟩ := htrace.asksFirst
  rw [List.pairwise_append]
  refine ⟨hbefore, ?_, ?_⟩
  · rw [hes', List.pairwise_cons]
    refine ⟨fun e he _ => htail e he st, ?_⟩
    exact List.pairwise_of_forall_mem_list fun _ _ e he _ => htail e he st
  · intro e he e' he' hends hasks
    rw [hes'] at he'
    rcases List.mem_cons.mp he' with rfl | he'
    · obtain rfl : stream = st := hasks
      exact hopen e he hends
    · exact htail e' he' st hasks

/-- The call of a pass is new. -/
theorem PassTrace.obtained_append
    {es es' : List MuxEvent} {stream : StreamType} {calls : StreamType → ℕ}
    {xs : List Submission}
    (htrace : PassTrace stream (calls stream) xs es')
    (hbefore : (obtainedCalls es).Nodup ∧ ∀ p ∈ obtainedCalls es, p.2 < calls p.1) :
    (obtainedCalls (es ++ es')).Nodup ∧
    ∀ p ∈ obtainedCalls (es ++ es'),
      p.2 < Function.update calls stream (calls stream + 1) p.1 := by
  obtain ⟨hnodup, hlt⟩ := hbefore
  have hlt' : ∀ p ∈ obtainedCalls es,
      p.2 < Function.update calls stream (calls stream + 1) p.1 := by
    intro p hp
    have hold := hlt p hp
    by_cases heq : p.1 = stream
    · rw [heq] at hold ⊢
      rw [Function.update_self]
      omega
    · rw [Function.update_of_ne heq]
      exact hold
  rw [obtainedCalls_append]
  rcases htrace.obtained with hnone | hone
  · rw [hnone, List.append_nil]
    exact ⟨hnodup, hlt'⟩
  · rw [hone]
    constructor
    · refine List.nodup_append.mpr ⟨hnodup, by simp, ?_⟩
      rintro p hp q hq rfl
      rw [List.mem_singleton.mp hq] at hp
      exact absurd (hlt _ hp) (lt_irrefl _)
    · intro p hp
      rcases List.mem_append.mp hp with hp | hp
      · exact hlt' p hp
      · rw [List.mem_singleton.mp hp, Function.update_self]
        exact Nat.lt_succ_self _

/-- What a pass submitted, by stream. -/
theorem PassTrace.submissionsOf_eq
    {es' : List MuxEvent} {stream : StreamType} {call : ℕ}
    {xs : List Submission}
    (htrace : PassTrace stream call xs es') (st : StreamType) :
    submissionsOf st es' = if st = stream then xs else [] := by
  rw [submissionsOf, htrace.submits]
  split
  · rename_i heq
    rw [List.filter_eq_self]
    intro x hx
    simpa [heq] using htrace.ownStream x hx
  · rename_i hne
    rw [List.filter_eq_nil_iff]
    intro x hx
    rw [htrace.ownStream x hx]
    simpa using Ne.symm hne

/-- A pass that served a stream keeps the invariant, if what it did for that
stream fits. -/
theorem MergeInv.pass
    {s s' : MuxState} {es es' : List MuxEvent} {stream : StreamType}
    {xs : List Submission} {b : Bool}
    (hinv : MergeInv h source es s)
    (hencode : s.encode stream = true)
    (htrace : PassTrace stream (s.calls stream) xs es')
    (hpackets : ∀ x ∈ xs, CarriesSource h x)
    (hrun : s.finished = false)
    (hrun' : s'.finished = false)
    (hencode' : s'.encode = Function.update s.encode stream b)
    (hcalls' : s'.calls = Function.update s.calls stream (s.calls stream + 1))
    (hserving : b = true →
      (submissionsOf stream es ++ xs).map (·.source) =
        (source stream).take (s.calls stream + 1) ∧
      (∀ x ∈ submissionsOf stream es ++ xs, x.ret = 0) ∧
      ∀ e ∈ es', ¬ e.Ends stream)
    (hdone : b = false →
      StreamMerged (source stream) (submissionsOf stream es ++ xs)) :
    MergeInv h source (es ++ es') s' := by
  obtain ⟨_, _, hopen⟩ := hinv.serving stream hencode
  constructor
  case serving =>
    intro st hst
    rw [hencode'] at hst
    rw [submissionsOf_append, htrace.submissionsOf_eq, hcalls']
    by_cases heq : st = stream
    · subst heq
      rw [Function.update_self] at hst ⊢
      obtain ⟨h₁, h₂, h₃⟩ := hserving hst
      rw [if_pos rfl]
      refine ⟨h₁, h₂, ?_⟩
      intro e he
      rcases List.mem_append.mp he with he | he
      · exact hopen e he
      · exact h₃ e he
    · rw [Function.update_of_ne heq] at hst ⊢
      obtain ⟨h₁, h₂, h₃⟩ := hinv.serving st hst
      rw [if_neg heq, List.append_nil]
      refine ⟨h₁, h₂, ?_⟩
      intro e he
      rcases List.mem_append.mp he with he | he
      · exact h₃ e he
      · exact fun hends => heq (htrace.endsOwn e he st hends)
  case done =>
    intro st hst
    rw [hencode'] at hst
    rw [submissionsOf_append, htrace.submissionsOf_eq]
    by_cases heq : st = stream
    · subst heq
      rw [Function.update_self] at hst
      rw [if_pos rfl]
      exact hdone hst
    · rw [Function.update_of_ne heq] at hst
      rw [if_neg heq, List.append_nil]
      exact hinv.done st hst
  case packets =>
    intro x hx
    rw [submissions_append, htrace.submits] at hx
    rcases List.mem_append.mp hx with hx | hx
    · exact hinv.packets x hx
    · exact hpackets x hx
  case neverAskedAgain =>
    intro st
    exact htrace.neverAskedAgain hopen (hinv.neverAskedAgain st)
  case released =>
    rw [releasedCalls_append, obtainedCalls_append, hinv.released,
      htrace.released]
  case obtained =>
    rw [hcalls']
    exact htrace.obtained_append hinv.obtained
  case running =>
    intro _ hmem
    rcases List.mem_append.mp hmem with hmem | hmem
    · exact hinv.running hrun hmem
    · exact htrace.noTrailer hmem
  case trailer =>
    intro hfin
    exact absurd (hfin.symm.trans hrun') (by simp)

/-- The end of the loop keeps the invariant. -/
theorem MergeInv.loopEnd
    {s : MuxState} {es : List MuxEvent}
    (hinv : MergeInv h source es s)
    (hrun : s.finished = false)
    (hdone : ∀ stream, s.encode stream = false) :
    MergeInv h source (es ++ [.trailer]) { s with finished := true } := by
  constructor
  · intro stream hencode
    exact absurd (hencode.symm.trans (hdone stream)) (by simp)
  · intro stream _
    simpa [submissionsOf] using hinv.done stream (hdone stream)
  · simpa using hinv.packets
  · intro stream
    rw [List.pairwise_append]
    refine ⟨hinv.neverAskedAgain stream, by simp, ?_⟩
    intro e _ e' he'
    rw [List.mem_singleton.mp he']
    exact fun _ hasks => hasks
  · simpa [releasedCalls, obtainedCalls] using hinv.released
  · simpa [obtainedCalls] using hinv.obtained
  · simp
  · intro _
    exact ⟨hdone, es, rfl, hinv.running hrun⟩

/-- Every step of the merge keeps the invariant. -/
theorem mergeMove_inv
    {s s' : MuxState} {es es' : List MuxEvent}
    (hinv : MergeInv h source es s)
    (hrun : s.finished = false)
    (hmove : MergeMove lib h source s s' es') :
    MergeInv h source (es ++ es') s' := by
  cases hmove with
  | loopEnd _ hdone =>
      exact hinv.loopEnd hrun hdone
  | sourceEnd _ stream ret hrun' hencode hret hcalls hencode' hcalls' =>
      obtain ⟨hsources, hzero, _⟩ := hinv.serving stream hencode
      refine hinv.pass hencode (passTrace_sourceEnd stream _ hret) (by simp)
        hrun hrun' hencode' hcalls' (by simp) ?_
      intro _
      rw [hcalls, List.take_length] at hsources
      rw [List.append_nil]
      exact streamMerged_of_exhausted hsources hzero
  | wrote _ stream ret x g hrun' hencode hret hsource hstream hcarries hxret
      hencode' hcalls' =>
      obtain ⟨hsources, hzero, _⟩ := hinv.serving stream hencode
      subst hstream
      have htrace := passTrace_wrote g (s.calls x.stream) hret x
      refine hinv.pass hencode htrace (by simpa using hcarries) hrun hrun'
        hencode' hcalls' ?_ ?_
      · intro hok
        have hok : x.ret = 0 := by simpa using hok
        refine ⟨?_, ?_, ?_⟩
        · rw [List.map_append, hsources, List.take_add_one, hsource]
          rfl
        · intro y hy
          rcases List.mem_append.mp hy with hy | hy
          · exact hzero y hy
          · rw [List.mem_singleton.mp hy]
            exact hok
        · intro e he hends
          simp only [List.mem_cons, List.mem_append, mem_announce,
            List.not_mem_nil, or_false] at he
          rcases he with rfl | rfl | ⟨rfl, _⟩ | rfl
          · exact absurd hends.2 (not_lt.mpr hret)
          · exact absurd hends.2 (by simp [hok])
          · exact hends
          · exact hends
      · intro hfailed
        exact streamMerged_of_failed hsources hzero hsource (by simpa using hfailed)

/-- What is still to be asked of a stream, its report of the end included. -/
def pendingCalls
    (source : StreamType → List MediaFrame) (s : MuxState)
    (stream : StreamType) : ℕ :=
  if s.encode stream then (source stream).length + 1 - s.calls stream else 0

/-- The passes that are left at most. -/
def pendingPasses
    (source : StreamType → List MediaFrame) (s : MuxState) : ℕ :=
  if s.finished then 0
  else 1 + pendingCalls source s .video + pendingCalls source s .audio

/-- Serving a stream leaves less to be asked of it, and the same of the other. -/
theorem pendingPasses_of_serve
    {s s' : MuxState} {stream : StreamType} {b : Bool}
    (hrun : s.finished = false)
    (hrun' : s'.finished = false)
    (hencode : s.encode stream = true)
    (hwithin : s.calls stream ≤ (source stream).length)
    (hencode' : s'.encode = Function.update s.encode stream b)
    (hcalls' : s'.calls = Function.update s.calls stream (s.calls stream + 1)) :
    pendingPasses source s' < pendingPasses source s := by
  have hself : pendingCalls source s' stream < pendingCalls source s stream := by
    simp only [pendingCalls]
    rw [hencode', hcalls', Function.update_self, Function.update_self, hencode]
    cases b <;> simp <;> omega
  have hother : ∀ st, st ≠ stream →
      pendingCalls source s' st = pendingCalls source s st := by
    intro st hne
    simp only [pendingCalls]
    rw [hencode', hcalls', Function.update_of_ne hne, Function.update_of_ne hne]
  simp only [pendingPasses]
  rw [hrun, hrun']
  cases stream with
  | video =>
      have := hother .audio (by simp)
      simp
      omega
  | audio =>
      have := hother .video (by simp)
      simp
      omega

theorem pendingPasses_lt
    {s s' : MuxState} {es : List MuxEvent}
    (hs : MergeState h source s)
    (hrun : s.finished = false)
    (hmove : MergeMove lib h source s s' es) :
    pendingPasses source s' < pendingPasses source s := by
  cases hmove with
  | loopEnd _ hdone =>
      simp [pendingPasses, hrun]
  | sourceEnd _ stream ret hrun' hencode hret hcalls hencode' hcalls' =>
      exact pendingPasses_of_serve hrun hrun' hencode (hs.within stream hencode)
        hencode' hcalls'
  | wrote _ stream ret x g hrun' hencode hret hsource hstream hcarries hxret
      hencode' hcalls' =>
      exact pendingPasses_of_serve hrun hrun' hencode (hs.within stream hencode)
        hencode' hcalls'

/-- The loop only stops when it has returned. -/
theorem muxStep_eq_none_iff
    {s : MuxState} {a : MuxAnswers} :
    muxStep lib s a = none ↔ s.finished = true := by
  simp only [muxStep]
  by_cases hfin : s.finished = true
  · simp [hfin]
  · rw [if_neg hfin]
    refine iff_of_false ?_ hfin
    split
    · simp
    · split <;> simp

theorem muxStep_running
    {s s' : MuxState} {a : MuxAnswers} {es : List MuxEvent}
    (hstep : muxStep lib s a = some (s', es)) :
    s.finished = false := by
  cases hfin : s.finished with
  | true =>
      rw [muxStep_eq_none_iff.mpr hfin] at hstep
      cases hstep
  | false =>
      rfl

theorem mergeState_start
    (hreq : h.reqIFrame = 0) :
    MergeState h source (MuxState.start h) :=
  ⟨⟨rfl, fun _ hst => hst⟩, hreq, fun _ _ => Nat.zero_le _⟩

/-- Nothing is merged before the first pass. -/
theorem mergeInv_start
    (habsent : ∀ stream, h.haveStream stream = false → source stream = []) :
    MergeInv h source [] (MuxState.start h) := by
  constructor
  · intro stream _
    exact ⟨by simp [submissionsOf, MuxState.start], by simp [submissionsOf], by simp⟩
  · intro stream hstream
    rw [habsent stream hstream]
    exact ⟨List.prefix_refl _, by simp [submissionsOf], fun _ => rfl⟩
  · simp
  · simp
  · rfl
  · simp [obtainedCalls]
  · simp
  · simp [MuxState.start]

/-! ### What the writes return -/

theorem submittedCount_eq
    (es : List MuxEvent) : submittedCount es = (submissions es).length := by
  simp only [submittedCount, submissions, List.countP_eq_length_filter]
  induction es with
  | nil =>
      rfl
  | cons e es ih =>
      cases e <;> simp [ih]

/-- `write_frame` writes at most once, and the packet has the result. -/
theorem WriteMove.submitted
    {stream : StreamType} {call : ℕ} {answer : CallbackResult} {written : Int}
    {g : KoalaMuxer} {w : WriteFrameExit}
    (hw : WriteMove lib g stream call answer written w) :
    submissions w.events = [] ∨
    ∃ x, submissions w.events = [x] ∧ x.ret = written := by
  cases hw with
  | noCallback hnone =>
      exact Or.inl rfl
  | sourceEnd hhave hret =>
      exact Or.inl rfl
  | dropped h' hhave hret hgate =>
      exact Or.inl rfl
  | wrote h' hhave hret hgate =>
      exact Or.inr ⟨submissionOf lib h' stream answer.frame written, by simp, rfl⟩

/-- One packet more, with the result of the next write. -/
theorem WritesAnswered.snoc
    {written : ℕ → Int} {es es' : List MuxEvent} {x : Submission}
    (hanswered : WritesAnswered written es)
    (hone : submissions es' = [x])
    (hret : x.ret = written (submissions es).length) :
    WritesAnswered written (es ++ es') := by
  intro k y hy
  rw [submissions_append, hone] at hy
  rcases Nat.lt_or_ge k (submissions es).length with hlt | hge
  · rw [List.getElem?_append_left hlt] at hy
    exact hanswered k y hy
  · rw [List.getElem?_append_right hge, List.getElem?_singleton] at hy
    split at hy
    · rename_i hzero
      obtain rfl := Option.some.inj hy
      rw [hret, show k = (submissions es).length by omega]
    · cases hy

/-- Packets and writes are counted alike, and a packet has the result of its
write. -/
def AnsweredSoFar
    (written : ℕ → Int) (es : List MuxEvent) (s : MuxState) : Prop :=
  s.writes = (submissions es).length ∧ WritesAnswered written es

/-- A step whose write returns what is assigned to it. -/
theorem muxStep_answered
    {written : ℕ → Int} {s s' : MuxState} {a : MuxAnswers} {es es' : List MuxEvent}
    (hanswered : AnsweredSoFar written es s)
    (ha : a.written = written s.writes)
    (hstep : muxStep lib s a = some (s', es')) :
    AnsweredSoFar written (es ++ es') s' := by
  obtain ⟨hwrites, hresults⟩ := hanswered
  cases muxStep_move hstep with
  | loopEnd hrun hdone =>
      have hnone : submissions (es ++ [.trailer]) = submissions es := by simp
      refine ⟨hwrites.trans (by rw [hnone]), ?_⟩
      rw [WritesAnswered, hnone]
      exact hresults
  | pass stream w hrun hencode hw =>
      have hsame : submissions (w.events ++ passEnd a.ended) =
          submissions w.events := by simp
      have hcount : s.writes + submittedCount w.events =
          (submissions (es ++ (w.events ++ passEnd a.ended))).length := by
        rw [submissions_append, hsame, List.length_append, submittedCount_eq, hwrites]
      refine ⟨hcount, ?_⟩
      rcases hw.submitted with hnone | ⟨x, hone, hret⟩
      · rw [WritesAnswered, submissions_append, hsame, hnone, List.append_nil]
        exact hresults
      · exact hresults.snoc (hsame.trans hone) (by rw [hret, ha, hwrites])

/--
`mux_thread` on two finite sources, either of which may be absent, with writes
that return 0 or a negative number and with `end` never set: after finitely many
passes the loop has returned, and what it did is the lossless merge `Merged`, in
which a write fails exactly where its result says so.
-/
theorem mux_thread_merge
    (hreq : h.reqIFrame = 0)
    (hoffers : ∀ stream, h.haveStream stream = true →
      Offers (env.callback stream) (source stream))
    (habsent : ∀ stream, h.haveStream stream = false → source stream = [])
    (hwritten : ∀ n, env.written n ≤ 0) :
    ∃ n tr s, drive (muxStep lib) env.answers n (MuxState.start h) = (tr, s) ∧
      s.finished = true ∧ Merged h source env.written (eventsOf tr) := by
  let n := pendingPasses source (MuxState.start h) + 1
  let r := drive (muxStep lib) env.answers n (MuxState.start h)
  have hfinished : r.2.finished = true := by
    refine muxStep_eq_none_iff.mp
      (drive_stops (MergeState h source) (pendingPasses source) ?_ n
        (MuxState.start h) (mergeState_start hreq) (Nat.lt_succ_self _))
    intro s s' es hs hstep
    obtain ⟨hmove, hs'⟩ := mergeStep_move hoffers hwritten hs hstep
    exact ⟨hs', pendingPasses_lt hs (muxStep_running hstep) hmove⟩
  obtain ⟨run, hactions⟩ :=
    Run.of_drive (muxStep lib) env.answers n (MuxState.start h)
  have hinv : MergeInv h source (eventsOf r.1) r.2 ∧ MergeState h source r.2 ∧
      AnsweredSoFar env.written (eventsOf r.1) r.2 := by
    refine Run.invariant_of (fun τ => τ.action = env.answers τ.src)
      (fun tr s => MergeInv h source (eventsOf tr) s ∧ MergeState h source s ∧
        AnsweredSoFar env.written (eventsOf tr) s)
      ⟨mergeInv_start habsent, mergeState_start hreq, rfl, fun _ _ h => nomatch h⟩
      ?_ run hactions
    rintro tr s a es s' ⟨hinv, hs, hanswered⟩ hstep hact
    obtain rfl : a = env.answers s := hact
    obtain ⟨hmove, hs'⟩ := mergeStep_move hoffers hwritten hs hstep
    rw [eventsOf_snoc]
    exact ⟨mergeMove_inv hinv (muxStep_running hstep) hmove, hs',
      muxStep_answered hanswered rfl hstep⟩
  obtain ⟨hdone, htrailer⟩ := hinv.1.trailer hfinished
  exact ⟨n, r.1, r.2, rfl, hfinished,
    fun stream => hinv.1.done stream (hdone stream), hinv.2.2.2, hinv.1.packets,
    hinv.1.neverAskedAgain, ⟨hinv.1.released, hinv.1.obtained.1⟩, htrailer⟩

end Merge

/-- A callback that delivers the frames of a list. -/
def listCallback (frames : List MediaFrame) (n : ℕ) : CallbackResult :=
  match frames[n]? with
  | some x => ⟨0, x⟩
  | none => ⟨-1, mediaFrameCreate⟩

theorem offers_listCallback
    (frames : List MediaFrame) :
    Offers (listCallback frames) frames := by
  constructor
  · intro n x hx
    simp [listCallback, hx]
  · simp [listCallback]

/-- Three video frames and two audio frames. -/
def shortSource : StreamType → List MediaFrame
  | .video => [timedFrame 40 0 1, timedFrame 20 20 0, timedFrame 60 40 0]
  | .audio => [timedFrame 10 10 0, timedFrame 90 90 0]

/-- The third write of the run fails. -/
theorem mux_thread_merge_third_write_fails :
    ∃ n tr s,
      drive (muxStep exactLibAv)
        (MuxEnv.answers
          { callback := fun stream => listCallback (shortSource stream)
            written := fun n => if n = 2 then -EPIPE else 0 }) n
        (MuxState.start (openedMuxer true true true "flv" 0 1 44100)) = (tr, s) ∧
      s.finished = true ∧
      Merged (openedMuxer true true true "flv" 0 1 44100) shortSource
        (fun n => if n = 2 then -EPIPE else 0) (eventsOf tr) := by
  refine mux_thread_merge rfl (fun stream _ => offers_listCallback _) ?_ ?_
  · intro stream hnone
    cases stream <;> cases hnone
  · intro n
    show (if n = 2 then -EPIPE else 0) ≤ 0
    split <;> decide

end KoalaStreamer
