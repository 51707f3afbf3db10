import KoalaStreamer.EncodedTransport
import KoalaStreamer.MuxTimeline
import KoalaStreamer.ShutdownProgress

/-!
# The mux thread of the pipeline and the loop of mux_thread

The loop of `mux_thread` serves a stream in one step, whatever its callbacks answer.  In
the pipeline the callbacks are the queues: one pass takes many steps, between which the
other threads work on the frames, and the end of the pass is known only after the packet
has been submitted.  The pipeline still does nothing that the loop does not.

Main results:
* `mux_thread_refined`: every run of the pipeline is one of the loop, which submits the
  same packets;
* `submitted_as_encoded`: the packets that FFmpeg is given for a stream are those that the
  encoder has given out, moved by one origin and rescaled, with some of them missing.
-/

namespace KoalaStreamer

open EventMachine

/-! ## What is submitted -/

section Submitted

/-- What the step gives to `av_interleaved_write_frame`. -/
def submittedIn (lib : LibAv) (τ : PipelineTransition) : List Submission :=
  match τ.action, τ.src.mux with
  | .mux answer, .writing stream pFrame =>
      submissions (writeObtained lib τ.src.pHandle stream 0 (τ.src.heap pFrame)
        answer.written).events
  | _, _ => []

/-- What a run gives to `av_interleaved_write_frame`. -/
def muxSubmissions (lib : LibAv) (tr : List PipelineTransition) : List Submission :=
  tr.flatMap (submittedIn lib)

variable {lib : LibAv} {h : KoalaMuxer} {stream : StreamType} {frame : MediaFrame}
  {written : Int} {m : MuxState} {a : MuxAnswers}

/-- The number of the call is only in the events. -/
theorem writeObtained_call
    (lib : LibAv) (h : KoalaMuxer) (stream : StreamType) (call : ℕ) (frame : MediaFrame)
    (written : Int) :
    (writeObtained lib h stream call frame written).ret =
      (writeObtained lib h stream 0 frame written).ret ∧
    (writeObtained lib h stream call frame written).pHandle =
      (writeObtained lib h stream 0 frame written).pHandle ∧
    submissions (writeObtained lib h stream call frame written).events =
      submissions (writeObtained lib h stream 0 frame written).events := by
  simp only [writeObtained]
  cases reqIFrameGate h stream frame with
  | drop h' =>
      exact ⟨rfl, rfl, rfl⟩
  | pass h' =>
      refine ⟨rfl, rfl, ?_⟩
      simp only [writeSubmit_events, submissions_event, submissions_append]
      rfl

/-- Without a request for a key frame every frame is submitted. -/
theorem writeObtained_of_zero
    (hreq : h.reqIFrame = 0) :
    submissions (writeObtained lib h stream 0 frame written).events =
      [submissionOf lib h stream frame written] ∧
    (writeObtained lib h stream 0 frame written).pHandle.reqIFrame = 0 := by
  simp only [writeObtained, reqIFrameGate_of_zero hreq]
  refine ⟨?_, ?_⟩
  · rw [writeSubmit_events, submissions_event, submissions_append, submissions_announce]
    rfl
  · simpa [writeSubmit] using hreq

/-- The loop serves the stream that is selected. -/
theorem muxStep_serves
    (hrun : m.finished = false)
    (hselect : selectStream lib m.pHandle m.encode = some stream) :
    ∃ m' es, muxStep lib m a = some (m', es) ∧ m'.finished = a.ended ∧
      m'.pHandle = (writeFrame lib m.pHandle stream (m.calls stream)
        (a.callback stream) a.written).pHandle ∧
      m'.encode = Function.update m.encode stream
        ((writeFrame lib m.pHandle stream (m.calls stream) (a.callback stream)
          a.written).ret = 0) ∧
      submissions es = submissions (writeFrame lib m.pHandle stream (m.calls stream)
        (a.callback stream) a.written).events := by
  simp only [muxStep, hrun, hselect]
  cases hended : a.ended with
  | true =>
      exact ⟨_, _, rfl, rfl, rfl, rfl, by simp⟩
  | false =>
      exact ⟨_, _, rfl, hrun, rfl, rfl, rfl⟩

/-- The callback has no frame, or there is none. -/
theorem muxStep_ends
    (hrun : m.finished = false)
    (hselect : selectStream lib m.pHandle m.encode = some stream) (ended : Bool) :
    ∃ a m' es, muxStep lib m a = some (m', es) ∧ m'.finished = ended ∧
      m'.pHandle = m.pHandle ∧ m'.encode = Function.update m.encode stream false ∧
      submissions es = [] := by
  obtain ⟨m', es, hstep, hfinished, hpHandle, hencode, hes⟩ :=
    muxStep_serves (a := ⟨fun _ => ⟨-1, mediaFrameCreate⟩, 0, ended⟩) hrun hselect
  have hwrite : ∀ call, (writeFrame lib m.pHandle stream call ⟨-1, mediaFrameCreate⟩ 0).ret = 1 ∧
      (writeFrame lib m.pHandle stream call ⟨-1, mediaFrameCreate⟩ 0).pHandle = m.pHandle ∧
      submissions (writeFrame lib m.pHandle stream call ⟨-1, mediaFrameCreate⟩ 0).events =
        [] := by
    intro call
    simp only [writeFrame]
    cases m.pHandle.haveStream stream with
    | true =>
        exact ⟨rfl, rfl, rfl⟩
    | false =>
        exact ⟨rfl, rfl, rfl⟩
  obtain ⟨hret, hkept, hnone⟩ := hwrite (m.calls stream)
  refine ⟨_, m', es, hstep, hfinished, hpHandle.trans hkept, ?_, hes.trans hnone⟩
  rw [hencode, hret]
  rfl

/-- The callback has a frame. -/
theorem muxStep_obtains
    (hrun : m.finished = false)
    (hselect : selectStream lib m.pHandle m.encode = some stream)
    (hhave : m.pHandle.haveStream stream = true)
    (frame : MediaFrame) (written : Int) (ended : Bool) :
    ∃ a m' es, muxStep lib m a = some (m', es) ∧ m'.finished = ended ∧
      m'.pHandle = (writeObtained lib m.pHandle stream 0 frame written).pHandle ∧
      m'.encode = Function.update m.encode stream
        ((writeObtained lib m.pHandle stream 0 frame written).ret = 0) ∧
      submissions es =
        submissions (writeObtained lib m.pHandle stream 0 frame written).events := by
  obtain ⟨m', es, hstep, hfinished, hpHandle, hencode, hes⟩ :=
    muxStep_serves (a := ⟨fun _ => ⟨0, frame⟩, written, ended⟩) hrun hselect
  have hwrite : ∀ call, writeFrame lib m.pHandle stream call ⟨0, frame⟩ written =
      { writeObtained lib m.pHandle stream call frame written with
        events := .asked stream call 0 ::
          (writeObtained lib m.pHandle stream call frame written).events } := by
    intro call
    simp only [writeFrame, hhave, if_true]
    rfl
  obtain ⟨hret, hkept, hsubmitted⟩ :=
    writeObtained_call lib m.pHandle stream (m.calls stream) frame written
  refine ⟨_, m', es, hstep, hfinished, ?_, ?_, ?_⟩
  · rw [hpHandle, hwrite]
    exact hkept
  · rw [hencode, hwrite]
    dsimp only
    rw [hret]
  · rw [hes, hwrite]
    exact hsubmitted

end Submitted

/-! ## The loop beside the pipeline -/

section Beside

/-- The stream of a pass whose callback has been called and has not ended. -/
def MuxPc.asking : MuxPc → Option StreamType
  | .dequeueing stream _ => some stream
  | .dequeueWaiting stream _ => some stream
  | .dequeued stream _ _ => some stream
  | .callbackReleasing stream _ => some stream
  | .writing stream _ => some stream
  | _ => none

/-- The state of the loop while the mux thread is where it is in the pipeline; `owed` is
what the pass has submitted that the loop has yet to do. -/
inductive LoopBeside (lib : LibAv) (s : PipelineState) (m : MuxState) :
    List Submission → Prop
  | notCreated (hpc : s.mux = .notCreated) (hstart : m = MuxState.start s.pHandle) :
      LoopBeside lib s m []
  | between (hpc : s.mux = .loopHead) (hrun : m.finished = false)
      (hpHandle : m.pHandle = s.pHandle) (hencode : m.encode = s.encode) :
      LoopBeside lib s m []
  | asking (stream : StreamType) (hpc : s.mux.asking = some stream)
      (hrun : m.finished = false) (hpHandle : m.pHandle = s.pHandle)
      (hencode : m.encode = s.encode)
      (hselect : selectStream lib m.pHandle m.encode = some stream)
      (hhave : m.pHandle.haveStream stream = true) :
      LoopBeside lib s m []
  | ending (stream : StreamType) (hpc : s.mux = .callbackEnd stream)
      (hrun : m.finished = false) (hpHandle : m.pHandle = s.pHandle)
      (hencode : m.encode = s.encode)
      (hselect : selectStream lib m.pHandle m.encode = some stream) :
      LoopBeside lib s m []
  | wrote (stream : StreamType) (pFrame : FrameId) (frame : MediaFrame) (written : Int)
      (hpc : s.mux = .releasing stream pFrame
        (writeObtained lib m.pHandle stream 0 frame written).ret)
      (hrun : m.finished = false)
      (hpHandle : (writeObtained lib m.pHandle stream 0 frame written).pHandle = s.pHandle)
      (hencode : m.encode = s.encode)
      (hselect : selectStream lib m.pHandle m.encode = some stream)
      (hhave : m.pHandle.haveStream stream = true) :
      LoopBeside lib s m (submissions (writeObtained lib m.pHandle stream 0 frame written).events)
  | exited (hpc : s.mux = .exited) (hend : m.finished = true)
      (hpHandle : m.pHandle = s.pHandle) (hencode : m.encode = s.encode) :
      LoopBeside lib s m []

/-- What the loop goes by is left alone. -/
structure SameLoop (s s' : PipelineState) : Prop where
  mux : s'.mux = s.mux
  pHandle : s'.pHandle = s.pHandle
  encode : s'.encode = s.encode

variable {cfg : StreamerConfig} {lib : LibAv} {s s' : PipelineState} {m : MuxState}
  {a : PipelineAction} {es : List PipelineEvent} {owed : List Submission}

theorem LoopBeside.congr
    (h : LoopBeside lib s m owed) (hsame : SameLoop s s') :
    LoopBeside lib s' m owed := by
  cases h with
  | notCreated hpc hstart =>
      exact .notCreated (hsame.mux.trans hpc) (by rw [hstart, hsame.pHandle])
  | between hpc hrun hpHandle hencode =>
      exact .between (hsame.mux.trans hpc) hrun (hpHandle.trans hsame.pHandle.symm)
        (hencode.trans hsame.encode.symm)
  | asking stream hpc hrun hpHandle hencode hselect hhave =>
      exact .asking stream (by rw [hsame.mux, hpc]) hrun
        (hpHandle.trans hsame.pHandle.symm) (hencode.trans hsame.encode.symm) hselect hhave
  | ending stream hpc hrun hpHandle hencode hselect =>
      exact .ending stream (hsame.mux.trans hpc) hrun
        (hpHandle.trans hsame.pHandle.symm) (hencode.trans hsame.encode.symm) hselect
  | wrote stream pFrame frame written hpc hrun hpHandle hencode hselect hhave =>
      exact .wrote stream pFrame frame written (hsame.mux.trans hpc) hrun
        (hpHandle.trans hsame.pHandle.symm) (hencode.trans hsame.encode.symm) hselect hhave
  | exited hpc hend hpHandle hencode =>
      exact .exited (hsame.mux.trans hpc) hend (hpHandle.trans hsame.pHandle.symm)
        (hencode.trans hsame.encode.symm)

theorem mediaFrameRelease_loop
    (s : PipelineState) (pFrame : FrameId) :
    SameLoop s (s.mediaFrameRelease pFrame) := by
  obtain ⟨_, _, _, h⟩ := mediaFrameRelease_eq s pFrame
  rw [h]
  exact ⟨rfl, rfl, rfl⟩

theorem getMediaFrame_loop
    (s : PipelineState) :
    SameLoop s s.getMediaFrame.2 := by
  simp only [PipelineState.getMediaFrame]
  split <;> exact ⟨rfl, rfl, rfl⟩

theorem deviceStep_loop
    {answer : DeviceAnswer}
    (h : deviceStep cfg s answer = some (s', es)) :
    SameLoop s s' := by
  cases deviceStep_case h with
  | getsFrame pkt streamIndex hpc =>
      have hsame := getMediaFrame_loop s
      exact ⟨hsame.mux, hsame.pHandle, hsame.encode⟩
  | releases pFrame hpc =>
      have hsame := mediaFrameRelease_loop s pFrame
      exact ⟨hsame.mux, hsame.pHandle, hsame.encode⟩
  | cleanReleases q size stop pFrame hpc =>
      have hsame := mediaFrameRelease_loop s pFrame
      exact ⟨hsame.mux, hsame.pHandle, hsame.encode⟩
  | _ =>
      exact ⟨rfl, rfl, rfl⟩

theorem encoderStep_loop
    {e : EncoderId} {answer : EncoderAnswer}
    (h : encoderStep s e answer = some (s', es)) :
    SameLoop s s' := by
  cases encoderStep_case h with
  | deals pFrame hpc =>
      cases answer.encoded <;> exact ⟨rfl, rfl, rfl⟩
  | getsFrame pkt out hpc =>
      have hsame := getMediaFrame_loop s
      exact ⟨hsame.mux, hsame.pHandle, hsame.encode⟩
  | releasesEncoded pFrame pkt out hpc =>
      have hsame := mediaFrameRelease_loop s pFrame
      exact ⟨hsame.mux, hsame.pHandle, hsame.encode⟩
  | releasesInput pFrame hpc =>
      have hsame := mediaFrameRelease_loop s pFrame
      exact ⟨hsame.mux, hsame.pHandle, hsame.encode⟩
  | releases pFrame hpc =>
      have hsame := mediaFrameRelease_loop s pFrame
      exact ⟨hsame.mux, hsame.pHandle, hsame.encode⟩
  | _ =>
      exact ⟨rfl, rfl, rfl⟩

/-- The loop answers a step of the pipeline; what the step submits it owes first. -/
def LoopAnswers (lib : LibAv) (m : MuxState) (owed : List Submission) (s' : PipelineState)
    (submitted : List Submission) : Prop :=
  ∃ mtr m' owed', Run (muxStep lib) m mtr m' ∧ LoopBeside lib s' m' owed' ∧
    submissions (eventsOf mtr) ++ owed' = owed ++ submitted

theorem LoopBeside.answers
    {submitted : List Submission} (h : LoopBeside lib s' m (owed ++ submitted)) :
    LoopAnswers lib m owed s' submitted :=
  ⟨[], m, _, Run.nil, h, rfl⟩

/-- The loop does the pass at its end. -/
theorem LoopBeside.passes
    {ma : MuxAnswers} {m' : MuxState} {mes : List MuxEvent}
    (hstep : muxStep lib m ma = some (m', mes)) (h : LoopBeside lib s' m' [])
    (hsubmitted : submissions mes = owed) :
    LoopAnswers lib m owed s' [] := by
  refine ⟨_, m', [], Run.single hstep, h, ?_⟩
  rw [List.append_nil, List.append_nil, ← hsubmitted]
  simp [eventsOf]

/-- Where the mux thread goes on after a pass. -/
theorem muxPassEnd_beside
    {mid : PipelineState} {stream : StreamType} {ret : Int} {ended : Bool} {m' : MuxState}
    (hfinished : m'.finished = ended) (hpHandle : m'.pHandle = mid.pHandle)
    (hencode : m'.encode = Function.update mid.encode stream (ret = 0)) :
    LoopBeside lib (muxPassEnd mid stream ret ended) m' [] := by
  cases ended with
  | true =>
      exact .exited rfl hfinished hpHandle hencode
  | false =>
      exact .between rfl hfinished hpHandle hencode

/-! Where the mux thread is tells which state of the loop is beside it. -/

theorem LoopBeside.of_loopHead
    (h : LoopBeside lib s m owed) (hpc : s.mux = .loopHead) :
    owed = [] ∧ m.finished = false ∧ m.pHandle = s.pHandle ∧ m.encode = s.encode := by
  cases h <;> simp_all [MuxPc.asking]

theorem LoopBeside.of_asking
    {stream : StreamType}
    (h : LoopBeside lib s m owed) (hpc : s.mux.asking = some stream) :
    owed = [] ∧ m.finished = false ∧ m.pHandle = s.pHandle ∧ m.encode = s.encode ∧
    selectStream lib m.pHandle m.encode = some stream ∧
    m.pHandle.haveStream stream = true := by
  cases h <;> simp_all [MuxPc.asking]

theorem LoopBeside.of_callbackEnd
    {stream : StreamType}
    (h : LoopBeside lib s m owed) (hpc : s.mux = .callbackEnd stream) :
    owed = [] ∧ m.finished = false ∧ m.pHandle = s.pHandle ∧ m.encode = s.encode ∧
    selectStream lib m.pHandle m.encode = some stream := by
  cases h <;> simp_all [MuxPc.asking]

theorem LoopBeside.of_releasing
    {stream : StreamType} {pFrame : FrameId} {ret : Int}
    (h : LoopBeside lib s m owed) (hpc : s.mux = .releasing stream pFrame ret) :
    ∃ frame written,
      ret = (writeObtained lib m.pHandle stream 0 frame written).ret ∧
      owed = submissions (writeObtained lib m.pHandle stream 0 frame written).events ∧
      m.finished = false ∧
      (writeObtained lib m.pHandle stream 0 frame written).pHandle = s.pHandle ∧
      m.encode = s.encode ∧
      selectStream lib m.pHandle m.encode = some stream ∧
      m.pHandle.haveStream stream = true := by
  cases h with
  | wrote stream' pFrame' frame written hpc' hrun hpHandle hencode hselect hhave =>
      obtain ⟨rfl, rfl, rfl⟩ := MuxPc.releasing.inj (hpc.symm.trans hpc')
      exact ⟨frame, written, rfl, rfl, hrun, hpHandle, hencode, hselect, hhave⟩
  | _ =>
      simp_all [MuxPc.asking]

theorem LoopBeside.of_notCreated
    (h : LoopBeside lib s m owed) (hpc : s.mux = .notCreated) :
    owed = [] ∧ m = MuxState.start s.pHandle := by
  cases h <;> simp_all [MuxPc.asking]

/-- The callback goes on asking. -/
theorem LoopBeside.asks
    {stream : StreamType} {pc : MuxPc} {mid : PipelineState}
    (h : LoopBeside lib s m owed) (hpc : s.mux.asking = some stream)
    (hnext : pc.asking = some stream) (hpHandle : mid.pHandle = s.pHandle)
    (hencode : mid.encode = s.encode) :
    LoopAnswers lib m owed (mid.setMux pc) [] := by
  obtain ⟨rfl, hrun, hp, he, hselect, hhave⟩ := h.of_asking hpc
  exact LoopBeside.answers (.asking stream hnext hrun (hp.trans hpHandle.symm)
    (he.trans hencode.symm) hselect hhave)

/-- The callback ends without a frame. -/
theorem LoopBeside.gives_up
    {stream : StreamType} {mid : PipelineState}
    (h : LoopBeside lib s m owed) (hpc : s.mux.asking = some stream)
    (hpHandle : mid.pHandle = s.pHandle) (hencode : mid.encode = s.encode) :
    LoopAnswers lib m owed (mid.setMux (.callbackEnd stream)) [] := by
  obtain ⟨rfl, hrun, hp, he, hselect, hhave⟩ := h.of_asking hpc
  exact LoopBeside.answers (.ending stream rfl hrun (hp.trans hpHandle.symm)
    (he.trans hencode.symm) hselect)

theorem muxThreadStep_answers
    {answer : MuxAnswer}
    (h : LoopBeside lib s m owed) (hstep : muxThreadStep lib s answer = some (s', es)) :
    LoopAnswers lib m owed s' (submittedIn lib ⟨s, .mux answer, es, s'⟩) := by
  cases muxThreadStep_case hstep with
  | exits hpc hselect =>
      obtain ⟨rfl, hrun, hpHandle, hencode⟩ := h.of_loopHead hpc
      have hends : muxStep lib m ⟨fun _ => ⟨0, mediaFrameCreate⟩, 0, false⟩ =
          some ({ m with finished := true }, [.trailer]) := by
        simp [muxStep, hrun, hpHandle, hencode, hselect]
      simp only [submittedIn, hpc]
      exact LoopBeside.passes hends (.exited rfl rfl hpHandle hencode) rfl
  | selects stream hpc hselect hhave =>
      obtain ⟨rfl, hrun, hpHandle, hencode⟩ := h.of_loopHead hpc
      simp only [submittedIn, hpc]
      refine LoopBeside.answers (.asking stream rfl hrun hpHandle hencode ?_ ?_)
      · rw [hpHandle, hencode, hselect]
      · rw [hpHandle, hhave]
  | skips stream hpc hselect hhave =>
      obtain ⟨rfl, hrun, hpHandle, hencode⟩ := h.of_loopHead hpc
      simp only [submittedIn, hpc]
      refine LoopBeside.answers (.ending stream rfl hrun hpHandle hencode ?_)
      rw [hpHandle, hencode, hselect]
  | dequeueWaits stream again hpc hlocked hempty =>
      simp only [submittedIn, hpc]
      exact h.asks (by rw [hpc]; rfl) rfl rfl rfl
  | gets stream again hpc hlocked hsome =>
      simp only [submittedIn, hpc]
      exact h.asks (by rw [hpc]; rfl) rfl rfl rfl
  | dequeueWakes stream again hpc hlocked =>
      simp only [submittedIn, hpc]
      exact h.asks (by rw [hpc]; rfl) rfl rfl rfl
  | stopsWithFrame stream again pFrame hpc hstop =>
      simp only [submittedIn, hpc]
      exact h.asks (by rw [hpc]; rfl) rfl rfl rfl
  | stops stream again hpc hstop =>
      simp only [submittedIn, hpc]
      exact h.gives_up (by rw [hpc]; rfl) rfl rfl
  | obtains stream again pFrame hpc hstop =>
      simp only [submittedIn, hpc]
      exact h.asks (by rw [hpc]; rfl) rfl rfl rfl
  | asksAgain stream again hpc hstop =>
      simp only [submittedIn, hpc]
      exact h.asks (by rw [hpc]; rfl) rfl rfl rfl
  | callbackReleases stream pFrame hpc =>
      have hsame := mediaFrameRelease_loop s pFrame
      simp only [submittedIn, hpc]
      exact h.gives_up (by rw [hpc]; rfl) hsame.pHandle hsame.encode
  | callbackEnds stream hpc =>
      obtain ⟨rfl, hrun, hpHandle, hencode, hselect⟩ := h.of_callbackEnd hpc
      obtain ⟨ma, m', mes, hm, hfinished, hkept, hserved, hnone⟩ :=
        muxStep_ends hrun hselect answer.ended
      simp only [submittedIn, hpc]
      refine LoopBeside.passes hm (muxPassEnd_beside hfinished (hkept.trans hpHandle) ?_) hnone
      rw [hserved, hencode]
      rfl
  | writes stream pFrame hpc =>
      obtain ⟨rfl, hrun, hpHandle, hencode, hselect, hhave⟩ :=
        h.of_asking (show s.mux.asking = some stream by rw [hpc]; rfl)
      simp only [submittedIn, hpc, ← hpHandle]
      exact LoopBeside.answers (.wrote stream pFrame (s.heap pFrame) answer.written
        rfl hrun rfl hencode hselect hhave)
  | releases stream pFrame ret hpc =>
      obtain ⟨frame, written, rfl, rfl, hrun, hpHandle, hencode, hselect, hhave⟩ :=
        h.of_releasing hpc
      obtain ⟨ma, m', mes, hm, hfinished, hkept, hserved, hsubmitted⟩ :=
        muxStep_obtains hrun hselect hhave frame written answer.ended
      have hsame := mediaFrameRelease_loop s pFrame
      simp only [submittedIn, hpc]
      refine LoopBeside.passes hm (muxPassEnd_beside hfinished ?_ ?_) hsubmitted
      · rw [hkept, hpHandle, hsame.pHandle]
      · rw [hserved, hencode, hsame.encode]

theorem pipelineStep_answers
    (h : LoopBeside lib s m owed) (hstep : pipelineStep cfg lib s a = some (s', es)) :
    LoopAnswers lib m owed s' (submittedIn lib ⟨s, a, es, s'⟩) := by
  have hkeeps : SameLoop s s' → LoopAnswers lib m owed s' [] := by
    intro hsame
    refine LoopBeside.answers ?_
    rw [List.append_nil]
    exact h.congr hsame
  cases a with
  | device answer =>
      exact hkeeps (deviceStep_loop hstep)
  | encoder e answer =>
      exact hkeeps (encoderStep_loop hstep)
  | mux answer =>
      exact muxThreadStep_answers h hstep
  | startMux =>
      simp only [pipelineStep] at hstep
      split at hstep
      · rename_i hpc
        obtain ⟨rfl, rfl⟩ := Prod.mk.inj (Option.some.inj hstep)
        obtain ⟨rfl, rfl⟩ := h.of_notCreated hpc
        exact LoopBeside.answers (.between rfl rfl rfl rfl)
      · obtain ⟨rfl, rfl⟩ := Prod.mk.inj (Option.some.inj hstep)
        exact hkeeps ⟨rfl, rfl, rfl⟩
  | setStop =>
      obtain ⟨rfl, rfl⟩ := Prod.mk.inj (Option.some.inj hstep)
      exact hkeeps ⟨rfl, rfl, rfl⟩
  | _ =>
      simp only [pipelineStep] at hstep
      split at hstep <;> obtain ⟨rfl, rfl⟩ := Prod.mk.inj (Option.some.inj hstep) <;>
        exact hkeeps ⟨rfl, rfl, rfl⟩

/-- The loop can do what it owes. -/
theorem LoopBeside.completes
    (h : LoopBeside lib s m owed) :
    ∃ mtr m', Run (muxStep lib) m mtr m' ∧ submissions (eventsOf mtr) = owed ∧
      m'.pHandle = s.pHandle ∧ (m'.finished = true ↔ s.mux = .exited) ∧
      (s.mux ≠ .notCreated → (∀ stream pFrame ret, s.mux ≠ .releasing stream pFrame ret) →
        m'.encode = s.encode) := by
  cases h with
  | notCreated hpc hstart =>
      subst hstart
      refine ⟨[], _, Run.nil, rfl, rfl, ?_, fun hnot _ => absurd hpc hnot⟩
      rw [hpc]
      exact iff_of_false Bool.false_ne_true (fun h => by cases h)
  | between hpc hrun hpHandle hencode =>
      refine ⟨[], m, Run.nil, rfl, hpHandle, ?_, fun _ _ => hencode⟩
      rw [hpc, hrun]
      exact iff_of_false Bool.false_ne_true (fun h => by cases h)
  | asking stream hpc hrun hpHandle hencode hselect hhave =>
      refine ⟨[], m, Run.nil, rfl, hpHandle, ?_, fun _ _ => hencode⟩
      rw [hrun]
      refine iff_of_false Bool.false_ne_true fun h => ?_
      rw [h] at hpc
      cases hpc
  | ending stream hpc hrun hpHandle hencode hselect =>
      refine ⟨[], m, Run.nil, rfl, hpHandle, ?_, fun _ _ => hencode⟩
      rw [hpc, hrun]
      exact iff_of_false Bool.false_ne_true (fun h => by cases h)
  | wrote stream pFrame frame written hpc hrun hpHandle hencode hselect hhave =>
      obtain ⟨ma, m', mes, hm, hfinished, hkept, -, hsubmitted⟩ :=
        muxStep_obtains hrun hselect hhave frame written false
      refine ⟨_, m', Run.single hm, ?_, hkept.trans hpHandle, ?_,
        fun _ hnot => absurd hpc (hnot _ _ _)⟩
      · rw [← hsubmitted]
        simp [eventsOf]
      · rw [hpc, hfinished]
        exact iff_of_false Bool.false_ne_true (fun h => by cases h)
  | exited hpc hend hpHandle hencode =>
      exact ⟨[], m, Run.nil, rfl, hpHandle, iff_of_true hend hpc, fun _ _ => hencode⟩

end Beside

/-! ## Runs -/

section Runs

variable {cfg : StreamerConfig} {lib : LibAv} {poolCapacity : ℕ}
  {capacity : QueueId → ℕ} {pHandle : KoalaMuxer}
  {tr : List PipelineTransition} {s : PipelineState}

theorem run_beside
    (run : Run (pipelineStep cfg lib)
      (PipelineState.init poolCapacity capacity pHandle) tr s) :
    ∃ mtr m owed, Run (muxStep lib) (MuxState.start pHandle) mtr m ∧
      LoopBeside lib s m owed ∧
      submissions (eventsOf mtr) ++ owed = muxSubmissions lib tr := by
  induction run with
  | nil =>
      exact ⟨[], MuxState.start pHandle, [], Run.nil, .notCreated rfl rfl, rfl⟩
  | snoc run hstep ih =>
      obtain ⟨mtr, m, owed, mrun, hbeside, hsubmitted⟩ := ih
      obtain ⟨mtr', m', owed', mrun', hbeside', hanswer⟩ := pipelineStep_answers hbeside hstep
      refine ⟨mtr ++ mtr', m', owed', mrun.append mrun', hbeside', ?_⟩
      rw [eventsOf_append, submissions_append, List.append_assoc, hanswer,
        ← List.append_assoc, hsubmitted, muxSubmissions, muxSubmissions,
        List.flatMap_append, List.flatMap_singleton]

/-- The loop can have submitted what the pipeline has. -/
theorem run_submits
    (run : Run (pipelineStep cfg lib)
      (PipelineState.init poolCapacity capacity pHandle) tr s) :
    ∃ mtr m, Run (muxStep lib) (MuxState.start pHandle) mtr m ∧
      submissions (eventsOf mtr) = muxSubmissions lib tr ∧ m.pHandle = s.pHandle := by
  obtain ⟨mtr, m, owed, mrun, hbeside, hsubmitted⟩ := run_beside run
  obtain ⟨mtr', m', mrun', howed, hpHandle, -⟩ := hbeside.completes
  refine ⟨mtr ++ mtr', m', mrun.append mrun', ?_, hpHandle⟩
  rw [eventsOf_append, submissions_append, howed, hsubmitted]

end Runs

/--
Every run of the pipeline has a run of the loop of `mux_thread` beside it: the loop
submits the same frames with the same packets and results, in the same order over both
streams, leaves the same handle, ends when the mux thread does, and serves the same
streams whenever no frame waits for its release.
-/
theorem mux_thread_refined
    {cfg : StreamerConfig} {lib : LibAv} {poolCapacity : ℕ}
    {capacity : QueueId → ℕ} {pHandle : KoalaMuxer}
    {tr : List PipelineTransition} {s : PipelineState}
    (run : Run (pipelineStep cfg lib)
      (PipelineState.init poolCapacity capacity pHandle) tr s) :
    ∃ mtr m, Run (muxStep lib) (MuxState.start pHandle) mtr m ∧
      submissions (eventsOf mtr) = muxSubmissions lib tr ∧
      m.pHandle = s.pHandle ∧ (m.finished = true ↔ s.mux = .exited) ∧
      (s.mux ≠ .notCreated → (∀ stream pFrame ret, s.mux ≠ .releasing stream pFrame ret) →
        m.encode = s.encode) := by
  obtain ⟨mtr, m, owed, mrun, hbeside, hsubmitted⟩ := run_beside run
  obtain ⟨mtr', m', mrun', howed, hkept⟩ := hbeside.completes
  refine ⟨mtr ++ mtr', m', mrun.append mrun', ?_, hkept⟩
  rw [eventsOf_append, submissions_append, howed, hsubmitted]

/-- The packet of the run, while the mux thread has yet to release its frame. -/
theorem mux_thread_refined_owed :
    ∃ tr s mtr m, Run (pipelineStep ⟨0, 1⟩ exactLibAv)
      (PipelineState.init 500 queueCapacity
        (openedMuxer false true false "flv" 0 0 0)) tr s ∧
      s.mux = .releasing .video 0 0 ∧
      Run (muxStep exactLibAv)
        (MuxState.start (openedMuxer false true false "flv" 0 0 0)) mtr m ∧
      (submissions (eventsOf mtr)).map (·.pkt) = [⟨7, 100, 0, 0, 0, 1⟩] ∧
      m.finished = false := by
  obtain ⟨tr, s, run, hpc, hpkts⟩ :=
    Run.exists_of_exec (pipelineStep ⟨0, 1⟩ exactLibAv)
      (PipelineState.init 500 queueCapacity
        (openedMuxer false true false "flv" 0 0 0))
      onePacketActions.dropLast
      (fun r => r.2.mux = .releasing .video 0 0 ∧
        (muxSubmissions exactLibAv r.1).map (·.pkt) = [⟨7, 100, 0, 0, 0, 1⟩])
      (by decide +kernel)
  obtain ⟨mtr, m, mrun, hsubmitted, -, hfinished, -⟩ := mux_thread_refined run
  refine ⟨tr, s, mtr, m, run, hpc, mrun, by rw [hsubmitted, hpkts], ?_⟩
  rw [hpc] at hfinished
  simpa using hfinished

/-! ## What FFmpeg is given -/

section Packets

/-- The stream that an encoder thread encodes. -/
def EncoderId.stream : EncoderId → StreamType
  | .mpThreadVE => .video
  | .mpThreadAE => .audio

/-- The packet that FFmpeg is given for an encoded one, with the time line at `origin`. -/
def avPacketOf
    (lib : LibAv) (h : KoalaMuxer) (stream : StreamType) (origin : Int) (out : EncodedPkt) :
    AVPacket where
  data := out.data
  size := out.size
  pts := lib.rescale (out.pts - origin) (h.conBase stream).num (h.conBase stream).den
  dts :=
    match stream with
    | .video => lib.rescale (out.dts - origin) (h.conBase stream).num (h.conBase stream).den
    | .audio => lib.rescale (out.pts - origin) (h.conBase stream).num (h.conBase stream).den
  streamIndex := h.streamIndex stream
  flags := out.flag

/-- What `av_interleaved_write_frame` is given for a stream. -/
def packetsSubmitted
    (lib : LibAv) (stream : StreamType) (tr : List PipelineTransition) : List AVPacket :=
  ((muxSubmissions lib tr).filter (·.stream = stream)).map (·.pkt)

variable {cfg : StreamerConfig} {lib : LibAv} {poolCapacity : ℕ}
  {capacity : QueueId → ℕ} {pHandle h : KoalaMuxer}
  {tr : List PipelineTransition} {s : PipelineState} {τ : PipelineTransition}
  {x : Submission} {e : EncoderId}

/-- The frame is submitted with its data. -/
def Submission.KeepsData (x : Submission) : Prop :=
  x.frame.pBuffer = x.source.pBuffer ∧ x.frame.size = x.source.size ∧
    x.frame.flag = x.source.flag

theorem submissionOf_keepsData
    (lib : LibAv) (h : KoalaMuxer) (stream : StreamType) (frame : MediaFrame)
    (written : Int) :
    (submissionOf lib h stream frame written).KeepsData := by
  simp only [Submission.KeepsData, submissionOf, rebase]
  split <;> exact ⟨rfl, rfl, rfl⟩

/-- The packet of a frame that is moved by the origin. -/
theorem pkt_eq_avPacketOf
    {origin : Int} (hshift : ShiftedBy origin x) (hkeeps : x.KeepsData)
    (hpkt : x.pkt = fillPacket lib h x.stream x.frame) :
    x.pkt = avPacketOf lib h x.stream origin x.source.carried.2 := by
  obtain ⟨hdts, hpts⟩ := hshift
  obtain ⟨hdata, hsize, hflag⟩ := hkeeps
  rw [hpkt]
  cases x.stream with
  | video =>
      simp [fillPacket, avPacketOf, MediaFrame.carried, KoalaMuxer.conBase,
        hdata, hsize, hflag, hdts, hpts]
  | audio =>
      simp [fillPacket, avPacketOf, MediaFrame.carried, KoalaMuxer.conBase,
        hdata, hsize, hflag, hpts]

/-- Without a request for a key frame, a step submits what it obtains. -/
theorem submittedIn_of_zero
    (hreq : τ.src.pHandle.reqIFrame = 0) :
    (∀ x ∈ submittedIn lib τ, x.KeepsData) ∧
    ((submittedIn lib τ).filter (·.stream = e.stream)).map (·.source.carried) =
      writtenBy e τ := by
  have hnone : submittedIn lib τ = [] → writtenBy e τ = [] →
      (∀ x ∈ submittedIn lib τ, x.KeepsData) ∧
      ((submittedIn lib τ).filter (·.stream = e.stream)).map (·.source.carried) =
        writtenBy e τ := by
    intro hsubmitted hwritten
    rw [hsubmitted, hwritten]
    exact ⟨fun x hx => absurd hx List.not_mem_nil, rfl⟩
  obtain ⟨s, a, es, s'⟩ := τ
  cases a with
  | mux answer =>
      cases hpc : s.mux with
      | writing stream pFrame =>
          have hqueue : e.output = e.stream.queue := by
            cases e <;> rfl
          simp only [submittedIn, writtenBy, hpc, (writeObtained_of_zero hreq).1, hqueue,
            stream_queue_eq_iff, List.mem_singleton]
          refine ⟨fun x hx => hx ▸ submissionOf_keepsData _ _ _ _ _, ?_⟩
          by_cases hstream : stream = e.stream
          · rw [if_pos hstream, List.filter_singleton,
              show (submissionOf lib s.pHandle stream _ _).stream = e.stream from hstream]
            simp [submissionOf]
          · rw [if_neg hstream, List.filter_singleton]
            simp [submissionOf, hstream]
      | _ =>
          exact hnone (by simp only [submittedIn, hpc]) (by simp only [writtenBy, hpc])
  | _ =>
      exact hnone rfl rfl

/-- A handle that asks for no key frame never begins to. -/
theorem run_reqIFrame
    (hreq : pHandle.reqIFrame = 0)
    (run : Run (pipelineStep cfg lib)
      (PipelineState.init poolCapacity capacity pHandle) tr s) :
    s.pHandle.reqIFrame = 0 := by
  obtain ⟨mtr, m, mrun, -, hpHandle⟩ := run_submits run
  rw [← hpHandle]
  exact Run.invariant (fun _ m => m.pHandle.reqIFrame = 0) hreq
    (fun _ _ _ _ _ hm hstep => muxStep_reqIFrame hm hstep) mrun

/-- A run submits what it obtains. -/
theorem run_submitted
    (hreq : pHandle.reqIFrame = 0)
    (run : Run (pipelineStep cfg lib)
      (PipelineState.init poolCapacity capacity pHandle) tr s) (e : EncoderId) :
    (∀ x ∈ muxSubmissions lib tr, x.KeepsData) ∧
    ((muxSubmissions lib tr).filter (·.stream = e.stream)).map (·.source.carried) =
      packetsWritten e tr := by
  induction run with
  | nil =>
      exact ⟨fun x hx => absurd hx List.not_mem_nil, rfl⟩
  | @snoc tr s t a es run hstep ih =>
      obtain ⟨hkeeps, hsources⟩ := ih
      have hzero : (⟨s, a, es, t⟩ : PipelineTransition).src.pHandle.reqIFrame = 0 :=
        run_reqIFrame hreq run
      obtain ⟨hkeeps', hsources'⟩ := @submittedIn_of_zero lib _ e hzero
      rw [muxSubmissions, packetsWritten, List.flatMap_append, List.flatMap_append,
        List.flatMap_singleton, List.flatMap_singleton]
      refine ⟨fun x hx => ?_, ?_⟩
      · exact (List.mem_append.mp hx).elim (hkeeps x) (hkeeps' x)
      · rw [List.filter_append, List.map_append, hsources']
        exact congrArg (· ++ writtenBy e ⟨s, a, es, t⟩) hsources

end Packets

/--
In a run of the pipeline over a fresh handle whose first non-negative dts is that of the
first frame submitted, or 0, there is one origin for both streams such that FFmpeg is
given, for either stream, the packets that `write_frame` has obtained, with their data,
size and flags, moved by the origin and rescaled to the stream; these are, without those
that were lost, the packets that the encoder has given out, in the same order.
-/
theorem submitted_as_encoded
    {cfg : StreamerConfig} {lib : LibAv} {poolCapacity : ℕ}
    {capacity : QueueId → ℕ} {pHandle : KoalaMuxer}
    {tr : List PipelineTransition} {s : PipelineState}
    (hfirst : pHandle.firstPts = -1) (hreq : pHandle.reqIFrame = 0)
    (run : Run (pipelineStep cfg lib)
      (PipelineState.init poolCapacity capacity pHandle) tr s)
    (horigin : OriginAtOnce (sourceDts (muxSubmissions lib tr))) :
    ∃ origin, ∀ e,
      packetsSubmitted lib e.stream tr =
        (packetsWritten e tr).map
          (fun sent => avPacketOf lib pHandle e.stream origin sent.2) ∧
      (packetsWritten e tr).Sublist (packetsSent e tr) := by
  obtain ⟨mtr, m, mrun, hsubmitted, -⟩ := run_submits run
  obtain ⟨hlatched, hpkts⟩ := run_latched hfirst hreq mrun
  rw [hsubmitted] at hlatched hpkts
  obtain ⟨origin, hshift⟩ := hlatched.common_iff.mpr horigin
  refine ⟨origin, fun e => ⟨?_, (List.sublist_append_left _ _).trans
    (run_transit_sublist run e)⟩⟩
  obtain ⟨hkeeps, hsources⟩ := run_submitted hreq run e
  rw [packetsSubmitted, ← hsources, List.map_map]
  refine List.map_congr_left fun x hx => ?_
  obtain ⟨hmem, hstream⟩ := List.mem_filter.mp hx
  have hpkt := pkt_eq_avPacketOf (hshift x hmem) (hkeeps x hmem) (hpkts x hmem).2
  rw [of_decide_eq_true hstream] at hpkt
  exact hpkt

/-- A key frame at 5000 is given to FFmpeg at 0, in the stream of its index. -/
theorem submitted_as_encoded_moved :
    ∃ tr s, Run (pipelineStep ⟨0, 1⟩ exactLibAv)
      (PipelineState.init 500 queueCapacity
        (openedMuxer false true false "flv" 0 3 0)) tr s ∧
      packetsSubmitted exactLibAv .video tr = [⟨7, 100, 2, 0, 3, 1⟩] ∧
      ∃ origin, packetsSubmitted exactLibAv .video tr =
        (packetsWritten .mpThreadVE tr).map fun sent =>
          avPacketOf exactLibAv (openedMuxer false true false "flv" 0 3 0) .video origin
            sent.2 := by
  obtain ⟨tr, s, run, hpkts, hdts⟩ :=
    Run.exists_of_exec (pipelineStep ⟨0, 1⟩ exactLibAv)
      (PipelineState.init 500 queueCapacity
        (openedMuxer false true false "flv" 0 3 0))
      ([.start .mpThreadVE, .startMux] ++
        List.replicate 8 (.device ⟨0, 0⟩) ++
        List.replicate 8 (.encoder .mpThreadVE ⟨.got ⟨7, 100, 7000, 5000, 1⟩, 0⟩) ++
        List.replicate 5 (.mux ⟨0, 0, false⟩))
      (fun r => packetsSubmitted exactLibAv .video r.1 = [⟨7, 100, 2, 0, 3, 1⟩] ∧
        sourceDts (muxSubmissions exactLibAv r.1) = [5000])
      (by decide +kernel)
  have horigin : OriginAtOnce (sourceDts (muxSubmissions exactLibAv tr)) := by
    rw [hdts]
    intro d hd
    exact Or.inr hd
  obtain ⟨origin, hpackets⟩ := submitted_as_encoded rfl rfl run horigin
  exact ⟨tr, s, run, hpkts, origin, (hpackets .mpThreadVE).1⟩

end KoalaStreamer
