import KoalaStreamer.Pipeline

/-!
# The steps of the threads

Each thread of the pipeline takes one of finitely many kinds of steps.  The
inversions name them, with the place of the thread, the guards that held and the
state after the step; the invariants of the pipeline are proved by cases on them.
-/

namespace KoalaStreamer

open EventMachine

variable {cfg : StreamerConfig} {lib : LibAv} {s s' : PipelineState}
  {es : List PipelineEvent}

/-! ## The device thread -/

/-- The kinds of steps of the device thread. -/
inductive DeviceCase
    (cfg : StreamerConfig) (s : PipelineState) (answer : DeviceAnswer) :
    PipelineState → List PipelineEvent → Prop
  | loopHead (hpc : s.device = .loopHead) :
      DeviceCase cfg s answer
        (s.setDevice (if s.stop then .exited else .reading)) []
  | reads (hpc : s.device = .reading) :
      DeviceCase cfg s answer
        { s.setDevice (.getting s.nextPkt answer.streamIndex) with
          nextPkt := s.nextPkt + 1 } []
  | getsFrame (pkt : PktId) (streamIndex : Int)
      (hpc : s.device = .getting pkt streamIndex) :
      DeviceCase cfg s answer
        (s.getMediaFrame.2.setDevice
          (.filling pkt streamIndex s.getMediaFrame.1)) []
  | fills (pkt : PktId) (streamIndex : Int) (pFrame : FrameId)
      (hpc : s.device = .filling pkt streamIndex pFrame) :
      DeviceCase cfg s answer
        ((s.setFrame pFrame (mediaFrameSetRelease
          { s.heap pFrame with pBuffer := pkt } .releasePkt 1)).setDevice
            (.routing streamIndex pFrame)) []
  | routes (streamIndex : Int) (pFrame : FrameId)
      (hpc : s.device = .routing streamIndex pFrame) :
      DeviceCase cfg s answer
        (s.setDevice (routeFrame cfg streamIndex pFrame)) []
  /-- The queue is full. -/
  | waits (q : QueueId) (pFrame : FrameId)
      (hpc : s.device = .enqueueing q pFrame)
      (hfull : (s.queue q).isFull = true) :
      DeviceCase cfg s answer (s.setDevice (.enqueueWaiting q pFrame)) []
  | puts (q : QueueId) (pFrame : FrameId)
      (hpc : s.device = .enqueueing q pFrame)
      (hroom : (s.queue q).isFull = false) :
      DeviceCase cfg s answer
        (deviceEnqueued s q pFrame (enqueuePut (s.queue q) pFrame)).1
        (deviceEnqueued s q pFrame (enqueuePut (s.queue q) pFrame)).2
  | wakes (q : QueueId) (pFrame : FrameId)
      (hpc : s.device = .enqueueWaiting q pFrame) :
      DeviceCase cfg s answer
        (deviceEnqueued s q pFrame
          (enqueueWake (s.queue q) pFrame answer.wait)).1
        (deviceEnqueued s q pFrame
          (enqueueWake (s.queue q) pFrame answer.wait)).2
  | releases (pFrame : FrameId) (hpc : s.device = .releasing pFrame) :
      DeviceCase cfg s answer
        ((s.mediaFrameRelease pFrame).setDevice (.sizing .pVEQueue))
        [.released .device pFrame]
  /-- The queue is to be cleaned. -/
  | selects (q : QueueId) (hpc : s.device = .sizing q)
      (hlong : cfg.hasQueue q ∧ (s.queue q).size > cleanLimit q) :
      DeviceCase cfg s answer (s.setDevice (.entering q)) []
  | skips (q : QueueId) (hpc : s.device = .sizing q)
      (hshort : ¬ (cfg.hasQueue q ∧ (s.queue q).size > cleanLimit q)) :
      DeviceCase cfg s answer (s.setDevice (afterSize q)) []
  | enters (q : QueueId) (hpc : s.device = .entering q) :
      DeviceCase cfg s answer (s.setDevice (.cleaning q 0)) []
  /-- `cleanIf` returns at its loop condition. -/
  | cleanEnds (q : QueueId) (size : Int) (hpc : s.device = .cleaning q size)
      (hpass :
        cleanPass (some (cleanCallback s q)) size (s.queue q) = none) :
      DeviceCase cfg s answer (s.setDevice (afterSize q)) []
  | cleans (q : QueueId) (size : Int) (p : CleanPass Int FrameId)
      (hpc : s.device = .cleaning q size)
      (hpass : cleanPass (some (cleanCallback s q)) size (s.queue q) = some p)
      (hremoved : p.removed = none) :
      DeviceCase cfg s answer
        ((s.setQueue q p.queue).setDevice
          (if p.stop then afterSize q else .cleaning q p.arg)) []
  | removes (q : QueueId) (size : Int) (p : CleanPass Int FrameId)
      (pFrame : FrameId)
      (hpc : s.device = .cleaning q size)
      (hpass : cleanPass (some (cleanCallback s q)) size (s.queue q) = some p)
      (hremoved : p.removed = some pFrame) :
      DeviceCase cfg s answer
        ((s.setQueue q p.queue).setDevice
          (.cleanReleasing q p.arg p.stop pFrame)) []
  | cleanReleases (q : QueueId) (size : Int) (stop : Bool) (pFrame : FrameId)
      (hpc : s.device = .cleanReleasing q size stop pFrame) :
      DeviceCase cfg s answer
        ((s.mediaFrameRelease pFrame).setDevice
          (if stop then afterSize q else .cleaning q size))
        [.released .device pFrame]

/-- Inversion of a step of the device thread. -/
theorem deviceStep_case
    {answer : DeviceAnswer}
    (h : deviceStep cfg s answer = some (s', es)) :
    DeviceCase cfg s answer s' es := by
  cases hpc : s.device with
  | loopHead =>
      simp only [deviceStep, hpc] at h
      obtain ⟨rfl, rfl⟩ := Prod.mk.inj (Option.some.inj h)
      exact .loopHead hpc
  | reading =>
      simp only [deviceStep, hpc] at h
      obtain ⟨rfl, rfl⟩ := Prod.mk.inj (Option.some.inj h)
      exact .reads hpc
  | getting pkt streamIndex =>
      simp only [deviceStep, hpc] at h
      obtain ⟨rfl, rfl⟩ := Prod.mk.inj (Option.some.inj h)
      exact .getsFrame pkt streamIndex hpc
  | filling pkt streamIndex pFrame =>
      simp only [deviceStep, hpc] at h
      obtain ⟨rfl, rfl⟩ := Prod.mk.inj (Option.some.inj h)
      exact .fills pkt streamIndex pFrame hpc
  | routing streamIndex pFrame =>
      simp only [deviceStep, hpc] at h
      obtain ⟨rfl, rfl⟩ := Prod.mk.inj (Option.some.inj h)
      exact .routes streamIndex pFrame hpc
  | enqueueing q pFrame =>
      simp only [deviceStep, hpc] at h
      cases henter : enqueueEnter (s.queue q) pFrame with
      | none =>
          simp only [henter] at h
          obtain ⟨rfl, rfl⟩ := Prod.mk.inj (Option.some.inj h)
          exact .waits q pFrame hpc (enqueueEnter_eq_none_iff.mp henter)
      | some e =>
          simp only [henter] at h
          obtain ⟨hroom, rfl⟩ := enqueueEnter_eq_some henter
          obtain ⟨rfl, rfl⟩ := Prod.mk.inj (Option.some.inj h)
          exact .puts q pFrame hpc hroom
  | enqueueWaiting q pFrame =>
      simp only [deviceStep, hpc] at h
      obtain ⟨rfl, rfl⟩ := Prod.mk.inj (Option.some.inj h)
      exact .wakes q pFrame hpc
  | releasing pFrame =>
      simp only [deviceStep, hpc] at h
      obtain ⟨rfl, rfl⟩ := Prod.mk.inj (Option.some.inj h)
      exact .releases pFrame hpc
  | sizing q =>
      simp only [deviceStep, hpc] at h
      split at h
      · rename_i hlong
        obtain ⟨rfl, rfl⟩ := Prod.mk.inj (Option.some.inj h)
        exact .selects q hpc hlong
      · rename_i hshort
        obtain ⟨rfl, rfl⟩ := Prod.mk.inj (Option.some.inj h)
        exact .skips q hpc hshort
  | entering q =>
      simp only [deviceStep, hpc] at h
      obtain ⟨rfl, rfl⟩ := Prod.mk.inj (Option.some.inj h)
      exact .enters q hpc
  | cleaning q size =>
      simp only [deviceStep, hpc] at h
      cases hpass : cleanPass (some (cleanCallback s q)) size (s.queue q) with
      | none =>
          simp only [hpass] at h
          obtain ⟨rfl, rfl⟩ := Prod.mk.inj (Option.some.inj h)
          exact .cleanEnds q size hpc hpass
      | some p =>
          cases hremoved : p.removed with
          | some pFrame =>
              simp only [hpass, hremoved] at h
              obtain ⟨rfl, rfl⟩ := Prod.mk.inj (Option.some.inj h)
              exact .removes q size p pFrame hpc hpass hremoved
          | none =>
              simp only [hpass, hremoved] at h
              obtain ⟨rfl, rfl⟩ := Prod.mk.inj (Option.some.inj h)
              exact .cleans q size p hpc hpass hremoved
  | cleanReleasing q size stop pFrame =>
      simp only [deviceStep, hpc] at h
      obtain ⟨rfl, rfl⟩ := Prod.mk.inj (Option.some.inj h)
      exact .cleanReleases q size stop pFrame hpc
  | exited =>
      simp [deviceStep, hpc] at h

/-! ## The encoder threads -/

/-- The kinds of steps of the thread of `e`. -/
inductive EncoderCase
    (s : PipelineState) (e : EncoderId) (answer : EncoderAnswer) :
    PipelineState → List PipelineEvent → Prop
  | exits (hpc : s.encoder e = .runLoop) (hstatus : s.mStatus e = .stop) :
      EncoderCase s e answer (s.setEncoder e .exited) []
  | pauses (hpc : s.encoder e = .runLoop) (hstatus : s.mStatus e = .pause) :
      EncoderCase s e answer s []
  | loops (hpc : s.encoder e = .runLoop)
      (hstatus : s.mStatus e ≠ .stop ∧ s.mStatus e ≠ .pause) :
      EncoderCase s e answer (s.setEncoder e .dequeueing) []
  /-- The input queue is empty. -/
  | dequeueWaits (hpc : s.encoder e = .dequeueing)
      (hlocked : s.locked e.input = false)
      (hempty : (s.queue e.input).contents = []) :
      EncoderCase s e answer (s.setEncoder e .dequeueWaiting) []
  | gets (hpc : s.encoder e = .dequeueing)
      (hlocked : s.locked e.input = false)
      (hsome : (s.queue e.input).contents ≠ []) :
      EncoderCase s e answer
        (encoderDequeued s e (dequeueGet (s.queue e.input))).1 []
  | dequeueWakes (hpc : s.encoder e = .dequeueWaiting)
      (hlocked : s.locked e.input = false) :
      EncoderCase s e answer
        (encoderDequeued s e (dequeueWake (s.queue e.input) answer.wait)).1 []
  | deals (pFrame : FrameId) (hpc : s.encoder e = .dealing pFrame) :
      EncoderCase s e answer (encoderDealt s e pFrame answer.encoded) []
  /-- There is a packet to hand out. -/
  | releasesEncoded (pFrame : FrameId) (pkt : PktId) (out : EncodedPkt)
      (hpc : s.encoder e = .inputReleasing pFrame (some (pkt, out))) :
      EncoderCase s e answer
        ((s.mediaFrameRelease pFrame).setEncoder e (.getting pkt out))
        [.released (.encoder e) pFrame]
  | releasesInput (pFrame : FrameId)
      (hpc : s.encoder e = .inputReleasing pFrame none) :
      EncoderCase s e answer
        ((s.mediaFrameRelease pFrame).setEncoder e .runLoop)
        [.released (.encoder e) pFrame]
  | getsFrame (pkt : PktId) (out : EncodedPkt)
      (hpc : s.encoder e = .getting pkt out) :
      EncoderCase s e answer
        (s.getMediaFrame.2.setEncoder e
          (.filling pkt out s.getMediaFrame.1)) []
  | fills (pkt : PktId) (out : EncodedPkt) (pFrame : FrameId)
      (hpc : s.encoder e = .filling pkt out pFrame) :
      EncoderCase s e answer
        ((s.setFrame pFrame
          (encodedFrame e pkt out (s.heap pFrame))).setEncoder e
            (.enqueueing pFrame)) []
  /-- The output queue is full. -/
  | enqueueWaits (pFrame : FrameId)
      (hpc : s.encoder e = .enqueueing pFrame)
      (hlocked : s.locked e.output = false)
      (hfull : (s.queue e.output).isFull = true) :
      EncoderCase s e answer (s.setEncoder e (.enqueueWaiting pFrame)) []
  | puts (pFrame : FrameId)
      (hpc : s.encoder e = .enqueueing pFrame)
      (hlocked : s.locked e.output = false)
      (hroom : (s.queue e.output).isFull = false) :
      EncoderCase s e answer
        (encoderEnqueued s e pFrame (enqueuePut (s.queue e.output) pFrame)).1
        (encoderEnqueued s e pFrame (enqueuePut (s.queue e.output) pFrame)).2
  | enqueueWakes (pFrame : FrameId)
      (hpc : s.encoder e = .enqueueWaiting pFrame)
      (hlocked : s.locked e.output = false) :
      EncoderCase s e answer
        (encoderEnqueued s e pFrame
          (enqueueWake (s.queue e.output) pFrame answer.wait)).1
        (encoderEnqueued s e pFrame
          (enqueueWake (s.queue e.output) pFrame answer.wait)).2
  | retries (pFrame : FrameId) (ret : Int)
      (hpc : s.encoder e = .enqueued pFrame ret) (hneg : ret < 0)
      (hretry : ret = -ETIMEDOUT ∧ s.mStatus e ≠ .stop) :
      EncoderCase s e answer (s.setEncoder e (.enqueueing pFrame)) []
  | givesUp (pFrame : FrameId) (ret : Int)
      (hpc : s.encoder e = .enqueued pFrame ret) (hneg : ret < 0)
      (hretry : ¬ (ret = -ETIMEDOUT ∧ s.mStatus e ≠ .stop)) :
      EncoderCase s e answer (s.setEncoder e (.releasing pFrame)) []
  | hasEnqueued (pFrame : FrameId) (ret : Int)
      (hpc : s.encoder e = .enqueued pFrame ret) (hneg : ¬ ret < 0) :
      EncoderCase s e answer (s.setEncoder e .runLoop) []
  | releases (pFrame : FrameId) (hpc : s.encoder e = .releasing pFrame) :
      EncoderCase s e answer
        ((s.mediaFrameRelease pFrame).setEncoder e .runLoop)
        [.released (.encoder e) pFrame]

/-- Inversion of a step of an encoder thread. -/
theorem encoderStep_case
    {e : EncoderId} {answer : EncoderAnswer}
    (h : encoderStep s e answer = some (s', es)) :
    EncoderCase s e answer s' es := by
  cases hpc : s.encoder e with
  | notCreated =>
      simp [encoderStep, hpc] at h
  | runLoop =>
      simp only [encoderStep, hpc] at h
      split at h
      · rename_i hstop
        obtain ⟨rfl, rfl⟩ := Prod.mk.inj (Option.some.inj h)
        exact .exits hpc hstop
      · rename_i hstop
        split at h
        · rename_i hpause
          obtain ⟨rfl, rfl⟩ := Prod.mk.inj (Option.some.inj h)
          exact .pauses hpc hpause
        · rename_i hpause
          obtain ⟨rfl, rfl⟩ := Prod.mk.inj (Option.some.inj h)
          exact .loops hpc ⟨hstop, hpause⟩
  | dequeueing =>
      simp only [encoderStep, hpc] at h
      cases hlocked : s.locked e.input with
      | true =>
          simp [hlocked] at h
      | false =>
          cases henter : dequeueEnter (s.queue e.input) with
          | none =>
              simp only [hlocked, henter] at h
              obtain ⟨rfl, rfl⟩ := Prod.mk.inj (Option.some.inj h)
              exact .dequeueWaits hpc hlocked
                (dequeueEnter_eq_none_iff.mp henter)
          | some d =>
              simp only [hlocked, henter] at h
              obtain ⟨hsome, rfl⟩ := dequeueEnter_eq_some henter
              obtain ⟨rfl, rfl⟩ := Prod.mk.inj (Option.some.inj h)
              exact .gets hpc hlocked hsome
  | dequeueWaiting =>
      simp only [encoderStep, hpc] at h
      cases hlocked : s.locked e.input with
      | true =>
          simp [hlocked] at h
      | false =>
          simp only [hlocked] at h
          obtain ⟨rfl, rfl⟩ := Prod.mk.inj (Option.some.inj h)
          exact .dequeueWakes hpc hlocked
  | dealing pFrame =>
      simp only [encoderStep, hpc] at h
      obtain ⟨rfl, rfl⟩ := Prod.mk.inj (Option.some.inj h)
      exact .deals pFrame hpc
  | inputReleasing pFrame out =>
      simp only [encoderStep, hpc] at h
      obtain ⟨rfl, rfl⟩ := Prod.mk.inj (Option.some.inj h)
      cases out with
      | some encoded =>
          exact .releasesEncoded pFrame encoded.1 encoded.2 hpc
      | none =>
          exact .releasesInput pFrame hpc
  | getting pkt out =>
      simp only [encoderStep, hpc] at h
      obtain ⟨rfl, rfl⟩ := Prod.mk.inj (Option.some.inj h)
      exact .getsFrame pkt out hpc
  | filling pkt out pFrame =>
      simp only [encoderStep, hpc] at h
      obtain ⟨rfl, rfl⟩ := Prod.mk.inj (Option.some.inj h)
      exact .fills pkt out pFrame hpc
  | enqueueing pFrame =>
      simp only [encoderStep, hpc] at h
      cases hlocked : s.locked e.output with
      | true =>
          simp [hlocked] at h
      | false =>
          cases henter : enqueueEnter (s.queue e.output) pFrame with
          | none =>
              simp only [hlocked, henter] at h
              obtain ⟨rfl, rfl⟩ := Prod.mk.inj (Option.some.inj h)
              exact .enqueueWaits pFrame hpc hlocked
                (enqueueEnter_eq_none_iff.mp henter)
          | some x =>
              simp only [hlocked, henter] at h
              obtain ⟨hroom, rfl⟩ := enqueueEnter_eq_some henter
              obtain ⟨rfl, rfl⟩ := Prod.mk.inj (Option.some.inj h)
              exact .puts pFrame hpc hlocked hroom
  | enqueueWaiting pFrame =>
      simp only [encoderStep, hpc] at h
      cases hlocked : s.locked e.output with
      | true =>
          simp [hlocked] at h
      | false =>
          simp only [hlocked] at h
          obtain ⟨rfl, rfl⟩ := Prod.mk.inj (Option.some.inj h)
          exact .enqueueWakes pFrame hpc hlocked
  | enqueued pFrame ret =>
      simp only [encoderStep, hpc] at h
      split at h
      · rename_i hneg
        split at h
        · rename_i hretry
          obtain ⟨rfl, rfl⟩ := Prod.mk.inj (Option.some.inj h)
          exact .retries pFrame ret hpc hneg hretry
        · rename_i hretry
          obtain ⟨rfl, rfl⟩ := Prod.mk.inj (Option.some.inj h)
          exact .givesUp pFrame ret hpc hneg hretry
      · rename_i hneg
        obtain ⟨rfl, rfl⟩ := Prod.mk.inj (Option.some.inj h)
        exact .hasEnqueued pFrame ret hpc hneg
  | releasing pFrame =>
      simp only [encoderStep, hpc] at h
      obtain ⟨rfl, rfl⟩ := Prod.mk.inj (Option.some.inj h)
      exact .releases pFrame hpc
  | exited =>
      simp [encoderStep, hpc] at h

/-! ## The mux thread -/

/-- The kinds of steps of the mux thread. -/
inductive MuxCase
    (lib : LibAv) (s : PipelineState) (answer : MuxAnswer) :
    PipelineState → List PipelineEvent → Prop
  /-- Neither stream is to be written. -/
  | exits (hpc : s.mux = .loopHead)
      (hselect : selectStream lib s.pHandle s.encode = none) :
      MuxCase lib s answer (s.setMux .exited) []
  | selects (stream : StreamType) (hpc : s.mux = .loopHead)
      (hselect : selectStream lib s.pHandle s.encode = some stream)
      (hhave : s.pHandle.haveStream stream = true) :
      MuxCase lib s answer (s.setMux (.dequeueing stream false)) []
  | skips (stream : StreamType) (hpc : s.mux = .loopHead)
      (hselect : selectStream lib s.pHandle s.encode = some stream)
      (hhave : s.pHandle.haveStream stream ≠ true) :
      MuxCase lib s answer (s.setMux (.callbackEnd stream)) []
  /-- The queue of the stream is empty. -/
  | dequeueWaits (stream : StreamType) (again : Bool)
      (hpc : s.mux = .dequeueing stream again)
      (hlocked : s.locked stream.queue = false)
      (hempty : (s.queue stream.queue).contents = []) :
      MuxCase lib s answer (s.setMux (.dequeueWaiting stream again)) []
  | gets (stream : StreamType) (again : Bool)
      (hpc : s.mux = .dequeueing stream again)
      (hlocked : s.locked stream.queue = false)
      (hsome : (s.queue stream.queue).contents ≠ []) :
      MuxCase lib s answer
        (muxDequeued s stream again (dequeueGet (s.queue stream.queue))).1 []
  | dequeueWakes (stream : StreamType) (again : Bool)
      (hpc : s.mux = .dequeueWaiting stream again)
      (hlocked : s.locked stream.queue = false) :
      MuxCase lib s answer
        (muxDequeued s stream again
          (dequeueWake (s.queue stream.queue) answer.wait)).1 []
  /-- The callback looks at `stop` after it has asked again. -/
  | stopsWithFrame (stream : StreamType) (again : Bool) (pFrame : FrameId)
      (hpc : s.mux = .dequeued stream again (some pFrame))
      (hstop : again = true ∧ s.stop = true) :
      MuxCase lib s answer (s.setMux (.callbackReleasing stream pFrame)) []
  | stops (stream : StreamType) (again : Bool)
      (hpc : s.mux = .dequeued stream again none)
      (hstop : again = true ∧ s.stop = true) :
      MuxCase lib s answer (s.setMux (.callbackEnd stream)) []
  | obtains (stream : StreamType) (again : Bool) (pFrame : FrameId)
      (hpc : s.mux = .dequeued stream again (some pFrame))
      (hstop : ¬ (again = true ∧ s.stop = true)) :
      MuxCase lib s answer (s.setMux (.writing stream pFrame)) []
  | asksAgain (stream : StreamType) (again : Bool)
      (hpc : s.mux = .dequeued stream again none)
      (hstop : ¬ (again = true ∧ s.stop = true)) :
      MuxCase lib s answer (s.setMux (.dequeueing stream true)) []
  | callbackReleases (stream : StreamType) (pFrame : FrameId)
      (hpc : s.mux = .callbackReleasing stream pFrame) :
      MuxCase lib s answer
        ((s.mediaFrameRelease pFrame).setMux (.callbackEnd stream))
        [.released .mux pFrame]
  | callbackEnds (stream : StreamType)
      (hpc : s.mux = .callbackEnd stream) :
      MuxCase lib s answer (muxPassEnd s stream 1 answer.ended) []
  | writes (stream : StreamType) (pFrame : FrameId)
      (hpc : s.mux = .writing stream pFrame) :
      MuxCase lib s answer
        { s.setFrame pFrame
            (writtenFrame s.pHandle stream (s.heap pFrame)) with
          pHandle := (writeObtained lib s.pHandle stream 0 (s.heap pFrame)
            answer.written).pHandle
          mux := .releasing stream pFrame
            (writeObtained lib s.pHandle stream 0 (s.heap pFrame)
              answer.written).ret } []
  | releases (stream : StreamType) (pFrame : FrameId) (ret : Int)
      (hpc : s.mux = .releasing stream pFrame ret) :
      MuxCase lib s answer
        (muxPassEnd (s.mediaFrameRelease pFrame) stream ret answer.ended)
        [.released .mux pFrame]

/-- Inversion of a step of the mux thread. -/
theorem muxThreadStep_case
    {answer : MuxAnswer}
    (h : muxThreadStep lib s answer = some (s', es)) :
    MuxCase lib s answer s' es := by
  cases hpc : s.mux with
  | notCreated =>
      simp [muxThreadStep, hpc] at h
  | loopHead =>
      simp only [muxThreadStep, hpc] at h
      cases hselect : selectStream lib s.pHandle s.encode with
      | none =>
          simp only [hselect] at h
          obtain ⟨rfl, rfl⟩ := Prod.mk.inj (Option.some.inj h)
          exact .exits hpc hselect
      | some stream =>
          simp only [hselect] at h
          split at h
          · rename_i hhave
            obtain ⟨rfl, rfl⟩ := Prod.mk.inj (Option.some.inj h)
            exact .selects stream hpc hselect hhave
          · rename_i hhave
            obtain ⟨rfl, rfl⟩ := Prod.mk.inj (Option.some.inj h)
            exact .skips stream hpc hselect hhave
  | dequeueing stream again =>
      simp only [muxThreadStep, hpc] at h
      cases hlocked : s.locked stream.queue with
      | true =>
          simp [hlocked] at h
      | false =>
          cases henter : dequeueEnter (s.queue stream.queue) with
          | none =>
              simp only [hlocked, henter] at h
              obtain ⟨rfl, rfl⟩ := Prod.mk.inj (Option.some.inj h)
              exact .dequeueWaits stream again hpc hlocked
                (dequeueEnter_eq_none_iff.mp henter)
          | some d =>
              simp only [hlocked, henter] at h
              obtain ⟨hsome, rfl⟩ := dequeueEnter_eq_some henter
              obtain ⟨rfl, rfl⟩ := Prod.mk.inj (Option.some.inj h)
              exact .gets stream again hpc hlocked hsome
  | dequeueWaiting stream again =>
      simp only [muxThreadStep, hpc] at h
      cases hlocked : s.locked stream.queue with
      | true =>
          simp [hlocked] at h
      | false =>
          simp only [hlocked] at h
          obtain ⟨rfl, rfl⟩ := Prod.mk.inj (Option.some.inj h)
          exact .dequeueWakes stream again hpc hlocked
  | dequeued stream again pFrame =>
      simp only [muxThreadStep, hpc] at h
      split at h
      · rename_i hstop
        cases pFrame with
        | some pFrame =>
            obtain ⟨rfl, rfl⟩ := Prod.mk.inj (Option.some.inj h)
            exact .stopsWithFrame stream again pFrame hpc hstop
        | none =>
            obtain ⟨rfl, rfl⟩ := Prod.mk.inj (Option.some.inj h)
            exact .stops stream again hpc hstop
      · rename_i hstop
        cases pFrame with
        | some pFrame =>
            obtain ⟨rfl, rfl⟩ := Prod.mk.inj (Option.some.inj h)
            exact .obtains stream again pFrame hpc hstop
        | none =>
            obtain ⟨rfl, rfl⟩ := Prod.mk.inj (Option.some.inj h)
            exact .asksAgain stream again hpc hstop
  | callbackReleasing stream pFrame =>
      simp only [muxThreadStep, hpc] at h
      obtain ⟨rfl, rfl⟩ := Prod.mk.inj (Option.some.inj h)
      exact .callbackReleases stream pFrame hpc
  | callbackEnd stream =>
      simp only [muxThreadStep, hpc] at h
      obtain ⟨rfl, rfl⟩ := Prod.mk.inj (Option.some.inj h)
      exact .callbackEnds stream hpc
  | writing stream pFrame =>
      simp only [muxThreadStep, hpc] at h
      obtain ⟨rfl, rfl⟩ := Prod.mk.inj (Option.some.inj h)
      exact .writes stream pFrame hpc
  | releasing stream pFrame ret =>
      simp only [muxThreadStep, hpc] at h
      obtain ⟨rfl, rfl⟩ := Prod.mk.inj (Option.some.inj h)
      exact .releases stream pFrame ret hpc
  | exited =>
      simp [muxThreadStep, hpc] at h

/-! ## What the threads leave alone -/

section Frame

/-- What the threads look at, besides the content of frames: a release and a
`getMediaFrame` leave it alone. -/
structure SameThreads (s s' : PipelineState) : Prop where
  queue : s'.queue = s.queue
  device : s'.device = s.device
  mStatus : s'.mStatus = s.mStatus
  encoder : s'.encoder = s.encoder
  mux : s'.mux = s.mux

/-- A release touches the pool and what is freed. -/
theorem mediaFrameRelease_eq
    (s : PipelineState) (pFrame : FrameId) :
    ∃ stack freed freedPkts,
      s.mediaFrameRelease pFrame =
        { s with pFrameStack := stack, freed := freed, freedPkts := freedPkts } := by
  simp only [PipelineState.mediaFrameRelease, PipelineState.putMediaFrame]
  cases (s.heap pFrame).release with
  | null =>
      exact ⟨_, _, _, rfl⟩
  | releasePkt =>
      dsimp only
      split <;> exact ⟨_, _, _, rfl⟩
  | releasePktBuffer =>
      dsimp only
      split <;> exact ⟨_, _, _, rfl⟩

theorem mediaFrameRelease_same
    (s : PipelineState) (pFrame : FrameId) :
    SameThreads s (s.mediaFrameRelease pFrame) ∧
    (s.mediaFrameRelease pFrame).nextFrame = s.nextFrame := by
  obtain ⟨_, _, _, h⟩ := mediaFrameRelease_eq s pFrame
  rw [h]
  exact ⟨⟨rfl, rfl, rfl, rfl, rfl⟩, rfl⟩

theorem getMediaFrame_same
    (s : PipelineState) :
    SameThreads s s.getMediaFrame.2 ∧
    s.nextFrame ≤ s.getMediaFrame.2.nextFrame := by
  simp only [PipelineState.getMediaFrame]
  split
  · exact ⟨⟨rfl, rfl, rfl, rfl, rfl⟩, Nat.le_refl _⟩
  · exact ⟨⟨rfl, rfl, rfl, rfl, rfl⟩, Nat.le_succ _⟩

@[simp] theorem mediaFrameRelease_stop
    (s : PipelineState) (pFrame : FrameId) :
    (s.mediaFrameRelease pFrame).stop = s.stop := by
  obtain ⟨_, _, _, h⟩ := mediaFrameRelease_eq s pFrame
  rw [h]

@[simp] theorem getMediaFrame_stop
    (s : PipelineState) : s.getMediaFrame.2.stop = s.stop := by
  simp only [PipelineState.getMediaFrame]
  split <;> rfl

theorem setEncoder_encoder
    (s : PipelineState) (e e' : EncoderId) (pc : EncoderPc) :
    (s.setEncoder e pc).encoder e' = if e' = e then pc else s.encoder e' :=
  Function.update_apply _ _ _ _

/-- What the device thread leaves alone. -/
theorem deviceStep_others
    {answer : DeviceAnswer}
    (h : deviceStep cfg s answer = some (s', es)) :
    s'.mStatus = s.mStatus ∧ s'.encoder = s.encoder ∧ s'.mux = s.mux ∧
    s'.stop = s.stop := by
  cases deviceStep_case h with
  | getsFrame pkt streamIndex hpc =>
      have hsame := (getMediaFrame_same s).1
      exact ⟨hsame.mStatus, hsame.encoder, hsame.mux, getMediaFrame_stop s⟩
  | releases pFrame hpc =>
      have hsame := (mediaFrameRelease_same s pFrame).1
      exact ⟨hsame.mStatus, hsame.encoder, hsame.mux,
        mediaFrameRelease_stop s pFrame⟩
  | cleanReleases q size stop pFrame hpc =>
      have hsame := (mediaFrameRelease_same s pFrame).1
      exact ⟨hsame.mStatus, hsame.encoder, hsame.mux,
        mediaFrameRelease_stop s pFrame⟩
  | _ =>
      exact ⟨rfl, rfl, rfl, rfl⟩

/-- A step of an encoder thread needs the thread, and touches no other one. -/
theorem encoderStep_others
    {e : EncoderId} {answer : EncoderAnswer}
    (h : encoderStep s e answer = some (s', es)) :
    s.encoder e ≠ .notCreated ∧ s'.mStatus = s.mStatus ∧
    (∀ e', e' ≠ e → s'.encoder e' = s.encoder e') ∧
    s'.device = s.device ∧ s'.mux = s.mux ∧ s'.stop = s.stop := by
  have hcreated : s.encoder e ≠ .notCreated := by
    intro hpc
    simp [encoderStep, hpc] at h
  have hset : ∀ {mid : PipelineState} (pc : EncoderPc), SameThreads s mid →
      mid.stop = s.stop →
      (mid.setEncoder e pc).mStatus = s.mStatus ∧
      (∀ e', e' ≠ e → (mid.setEncoder e pc).encoder e' = s.encoder e') ∧
      (mid.setEncoder e pc).device = s.device ∧
      (mid.setEncoder e pc).mux = s.mux ∧
      (mid.setEncoder e pc).stop = s.stop := by
    intro mid pc hsame hstop
    refine ⟨hsame.mStatus, fun e' hne => ?_, hsame.device, hsame.mux, hstop⟩
    rw [setEncoder_encoder, if_neg hne, hsame.encoder]
  refine ⟨hcreated, ?_⟩
  cases encoderStep_case h with
  | releasesEncoded pFrame pkt out hpc =>
      exact hset _ (mediaFrameRelease_same s pFrame).1
        (mediaFrameRelease_stop s pFrame)
  | releasesInput pFrame hpc =>
      exact hset _ (mediaFrameRelease_same s pFrame).1
        (mediaFrameRelease_stop s pFrame)
  | releases pFrame hpc =>
      exact hset _ (mediaFrameRelease_same s pFrame).1
        (mediaFrameRelease_stop s pFrame)
  | getsFrame pkt out hpc =>
      exact hset _ (getMediaFrame_same s).1 (getMediaFrame_stop s)
  | deals pFrame hpc =>
      cases answer.encoded <;>
        exact ⟨rfl, fun e' hne => Function.update_of_ne hne _ _, rfl, rfl, rfl⟩
  | pauses hpc hstatus =>
      exact ⟨rfl, fun _ _ => rfl, rfl, rfl, rfl⟩
  | _ =>
      exact ⟨rfl, fun e' hne => Function.update_of_ne hne _ _, rfl, rfl, rfl⟩

/-- What the mux thread leaves alone. -/
theorem muxThreadStep_others
    {answer : MuxAnswer}
    (h : muxThreadStep lib s answer = some (s', es)) :
    s'.mStatus = s.mStatus ∧ s'.encoder = s.encoder ∧ s'.device = s.device ∧
    s'.stop = s.stop := by
  cases muxThreadStep_case h with
  | callbackReleases stream pFrame hpc =>
      have hsame := (mediaFrameRelease_same s pFrame).1
      exact ⟨hsame.mStatus, hsame.encoder, hsame.device,
        mediaFrameRelease_stop s pFrame⟩
  | releases stream pFrame ret hpc =>
      have hsame := (mediaFrameRelease_same s pFrame).1
      exact ⟨hsame.mStatus, hsame.encoder, hsame.device,
        mediaFrameRelease_stop s pFrame⟩
  | _ =>
      exact ⟨rfl, rfl, rfl, rfl⟩

/-- A thread object that was not started has no thread. -/
def StartInv (s : PipelineState) : Prop :=
  ∀ e, s.mStatus e = .null → s.encoder e = .notCreated

theorem StartInv.of_eq
    (h : StartInv s)
    (hsame : s'.mStatus = s.mStatus ∧ s'.encoder = s.encoder) : StartInv s' := by
  intro e hnull
  rw [hsame.1] at hnull
  rw [hsame.2]
  exact h e hnull

/-- Giving a thread object a status other than `threadStatusNULL` asks nothing
more. -/
theorem StartInv.setStatus
    (h : StartInv s) (e : EncoderId) {status : ThreadStatus}
    (hstatus : status ≠ .null) :
    StartInv { s with mStatus := Function.update s.mStatus e status } := by
  intro e' hnull
  by_cases he : e' = e
  · subst he
    exact absurd ((Function.update_self _ _ _).symm.trans hnull) hstatus
  · exact h e' ((Function.update_of_ne he _ _).symm.trans hnull)

theorem pipelineStep_startInv
    {a : PipelineAction}
    (h : StartInv s)
    (hstep : pipelineStep cfg lib s a = some (s', es)) :
    StartInv s' := by
  cases a with
  | setStop =>
      obtain ⟨rfl, -⟩ := Prod.mk.inj (Option.some.inj hstep)
      exact h
  | start e =>
      simp only [pipelineStep] at hstep
      split at hstep
      · obtain ⟨rfl, -⟩ := Prod.mk.inj (Option.some.inj hstep)
        intro e' hnull
        by_cases he : e' = e
        · subst he
          simp at hnull
        · have hnull' : s.mStatus e' = .null := by
            simpa [Function.update_of_ne he] using hnull
          exact (Function.update_of_ne he _ _).trans (h e' hnull')
      · obtain ⟨rfl, -⟩ := Prod.mk.inj (Option.some.inj hstep)
        exact h
  | pause e =>
      simp only [pipelineStep] at hstep
      split at hstep
      · obtain ⟨rfl, -⟩ := Prod.mk.inj (Option.some.inj hstep)
        exact h.setStatus e (by decide)
      · obtain ⟨rfl, -⟩ := Prod.mk.inj (Option.some.inj hstep)
        exact h
  | stop e =>
      simp only [pipelineStep] at hstep
      split at hstep
      · obtain ⟨rfl, -⟩ := Prod.mk.inj (Option.some.inj hstep)
        exact h.setStatus e (by decide)
      · obtain ⟨rfl, -⟩ := Prod.mk.inj (Option.some.inj hstep)
        exact h
  | startMux =>
      simp only [pipelineStep] at hstep
      split at hstep <;> obtain ⟨rfl, -⟩ := Prod.mk.inj (Option.some.inj hstep) <;>
        exact h
  | device answer =>
      obtain ⟨hstatus, hencoder, -⟩ := deviceStep_others hstep
      exact h.of_eq ⟨hstatus, hencoder⟩
  | encoder e answer =>
      obtain ⟨hcreated, hstatus, hothers, -⟩ := encoderStep_others hstep
      intro e' hnull
      rw [hstatus] at hnull
      have hnot := h e' hnull
      have hne : e' ≠ e := by
        rintro rfl
        exact hcreated hnot
      rw [hothers e' hne]
      exact hnot
  | mux answer =>
      obtain ⟨hstatus, hencoder, -⟩ := muxThreadStep_others hstep
      exact h.of_eq ⟨hstatus, hencoder⟩

theorem run_startInv
    {poolCapacity : ℕ} {capacity : QueueId → ℕ} {pHandle : KoalaMuxer}
    {tr : List PipelineTransition}
    (run : Run (pipelineStep cfg lib)
      (PipelineState.init poolCapacity capacity pHandle) tr s) :
    StartInv s :=
  Run.invariant (fun _ s => StartInv s) (fun _ _ => rfl)
    (fun _ _ _ _ _ h hstep => pipelineStep_startInv h hstep) run

end Frame

end KoalaStreamer
