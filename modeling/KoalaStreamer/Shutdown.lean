import KoalaStreamer.EncodedFrames
import KoalaStreamer.FrameOwnership
import KoalaStreamer.MediaStreamer
import KoalaStreamer.QueuesAhead

/-!
# MacRTMPStreamer.cpp: the shutdown

When `stop` is set, `main` leaves its loop, calls `destroyMediaThread`, joins the
device thread and calls `mediaStreamer_stop`, which joins the prepare thread and
the mux thread.  So the encoder threads and the four queues are deleted while these
three threads may still be running.

The machine puts `main` and the prepare thread beside the pipeline.  `main` waits in
`getchar` for the keys it is given; the prepare thread asks the encoder threads for
their extradata, opens the output and creates the mux thread, whose handle has the
callbacks from the start.  The events of a step are the thread objects and queues it
operates on.  What a thread does with an object that is no
longer there is undefined in the source; the machine goes on as if the memory
were still intact, and a law about the first such step covers the rest.

Main results:
* `no_use_after_delete`: a run in which nobody needs what is deleted, and nobody
  turns to it later, operates on no deleted object;
* `no_use_after_delete_fails_enqueue`: the device thread enqueues a frame into a
  deleted queue.
-/

namespace KoalaStreamer

open EventMachine

/-- The objects that `destroyMediaThread` deletes. -/
inductive MediaObject
  | thread (e : EncoderId)
  | queue (q : QueueId)
deriving DecidableEq, Repr

/-- The encoder thread that reads or fills the queue. -/
def QueueId.encoder : QueueId → EncoderId
  | .pYUVQueue => .mpThreadVE
  | .pVEQueue => .mpThreadVE
  | .pPCMQueue => .mpThreadAE
  | .pAEQueue => .mpThreadAE

/-- The encoder thread an object belongs to. -/
def MediaObject.encoder : MediaObject → EncoderId
  | .thread e => e
  | .queue q => q.encoder

/-- `main`, between two steps. -/
inductive MainPc
  /-- Before `mediaStreamer_prepare`. -/
  | preparing
  /-- At the loop condition. -/
  | running
  /-- In `getchar`. -/
  | typing
  /-- About to call `stop` of the thread object. -/
  | stopping (e : EncoderId)
  /-- In `pthread_join` of `stop`. -/
  | joining (e : EncoderId)
  | deletingThread (e : EncoderId)
  /-- In the destructor of the queue, about to take the mutex. -/
  | destroying (q : QueueId)
  /-- At the loop condition of `cleanIf`, with the mutex. -/
  | cleaning (q : QueueId)
  /-- About to release a frame in `cleanIf`, with the mutex. -/
  | cleanReleasing (q : QueueId) (pFrame : FrameId)
  /-- In `pthread_join(ff_devices_thread)`. -/
  | joiningDevice
  /-- In `mediaStreamer_stop`, about to test the status. -/
  | stoppingStreamer
  /-- In `pthread_join(pHandle->prepare_thread)`. -/
  | joiningPrepare
  /-- In `pthread_join(pHandle->mux_id)`, if there is a mux thread. -/
  | joiningMux
  | done
deriving DecidableEq, Repr

/-- The prepare thread, between two steps. -/
inductive PrepareThreadPc
  | notCreated
  /-- Before `koala_muxer_init_open` has an output context. -/
  | opening
  /-- In `koala_muxer_init_open`: about to ask these for their source meta data, and
  then to open the output and to write its header. -/
  | asking (es : List EncoderId)
  /-- About to call `sendEvent` after a failure. -/
  | sendingEvent
  /-- `muxer_prepare` has returned. -/
  | statusStoring (event : PrepareEvent)
  | notifying (event : PrepareEvent)
  /-- `mediaStreamer_start`, about to set the status. -/
  | startStoring
  /-- About to create the mux thread. -/
  | startLocking
  | exited
deriving DecidableEq, Repr

/-- The keys that `main` tells apart. -/
inductive Key
  | q
  | i
  | other
deriving DecidableEq, Repr

structure ShutdownState where
  pipeline : PipelineState
  main : MainPc
  prepare : PrepareThreadPc
  status : MediastreamerStatus
  /-- What `destroyMediaThread` has deleted. -/
  deleted : List MediaObject

inductive ShutdownAction
  /-- A step of `main`. -/
  | main
  /-- `getchar` returns. -/
  | typed (key : Key)
  /-- A step of the prepare thread; `ok` is what its library call answers. -/
  | prepare (ok : Bool)
  /-- Any other step. -/
  | pipeline (a : PipelineAction)

/-- A step of the shutdown in a run; its events are the objects it uses. -/
abbrev ShutdownTransition :=
  Transition ShutdownState ShutdownAction MediaObject

def ShutdownState.init
    (poolCapacity : ℕ) (capacity : QueueId → ℕ) (pHandle : KoalaMuxer) :
    ShutdownState where
  pipeline := PipelineState.init poolCapacity capacity pHandle
  main := .preparing
  prepare := .notCreated
  status := .init
  deleted := []

/-! ## What a step operates on -/

section Uses

/-- `mediaFrameRelease`: `release_pkt_buffer` calls `putMediaFrame` of the thread
object in `pAppending`. -/
def releaseUses (frame : MediaFrame) : List MediaObject :=
  match frame.release with
  | .releasePktBuffer =>
      ([.mpThreadVE, .mpThreadAE].filter
        fun e => e.pThis = frame.pAppending).map .thread
  | _ => []

def deviceUses (cfg : StreamerConfig) (s : PipelineState) : List MediaObject :=
  match s.device with
  | .enqueueing q _ => [.queue q]
  | .enqueueWaiting q _ => [.queue q]
  | .releasing pFrame => releaseUses (s.heap pFrame)
  | .sizing q => if cfg.hasQueue q then [.queue q] else []
  | .entering q => [.queue q]
  | .cleaning q _ => [.queue q]
  | .cleanReleasing q _ _ pFrame => .queue q :: releaseUses (s.heap pFrame)
  | _ => []

/-- Besides its own thread object, what an encoder thread operates on. -/
def encoderUses (s : PipelineState) (e : EncoderId) : List MediaObject :=
  match s.encoder e with
  | .dequeueing => [.queue e.input]
  | .dequeueWaiting => [.queue e.input]
  | .inputReleasing pFrame _ => releaseUses (s.heap pFrame)
  | .enqueueing _ => [.queue e.output]
  | .enqueueWaiting _ => [.queue e.output]
  | .releasing pFrame => releaseUses (s.heap pFrame)
  | _ => []

def muxUses (s : PipelineState) : List MediaObject :=
  match s.mux with
  | .dequeueing stream _ => [.queue stream.queue]
  | .dequeueWaiting stream _ => [.queue stream.queue]
  | .callbackReleasing _ pFrame => releaseUses (s.heap pFrame)
  | .releasing _ pFrame _ => releaseUses (s.heap pFrame)
  | _ => []

def pipelineUses (cfg : StreamerConfig) (s : PipelineState) :
    PipelineAction → List MediaObject
  | .start e => [.thread e]
  | .pause e => [.thread e]
  | .stop e => [.thread e]
  | .device _ => deviceUses cfg s
  | .encoder e _ => .thread e :: encoderUses s e
  | .mux _ => muxUses s
  | .setStop => []
  | .startMux => []

def mainUses (s : ShutdownState) : List MediaObject :=
  match s.main with
  | .stopping e => [.thread e]
  | .joining e => [.thread e]
  | .deletingThread e => [.thread e]
  | .destroying q => [.queue q]
  | .cleaning q => [.queue q]
  | .cleanReleasing q pFrame =>
      .queue q :: releaseUses (s.pipeline.heap pFrame)
  | _ => []

/-- `main`, told to show its state, calls `getSize` of the output queues. -/
def keyUses (cfg : StreamerConfig) : Key → List MediaObject
  | .i => ([.pVEQueue, .pAEQueue].filter fun q => cfg.hasQueue q).map .queue
  | _ => []

/-- `audio_callback` and `video_callback` with `callback_cmd_get_source_meta` call
`getExradata`. -/
def prepareUses (s : ShutdownState) : List MediaObject :=
  match s.prepare with
  | .asking (e :: _) => [.thread e]
  | _ => []

end Uses

/-! ## The steps -/

section Step

/-- The queue whose mutex `main` holds. -/
def MainPc.locks : MainPc → Option QueueId
  | .cleaning q => some q
  | .cleanReleasing q _ => some q
  | _ => none

/-- The queue whose mutex a step has to take. -/
def mutexNeeded (s : PipelineState) : PipelineAction → Option QueueId
  | .device _ =>
      match s.device with
      | .enqueueing q _ => some q
      | .enqueueWaiting q _ => some q
      | .entering q => some q
      | _ => none
  | .encoder e _ =>
      match s.encoder e with
      | .dequeueing => some e.input
      | .dequeueWaiting => some e.input
      | .enqueueing _ => some e.output
      | .enqueueWaiting _ => some e.output
      | _ => none
  | .mux _ =>
      match s.mux with
      | .dequeueing stream _ => some stream.queue
      | .dequeueWaiting stream _ => some stream.queue
      | _ => none
  | _ => none

/-- Whether a step can be taken beside `main` and the prepare thread.  It is `main`
itself that starts and stops the encoder threads, and the prepare thread that creates
the mux thread; `stop` may be set by the listener. -/
def ShutdownState.admits (s : ShutdownState) (a : PipelineAction) : Bool :=
  match a with
  | .setStop => true
  | .start _ => s.main = .preparing
  | .pause _ => s.main = .preparing
  | .stop _ => false
  | .startMux => false
  | a =>
      mutexNeeded s.pipeline a = none ∨
        mutexNeeded s.pipeline a ≠ s.main.locks

/-- `destroyMediaThread`, from the audio part on. -/
def destroyAudio (cfg : StreamerConfig) : MainPc :=
  if 0 ≤ cfg.audioIndex then .stopping .mpThreadAE else .joiningDevice

/-- `destroyMediaThread`. -/
def destroyMediaThread (cfg : StreamerConfig) : MainPc :=
  if 0 ≤ cfg.videoIndex then .stopping .mpThreadVE else destroyAudio cfg

/-- What follows in `destroyMediaThread` when the queue is deleted. -/
def afterDelete (cfg : StreamerConfig) : QueueId → MainPc
  | .pYUVQueue => .destroying .pVEQueue
  | .pVEQueue => destroyAudio cfg
  | .pPCMQueue => .destroying .pAEQueue
  | .pAEQueue => .joiningDevice

namespace ShutdownState

def setMain (s : ShutdownState) (pc : MainPc) : ShutdownState :=
  { s with main := pc }

def setPipeline (s : ShutdownState) (p : PipelineState) : ShutdownState :=
  { s with pipeline := p }

def setPrepare (s : ShutdownState) (pc : PrepareThreadPc) : ShutdownState :=
  { s with prepare := pc }

def setStatus (s : ShutdownState) (status : MediastreamerStatus) : ShutdownState :=
  { s with status := status }

def delete (s : ShutdownState) (o : MediaObject) : ShutdownState :=
  { s with deleted := o :: s.deleted }

/-- `pHandle->stop = true`. -/
def setStop (s : ShutdownState) : ShutdownState :=
  s.setPipeline { s.pipeline with stop := true }

/-- `koala_muxer_start`. -/
def startMux (s : ShutdownState) : ShutdownState :=
  if s.pipeline.mux = .notCreated then
    s.setPipeline
      { s.pipeline.setMux .loopHead with encode := s.pipeline.pHandle.haveStream }
  else
    s

end ShutdownState

/-- One step of `main`.  The destructor of a thread object calls `stop` once more,
which finds nothing to stop. -/
def mainStep (cfg : StreamerConfig) (s : ShutdownState) :
    Option ShutdownState :=
  match s.main with
  | .preparing =>
      some (((s.setStatus .preparing).setPrepare .opening).setMain .running)
  | .running =>
      if s.pipeline.stop then some (s.setMain (destroyMediaThread cfg))
      else some (s.setMain .typing)
  | .typing => none
  | .stopping e =>
      if s.pipeline.mStatus e = .pause ∨ s.pipeline.mStatus e = .runing then
        some ((s.setPipeline { s.pipeline with
          mStatus := Function.update s.pipeline.mStatus e .stop }).setMain
            (.joining e))
      else
        some (s.setMain (.deletingThread e))
  | .joining e =>
      if s.pipeline.encoder e = .exited then
        some (s.setMain (.deletingThread e))
      else
        none
  | .deletingThread e =>
      some ((s.delete (.thread e)).setMain (.destroying e.input))
  | .destroying q =>
      if s.pipeline.locked q then none else some (s.setMain (.cleaning q))
  | .cleaning q =>
      match cleanPass (none : Option (CleanIt Unit FrameId)) ()
          (s.pipeline.queue q) with
      | none => some ((s.delete (.queue q)).setMain (afterDelete cfg q))
      | some p =>
          match p.removed with
          | some pFrame =>
              some ((s.setPipeline (s.pipeline.setQueue q p.queue)).setMain
                (.cleanReleasing q pFrame))
          | none =>
              some ((s.setPipeline (s.pipeline.setQueue q p.queue)).setMain
                (.cleaning q))
  | .cleanReleasing q pFrame =>
      some ((s.setPipeline (s.pipeline.mediaFrameRelease pFrame)).setMain
        (.cleaning q))
  | .joiningDevice =>
      if s.pipeline.device = .exited then
        some (s.setMain .stoppingStreamer)
      else
        none
  | .stoppingStreamer =>
      if MediastreamerStatus.init.value < s.status.value ∧
          s.status.value < MediastreamerStatus.stoped.value then
        some (s.setMain .joiningPrepare)
      else
        some (s.setMain .done)
  | .joiningPrepare =>
      if s.prepare = .exited then some (s.setMain .joiningMux) else none
  | .joiningMux =>
      if s.pipeline.mux = .exited ∨ s.pipeline.mux = .notCreated then
        some ((s.setStatus .stoped).setMain .done)
      else
        none
  | .done => none

/-- The loop of `main` after `getchar`. -/
def typedStep (s : ShutdownState) (key : Key) : Option ShutdownState :=
  match s.main, key with
  | .typing, .q => some (s.setStop.setMain .running)
  | .typing, _ => some (s.setMain .running)
  | _, _ => none

/-- The encoder threads whose source meta data `koala_muxer_init_open` asks for. -/
def metaThreads (pHandle : KoalaMuxer) : List EncoderId :=
  (if pHandle.acb then [.mpThreadAE] else []) ++
    (if pHandle.vcb then [.mpThreadVE] else [])

/-- One step of the prepare thread.  The listener sets `stop` when it is told of an
error. -/
def prepareThreadStep (s : ShutdownState) (ok : Bool) : Option ShutdownState :=
  match s.prepare with
  | .notCreated => none
  | .opening =>
      some (s.setPrepare
        (if ok then .asking (metaThreads s.pipeline.pHandle) else .statusStoring .error))
  | .asking (_ :: es) => some (s.setPrepare (.asking es))
  | .asking [] => some (s.setPrepare (if ok then .statusStoring .ok else .sendingEvent))
  | .sendingEvent => some (s.setStop.setPrepare (.statusStoring .error))
  | .statusStoring .ok => some ((s.setStatus .prepared).setPrepare (.notifying .ok))
  | .statusStoring .error => some ((s.setStatus .error).setPrepare (.notifying .error))
  | .notifying .ok => some (s.setPrepare .startStoring)
  | .notifying .error => some (s.setStop.setPrepare .exited)
  | .startStoring => some ((s.setStatus .streaming).setPrepare .startLocking)
  | .startLocking => some (s.startMux.setPrepare .exited)
  | .exited => none

/-- One step of the program that shuts down. -/
def shutdownStep (cfg : StreamerConfig) (lib : LibAv) :
    Machine ShutdownState ShutdownAction MediaObject :=
  fun s a =>
    match a with
    | .main =>
        match mainStep cfg s with
        | none => none
        | some s' => some (s', mainUses s)
    | .typed key => (typedStep s key).map fun s' => (s', keyUses cfg key)
    | .prepare ok => (prepareThreadStep s ok).map fun s' => (s', prepareUses s)
    | .pipeline a =>
        if s.admits a then
          match pipelineStep cfg lib s.pipeline a with
          | none => none
          | some r => some (s.setPipeline r.1, pipelineUses cfg s.pipeline a)
        else
          none

/-- The kinds of steps of `main`. -/
inductive MainCase (cfg : StreamerConfig) (s : ShutdownState) :
    ShutdownState → Prop
  | prepares (hmain : s.main = .preparing) :
      MainCase cfg s (((s.setStatus .preparing).setPrepare .opening).setMain .running)
  | waits (hmain : s.main = .running) (hstop : s.pipeline.stop = false) :
      MainCase cfg s (s.setMain .typing)
  | begins (hmain : s.main = .running) (hstop : s.pipeline.stop = true) :
      MainCase cfg s (s.setMain (destroyMediaThread cfg))
  | stops (e : EncoderId) (hmain : s.main = .stopping e)
      (hstatus :
        s.pipeline.mStatus e = .pause ∨ s.pipeline.mStatus e = .runing) :
      MainCase cfg s
        ((s.setPipeline { s.pipeline with
          mStatus := Function.update s.pipeline.mStatus e .stop }).setMain
            (.joining e))
  /-- `stop` of a thread object that does not run does nothing. -/
  | leaves (e : EncoderId) (hmain : s.main = .stopping e)
      (hstatus :
        ¬ (s.pipeline.mStatus e = .pause ∨ s.pipeline.mStatus e = .runing)) :
      MainCase cfg s (s.setMain (.deletingThread e))
  | joins (e : EncoderId) (hmain : s.main = .joining e)
      (hexited : s.pipeline.encoder e = .exited) :
      MainCase cfg s (s.setMain (.deletingThread e))
  | deletesThread (e : EncoderId) (hmain : s.main = .deletingThread e) :
      MainCase cfg s ((s.delete (.thread e)).setMain (.destroying e.input))
  | destroys (q : QueueId) (hmain : s.main = .destroying q)
      (hlocked : s.pipeline.locked q = false) :
      MainCase cfg s (s.setMain (.cleaning q))
  | deletesQueue (q : QueueId) (hmain : s.main = .cleaning q)
      (hpass : cleanPass (none : Option (CleanIt Unit FrameId)) ()
        (s.pipeline.queue q) = none) :
      MainCase cfg s ((s.delete (.queue q)).setMain (afterDelete cfg q))
  | removes (q : QueueId) (p : CleanPass Unit FrameId) (pFrame : FrameId)
      (hmain : s.main = .cleaning q)
      (hpass : cleanPass (none : Option (CleanIt Unit FrameId)) ()
        (s.pipeline.queue q) = some p)
      (hremoved : p.removed = some pFrame) :
      MainCase cfg s
        ((s.setPipeline (s.pipeline.setQueue q p.queue)).setMain
          (.cleanReleasing q pFrame))
  | cleans (q : QueueId) (p : CleanPass Unit FrameId)
      (hmain : s.main = .cleaning q)
      (hpass : cleanPass (none : Option (CleanIt Unit FrameId)) ()
        (s.pipeline.queue q) = some p)
      (hremoved : p.removed = none) :
      MainCase cfg s
        ((s.setPipeline (s.pipeline.setQueue q p.queue)).setMain (.cleaning q))
  | releases (q : QueueId) (pFrame : FrameId)
      (hmain : s.main = .cleanReleasing q pFrame) :
      MainCase cfg s
        ((s.setPipeline (s.pipeline.mediaFrameRelease pFrame)).setMain
          (.cleaning q))
  | joinsDevice (hmain : s.main = .joiningDevice)
      (hexited : s.pipeline.device = .exited) :
      MainCase cfg s (s.setMain .stoppingStreamer)
  | stopsStreamer (hmain : s.main = .stoppingStreamer) :
      MainCase cfg s (s.setMain .joiningPrepare)
  /-- `mediaStreamer_stop` does nothing when the preparation has failed. -/
  | leavesStreamer (hmain : s.main = .stoppingStreamer) :
      MainCase cfg s (s.setMain .done)
  | joinsPrepare (hmain : s.main = .joiningPrepare) (hexited : s.prepare = .exited) :
      MainCase cfg s (s.setMain .joiningMux)
  | joinsMux (hmain : s.main = .joiningMux)
      (hended : s.pipeline.mux = .exited ∨ s.pipeline.mux = .notCreated) :
      MainCase cfg s ((s.setStatus .stoped).setMain .done)

/-- Inversion of a step of `main`. -/
theorem mainStep_case
    {cfg : StreamerConfig} {s s' : ShutdownState}
    (h : mainStep cfg s = some s') :
    MainCase cfg s s' := by
  cases hmain : s.main with
  | preparing =>
      simp only [mainStep, hmain] at h
      obtain rfl := Option.some.inj h
      exact .prepares hmain
  | running =>
      simp only [mainStep, hmain] at h
      split at h
      · rename_i hstop
        obtain rfl := Option.some.inj h
        exact .begins hmain hstop
      · rename_i hstop
        obtain rfl := Option.some.inj h
        exact .waits hmain (by simpa using hstop)
  | typing =>
      simp [mainStep, hmain] at h
  | stopping e =>
      simp only [mainStep, hmain] at h
      split at h
      · rename_i hstatus
        obtain rfl := Option.some.inj h
        exact .stops e hmain hstatus
      · rename_i hstatus
        obtain rfl := Option.some.inj h
        exact .leaves e hmain hstatus
  | joining e =>
      simp only [mainStep, hmain] at h
      split at h
      · rename_i hexited
        obtain rfl := Option.some.inj h
        exact .joins e hmain hexited
      · cases h
  | deletingThread e =>
      simp only [mainStep, hmain] at h
      obtain rfl := Option.some.inj h
      exact .deletesThread e hmain
  | destroying q =>
      simp only [mainStep, hmain] at h
      split at h
      · cases h
      · rename_i hlocked
        obtain rfl := Option.some.inj h
        exact .destroys q hmain (by simpa using hlocked)
  | cleaning q =>
      simp only [mainStep, hmain] at h
      cases hpass : cleanPass (none : Option (CleanIt Unit FrameId)) ()
          (s.pipeline.queue q) with
      | none =>
          simp only [hpass] at h
          obtain rfl := Option.some.inj h
          exact .deletesQueue q hmain hpass
      | some p =>
          cases hremoved : p.removed with
          | some pFrame =>
              simp only [hpass, hremoved] at h
              obtain rfl := Option.some.inj h
              exact .removes q p pFrame hmain hpass hremoved
          | none =>
              simp only [hpass, hremoved] at h
              obtain rfl := Option.some.inj h
              exact .cleans q p hmain hpass hremoved
  | cleanReleasing q pFrame =>
      simp only [mainStep, hmain] at h
      obtain rfl := Option.some.inj h
      exact .releases q pFrame hmain
  | joiningDevice =>
      simp only [mainStep, hmain] at h
      split at h
      · rename_i hexited
        obtain rfl := Option.some.inj h
        exact .joinsDevice hmain hexited
      · cases h
  | stoppingStreamer =>
      simp only [mainStep, hmain] at h
      split at h <;> obtain rfl := Option.some.inj h
      · exact .stopsStreamer hmain
      · exact .leavesStreamer hmain
  | joiningPrepare =>
      simp only [mainStep, hmain] at h
      split at h
      · rename_i hexited
        obtain rfl := Option.some.inj h
        exact .joinsPrepare hmain hexited
      · cases h
  | joiningMux =>
      simp only [mainStep, hmain] at h
      split at h
      · rename_i hended
        obtain rfl := Option.some.inj h
        exact .joinsMux hmain hended
      · cases h
  | done =>
      simp [mainStep, hmain] at h

/-- A key brings `main` back to the head of its loop. -/
theorem typedStep_case
    {s s' : ShutdownState} {key : Key} (h : typedStep s key = some s') :
    s.main = .typing ∧ (s' = s.setStop.setMain .running ∨ s' = s.setMain .running) := by
  cases hmain : s.main with
  | typing =>
      refine ⟨rfl, ?_⟩
      cases key <;> simp only [typedStep, hmain] at h <;> obtain rfl := Option.some.inj h
      · exact Or.inl rfl
      · exact Or.inr rfl
      · exact Or.inr rfl
  | _ =>
      simp [typedStep, hmain] at h

/-- The kinds of steps of the prepare thread. -/
inductive PrepareCase (s : ShutdownState) (ok : Bool) : ShutdownState → Prop
  | opens (hpc : s.prepare = .opening) (hok : ok = true) :
      PrepareCase s ok (s.setPrepare (.asking (metaThreads s.pipeline.pHandle)))
  | openFails (hpc : s.prepare = .opening) :
      PrepareCase s ok (s.setPrepare (.statusStoring .error))
  | asks (e : EncoderId) (es : List EncoderId) (hpc : s.prepare = .asking (e :: es)) :
      PrepareCase s ok (s.setPrepare (.asking es))
  | connects (hpc : s.prepare = .asking []) :
      PrepareCase s ok (s.setPrepare (.statusStoring .ok))
  | connectFails (hpc : s.prepare = .asking []) :
      PrepareCase s ok (s.setPrepare .sendingEvent)
  | sendsEvent (hpc : s.prepare = .sendingEvent) :
      PrepareCase s ok (s.setStop.setPrepare (.statusStoring .error))
  | storesPrepared (hpc : s.prepare = .statusStoring .ok) :
      PrepareCase s ok ((s.setStatus .prepared).setPrepare (.notifying .ok))
  | storesError (hpc : s.prepare = .statusStoring .error) :
      PrepareCase s ok ((s.setStatus .error).setPrepare (.notifying .error))
  | notifiesOk (hpc : s.prepare = .notifying .ok) :
      PrepareCase s ok (s.setPrepare .startStoring)
  | notifiesError (hpc : s.prepare = .notifying .error) :
      PrepareCase s ok (s.setStop.setPrepare .exited)
  | storesStreaming (hpc : s.prepare = .startStoring) :
      PrepareCase s ok ((s.setStatus .streaming).setPrepare .startLocking)
  | startsMux (hpc : s.prepare = .startLocking) :
      PrepareCase s ok (s.startMux.setPrepare .exited)

/-- Inversion of a step of the prepare thread. -/
theorem prepareThreadStep_case
    {s s' : ShutdownState} {ok : Bool} (h : prepareThreadStep s ok = some s') :
    PrepareCase s ok s' := by
  cases hpc : s.prepare with
  | notCreated =>
      simp [prepareThreadStep, hpc] at h
  | opening =>
      simp only [prepareThreadStep, hpc] at h
      obtain rfl := Option.some.inj h
      cases ok with
      | true => exact .opens hpc rfl
      | false => exact .openFails hpc
  | asking es =>
      cases es with
      | nil =>
          simp only [prepareThreadStep, hpc] at h
          obtain rfl := Option.some.inj h
          cases ok with
          | true => exact .connects hpc
          | false => exact .connectFails hpc
      | cons e es =>
          simp only [prepareThreadStep, hpc] at h
          obtain rfl := Option.some.inj h
          exact .asks e es hpc
  | sendingEvent =>
      simp only [prepareThreadStep, hpc] at h
      obtain rfl := Option.some.inj h
      exact .sendsEvent hpc
  | statusStoring event =>
      cases event <;> simp only [prepareThreadStep, hpc] at h <;>
        obtain rfl := Option.some.inj h
      · exact .storesPrepared hpc
      · exact .storesError hpc
  | notifying event =>
      cases event <;> simp only [prepareThreadStep, hpc] at h <;>
        obtain rfl := Option.some.inj h
      · exact .notifiesOk hpc
      · exact .notifiesError hpc
  | startStoring =>
      simp only [prepareThreadStep, hpc] at h
      obtain rfl := Option.some.inj h
      exact .storesStreaming hpc
  | startLocking =>
      simp only [prepareThreadStep, hpc] at h
      obtain rfl := Option.some.inj h
      exact .startsMux hpc
  | exited =>
      simp [prepareThreadStep, hpc] at h

/-- What the prepare thread and `main` do to the pipeline are steps of it. -/
theorem pipelineStep_setStop
    (cfg : StreamerConfig) (lib : LibAv) (s : ShutdownState) :
    pipelineStep cfg lib s.pipeline .setStop = some (s.setStop.pipeline, []) := by
  rfl

theorem pipelineStep_startMux
    (cfg : StreamerConfig) (lib : LibAv) (s : ShutdownState) :
    pipelineStep cfg lib s.pipeline .startMux = some (s.startMux.pipeline, []) := by
  simp only [pipelineStep, ShutdownState.startMux]
  split <;> rfl

theorem startMux_eq
    (s : ShutdownState) : s.startMux = s.setPipeline s.startMux.pipeline := by
  simp only [ShutdownState.startMux]
  split <;> rfl

end Step

/-! ## Who still needs an object -/

section Needed

/-- The frame in the hand of `main`. -/
def MainPc.hand : MainPc → List FrameId
  | .cleanReleasing _ pFrame => [pFrame]
  | _ => []

def ShutdownState.framesInUse (s : ShutdownState) : List FrameId :=
  s.pipeline.framesInUse ++ s.main.hand

/-- The encoder threads that the prepare thread is going to ask. -/
def PrepareThreadPc.asksAhead : PrepareThreadPc → List EncoderId
  | .asking es => es
  | _ => []

/-- Nobody needs what `main` deletes in its next step: a thread object gets no
frame back and is not asked for its meta data, and neither thread operates on a
queue. -/
def deleteUnneeded (cfg : StreamerConfig) (s : ShutdownState) : MainPc → Prop
  | .deletingThread e =>
      (∀ pFrame ∈ s.framesInUse, ¬ (s.pipeline.heap pFrame).EncodedBy e) ∧
      e ∉ s.prepare.asksAhead
  | .cleaning q =>
      (s.pipeline.queue q).contents = [] →
        q ∉ s.pipeline.device.queuesAhead cfg ∧
        q ∉ s.pipeline.mux.queuesAhead
  | _ => True

/-- Nobody needs what the step deletes, and the step does not turn to an object
that is deleted: it reads no packet for such a queue, selects no stream of one, and
obtains no output context for such threads to be asked. -/
def LeavesDeleted
    (cfg : StreamerConfig) (lib : LibAv) (s : ShutdownState) :
    ShutdownAction → Prop
  | .main => deleteUnneeded cfg s s.main
  | .typed _ => True
  | .prepare ok =>
      s.prepare = .opening → ok = true →
        ∀ e ∈ metaThreads s.pipeline.pHandle, .thread e ∉ s.deleted
  | .pipeline (.device answer) =>
      s.pipeline.device = .reading →
        ∀ q ∈ routeQueue cfg answer.streamIndex, .queue q ∉ s.deleted
  | .pipeline (.mux _) =>
      s.pipeline.mux = .loopHead →
        ∀ stream ∈ selectStream lib s.pipeline.pHandle s.pipeline.encode,
          s.pipeline.pHandle.haveStream stream = true →
          .queue stream.queue ∉ s.deleted
  | .pipeline _ => True

instance (cfg : StreamerConfig) (s : ShutdownState) :
    ∀ pc, Decidable (deleteUnneeded cfg s pc)
  | .deletingThread e =>
      inferInstanceAs (Decidable
        ((∀ pFrame ∈ s.framesInUse, ¬ (s.pipeline.heap pFrame).EncodedBy e) ∧
          e ∉ s.prepare.asksAhead))
  | .cleaning q =>
      inferInstanceAs (Decidable ((s.pipeline.queue q).contents = [] →
        q ∉ s.pipeline.device.queuesAhead cfg ∧
        q ∉ s.pipeline.mux.queuesAhead))
  | .preparing | .running | .typing | .stopping _ | .joining _ | .destroying _
  | .cleanReleasing _ _ | .joiningDevice | .stoppingStreamer | .joiningPrepare
  | .joiningMux | .done =>
      inferInstanceAs (Decidable True)

instance (cfg : StreamerConfig) (lib : LibAv) (s : ShutdownState) :
    ∀ a, Decidable (LeavesDeleted cfg lib s a)
  | .main => inferInstanceAs (Decidable (deleteUnneeded cfg s s.main))
  | .typed _ => inferInstanceAs (Decidable True)
  | .prepare ok =>
      inferInstanceAs (Decidable (s.prepare = .opening → ok = true →
        ∀ e ∈ metaThreads s.pipeline.pHandle, .thread e ∉ s.deleted))
  | .pipeline (.device answer) =>
      inferInstanceAs (Decidable (s.pipeline.device = .reading →
        ∀ q ∈ routeQueue cfg answer.streamIndex, .queue q ∉ s.deleted))
  | .pipeline (.mux _) =>
      inferInstanceAs (Decidable (s.pipeline.mux = .loopHead →
        ∀ stream ∈ selectStream lib s.pipeline.pHandle s.pipeline.encode,
          s.pipeline.pHandle.haveStream stream = true →
          .queue stream.queue ∉ s.deleted))
  | .pipeline .setStop | .pipeline (.start _) | .pipeline (.pause _)
  | .pipeline (.stop _) | .pipeline .startMux | .pipeline (.encoder _ _) =>
      inferInstanceAs (Decidable True)

end Needed

/-! ## The shutdown -/

section Shutdown

variable {cfg : StreamerConfig} {lib : LibAv} {s s' : ShutdownState}
  {es : List MediaObject}

/-- Where `destroyMediaThread` deletes the object. -/
def MediaObject.stage : MediaObject → ℕ
  | .thread .mpThreadVE => 1
  | .queue .pYUVQueue => 2
  | .queue .pVEQueue => 3
  | .thread .mpThreadAE => 4
  | .queue .pPCMQueue => 5
  | .queue .pAEQueue => 6

/-- How far `main` has come. -/
def MainPc.stage : MainPc → ℕ
  | .preparing => 0
  | .running => 0
  | .typing => 0
  | .stopping e => (MediaObject.thread e).stage
  | .joining e => (MediaObject.thread e).stage
  | .deletingThread e => (MediaObject.thread e).stage
  | .destroying q => (MediaObject.queue q).stage
  | .cleaning q => (MediaObject.queue q).stage
  | .cleanReleasing q _ => (MediaObject.queue q).stage
  | .joiningDevice => 7
  | .stoppingStreamer => 8
  | .joiningPrepare => 9
  | .joiningMux => 10
  | .done => 11

/-- `main` has left its loop. -/
def MainPc.leftLoop : MainPc → Bool
  | .preparing => false
  | .running => false
  | .typing => false
  | _ => true

/-- The encoder thread that `main` has joined before it came here. -/
def MainPc.joined : MainPc → Option EncoderId
  | .deletingThread e => some e
  | .destroying q => some q.encoder
  | .cleaning q => some q.encoder
  | .cleanReleasing q _ => some q.encoder
  | _ => none

/-- What holds while nobody needs what `main` deletes. -/
structure ShutdownInv (cfg : StreamerConfig) (s : ShutdownState) : Prop where
  started : StartInv s.pipeline
  stop : s.main.leftLoop = true → s.pipeline.stop = true
  status : ∀ e, s.pipeline.mStatus e = .stop →
    s.main = .joining e ∨ s.pipeline.Ended e
  joined : ∀ e ∈ s.main.joined, s.pipeline.Ended e
  stage : ∀ o ∈ s.deleted, o.stage < s.main.stage
  ended : ∀ o ∈ s.deleted, s.pipeline.Ended o.encoder
  frames : ∀ e, .thread e ∈ s.deleted →
    ∀ f ∈ s.framesInUse, ¬ (s.pipeline.heap f).EncodedBy e
  device : ∀ q, .queue q ∈ s.deleted → q ∉ s.pipeline.device.queuesAhead cfg
  mux : ∀ q, .queue q ∈ s.deleted → q ∉ s.pipeline.mux.queuesAhead
  prepare : ∀ e, .thread e ∈ s.deleted → e ∉ s.prepare.asksAhead

theorem mem_releaseUses
    {frame : MediaFrame} {o : MediaObject} :
    o ∈ releaseUses frame ↔ ∃ e, frame.EncodedBy e ∧ o = .thread e := by
  obtain ⟨_, _, _, _, _, release, _, pAppending⟩ := frame
  constructor
  · intro h
    cases release <;> simp_all [releaseUses, MediaFrame.EncodedBy]
    obtain ⟨e, ⟨-, he⟩, rfl⟩ := h
    exact ⟨e, he.symm, rfl⟩
  · rintro ⟨e, ⟨hrelease, he⟩, rfl⟩
    simp only at hrelease he
    subst hrelease he
    cases e <;> simp [releaseUses]

theorem leftLoop_of_stage
    {pc : MainPc} (h : 0 < pc.stage) : pc.leftLoop = true := by
  cases pc <;> first | rfl | exact absurd h (Nat.lt_irrefl _)

/-- Nothing is deleted before the shutdown. -/
theorem ShutdownInv.leftLoop_of_deleted
    (hinv : ShutdownInv cfg s) {o : MediaObject} (ho : o ∈ s.deleted) :
    s.main.leftLoop = true :=
  leftLoop_of_stage ((Nat.zero_le _).trans_lt (hinv.stage o ho))

theorem ShutdownInv.not_deleted
    (hinv : ShutdownInv cfg s) (h : s.main.leftLoop = false) (o : MediaObject) :
    o ∉ s.deleted :=
  fun ho => Bool.false_ne_true (h.symm.trans (hinv.leftLoop_of_deleted ho))

theorem inLoop_of_preparing
    (h : s.main = .preparing) : s.main.leftLoop = false := by
  rw [h]
  rfl

theorem shutdownInv_init
    {poolCapacity : ℕ} {capacity : QueueId → ℕ} {pHandle : KoalaMuxer} :
    ShutdownInv cfg (ShutdownState.init poolCapacity capacity pHandle) where
  started := fun _ _ => rfl
  stop := fun h => nomatch h
  status := fun _ h => nomatch h
  joined := fun _ h => nomatch h
  stage := fun _ h => nomatch h
  ended := fun _ h => nomatch h
  frames := fun _ h => nomatch h
  device := fun _ h => nomatch h
  mux := fun _ h => nomatch h
  prepare := fun _ h => nomatch h

theorem mem_shutdown_framesInUse
    {f : FrameId} :
    f ∈ s.framesInUse ↔ f ∈ s.pipeline.framesInUse ∨ f ∈ s.main.hand :=
  List.mem_append

theorem joined_of_inLoop
    {pc : MainPc} (h : pc.leftLoop = false) : pc.joined = none := by
  cases pc <;> first | rfl | cases h

/-- A step of the pipeline that `main` does not take in its shutdown keeps the
invariant. -/
theorem ShutdownInv.pipeline_step
    {a : PipelineAction} {p : PipelineState} {ps : List PipelineEvent}
    (hinv : ShutdownInv cfg s)
    (hnostop : ∀ e, a ≠ .stop e)
    (hstart : ∀ e, a = .start e → s.main.leftLoop = false)
    (hleaves : LeavesDeleted cfg lib s (.pipeline a))
    (hstep : pipelineStep cfg lib s.pipeline a = some (p, ps)) :
    ShutdownInv cfg (s.setPipeline p) := by
  have hended : ∀ e, s.pipeline.Ended e →
      (s.main.leftLoop = false → s.pipeline.mStatus e ≠ .null) → p.Ended e :=
    fun e he hrunning =>
      pipelineStep_ended hstep he fun h => hrunning (hstart e h)
  exact
    { started := pipelineStep_startInv hinv.started hstep
      stop := fun hmain => pipelineStep_stop hstep (hinv.stop hmain)
      status := by
        intro e hstatus
        have hbefore := pipelineStep_status hstep (hnostop e) hstatus
        rcases hinv.status e hbefore with hmain | he
        · exact Or.inl hmain
        · refine Or.inr (hended e he fun _ => ?_)
          rw [hbefore]
          decide
      joined := by
        intro e he
        change e ∈ s.main.joined at he
        refine hended e (hinv.joined e he) fun hmain => ?_
        rw [joined_of_inLoop hmain] at he
        cases he
      stage := hinv.stage
      ended := fun o ho => hended _ (hinv.ended o ho) fun hmain =>
        absurd (hmain.symm.trans (hinv.leftLoop_of_deleted ho)) Bool.false_ne_true
      frames := by
        intro e he f hf hencoded
        have hother : ∀ answer, a ≠ .encoder e answer := by
          rintro answer rfl
          rw [show pipelineStep cfg lib s.pipeline (.encoder e answer) = _ from
            (hinv.ended _ he).not_step] at hstep
          cases hstep
        have hkeeps := pipelineStep_keepsFrames hstep hother
        refine hinv.frames e he f (mem_shutdown_framesInUse.mpr ?_)
          (hkeeps.encoded f hencoded)
        rcases mem_shutdown_framesInUse.mp hf with hf | hf
        · exact Or.inl (hkeeps.inUse f hf hencoded)
        · exact Or.inr hf
      device := by
        intro q hq hahead
        have hstop := hinv.stop (hinv.leftLoop_of_deleted hq)
        by_cases hdevice : ∃ answer, a = .device answer
        · obtain ⟨answer, rfl⟩ := hdevice
          rcases deviceStep_queuesAhead hstop hstep q hahead with hq' | ⟨hpc, hq'⟩
          · exact hinv.device q hq hq'
          · exact hleaves hpc q hq' hq
        · have hsame := pipelineStep_device hstep fun answer h =>
            hdevice ⟨answer, h⟩
          exact hinv.device q hq (hsame ▸ hahead)
      mux := by
        intro q hq hahead
        have hstop := hinv.stop (hinv.leftLoop_of_deleted hq)
        by_cases hmux : ∃ answer, a = .mux answer
        · obtain ⟨answer, rfl⟩ := hmux
          rcases muxThreadStep_queuesAhead hstop hstep q hahead with
            hq' | ⟨hpc, stream, hselect, hhave, rfl⟩
          · exact hinv.mux q hq hq'
          · exact hleaves hpc stream hselect hhave hq
        · rcases pipelineStep_mux hstep fun answer h => hmux ⟨answer, h⟩ with
            hsame | hloop
          · exact hinv.mux q hq (hsame ▸ hahead)
          · rw [show (s.setPipeline p).pipeline.mux = .loopHead from hloop]
              at hahead
            cases hahead
      prepare := hinv.prepare }

/-- The prepare thread goes on, and is not going to ask a deleted thread object. -/
theorem ShutdownInv.setPrepare
    {pc : PrepareThreadPc}
    (hinv : ShutdownInv cfg s)
    (hpc : ∀ e, .thread e ∈ s.deleted → e ∉ pc.asksAhead) :
    ShutdownInv cfg (s.setPrepare pc) :=
  { hinv with prepare := hpc }

theorem ShutdownInv.setStatus
    (hinv : ShutdownInv cfg s) (status : MediastreamerStatus) :
    ShutdownInv cfg (s.setStatus status) :=
  { hinv with }

theorem ShutdownInv.setStop
    (hinv : ShutdownInv cfg s) : ShutdownInv cfg s.setStop :=
  hinv.pipeline_step (a := .setStop) (fun _ h => nomatch h)
    (fun _ h => nomatch h) trivial (pipelineStep_setStop cfg exactLibAv s)

theorem ShutdownInv.startMux
    (hinv : ShutdownInv cfg s) : ShutdownInv cfg s.startMux := by
  rw [startMux_eq]
  exact hinv.pipeline_step (a := .startMux) (fun _ h => nomatch h)
    (fun _ h => nomatch h) trivial (pipelineStep_startMux cfg exactLibAv s)

/-- A step of the prepare thread keeps the invariant. -/
theorem ShutdownInv.prepare_step
    {ok : Bool}
    (hinv : ShutdownInv cfg s)
    (hleaves : LeavesDeleted cfg lib s (.prepare ok))
    (hstep : prepareThreadStep s ok = some s') :
    ShutdownInv cfg s' := by
  cases prepareThreadStep_case hstep with
  | opens hpc hok =>
      exact hinv.setPrepare fun e he hask => hleaves hpc hok e hask he
  | asks e es hpc =>
      refine hinv.setPrepare fun e' he' hask => hinv.prepare e' he' ?_
      rw [hpc]
      exact List.mem_cons_of_mem e hask
  | sendsEvent hpc =>
      exact hinv.setStop.setPrepare fun _ _ h => nomatch h
  | notifiesError hpc =>
      exact hinv.setStop.setPrepare fun _ _ h => nomatch h
  | storesPrepared hpc =>
      exact (hinv.setStatus _).setPrepare fun _ _ h => nomatch h
  | storesError hpc =>
      exact (hinv.setStatus _).setPrepare fun _ _ h => nomatch h
  | storesStreaming hpc =>
      exact (hinv.setStatus _).setPrepare fun _ _ h => nomatch h
  | startsMux hpc =>
      exact hinv.startMux.setPrepare fun _ _ h => nomatch h
  | _ =>
      exact hinv.setPrepare fun _ _ h => nomatch h

/-- `main` goes on, with a frame in use or none in its hand. -/
theorem ShutdownInv.setMain
    {pc : MainPc}
    (hinv : ShutdownInv cfg s)
    (hstop : pc.leftLoop = true → s.pipeline.stop = true)
    (hstatus : ∀ e, s.main = .joining e → s.pipeline.Ended e)
    (hjoined : ∀ e ∈ pc.joined, s.pipeline.Ended e)
    (hstage : s.main.stage ≤ pc.stage)
    (hhand : ∀ f ∈ pc.hand, f ∈ s.framesInUse) :
    ShutdownInv cfg (s.setMain pc) where
  started := hinv.started
  stop := hstop
  status := fun e he => Or.inr ((hinv.status e he).elim (hstatus e) id)
  joined := hjoined
  stage := fun o ho => (hinv.stage o ho).trans_le hstage
  ended := hinv.ended
  frames := by
    intro e he f hf
    refine hinv.frames e he f ?_
    rcases mem_shutdown_framesInUse.mp hf with hf | hf
    · exact mem_shutdown_framesInUse.mpr (Or.inl hf)
    · exact hhand f hf
  device := hinv.device
  mux := hinv.mux
  prepare := hinv.prepare

/-- `main` goes on with empty hands, to where no thread has to be joined. -/
theorem ShutdownInv.walks
    {pc : MainPc}
    (hinv : ShutdownInv cfg s)
    (hstop : pc.leftLoop = true → s.pipeline.stop = true)
    (hmain : ∀ e, s.main ≠ .joining e)
    (hpc : pc.joined = none ∧ pc.hand = [])
    (hstage : s.main.stage ≤ pc.stage) :
    ShutdownInv cfg (s.setMain pc) := by
  refine hinv.setMain hstop (fun e he => absurd he (hmain e)) ?_ hstage ?_
  · rw [hpc.1]
    exact fun e he => nomatch he
  · rw [hpc.2]
    exact fun f hf => nomatch hf

/-- An object that nobody needs is deleted. -/
theorem ShutdownInv.delete
    {o : MediaObject}
    (hinv : ShutdownInv cfg s)
    (hstage : o.stage < s.main.stage)
    (hended : s.pipeline.Ended o.encoder)
    (hthread : ∀ e, o = .thread e →
      (∀ f ∈ s.framesInUse, ¬ (s.pipeline.heap f).EncodedBy e) ∧
      e ∉ s.prepare.asksAhead)
    (hqueue : ∀ q, o = .queue q →
      q ∉ s.pipeline.device.queuesAhead cfg ∧ q ∉ s.pipeline.mux.queuesAhead) :
    ShutdownInv cfg (s.delete o) where
  started := hinv.started
  stop := hinv.stop
  status := hinv.status
  joined := hinv.joined
  stage := List.forall_mem_cons.mpr ⟨hstage, hinv.stage⟩
  ended := List.forall_mem_cons.mpr ⟨hended, hinv.ended⟩
  frames := by
    intro e he
    rcases List.mem_cons.mp he with he | he
    · exact (hthread e he.symm).1
    · exact hinv.frames e he
  device := by
    intro q hq
    rcases List.mem_cons.mp hq with hq | hq
    · exact (hqueue q hq.symm).1
    · exact hinv.device q hq
  mux := by
    intro q hq
    rcases List.mem_cons.mp hq with hq | hq
    · exact (hqueue q hq.symm).2
    · exact hinv.mux q hq
  prepare := by
    intro e he
    rcases List.mem_cons.mp he with he | he
    · exact (hthread e he.symm).2
    · exact hinv.prepare e he

/-- `main` cleans a queue and releases the frames: the other threads stay where
they are. -/
theorem ShutdownInv.setPipeline
    {p : PipelineState}
    (hinv : ShutdownInv cfg s)
    (hmStatus : p.mStatus = s.pipeline.mStatus)
    (hencoder : p.encoder = s.pipeline.encoder)
    (hdevice : p.device = s.pipeline.device)
    (hmux : p.mux = s.pipeline.mux)
    (hstop : p.stop = s.pipeline.stop)
    (hkeeps : ∀ e, KeepsFrames e s.pipeline p) :
    ShutdownInv cfg (s.setPipeline p) where
  started := hinv.started.of_eq ⟨hmStatus, hencoder⟩
  stop := fun hmain => hstop.trans (hinv.stop hmain)
  status := fun e he =>
    (hinv.status e (hmStatus ▸ he)).imp_right fun h =>
      h.of_eq (congrFun hencoder e)
  joined := fun e he => (hinv.joined e he).of_eq (congrFun hencoder e)
  stage := hinv.stage
  ended := fun o ho => (hinv.ended o ho).of_eq (congrFun hencoder _)
  frames := by
    intro e he f hf hencoded
    refine hinv.frames e he f (mem_shutdown_framesInUse.mpr ?_)
      ((hkeeps e).encoded f hencoded)
    rcases mem_shutdown_framesInUse.mp hf with hf | hf
    · exact Or.inl ((hkeeps e).inUse f hf hencoded)
    · exact Or.inr hf
  device := fun q hq hahead => hinv.device q hq (hdevice ▸ hahead)
  mux := fun q hq hahead => hinv.mux q hq (hmux ▸ hahead)
  prepare := hinv.prepare

theorem encoder_input
    (e : EncoderId) : e.input.encoder = e := by
  cases e <;> rfl

theorem encoder_output
    (e : EncoderId) : e.output.encoder = e := by
  cases e <;> rfl

theorem stage_input
    (e : EncoderId) :
    (MediaObject.thread e).stage < (MediaObject.queue e.input).stage := by
  cases e <;> decide

theorem stage_destroyAudio
    (cfg : StreamerConfig) : 4 ≤ (destroyAudio cfg).stage := by
  simp only [destroyAudio]
  split <;> decide

theorem stage_destroyMediaThread
    (cfg : StreamerConfig) : 0 < (destroyMediaThread cfg).stage := by
  simp only [destroyMediaThread]
  split
  · decide
  · exact Nat.zero_lt_of_lt (stage_destroyAudio cfg)

theorem stage_afterDelete
    (cfg : StreamerConfig) (q : QueueId) :
    (MediaObject.queue q).stage < (afterDelete cfg q).stage := by
  cases q with
  | pVEQueue =>
      exact stage_destroyAudio cfg
  | _ =>
      simp [afterDelete, MediaObject.stage, MainPc.stage]

theorem joined_destroyAudio
    (cfg : StreamerConfig) : (destroyAudio cfg).joined = none := by
  simp only [destroyAudio]
  split <;> rfl

theorem hand_destroyAudio
    (cfg : StreamerConfig) : (destroyAudio cfg).hand = [] := by
  simp only [destroyAudio]
  split <;> rfl

theorem joined_afterDelete
    {q : QueueId} {e : EncoderId} (h : e ∈ (afterDelete cfg q).joined) :
    e = q.encoder := by
  cases q with
  | pVEQueue =>
      rw [afterDelete, joined_destroyAudio] at h
      cases h
  | pYUVQueue =>
      exact (Option.some.inj h).symm
  | pPCMQueue =>
      exact (Option.some.inj h).symm
  | pAEQueue =>
      cases h

theorem hand_afterDelete
    (cfg : StreamerConfig) (q : QueueId) : (afterDelete cfg q).hand = [] := by
  cases q with
  | pVEQueue =>
      exact hand_destroyAudio cfg
  | _ =>
      rfl

/-- The loop of the destructor ends with an empty queue. -/
theorem contents_of_cleanPass_none
    {q : FiFo FrameId}
    (h : cleanPass (none : Option (CleanIt Unit FrameId)) () q = none) :
    q.contents = [] := by
  cases hq : q.contents with
  | nil =>
      rfl
  | cons x xs =>
      simp [cleanPass, FiFo.size_eq, hq, cleanFlags, cleanFlagClean] at h

/-- A thread object with the status `threadStatusStop` is joined, or its thread
has ended. -/
theorem ShutdownInv.ended_of_stopping
    {e e' : EncoderId}
    (hinv : ShutdownInv cfg s)
    (hmain : s.main = .stopping e)
    (hstatus : s.pipeline.mStatus e' = .stop) :
    s.pipeline.Ended e' := by
  rcases hinv.status e' hstatus with hjoin | he
  · rw [hmain] at hjoin
    cases hjoin
  · exact he

/-- `stop` sets the status of a thread object. -/
theorem ShutdownInv.stops
    {e : EncoderId}
    (hinv : ShutdownInv cfg s)
    (hmain : s.main = .stopping e) :
    ShutdownInv cfg
      ((s.setPipeline { s.pipeline with
        mStatus := Function.update s.pipeline.mStatus e .stop }).setMain
          (.joining e)) := by
  have hset := hinv.stop (by rw [hmain]; rfl)
  have hjoining : ShutdownInv cfg (s.setMain (.joining e)) :=
    hinv.walks (fun _ => hset) (by simp [hmain]) ⟨rfl, rfl⟩
      (by simp [hmain, MainPc.stage])
  exact
    { hjoining with
      started := hinv.started.setStatus e (by decide)
      status := by
        intro e' he
        by_cases hsame : e' = e
        · exact Or.inl (by rw [hsame]; rfl)
        · exact Or.inr (hinv.ended_of_stopping hmain
            ((Function.update_of_ne hsame _ _).symm.trans he)) }

/-- A thread object that `stop` leaves alone has no running thread. -/
theorem ShutdownInv.leaves
    {e : EncoderId}
    (hinv : ShutdownInv cfg s)
    (hmain : s.main = .stopping e)
    (hnone : ¬ (s.pipeline.mStatus e = .pause ∨ s.pipeline.mStatus e = .runing)) :
    ShutdownInv cfg (s.setMain (.deletingThread e)) := by
  refine hinv.setMain (fun _ => hinv.stop (by rw [hmain]; rfl)) (by simp [hmain]) ?_
    (by simp [hmain, MainPc.stage]) (fun f hf => nomatch hf)
  intro e' he
  obtain rfl := Option.some.inj he
  cases hstatus : s.pipeline.mStatus e with
  | null =>
      exact Or.inr (hinv.started e hstatus)
  | stop =>
      exact hinv.ended_of_stopping hmain hstatus
  | pause =>
      exact absurd (Or.inl hstatus) hnone
  | runing =>
      exact absurd (Or.inr hstatus) hnone

/-- The thread object is deleted while no frame goes back through it. -/
theorem ShutdownInv.deletesThread
    {e : EncoderId}
    (hinv : ShutdownInv cfg s)
    (hmain : s.main = .deletingThread e)
    (hunneeded : deleteUnneeded cfg s s.main) :
    ShutdownInv cfg ((s.delete (.thread e)).setMain (.destroying e.input)) := by
  have hset := hinv.stop (by rw [hmain]; rfl)
  have hended : s.pipeline.Ended e :=
    hinv.joined e (by rw [hmain]; rfl)
  have hnext : ShutdownInv cfg (s.setMain (.destroying e.input)) := by
    refine hinv.setMain (fun _ => hset) (by simp [hmain]) ?_ ?_ (fun f hf => nomatch hf)
    · intro e' he
      obtain rfl := Option.some.inj he
      rw [encoder_input]
      exact hended
    · rw [hmain]
      exact (stage_input e).le
  refine hnext.delete (o := .thread e) (stage_input e) hended ?_
    (fun q hq => nomatch hq)
  intro e' he
  obtain rfl := MediaObject.thread.inj he
  simp only [deleteUnneeded, hmain] at hunneeded
  refine ⟨fun f hf => ?_, hunneeded.2⟩
  refine hunneeded.1 f (mem_shutdown_framesInUse.mpr (Or.inl ?_))
  exact (mem_shutdown_framesInUse.mp hf).resolve_right (fun h => nomatch h)

/-- The emptied queue is deleted while nobody operates on it. -/
theorem ShutdownInv.deletesQueue
    {q : QueueId}
    (hinv : ShutdownInv cfg s)
    (hmain : s.main = .cleaning q)
    (hunneeded : deleteUnneeded cfg s s.main)
    (hempty : (s.pipeline.queue q).contents = []) :
    ShutdownInv cfg ((s.delete (.queue q)).setMain (afterDelete cfg q)) := by
  have hended : s.pipeline.Ended q.encoder :=
    hinv.joined _ (by rw [hmain]; rfl)
  have hnext : ShutdownInv cfg (s.setMain (afterDelete cfg q)) := by
    refine hinv.setMain (fun _ => hinv.stop (by rw [hmain]; rfl)) (by simp [hmain])
      ?_ ?_ ?_
    · intro e he
      rw [joined_afterDelete he]
      exact hended
    · rw [hmain]
      exact (stage_afterDelete cfg q).le
    · rw [hand_afterDelete]
      exact fun f hf => nomatch hf
  refine hnext.delete (o := .queue q) (stage_afterDelete cfg q) hended
    (fun e he => nomatch he) ?_
  intro q' hq
  obtain rfl := MediaObject.queue.inj hq
  simp only [deleteUnneeded, hmain] at hunneeded
  exact hunneeded hempty

/-- A pass of the destructor takes a frame out of the queue, or nothing. -/
theorem ShutdownInv.takes
    {q : QueueId} {contents : FiFo FrameId} {pc : MainPc}
    (hinv : ShutdownInv cfg s)
    (hmain : s.main = .cleaning q)
    (hpc : pc.joined = some q.encoder ∧ pc.stage = s.main.stage)
    (htaken : pc.hand ++ contents.contents = (s.pipeline.queue q).contents) :
    ShutdownInv cfg
      ((s.setPipeline (s.pipeline.setQueue q contents)).setMain pc) := by
  have hkeeps : ∀ e,
      KeepsFrames e s.pipeline (s.pipeline.setQueue q contents) :=
    fun e => keepsFrames_setQueue e _ q fun f hf =>
      inUse_queue (htaken ▸ List.mem_append_right _ hf)
  have hnext : ShutdownInv cfg (s.setMain pc) := by
    refine hinv.setMain (fun _ => hinv.stop (by rw [hmain]; rfl)) (by simp [hmain]) ?_
      hpc.2.ge ?_
    · intro e he
      refine hinv.joined e ?_
      rw [hmain]
      exact hpc.1.symm.trans he
    · intro f hf
      exact mem_shutdown_framesInUse.mpr
        (Or.inl (inUse_queue (htaken ▸ List.mem_append_left _ hf)))
  exact hnext.setPipeline rfl rfl rfl rfl rfl hkeeps

/-- A step of `main` in which nobody needs what it deletes keeps the invariant. -/
theorem ShutdownInv.main_step
    (hinv : ShutdownInv cfg s)
    (hunneeded : deleteUnneeded cfg s s.main)
    (hstep : mainStep cfg s = some s') :
    ShutdownInv cfg s' := by
  have hset : ∀ {pc : MainPc}, s.main = pc → pc.leftLoop = true →
      s.pipeline.stop = true := fun hmain hleft => hinv.stop (hmain ▸ hleft)
  cases mainStep_case hstep with
  | prepares hmain =>
      have hcreated : ShutdownInv cfg ((s.setStatus .preparing).setPrepare .opening) :=
        (hinv.setStatus .preparing).setPrepare fun _ _ h => nomatch h
      exact hcreated.walks (fun h => nomatch h) (fun e he => nomatch hmain.symm.trans he)
        ⟨rfl, rfl⟩ (congrArg MainPc.stage hmain).le
  | waits hmain hstop =>
      exact hinv.walks (fun h => nomatch h) (by simp [hmain]) ⟨rfl, rfl⟩
        (by simp [hmain, MainPc.stage])
  | begins hmain hstop =>
      refine hinv.walks (fun _ => hstop) (by simp [hmain]) ?_ (by simp [hmain, MainPc.stage])
      simp only [destroyMediaThread]
      split
      · exact ⟨rfl, rfl⟩
      · exact ⟨joined_destroyAudio cfg, hand_destroyAudio cfg⟩
  | stops e hmain hstatus =>
      exact hinv.stops hmain
  | leaves e hmain hstatus =>
      exact hinv.leaves hmain hstatus
  | joins e hmain hexited =>
      refine hinv.setMain (fun _ => hset hmain rfl) ?_ ?_
        (by simp [hmain, MainPc.stage]) (fun f hf => nomatch hf)
      · intro e' he
        obtain rfl := MainPc.joining.inj (hmain.symm.trans he)
        exact Or.inl hexited
      · intro e' he
        obtain rfl := Option.some.inj he
        exact Or.inl hexited
  | deletesThread e hmain =>
      exact hinv.deletesThread hmain hunneeded
  | destroys q hmain hlocked =>
      refine hinv.setMain (fun _ => hset hmain rfl) (by simp [hmain]) ?_
        (by simp [hmain, MainPc.stage]) (fun f hf => nomatch hf)
      exact fun e he => hinv.joined e (by rw [hmain]; exact he)
  | deletesQueue q hmain hpass =>
      exact hinv.deletesQueue hmain hunneeded (contents_of_cleanPass_none hpass)
  | removes q p pFrame hmain hpass hremoved =>
      have hcontents := (cleanPass_contents hpass).1
      rw [hremoved] at hcontents
      exact hinv.takes hmain ⟨rfl, by rw [hmain]; rfl⟩ hcontents
  | cleans q p hmain hpass hremoved =>
      have hcontents := (cleanPass_contents hpass).1
      rw [hremoved] at hcontents
      exact hinv.takes hmain ⟨rfl, by rw [hmain]⟩ hcontents
  | releases q pFrame hmain =>
      have hnext : ShutdownInv cfg (s.setMain (.cleaning q)) :=
        hinv.setMain (fun _ => hset hmain rfl) (by simp [hmain])
          (fun e he => hinv.joined e (by rw [hmain]; exact he))
          (by simp [hmain, MainPc.stage]) (fun f hf => nomatch hf)
      have hsame := (mediaFrameRelease_same s.pipeline pFrame).1
      exact hnext.setPipeline hsame.mStatus hsame.encoder hsame.device hsame.mux
        (mediaFrameRelease_stop s.pipeline pFrame)
        (fun e => keepsFrames_release e s.pipeline pFrame)
  | joinsDevice hmain hexited =>
      exact hinv.walks (fun _ => hset hmain rfl) (by simp [hmain]) ⟨rfl, rfl⟩
        (by simp [hmain, MainPc.stage])
  | stopsStreamer hmain =>
      exact hinv.walks (fun _ => hset hmain rfl) (by simp [hmain]) ⟨rfl, rfl⟩
        (by simp [hmain, MainPc.stage])
  | leavesStreamer hmain =>
      exact hinv.walks (fun _ => hset hmain rfl) (by simp [hmain]) ⟨rfl, rfl⟩
        (by simp [hmain, MainPc.stage])
  | joinsPrepare hmain hexited =>
      exact hinv.walks (fun _ => hset hmain rfl) (by simp [hmain]) ⟨rfl, rfl⟩
        (by simp [hmain, MainPc.stage])
  | joinsMux hmain hended =>
      exact (hinv.setStatus .stoped).walks (fun _ => hset hmain rfl)
        (fun e he => nomatch hmain.symm.trans he) ⟨rfl, rfl⟩
        (by simp [ShutdownState.setStatus, hmain, MainPc.stage])

/-- A key that was typed keeps the invariant. -/
theorem ShutdownInv.typed_step
    {key : Key}
    (hinv : ShutdownInv cfg s)
    (hstep : typedStep s key = some s') :
    ShutdownInv cfg s' := by
  obtain ⟨hmain, rfl | rfl⟩ := typedStep_case hstep
  · exact hinv.setStop.walks (fun h => nomatch h) (fun e he => nomatch hmain.symm.trans he)
      ⟨rfl, rfl⟩ (congrArg MainPc.stage hmain).le
  · exact hinv.walks (fun h => nomatch h) (by simp [hmain]) ⟨rfl, rfl⟩
      (by simp [hmain, MainPc.stage])

/-! ### No step operates on a deleted object -/

/-- A frame in use goes back through a thread object that is still there. -/
theorem ShutdownInv.release_uses
    (hinv : ShutdownInv cfg s) {f : FrameId} (hf : f ∈ s.pipeline.framesInUse) :
    ∀ o ∈ releaseUses (s.pipeline.heap f), o ∉ s.deleted := by
  intro o ho hdeleted
  obtain ⟨e, hencoded, rfl⟩ := mem_releaseUses.mp ho
  exact hinv.frames e hdeleted f (mem_shutdown_framesInUse.mpr (Or.inl hf)) hencoded

theorem ShutdownInv.device_uses
    (hinv : ShutdownInv cfg s) :
    ∀ o ∈ deviceUses cfg s.pipeline, o ∉ s.deleted := by
  have hqueue : ∀ q ∈ s.pipeline.device.queuesAhead cfg,
      MediaObject.queue q ∉ s.deleted := fun q hahead hq =>
    hinv.device q hq hahead
  intro o ho
  cases hpc : s.pipeline.device with
  | enqueueing q pFrame =>
      simp only [deviceUses, hpc, List.mem_singleton] at ho
      rw [ho]
      exact hqueue q (by rw [hpc]; exact List.mem_cons_self)
  | enqueueWaiting q pFrame =>
      simp only [deviceUses, hpc, List.mem_singleton] at ho
      rw [ho]
      exact hqueue q (by rw [hpc]; exact List.mem_cons_self)
  | releasing pFrame =>
      simp only [deviceUses, hpc] at ho
      exact hinv.release_uses
        (inUse_device hpc pFrame (List.mem_singleton_self _)) o ho
  | sizing q =>
      simp only [deviceUses, hpc] at ho
      split at ho
      · rename_i hhas
        rw [List.mem_singleton.mp ho]
        exact hqueue q (by rw [hpc]; exact mem_sizedFrom_self hhas)
      · cases ho
  | entering q =>
      simp only [deviceUses, hpc, List.mem_singleton] at ho
      rw [ho]
      exact hqueue q (by rw [hpc]; exact List.mem_cons_self)
  | cleaning q size =>
      simp only [deviceUses, hpc, List.mem_singleton] at ho
      rw [ho]
      exact hqueue q (by rw [hpc]; exact List.mem_cons_self)
  | cleanReleasing q size stop pFrame =>
      simp only [deviceUses, hpc] at ho
      rcases List.mem_cons.mp ho with rfl | ho
      · exact hqueue q (by rw [hpc]; exact List.mem_cons_self)
      · exact hinv.release_uses
          (inUse_device hpc pFrame (List.mem_singleton_self _)) o ho
  | _ =>
      simp [deviceUses, hpc] at ho

theorem ShutdownInv.mux_uses
    (hinv : ShutdownInv cfg s) :
    ∀ o ∈ muxUses s.pipeline, o ∉ s.deleted := by
  intro o ho
  cases hpc : s.pipeline.mux with
  | dequeueing stream again =>
      simp only [muxUses, hpc, List.mem_singleton] at ho
      rw [ho]
      exact fun hq => hinv.mux _ hq (by rw [hpc]; exact List.mem_cons_self)
  | dequeueWaiting stream again =>
      simp only [muxUses, hpc, List.mem_singleton] at ho
      rw [ho]
      exact fun hq => hinv.mux _ hq (by rw [hpc]; exact List.mem_cons_self)
  | callbackReleasing stream pFrame =>
      simp only [muxUses, hpc] at ho
      exact hinv.release_uses
        (inUse_mux hpc pFrame (List.mem_singleton_self _)) o ho
  | releasing stream pFrame ret =>
      simp only [muxUses, hpc] at ho
      exact hinv.release_uses
        (inUse_mux hpc pFrame (List.mem_singleton_self _)) o ho
  | _ =>
      simp [muxUses, hpc] at ho

/-- An encoder thread that can still take a step has its object and its queues. -/
theorem ShutdownInv.encoder_uses
    {e : EncoderId} (hinv : ShutdownInv cfg s) (hrunning : ¬ s.pipeline.Ended e) :
    ∀ o ∈ .thread e :: encoderUses s.pipeline e, o ∉ s.deleted := by
  have howned : ∀ o : MediaObject, o.encoder = e → o ∉ s.deleted := by
    rintro o rfl hdeleted
    exact hrunning (hinv.ended o hdeleted)
  intro o ho
  rcases List.mem_cons.mp ho with rfl | ho
  · exact howned _ rfl
  cases hpc : s.pipeline.encoder e with
  | dequeueing =>
      simp only [encoderUses, hpc, List.mem_singleton] at ho
      exact howned o (by rw [ho]; exact encoder_input e)
  | dequeueWaiting =>
      simp only [encoderUses, hpc, List.mem_singleton] at ho
      exact howned o (by rw [ho]; exact encoder_input e)
  | inputReleasing pFrame out =>
      simp only [encoderUses, hpc] at ho
      exact hinv.release_uses
        (inUse_encoder hpc pFrame (List.mem_singleton_self _)) o ho
  | enqueueing pFrame =>
      simp only [encoderUses, hpc, List.mem_singleton] at ho
      exact howned o (by rw [ho]; exact encoder_output e)
  | enqueueWaiting pFrame =>
      simp only [encoderUses, hpc, List.mem_singleton] at ho
      exact howned o (by rw [ho]; exact encoder_output e)
  | releasing pFrame =>
      simp only [encoderUses, hpc] at ho
      exact hinv.release_uses
        (inUse_encoder hpc pFrame (List.mem_singleton_self _)) o ho
  | _ =>
      simp [encoderUses, hpc] at ho

theorem ShutdownInv.main_uses
    (hinv : ShutdownInv cfg s) :
    ∀ o ∈ mainUses s, o ∉ s.deleted := by
  have hhere : ∀ o : MediaObject, o.stage = s.main.stage → o ∉ s.deleted := by
    intro o hstage hdeleted
    exact absurd (hinv.stage o hdeleted) (by omega)
  intro o ho
  cases hmain : s.main with
  | cleanReleasing q pFrame =>
      simp only [mainUses, hmain] at ho
      rcases List.mem_cons.mp ho with rfl | ho
      · exact hhere _ (by rw [hmain]; rfl)
      · intro hdeleted
        obtain ⟨e, hencoded, rfl⟩ := mem_releaseUses.mp ho
        refine hinv.frames e hdeleted pFrame
          (mem_shutdown_framesInUse.mpr (Or.inr ?_)) hencoded
        rw [hmain]
        exact List.mem_singleton_self _
  | preparing | running | typing | joiningDevice | stoppingStreamer | joiningPrepare
  | joiningMux | done =>
      simp [mainUses, hmain] at ho
  | _ =>
      simp only [mainUses, hmain, List.mem_singleton] at ho
      exact hhere o (by rw [ho, hmain]; rfl)

/-- The prepare thread asks a thread object that is still there. -/
theorem ShutdownInv.prepare_uses
    (hinv : ShutdownInv cfg s) :
    ∀ o ∈ prepareUses s, o ∉ s.deleted := by
  intro o ho
  simp only [prepareUses] at ho
  split at ho
  · rename_i e es hpc
    obtain rfl := List.mem_singleton.mp ho
    exact fun hdeleted =>
      hinv.prepare e hdeleted (by rw [hpc]; exact List.mem_cons_self)
  · cases ho

theorem ShutdownInv.pipeline_uses
    {a : PipelineAction} {r : PipelineState × List PipelineEvent}
    (hinv : ShutdownInv cfg s)
    (hadmits : s.admits a = true)
    (hstep : pipelineStep cfg lib s.pipeline a = some r) :
    ∀ o ∈ pipelineUses cfg s.pipeline a, o ∉ s.deleted := by
  cases a with
  | setStop =>
      exact fun o ho => nomatch ho
  | startMux =>
      cases hadmits
  | start e =>
      exact fun o _ => hinv.not_deleted (inLoop_of_preparing (by
        simpa [ShutdownState.admits] using hadmits)) o
  | pause e =>
      exact fun o _ => hinv.not_deleted (inLoop_of_preparing (by
        simpa [ShutdownState.admits] using hadmits)) o
  | stop e =>
      cases hadmits
  | device answer =>
      exact hinv.device_uses
  | encoder e answer =>
      refine hinv.encoder_uses fun hended => ?_
      rw [show pipelineStep cfg lib s.pipeline (.encoder e answer) = _ from
        hended.not_step] at hstep
      cases hstep
  | mux answer =>
      exact hinv.mux_uses

/-- A step keeps the invariant, and operates on no deleted object. -/
theorem ShutdownInv.step
    {a : ShutdownAction}
    (hinv : ShutdownInv cfg s)
    (hleaves : LeavesDeleted cfg lib s a)
    (hstep : shutdownStep cfg lib s a = some (s', es)) :
    ShutdownInv cfg s' ∧ ∀ o ∈ es, o ∉ s.deleted := by
  cases a with
  | main =>
      simp only [shutdownStep] at hstep
      cases hmain : mainStep cfg s with
      | none =>
          simp [hmain] at hstep
      | some t =>
          simp only [hmain, Option.some.injEq, Prod.mk.injEq] at hstep
          obtain ⟨rfl, rfl⟩ := hstep
          exact ⟨hinv.main_step hleaves hmain, hinv.main_uses⟩
  | typed key =>
      obtain ⟨t, htyped, hr⟩ := Option.map_eq_some_iff.mp hstep
      obtain ⟨rfl, rfl⟩ := Prod.mk.inj hr
      refine ⟨hinv.typed_step htyped, fun o _ => hinv.not_deleted ?_ o⟩
      rw [(typedStep_case htyped).1]
      rfl
  | prepare ok =>
      obtain ⟨t, hprepare, hr⟩ := Option.map_eq_some_iff.mp hstep
      obtain ⟨rfl, rfl⟩ := Prod.mk.inj hr
      exact ⟨hinv.prepare_step hleaves hprepare, hinv.prepare_uses⟩
  | pipeline a =>
      simp only [shutdownStep] at hstep
      split at hstep
      · rename_i hadmits
        cases hp : pipelineStep cfg lib s.pipeline a with
        | none =>
            simp [hp] at hstep
        | some r =>
            simp only [hp, Option.some.injEq, Prod.mk.injEq] at hstep
            obtain ⟨rfl, rfl⟩ := hstep
            refine ⟨hinv.pipeline_step ?_ ?_ hleaves hp, hinv.pipeline_uses hadmits hp⟩
            · rintro e rfl
              cases hadmits
            · rintro e rfl
              exact inLoop_of_preparing (by simpa [ShutdownState.admits] using hadmits)
      · cases hstep

/--
In every run in which, at each delete, no thread needs the object any more, and
in which afterwards the device thread reads no packet for a deleted queue, the mux
thread selects no stream of one and the prepare thread does not turn to a deleted
thread object, no step operates on a thread object or a queue that
`destroyMediaThread` has deleted.
-/
theorem no_use_after_delete
    {poolCapacity : ℕ} {capacity : QueueId → ℕ} {pHandle : KoalaMuxer}
    {tr : List ShutdownTransition}
    (run : Run (shutdownStep cfg lib)
      (ShutdownState.init poolCapacity capacity pHandle) tr s)
    (hleaves : ∀ τ ∈ tr, LeavesDeleted cfg lib τ.src τ.action) :
    ∀ τ ∈ tr, ∀ o ∈ τ.events, o ∉ τ.src.deleted := by
  intro τ hτ
  obtain ⟨tr', hpre, hrun⟩ := run.prefix_of_mem τ hτ
  have hinv : ShutdownInv cfg τ.src := by
    refine Run.invariant_of (fun τ => LeavesDeleted cfg lib τ.src τ.action)
      (fun _ s => ShutdownInv cfg s) shutdownInv_init ?_ hrun ?_
    · exact fun _ s a es t hs hstep hC => (hs.step hC hstep).1
    · intro τ' hτ'
      exact hleaves τ' (hpre.subset (List.mem_append_left _ hτ'))
  exact (hinv.step (hleaves τ hτ) (run.valid τ hτ)).2

end Shutdown

/-- Steps beside `main`. -/
def besideMain (as : List PipelineAction) : List ShutdownAction :=
  as.map .pipeline

/-- A camera without a microphone: the prepare thread asks `mpThreadVE` and creates
the mux thread, which finds no frame.  When `q` is typed the mux thread and the device
thread leave because of `stop`, and then `main` shuts down. -/
def quietShutdown : List ShutdownAction :=
  List.flatten
    [besideMain [.start .mpThreadVE],
      .main :: List.replicate 7 (.prepare true),
      besideMain (List.replicate 3 (.mux ⟨ETIMEDOUT, 0, true⟩)),
      [.main, .typed .q],
      besideMain (.device ⟨0, 0⟩ :: List.replicate 5 (.mux ⟨ETIMEDOUT, 0, true⟩)),
      [.main, .main],
      besideMain [.encoder .mpThreadVE ⟨.kept, 0⟩],
      List.replicate 10 .main]

theorem no_use_after_delete_quiet :
    ∃ tr s, Run (shutdownStep ⟨0, -1⟩ exactLibAv)
      (ShutdownState.init 500 queueCapacity
        (openedMuxer false true false "flv" 0 0 0)) tr s ∧
      s.main = .done ∧
      s.deleted = [.queue .pVEQueue, .queue .pYUVQueue, .thread .mpThreadVE] ∧
      ∀ τ ∈ tr, ∀ o ∈ τ.events, o ∉ τ.src.deleted := by
  obtain ⟨tr, s, run, hleaves, hmain, hdeleted⟩ :=
    Run.exists_of_exec (shutdownStep ⟨0, -1⟩ exactLibAv)
      (ShutdownState.init 500 queueCapacity
        (openedMuxer false true false "flv" 0 0 0))
      quietShutdown
      (fun r => (∀ τ ∈ r.1, LeavesDeleted ⟨0, -1⟩ exactLibAv τ.src τ.action) ∧
        r.2.main = .done ∧
        r.2.deleted =
          [.queue .pVEQueue, .queue .pYUVQueue, .thread .mpThreadVE])
      (by decide +kernel)
  exact ⟨tr, s, run, hmain, hdeleted, no_use_after_delete run hleaves⟩

/-- The device thread is in `av_read_frame` when `q` is typed, the encoder thread is
joined and `pYUVQueue` is deleted; then it enqueues its frame. -/
def enqueueAfterDelete : List ShutdownAction :=
  List.flatten
    [besideMain [.start .mpThreadVE, .device ⟨0, 0⟩],
      [.main, .main, .typed .q, .main, .main],
      besideMain [.encoder .mpThreadVE ⟨.kept, 0⟩],
      List.replicate 4 .main,
      besideMain (List.replicate 5 (.device ⟨0, 0⟩))]

theorem no_use_after_delete_fails_enqueue :
    ¬ ∀ (tr : List ShutdownTransition) (s : ShutdownState),
        Run (shutdownStep ⟨0, 1⟩ exactLibAv)
          (ShutdownState.init 500 queueCapacity koalaGetMuxerHandle) tr s →
        ∀ τ ∈ tr, ∀ o ∈ τ.events, o ∉ τ.src.deleted := by
  intro hclaim
  obtain ⟨tr, s, run, τ, hτ, o, ho, hdeleted⟩ :=
    Run.exists_of_exec (shutdownStep ⟨0, 1⟩ exactLibAv)
      (ShutdownState.init 500 queueCapacity koalaGetMuxerHandle)
      enqueueAfterDelete
      (fun r => ∃ τ ∈ r.1, ∃ o ∈ τ.events, o ∈ τ.src.deleted)
      (by decide +kernel)
  exact hclaim tr s run τ hτ o ho hdeleted

end KoalaStreamer
