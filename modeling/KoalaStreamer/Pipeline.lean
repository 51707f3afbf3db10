import KoalaStreamer.CleanQueue
import KoalaStreamer.EncoderStage
import KoalaStreamer.KoalaMuxer

/-!
# MacRTMPStreamer.cpp: the running pipeline

Four threads share a pool of frames and four queues: the device thread runs
`ff_read_devices`, two encoder threads run `mediaThread::func` with
`encoderVideo` and `encoderAudio`, and the mux thread runs `mux_thread` over
`audio_callback` and `video_callback`.  `main` starts them and sets `stop`; the
model ends where `destroyMediaThread` begins.

A step of a thread is a section of code that touches shared data once: a
mutex-held section of a queue, a push or pop of the pool, one read or write of a
flag.  What the code does with a frame that no other thread can reach, such as
the `free` after a failed push, belongs to the step before it.  The device
thread keeps the mutex of the queue it cleans from pass to pass; the sections
of other threads on this queue are then disabled.

Frames and packets are numbered in the order of their allocation; `heap` holds
the content of the frames.  Encoder results, packets read and the values that
timed waits return are answers of the environment.
-/

namespace KoalaStreamer

open EventMachine

/-- The queues of `streamer_cont`. -/
inductive QueueId
  | pYUVQueue
  | pPCMQueue
  | pVEQueue
  | pAEQueue
deriving DecidableEq, Repr

/-- The encoder threads of `streamer_cont`. -/
inductive EncoderId
  | mpThreadVE
  | mpThreadAE
deriving DecidableEq, Repr

inductive PipelineThread
  | device
  | encoder (e : EncoderId)
  | mux
deriving DecidableEq, Repr

/-- `mFrameInputQueue`, as `initMediaThread` sets it. -/
def EncoderId.input : EncoderId → QueueId
  | .mpThreadVE => .pYUVQueue
  | .mpThreadAE => .pPCMQueue

/-- `mFrameOutPutQueue`, as `initMediaThread` sets it. -/
def EncoderId.output : EncoderId → QueueId
  | .mpThreadVE => .pVEQueue
  | .mpThreadAE => .pAEQueue

/-- The pointer to the thread object that its frames carry. -/
def EncoderId.pThis : EncoderId → ℕ
  | .mpThreadVE => 1
  | .mpThreadAE => 2

/-- The queue that the callback of a stream reads. -/
def StreamType.queue : StreamType → QueueId
  | .video => .pVEQueue
  | .audio => .pAEQueue

abbrev FrameId := ℕ

abbrev PktId := ℕ

/-- `ff_read_devices`, between two steps. -/
inductive DevicePc
  | loopHead
  /-- About to allocate a packet and read into it. -/
  | reading
  /-- About to call `getMediaFrame`. -/
  | getting (pkt : PktId) (streamIndex : Int)
  /-- About to set the fields of the frame. -/
  | filling (pkt : PktId) (streamIndex : Int) (pFrame : FrameId)
  | routing (streamIndex : Int) (pFrame : FrameId)
  | enqueueing (q : QueueId) (pFrame : FrameId)
  | enqueueWaiting (q : QueueId) (pFrame : FrameId)
  | releasing (pFrame : FrameId)
  /-- About to call `getSize`. -/
  | sizing (q : QueueId)
  /-- About to take the mutex in `cleanIf`. -/
  | entering (q : QueueId)
  /-- At the loop condition of `cleanIf`, with the mutex. -/
  | cleaning (q : QueueId) (size : Int)
  /-- About to release a frame in `cleanIf`, with the mutex. -/
  | cleanReleasing (q : QueueId) (size : Int) (stop : Bool) (pFrame : FrameId)
  | exited
deriving DecidableEq, Repr

/-- The packet an encoder gives out, as far as it is copied to a frame. -/
structure EncodedPkt where
  data : ℕ
  size : Int
  pts : Int
  dts : Int
  flag : Int
deriving DecidableEq, Repr

/-- What `deal` made of its input. -/
inductive Encoded
  /-- No encoder call: more input is gathered first. -/
  | kept
  /-- `got == 0`. -/
  | nothing
  | got (out : EncodedPkt)
deriving DecidableEq, Repr

/-- `mediaThread::run`, `func` and `deal`, between two steps. -/
inductive EncoderPc
  | notCreated
  | runLoop
  | dequeueing
  | dequeueWaiting
  | dealing (pFrame : FrameId)
  /-- About to release the input of `deal`. -/
  | inputReleasing (pFrame : FrameId) (out : Option (PktId × EncodedPkt))
  /-- About to call `getMediaFrame`. -/
  | getting (pkt : PktId) (out : EncodedPkt)
  /-- About to set the fields of the frame. -/
  | filling (pkt : PktId) (out : EncodedPkt) (pFrame : FrameId)
  | enqueueing (pFrame : FrameId)
  | enqueueWaiting (pFrame : FrameId)
  /-- `enqueue` has returned. -/
  | enqueued (pFrame : FrameId) (ret : Int)
  | releasing (pFrame : FrameId)
  | exited
deriving DecidableEq, Repr

/-- `mux_thread`, `write_frame` and the data callbacks, between two steps. -/
inductive MuxPc
  | notCreated
  | loopHead
  /-- About to call `dequeue`; `again` inside the loop of the callback. -/
  | dequeueing (stream : StreamType) (again : Bool)
  | dequeueWaiting (stream : StreamType) (again : Bool)
  | dequeued (stream : StreamType) (again : Bool) (pFrame : Option FrameId)
  /-- The callback is about to release a frame because of `stop`. -/
  | callbackReleasing (stream : StreamType) (pFrame : FrameId)
  /-- The callback has returned -1. -/
  | callbackEnd (stream : StreamType)
  /-- `write_frame` has obtained a frame. -/
  | writing (stream : StreamType) (pFrame : FrameId)
  /-- `write_frame` is about to release its frame and to return. -/
  | releasing (stream : StreamType) (pFrame : FrameId) (ret : Int)
  | exited
deriving DecidableEq, Repr

/-- The part of `streamer_cont` that `ff_read_devices` compares with. -/
structure StreamerConfig where
  videoIndex : Int
  audioIndex : Int

structure PipelineState where
  pFrameStack : Stack FrameId
  queue : QueueId → FiFo FrameId
  heap : FrameId → MediaFrame
  /-- The frame that `mediaFrameCreate` returns next. -/
  nextFrame : FrameId
  /-- Frames given to `free`. -/
  freed : List FrameId
  /-- The packet that `av_packet_alloc` returns next. -/
  nextPkt : PktId
  /-- Packets given to `av_packet_free`. -/
  freedPkts : List PktId
  stop : Bool
  device : DevicePc
  mStatus : EncoderId → ThreadStatus
  encoder : EncoderId → EncoderPc
  mux : MuxPc
  pHandle : KoalaMuxer
  /-- `encode_video` and `encode_audio`. -/
  encode : StreamType → Bool

/-- What the environment answers in a step of the device thread. -/
structure DeviceAnswer where
  /-- `pkt->stream_index` after `av_read_frame`. -/
  streamIndex : Int
  /-- The result of `pthread_cond_timedwait`. -/
  wait : Int

/-- What the environment answers in a step of an encoder thread. -/
structure EncoderAnswer where
  encoded : Encoded
  wait : Int

/-- What the environment answers in a step of the mux thread. -/
structure MuxAnswer where
  wait : Int
  /-- The result of `av_interleaved_write_frame`. -/
  written : Int
  /-- `pHandle->end` at the end of a pass. -/
  ended : Bool

inductive PipelineAction
  | setStop
  /-- `mediaThread::start`. -/
  | start (e : EncoderId)
  /-- `mediaThread::pause`. -/
  | pause (e : EncoderId)
  /-- `mediaThread::stop`. -/
  | stop (e : EncoderId)
  /-- `koala_muxer_start`. -/
  | startMux
  | device (answer : DeviceAnswer)
  | encoder (e : EncoderId) (answer : EncoderAnswer)
  | mux (answer : MuxAnswer)

inductive PipelineEvent
  /-- `mediaFrameRelease` was called. -/
  | released (t : PipelineThread) (pFrame : FrameId)
  | enqueueReturned (t : PipelineThread) (q : QueueId) (pFrame : FrameId)
      (ret : Int)
deriving DecidableEq, Repr

/-- A step of the pipeline in a run. -/
abbrev PipelineTransition :=
  Transition PipelineState PipelineAction PipelineEvent

/-- Before `main` starts the threads; the device thread begins at once. -/
def PipelineState.init
    (poolCapacity : ℕ) (capacity : QueueId → ℕ) (pHandle : KoalaMuxer) :
    PipelineState where
  pFrameStack := Stack.init poolCapacity
  queue := fun q => FiFo.init (capacity q)
  heap := fun _ => mediaFrameCreate
  nextFrame := 0
  freed := []
  nextPkt := 0
  freedPkts := []
  stop := false
  device := .loopHead
  mStatus := fun _ => .null
  encoder := fun _ => .notCreated
  mux := .notCreated
  pHandle := pHandle
  encode := fun _ => false

namespace PipelineState

def setDevice (s : PipelineState) (pc : DevicePc) : PipelineState :=
  { s with device := pc }

def setEncoder (s : PipelineState) (e : EncoderId) (pc : EncoderPc) :
    PipelineState :=
  { s with encoder := Function.update s.encoder e pc }

def setMux (s : PipelineState) (pc : MuxPc) : PipelineState :=
  { s with mux := pc }

def setQueue (s : PipelineState) (q : QueueId) (contents : FiFo FrameId) :
    PipelineState :=
  { s with queue := Function.update s.queue q contents }

def setFrame (s : PipelineState) (pFrame : FrameId) (content : MediaFrame) :
    PipelineState :=
  { s with heap := Function.update s.heap pFrame content }

def setPool (s : PipelineState) (stack : Stack FrameId) : PipelineState :=
  { s with pFrameStack := stack }

/-- `free(pFrame)`. -/
def free (s : PipelineState) (pFrame : FrameId) : PipelineState :=
  { s with freed := pFrame :: s.freed }

/-- `mediaFrameCreate(0)` allocates the frame `nextFrame`. -/
def createFrame (s : PipelineState) : PipelineState :=
  { s with
    heap := Function.update s.heap s.nextFrame mediaFrameCreate
    nextFrame := s.nextFrame + 1 }

/-- `getMediaFrame`: the frame, and the state after it. -/
def getMediaFrame (s : PipelineState) : FrameId × PipelineState :=
  match s.pFrameStack.pop with
  | (some pFrame, stack) => (pFrame, s.setPool stack)
  | (none, stack) => (s.nextFrame, (s.setPool stack).createFrame)

/-- `putMediaFrame`: push, or free when the pool is full. -/
def putMediaFrame (s : PipelineState) (pFrame : FrameId) : PipelineState :=
  if (s.pFrameStack.push pFrame).1 < 0 then
    (s.setPool (s.pFrameStack.push pFrame).2).free pFrame
  else
    s.setPool (s.pFrameStack.push pFrame).2

/-- `mediaFrameRelease`: by `default_release`, `ReleasePkt` or
`release_pkt_buffer`. -/
def mediaFrameRelease (s : PipelineState) (pFrame : FrameId) : PipelineState :=
  match (s.heap pFrame).release with
  | .null => s.free pFrame
  | .releasePkt =>
      putMediaFrame
        { s with freedPkts := (s.heap pFrame).pBuffer :: s.freedPkts } pFrame
  | .releasePktBuffer =>
      putMediaFrame
        { s with freedPkts := (s.heap pFrame).releaseArg :: s.freedPkts } pFrame

/-- The device thread holds the mutex of the queue. -/
def locked (s : PipelineState) (q : QueueId) : Bool :=
  match s.device with
  | .cleaning q' _ => q' = q
  | .cleanReleasing q' _ _ _ => q' = q
  | _ => false

end PipelineState

section Device

/-- Whether the queue exists. -/
def StreamerConfig.hasQueue (cfg : StreamerConfig) : QueueId → Bool
  | .pYUVQueue => 0 ≤ cfg.videoIndex
  | .pVEQueue => 0 ≤ cfg.videoIndex
  | .pPCMQueue => 0 ≤ cfg.audioIndex
  | .pAEQueue => 0 ≤ cfg.audioIndex

/-- The size above which `ff_read_devices` cleans a queue. -/
def cleanLimit : QueueId → ℕ
  | .pVEQueue => 80
  | _ => 300

/-- What `ff_read_devices` does after it has looked at a queue. -/
def afterSize : QueueId → DevicePc
  | .pVEQueue => .sizing .pAEQueue
  | _ => .loopHead

/-- The callback that cleans a queue. -/
def cleanCallback (s : PipelineState) : QueueId → CleanIt Int FrameId
  | .pVEQueue => myCleanQueueV fun pFrame => (s.heap pFrame).flag
  | _ => myCleanQueueA

/-- Where `ff_read_devices` sends a frame. -/
def routeFrame
    (cfg : StreamerConfig) (streamIndex : Int) (pFrame : FrameId) : DevicePc :=
  if streamIndex = cfg.videoIndex then .enqueueing .pYUVQueue pFrame
  else if streamIndex = cfg.audioIndex then .enqueueing .pPCMQueue pFrame
  else .releasing pFrame

/-- `enqueue` returns to `ff_read_devices`, which ignores the result. -/
def deviceEnqueued
    (s : PipelineState) (q : QueueId) (pFrame : FrameId)
    (e : EnqueueExit FrameId) : PipelineState × List PipelineEvent :=
  ((s.setQueue q e.queue).setDevice (.sizing .pVEQueue),
    [.enqueueReturned .device q pFrame e.ret])

/-- One step of the device thread. -/
def deviceStep
    (cfg : StreamerConfig) (s : PipelineState) (answer : DeviceAnswer) :
    Option (PipelineState × List PipelineEvent) :=
  match s.device with
  | .loopHead =>
      some (s.setDevice (if s.stop then .exited else .reading), [])
  | .reading =>
      some ({ s.setDevice (.getting s.nextPkt answer.streamIndex) with
        nextPkt := s.nextPkt + 1 }, [])
  | .getting pkt streamIndex =>
      some (s.getMediaFrame.2.setDevice
        (.filling pkt streamIndex s.getMediaFrame.1), [])
  | .filling pkt streamIndex pFrame =>
      some ((s.setFrame pFrame (mediaFrameSetRelease
        { s.heap pFrame with pBuffer := pkt } .releasePkt 1)).setDevice
          (.routing streamIndex pFrame), [])
  | .routing streamIndex pFrame =>
      some (s.setDevice (routeFrame cfg streamIndex pFrame), [])
  | .enqueueing q pFrame =>
      match enqueueEnter (s.queue q) pFrame with
      | none => some (s.setDevice (.enqueueWaiting q pFrame), [])
      | some e => some (deviceEnqueued s q pFrame e)
  | .enqueueWaiting q pFrame =>
      some (deviceEnqueued s q pFrame
        (enqueueWake (s.queue q) pFrame answer.wait))
  | .releasing pFrame =>
      some ((s.mediaFrameRelease pFrame).setDevice (.sizing .pVEQueue),
        [.released .device pFrame])
  | .sizing q =>
      if cfg.hasQueue q ∧ (s.queue q).size > cleanLimit q then
        some (s.setDevice (.entering q), [])
      else
        some (s.setDevice (afterSize q), [])
  | .entering q => some (s.setDevice (.cleaning q 0), [])
  | .cleaning q size =>
      match cleanPass (some (cleanCallback s q)) size (s.queue q) with
      | none => some (s.setDevice (afterSize q), [])
      | some p =>
          match p.removed with
          | some pFrame =>
              some ((s.setQueue q p.queue).setDevice
                (.cleanReleasing q p.arg p.stop pFrame), [])
          | none =>
              some ((s.setQueue q p.queue).setDevice
                (if p.stop then afterSize q else .cleaning q p.arg), [])
  | .cleanReleasing q size stop pFrame =>
      some ((s.mediaFrameRelease pFrame).setDevice
        (if stop then afterSize q else .cleaning q size),
        [.released .device pFrame])
  | .exited => none

end Device

section Encoder

/-- `dequeue` returns to `func`. -/
def encoderDequeued
    (s : PipelineState) (e : EncoderId) (d : DequeueExit FrameId) :
    PipelineState × List PipelineEvent :=
  ((s.setQueue e.input d.queue).setEncoder e
    (match d.ret with
      | some pFrame => .dealing pFrame
      | none => .runLoop), [])

/-- `enqueue` returns to `func`. -/
def encoderEnqueued
    (s : PipelineState) (e : EncoderId) (pFrame : FrameId)
    (x : EnqueueExit FrameId) : PipelineState × List PipelineEvent :=
  ((s.setQueue e.output x.queue).setEncoder e (.enqueued pFrame x.ret),
    [.enqueueReturned (.encoder e) e.output pFrame x.ret])

/-- `deal` has encoded; a packet was allocated for it if an encoder was called. -/
def encoderDealt
    (s : PipelineState) (e : EncoderId) (pFrame : FrameId) (encoded : Encoded) :
    PipelineState :=
  match encoded with
  | .kept => s.setEncoder e (.inputReleasing pFrame none)
  | .nothing =>
      { s.setEncoder e (.inputReleasing pFrame none) with
        nextPkt := s.nextPkt + 1 }
  | .got out =>
      { s.setEncoder e (.inputReleasing pFrame (some (s.nextPkt, out))) with
        nextPkt := s.nextPkt + 1 }

/-- The frame `deal` hands out for an encoded packet. -/
def encodedFrame
    (e : EncoderId) (pkt : PktId) (out : EncodedPkt) (pFrame : MediaFrame) :
    MediaFrame :=
  { mediaFrameSetRelease { pFrame with pAppending := e.pThis }
      .releasePktBuffer pkt with
    size := out.size
    pBuffer := out.data
    pts := out.pts
    dts := out.dts
    flag := out.flag }

/-- One step of an encoder thread. -/
def encoderStep
    (s : PipelineState) (e : EncoderId) (answer : EncoderAnswer) :
    Option (PipelineState × List PipelineEvent) :=
  match s.encoder e with
  | .notCreated => none
  | .runLoop =>
      if s.mStatus e = .stop then some (s.setEncoder e .exited, [])
      else if s.mStatus e = .pause then some (s, [])
      else some (s.setEncoder e .dequeueing, [])
  | .dequeueing =>
      if s.locked e.input then none
      else
        match dequeueEnter (s.queue e.input) with
        | none => some (s.setEncoder e .dequeueWaiting, [])
        | some d => some (encoderDequeued s e d)
  | .dequeueWaiting =>
      if s.locked e.input then none
      else
        some (encoderDequeued s e (dequeueWake (s.queue e.input) answer.wait))
  | .dealing pFrame => some (encoderDealt s e pFrame answer.encoded, [])
  | .inputReleasing pFrame out =>
      some ((s.mediaFrameRelease pFrame).setEncoder e
        (match out with
          | some (pkt, out) => .getting pkt out
          | none => .runLoop),
        [.released (.encoder e) pFrame])
  | .getting pkt out =>
      some (s.getMediaFrame.2.setEncoder e
        (.filling pkt out s.getMediaFrame.1), [])
  | .filling pkt out pFrame =>
      some ((s.setFrame pFrame
        (encodedFrame e pkt out (s.heap pFrame))).setEncoder e
          (.enqueueing pFrame), [])
  | .enqueueing pFrame =>
      if s.locked e.output then none
      else
        match enqueueEnter (s.queue e.output) pFrame with
        | none => some (s.setEncoder e (.enqueueWaiting pFrame), [])
        | some x => some (encoderEnqueued s e pFrame x)
  | .enqueueWaiting pFrame =>
      if s.locked e.output then none
      else
        some (encoderEnqueued s e pFrame
          (enqueueWake (s.queue e.output) pFrame answer.wait))
  | .enqueued pFrame ret =>
      if ret < 0 then
        if ret = -ETIMEDOUT ∧ s.mStatus e ≠ .stop then
          some (s.setEncoder e (.enqueueing pFrame), [])
        else
          some (s.setEncoder e (.releasing pFrame), [])
      else
        some (s.setEncoder e .runLoop, [])
  | .releasing pFrame =>
      some ((s.mediaFrameRelease pFrame).setEncoder e .runLoop,
        [.released (.encoder e) pFrame])
  | .exited => none

end Encoder

section Mux

/-- `dequeue` returns to the callback. -/
def muxDequeued
    (s : PipelineState) (stream : StreamType) (again : Bool)
    (d : DequeueExit FrameId) : PipelineState × List PipelineEvent :=
  ((s.setQueue stream.queue d.queue).setMux (.dequeued stream again d.ret), [])

/-- `write_frame` returns to `mux_thread`. -/
def muxPassEnd
    (s : PipelineState) (stream : StreamType) (ret : Int) (ended : Bool) :
    PipelineState :=
  { s with
    encode := Function.update s.encode stream (ret = 0)
    mux := if ended then .exited else .loopHead }

/-- What `write_frame` leaves in the frame it has obtained. -/
def writtenFrame
    (pHandle : KoalaMuxer) (stream : StreamType) (frame : MediaFrame) :
    MediaFrame :=
  match reqIFrameGate pHandle stream frame with
  | .drop _ => frame
  | .pass h => rebase (latchFirstPts h frame) frame

/-- One step of the mux thread. -/
def muxThreadStep
    (lib : LibAv) (s : PipelineState) (answer : MuxAnswer) :
    Option (PipelineState × List PipelineEvent) :=
  match s.mux with
  | .notCreated => none
  | .loopHead =>
      match selectStream lib s.pHandle s.encode with
      | none => some (s.setMux .exited, [])
      | some stream =>
          if s.pHandle.haveStream stream then
            some (s.setMux (.dequeueing stream false), [])
          else
            some (s.setMux (.callbackEnd stream), [])
  | .dequeueing stream again =>
      if s.locked stream.queue then none
      else
        match dequeueEnter (s.queue stream.queue) with
        | none => some (s.setMux (.dequeueWaiting stream again), [])
        | some d => some (muxDequeued s stream again d)
  | .dequeueWaiting stream again =>
      if s.locked stream.queue then none
      else
        some (muxDequeued s stream again
          (dequeueWake (s.queue stream.queue) answer.wait))
  | .dequeued stream again pFrame =>
      if again ∧ s.stop then
        match pFrame with
        | some pFrame => some (s.setMux (.callbackReleasing stream pFrame), [])
        | none => some (s.setMux (.callbackEnd stream), [])
      else
        match pFrame with
        | some pFrame => some (s.setMux (.writing stream pFrame), [])
        | none => some (s.setMux (.dequeueing stream true), [])
  | .callbackReleasing stream pFrame =>
      some ((s.mediaFrameRelease pFrame).setMux (.callbackEnd stream),
        [.released .mux pFrame])
  | .callbackEnd stream => some (muxPassEnd s stream 1 answer.ended, [])
  | .writing stream pFrame =>
      let w := writeObtained lib s.pHandle stream 0 (s.heap pFrame) answer.written
      some ({ s.setFrame pFrame (writtenFrame s.pHandle stream (s.heap pFrame)) with
        pHandle := w.pHandle
        mux := .releasing stream pFrame w.ret }, [])
  | .releasing stream pFrame ret =>
      some (muxPassEnd (s.mediaFrameRelease pFrame) stream ret answer.ended,
        [.released .mux pFrame])
  | .exited => none

end Mux

/-- One step of the pipeline. -/
def pipelineStep (cfg : StreamerConfig) (lib : LibAv) :
    Machine PipelineState PipelineAction PipelineEvent :=
  fun s a =>
    match a with
    | .setStop => some ({ s with stop := true }, [])
    | .start e =>
        if s.mStatus e = .null then
          some ({ s.setEncoder e .runLoop with
            mStatus := Function.update s.mStatus e .runing }, [])
        else
          some (s, [])
    | .pause e =>
        if s.mStatus e = .runing then
          some ({ s with mStatus := Function.update s.mStatus e .pause }, [])
        else
          some (s, [])
    | .stop e =>
        if s.mStatus e = .pause ∨ s.mStatus e = .runing then
          some ({ s with mStatus := Function.update s.mStatus e .stop }, [])
        else
          some (s, [])
    | .startMux =>
        if s.mux = .notCreated then
          some ({ s.setMux .loopHead with encode := s.pHandle.haveStream }, [])
        else
          some (s, [])
    | .device answer => deviceStep cfg s answer
    | .encoder e answer => encoderStep s e answer
    | .mux answer => muxThreadStep lib s answer

end KoalaStreamer
