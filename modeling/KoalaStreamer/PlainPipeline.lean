import KoalaStreamer.Library.BoundedList
import KoalaStreamer.Pipeline

/-!
# The pipeline without a pool

What the pipeline does, apart from where its frames are kept.  Each `getMediaFrame` creates
a frame, a thread hands a frame on with its content, and to release one is to free its
packet: there are no addresses, no pool and no use of a frame for a second time.  The
queues are lists with a bound.

The steps are those of the threads; an action means the same in both pipelines.
-/

namespace KoalaStreamer

open EventMachine

/-- `ff_read_devices`, between two steps. -/
inductive PlainDevicePc
  | loopHead
  | reading
  | getting (pkt : PktId) (streamIndex : Int)
  | filling (pkt : PktId) (streamIndex : Int)
  | routing (streamIndex : Int) (frame : MediaFrame)
  | enqueueing (q : QueueId) (frame : MediaFrame)
  | enqueueWaiting (q : QueueId) (frame : MediaFrame)
  | releasing (frame : MediaFrame)
  | sizing (q : QueueId)
  | entering (q : QueueId)
  | cleaning (q : QueueId) (size : Int)
  | cleanReleasing (q : QueueId) (size : Int) (stop : Bool) (frame : MediaFrame)
  | exited
deriving DecidableEq, Repr

/-- `mediaThread::run`, `func` and `deal`, between two steps. -/
inductive PlainEncoderPc
  | notCreated
  | runLoop
  | dequeueing
  | dequeueWaiting
  | dealing (frame : MediaFrame)
  | inputReleasing (frame : MediaFrame) (out : Option (PktId × EncodedPkt))
  | getting (pkt : PktId) (out : EncodedPkt)
  | filling (pkt : PktId) (out : EncodedPkt)
  | enqueueing (frame : MediaFrame)
  | enqueueWaiting (frame : MediaFrame)
  /-- `enqueue` has returned less than 0; the frame is still the caller's. -/
  | refused (frame : MediaFrame) (ret : Int)
  /-- `enqueue` has returned; the frame is no longer the caller's. -/
  | accepted
  | releasing (frame : MediaFrame)
  | exited
deriving DecidableEq, Repr

/-- `mux_thread`, `write_frame` and the data callbacks, between two steps. -/
inductive PlainMuxPc
  | notCreated
  | loopHead
  | dequeueing (stream : StreamType) (again : Bool)
  | dequeueWaiting (stream : StreamType) (again : Bool)
  | dequeued (stream : StreamType) (again : Bool) (frame : Option MediaFrame)
  | callbackReleasing (stream : StreamType) (frame : MediaFrame)
  | callbackEnd (stream : StreamType)
  | writing (stream : StreamType) (frame : MediaFrame)
  | releasing (stream : StreamType) (frame : MediaFrame) (ret : Int)
  | exited
deriving DecidableEq, Repr

structure PlainState where
  queue : QueueId → BoundedList MediaFrame
  nextPkt : PktId
  freedPkts : List PktId
  stop : Bool
  device : PlainDevicePc
  mStatus : EncoderId → ThreadStatus
  encoder : EncoderId → PlainEncoderPc
  mux : PlainMuxPc
  pHandle : KoalaMuxer
  encode : StreamType → Bool

inductive PlainEvent
  | released (t : PipelineThread) (frame : MediaFrame)
  | enqueueReturned (t : PipelineThread) (q : QueueId) (frame : MediaFrame) (ret : Int)
deriving DecidableEq, Repr

abbrev PlainTransition :=
  Transition PlainState PipelineAction PlainEvent

def PlainState.init (capacity : QueueId → ℕ) (pHandle : KoalaMuxer) : PlainState where
  queue := fun q => BoundedList.empty (capacity q)
  nextPkt := 0
  freedPkts := []
  stop := false
  device := .loopHead
  mStatus := fun _ => .null
  encoder := fun _ => .notCreated
  mux := .notCreated
  pHandle := pHandle
  encode := fun _ => false

namespace PlainState

def setDevice (s : PlainState) (pc : PlainDevicePc) : PlainState :=
  { s with device := pc }

def setEncoder (s : PlainState) (e : EncoderId) (pc : PlainEncoderPc) : PlainState :=
  { s with encoder := Function.update s.encoder e pc }

def setMux (s : PlainState) (pc : PlainMuxPc) : PlainState :=
  { s with mux := pc }

def setQueue (s : PlainState) (q : QueueId) (frames : BoundedList MediaFrame) : PlainState :=
  { s with queue := Function.update s.queue q frames }

/-- Free the packet that the frame is released with. -/
def release (s : PlainState) (frame : MediaFrame) : PlainState :=
  match frame.release with
  | .null => s
  | .releasePkt => { s with freedPkts := frame.pBuffer :: s.freedPkts }
  | .releasePktBuffer => { s with freedPkts := frame.releaseArg :: s.freedPkts }

/-- The device thread is cleaning the queue. -/
def locked (s : PlainState) (q : QueueId) : Bool :=
  match s.device with
  | .cleaning q' _ => q' = q
  | .cleanReleasing q' _ _ _ => q' = q
  | _ => false

end PlainState

/-- `enqueue` after a wait: what it returns, and the queue. -/
def plainEnqueueWake
    (q : BoundedList MediaFrame) (frame : MediaFrame) (wait : Int) :
    Int × BoundedList MediaFrame :=
  if wait = ETIMEDOUT then (-ETIMEDOUT, q) else (0, q.put frame)

/-- `dequeue` after a wait: what it returns, and the queue. -/
def plainDequeueWake
    (q : BoundedList MediaFrame) (wait : Int) :
    Option MediaFrame × BoundedList MediaFrame :=
  if wait = ETIMEDOUT then (none, q) else (q.items.head?, q.rest)

section Device

def plainAfterSize : QueueId → PlainDevicePc
  | .pVEQueue => .sizing .pAEQueue
  | _ => .loopHead

def plainCleanCallback : QueueId → CleanIt Int MediaFrame
  | .pVEQueue => myCleanQueueV MediaFrame.flag
  | _ => myCleanQueueA

def plainRouteFrame
    (cfg : StreamerConfig) (streamIndex : Int) (frame : MediaFrame) : PlainDevicePc :=
  if streamIndex = cfg.videoIndex then .enqueueing .pYUVQueue frame
  else if streamIndex = cfg.audioIndex then .enqueueing .pPCMQueue frame
  else .releasing frame

/-- What `ff_read_devices` makes of a new frame. -/
def rawFrame (pkt : PktId) : MediaFrame :=
  mediaFrameSetRelease { mediaFrameCreate with pBuffer := pkt } .releasePkt 1

def plainDeviceEnqueued
    (s : PlainState) (q : QueueId) (frame : MediaFrame)
    (x : Int × BoundedList MediaFrame) : PlainState × List PlainEvent :=
  ((s.setQueue q x.2).setDevice (.sizing .pVEQueue),
    [.enqueueReturned .device q frame x.1])

def plainDeviceStep
    (cfg : StreamerConfig) (s : PlainState) (answer : DeviceAnswer) :
    Option (PlainState × List PlainEvent) :=
  match s.device with
  | .loopHead =>
      some (s.setDevice (if s.stop then .exited else .reading), [])
  | .reading =>
      some ({ s.setDevice (.getting s.nextPkt answer.streamIndex) with
        nextPkt := s.nextPkt + 1 }, [])
  | .getting pkt streamIndex =>
      some (s.setDevice (.filling pkt streamIndex), [])
  | .filling pkt streamIndex =>
      some (s.setDevice (.routing streamIndex (rawFrame pkt)), [])
  | .routing streamIndex frame =>
      some (s.setDevice (plainRouteFrame cfg streamIndex frame), [])
  | .enqueueing q frame =>
      if (s.queue q).isFull then some (s.setDevice (.enqueueWaiting q frame), [])
      else some (plainDeviceEnqueued s q frame (0, (s.queue q).put frame))
  | .enqueueWaiting q frame =>
      some (plainDeviceEnqueued s q frame
        (plainEnqueueWake (s.queue q) frame answer.wait))
  | .releasing frame =>
      some ((s.release frame).setDevice (.sizing .pVEQueue), [.released .device frame])
  | .sizing q =>
      if cfg.hasQueue q ∧ (s.queue q).items.length > cleanLimit q then
        some (s.setDevice (.entering q), [])
      else
        some (s.setDevice (plainAfterSize q), [])
  | .entering q => some (s.setDevice (.cleaning q 0), [])
  | .cleaning q size =>
      match (s.queue q).items with
      | [] => some (s.setDevice (plainAfterSize q), [])
      | frame :: _ =>
          let flag := (plainCleanCallback q size frame).1
          let size' := (plainCleanCallback q size frame).2
          if flag &&& cleanFlagClean ≠ 0 then
            some ((s.setQueue q (s.queue q).rest).setDevice
              (.cleanReleasing q size' (flag &&& cleanFlagStop ≠ 0) frame), [])
          else
            some (s.setDevice
              (if flag &&& cleanFlagStop ≠ 0 then plainAfterSize q
                else .cleaning q size'), [])
  | .cleanReleasing q size stop frame =>
      some ((s.release frame).setDevice
        (if stop then plainAfterSize q else .cleaning q size),
        [.released .device frame])
  | .exited => none

end Device

section Encoder

def plainEncoderDequeued
    (s : PlainState) (e : EncoderId)
    (x : Option MediaFrame × BoundedList MediaFrame) : PlainState × List PlainEvent :=
  ((s.setQueue e.input x.2).setEncoder e
    (match x.1 with
      | some frame => .dealing frame
      | none => .runLoop), [])

/-- Whose the frame is when `enqueue` has returned. -/
def plainEnqueued (frame : MediaFrame) (ret : Int) : PlainEncoderPc :=
  if ret < 0 then .refused frame ret else .accepted

def plainEncoderEnqueued
    (s : PlainState) (e : EncoderId) (frame : MediaFrame)
    (x : Int × BoundedList MediaFrame) : PlainState × List PlainEvent :=
  ((s.setQueue e.output x.2).setEncoder e (plainEnqueued frame x.1),
    [.enqueueReturned (.encoder e) e.output frame x.1])

def plainEncoderDealt
    (s : PlainState) (e : EncoderId) (frame : MediaFrame) (encoded : Encoded) :
    PlainState :=
  match encoded with
  | .kept => s.setEncoder e (.inputReleasing frame none)
  | .nothing =>
      { s.setEncoder e (.inputReleasing frame none) with
        nextPkt := s.nextPkt + 1 }
  | .got out =>
      { s.setEncoder e (.inputReleasing frame (some (s.nextPkt, out))) with
        nextPkt := s.nextPkt + 1 }

def plainEncoderStep
    (s : PlainState) (e : EncoderId) (answer : EncoderAnswer) :
    Option (PlainState × List PlainEvent) :=
  match s.encoder e with
  | .notCreated => none
  | .runLoop =>
      if s.mStatus e = .stop then some (s.setEncoder e .exited, [])
      else if s.mStatus e = .pause then some (s, [])
      else some (s.setEncoder e .dequeueing, [])
  | .dequeueing =>
      if s.locked e.input then none
      else if (s.queue e.input).items = [] then
        some (s.setEncoder e .dequeueWaiting, [])
      else
        some (plainEncoderDequeued s e
          ((s.queue e.input).items.head?, (s.queue e.input).rest))
  | .dequeueWaiting =>
      if s.locked e.input then none
      else
        some (plainEncoderDequeued s e (plainDequeueWake (s.queue e.input) answer.wait))
  | .dealing frame => some (plainEncoderDealt s e frame answer.encoded, [])
  | .inputReleasing frame out =>
      some ((s.release frame).setEncoder e
        (match out with
          | some (pkt, out) => .getting pkt out
          | none => .runLoop),
        [.released (.encoder e) frame])
  | .getting pkt out => some (s.setEncoder e (.filling pkt out), [])
  | .filling pkt out =>
      some (s.setEncoder e
        (.enqueueing (encodedFrame e pkt out mediaFrameCreate)), [])
  | .enqueueing frame =>
      if s.locked e.output then none
      else if (s.queue e.output).isFull then
        some (s.setEncoder e (.enqueueWaiting frame), [])
      else
        some (plainEncoderEnqueued s e frame (0, (s.queue e.output).put frame))
  | .enqueueWaiting frame =>
      if s.locked e.output then none
      else
        some (plainEncoderEnqueued s e frame
          (plainEnqueueWake (s.queue e.output) frame answer.wait))
  | .refused frame ret =>
      if ret = -ETIMEDOUT ∧ s.mStatus e ≠ .stop then
        some (s.setEncoder e (.enqueueing frame), [])
      else
        some (s.setEncoder e (.releasing frame), [])
  | .accepted => some (s.setEncoder e .runLoop, [])
  | .releasing frame =>
      some ((s.release frame).setEncoder e .runLoop, [.released (.encoder e) frame])
  | .exited => none

end Encoder

section Mux

def plainMuxDequeued
    (s : PlainState) (stream : StreamType) (again : Bool)
    (x : Option MediaFrame × BoundedList MediaFrame) : PlainState × List PlainEvent :=
  ((s.setQueue stream.queue x.2).setMux (.dequeued stream again x.1), [])

def plainMuxPassEnd
    (s : PlainState) (stream : StreamType) (ret : Int) (ended : Bool) : PlainState :=
  { s with
    encode := Function.update s.encode stream (ret = 0)
    mux := if ended then .exited else .loopHead }

def plainMuxStep
    (lib : LibAv) (s : PlainState) (answer : MuxAnswer) :
    Option (PlainState × List PlainEvent) :=
  match s.mux with
  | .notCreated => none
  | .loopHead =>
      match selectStream lib s.pHandle s.encode with
      | none => some (s.setMux .exited, [])
      | some stream =>
          if s.pHandle.haveStream stream then
            some (s.setMux (.dequeueing stream false), [])
          else
            some (s.setMux (.callbackEnd stream), [])
  | .dequeueing stream again =>
      if s.locked stream.queue then none
      else if (s.queue stream.queue).items = [] then
        some (s.setMux (.dequeueWaiting stream again), [])
      else
        some (plainMuxDequeued s stream again
          ((s.queue stream.queue).items.head?, (s.queue stream.queue).rest))
  | .dequeueWaiting stream again =>
      if s.locked stream.queue then none
      else
        some (plainMuxDequeued s stream again
          (plainDequeueWake (s.queue stream.queue) answer.wait))
  | .dequeued stream again frame =>
      if again ∧ s.stop then
        match frame with
        | some frame => some (s.setMux (.callbackReleasing stream frame), [])
        | none => some (s.setMux (.callbackEnd stream), [])
      else
        match frame with
        | some frame => some (s.setMux (.writing stream frame), [])
        | none => some (s.setMux (.dequeueing stream true), [])
  | .callbackReleasing stream frame =>
      some ((s.release frame).setMux (.callbackEnd stream), [.released .mux frame])
  | .callbackEnd stream => some (plainMuxPassEnd s stream 1 answer.ended, [])
  | .writing stream frame =>
      let w := writeObtained lib s.pHandle stream 0 frame answer.written
      some ({ s with
        pHandle := w.pHandle
        mux := .releasing stream (writtenFrame s.pHandle stream frame) w.ret }, [])
  | .releasing stream frame ret =>
      some (plainMuxPassEnd (s.release frame) stream ret answer.ended,
        [.released .mux frame])
  | .exited => none

end Mux

/-- One step of the pipeline without a pool. -/
def plainStep (cfg : StreamerConfig) (lib : LibAv) :
    Machine PlainState PipelineAction PlainEvent :=
  fun s a =>
    match a with
    | .setStop => some ({ s with stop := true }, [])
    | .start e =>
        if s.mStatus e = .null then
          some ({ s.setEncoder e .runLoop with
            mStatus := Function.update s.mStatus e .runing }, [])
        else
          some (s, [])
    | .pause e =>
        if s.mStatus e = .runing then
          some ({ s with mStatus := Function.update s.mStatus e .pause }, [])
        else
          some (s, [])
    | .stop e =>
        if s.mStatus e = .pause ∨ s.mStatus e = .runing then
          some ({ s with mStatus := Function.update s.mStatus e .stop }, [])
        else
          some (s, [])
    | .startMux =>
        if s.mux = .notCreated then
          some ({ s.setMux .loopHead with encode := s.pHandle.haveStream }, [])
        else
          some (s, [])
    | .device answer => plainDeviceStep cfg s answer
    | .encoder e answer => plainEncoderStep s e answer
    | .mux answer => plainMuxStep lib s answer

end KoalaStreamer
