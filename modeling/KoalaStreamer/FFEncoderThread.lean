import KoalaStreamer.PipelineSteps

/-!
# MacRTMPStreamer.cpp: FFEncoderThread

`deal` hands a frame to `encoderVideo` or to `encoderAudio`.  The first encodes
every picture; the second gathers samples in `mPCMBuffer` and encodes when the
buffer is full.

Pointers into a packet are the bytes from there on, and bytes are of an
arbitrary type `β`.  What the encoder answers, and the frame that `getMediaFrame`
returns, come from outside.  Two things are undefined in the source: a copy that
goes past the end of `mPCMBuffer` (here the memory behind it is written and read
back), and a division by the number of bytes or of channels when that is 0 (here
there is no number of samples, and the call goes on).

The machine `dealStep` is a thread that deals one frame after the other, beside
whoever releases the frames it has handed out.

Main results:
* `deal_ret`: what `deal` returns is what the pipeline takes an encoder to
  return;
* `deal_released`: `deal` releases its input exactly once.
-/

namespace KoalaStreamer

open EventMachine

/-- `mEnc->type`. -/
inductive AVMediaType
  | video
  | audio
  | other
deriving DecidableEq, Repr

/-- The fields of `mCodecCtx` that are copied to a frame. -/
structure AVCodecContext where
  height : Int
  width : Int
  pixFmt : Int
  sampleFmt : Int
  sampleRate : Int
  channels : Int
  channelLayout : Int

/-- An `AVPacket` with raw data; its `size` is the length of `data`. -/
structure RawPacket (β : Type) where
  data : List β
  pts : Int

/-- The picture that `encoderVideo` gives to the encoder. -/
structure VideoFrame (β : Type) where
  data0 : List β
  data1 : List β
  linesize0 : Int
  linesize1 : Int
  linesize2 : Int
  height : Int
  width : Int
  format : Int
  pts : Int
  colorRange : Int

/-- The samples that `encoderAudio` gives to the encoder. -/
structure AudioFrame (β : Type) where
  /-- `none` after a division by 0. -/
  nbSamples : Option Int
  channelLayout : Int
  format : Int
  sampleRate : Int
  channels : Int
  /-- The `linesize[0]` bytes from `data[0]` on. -/
  data0 : List β
  linesize0 : Int
  pts : Int

/-- What the encoder answers, and the frame that is at hand for its packet. -/
structure EncodeAnswer where
  ret : Int
  got : Bool
  out : EncodedPkt
  frame : MediaFrame

/-- A frame as `ff_read_devices` hands it on. -/
abbrev RawFrame := { pFrame : MediaFrame // pFrame.release = .releasePkt }

theorem release_mediaFrameSetRelease
    (pFrame : MediaFrame) (func : FrameRelease) (arg : ℕ) :
    (mediaFrameSetRelease pFrame func arg).release = func := by
  rfl

/-- A new frame. -/
def newRawFrame : RawFrame :=
  ⟨mediaFrameSetRelease mediaFrameCreate .releasePkt 1,
    release_mediaFrameSetRelease _ _ _⟩

/-- The object; `id` says which of the two it is. -/
structure FFEncoderThread (β : Type) where
  id : EncoderId
  type : AVMediaType
  mCodecCtx : AVCodecContext
  mPCMBuffer : List β
  mPcmSize : ℕ

inductive DealEvent (β : Type)
  /-- `memcpy` to `mPCMBuffer + offset`. -/
  | copied (offset size : ℕ)
  | packetAlloc (pkt : PktId)
  | encodeVideo (frame : VideoFrame β)
  | encodeAudio (frame : AudioFrame β)
  /-- `mediaFrameRelease` of the input. -/
  | released (pFrame : MediaFrame)
  /-- `av_packet_free` in `release_pkt_buffer`. -/
  | packetFree (pkt : PktId)

/-- How a call of `deal` ends. -/
structure DealExit (β : Type) where
  /-- What `deal` returns, `none` for NULL. -/
  ret : Option MediaFrame
  thread : FFEncoderThread β
  /-- The packet that `av_packet_alloc` returns next. -/
  nextPkt : PktId
  events : List (DealEvent β)

section Deal

variable {β : Type}

/-- The size of `mPCMBuffer`. -/
def pcmCapacity : ℕ := 1024 * 8

/-- What `malloc(1024 * 8)` returns: memory with any content. -/
abbrev PcmMemory (β : Type) := { memory : List β // memory.length = pcmCapacity }

/-- `initThread` for raw audio. -/
def initAudioThread
    (id : EncoderId) (mCodecCtx : AVCodecContext) (memory : PcmMemory β) :
    FFEncoderThread β where
  id := id
  type := .audio
  mCodecCtx := mCodecCtx
  mPCMBuffer := memory.val
  mPcmSize := 0

/-- `memcpy(dst + offset, src, size)`. -/
def memcpy (dst : List β) (offset : ℕ) (src : List β) : List β :=
  dst.take offset ++ src ++ dst.drop (offset + src.length)

/-- `AVCOL_RANGE_JPEG`. -/
def avcolRangeJpeg : Int := 2

def videoFrame (t : FFEncoderThread β) (pkt : RawPacket β) : VideoFrame β where
  data0 := pkt.data.drop 64
  data1 := pkt.data.drop (64 + (t.mCodecCtx.height * t.mCodecCtx.width).toNat)
  linesize0 := t.mCodecCtx.width
  linesize1 := t.mCodecCtx.width
  linesize2 := 0
  height := t.mCodecCtx.height
  width := t.mCodecCtx.width
  format := t.mCodecCtx.pixFmt
  pts := pkt.pts
  colorRange := avcolRangeJpeg

/-- `mPcmSize / av_get_bytes_per_sample(sample_fmt) / channels`. -/
def nbSamples (mPcmSize bytesPerSample channels : Int) : Option Int :=
  if bytesPerSample = 0 ∨ channels = 0 then none
  else some ((mPcmSize.tdiv bytesPerSample).tdiv channels)

/-- `bytesPerSample` is `av_get_bytes_per_sample`. -/
def audioFrame
    (bytesPerSample : Int → Int) (mCodecCtx : AVCodecContext) (pcm : List β)
    (pts : Int) : AudioFrame β where
  nbSamples :=
    nbSamples pcm.length (bytesPerSample mCodecCtx.sampleFmt) mCodecCtx.channels
  channelLayout := mCodecCtx.channelLayout
  format := mCodecCtx.sampleFmt
  sampleRate := mCodecCtx.sampleRate
  channels := mCodecCtx.channels
  data0 := pcm
  linesize0 := pcm.length
  pts := pts

/-- What follows an encode call: `if (got)`. -/
def handOut
    (id : EncoderId) (pkt : PktId) (answer : EncodeAnswer) : Option MediaFrame :=
  if answer.got then some (encodedFrame id pkt answer.out answer.frame) else none

def encoderVideo
    (t : FFEncoderThread β) (nextPkt : PktId) (pFrame : MediaFrame)
    (pkt : RawPacket β) (answer : EncodeAnswer) : DealExit β where
  ret := handOut t.id nextPkt answer
  thread := t
  nextPkt := nextPkt + 1
  events :=
    [.packetAlloc nextPkt, .encodeVideo (videoFrame t pkt), .released pFrame]

/-- `encoderAudio` after its first two statements. -/
def FFEncoderThread.append
    (t : FFEncoderThread β) (pkt : RawPacket β) : FFEncoderThread β :=
  { t with
    mPCMBuffer := memcpy t.mPCMBuffer t.mPcmSize pkt.data
    mPcmSize := t.mPcmSize + pkt.data.length }

/-- The first `mPcmSize` bytes of `mPCMBuffer`. -/
def FFEncoderThread.pcm (t : FFEncoderThread β) : List β :=
  t.mPCMBuffer.take t.mPcmSize

def encoderAudio
    (bytesPerSample : Int → Int) (t : FFEncoderThread β) (nextPkt : PktId)
    (pFrame : MediaFrame) (pkt : RawPacket β) (answer : EncodeAnswer) :
    DealExit β :=
  if (t.append pkt).mPcmSize < pcmCapacity then
    { ret := none
      thread := t.append pkt
      nextPkt := nextPkt
      events := [.copied t.mPcmSize pkt.data.length, .released pFrame] }
  else
    { ret := handOut t.id nextPkt answer
      thread := { t.append pkt with mPcmSize := 0 }
      nextPkt := nextPkt + 1
      events :=
        [.copied t.mPcmSize pkt.data.length,
          .packetAlloc nextPkt,
          .encodeAudio
            (audioFrame bytesPerSample t.mCodecCtx (t.append pkt).pcm pkt.pts),
          .released pFrame] }

/-- `FFEncoderThread::deal`; `pkt` is what the `pBuffer` of the frame points to. -/
def deal
    (bytesPerSample : Int → Int) (t : FFEncoderThread β) (nextPkt : PktId)
    (pFrame : MediaFrame) (pkt : RawPacket β) (answer : EncodeAnswer) :
    DealExit β :=
  match t.type with
  | .video => encoderVideo t nextPkt pFrame pkt answer
  | .audio => encoderAudio bytesPerSample t nextPkt pFrame pkt answer
  | .other =>
      { ret := none
        thread := t
        nextPkt := nextPkt
        events := [.released pFrame] }

/-! ## A thread that deals -/

structure DealState (β : Type) where
  thread : FFEncoderThread β
  nextPkt : PktId
  /-- Frames handed out and not released. -/
  returned : List MediaFrame
  /-- Packets given to `av_packet_free`. -/
  freedPkts : List PktId

inductive DealAction (β : Type)
  | deal (pFrame : RawFrame) (pkt : RawPacket β) (answer : EncodeAnswer)
  /-- A frame that was handed out is released. -/
  | release (pFrame : MediaFrame)

abbrev DealTransition (β : Type) :=
  Transition (DealState β) (DealAction β) (DealEvent β)

def DealState.init (thread : FFEncoderThread β) : DealState β where
  thread := thread
  nextPkt := 0
  returned := []
  freedPkts := []

/-- The packets of the encoder that `mediaFrameRelease` frees; a frame that was
read frees its own packet. -/
def releasedPackets (pFrame : MediaFrame) : List PktId :=
  match pFrame.release with
  | .releasePktBuffer => [pFrame.releaseArg]
  | _ => []

/-- One call of `deal`, or one release. -/
def dealStep (bytesPerSample : Int → Int) :
    Machine (DealState β) (DealAction β) (DealEvent β)
  | s, .deal pFrame pkt answer =>
      let e := deal bytesPerSample s.thread s.nextPkt pFrame pkt answer
      some ({ s with
        thread := e.thread
        nextPkt := e.nextPkt
        returned := s.returned ++ e.ret.toList }, e.events)
  | s, .release pFrame =>
      if pFrame ∈ s.returned then
        some ({ s with
          returned := s.returned.erase pFrame
          freedPkts := releasedPackets pFrame ++ s.freedPkts },
          (releasedPackets pFrame).map .packetFree)
      else
        none

/-! ## What a call returns -/

/-- Whether `deal` calls the encoder. -/
def FFEncoderThread.Encodes (t : FFEncoderThread β) (pkt : RawPacket β) : Prop :=
  t.type = .video ∨
    (t.type = .audio ∧ pcmCapacity ≤ t.mPcmSize + pkt.data.length)

instance (t : FFEncoderThread β) (pkt : RawPacket β) : Decidable (t.Encodes pkt) :=
  inferInstanceAs (Decidable (_ ∨ _))

/-- What `deal` makes of its input, in the words of the pipeline. -/
def dealEncoded
    (t : FFEncoderThread β) (pkt : RawPacket β) (answer : EncodeAnswer) : Encoded :=
  if t.Encodes pkt then
    if answer.got then .got answer.out else .nothing
  else
    .kept

variable (bytesPerSample : Int → Int) (t : FFEncoderThread β) (nextPkt : PktId)
  (pFrame : MediaFrame) (pkt : RawPacket β) (answer : EncodeAnswer)

/-- A packet is allocated exactly if the encoder is called, and a frame is
returned exactly if the encoder has given something out. -/
theorem deal_ret :
    (deal bytesPerSample t nextPkt pFrame pkt answer).ret =
      (if t.Encodes pkt then handOut t.id nextPkt answer else none) ∧
    (deal bytesPerSample t nextPkt pFrame pkt answer).nextPkt =
      (if t.Encodes pkt then nextPkt + 1 else nextPkt) := by
  cases htype : t.type with
  | video =>
      simp [deal, htype, encoderVideo, FFEncoderThread.Encodes]
  | audio =>
      by_cases hfull : pcmCapacity ≤ t.mPcmSize + pkt.data.length
      · have hnot : ¬ (t.append pkt).mPcmSize < pcmCapacity := by
          simpa [FFEncoderThread.append] using hfull
        simp [deal, htype, encoderAudio, FFEncoderThread.Encodes, hfull, hnot]
      · have hlt : (t.append pkt).mPcmSize < pcmCapacity := by
          simpa [FFEncoderThread.append] using hfull
        simp [deal, htype, encoderAudio, FFEncoderThread.Encodes, hfull, hlt]
  | other =>
      simp [deal, htype, FFEncoderThread.Encodes]

/-- The encoder thread of the pipeline goes on as after this call: it has
allocated the same packets, and has the same packet to hand out. -/
theorem deal_encoderDealt
    {s : PipelineState} (hnext : s.nextPkt = nextPkt) (f : FrameId) :
    (encoderDealt s t.id f (dealEncoded t pkt answer)).nextPkt =
      (deal bytesPerSample t nextPkt pFrame pkt answer).nextPkt ∧
    ∃ out,
      (encoderDealt s t.id f (dealEncoded t pkt answer)).encoder t.id =
        .inputReleasing f out ∧
      (deal bytesPerSample t nextPkt pFrame pkt answer).ret =
        out.map fun o => encodedFrame t.id o.1 o.2 answer.frame := by
  obtain ⟨hret, hpkt⟩ := deal_ret bytesPerSample t nextPkt pFrame pkt answer
  rw [hret, hpkt, dealEncoded]
  by_cases hencodes : t.Encodes pkt
  · cases hgot : answer.got with
    | true =>
        refine ⟨by simp [hencodes, encoderDealt, hnext],
          some (nextPkt, answer.out), ?_, ?_⟩
        · simp [hencodes, encoderDealt, PipelineState.setEncoder, hnext]
        · simp [hencodes, handOut, hgot]
    | false =>
        refine ⟨by simp [hencodes, encoderDealt, hnext], none, ?_, ?_⟩
        · simp [hencodes, encoderDealt, PipelineState.setEncoder]
        · simp [hencodes, handOut, hgot]
  · refine ⟨by simp [hencodes, encoderDealt, hnext, PipelineState.setEncoder],
      none, ?_, ?_⟩
    · simp [hencodes, encoderDealt, PipelineState.setEncoder]
    · simp [hencodes]

/-- The frames given to `mediaFrameRelease` by `deal`, in order. -/
def releasedInputs (es : List (DealEvent β)) : List MediaFrame :=
  es.filterMap fun
    | .released pFrame => some pFrame
    | _ => none

@[simp] theorem releasedInputs_append
    (es es' : List (DealEvent β)) :
    releasedInputs (es ++ es') = releasedInputs es ++ releasedInputs es' := by
  simp [releasedInputs]

/-- Every call releases its input exactly once, and nothing else. -/
theorem deal_released :
    releasedInputs (deal bytesPerSample t nextPkt pFrame pkt answer).events =
      [pFrame] := by
  cases htype : t.type with
  | video =>
      simp [deal, htype, encoderVideo, releasedInputs]
  | audio =>
      simp only [deal, htype, encoderAudio]
      split <;> simp [releasedInputs]
  | other =>
      simp [deal, htype, releasedInputs]

end Deal

end KoalaStreamer
