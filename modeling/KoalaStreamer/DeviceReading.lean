import KoalaStreamer.FFEncoderThread
import KoalaStreamer.FrameOwnership
import KoalaStreamer.QueuesAhead

/-!
# MacRTMPStreamer.cpp: open_input and the packets that are read

`open_input` notes which stream is the video and which the audio.
`ff_read_devices` compares the stream of each packet with these two, whether
`av_read_frame` has succeeded or not: after a failed call the packet is blank, and
a blank packet looks like one of stream 0.

A packet is followed through the pipeline by the frame that holds it in `pBuffer`:
what the device thread has read, what it has done with each packet, and which
packets an encoder thread deals with.

Main results:
* `pipelineStep_heap`: a step writes to no frame but one that it creates or that
  its thread has in the hand;
* `pipelineStep_packet`: what a step does with the packet in hand of the device
  thread.
-/

namespace KoalaStreamer

open EventMachine TokenAccounting

/-! ## open_input and av_read_frame -/

/-- The loop of `open_input` over the streams, from the stream `i` on. -/
def openStreams : StreamerConfig → ℕ → List AVMediaType → StreamerConfig
  | cfg, _, [] => cfg
  | cfg, i, .video :: types =>
      openStreams { cfg with videoIndex := i } (i + 1) types
  | cfg, i, .audio :: types =>
      openStreams { cfg with audioIndex := i } (i + 1) types
  | cfg, i, .other :: types => openStreams cfg (i + 1) types

/-- `open_input`, for the `codec_type` of each stream. -/
def openInput (codecTypes : List AVMediaType) : StreamerConfig :=
  openStreams ⟨-1, -1⟩ 0 codecTypes

/-- What `av_read_frame` did with its packet. -/
inductive ReadResult
  | read (streamIndex : ℕ)
  | failed
deriving DecidableEq, Repr

/-- `pkt->stream_index` after the call: a failed call leaves the packet blank. -/
def ReadResult.streamIndex : ReadResult → Int
  | .read streamIndex => streamIndex
  | .failed => 0

/-- A packet of the stream was read. -/
def ReadResult.isOf (streamIndex : Int) : ReadResult → Bool
  | .read i => (i : Int) = streamIndex
  | .failed => false

/-- The stream whose packets go through the queue. -/
def StreamerConfig.streamOf (cfg : StreamerConfig) : QueueId → Int
  | .pYUVQueue => cfg.videoIndex
  | .pVEQueue => cfg.videoIndex
  | .pPCMQueue => cfg.audioIndex
  | .pAEQueue => cfg.audioIndex

/-- What the loop of `open_input` keeps: the two streams are different. -/
structure StreamsOpened (cfg : StreamerConfig) (i : ℕ) : Prop where
  video_lt : cfg.videoIndex < i
  audio_lt : cfg.audioIndex < i
  distinct : cfg.videoIndex = cfg.audioIndex → cfg.videoIndex < 0

theorem openStreams_opened
    {cfg : StreamerConfig} {i : ℕ}
    (h : StreamsOpened cfg i) (codecTypes : List AVMediaType) :
    StreamsOpened (openStreams cfg i codecTypes) (i + codecTypes.length) := by
  induction codecTypes generalizing cfg i with
  | nil =>
      exact h
  | cons type types ih =>
      obtain ⟨hvideo, haudio, hdistinct⟩ := h
      have hlength : i + (type :: types).length = i + 1 + types.length := by
        rw [List.length_cons]
        omega
      rw [hlength]
      cases type with
      | video =>
          exact ih ⟨by simp, by push_cast; omega, fun heq => by simp at heq; omega⟩
      | audio =>
          exact ih ⟨by push_cast; omega, by simp, fun heq => by simp at heq; omega⟩
      | other =>
          exact ih ⟨by push_cast; omega, by push_cast; omega, hdistinct⟩

/-- `open_input` never takes one stream for both. -/
theorem openInput_distinct
    (codecTypes : List AVMediaType)
    (heq : (openInput codecTypes).videoIndex = (openInput codecTypes).audioIndex) :
    (openInput codecTypes).videoIndex < 0 := by
  have hstart : StreamsOpened ⟨-1, -1⟩ 0 :=
    ⟨by decide, by decide, fun _ => by decide⟩
  exact (openStreams_opened hstart codecTypes).distinct heq

/-! ## Where the frames are written -/

section Heap

variable {cfg : StreamerConfig} {lib : LibAv} {s s' : PipelineState}
  {es : List PipelineEvent} {a : PipelineAction}

/-- The thread that takes the step. -/
def PipelineAction.thread : PipelineAction → Option PipelineThread
  | .device _ => some .device
  | .encoder e _ => some (.encoder e)
  | .mux _ => some .mux
  | _ => none

theorem mediaFrameRelease_heap
    (s : PipelineState) (pFrame : FrameId) :
    (s.mediaFrameRelease pFrame).heap = s.heap := by
  obtain ⟨_, _, _, h⟩ := mediaFrameRelease_eq s pFrame
  rw [h]

/-- `getMediaFrame` clears a frame only if it creates it. -/
theorem getMediaFrame_heap
    (s : PipelineState) {f : FrameId} (hf : f ≠ s.nextFrame) :
    s.getMediaFrame.2.heap f = s.heap f := by
  simp only [PipelineState.getMediaFrame]
  split
  · rfl
  · exact Function.update_of_ne hf _ _

theorem deviceStep_heap
    {answer : DeviceAnswer}
    (h : deviceStep cfg s answer = some (s', es)) (f : FrameId) :
    s'.heap f = s.heap f ∨ f = s.nextFrame ∨
      ∃ pkt streamIndex, s.device = .filling pkt streamIndex f := by
  by_cases hfresh : f = s.nextFrame
  · exact Or.inr (Or.inl hfresh)
  cases deviceStep_case h with
  | getsFrame pkt streamIndex hpc =>
      exact Or.inl (getMediaFrame_heap s hfresh)
  | fills pkt streamIndex pFrame hpc =>
      by_cases hf : f = pFrame
      · exact Or.inr (Or.inr ⟨pkt, streamIndex, by rw [hf, hpc]⟩)
      · exact Or.inl (Function.update_of_ne hf _ _)
  | releases pFrame hpc =>
      exact Or.inl (congrFun (mediaFrameRelease_heap s pFrame) f)
  | cleanReleases q size stop pFrame hpc =>
      exact Or.inl (congrFun (mediaFrameRelease_heap s pFrame) f)
  | _ =>
      exact Or.inl rfl

theorem encoderStep_heap
    {e : EncoderId} {answer : EncoderAnswer}
    (h : encoderStep s e answer = some (s', es)) (f : FrameId) :
    s'.heap f = s.heap f ∨ f = s.nextFrame ∨ f ∈ s.hand (.encoder e) := by
  by_cases hfresh : f = s.nextFrame
  · exact Or.inr (Or.inl hfresh)
  cases encoderStep_case h with
  | releasesEncoded pFrame pkt out hpc =>
      exact Or.inl (congrFun (mediaFrameRelease_heap s pFrame) f)
  | releasesInput pFrame hpc =>
      exact Or.inl (congrFun (mediaFrameRelease_heap s pFrame) f)
  | releases pFrame hpc =>
      exact Or.inl (congrFun (mediaFrameRelease_heap s pFrame) f)
  | getsFrame pkt out hpc =>
      exact Or.inl (getMediaFrame_heap s hfresh)
  | fills pkt out pFrame hpc =>
      by_cases hf : f = pFrame
      · refine Or.inr (Or.inr ?_)
        rw [hand_encoder hpc, hf]
        exact List.mem_singleton_self _
      · exact Or.inl (Function.update_of_ne hf _ _)
  | deals pFrame hpc =>
      cases answer.encoded <;> exact Or.inl rfl
  | _ =>
      exact Or.inl rfl

theorem muxThreadStep_heap
    {answer : MuxAnswer}
    (h : muxThreadStep lib s answer = some (s', es)) (f : FrameId) :
    s'.heap f = s.heap f ∨ f ∈ s.hand .mux := by
  cases muxThreadStep_case h with
  | callbackReleases stream pFrame hpc =>
      exact Or.inl (congrFun (mediaFrameRelease_heap s pFrame) f)
  | releases stream pFrame ret hpc =>
      exact Or.inl (congrFun (mediaFrameRelease_heap s pFrame) f)
  | writes stream pFrame hpc =>
      by_cases hf : f = pFrame
      · refine Or.inr ?_
        rw [hand_mux hpc, hf]
        exact List.mem_singleton_self _
      · exact Or.inl (Function.update_of_ne hf _ _)
  | _ =>
      exact Or.inl rfl

/-- A step writes to a frame that it creates, or that its thread has in the hand. -/
theorem pipelineStep_heap
    (h : pipelineStep cfg lib s a = some (s', es)) (f : FrameId) :
    s'.heap f = s.heap f ∨ f = s.nextFrame ∨
      ∃ t, a.thread = some t ∧ f ∈ s.hand t := by
  cases a with
  | device answer =>
      rcases deviceStep_heap h f with hsame | hfresh | ⟨pkt, streamIndex, hpc⟩
      · exact Or.inl hsame
      · exact Or.inr (Or.inl hfresh)
      · refine Or.inr (Or.inr ⟨.device, rfl, ?_⟩)
        rw [hand_device hpc]
        exact List.mem_singleton_self _
  | encoder e answer =>
      rcases encoderStep_heap h f with hsame | hfresh | hhand
      · exact Or.inl hsame
      · exact Or.inr (Or.inl hfresh)
      · exact Or.inr (Or.inr ⟨.encoder e, rfl, hhand⟩)
  | mux answer =>
      rcases muxThreadStep_heap h f with hsame | hhand
      · exact Or.inl hsame
      · exact Or.inr (Or.inr ⟨.mux, rfl, hhand⟩)
  | setStop =>
      obtain ⟨rfl, -⟩ := Prod.mk.inj (Option.some.inj h)
      exact Or.inl rfl
  | _ =>
      simp only [pipelineStep] at h
      split at h <;> obtain ⟨rfl, -⟩ := Prod.mk.inj (Option.some.inj h) <;>
        exact Or.inl rfl

/-- A frame that another place holds is not written to. -/
theorem pipelineStep_heap_of_place
    (honce : AtMostOnce s.custody s.nextFrame)
    (h : pipelineStep cfg lib s a = some (s', es))
    {p : Place} {f : FrameId} (hf : f ∈ s.custody p)
    (hp : ∀ t, a.thread = some t → p ≠ .hand t) :
    s'.heap f = s.heap f := by
  rcases pipelineStep_heap h f with hsame | hfresh | ⟨t, ht, hhand⟩
  · exact hsame
  · have hpos : 0 < held s.custody f := held_pos_iff.mpr ⟨p, hf⟩
    have hle := honce f
    rw [hfresh, if_neg (Nat.lt_irrefl _)] at hle
    rw [hfresh] at hpos
    omega
  · have hhand' : f ∈ s.custody (.hand t) := hhand
    exact absurd (place_unique (honce.le_one f) hf hhand') (hp t ht)

end Heap

/-! ## What is done with the packets -/

section Logs

/-- What `ff_read_devices` has done with a packet. -/
inductive Handling
  /-- `enqueue` was called, and has stored the frame or not. -/
  | enqueued (q : QueueId) (stored : Bool)
  | released
deriving DecidableEq, Repr

/-- The queue that was chosen for the packet. -/
def Handling.target : Handling → List QueueId
  | .enqueued q _ => [q]
  | .released => []

/-- The packet that the step reads into. -/
def readBy (τ : PipelineTransition) : List PktId :=
  match τ.action, τ.src.device with
  | .device _, .reading => [τ.src.nextPkt]
  | _, _ => []

/-- `pkt->stream_index` after `av_read_frame`. -/
def indexSeen (τ : PipelineTransition) : List Int :=
  match τ.action, τ.src.device with
  | .device answer, .reading => [answer.streamIndex]
  | _, _ => []

/-- The packet that the device thread is done with in the step. -/
def handledBy (τ : PipelineTransition) : List (PktId × Handling) :=
  τ.events.filterMap fun
    | .enqueueReturned .device q pFrame _ =>
        some ((τ.src.heap pFrame).pBuffer,
          .enqueued q (decide ((τ.dst.queue q).contents =
            (τ.src.queue q).contents ++ [pFrame])))
    | .released .device pFrame =>
        if τ.src.device = .releasing pFrame then
          some ((τ.src.heap pFrame).pBuffer, .released)
        else none
    | _ => none

/-- The packet that the thread of `e` begins to deal with in the step. -/
def dealtBy (e : EncoderId) (τ : PipelineTransition) : List PktId :=
  match τ.action with
  | .encoder e' _ =>
      if e' = e then
        match τ.dst.encoder e with
        | .dealing pFrame => [(τ.dst.heap pFrame).pBuffer]
        | _ => []
      else []
  | _ => []

variable (tr : List PipelineTransition)

/-- The packets given to `av_read_frame`, in order. -/
def packetsRead : List PktId :=
  tr.flatMap readBy

def packetsHandled : List (PktId × Handling) :=
  tr.flatMap handledBy

/-- The packets with whose frames `enqueue` of the queue was called. -/
def packetsOffered (q : QueueId) : List PktId :=
  ((packetsHandled tr).filter fun x => x.2.target = [q]).map Prod.fst

/-- The packets whose frames the queue has taken. -/
def packetsStored (q : QueueId) : List PktId :=
  ((packetsHandled tr).filter fun x => x.2 = .enqueued q true).map Prod.fst

/-- The packets that `ff_read_devices` has released at once. -/
def packetsReleased : List PktId :=
  ((packetsHandled tr).filter fun x => x.2 = .released).map Prod.fst

/-- The packets that the thread of `e` has dealt with. -/
def packetsDealt (e : EncoderId) : List PktId :=
  tr.flatMap (dealtBy e)

/-- What `av_read_frame` did in the run is `reads`. -/
def ReadsAre (reads : PktId → ReadResult) : Prop :=
  ∀ τ ∈ tr, indexSeen τ = (readBy τ).map fun pkt => (reads pkt).streamIndex

end Logs

/-! ## The packet in hand -/

section Packet

variable {cfg : StreamerConfig} {lib : LibAv} {s s' : PipelineState}
  {es : List PipelineEvent} {a : PipelineAction} {reads : PktId → ReadResult}

/-- The packet that the device thread has read and is not done with. -/
def DevicePc.packet (heap : FrameId → MediaFrame) : DevicePc → List PktId
  | .getting pkt _ => [pkt]
  | .filling pkt _ _ => [pkt]
  | .routing _ pFrame => [(heap pFrame).pBuffer]
  | .enqueueing _ pFrame => [(heap pFrame).pBuffer]
  | .enqueueWaiting _ pFrame => [(heap pFrame).pBuffer]
  | .releasing pFrame => [(heap pFrame).pBuffer]
  | _ => []

def PipelineState.packetInHand (s : PipelineState) : List PktId :=
  s.device.packet s.heap

/-- The device thread goes by the answer of `av_read_frame` for its packet, and
cleans queues of encoded frames only. -/
def DevicePc.GoesBy
    (cfg : StreamerConfig) (reads : PktId → ReadResult)
    (heap : FrameId → MediaFrame) : DevicePc → Prop
  | .getting pkt streamIndex => streamIndex = (reads pkt).streamIndex
  | .filling pkt streamIndex _ => streamIndex = (reads pkt).streamIndex
  | .routing streamIndex pFrame =>
      streamIndex = (reads (heap pFrame).pBuffer).streamIndex
  | .enqueueing q pFrame =>
      routeQueue cfg (reads (heap pFrame).pBuffer).streamIndex = [q]
  | .enqueueWaiting q pFrame =>
      routeQueue cfg (reads (heap pFrame).pBuffer).streamIndex = [q]
  | .releasing pFrame =>
      routeQueue cfg (reads (heap pFrame).pBuffer).streamIndex = []
  | .sizing q => q = .pVEQueue ∨ q = .pAEQueue
  | .entering q => q = .pVEQueue ∨ q = .pAEQueue
  | .cleaning q _ => q = .pVEQueue ∨ q = .pAEQueue
  | .cleanReleasing q _ _ _ => q = .pVEQueue ∨ q = .pAEQueue
  | _ => True

/-- What a step does with the packet in hand: the packets it reads into, and
those it is done with. -/
inductive PacketStep
    (cfg : StreamerConfig) (reads : PktId → ReadResult) (s s' : PipelineState) :
    List PktId → List (PktId × Handling) → Prop
  | keeps (hsame : s'.packetInHand = s.packetInHand) :
      PacketStep cfg reads s s' [] []
  | reads (hbefore : s.packetInHand = [])
      (hafter : s'.packetInHand = [s.nextPkt])
      (hnext : s.nextPkt < s'.nextPkt) :
      PacketStep cfg reads s s' [s.nextPkt] []
  | handles (pkt : PktId) (handling : Handling)
      (hbefore : s.packetInHand = [pkt])
      (hafter : s'.packetInHand = [])
      (htarget :
        handling.target = routeQueue cfg (reads pkt).streamIndex) :
      PacketStep cfg reads s s' [] [(pkt, handling)]

theorem afterSize_goesBy
    (q : QueueId) : (afterSize q).GoesBy cfg reads s.heap := by
  cases q <;> first | exact Or.inr rfl | exact trivial

theorem afterSize_packet
    (q : QueueId) : (afterSize q).packet s.heap = [] := by
  cases q <;> rfl

/-- After a pass of the cleaning the thread has no packet and stays with the queue. -/
theorem afterPass_goesBy
    {q : QueueId} (stop : Bool) (size : Int) (heap : FrameId → MediaFrame)
    (hgoes : q = .pVEQueue ∨ q = .pAEQueue) :
    (if stop then afterSize q else .cleaning q size : DevicePc).packet heap = [] ∧
    (if stop then afterSize q else .cleaning q size : DevicePc).GoesBy cfg reads heap := by
  cases stop with
  | true => cases q <;> first | exact ⟨rfl, Or.inr rfl⟩ | exact ⟨rfl, trivial⟩
  | false => exact ⟨rfl, hgoes⟩

theorem routeFrame_goesBy
    (cfg : StreamerConfig) (pFrame : FrameId) {streamIndex : Int}
    (h : streamIndex = (reads (s.heap pFrame).pBuffer).streamIndex) :
    (routeFrame cfg streamIndex pFrame).GoesBy cfg reads s.heap ∧
    (routeFrame cfg streamIndex pFrame).packet s.heap =
      [(s.heap pFrame).pBuffer] := by
  simp only [routeFrame]
  split
  · rename_i hvideo
    refine ⟨?_, rfl⟩
    rw [DevicePc.GoesBy, ← h, routeQueue, if_pos hvideo]
  · rename_i hvideo
    split
    · rename_i haudio
      refine ⟨?_, rfl⟩
      rw [DevicePc.GoesBy, ← h, routeQueue, if_neg hvideo, if_pos haudio]
    · rename_i haudio
      refine ⟨?_, rfl⟩
      rw [DevicePc.GoesBy, ← h, routeQueue, if_neg hvideo, if_neg haudio]

/-- `enqueue` has returned: the device thread is done with its packet. -/
theorem packetStep_enqueued
    {q : QueueId} {pFrame : FrameId} {answer : DeviceAnswer}
    (hpacket : s.packetInHand = [(s.heap pFrame).pBuffer])
    (hroute : routeQueue cfg (reads (s.heap pFrame).pBuffer).streamIndex = [q])
    (e : EnqueueExit FrameId) :
    PacketStep cfg reads s (deviceEnqueued s q pFrame e).1 []
      (handledBy ⟨s, .device answer, (deviceEnqueued s q pFrame e).2,
        (deviceEnqueued s q pFrame e).1⟩) :=
  .handles _ (.enqueued q _) hpacket rfl hroute.symm

theorem packetInHand_device
    {pc : DevicePc} (hpc : s.device = pc) :
    s.packetInHand = pc.packet s.heap :=
  congrArg (DevicePc.packet s.heap) hpc

/-- What a step of the device thread does with its packet. -/
theorem deviceStep_packet
    {answer : DeviceAnswer}
    (hgoes : s.device.GoesBy cfg reads s.heap)
    (hread : s.device = .reading →
      answer.streamIndex = (reads s.nextPkt).streamIndex)
    (h : deviceStep cfg s answer = some (s', es)) :
    PacketStep cfg reads s s' (readBy ⟨s, .device answer, es, s'⟩)
      (handledBy ⟨s, .device answer, es, s'⟩) ∧
    s'.device.GoesBy cfg reads s'.heap := by
  cases deviceStep_case h with
  | loopHead hpc =>
      simp only [readBy, hpc]
      refine ⟨.keeps (Eq.trans ?_ (packetInHand_device hpc).symm), ?_⟩
      · simp only [PipelineState.packetInHand, PipelineState.setDevice]
        split <;> rfl
      · simp only [PipelineState.setDevice]
        split <;> exact trivial
  | reads hpc =>
      simp only [readBy, hpc]
      exact ⟨.reads (packetInHand_device hpc) rfl (Nat.lt_succ_self _), hread hpc⟩
  | getsFrame pkt streamIndex hpc =>
      rw [hpc] at hgoes
      simp only [readBy, hpc]
      exact ⟨.keeps (packetInHand_device hpc).symm, hgoes⟩
  | fills pkt streamIndex pFrame hpc =>
      rw [hpc] at hgoes
      simp only [readBy, hpc]
      have hbuffer : ((s.setFrame pFrame (mediaFrameSetRelease
          { s.heap pFrame with pBuffer := pkt } .releasePkt 1)).heap pFrame).pBuffer =
          pkt := by
        simp [PipelineState.setFrame, mediaFrameSetRelease]
      refine ⟨.keeps (Eq.trans ?_ (packetInHand_device hpc).symm), ?_⟩
      · simp only [PipelineState.packetInHand, PipelineState.setDevice,
          DevicePc.packet, hbuffer]
      · simp only [PipelineState.setDevice, DevicePc.GoesBy, hbuffer]
        exact hgoes
  | routes streamIndex pFrame hpc =>
      rw [hpc] at hgoes
      simp only [readBy, hpc]
      obtain ⟨hroute, hpacket⟩ := routeFrame_goesBy cfg pFrame hgoes
      exact ⟨.keeps (hpacket.trans (packetInHand_device hpc).symm), hroute⟩
  | waits q pFrame hpc hfull =>
      rw [hpc] at hgoes
      simp only [readBy, hpc]
      exact ⟨.keeps (packetInHand_device hpc).symm, hgoes⟩
  | puts q pFrame hpc hroom =>
      rw [hpc] at hgoes
      simp only [readBy, hpc]
      exact ⟨packetStep_enqueued (packetInHand_device hpc) hgoes _, Or.inl rfl⟩
  | wakes q pFrame hpc =>
      rw [hpc] at hgoes
      simp only [readBy, hpc]
      exact ⟨packetStep_enqueued (packetInHand_device hpc) hgoes _, Or.inl rfl⟩
  | releases pFrame hpc =>
      rw [hpc] at hgoes
      have hhandled : handledBy ⟨s, .device answer, [.released .device pFrame],
          (s.mediaFrameRelease pFrame).setDevice (.sizing .pVEQueue)⟩ =
          [((s.heap pFrame).pBuffer, .released)] := by
        simp [handledBy, hpc]
      simp only [readBy, hpc, hhandled]
      exact ⟨.handles _ .released (packetInHand_device hpc) rfl hgoes.symm,
        Or.inl rfl⟩
  | selects q hpc hlong =>
      rw [hpc] at hgoes
      simp only [readBy, hpc]
      exact ⟨.keeps (packetInHand_device hpc).symm, hgoes⟩
  | skips q hpc hshort =>
      simp only [readBy, hpc]
      exact ⟨.keeps ((afterSize_packet q).trans (packetInHand_device hpc).symm),
        afterSize_goesBy q⟩
  | enters q hpc =>
      rw [hpc] at hgoes
      simp only [readBy, hpc]
      exact ⟨.keeps (packetInHand_device hpc).symm, hgoes⟩
  | cleanEnds q size hpc hpass =>
      simp only [readBy, hpc]
      exact ⟨.keeps ((afterSize_packet q).trans (packetInHand_device hpc).symm),
        afterSize_goesBy q⟩
  | cleans q size p hpc hpass hremoved =>
      rw [hpc] at hgoes
      simp only [readBy, hpc]
      obtain ⟨hpacket, hafter⟩ := afterPass_goesBy p.stop p.arg s.heap hgoes
      exact ⟨.keeps (hpacket.trans (packetInHand_device hpc).symm), hafter⟩
  | removes q size p pFrame hpc hpass hremoved =>
      rw [hpc] at hgoes
      simp only [readBy, hpc]
      exact ⟨.keeps (packetInHand_device hpc).symm, hgoes⟩
  | cleanReleases q size stop pFrame hpc =>
      rw [hpc] at hgoes
      have hhandled : handledBy ⟨s, .device answer, [.released .device pFrame],
          (s.mediaFrameRelease pFrame).setDevice
            (if stop then afterSize q else .cleaning q size)⟩ = [] := by
        simp [handledBy, hpc]
      simp only [readBy, hpc, hhandled]
      obtain ⟨hpacket, hafter⟩ := afterPass_goesBy stop size
        (s.mediaFrameRelease pFrame).heap hgoes
      exact ⟨.keeps (hpacket.trans (packetInHand_device hpc).symm), hafter⟩

/-- The packet and the way of the device thread are read off its frames. -/
theorem DevicePc.packet_congr
    {heap heap' : FrameId → MediaFrame} {pc : DevicePc}
    (h : ∀ f ∈ pc.hand, heap' f = heap f) :
    pc.packet heap' = pc.packet heap ∧
    (pc.GoesBy cfg reads heap → pc.GoesBy cfg reads heap') := by
  cases pc <;>
    first
    | exact ⟨rfl, id⟩
    | simp only [DevicePc.hand, List.mem_singleton, forall_eq] at h
      simp only [DevicePc.packet, DevicePc.GoesBy, h]
      exact ⟨trivial, id⟩

/-- No other thread reports for the device thread. -/
theorem handledBy_eq_nil
    {t : PipelineThread} {lost : List FrameId} (ht : t ≠ .device)
    (hmove : ThreadMove t s s' es lost) :
    handledBy ⟨s, a, es, s'⟩ = [] := by
  cases hmove with
  | releases pFrame hset hnext hhand =>
      cases t <;> first | exact absurd rfl ht | rfl
  | offers q pFrame e hand lost hset hnext hhand hstored haccount hdevice =>
      cases t <;> first | exact absurd rfl ht | rfl
  | _ =>
      rfl

/-- Only the device thread reads packets and is done with them. -/
theorem pipelineStep_logs
    (h : pipelineStep cfg lib s a = some (s', es))
    (hne : ∀ answer, a ≠ .device answer) :
    readBy ⟨s, a, es, s'⟩ = [] ∧ handledBy ⟨s, a, es, s'⟩ = [] := by
  cases a with
  | device answer =>
      exact absurd rfl (hne answer)
  | encoder e answer =>
      exact ⟨rfl, handledBy_eq_nil (by simp) (encoderStep_move h)⟩
  | mux answer =>
      exact ⟨rfl, handledBy_eq_nil (by simp) (muxThreadStep_move h)⟩
  | setStop =>
      obtain ⟨rfl, rfl⟩ := Prod.mk.inj (Option.some.inj h)
      exact ⟨rfl, rfl⟩
  | _ =>
      simp only [pipelineStep] at h
      split at h <;> obtain ⟨rfl, rfl⟩ := Prod.mk.inj (Option.some.inj h) <;>
        exact ⟨rfl, rfl⟩

theorem mediaFrameRelease_nextPkt
    (s : PipelineState) (pFrame : FrameId) :
    (s.mediaFrameRelease pFrame).nextPkt = s.nextPkt := by
  obtain ⟨_, _, _, h⟩ := mediaFrameRelease_eq s pFrame
  rw [h]

theorem getMediaFrame_nextPkt
    (s : PipelineState) : s.getMediaFrame.2.nextPkt = s.nextPkt := by
  simp only [PipelineState.getMediaFrame]
  split <;> rfl

theorem encoderDealt_nextPkt
    (s : PipelineState) (e : EncoderId) (pFrame : FrameId) (encoded : Encoded) :
    s.nextPkt ≤ (encoderDealt s e pFrame encoded).nextPkt := by
  cases encoded <;> first | exact Nat.le_refl _ | exact Nat.le_succ _

/-- Packets are allocated in order. -/
theorem pipelineStep_nextPkt
    (h : pipelineStep cfg lib s a = some (s', es)) :
    s.nextPkt ≤ s'.nextPkt := by
  cases a with
  | device answer =>
      cases deviceStep_case h with
      | reads hpc =>
          exact Nat.le_succ _
      | getsFrame pkt streamIndex hpc =>
          exact (getMediaFrame_nextPkt s).ge
      | releases pFrame hpc =>
          exact (mediaFrameRelease_nextPkt s pFrame).ge
      | cleanReleases q size stop pFrame hpc =>
          exact (mediaFrameRelease_nextPkt s pFrame).ge
      | _ =>
          exact Nat.le_refl _
  | encoder e answer =>
      cases encoderStep_case h with
      | deals pFrame hpc =>
          exact encoderDealt_nextPkt s e pFrame answer.encoded
      | getsFrame pkt out hpc =>
          exact (getMediaFrame_nextPkt s).ge
      | releasesEncoded pFrame pkt out hpc =>
          exact (mediaFrameRelease_nextPkt s pFrame).ge
      | releasesInput pFrame hpc =>
          exact (mediaFrameRelease_nextPkt s pFrame).ge
      | releases pFrame hpc =>
          exact (mediaFrameRelease_nextPkt s pFrame).ge
      | _ =>
          exact Nat.le_refl _
  | mux answer =>
      cases muxThreadStep_case h with
      | callbackReleases stream pFrame hpc =>
          exact (mediaFrameRelease_nextPkt s pFrame).ge
      | releases stream pFrame ret hpc =>
          exact (mediaFrameRelease_nextPkt s pFrame).ge
      | _ =>
          exact Nat.le_refl _
  | _ =>
      simp only [pipelineStep] at h
      grind [PipelineState.setEncoder, PipelineState.setMux]

/-- Inversion of a step of the pipeline, as far as the packet in hand goes. -/
theorem pipelineStep_packet
    (honce : AtMostOnce s.custody s.nextFrame)
    (hgoes : s.device.GoesBy cfg reads s.heap)
    (hread : ∀ answer, a = .device answer → s.device = .reading →
      answer.streamIndex = (reads s.nextPkt).streamIndex)
    (h : pipelineStep cfg lib s a = some (s', es)) :
    PacketStep cfg reads s s' (readBy ⟨s, a, es, s'⟩) (handledBy ⟨s, a, es, s'⟩) ∧
    s'.device.GoesBy cfg reads s'.heap := by
  by_cases hdevice : ∃ answer, a = .device answer
  · obtain ⟨answer, rfl⟩ := hdevice
    exact deviceStep_packet hgoes (hread answer rfl) h
  · have hne : ∀ answer, a ≠ .device answer :=
      fun answer heq => hdevice ⟨answer, heq⟩
    have hsame := pipelineStep_device h hne
    have hheap : ∀ f ∈ s.device.hand, s'.heap f = s.heap f := by
      intro f hf
      have hplace : f ∈ s.custody (.hand .device) := hf
      refine pipelineStep_heap_of_place honce h hplace ?_
      intro t ht hhand
      cases hhand
      cases a <;> first | exact absurd rfl (hne _) | cases ht
    obtain ⟨hpacket, hkeeps⟩ := DevicePc.packet_congr hheap
    obtain ⟨hreadBy, hhandledBy⟩ := pipelineStep_logs h hne
    rw [hreadBy, hhandledBy, hsame]
    refine ⟨.keeps ?_, hkeeps hgoes⟩
    rw [PipelineState.packetInHand, hsame]
    exact hpacket

end Packet

end KoalaStreamer
