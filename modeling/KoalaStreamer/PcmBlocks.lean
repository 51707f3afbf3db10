import KoalaStreamer.FFEncoderThread
import KoalaStreamer.Library.BlockStream

/-!
# MacRTMPStreamer.cpp: the blocks of encoderAudio

The samples of the packets are a stream that is cut into blocks of the size of
`mPCMBuffer`.  `encoderAudio` tests whether the buffer is full after it has
copied a packet, and stamps a block with the time of the packet at hand.

Main results, for a thread that has been initialised for raw audio:
* `PcmInv`: the buffer and the submitted blocks are those of `gather`;
* `pcm_copies_in_buffer_iff`: when no copy leaves the buffer;
* `pcm_blocks_are_the_stream`: then the blocks and the residue are the stream;
* `pcm_block_time_iff`: when each block has the time of its first sample.
-/

namespace KoalaStreamer

open EventMachine BlockStream

section Observations

variable {β : Type}

/-- The packets dealt in a run, in order. -/
def dealtPackets (tr : List (DealTransition β)) : List (RawPacket β) :=
  tr.filterMap fun τ =>
    match τ.action with
    | .deal _ pkt _ => some pkt
    | .release _ => none

/-- The frames dealt in a run, in order. -/
def dealtFrames (tr : List (DealTransition β)) : List MediaFrame :=
  tr.filterMap fun τ =>
    match τ.action with
    | .deal pFrame _ _ => some pFrame.val
    | .release _ => none

/-- The samples given to the encoder, in order. -/
def submittedAudio (es : List (DealEvent β)) : List (AudioFrame β) :=
  es.filterMap fun
    | .encodeAudio frame => some frame
    | _ => none

/-- A copy writes inside `mPCMBuffer` only. -/
def DealEvent.InBuffer : DealEvent β → Prop
  | .copied offset size => offset + size ≤ pcmCapacity
  | _ => True

instance : DecidablePred (DealEvent.InBuffer (β := β)) := fun e =>
  match e with
  | .copied offset size => inferInstanceAs (Decidable (offset + size ≤ pcmCapacity))
  | .packetAlloc _ | .encodeVideo _ | .encodeAudio _ | .released _
  | .packetFree _ => inferInstanceAs (Decidable True)

/-- The payloads of the packets, one after the other. -/
abbrev payload (pkts : List (RawPacket β)) : List β :=
  stream RawPacket.data pkts

/-- The packet that supplies a byte of the stream. -/
abbrev suppliedBy (pkts : List (RawPacket β)) (i : ℕ) : Option (RawPacket β) :=
  holderAt RawPacket.data pkts i

/-- The blocks and the residue of the packets. -/
abbrev pcmGathered (pkts : List (RawPacket β)) : Gathered (RawPacket β) β :=
  gather RawPacket.data pcmCapacity pkts

@[simp] theorem submittedAudio_append
    (es es' : List (DealEvent β)) :
    submittedAudio (es ++ es') = submittedAudio es ++ submittedAudio es' := by
  simp [submittedAudio]

@[simp] theorem submittedAudio_packetFree
    (pkts : List PktId) :
    submittedAudio (pkts.map DealEvent.packetFree : List (DealEvent β)) = [] := by
  simp [submittedAudio]

@[simp] theorem releasedInputs_packetFree
    (pkts : List PktId) :
    releasedInputs (pkts.map DealEvent.packetFree : List (DealEvent β)) = [] := by
  simp [releasedInputs]

theorem pcmCapacity_pos : 0 < pcmCapacity := by
  decide

theorem pcmGathered_snoc
    (pkts : List (RawPacket β)) (pkt : RawPacket β) :
    pcmGathered (pkts ++ [pkt]) =
      (pcmGathered pkts).add RawPacket.data pcmCapacity pkt :=
  gather_snoc pkts pkt

end Observations

/-! ## The buffer -/

section Buffer

variable {β : Type} {t : FFEncoderThread β} {g : Gathered (RawPacket β) β}

/-- A copy that begins in the memory makes it longer only if it leaves it. -/
theorem length_memcpy
    {dst : List β} {offset : ℕ} (src : List β) (hle : offset ≤ dst.length) :
    (memcpy dst offset src).length = max dst.length (offset + src.length) := by
  simp only [memcpy, List.length_append, List.length_take, List.length_drop]
  omega

/-- What is in front of the copied bytes stays. -/
theorem take_memcpy
    {dst : List β} {offset : ℕ} (src : List β) (hle : offset ≤ dst.length) :
    (memcpy dst offset src).take (offset + src.length) = dst.take offset ++ src := by
  have hlength : (dst.take offset ++ src).length = offset + src.length := by
    rw [List.length_append, List.length_take, Nat.min_eq_left hle]
  rw [memcpy, ← hlength, List.take_left]

/-- The thread has gathered `g`. -/
structure Gathers (t : FFEncoderThread β) (g : Gathered (RawPacket β) β) : Prop where
  pcm : t.pcm = g.residue
  size : t.mPcmSize = g.residue.length
  memory : pcmCapacity ≤ t.mPCMBuffer.length
  room : t.mPcmSize < pcmCapacity

/-- The buffer after a packet was appended. -/
theorem Gathers.append
    (h : Gathers t g) (pkt : RawPacket β) :
    (t.append pkt).pcm = g.residue ++ pkt.data ∧
    (t.append pkt).mPcmSize = g.residue.length + pkt.data.length ∧
    pcmCapacity ≤ (t.append pkt).mPCMBuffer.length := by
  have hle : t.mPcmSize ≤ t.mPCMBuffer.length := h.room.le.trans h.memory
  refine ⟨?_, ?_, ?_⟩
  · rw [← h.pcm]
    exact take_memcpy pkt.data hle
  · rw [← h.size]
    rfl
  · rw [show (t.append pkt).mPCMBuffer = memcpy _ _ _ from rfl,
      length_memcpy _ hle]
    exact h.memory.trans (le_max_left _ _)

variable (bytesPerSample : Int → Int) (nextPkt : PktId) (pFrame : MediaFrame)
  (pkt : RawPacket β) (answer : EncodeAnswer)

/-- One packet more: the thread gathers it, and submits the block that it
completes, if it completes one. -/
theorem Gathers.next
    (h : Gathers t g) :
    Gathers (encoderAudio bytesPerSample t nextPkt pFrame pkt answer).thread
      (g.add RawPacket.data pcmCapacity pkt) ∧
    (g.add RawPacket.data pcmCapacity pkt).blocks.map
        (fun b => audioFrame bytesPerSample t.mCodecCtx b.1 b.2.pts) =
      g.blocks.map (fun b => audioFrame bytesPerSample t.mCodecCtx b.1 b.2.pts) ++
        submittedAudio
          (encoderAudio bytesPerSample t nextPkt pFrame pkt answer).events := by
  obtain ⟨hpcm, hsize, hmemory⟩ := h.append pkt
  simp only [encoderAudio, Gathered.add, hsize]
  split
  · rename_i hlt
    refine ⟨⟨hpcm, ?_, hmemory, ?_⟩, ?_⟩
    · rw [hsize, List.length_append]
    · rwa [hsize]
    · simp [submittedAudio]
  · refine ⟨⟨?_, rfl, hmemory, pcmCapacity_pos⟩, ?_⟩
    · simp [FFEncoderThread.pcm]
    · simp [submittedAudio, hpcm]

/-- What `encoderAudio` copies: the packet, behind the residue. -/
theorem Gathers.copies
    (h : Gathers t g) :
    (∀ e ∈ (encoderAudio bytesPerSample t nextPkt pFrame pkt
        answer).events, e.InBuffer) ↔
      g.residue.length + pkt.data.length ≤ pcmCapacity := by
  simp only [encoderAudio]
  split <;> simp [DealEvent.InBuffer, h.size]

/-- A copy that stays inside leaves the buffer as large as it was. -/
theorem length_encoderAudio
    (h : Gathers t g)
    (hlength : t.mPCMBuffer.length = pcmCapacity)
    (hfits : g.residue.length + pkt.data.length ≤ pcmCapacity) :
    (encoderAudio bytesPerSample t nextPkt pFrame pkt
      answer).thread.mPCMBuffer.length = pcmCapacity := by
  have happend : (t.append pkt).mPCMBuffer.length = pcmCapacity := by
    rw [show (t.append pkt).mPCMBuffer = memcpy _ _ _ from rfl,
      length_memcpy _ (h.room.le.trans h.memory), hlength, h.size]
    exact max_eq_left hfits
  simp only [encoderAudio]
  split <;> exact happend

/-- `encoderAudio` changes nothing but the buffer. -/
theorem encoderAudio_keeps
    (t : FFEncoderThread β) :
    (encoderAudio bytesPerSample t nextPkt pFrame pkt
      answer).thread.type = t.type ∧
    (encoderAudio bytesPerSample t nextPkt pFrame pkt
      answer).thread.mCodecCtx = t.mCodecCtx := by
  simp only [encoderAudio]
  split <;> exact ⟨rfl, rfl⟩

end Buffer

/-! ## Runs -/

section Runs

variable {β : Type} {bytesPerSample : Int → Int} {id : EncoderId}
  {mCodecCtx : AVCodecContext} {memory : PcmMemory β}
  {tr : List (DealTransition β)} {s s' : DealState β}

theorem dealtPackets_deal
    (pFrame : RawFrame) (pkt : RawPacket β) (answer : EncodeAnswer)
    (es : List (DealEvent β)) :
    dealtPackets (tr ++ [⟨s, .deal pFrame pkt answer, es, s'⟩]) =
      dealtPackets tr ++ [pkt] := by
  simp [dealtPackets]

theorem dealtPackets_release
    (pFrame : MediaFrame) (es : List (DealEvent β)) :
    dealtPackets (tr ++ [⟨s, .release pFrame, es, s'⟩]) = dealtPackets tr := by
  simp [dealtPackets]

/-- What every run of a thread for raw audio keeps. -/
structure PcmInv
    (bytesPerSample : Int → Int) (mCodecCtx : AVCodecContext)
    (tr : List (DealTransition β)) (s : DealState β) : Prop where
  type : s.thread.type = .audio
  ctx : s.thread.mCodecCtx = mCodecCtx
  gathers : Gathers s.thread (pcmGathered (dealtPackets tr))
  submitted : submittedAudio (eventsOf tr) =
    (pcmGathered (dealtPackets tr)).blocks.map fun b =>
      audioFrame bytesPerSample mCodecCtx b.1 b.2.pts
  copies : (∀ e ∈ eventsOf tr, e.InBuffer) ↔
    Fits RawPacket.data pcmCapacity (dealtPackets tr)
  length : Fits RawPacket.data pcmCapacity (dealtPackets tr) →
    s.thread.mPCMBuffer.length = pcmCapacity
  released : releasedInputs (eventsOf tr) = dealtFrames tr

theorem pcmInv_init
    (id : EncoderId) (memory : PcmMemory β) :
    PcmInv bytesPerSample mCodecCtx []
      (DealState.init (initAudioThread id mCodecCtx memory)) where
  type := rfl
  ctx := rfl
  gathers :=
    { pcm := rfl
      size := rfl
      memory := memory.property.ge
      room := pcmCapacity_pos }
  submitted := rfl
  copies := iff_of_true (by simp) (eachPiece_nil _)
  length := fun _ => memory.property
  released := rfl

/-- A call of `deal` keeps the invariant. -/
theorem PcmInv.deal_step
    (h : PcmInv bytesPerSample mCodecCtx tr s)
    (pFrame : RawFrame) (pkt : RawPacket β) (answer : EncodeAnswer)
    {es : List (DealEvent β)}
    (hstep : dealStep bytesPerSample s (.deal pFrame pkt answer) = some (s', es)) :
    PcmInv bytesPerSample mCodecCtx
      (tr ++ [⟨s, .deal pFrame pkt answer, es, s'⟩]) s' := by
  have hdeal : deal bytesPerSample s.thread s.nextPkt pFrame pkt answer =
      encoderAudio bytesPerSample s.thread s.nextPkt pFrame pkt answer := by
    simp only [deal, h.type]
  have hreleased := deal_released bytesPerSample s.thread s.nextPkt pFrame pkt answer
  rw [hdeal] at hreleased
  simp only [dealStep, hdeal, Option.some.injEq, Prod.mk.injEq] at hstep
  obtain ⟨rfl, rfl⟩ := hstep
  obtain ⟨htype, hctx⟩ :=
    encoderAudio_keeps bytesPerSample s.nextPkt pFrame pkt answer s.thread
  obtain ⟨hgathers, hblocks⟩ :=
    h.gathers.next bytesPerSample s.nextPkt pFrame pkt answer
  have hcopies := h.gathers.copies bytesPerSample s.nextPkt pFrame pkt answer
  constructor
  · exact htype.trans h.type
  · exact hctx.trans h.ctx
  · rw [dealtPackets_deal, pcmGathered_snoc]
    exact hgathers
  · rw [h.ctx] at hblocks
    rw [eventsOf_snoc, submittedAudio_append, h.submitted, dealtPackets_deal,
      pcmGathered_snoc, hblocks]
  · rw [eventsOf_snoc, dealtPackets_deal, fits_snoc_iff, ← h.copies, ← hcopies]
    exact List.forall_mem_append
  · rw [dealtPackets_deal, fits_snoc_iff]
    rintro ⟨hfits, hlast⟩
    exact length_encoderAudio bytesPerSample s.nextPkt pFrame pkt answer h.gathers
      (h.length hfits) hlast
  · rw [eventsOf_snoc, releasedInputs_append, h.released, hreleased]
    simp [dealtFrames]

/-- A release keeps the invariant. -/
theorem PcmInv.release_step
    (h : PcmInv bytesPerSample mCodecCtx tr s)
    (pFrame : MediaFrame) {es : List (DealEvent β)}
    (hstep : dealStep bytesPerSample s (.release pFrame) = some (s', es)) :
    PcmInv bytesPerSample mCodecCtx (tr ++ [⟨s, .release pFrame, es, s'⟩]) s' := by
  simp only [dealStep] at hstep
  split at hstep
  · obtain ⟨rfl, rfl⟩ := Prod.mk.inj (Option.some.inj hstep)
    constructor
    · exact h.type
    · exact h.ctx
    · rw [dealtPackets_release]
      exact h.gathers
    · rw [eventsOf_snoc, submittedAudio_append, submittedAudio_packetFree,
        List.append_nil, dealtPackets_release]
      exact h.submitted
    · rw [eventsOf_snoc, dealtPackets_release, ← h.copies, List.forall_mem_append]
      simp [DealEvent.InBuffer]
    · rw [dealtPackets_release]
      exact h.length
    · rw [eventsOf_snoc, releasedInputs_append, releasedInputs_packetFree,
        List.append_nil, h.released]
      simp [dealtFrames]
  · cases hstep

theorem run_pcmInv
    (run : Run (dealStep bytesPerSample)
      (DealState.init (initAudioThread id mCodecCtx memory)) tr s) :
    PcmInv bytesPerSample mCodecCtx tr s := by
  refine Run.invariant (PcmInv bytesPerSample mCodecCtx) (pcmInv_init id memory)
    ?_ run
  intro tr s a es s' h hstep
  cases a with
  | deal pFrame pkt answer =>
      exact h.deal_step pFrame pkt answer hstep
  | release pFrame =>
      exact h.release_step pFrame hstep

/-- Whatever is dealt, the thread goes on: every sequence of frames has a run. -/
theorem exists_dealRun
    (bytesPerSample : Int → Int) (s : DealState β)
    (inputs : List (RawFrame × RawPacket β × EncodeAnswer)) :
    ∃ tr s', Run (dealStep bytesPerSample) s tr s' ∧
      dealtPackets tr = inputs.map fun i => i.2.1 := by
  induction inputs using List.reverseRecOn with
  | nil =>
      exact ⟨[], s, Run.nil, rfl⟩
  | append_singleton inputs i ih =>
      obtain ⟨tr, s', run, hpkts⟩ := ih
      refine ⟨_, _, run.snoc (a := .deal i.1 i.2.1 i.2.2) rfl, ?_⟩
      rw [dealtPackets_deal, hpkts, List.map_append, List.map_singleton]

/-- When the copies of a run stay inside the buffer. -/
theorem inBuffer_iff
    {tr : List (DealTransition β)} :
    (∀ offset size, .copied offset size ∈ eventsOf tr → offset + size ≤ 1024 * 8) ↔
      ∀ e ∈ eventsOf tr, e.InBuffer := by
  constructor
  · intro h e he
    cases e with
    | copied offset size =>
        exact h offset size he
    | _ =>
        trivial
  · exact fun h offset size he => h _ he

/-- Two packets that together are no longer than a block. -/
theorem aligned_two
    {p q : RawPacket β}
    (hp : p.data.length < pcmCapacity)
    (hq : p.data.length + q.data.length ≤ pcmCapacity) :
    Aligned RawPacket.data pcmCapacity [p, q] := by
  have hone : Aligned RawPacket.data pcmCapacity ([] ++ [p]) :=
    aligned_snoc_iff.mpr ⟨eachPiece_nil _, by simpa using hp.le⟩
  have htwo : (stream RawPacket.data ([] ++ [p])).length % pcmCapacity +
      q.data.length ≤ pcmCapacity := by
    rw [stream_snoc, stream_nil, List.nil_append, Nat.mod_eq_of_lt hp]
    exact hq
  exact aligned_snoc_iff.mpr ⟨hone, htwo⟩

/--
In every run of a thread for raw audio, every copy writes inside `mPCMBuffer`
if and only if no packet goes past the next multiple of 8192 in the stream of all
payloads.
-/
theorem pcm_copies_in_buffer_iff
    (run : Run (dealStep bytesPerSample)
      (DealState.init (initAudioThread id mCodecCtx memory)) tr s) :
    (∀ offset size, .copied offset size ∈ eventsOf tr → offset + size ≤ 1024 * 8) ↔
      Aligned RawPacket.data (1024 * 8) (dealtPackets tr) := by
  rw [inBuffer_iff, (run_pcmInv run).copies]
  exact fits_iff_aligned pcmCapacity_pos _

/-- The number of samples fits the length of a block that it divides. -/
theorem nbSamples_of_dvd
    {size bytes channels : Int} (hsize : size ≠ 0) (hdvd : bytes * channels ∣ size) :
    ∃ n, nbSamples size bytes channels = some n ∧ n * bytes * channels = size := by
  obtain ⟨n, rfl⟩ := hdvd
  have hbytes : bytes ≠ 0 := by
    rintro rfl
    simp at hsize
  have hchannels : channels ≠ 0 := by
    rintro rfl
    simp at hsize
  refine ⟨n, ?_, by ring⟩
  rw [nbSamples, if_neg (by simp [hbytes, hchannels]), mul_assoc,
    Int.mul_tdiv_cancel_left _ hbytes, Int.mul_tdiv_cancel_left _ hchannels]

/--
In every run of a thread for raw audio whose copies stay inside `mPCMBuffer`: the
blocks given to the encoder, and the residue in the buffer, are the payloads of
the packets; every block has 8192 bytes and the residue has less; the number of
samples is that of the block, where a sample of all channels divides it; and
every input frame is released exactly once, in order.
-/
theorem pcm_blocks_are_the_stream
    (run : Run (dealStep bytesPerSample)
      (DealState.init (initAudioThread id mCodecCtx memory)) tr s)
    (hfits : ∀ offset size, .copied offset size ∈ eventsOf tr →
      offset + size ≤ 1024 * 8) :
    (submittedAudio (eventsOf tr)).flatMap (·.data0) ++
        s.thread.mPCMBuffer.take s.thread.mPcmSize =
      (dealtPackets tr).flatMap (·.data) ∧
    s.thread.mPcmSize < 1024 * 8 ∧
    s.thread.mPCMBuffer.length = 1024 * 8 ∧
    (∀ frame ∈ submittedAudio (eventsOf tr),
      frame.data0.length = 1024 * 8 ∧
      (bytesPerSample mCodecCtx.sampleFmt * mCodecCtx.channels ∣ 1024 * 8 →
        ∃ n, frame.nbSamples = some n ∧
          n * bytesPerSample mCodecCtx.sampleFmt * mCodecCtx.channels =
            frame.data0.length)) ∧
    releasedInputs (eventsOf tr) = dealtFrames tr := by
  have hinv := run_pcmInv run
  have hfit := hinv.copies.mp (inBuffer_iff.mp hfits)
  refine ⟨?_, hinv.gathers.room, hinv.length hfit, ?_, hinv.released⟩
  · have hpcm : s.thread.mPCMBuffer.take s.thread.mPcmSize =
        (pcmGathered (dealtPackets tr)).residue := hinv.gathers.pcm
    rw [hinv.submitted, List.flatMap_map, hpcm]
    exact gather_stream (dealtPackets tr)
  · intro frame hframe
    rw [hinv.submitted] at hframe
    obtain ⟨b, hb, rfl⟩ := List.mem_map.mp hframe
    have hlength : b.1.length = 1024 * 8 := hfit.block_length b hb
    refine ⟨hlength, fun hdvd => ?_⟩
    simp only [audioFrame, hlength]
    exact nbSamples_of_dvd (by decide) (by exact_mod_cast hdvd)

/--
In every run of a thread for raw audio whose copies stay inside `mPCMBuffer`, the
block number `k` is cut from the payloads at `8192 * k`; and the frames carry the
time of the packet that supplied their first byte if and only if the packets that
supplied the first and the last byte of a full block have the same time.
-/
theorem pcm_block_time_iff
    (run : Run (dealStep bytesPerSample)
      (DealState.init (initAudioThread id mCodecCtx memory)) tr s)
    (hfits : ∀ offset size, .copied offset size ∈ eventsOf tr →
      offset + size ≤ 1024 * 8) :
    (∀ (k : ℕ) (frame : AudioFrame β),
      (submittedAudio (eventsOf tr))[k]? = some frame →
      frame.data0 = ((payload (dealtPackets tr)).drop (1024 * 8 * k)).take (1024 * 8)) ∧
    ((∀ (k : ℕ) (frame : AudioFrame β),
      (submittedAudio (eventsOf tr))[k]? = some frame →
      (suppliedBy (dealtPackets tr) (1024 * 8 * k)).map (·.pts) = some frame.pts) ↔
    ∀ k, 1024 * 8 * k + 1024 * 8 ≤ (payload (dealtPackets tr)).length →
      (suppliedBy (dealtPackets tr) (1024 * 8 * k)).map (·.pts) =
        (suppliedBy (dealtPackets tr) (1024 * 8 * k + (1024 * 8 - 1))).map
          (·.pts)) := by
  have hinv := run_pcmInv run
  have hfit := hinv.copies.mp (inBuffer_iff.mp hfits)
  have hblock : ∀ (k : ℕ) (frame : AudioFrame β),
      (submittedAudio (eventsOf tr))[k]? = some frame →
      ∃ b, (pcmGathered (dealtPackets tr)).blocks[k]? = some b ∧
        audioFrame bytesPerSample mCodecCtx b.1 b.2.pts = frame := by
    intro k frame hframe
    rwa [hinv.submitted, List.getElem?_map, Option.map_eq_some_iff] at hframe
  refine ⟨?_, ?_, ?_⟩
  · intro k frame hframe
    obtain ⟨b, hb, rfl⟩ := hblock k frame hframe
    exact hfit.block_eq hb
  · intro htime k hk
    -- the block number `k` was submitted
    have hcount := hfit.count pcmCapacity_pos
    have hfull : (k + 1) * pcmCapacity ≤ (payload (dealtPackets tr)).length := by
      simp only [pcmCapacity]
      omega
    have hlt : k < (pcmGathered (dealtPackets tr)).blocks.length := by
      rw [pcmGathered, hcount]
      exact (Nat.le_div_iff_mul_le pcmCapacity_pos).mpr hfull
    have hb := List.getElem?_eq_getElem hlt
    have hlast := hfit.completes pcmCapacity_pos hb
    have hfirst := htime k (audioFrame bytesPerSample mCodecCtx _ _) (by
      rw [hinv.submitted, List.getElem?_map, hb]
      rfl)
    rw [hfirst]
    exact (congrArg (Option.map (·.pts)) hlast).symm
  · intro hsame k frame hframe
    obtain ⟨b, hb, rfl⟩ := hblock k frame hframe
    have hlast := hfit.completes pcmCapacity_pos hb
    rw [hsame k (hfit.block_le hb)]
    exact congrArg (Option.map (·.pts)) hlast

end Runs

/-! ## Microphone packets -/

section Packets

/-- 16-bit stereo. -/
def stereoCtx : AVCodecContext where
  height := 0
  width := 0
  pixFmt := -1
  sampleFmt := 1
  sampleRate := 44100
  channels := 2
  channelLayout := 3

/-- A packet of `size` bytes. -/
def micPacket (size : ℕ) (pts : Int) : RawPacket ℕ where
  data := List.replicate size 0
  pts := pts

theorem micPacket_length
    (size : ℕ) (pts : Int) : (micPacket size pts).data.length = size :=
  List.length_replicate

/-- The encoder keeps the samples for itself. -/
def encoderDelays : EncodeAnswer where
  ret := 0
  got := false
  out := ⟨0, 0, 0, 0, 0⟩
  frame := mediaFrameCreate

def freshPcm : PcmMemory ℕ :=
  ⟨List.replicate pcmCapacity 7, List.length_replicate⟩

/-- A run that deals two packets of these sizes. -/
theorem exists_twoPackets
    (size size' : ℕ) (pts pts' : Int) :
    ∃ tr s, Run (dealStep fun _ => 2)
        (DealState.init (initAudioThread .mpThreadAE stereoCtx freshPcm)) tr s ∧
      dealtPackets tr = [micPacket size pts, micPacket size' pts'] :=
  exists_dealRun _ _
    [(newRawFrame, micPacket size pts, encoderDelays),
      (newRawFrame, micPacket size' pts', encoderDelays)]

/-- Two packets of half a block each. -/
theorem halves_aligned
    (pts pts' : Int) :
    Aligned RawPacket.data pcmCapacity [micPacket 4096 pts, micPacket 4096 pts'] :=
  aligned_two (by rw [micPacket_length]; decide)
    (by rw [micPacket_length, micPacket_length]; decide)

theorem pcm_copies_in_buffer_iff_halves :
    ∃ tr s, Run (dealStep fun _ => 2)
        (DealState.init (initAudioThread .mpThreadAE stereoCtx freshPcm)) tr s ∧
      dealtPackets tr = [micPacket 4096 100, micPacket 4096 200] ∧
      ∀ offset size, .copied offset size ∈ eventsOf tr → offset + size ≤ 1024 * 8 := by
  obtain ⟨tr, s, run, hpkts⟩ := exists_twoPackets 4096 4096 100 200
  refine ⟨tr, s, run, hpkts, (pcm_copies_in_buffer_iff run).mpr ?_⟩
  rw [hpkts]
  exact halves_aligned 100 200

/-- Two packets of 5000 bytes. -/
theorem pcm_copies_in_buffer_fails_second_packet :
    ∃ tr s, Run (dealStep fun _ => 2)
        (DealState.init (initAudioThread .mpThreadAE stereoCtx freshPcm)) tr s ∧
      dealtPackets tr = [micPacket 5000 100, micPacket 5000 200] ∧
      ¬ ∀ offset size, .copied offset size ∈ eventsOf tr →
        offset + size ≤ 1024 * 8 := by
  obtain ⟨tr, s, run, hpkts⟩ := exists_twoPackets 5000 5000 100 200
  refine ⟨tr, s, run, hpkts, ?_⟩
  rw [inBuffer_iff, (run_pcmInv run).copies, fits_iff_aligned pcmCapacity_pos, hpkts]
  intro haligned
  have hlast : (stream RawPacket.data [micPacket 5000 100]).length % pcmCapacity +
      (micPacket 5000 200).data.length ≤ pcmCapacity :=
    (aligned_snoc_iff.mp haligned).2
  rw [stream, List.flatMap_singleton, micPacket_length, micPacket_length] at hlast
  exact absurd hlast (by decide)

/-- A block of two packets is submitted as it came. -/
theorem pcm_blocks_are_the_stream_halves :
    ∃ tr s, Run (dealStep fun _ => 2)
        (DealState.init (initAudioThread .mpThreadAE stereoCtx freshPcm)) tr s ∧
      (submittedAudio (eventsOf tr)).length = 1 ∧
      (submittedAudio (eventsOf tr)).flatMap (·.data0) ++
          s.thread.mPCMBuffer.take s.thread.mPcmSize =
        (dealtPackets tr).flatMap (·.data) ∧
      ∀ frame ∈ submittedAudio (eventsOf tr), ∃ n, frame.nbSamples = some n ∧
        n * 2 * 2 = frame.data0.length := by
  obtain ⟨tr, s, run, hpkts⟩ := exists_twoPackets 4096 4096 100 200
  have hinv := run_pcmInv run
  have hfit : Fits RawPacket.data pcmCapacity (dealtPackets tr) := by
    rw [fits_iff_aligned pcmCapacity_pos, hpkts]
    exact halves_aligned 100 200
  obtain ⟨hstream, -, -, hblocks, -⟩ :=
    pcm_blocks_are_the_stream run (inBuffer_iff.mpr (hinv.copies.mpr hfit))
  refine ⟨tr, s, run, ?_, hstream, fun frame hframe =>
    (hblocks frame hframe).2 (by decide)⟩
  rw [hinv.submitted, List.length_map, hfit.count pcmCapacity_pos, hpkts]
  simp only [stream, List.flatMap_cons, List.flatMap_nil, List.length_append,
    micPacket_length]
  decide

/-- Two packets with the same time. -/
theorem pcm_block_time_iff_same_time :
    ∃ tr s, Run (dealStep fun _ => 2)
        (DealState.init (initAudioThread .mpThreadAE stereoCtx freshPcm)) tr s ∧
      dealtPackets tr = [micPacket 4096 100, micPacket 4096 100] ∧
      ∀ (k : ℕ) (frame : AudioFrame ℕ),
        (submittedAudio (eventsOf tr))[k]? = some frame →
        (suppliedBy (dealtPackets tr) (1024 * 8 * k)).map (·.pts) = some frame.pts := by
  obtain ⟨tr, s, run, hpkts⟩ := exists_twoPackets 4096 4096 100 100
  have hinv := run_pcmInv run
  have hfit : Fits RawPacket.data pcmCapacity (dealtPackets tr) := by
    rw [fits_iff_aligned pcmCapacity_pos, hpkts]
    exact halves_aligned 100 100
  have htime := pcm_block_time_iff run (inBuffer_iff.mpr (hinv.copies.mpr hfit))
  refine ⟨tr, s, run, hpkts, htime.2.mpr ?_⟩
  intro k hk
  rw [hpkts] at hk ⊢
  simp only [payload, stream, List.flatMap_cons, List.flatMap_nil,
    List.length_append, micPacket_length, List.length_nil] at hk
  obtain rfl : k = 0 := by omega
  simp only [suppliedBy, holderAt, micPacket_length]
  decide

/-- The samples of the first packet go out with the time of the second. -/
theorem pcm_block_time_fails_two_packets :
    ∃ tr s, Run (dealStep fun _ => 2)
        (DealState.init (initAudioThread .mpThreadAE stereoCtx freshPcm)) tr s ∧
      dealtPackets tr = [micPacket 4096 100, micPacket 4096 200] ∧
      (submittedAudio (eventsOf tr)).map (·.pts) = [200] ∧
      (suppliedBy (dealtPackets tr) 0).map (·.pts) = some 100 := by
  obtain ⟨tr, s, run, hpkts⟩ := exists_twoPackets 4096 4096 100 200
  refine ⟨tr, s, run, hpkts, ?_, ?_⟩
  · have hblocks : (pcmGathered [micPacket 4096 100, micPacket 4096 200]).blocks =
        [((micPacket 4096 100).data ++ (micPacket 4096 200).data,
          micPacket 4096 200)] := by
      simp only [pcmGathered, gather, List.foldl_cons, List.foldl_nil, Gathered.add,
        List.length_nil, micPacket_length, List.nil_append]
      rw [if_pos (show 0 + 4096 < pcmCapacity by decide)]
      simp only [micPacket_length]
      rw [if_neg (by decide)]
      rfl
    rw [(run_pcmInv run).submitted, hpkts, hblocks]
    rfl
  · rw [hpkts]
    simp only [suppliedBy, holderAt, micPacket_length]
    decide

end Packets

end KoalaStreamer
