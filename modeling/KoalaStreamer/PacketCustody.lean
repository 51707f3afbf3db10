import KoalaStreamer.DeviceReading
import KoalaStreamer.FrameOwnership
import KoalaStreamer.Library.TokenLedger

/-!
# Who owns an AVPacket

`ff_read_devices` allocates a packet for every read, `deal` one for every call of an
encoder.  A packet is carried by the thread that allocated it until the fields of its frame
are set, and then by the frame: a raw frame in `pBuffer`, an encoded one in the argument of
its release.  Frames go round through the pool, so what a frame in the pool or in a fresh
hand says about packets is stale.

Main result: `packets_accounted`: the packets allocated are those freed, those carried and
those dropped, each once; and nobody reads a packet that is freed.
-/

namespace KoalaStreamer

open EventMachine TokenAccounting

/-! ## Where a packet is -/

section Places

/-- The packet that the release of a frame frees. -/
def MediaFrame.packet (frame : MediaFrame) : List PktId :=
  match frame.release with
  | .null => []
  | .releasePkt => [frame.pBuffer]
  | .releasePktBuffer => [frame.releaseArg]

/-- What the device thread carries; a frame that is not filled yet carries nothing. -/
def DevicePc.carriedPkts (heap : FrameId → MediaFrame) : DevicePc → List PktId
  | .getting pkt _ => [pkt]
  | .filling pkt _ _ => [pkt]
  | pc => pc.hand.flatMap fun f => (heap f).packet

/-- What an encoder thread carries. -/
def EncoderPc.carriedPkts (heap : FrameId → MediaFrame) : EncoderPc → List PktId
  | .inputReleasing pFrame out => (heap pFrame).packet ++ out.toList.map Prod.fst
  | .getting pkt _ => [pkt]
  | .filling pkt _ _ => [pkt]
  | pc => pc.hand.flatMap fun f => (heap f).packet

/-- What the mux thread carries. -/
def MuxPc.carriedPkts (heap : FrameId → MediaFrame) (pc : MuxPc) : List PktId :=
  pc.hand.flatMap fun f => (heap f).packet

/-- Where a packet can be. -/
inductive PktPlace
  | queue (q : QueueId)
  | hand (t : PipelineThread)
  | freed
deriving DecidableEq, Fintype

/-- The packets of a place. -/
def PipelineState.packets (s : PipelineState) : PktPlace → List PktId
  | .queue q => (s.queue q).contents.flatMap fun f => (s.heap f).packet
  | .hand .device => s.device.carriedPkts s.heap
  | .hand (.encoder e) => (s.encoder e).carriedPkts s.heap
  | .hand .mux => s.mux.carriedPkts s.heap
  | .freed => s.freedPkts

/-- The places of packets that are not freed. -/
def carryingPlaces : List PktPlace :=
  [.hand .device, .queue .pYUVQueue, .queue .pPCMQueue, .hand (.encoder .mpThreadVE),
    .hand (.encoder .mpThreadAE), .queue .pVEQueue, .queue .pAEQueue, .hand .mux]

/-- The packets that are not freed and can be reached. -/
def PipelineState.packetsCarried (s : PipelineState) : List PktId :=
  carryingPlaces.flatMap s.packets

/-- The packets that no one can reach after the step: those of the frames it loses, and
the one of an encoder call that gave nothing out. -/
def droppedPackets (s : PipelineState) (a : PipelineAction) : List PktId :=
  (lostFrames s a).flatMap (fun f => (s.heap f).packet) ++
  match a with
  | .encoder e answer =>
      match s.encoder e, answer.encoded with
      | .dealing _, .nothing => [s.nextPkt]
      | _, _ => []
  | _ => []

def packetsDropped (tr : List PipelineTransition) : List PktId :=
  tr.flatMap fun τ => droppedPackets τ.src τ.action

end Places

/-! ## What a step does to the places -/

section Moves

variable {cfg : StreamerConfig} {lib : LibAv} {s s' : PipelineState}
  {es : List PipelineEvent} {a : PipelineAction} {t : PipelineThread}

theorem DevicePc.carriedPkts_congr
    {heap heap' : FrameId → MediaFrame} {pc : DevicePc}
    (h : ∀ f ∈ pc.hand, heap' f = heap f) :
    pc.carriedPkts heap' = pc.carriedPkts heap := by
  have hhand : pc.hand.flatMap (fun f => (heap' f).packet) =
      pc.hand.flatMap fun f => (heap f).packet :=
    List.flatMap_congr fun f hf => congrArg MediaFrame.packet (h f hf)
  cases pc <;> first | rfl | exact hhand

theorem EncoderPc.carriedPkts_congr
    {heap heap' : FrameId → MediaFrame} {pc : EncoderPc}
    (h : ∀ f ∈ pc.hand, heap' f = heap f) :
    pc.carriedPkts heap' = pc.carriedPkts heap := by
  have hhand : pc.hand.flatMap (fun f => (heap' f).packet) =
      pc.hand.flatMap fun f => (heap f).packet :=
    List.flatMap_congr fun f hf => congrArg MediaFrame.packet (h f hf)
  cases pc with
  | inputReleasing pFrame out =>
      simp only [EncoderPc.carriedPkts, h pFrame (List.mem_singleton_self _)]
  | _ =>
      first | rfl | exact hhand

theorem MuxPc.carriedPkts_congr
    {heap heap' : FrameId → MediaFrame} {pc : MuxPc}
    (h : ∀ f ∈ pc.hand, heap' f = heap f) :
    pc.carriedPkts heap' = pc.carriedPkts heap :=
  List.flatMap_congr fun f hf => congrArg MediaFrame.packet (h f hf)

/-- The other threads carry what they carried. -/
theorem packets_hand_beside
    (honce : AtMostOnce s.custody s.nextFrame)
    (h : pipelineStep cfg lib s a = some (s', es)) (ht : a.thread = some t)
    {t' : PipelineThread} (hne : t' ≠ t) :
    s'.packets (.hand t') = s.packets (.hand t') := by
  have hheap : ∀ f ∈ s.hand t', s'.heap f = s.heap f := by
    intro f hf
    have hplace : f ∈ s.custody (.hand t') := hf
    refine pipelineStep_heap_of_place honce h hplace ?_
    intro t'' ht'' heq
    rw [ht] at ht''
    exact hne ((Place.hand.inj heq).trans (Option.some.inj ht'').symm)
  have hdevice : s'.device = s.device → t' = .device →
      s'.packets (.hand t') = s.packets (.hand t') := by
    rintro hsame rfl
    show s'.device.carriedPkts s'.heap = _
    rw [hsame]
    exact DevicePc.carriedPkts_congr hheap
  have hencoder : ∀ e, s'.encoder e = s.encoder e → t' = .encoder e →
      s'.packets (.hand t') = s.packets (.hand t') := by
    rintro e hsame rfl
    show (s'.encoder e).carriedPkts s'.heap = _
    rw [hsame]
    exact EncoderPc.carriedPkts_congr hheap
  have hmux : s'.mux = s.mux → t' = .mux →
      s'.packets (.hand t') = s.packets (.hand t') := by
    rintro hsame rfl
    show s'.mux.carriedPkts s'.heap = _
    rw [hsame]
    exact MuxPc.carriedPkts_congr hheap
  cases a with
  | device answer =>
      obtain rfl := Option.some.inj ht
      obtain ⟨-, hencoders, hmuxes, -⟩ := deviceStep_others h
      cases t' with
      | device => exact absurd rfl hne
      | encoder e => exact hencoder e (congrFun hencoders e) rfl
      | mux => exact hmux hmuxes rfl
  | encoder e answer =>
      obtain rfl := Option.some.inj ht
      obtain ⟨-, -, hencoders, hdevices, hmuxes, -⟩ := encoderStep_others h
      cases t' with
      | device => exact hdevice hdevices rfl
      | encoder e' => exact hencoder e' (hencoders e' fun heq => hne (by rw [heq])) rfl
      | mux => exact hmux hmuxes rfl
  | mux answer =>
      obtain rfl := Option.some.inj ht
      obtain ⟨-, hencoders, hdevices, -⟩ := muxThreadStep_others h
      cases t' with
      | device => exact hdevice hdevices rfl
      | encoder e => exact hencoder e (congrFun hencoders e) rfl
      | mux => exact absurd rfl hne
  | _ =>
      cases ht

/-- A queue that keeps its frames keeps their packets. -/
theorem packets_queue_beside
    (honce : AtMostOnce s.custody s.nextFrame)
    (h : pipelineStep cfg lib s a = some (s', es)) {q : QueueId}
    (hsame : (s'.queue q).contents = (s.queue q).contents) :
    s'.packets (.queue q) = s.packets (.queue q) := by
  show (s'.queue q).contents.flatMap _ = _
  rw [hsame]
  refine List.flatMap_congr fun f hf => congrArg MediaFrame.packet ?_
  have hplace : f ∈ s.custody (.queue q) := hf
  refine pipelineStep_heap_of_place honce h hplace ?_
  rintro t - heq
  cases heq

/-- The ways a step of the thread `t` can move packets, with those it drops. -/
inductive PacketMove (t : PipelineThread) (s s' : PipelineState) : List PktId → Prop
  /-- The thread goes on with what it carries. -/
  | walks
      (hqueue : s'.queue = s.queue) (hfreed : s'.freedPkts = s.freedPkts)
      (hnext : s'.nextPkt = s.nextPkt)
      (hhand : s'.packets (.hand t) = s.packets (.hand t)) :
      PacketMove t s s' []
  /-- `av_packet_alloc`. -/
  | allocates (lost : List PktId)
      (hqueue : s'.queue = s.queue) (hfreed : s'.freedPkts = s.freedPkts)
      (hnext : s'.nextPkt = s.nextPkt + 1)
      (hhand : s'.packets (.hand t) ++ lost = s.packets (.hand t) ++ [s.nextPkt]) :
      PacketMove t s s' lost
  /-- `mediaFrameRelease`. -/
  | releases (pFrame : FrameId)
      (hqueue : s'.queue = s.queue)
      (hfreed : s'.freedPkts = (s.heap pFrame).packet ++ s.freedPkts)
      (hnext : s'.nextPkt = s.nextPkt)
      (hhand : s.packets (.hand t) = (s.heap pFrame).packet ++ s'.packets (.hand t)) :
      PacketMove t s s' []
  /-- Frames go from a queue to the hand. -/
  | takes (q : QueueId) (contents : FiFo FrameId) (taken : List FrameId)
      (hqueue : s'.queue = Function.update s.queue q contents)
      (hheap : s'.heap = s.heap)
      (hfreed : s'.freedPkts = s.freedPkts) (hnext : s'.nextPkt = s.nextPkt)
      (htaken : taken ++ contents.contents = (s.queue q).contents)
      (hbefore : s.packets (.hand t) = [])
      (hafter : s'.packets (.hand t) = taken.flatMap fun f => (s.heap f).packet) :
      PacketMove t s s' []
  /-- `enqueue` returns. -/
  | offers (q : QueueId) (contents : FiFo FrameId) (pFrame : FrameId)
      (stored hand lost : List FrameId)
      (hqueue : s'.queue = Function.update s.queue q contents)
      (hheap : s'.heap = s.heap)
      (hfreed : s'.freedPkts = s.freedPkts) (hnext : s'.nextPkt = s.nextPkt)
      (hstored : contents.contents = (s.queue q).contents ++ stored)
      (haccount : stored ++ hand ++ lost = [pFrame])
      (hbefore : s.packets (.hand t) = (s.heap pFrame).packet)
      (hafter : s'.packets (.hand t) = hand.flatMap fun f => (s.heap f).packet) :
      PacketMove t s s' (lost.flatMap fun f => (s.heap f).packet)

/-- What a step does to one queue, to the hand of its thread and to the freed packets makes
up for what it allocates and drops. -/
theorem packets_balanced
    {lost : List PktId} (q : QueueId)
    (hbeside : ∀ t', t' ≠ t → s'.packets (.hand t') = s.packets (.hand t'))
    (hqueues : ∀ q', q' ≠ q → s'.packets (.queue q') = s.packets (.queue q'))
    (hsupply : s.nextPkt ≤ s'.nextPkt)
    (hcount : ∀ a, (s'.packets (.queue q)).count a + (s'.packets (.hand t)).count a +
        s'.freedPkts.count a + lost.count a =
      (s.packets (.queue q)).count a + (s.packets (.hand t)).count a +
        s.freedPkts.count a + issued s.nextPkt s'.nextPkt a) :
    Balanced s.packets s.nextPkt s'.packets s'.nextPkt lost where
  supply := hsupply
  balance := by
    intro a
    have hsplit : s'.packets = Function.update (Function.update (Function.update
        s.packets (.queue q) (s'.packets (.queue q))) (.hand t) (s'.packets (.hand t)))
        .freed s'.freedPkts := by
      funext p
      cases p with
      | freed =>
          rw [Function.update_self]
          rfl
      | hand t' =>
          rw [Function.update_of_ne (by simp)]
          by_cases ht : t' = t
          · rw [ht, Function.update_self]
          · rw [Function.update_of_ne (by simpa using ht),
              Function.update_of_ne (by simp)]
            exact hbeside t' ht
      | queue q' =>
          rw [Function.update_of_ne (by simp), Function.update_of_ne (by simp)]
          by_cases hq : q' = q
          · rw [hq, Function.update_self]
          · rw [Function.update_of_ne (by simpa using hq)]
            exact hqueues q' hq
    have hfreed := held_update (Function.update (Function.update
      s.packets (.queue q) (s'.packets (.queue q))) (.hand t) (s'.packets (.hand t)))
      .freed s'.freedPkts a
    have hhand := held_update (Function.update s.packets (.queue q)
      (s'.packets (.queue q))) (.hand t) (s'.packets (.hand t)) a
    have hqueue := held_update s.packets (.queue q) (s'.packets (.queue q)) a
    have hcounted := hcount a
    have hold : s.packets .freed = s.freedPkts := rfl
    rw [← hsplit, Function.update_of_ne (by simp), Function.update_of_ne (by simp),
      hold] at hfreed
    rw [Function.update_of_ne (by simp)] at hhand
    omega

theorem PacketMove.balanced
    {lost : List PktId} (hmove : PacketMove t s s' lost)
    (hbeside : ∀ t', t' ≠ t → s'.packets (.hand t') = s.packets (.hand t'))
    (hqueues : ∀ q, (s'.queue q).contents = (s.queue q).contents →
      s'.packets (.queue q) = s.packets (.queue q)) :
    Balanced s.packets s.nextPkt s'.packets s'.nextPkt lost := by
  have hall : s'.queue = s.queue → ∀ q, s'.packets (.queue q) = s.packets (.queue q) :=
    fun hsame q => hqueues q (by rw [hsame])
  have hothers : ∀ {q contents}, s'.queue = Function.update s.queue q contents →
      ∀ q', q' ≠ q → s'.packets (.queue q') = s.packets (.queue q') := by
    intro q contents hupdate q' hne
    refine hqueues q' ?_
    rw [hupdate, Function.update_of_ne hne]
  have hchanged : ∀ {q contents}, s'.queue = Function.update s.queue q contents →
      s'.heap = s.heap →
      s'.packets (.queue q) = contents.contents.flatMap fun f => (s.heap f).packet := by
    intro q contents hupdate hheap
    show (s'.queue q).contents.flatMap (fun f => (s'.heap f).packet) = _
    rw [hupdate, Function.update_self, hheap]
  cases hmove with
  | walks hqueue hfreed hnext hhand =>
      refine packets_balanced .pYUVQueue hbeside (fun q' _ => hall hqueue q') hnext.ge ?_
      intro a
      rw [hall hqueue, hhand, hfreed, hnext, issued_self, List.count_nil]
  | allocates lost hqueue hfreed hnext hhand =>
      refine packets_balanced .pYUVQueue hbeside (fun q' _ => hall hqueue q')
        (by rw [hnext]; exact Nat.le_succ _) ?_
      intro a
      have hcount := congrArg (List.count a) hhand
      simp only [List.count_append] at hcount
      rw [hall hqueue, hfreed, hnext, issued_succ]
      omega
  | releases pFrame hqueue hfreed hnext hhand =>
      refine packets_balanced .pYUVQueue hbeside (fun q' _ => hall hqueue q') hnext.ge ?_
      intro a
      rw [hall hqueue, hhand, hfreed, hnext, issued_self, List.count_append,
        List.count_append, List.count_nil]
      omega
  | takes q contents taken hqueue hheap hfreed hnext htaken hbefore hafter =>
      refine packets_balanced q hbeside (hothers hqueue) hnext.ge ?_
      intro a
      have hold : s.packets (.queue q) = (taken.flatMap fun f => (s.heap f).packet) ++
          contents.contents.flatMap fun f => (s.heap f).packet := by
        rw [← List.flatMap_append, htaken]
        rfl
      rw [hchanged hqueue hheap, hold, hbefore, hafter, hfreed, hnext, issued_self,
        List.count_append, List.count_nil]
      omega
  | offers q contents pFrame stored hand lost hqueue hheap hfreed hnext hstored haccount
      hbefore hafter =>
      refine packets_balanced q hbeside (hothers hqueue) hnext.ge ?_
      intro a
      have hone := congrArg (fun l => (l.flatMap fun f => (s.heap f).packet).count a) haccount
      simp only [List.flatMap_append, List.count_append, List.flatMap_singleton] at hone
      have hold : s.packets (.queue q) =
          (s.queue q).contents.flatMap fun f => (s.heap f).packet := rfl
      rw [hchanged hqueue hheap, hold, hstored, hbefore, hafter, hfreed, hnext, issued_self,
        List.flatMap_append, List.count_append]
      omega

/-! ### The parts of a step -/

theorem mediaFrameRelease_freedPkts
    (s : PipelineState) (pFrame : FrameId) :
    (s.mediaFrameRelease pFrame).freedPkts = (s.heap pFrame).packet ++ s.freedPkts := by
  have hput : ∀ (s : PipelineState) pFrame,
      (s.putMediaFrame pFrame).freedPkts = s.freedPkts := by
    intro s pFrame
    simp only [PipelineState.putMediaFrame]
    split <;> rfl
  simp only [PipelineState.mediaFrameRelease, MediaFrame.packet]
  cases (s.heap pFrame).release with
  | null => rfl
  | releasePkt => exact hput _ pFrame
  | releasePktBuffer => exact hput _ pFrame

theorem getMediaFrame_freedPkts
    (s : PipelineState) : s.getMediaFrame.2.freedPkts = s.freedPkts := by
  simp only [PipelineState.getMediaFrame]
  split <;> rfl

/-- Writing a frame leaves what its release does. -/
theorem writtenFrame_packet
    (pHandle : KoalaMuxer) (stream : StreamType) (frame : MediaFrame) :
    (writtenFrame pHandle stream frame).packet = frame.packet ∧
    (writtenFrame pHandle stream frame).release = frame.release := by
  simp only [writtenFrame]
  split
  · exact ⟨rfl, rfl⟩
  · simp only [rebase]
    split <;> exact ⟨rfl, rfl⟩

theorem packets_device
    {pc : DevicePc} (hpc : s.device = pc) :
    s.packets (.hand .device) = pc.carriedPkts s.heap :=
  congrArg (DevicePc.carriedPkts s.heap) hpc

theorem packets_encoder
    {e : EncoderId} {pc : EncoderPc} (hpc : s.encoder e = pc) :
    s.packets (.hand (.encoder e)) = pc.carriedPkts s.heap :=
  congrArg (EncoderPc.carriedPkts s.heap) hpc

theorem packets_mux
    {pc : MuxPc} (hpc : s.mux = pc) :
    s.packets (.hand .mux) = pc.carriedPkts s.heap :=
  congrArg (MuxPc.carriedPkts s.heap) hpc

theorem packets_setEncoder
    (s : PipelineState) (e : EncoderId) (pc : EncoderPc) :
    (s.setEncoder e pc).packets (.hand (.encoder e)) = pc.carriedPkts s.heap :=
  congrArg (EncoderPc.carriedPkts s.heap) (Function.update_self _ _ _)

theorem afterSize_carriedPkts
    (q : QueueId) (heap : FrameId → MediaFrame) : (afterSize q).carriedPkts heap = [] := by
  cases q <;> rfl

theorem routeFrame_carriedPkts
    (cfg : StreamerConfig) (streamIndex : Int) (pFrame : FrameId)
    (heap : FrameId → MediaFrame) :
    (routeFrame cfg streamIndex pFrame).carriedPkts heap = (heap pFrame).packet := by
  have hone : [pFrame].flatMap (fun f => (heap f).packet) = (heap pFrame).packet :=
    List.flatMap_singleton _ _
  simp only [routeFrame]
  split
  · exact hone
  · split <;> exact hone

/-- A thread that holds one filled frame carries its packet. -/
theorem flatMap_packet
    (heap : FrameId → MediaFrame) (pFrame : FrameId) :
    [pFrame].flatMap (fun f => (heap f).packet) = (heap pFrame).packet :=
  List.flatMap_singleton _ _

/-! ### The threads -/

/-- How a step of the device thread moves packets. -/
theorem deviceStep_packets
    {answer : DeviceAnswer}
    (h : deviceStep cfg s answer = some (s', es)) :
    PacketMove .device s s' (droppedPackets s (.device answer)) := by
  simp only [droppedPackets, lostFrames, List.append_nil]
  cases deviceStep_case h with
  | loopHead hpc =>
      simp only [hpc]
      refine .walks rfl rfl rfl ?_
      rw [packets_device hpc]
      cases hstop : s.stop <;> rfl
  | reads hpc =>
      simp only [hpc]
      refine .allocates [] rfl rfl rfl ?_
      rw [packets_device hpc]
      rfl
  | getsFrame pkt streamIndex hpc =>
      simp only [hpc]
      refine .walks (getMediaFrame_same s).1.queue (getMediaFrame_freedPkts s)
        (getMediaFrame_nextPkt s) ?_
      rw [packets_device hpc]
      rfl
  | fills pkt streamIndex pFrame hpc =>
      simp only [hpc]
      refine .walks rfl rfl rfl ?_
      rw [packets_device hpc]
      refine (flatMap_packet _ _).trans ?_
      show (Function.update s.heap pFrame _ pFrame).packet = [pkt]
      rw [Function.update_self]
      rfl
  | routes streamIndex pFrame hpc =>
      simp only [hpc]
      refine .walks rfl rfl rfl ?_
      rw [packets_device hpc]
      exact (routeFrame_carriedPkts cfg streamIndex pFrame s.heap).trans
        (flatMap_packet _ _).symm
  | waits q pFrame hpc hfull =>
      simp only [hpc]
      refine .walks rfl rfl rfl ?_
      rw [packets_device hpc]
      rfl
  | puts q pFrame hpc hroom =>
      simp only [hpc]
      refine .offers q _ pFrame _ [] [] rfl rfl rfl rfl (enqueuePut_contents _ _) ?_
        ((packets_device hpc).trans (flatMap_packet _ _)) rfl
      simp [enqueuePut_stored, hroom]
  | wakes q pFrame hpc =>
      simp only [hpc]
      exact .offers q _ pFrame _ [] _ rfl rfl rfl rfl (enqueueWake_contents _ _ _)
        (enqueueWake_accounts_ignored _ _ _)
        ((packets_device hpc).trans (flatMap_packet _ _)) rfl
  | releases pFrame hpc =>
      simp only [hpc]
      refine .releases pFrame (mediaFrameRelease_same s pFrame).1.queue
        (mediaFrameRelease_freedPkts s pFrame) (mediaFrameRelease_nextPkt s pFrame) ?_
      rw [packets_device hpc]
      exact (flatMap_packet _ _).trans (List.append_nil _).symm
  | selects q hpc hlong =>
      simp only [hpc]
      refine .walks rfl rfl rfl ?_
      rw [packets_device hpc]
      rfl
  | skips q hpc hshort =>
      simp only [hpc]
      refine .walks rfl rfl rfl ?_
      rw [packets_device hpc]
      exact afterSize_carriedPkts q s.heap
  | enters q hpc =>
      simp only [hpc]
      refine .walks rfl rfl rfl ?_
      rw [packets_device hpc]
      rfl
  | cleanEnds q size hpc hpass =>
      simp only [hpc]
      refine .walks rfl rfl rfl ?_
      rw [packets_device hpc]
      exact afterSize_carriedPkts q s.heap
  | cleans q size p hpc hpass hremoved =>
      have hcontents := (cleanPass_contents hpass).1
      rw [hremoved] at hcontents
      simp only [hpc]
      refine .takes q _ [] rfl rfl rfl rfl hcontents (packets_device hpc) ?_
      rw [packets_device rfl]
      show DevicePc.carriedPkts s.heap (if p.stop then _ else _) = []
      split
      · exact afterSize_carriedPkts q s.heap
      · rfl
  | removes q size p pFrame hpc hpass hremoved =>
      have hcontents := (cleanPass_contents hpass).1
      rw [hremoved] at hcontents
      simp only [hpc]
      exact .takes q _ [pFrame] rfl rfl rfl rfl hcontents (packets_device hpc) rfl
  | cleanReleases q size stop pFrame hpc =>
      simp only [hpc]
      refine .releases pFrame (mediaFrameRelease_same s pFrame).1.queue
        (mediaFrameRelease_freedPkts s pFrame) (mediaFrameRelease_nextPkt s pFrame) ?_
      rw [packets_device hpc, packets_device rfl]
      show _ = _ ++ DevicePc.carriedPkts _ (if stop then _ else _)
      split
      · rw [afterSize_carriedPkts, List.append_nil]
        exact flatMap_packet _ _
      · exact (flatMap_packet _ _).trans (List.append_nil _).symm

/-- `dequeue` returns to an encoder thread. -/
theorem encoderDequeued_packets
    {e : EncoderId} {d : DequeueExit FrameId}
    (hbefore : s.packets (.hand (.encoder e)) = [])
    (htaken : d.ret.toList ++ d.queue.contents = (s.queue e.input).contents) :
    PacketMove (.encoder e) s (encoderDequeued s e d).1 [] := by
  refine .takes e.input d.queue d.ret.toList rfl rfl rfl rfl htaken hbefore ?_
  refine (packets_setEncoder _ e _).trans ?_
  cases d.ret <;> rfl

/-- How a step of an encoder thread moves packets. -/
theorem encoderStep_packets
    {e : EncoderId} {answer : EncoderAnswer}
    (h : encoderStep s e answer = some (s', es)) :
    PacketMove (.encoder e) s s' (droppedPackets s (.encoder e answer)) := by
  simp only [droppedPackets, lostFrames]
  cases encoderStep_case h with
  | exits hpc hstatus =>
      simp only [hpc]
      exact .walks rfl rfl rfl ((packets_setEncoder s e _).trans (packets_encoder hpc).symm)
  | pauses hpc hstatus =>
      simp only [hpc]
      exact .walks rfl rfl rfl rfl
  | loops hpc hstatus =>
      simp only [hpc]
      exact .walks rfl rfl rfl ((packets_setEncoder s e _).trans (packets_encoder hpc).symm)
  | dequeueWaits hpc hlocked hempty =>
      simp only [hpc]
      exact .walks rfl rfl rfl ((packets_setEncoder s e _).trans (packets_encoder hpc).symm)
  | gets hpc hlocked hsome =>
      simp only [hpc]
      exact encoderDequeued_packets (packets_encoder hpc) (dequeueGet_contents _)
  | dequeueWakes hpc hlocked =>
      simp only [hpc]
      exact encoderDequeued_packets (packets_encoder hpc) (dequeueWake_contents _ _)
  | deals pFrame hpc =>
      simp only [hpc]
      have hbefore : s.packets (.hand (.encoder e)) = (s.heap pFrame).packet :=
        (packets_encoder hpc).trans (flatMap_packet _ _)
      cases hencoded : answer.encoded with
      | kept =>
          refine .walks rfl rfl rfl ?_
          rw [hbefore]
          exact (packets_setEncoder s e _).trans (List.append_nil _)
      | nothing =>
          refine .allocates [s.nextPkt] rfl rfl rfl ?_
          rw [hbefore]
          refine congrArg (fun l => l ++ [s.nextPkt]) ?_
          exact (packets_setEncoder s e _).trans (List.append_nil _)
      | got out =>
          refine .allocates [] rfl rfl rfl ?_
          rw [hbefore, List.append_nil]
          exact packets_setEncoder s e _
  | releasesEncoded pFrame pkt out hpc =>
      simp only [hpc]
      refine .releases pFrame (mediaFrameRelease_same s pFrame).1.queue
        (mediaFrameRelease_freedPkts s pFrame) (mediaFrameRelease_nextPkt s pFrame) ?_
      rw [packets_encoder hpc, packets_setEncoder]
      rfl
  | releasesInput pFrame hpc =>
      simp only [hpc]
      refine .releases pFrame (mediaFrameRelease_same s pFrame).1.queue
        (mediaFrameRelease_freedPkts s pFrame) (mediaFrameRelease_nextPkt s pFrame) ?_
      rw [packets_encoder hpc, packets_setEncoder]
      rfl
  | getsFrame pkt out hpc =>
      simp only [hpc]
      refine .walks (getMediaFrame_same s).1.queue (getMediaFrame_freedPkts s)
        (getMediaFrame_nextPkt s) ?_
      rw [packets_encoder hpc]
      exact packets_setEncoder _ e _
  | fills pkt out pFrame hpc =>
      simp only [hpc]
      refine .walks rfl rfl rfl ?_
      rw [packets_encoder hpc, packets_setEncoder]
      refine (flatMap_packet _ _).trans ?_
      show (Function.update s.heap pFrame _ pFrame).packet = [pkt]
      rw [Function.update_self]
      rfl
  | enqueueWaits pFrame hpc hlocked hfull =>
      simp only [hpc]
      exact .walks rfl rfl rfl ((packets_setEncoder s e _).trans (packets_encoder hpc).symm)
  | puts pFrame hpc hlocked hroom =>
      simp only [hpc]
      refine .offers e.output _ pFrame _ [] [] rfl rfl rfl rfl (enqueuePut_contents _ _) ?_
        ((packets_encoder hpc).trans (flatMap_packet _ _)) ?_
      · simp [enqueuePut_stored, hroom]
      · refine (packets_setEncoder _ e _).trans ?_
        rw [enqueuePut_ret]
        rfl
  | enqueueWakes pFrame hpc hlocked =>
      simp only [hpc, List.append_nil]
      refine .offers e.output _ pFrame _ _ _ rfl rfl rfl rfl (enqueueWake_contents _ _ _)
        (enqueueWake_accounts _ _ _) ((packets_encoder hpc).trans (flatMap_packet _ _)) ?_
      exact packets_setEncoder _ e _
  | retries pFrame ret hpc hneg hretry =>
      simp only [hpc]
      refine .walks rfl rfl rfl ?_
      rw [packets_encoder hpc, packets_setEncoder]
      simp only [EncoderPc.carriedPkts, EncoderPc.hand, if_pos hneg]
  | givesUp pFrame ret hpc hneg hretry =>
      simp only [hpc]
      refine .walks rfl rfl rfl ?_
      rw [packets_encoder hpc, packets_setEncoder]
      simp only [EncoderPc.carriedPkts, EncoderPc.hand, if_pos hneg]
  | hasEnqueued pFrame ret hpc hneg =>
      simp only [hpc]
      refine .walks rfl rfl rfl ?_
      rw [packets_encoder hpc, packets_setEncoder]
      simp only [EncoderPc.carriedPkts, EncoderPc.hand, if_neg hneg]
  | releases pFrame hpc =>
      simp only [hpc]
      refine .releases pFrame (mediaFrameRelease_same s pFrame).1.queue
        (mediaFrameRelease_freedPkts s pFrame) (mediaFrameRelease_nextPkt s pFrame) ?_
      rw [packets_encoder hpc, packets_setEncoder]
      exact (flatMap_packet _ _).trans (List.append_nil _).symm

theorem muxPassEnd_packets
    (s : PipelineState) (stream : StreamType) (ret : Int) (ended : Bool) :
    (muxPassEnd s stream ret ended).packets (.hand .mux) = [] := by
  cases ended <;> rfl

/-- How a step of the mux thread moves packets. -/
theorem muxThreadStep_packets
    {answer : MuxAnswer}
    (h : muxThreadStep lib s answer = some (s', es)) :
    PacketMove .mux s s' [] := by
  cases muxThreadStep_case h with
  | gets stream again hpc hlocked hsome =>
      exact .takes stream.queue _ _ rfl rfl rfl rfl (dequeueGet_contents _)
        (packets_mux hpc) rfl
  | dequeueWakes stream again hpc hlocked =>
      exact .takes stream.queue _ _ rfl rfl rfl rfl (dequeueWake_contents _ _)
        (packets_mux hpc) rfl
  | callbackReleases stream pFrame hpc =>
      refine .releases pFrame (mediaFrameRelease_same s pFrame).1.queue
        (mediaFrameRelease_freedPkts s pFrame) (mediaFrameRelease_nextPkt s pFrame) ?_
      rw [packets_mux hpc]
      exact (flatMap_packet _ _).trans (List.append_nil _).symm
  | callbackEnds stream hpc =>
      refine .walks rfl rfl rfl ?_
      rw [muxPassEnd_packets, packets_mux hpc]
      rfl
  | writes stream pFrame hpc =>
      refine .walks rfl rfl rfl ?_
      rw [packets_mux hpc]
      refine (flatMap_packet _ _).trans ?_
      show (Function.update s.heap pFrame _ pFrame).packet = _
      rw [Function.update_self, (writtenFrame_packet _ _ _).1]
      exact (flatMap_packet _ _).symm
  | releases stream pFrame ret hpc =>
      refine .releases pFrame (mediaFrameRelease_same s pFrame).1.queue
        (mediaFrameRelease_freedPkts s pFrame) (mediaFrameRelease_nextPkt s pFrame) ?_
      rw [muxPassEnd_packets, packets_mux hpc]
      exact (flatMap_packet _ _).trans (List.append_nil _).symm
  | exits hpc hselect =>
      exact .walks rfl rfl rfl (packets_mux hpc).symm
  | selects stream hpc hselect hhave =>
      exact .walks rfl rfl rfl (packets_mux hpc).symm
  | skips stream hpc hselect hhave =>
      exact .walks rfl rfl rfl (packets_mux hpc).symm
  | dequeueWaits stream again hpc hlocked hempty =>
      exact .walks rfl rfl rfl (packets_mux hpc).symm
  | stopsWithFrame stream again pFrame hpc hstop =>
      exact .walks rfl rfl rfl (packets_mux hpc).symm
  | stops stream again hpc hstop =>
      exact .walks rfl rfl rfl (packets_mux hpc).symm
  | obtains stream again pFrame hpc hstop =>
      exact .walks rfl rfl rfl (packets_mux hpc).symm
  | asksAgain stream again hpc hstop =>
      exact .walks rfl rfl rfl (packets_mux hpc).symm

/-- Every step of the pipeline is balanced, up to the packets it drops. -/
theorem pipelineStep_packetsBalanced
    (honce : AtMostOnce s.custody s.nextFrame) (hstart : StartInv s)
    (h : pipelineStep cfg lib s a = some (s', es)) :
    Balanced s.packets s.nextPkt s'.packets s'.nextPkt (droppedPackets s a) := by
  have hqueues : ∀ q, (s'.queue q).contents = (s.queue q).contents →
      s'.packets (.queue q) = s.packets (.queue q) :=
    fun q => packets_queue_beside honce h
  cases a with
  | device answer =>
      exact (deviceStep_packets h).balanced
        (fun t' hne => packets_hand_beside honce h rfl hne) hqueues
  | encoder e answer =>
      exact (encoderStep_packets h).balanced
        (fun t' hne => packets_hand_beside honce h rfl hne) hqueues
  | mux answer =>
      exact (muxThreadStep_packets h).balanced
        (fun t' hne => packets_hand_beside honce h rfl hne) hqueues
  | start e =>
      simp only [pipelineStep] at h
      split at h
      · rename_i hnull
        obtain ⟨hs, -⟩ := Prod.mk.inj (Option.some.inj h)
        -- the new thread has nothing in its hand
        have hhand : s'.packets (.hand (.encoder e)) = s.packets (.hand (.encoder e)) := by
          rw [← hs, packets_encoder (hstart e hnull)]
          exact packets_setEncoder s e _
        have hmove : PacketMove (.encoder e) s s' [] := by
          rw [← hs] at hhand ⊢
          exact .walks rfl rfl rfl hhand
        refine hmove.balanced (fun t' hne => ?_) hqueues
        rw [← hs]
        cases t' with
        | encoder e' =>
            refine packets_encoder ((setEncoder_encoder s e e' _).trans (if_neg ?_))
            rintro rfl
            exact hne rfl
        | _ => rfl
      · obtain ⟨rfl, -⟩ := Prod.mk.inj (Option.some.inj h)
        exact (PacketMove.walks (t := .device) rfl rfl rfl rfl).balanced
          (fun _ _ => rfl) hqueues
  | startMux =>
      simp only [pipelineStep] at h
      split at h
      · rename_i hpc
        obtain ⟨hs, -⟩ := Prod.mk.inj (Option.some.inj h)
        have hhand : s'.packets (.hand .mux) = s.packets (.hand .mux) := by
          rw [← hs, packets_mux hpc]
          rfl
        have hmove : PacketMove .mux s s' [] := by
          rw [← hs] at hhand ⊢
          exact .walks rfl rfl rfl hhand
        refine hmove.balanced (fun t' hne => ?_) hqueues
        rw [← hs]
        cases t' with
        | mux => exact absurd rfl hne
        | _ => rfl
      · obtain ⟨rfl, -⟩ := Prod.mk.inj (Option.some.inj h)
        exact (PacketMove.walks (t := .device) rfl rfl rfl rfl).balanced
          (fun _ _ => rfl) hqueues
  | setStop =>
      obtain ⟨rfl, -⟩ := Prod.mk.inj (Option.some.inj h)
      exact (PacketMove.walks (t := .device) rfl rfl rfl rfl).balanced
        (fun _ _ => rfl) hqueues
  | _ =>
      simp only [pipelineStep] at h
      split at h <;> obtain ⟨rfl, -⟩ := Prod.mk.inj (Option.some.inj h) <;>
        exact (PacketMove.walks (t := .device) rfl rfl rfl rfl).balanced
          (fun _ _ => rfl) hqueues

end Moves

end KoalaStreamer
