import KoalaStreamer.Library.RunRules
import KoalaStreamer.MuxRefinement
import KoalaStreamer.PacketOwnership
import KoalaStreamer.PlainPipeline

/-!
# A recycled frame is as good as a new one

`getMediaFrame` gives out frames with the content of their former life, and only some of
the fields are set again: a raw frame keeps the size, the time stamps and the flag of the
encoded frame it was before.  Nobody sees this.  With every frame read as if it had just
been created, the pipeline takes the steps of the one without a pool, and no others.

Main results:
* `recycling_unobservable`: the pipeline and the one without a pool have the same runs;
* `pool_capacity_unobservable`: so what is written, freed and queued does not depend on the
  capacity of the pool.
-/

namespace KoalaStreamer

open EventMachine TokenAccounting

/-! ## What is left of a frame without its address -/

section View

/-- The frame, had it been created for what it carries now. -/
def MediaFrame.asNew (frame : MediaFrame) : MediaFrame :=
  match frame.release with
  | .releasePkt =>
      mediaFrameSetRelease { mediaFrameCreate with pBuffer := frame.pBuffer }
        .releasePkt frame.releaseArg
  | _ => frame

theorem asNew_of_encoded
    {frame : MediaFrame} (h : frame.release = .releasePktBuffer) : frame.asNew = frame := by
  rw [MediaFrame.asNew, h]

@[simp] theorem asNew_release
    (frame : MediaFrame) : frame.asNew.release = frame.release := by
  simp only [MediaFrame.asNew]
  split
  · rename_i h
    rw [h]
    rfl
  · rfl

@[simp] theorem asNew_pBuffer
    (frame : MediaFrame) : frame.asNew.pBuffer = frame.pBuffer := by
  simp only [MediaFrame.asNew]
  split <;> rfl

@[simp] theorem asNew_releaseArg
    (frame : MediaFrame) : frame.asNew.releaseArg = frame.releaseArg := by
  simp only [MediaFrame.asNew]
  split <;> rfl

variable (seen : FrameId → MediaFrame)

def DevicePc.plain : DevicePc → PlainDevicePc
  | .loopHead => .loopHead
  | .reading => .reading
  | .getting pkt streamIndex => .getting pkt streamIndex
  | .filling pkt streamIndex _ => .filling pkt streamIndex
  | .routing streamIndex pFrame => .routing streamIndex (seen pFrame)
  | .enqueueing q pFrame => .enqueueing q (seen pFrame)
  | .enqueueWaiting q pFrame => .enqueueWaiting q (seen pFrame)
  | .releasing pFrame => .releasing (seen pFrame)
  | .sizing q => .sizing q
  | .entering q => .entering q
  | .cleaning q size => .cleaning q size
  | .cleanReleasing q size stop pFrame => .cleanReleasing q size stop (seen pFrame)
  | .exited => .exited

def EncoderPc.plain : EncoderPc → PlainEncoderPc
  | .notCreated => .notCreated
  | .runLoop => .runLoop
  | .dequeueing => .dequeueing
  | .dequeueWaiting => .dequeueWaiting
  | .dealing pFrame => .dealing (seen pFrame)
  | .inputReleasing pFrame out => .inputReleasing (seen pFrame) out
  | .getting pkt out => .getting pkt out
  | .filling pkt out _ => .filling pkt out
  | .enqueueing pFrame => .enqueueing (seen pFrame)
  | .enqueueWaiting pFrame => .enqueueWaiting (seen pFrame)
  | .enqueued pFrame ret => plainEnqueued (seen pFrame) ret
  | .releasing pFrame => .releasing (seen pFrame)
  | .exited => .exited

def MuxPc.plain : MuxPc → PlainMuxPc
  | .notCreated => .notCreated
  | .loopHead => .loopHead
  | .dequeueing stream again => .dequeueing stream again
  | .dequeueWaiting stream again => .dequeueWaiting stream again
  | .dequeued stream again pFrame => .dequeued stream again (pFrame.map seen)
  | .callbackReleasing stream pFrame => .callbackReleasing stream (seen pFrame)
  | .callbackEnd stream => .callbackEnd stream
  | .writing stream pFrame => .writing stream (seen pFrame)
  | .releasing stream pFrame ret => .releasing stream (seen pFrame) ret
  | .exited => .exited

def PipelineEvent.plain : PipelineEvent → PlainEvent
  | .released t pFrame => .released t (seen pFrame)
  | .enqueueReturned t q pFrame ret => .enqueueReturned t q (seen pFrame) ret

/-- What a queue holds, with the bound on their number. -/
def FiFo.toBounded {T : Type} (q : FiFo T) : BoundedList T :=
  ⟨q.capacity, q.contents, q.length_le⟩

/-- The frames of a queue, without their addresses. -/
def FiFo.plain (q : FiFo FrameId) : BoundedList MediaFrame :=
  q.toBounded.map seen

/-- The state without addresses, the frames read by `seen`. -/
def PipelineState.plainBy (s : PipelineState) : PlainState where
  queue := fun q => (s.queue q).plain seen
  nextPkt := s.nextPkt
  freedPkts := s.freedPkts
  stop := s.stop
  device := s.device.plain seen
  mStatus := s.mStatus
  encoder := fun e => (s.encoder e).plain seen
  mux := s.mux.plain seen
  pHandle := s.pHandle
  encode := s.encode

/-- A frame, read as if it had just been created. -/
def PipelineState.look (s : PipelineState) (pFrame : FrameId) : MediaFrame :=
  (s.heap pFrame).asNew

/-- What the state is in the pipeline without a pool. -/
def PipelineState.plain (s : PipelineState) : PlainState :=
  s.plainBy s.look

/-- What a step is in the pipeline without a pool. -/
def PipelineTransition.plain : PipelineTransition → PlainTransition :=
  Transition.map PipelineState.plain fun s es => es.map (PipelineEvent.plain s.look)

end View

/-! ## The sections of a queue -/

section Queues

variable (seen : FrameId → MediaFrame) (q : FiFo FrameId) (pFrame : FrameId) (wait : Int)

@[simp] theorem plain_items :
    (q.plain seen).items = q.contents.map seen := by
  rfl

theorem toBounded_isFull :
    q.toBounded.isFull = q.isFull := by
  rw [Bool.eq_iff_iff, FiFo.isFull_iff, BoundedList.isFull, decide_eq_true_eq]
  exact Iff.rfl

@[simp] theorem plain_isFull :
    (q.plain seen).isFull = q.isFull :=
  (BoundedList.isFull_map _ _).trans (toBounded_isFull q)

theorem toBounded_enqueuePut :
    (enqueuePut q pFrame).queue.toBounded = q.toBounded.put pFrame := by
  cases hfull : q.isFull with
  | true =>
      have hisFull : q.toBounded.isFull = true := (toBounded_isFull q).trans hfull
      rw [(enqueuePut_full pFrame hfull).2]
      refine BoundedList.ext rfl ?_
      rw [BoundedList.items_put, if_pos hisFull]
  | false =>
      have hisFull : ¬ q.toBounded.isFull = true := by
        rw [toBounded_isFull, hfull]
        exact Bool.false_ne_true
      refine BoundedList.ext (enqueuePut_capacity q pFrame) ?_
      rw [BoundedList.items_put, if_neg hisFull]
      exact (enqueuePut_room pFrame hfull).2

theorem toBounded_rest :
    q.get.2.toBounded = q.toBounded.rest :=
  BoundedList.ext (FiFo.capacity_get q) (FiFo.contents_get q)

theorem plain_init
    (capacity : ℕ) :
    (FiFo.init capacity : FiFo FrameId).plain seen = BoundedList.empty capacity :=
  BoundedList.ext rfl rfl

theorem plain_enqueuePut :
    (enqueuePut q pFrame).queue.plain seen = (q.plain seen).put (seen pFrame) := by
  rw [FiFo.plain, toBounded_enqueuePut]
  exact BoundedList.map_put seen q.toBounded pFrame

theorem plain_enqueueWake :
    ((enqueueWake q pFrame wait).ret, (enqueueWake q pFrame wait).queue.plain seen) =
      plainEnqueueWake (q.plain seen) (seen pFrame) wait := by
  simp only [enqueueWake, plainEnqueueWake]
  split
  · rfl
  · exact Prod.ext rfl (plain_enqueuePut seen q pFrame)

theorem plain_rest :
    q.get.2.plain seen = (q.plain seen).rest := by
  rw [FiFo.plain, toBounded_rest]
  exact BoundedList.map_rest seen q.toBounded

theorem plain_dequeueGet :
    ((dequeueGet q).ret.map seen, (dequeueGet q).queue.plain seen) =
      ((q.plain seen).items.head?, (q.plain seen).rest) := by
  refine Prod.ext ?_ (plain_rest seen q)
  simp [dequeueGet]

theorem plain_dequeueWake :
    ((dequeueWake q wait).ret.map seen, (dequeueWake q wait).queue.plain seen) =
      plainDequeueWake (q.plain seen) wait := by
  simp only [dequeueWake, plainDequeueWake]
  split
  · rfl
  · exact plain_dequeueGet seen q

/-- A pass of `cleanIf`, by the head of the queue. -/
theorem cleanPass_eq
    {σ : Type} (func : CleanIt σ FrameId) (arg : σ) :
    cleanPass (some func) arg q =
      q.contents.head?.map fun f =>
        if (func arg f).1 &&& cleanFlagClean ≠ 0 then
          { removed := some f, queue := q.get.2, arg := (func arg f).2
            stop := (func arg f).1 &&& cleanFlagStop ≠ 0 }
        else
          { removed := none, queue := q, arg := (func arg f).2
            stop := (func arg f).1 &&& cleanFlagStop ≠ 0 } := by
  simp only [cleanPass, FiFo.size_eq, FiFo.peak_eq, cleanFlags]
  cases q.contents with
  | nil =>
      rfl
  | cons f fs =>
      simp only [List.length_cons, List.head?_cons, Option.map_some]
      rw [if_pos (Nat.succ_pos _)]
      exact (apply_ite some _ _ _).symm

end Queues

/-! ## The parts of a step -/

section Parts

variable {s : PipelineState} {t : PipelineThread} {seen seen' : FrameId → MediaFrame}

theorem plainBy_setDevice
    (s : PipelineState) (pc : DevicePc) :
    (s.setDevice pc).plainBy seen = (s.plainBy seen).setDevice (pc.plain seen) := by
  rfl

theorem plainBy_setEncoder
    (s : PipelineState) (e : EncoderId) (pc : EncoderPc) :
    (s.setEncoder e pc).plainBy seen = (s.plainBy seen).setEncoder e (pc.plain seen) := by
  have hencoder : (fun e' => (Function.update s.encoder e pc e').plain seen) =
      Function.update (fun e' => (s.encoder e').plain seen) e (pc.plain seen) := by
    funext e'
    exact Function.apply_update (fun _ => EncoderPc.plain seen) s.encoder e pc e'
  simp only [PipelineState.plainBy, PipelineState.setEncoder, PlainState.setEncoder, hencoder]

theorem plainBy_setMux
    (s : PipelineState) (pc : MuxPc) :
    (s.setMux pc).plainBy seen = (s.plainBy seen).setMux (pc.plain seen) := by
  rfl

theorem plainBy_setQueue
    (s : PipelineState) (q : QueueId) (frames : FiFo FrameId) :
    (s.setQueue q frames).plainBy seen =
      (s.plainBy seen).setQueue q (frames.plain seen) := by
  have hqueue : (fun q' => (Function.update s.queue q frames q').plain seen) =
      Function.update (fun q' => (s.queue q').plain seen) q (frames.plain seen) := by
    funext q'
    exact Function.apply_update (fun _ => FiFo.plain seen) s.queue q frames q'
  simp only [PipelineState.plainBy, PipelineState.setQueue, PlainState.setQueue, hqueue]

theorem plainBy_locked
    (s : PipelineState) (q : QueueId) : (s.plainBy seen).locked q = s.locked q := by
  simp only [PlainState.locked, PipelineState.locked, PipelineState.plainBy]
  cases s.device <;> rfl

/-- A release looks at what a frame is as a new one. -/
theorem plain_release
    (s : PipelineState) (pFrame : FrameId) :
    (s.mediaFrameRelease pFrame).plain = s.plain.release (s.look pFrame) := by
  have hput : ∀ s' : PipelineState, (s'.putMediaFrame pFrame).plain = s'.plain := by
    intro s'
    simp only [PipelineState.putMediaFrame]
    split <;> rfl
  simp only [PipelineState.mediaFrameRelease, PlainState.release, PipelineState.look,
    asNew_release, asNew_pBuffer, asNew_releaseArg]
  cases (s.heap pFrame).release with
  | null =>
      rfl
  | releasePkt =>
      exact hput _
  | releasePktBuffer =>
      exact hput _

/-! ### Writing to a frame -/

/-- The frames outside the hand of the thread are read alike. -/
def AgreeBeside
    (s : PipelineState) (t : PipelineThread) (seen seen' : FrameId → MediaFrame) : Prop :=
  ∀ p, p ≠ .hand t → ∀ f ∈ s.custody p, seen' f = seen f

theorem FiFo.plain_congr
    {q : FiFo FrameId} (h : ∀ f ∈ q.contents, seen' f = seen f) :
    q.plain seen' = q.plain seen :=
  BoundedList.map_congr h

theorem DevicePc.plain_congr
    {pc : DevicePc} (h : ∀ f ∈ pc.hand, seen' f = seen f) : pc.plain seen' = pc.plain seen := by
  cases pc <;> simp_all [DevicePc.plain, DevicePc.hand]

theorem EncoderPc.plain_congr
    {pc : EncoderPc} (h : ∀ f ∈ pc.hand, seen' f = seen f) : pc.plain seen' = pc.plain seen := by
  cases pc with
  | enqueued pFrame ret =>
      simp only [EncoderPc.plain, plainEnqueued]
      split
      · rename_i hneg
        rw [h pFrame (by simp [EncoderPc.hand, hneg])]
      · rfl
  | _ =>
      simp_all [EncoderPc.plain, EncoderPc.hand]

theorem MuxPc.plain_congr
    {pc : MuxPc} (h : ∀ f ∈ pc.hand, seen' f = seen f) : pc.plain seen' = pc.plain seen := by
  cases pc with
  | dequeued stream again pFrame =>
      cases pFrame <;> simp_all [MuxPc.plain, MuxPc.hand]
  | _ =>
      simp_all [MuxPc.plain, MuxPc.hand]

theorem AgreeBeside.queue
    (h : AgreeBeside s t seen seen') (q : QueueId) :
    (s.queue q).plain seen' = (s.queue q).plain seen :=
  FiFo.plain_congr (h (.queue q) (by simp))

theorem AgreeBeside.device
    (h : AgreeBeside s t seen seen') (ht : t ≠ .device) :
    s.device.plain seen' = s.device.plain seen :=
  DevicePc.plain_congr (h (.hand .device) (by simpa using ht.symm))

theorem AgreeBeside.encoder
    (h : AgreeBeside s t seen seen') {e : EncoderId} (ht : t ≠ .encoder e) :
    (s.encoder e).plain seen' = (s.encoder e).plain seen :=
  EncoderPc.plain_congr (h (.hand (.encoder e)) (by simpa using ht.symm))

theorem AgreeBeside.mux
    (h : AgreeBeside s t seen seen') (ht : t ≠ .mux) :
    s.mux.plain seen' = s.mux.plain seen :=
  MuxPc.plain_congr (h (.hand .mux) (by simpa using ht.symm))

theorem AgreeBeside.setDevice
    (h : AgreeBeside s .device seen seen') (pc : DevicePc) :
    (s.setDevice pc).plainBy seen' = (s.plainBy seen).setDevice (pc.plain seen') := by
  have hencoder : (fun e => (s.encoder e).plain seen') = fun e => (s.encoder e).plain seen :=
    funext fun e => h.encoder (by simp)
  simp only [PipelineState.plainBy, PipelineState.setDevice, PlainState.setDevice,
    funext h.queue, hencoder, h.mux (by simp : PipelineThread.device ≠ .mux)]

theorem AgreeBeside.setEncoder
    {e : EncoderId} (h : AgreeBeside s (.encoder e) seen seen') (pc : EncoderPc) :
    (s.setEncoder e pc).plainBy seen' = (s.plainBy seen).setEncoder e (pc.plain seen') := by
  have hencoder : Function.update (fun e' => (s.encoder e').plain seen') e (pc.plain seen') =
      Function.update (fun e' => (s.encoder e').plain seen) e (pc.plain seen') := by
    funext e'
    by_cases he : e' = e
    · subst he
      rw [Function.update_self, Function.update_self]
    · rw [Function.update_of_ne he, Function.update_of_ne he]
      exact h.encoder (by simpa using Ne.symm he)
  rw [plainBy_setEncoder]
  simp only [PipelineState.plainBy, PlainState.setEncoder, hencoder, funext h.queue,
    h.device (by simp : PipelineThread.encoder e ≠ .device),
    h.mux (by simp : PipelineThread.encoder e ≠ .mux)]

theorem AgreeBeside.setMux
    (h : AgreeBeside s .mux seen seen') (pc : MuxPc) :
    (s.setMux pc).plainBy seen' = (s.plainBy seen).setMux (pc.plain seen') := by
  have hencoder : (fun e => (s.encoder e).plain seen') = fun e => (s.encoder e).plain seen :=
    funext fun e => h.encoder (by simp)
  simp only [PipelineState.plainBy, PipelineState.setMux, PlainState.setMux,
    funext h.queue, hencoder, h.device (by simp : PipelineThread.mux ≠ .device)]

/-- A frame that a thread writes to is in no other place. -/
theorem agreeBeside_setFrame
    (honce : AtMostOnce s.custody s.nextFrame) {pFrame : FrameId}
    (hhand : pFrame ∈ s.custody (.hand t)) (frame : MediaFrame) :
    AgreeBeside s t s.look (s.setFrame pFrame frame).look := by
  intro p hp f hf
  have hne : f ≠ pFrame := by
    rintro rfl
    exact hp (place_unique (honce.le_one f) hf hhand)
  simp only [PipelineState.look, PipelineState.setFrame, Function.update_of_ne hne]

/-- A frame that is created was in no place. -/
theorem agreeBeside_createFrame
    (honce : AtMostOnce s.custody s.nextFrame) :
    AgreeBeside s t s.look s.createFrame.look := by
  intro p _ f hf
  have hne : f ≠ s.nextFrame := by
    rintro rfl
    have hle := honce s.nextFrame
    rw [if_neg (Nat.lt_irrefl _)] at hle
    have hpos : 0 < held s.custody s.nextFrame := held_pos_iff.mpr ⟨p, hf⟩
    omega
  simp only [PipelineState.look, PipelineState.createFrame, Function.update_of_ne hne]

theorem plain_createFrame
    (honce : AtMostOnce s.custody s.nextFrame) : s.createFrame.plain = s.plain := by
  have hdevice : s.device.plain s.createFrame.look = s.device.plain s.look :=
    (agreeBeside_createFrame (t := .mux) honce).device (by simp)
  calc
    s.createFrame.plain = (s.setDevice s.device).plainBy s.createFrame.look := rfl
    _ = s.plain.setDevice (s.device.plain s.createFrame.look) :=
        (agreeBeside_createFrame honce).setDevice s.device
    _ = s.plain := by
        rw [hdevice]
        rfl

theorem plain_getMediaFrame
    (honce : AtMostOnce s.custody s.nextFrame) : s.getMediaFrame.2.plain = s.plain := by
  simp only [PipelineState.getMediaFrame]
  split
  · rfl
  · show s.createFrame.plain = s.plain
    exact plain_createFrame honce

end Parts

/-! ## The steps of the threads -/

section Steps

variable {cfg : StreamerConfig} {lib : LibAv} {s : PipelineState}

/-- A step and its events, without addresses. -/
def PipelineState.plainResult
    (s : PipelineState) (r : PipelineState × List PipelineEvent) :
    PlainState × List PlainEvent :=
  (r.1.plain, r.2.map (PipelineEvent.plain s.look))

theorem plain_device
    {pc : DevicePc} (hpc : s.device = pc) : s.plain.device = pc.plain s.look :=
  congrArg (DevicePc.plain s.look) hpc

theorem plain_encoder
    {e : EncoderId} {pc : EncoderPc} (hpc : s.encoder e = pc) :
    s.plain.encoder e = pc.plain s.look :=
  congrArg (EncoderPc.plain s.look) hpc

theorem plain_mux
    {pc : MuxPc} (hpc : s.mux = pc) : s.plain.mux = pc.plain s.look :=
  congrArg (MuxPc.plain s.look) hpc

@[simp] theorem afterSize_plain
    (seen : FrameId → MediaFrame) (q : QueueId) :
    (afterSize q).plain seen = plainAfterSize q := by
  cases q <;> rfl

theorem routeFrame_plain
    (cfg : StreamerConfig) (seen : FrameId → MediaFrame) (streamIndex : Int)
    (pFrame : FrameId) :
    (routeFrame cfg streamIndex pFrame).plain seen =
      plainRouteFrame cfg streamIndex (seen pFrame) := by
  simp only [routeFrame, plainRouteFrame]
  split
  · rfl
  · split <;> rfl

theorem plain_deviceEnqueued
    (s : PipelineState) (q : QueueId) (pFrame : FrameId) (e : EnqueueExit FrameId) :
    s.plainResult (deviceEnqueued s q pFrame e) =
      plainDeviceEnqueued s.plain q (s.look pFrame) (e.ret, e.queue.plain s.look) := by
  refine Prod.ext ?_ rfl
  exact (plainBy_setDevice _ _).trans
    (congrArg (PlainState.setDevice · _) (plainBy_setQueue s q e.queue))

/-- The callbacks look at what the frames of their queue are as new ones. -/
theorem cleanCallback_plain
    (hlabelled : Labelled s) {q : QueueId} {f : FrameId} (hf : f ∈ (s.queue q).contents)
    (size : Int) :
    cleanCallback s q size f = plainCleanCallback q size (s.look f) := by
  cases q with
  | pVEQueue =>
      have hlook : s.look f = s.heap f := asNew_of_encoded (hlabelled.queue _ f hf)
      simp only [cleanCallback, plainCleanCallback, myCleanQueueV, hlook]
  | _ =>
      rfl

theorem deviceStep_plain
    (honce : AtMostOnce s.custody s.nextFrame) (hlabelled : Labelled s)
    (answer : DeviceAnswer) :
    (deviceStep cfg s answer).map s.plainResult = plainDeviceStep cfg s.plain answer := by
  cases hpc : s.device with
  | loopHead =>
      simp only [deviceStep, hpc, plainDeviceStep, plain_device hpc, DevicePc.plain]
      have hstop : s.plain.stop = s.stop := rfl
      rw [hstop]
      cases s.stop <;> rfl
  | reading =>
      simp only [deviceStep, hpc, plainDeviceStep, plain_device hpc, DevicePc.plain]
      rfl
  | getting pkt streamIndex =>
      simp only [deviceStep, hpc, plainDeviceStep, plain_device hpc, DevicePc.plain]
      rw [← plain_getMediaFrame honce]
      rfl
  | filling pkt streamIndex pFrame =>
      simp only [deviceStep, hpc, plainDeviceStep, plain_device hpc, DevicePc.plain]
      have hhand : pFrame ∈ s.custody (.hand .device) := by
        simp [PipelineState.custody, PipelineState.hand, DevicePc.hand, hpc]
      refine congrArg some (Prod.ext ?_ rfl)
      refine ((agreeBeside_setFrame honce hhand _).setDevice _).trans ?_
      -- what the new content leaves of the old one is not seen
      simp only [DevicePc.plain, PipelineState.look, PipelineState.setFrame,
        Function.update_self]
      rfl
  | routing streamIndex pFrame =>
      simp only [deviceStep, hpc, plainDeviceStep, plain_device hpc, DevicePc.plain]
      rw [← routeFrame_plain]
      rfl
  | enqueueing q pFrame =>
      have hplain : (s.plain.queue q).isFull = (s.queue q).isFull := plain_isFull _ _
      simp only [deviceStep, hpc, plainDeviceStep, plain_device hpc, DevicePc.plain,
        enqueueEnter, hplain]
      cases (s.queue q).isFull with
      | true =>
          rfl
      | false =>
          simp only [Bool.false_eq_true, if_false]
          rw [Option.map_some, plain_deviceEnqueued, plain_enqueuePut]
          rfl
  | enqueueWaiting q pFrame =>
      simp only [deviceStep, hpc, plainDeviceStep, plain_device hpc, DevicePc.plain]
      rw [Option.map_some, plain_deviceEnqueued, plain_enqueueWake]
      rfl
  | releasing pFrame =>
      simp only [deviceStep, hpc, plainDeviceStep, plain_device hpc, DevicePc.plain]
      rw [← plain_release]
      rfl
  | sizing q =>
      have hsize : (s.plain.queue q).items.length = (s.queue q).size := by
        rw [FiFo.size_eq]
        exact List.length_map _
      simp only [deviceStep, hpc, plainDeviceStep, plain_device hpc, DevicePc.plain, hsize]
      split
      · rfl
      · rw [← afterSize_plain s.look]
        rfl
  | entering q =>
      simp only [deviceStep, hpc, plainDeviceStep, plain_device hpc, DevicePc.plain]
      rfl
  | cleaning q size =>
      have hitems : (s.plain.queue q).items = (s.queue q).contents.map s.look := rfl
      simp only [deviceStep, hpc, plainDeviceStep, plain_device hpc, DevicePc.plain,
        cleanPass_eq, hitems]
      cases hq : (s.queue q).contents with
      | nil =>
          simp only [List.head?_nil, Option.map_none, List.map_nil, Option.map_some]
          rw [← afterSize_plain s.look]
          rfl
      | cons f fs =>
          have hf : f ∈ (s.queue q).contents := hq ▸ List.mem_cons_self
          simp only [List.head?_cons, Option.map_some, List.map_cons,
            cleanCallback_plain hlabelled hf]
          by_cases hclean : (plainCleanCallback q size (s.look f)).1 &&& cleanFlagClean ≠ 0
          · simp only [if_pos hclean]
            refine congrArg some (Prod.ext ?_ rfl)
            refine (plainBy_setDevice _ _).trans ?_
            refine congrArg (PlainState.setDevice · _) ?_
            refine (plainBy_setQueue s q _).trans ?_
            rw [plain_rest]
            rfl
          · have hsame : s.setQueue q (s.queue q) = s := by
              simp only [PipelineState.setQueue, Function.update_eq_self]
            simp only [if_neg hclean, hsame, decide_eq_true_eq]
            rw [← afterSize_plain s.look]
            refine congrArg some (Prod.ext ?_ rfl)
            refine (plainBy_setDevice _ _).trans (congrArg s.plain.setDevice ?_)
            split <;> rfl
  | cleanReleasing q size stop pFrame =>
      simp only [deviceStep, hpc, plainDeviceStep, plain_device hpc, DevicePc.plain]
      rw [← plain_release, ← afterSize_plain (s.mediaFrameRelease pFrame).look]
      cases stop <;> rfl
  | exited =>
      simp only [deviceStep, hpc, plainDeviceStep, plain_device hpc, DevicePc.plain]
      rfl

theorem plain_encoderDequeued
    (s : PipelineState) (e : EncoderId) (d : DequeueExit FrameId) :
    s.plainResult (encoderDequeued s e d) =
      plainEncoderDequeued s.plain e (d.ret.map s.look, d.queue.plain s.look) := by
  refine Prod.ext ?_ rfl
  refine (plainBy_setEncoder _ _ _).trans ?_
  rw [plainBy_setQueue]
  cases hret : d.ret with
  | none =>
      simp only [plainEncoderDequeued, Option.map_none]
      rfl
  | some pFrame =>
      simp only [plainEncoderDequeued, Option.map_some]
      rfl

theorem plain_encoderEnqueued
    (s : PipelineState) (e : EncoderId) (pFrame : FrameId) (x : EnqueueExit FrameId) :
    s.plainResult (encoderEnqueued s e pFrame x) =
      plainEncoderEnqueued s.plain e (s.look pFrame) (x.ret, x.queue.plain s.look) := by
  refine Prod.ext ?_ rfl
  refine (plainBy_setEncoder _ _ _).trans ?_
  rw [plainBy_setQueue]
  rfl

theorem plain_encoderDealt
    (s : PipelineState) (e : EncoderId) (pFrame : FrameId) (encoded : Encoded) :
    (encoderDealt s e pFrame encoded).plain =
      plainEncoderDealt s.plain e (s.look pFrame) encoded := by
  cases encoded with
  | kept =>
      exact plainBy_setEncoder s e _
  | nothing =>
      exact congrArg (fun p : PlainState => { p with nextPkt := s.nextPkt + 1 })
        (plainBy_setEncoder s e _)
  | got out =>
      exact congrArg (fun p : PlainState => { p with nextPkt := s.nextPkt + 1 })
        (plainBy_setEncoder s e _)

/-- A thread that only goes on. -/
theorem plainResult_setEncoder
    (s : PipelineState) (e : EncoderId) (pc : EncoderPc) :
    s.plainResult (s.setEncoder e pc, []) = (s.plain.setEncoder e (pc.plain s.look), []) :=
  Prod.ext (plainBy_setEncoder s e pc) rfl

theorem plainResult_encoderReleases
    (s : PipelineState) (e : EncoderId) (pFrame : FrameId) {pc : EncoderPc}
    {pc' : PlainEncoderPc} (hpc : ∀ seen, pc.plain seen = pc') :
    s.plainResult ((s.mediaFrameRelease pFrame).setEncoder e pc,
        [.released (.encoder e) pFrame]) =
      ((s.plain.release (s.look pFrame)).setEncoder e pc',
        [.released (.encoder e) (s.look pFrame)]) := by
  refine Prod.ext ?_ rfl
  refine (plainBy_setEncoder _ e pc).trans ?_
  rw [hpc, ← plain_release]
  rfl

theorem encoderStep_plain
    (honce : AtMostOnce s.custody s.nextFrame) (e : EncoderId) (answer : EncoderAnswer) :
    (encoderStep s e answer).map s.plainResult = plainEncoderStep s.plain e answer := by
  have hstatus : s.plain.mStatus e = s.mStatus e := rfl
  have hlocked : ∀ q, s.plain.locked q = s.locked q := plainBy_locked s
  have hempty : ∀ q, (s.plain.queue q).items = [] ↔ (s.queue q).isEmpty = true := by
    intro q
    rw [FiFo.isEmpty_iff]
    exact List.map_eq_nil_iff
  have hfull : ∀ q, (s.plain.queue q).isFull = (s.queue q).isFull :=
    fun q => plain_isFull _ _
  cases hpc : s.encoder e with
  | notCreated =>
      simp only [encoderStep, hpc, plainEncoderStep, plain_encoder hpc, EncoderPc.plain]
      rfl
  | runLoop =>
      simp only [encoderStep, hpc, plainEncoderStep, plain_encoder hpc, EncoderPc.plain,
        hstatus]
      split
      · exact congrArg some (plainResult_setEncoder s e _)
      · split
        · rfl
        · exact congrArg some (plainResult_setEncoder s e _)
  | dequeueing =>
      simp only [encoderStep, hpc, plainEncoderStep, plain_encoder hpc, EncoderPc.plain,
        hlocked, hempty, dequeueEnter]
      cases s.locked e.input with
      | true =>
          rfl
      | false =>
          cases (s.queue e.input).isEmpty with
          | true =>
              exact congrArg some (plainResult_setEncoder s e _)
          | false =>
              simp only [Bool.false_eq_true, if_false]
              rw [Option.map_some, plain_encoderDequeued, plain_dequeueGet]
              rfl
  | dequeueWaiting =>
      simp only [encoderStep, hpc, plainEncoderStep, plain_encoder hpc, EncoderPc.plain,
        hlocked]
      split
      · rfl
      · rw [Option.map_some, plain_encoderDequeued, plain_dequeueWake]
        rfl
  | dealing pFrame =>
      simp only [encoderStep, hpc, plainEncoderStep, plain_encoder hpc, EncoderPc.plain]
      exact congrArg some (Prod.ext (plain_encoderDealt s e pFrame _) rfl)
  | inputReleasing pFrame out =>
      simp only [encoderStep, hpc, plainEncoderStep, plain_encoder hpc, EncoderPc.plain]
      cases out with
      | none =>
          exact congrArg some (plainResult_encoderReleases s e pFrame fun _ => rfl)
      | some out =>
          exact congrArg some (plainResult_encoderReleases s e pFrame fun _ => rfl)
  | getting pkt out =>
      simp only [encoderStep, hpc, plainEncoderStep, plain_encoder hpc, EncoderPc.plain]
      refine congrArg some (Prod.ext ?_ rfl)
      refine (plainBy_setEncoder _ e _).trans ?_
      rw [← plain_getMediaFrame honce]
      rfl
  | filling pkt out pFrame =>
      simp only [encoderStep, hpc, plainEncoderStep, plain_encoder hpc, EncoderPc.plain]
      have hhand : pFrame ∈ s.custody (.hand (.encoder e)) := by
        simp [PipelineState.custody, PipelineState.hand, EncoderPc.hand, hpc]
      refine congrArg some (Prod.ext ?_ rfl)
      refine ((agreeBeside_setFrame honce hhand _).setEncoder _).trans ?_
      -- every field is set
      simp only [EncoderPc.plain, PipelineState.look, PipelineState.setFrame,
        Function.update_self]
      rfl
  | enqueueing pFrame =>
      simp only [encoderStep, hpc, plainEncoderStep, plain_encoder hpc, EncoderPc.plain,
        hlocked, hfull, enqueueEnter]
      cases s.locked e.output with
      | true =>
          rfl
      | false =>
          cases (s.queue e.output).isFull with
          | true =>
              exact congrArg some (plainResult_setEncoder s e _)
          | false =>
              simp only [Bool.false_eq_true, if_false]
              rw [Option.map_some, plain_encoderEnqueued, plain_enqueuePut]
              rfl
  | enqueueWaiting pFrame =>
      simp only [encoderStep, hpc, plainEncoderStep, plain_encoder hpc, EncoderPc.plain,
        hlocked]
      split
      · rfl
      · rw [Option.map_some, plain_encoderEnqueued, plain_enqueueWake]
        rfl
  | enqueued pFrame ret =>
      simp only [encoderStep, hpc, plainEncoderStep, plain_encoder hpc, EncoderPc.plain,
        plainEnqueued]
      by_cases hneg : ret < 0
      · simp only [if_pos hneg, hstatus]
        split
        · exact congrArg some (plainResult_setEncoder s e _)
        · exact congrArg some (plainResult_setEncoder s e _)
      · simp only [if_neg hneg]
        exact congrArg some (plainResult_setEncoder s e _)
  | releasing pFrame =>
      simp only [encoderStep, hpc, plainEncoderStep, plain_encoder hpc, EncoderPc.plain]
      exact congrArg some (plainResult_encoderReleases s e pFrame fun _ => rfl)
  | exited =>
      simp only [encoderStep, hpc, plainEncoderStep, plain_encoder hpc, EncoderPc.plain]
      rfl

theorem plain_muxDequeued
    (s : PipelineState) (stream : StreamType) (again : Bool) (d : DequeueExit FrameId) :
    s.plainResult (muxDequeued s stream again d) =
      plainMuxDequeued s.plain stream again (d.ret.map s.look, d.queue.plain s.look) := by
  refine Prod.ext ?_ rfl
  exact (plainBy_setMux _ _).trans
    (congrArg (PlainState.setMux · _) (plainBy_setQueue s stream.queue d.queue))

theorem plain_muxPassEnd
    (s : PipelineState) (stream : StreamType) (ret : Int) (ended : Bool) :
    (muxPassEnd s stream ret ended).plain = plainMuxPassEnd s.plain stream ret ended := by
  cases ended <;> rfl

theorem muxThreadStep_plain
    (honce : AtMostOnce s.custody s.nextFrame) (hlabelled : Labelled s)
    (answer : MuxAnswer) :
    (muxThreadStep lib s answer).map s.plainResult = plainMuxStep lib s.plain answer := by
  have hstop : s.plain.stop = s.stop := rfl
  have hhandle : s.plain.pHandle = s.pHandle := rfl
  have hencode : s.plain.encode = s.encode := rfl
  have hlocked : ∀ q, s.plain.locked q = s.locked q := plainBy_locked s
  have hempty : ∀ q, (s.plain.queue q).items = [] ↔ (s.queue q).isEmpty = true := by
    intro q
    rw [FiFo.isEmpty_iff]
    exact List.map_eq_nil_iff
  cases hpc : s.mux with
  | notCreated =>
      simp only [muxThreadStep, hpc, plainMuxStep, plain_mux hpc, MuxPc.plain]
      rfl
  | loopHead =>
      simp only [muxThreadStep, hpc, plainMuxStep, plain_mux hpc, MuxPc.plain, hhandle, hencode]
      cases selectStream lib s.pHandle s.encode with
      | none =>
          rfl
      | some stream =>
          simp only
          split <;> rfl
  | dequeueing stream again =>
      simp only [muxThreadStep, hpc, plainMuxStep, plain_mux hpc, MuxPc.plain, hlocked, hempty,
        dequeueEnter]
      cases s.locked stream.queue with
      | true =>
          rfl
      | false =>
          cases (s.queue stream.queue).isEmpty with
          | true =>
              rfl
          | false =>
              simp only [Bool.false_eq_true, if_false]
              rw [Option.map_some, plain_muxDequeued, plain_dequeueGet]
              rfl
  | dequeueWaiting stream again =>
      simp only [muxThreadStep, hpc, plainMuxStep, plain_mux hpc, MuxPc.plain, hlocked]
      split
      · rfl
      · rw [Option.map_some, plain_muxDequeued, plain_dequeueWake]
        rfl
  | dequeued stream again pFrame =>
      simp only [muxThreadStep, hpc, plainMuxStep, plain_mux hpc, MuxPc.plain, hstop]
      cases pFrame with
      | none =>
          split <;> rfl
      | some pFrame =>
          split <;> rfl
  | callbackReleasing stream pFrame =>
      simp only [muxThreadStep, hpc, plainMuxStep, plain_mux hpc, MuxPc.plain]
      rw [← plain_release]
      rfl
  | callbackEnd stream =>
      simp only [muxThreadStep, hpc, plainMuxStep, plain_mux hpc, MuxPc.plain]
      rw [← plain_muxPassEnd]
      rfl
  | writing stream pFrame =>
      simp only [muxThreadStep, hpc, plainMuxStep, plain_mux hpc, MuxPc.plain, hhandle]
      have hhand : pFrame ∈ s.custody (.hand .mux) := by
        simp [PipelineState.custody, PipelineState.hand, MuxPc.hand, hpc]
      have hencoded : (s.heap pFrame).release = .releasePktBuffer := by
        refine hlabelled.hand .mux (pFrame, .releasePktBuffer) ?_
        rw [labels_mux hpc]
        exact List.mem_singleton_self _
      have hlook : s.look pFrame = s.heap pFrame := asNew_of_encoded hencoded
      have hwritten : (s.setFrame pFrame
          (writtenFrame s.pHandle stream (s.heap pFrame))).look pFrame =
          writtenFrame s.pHandle stream (s.heap pFrame) := by
        simp only [PipelineState.look, PipelineState.setFrame, Function.update_self]
        exact asNew_of_encoded ((writtenFrame_packet _ _ _).2.trans hencoded)
      rw [hlook]
      generalize writeObtained lib s.pHandle stream 0 (s.heap pFrame) answer.written = w
      have hmoves := (agreeBeside_setFrame honce hhand
        (writtenFrame s.pHandle stream (s.heap pFrame))).setMux (.releasing stream pFrame w.ret)
      rw [MuxPc.plain, hwritten] at hmoves
      refine congrArg some (Prod.ext ?_ rfl)
      exact congrArg (fun p : PlainState => { p with pHandle := w.pHandle }) hmoves
  | releasing stream pFrame ret =>
      simp only [muxThreadStep, hpc, plainMuxStep, plain_mux hpc, MuxPc.plain]
      rw [← plain_release, ← plain_muxPassEnd]
      rfl
  | exited =>
      simp only [muxThreadStep, hpc, plainMuxStep, plain_mux hpc, MuxPc.plain]
      rfl

/-- One step of the pipeline is one of the pipeline without a pool. -/
theorem pipelineStep_plain
    (honce : AtMostOnce s.custody s.nextFrame) (hlabelled : Labelled s)
    (a : PipelineAction) :
    (pipelineStep cfg lib s a).map s.plainResult = plainStep cfg lib s.plain a := by
  cases a with
  | setStop =>
      rfl
  | start e =>
      have hstatus : s.plain.mStatus e = s.mStatus e := rfl
      have hmoves : (s.setEncoder e .runLoop).plainBy s.look =
          s.plain.setEncoder e .runLoop := plainBy_setEncoder s e .runLoop
      simp only [pipelineStep, plainStep, hstatus]
      split
      · refine congrArg some (Prod.ext ?_ rfl)
        exact congrArg
          (fun p : PlainState => { p with mStatus := Function.update s.mStatus e .runing })
          hmoves
      · rfl
  | pause e =>
      have hstatus : s.plain.mStatus e = s.mStatus e := rfl
      simp only [pipelineStep, plainStep, hstatus]
      split <;> rfl
  | stop e =>
      have hstatus : s.plain.mStatus e = s.mStatus e := rfl
      simp only [pipelineStep, plainStep, hstatus]
      split <;> rfl
  | startMux =>
      have hmux : s.plain.mux = .notCreated ↔ s.mux = .notCreated := by
        show s.mux.plain s.look = .notCreated ↔ _
        cases s.mux <;> simp [MuxPc.plain]
      simp only [pipelineStep, plainStep, hmux]
      split <;> rfl
  | device answer =>
      exact deviceStep_plain honce hlabelled answer
  | encoder e answer =>
      exact encoderStep_plain honce e answer
  | mux answer =>
      exact muxThreadStep_plain honce hlabelled answer

end Steps

/-! ## The runs -/

section Runs

variable {cfg : StreamerConfig} {lib : LibAv} {capacity : QueueId → ℕ} {pHandle : KoalaMuxer}

theorem init_plain
    (poolCapacity : ℕ) :
    (PipelineState.init poolCapacity capacity pHandle).plain =
      PlainState.init capacity pHandle := by
  have hqueue : (fun q => (FiFo.init (capacity q) : FiFo FrameId).plain
      (PipelineState.init poolCapacity capacity pHandle).look) =
      fun q => BoundedList.empty (capacity q) :=
    funext fun q => plain_init _ (capacity q)
  exact congrArg (fun queue : QueueId → BoundedList MediaFrame =>
    { PlainState.init capacity pHandle with queue := queue }) hqueue

theorem pipeline_commutes
    (poolCapacity : ℕ) :
    Commutes PipelineState.plain (fun s es => es.map (PipelineEvent.plain s.look))
      (pipelineStep cfg lib) (plainStep cfg lib)
      (PipelineState.init poolCapacity capacity pHandle) :=
  fun _ _ a run => pipelineStep_plain (pipeline_atMostOnce run) (run_labelled run) a

end Runs

/--
The runs of the pipeline without a pool are those of the pipeline, whatever the capacity of
its pool, seen without the addresses of the frames and without what a frame has kept from
its former life.
-/
theorem recycling_unobservable
    (cfg : StreamerConfig) (lib : LibAv) (poolCapacity : ℕ) (capacity : QueueId → ℕ)
    (pHandle : KoalaMuxer) (tr' : List PlainTransition) (p : PlainState) :
    Run (plainStep cfg lib) (PlainState.init capacity pHandle) tr' p ↔
      ∃ tr s, Run (pipelineStep cfg lib)
          (PipelineState.init poolCapacity capacity pHandle) tr s ∧
        s.plain = p ∧ tr.map PipelineTransition.plain = tr' := by
  constructor
  · exact Run.lifted (pipeline_commutes poolCapacity) (init_plain poolCapacity)
  · rintro ⟨tr, s, run, rfl, rfl⟩
    exact Run.mapped (pipeline_commutes poolCapacity) (init_plain poolCapacity) run

/-! ## The capacity of the pool -/

section Capacity

/-- What the step gives to `av_interleaved_write_frame`. -/
def plainSubmittedIn (lib : LibAv) (τ : PlainTransition) : List Submission :=
  match τ.action, τ.src.mux with
  | .mux answer, .writing stream frame =>
      submissions (writeObtained lib τ.src.pHandle stream 0 frame answer.written).events
  | _, _ => []

theorem submittedIn_plain
    (lib : LibAv) {τ : PipelineTransition} (hlabelled : Labelled τ.src) :
    plainSubmittedIn lib τ.plain = submittedIn lib τ := by
  have haction : τ.plain.action = τ.action := rfl
  have hmux : τ.plain.src.mux = τ.src.mux.plain τ.src.look := rfl
  simp only [plainSubmittedIn, submittedIn, haction, hmux]
  cases τ.action with
  | mux answer =>
      cases hpc : τ.src.mux with
      | writing stream pFrame =>
          have hlook : τ.src.look pFrame = τ.src.heap pFrame := by
            refine asNew_of_encoded (hlabelled.hand .mux (pFrame, .releasePktBuffer) ?_)
            rw [labels_mux hpc]
            exact List.mem_singleton_self _
          simp only [MuxPc.plain, hlook]
          rfl
      | _ =>
          rfl
  | _ =>
      rfl

variable {cfg : StreamerConfig} {lib : LibAv} {poolCapacity : ℕ} {capacity : QueueId → ℕ}
  {pHandle : KoalaMuxer} {tr : List PipelineTransition} {s : PipelineState}

theorem muxSubmissions_plain
    (run : Run (pipelineStep cfg lib)
      (PipelineState.init poolCapacity capacity pHandle) tr s) :
    (tr.map PipelineTransition.plain).flatMap (plainSubmittedIn lib) =
      muxSubmissions lib tr := by
  rw [muxSubmissions, List.flatMap_map]
  refine List.flatMap_congr fun τ hτ => ?_
  obtain ⟨_, _, hrun⟩ := run.prefix_of_mem τ hτ
  exact submittedIn_plain lib (run_labelled hrun)

/--
To every run there is one with a pool of another capacity that takes the same actions: it
writes the same packets, frees the same ones, and leaves the muxer and the lengths of the
queues the same.
-/
theorem pool_capacity_unobservable
    (run : Run (pipelineStep cfg lib)
      (PipelineState.init poolCapacity capacity pHandle) tr s)
    (poolCapacity' : ℕ) :
    ∃ tr' s', Run (pipelineStep cfg lib)
        (PipelineState.init poolCapacity' capacity pHandle) tr' s' ∧
      tr'.map (·.action) = tr.map (·.action) ∧
      muxSubmissions lib tr' = muxSubmissions lib tr ∧
      s'.freedPkts = s.freedPkts ∧ s'.pHandle = s.pHandle ∧
      ∀ q, (s'.queue q).size = (s.queue q).size := by
  have hplain := Run.mapped (pipeline_commutes poolCapacity) (init_plain poolCapacity) run
  obtain ⟨tr', s', run', hstate, htrace⟩ :=
    Run.lifted (pipeline_commutes poolCapacity') (init_plain poolCapacity') hplain
  refine ⟨tr', s', run', ?_, ?_, ?_, ?_, ?_⟩
  · have hactions := congrArg (List.map (·.action)) htrace
    rwa [List.map_map, List.map_map] at hactions
  · rw [← muxSubmissions_plain run', ← muxSubmissions_plain run]
    exact congrArg (List.flatMap (plainSubmittedIn lib)) htrace
  · exact congrArg PlainState.freedPkts hstate
  · exact congrArg PlainState.pHandle hstate
  · intro q
    have hitems := congrArg (fun p : PlainState => (p.queue q).items.length) hstate
    rw [FiFo.size_eq, FiFo.size_eq, ← List.length_map (f := s'.look),
      ← List.length_map (f := s.look)]
    exact hitems

/-- One packet is written from a frame that was a raw one before; without a pool, from a new
one. -/
theorem pool_capacity_unobservable_none :
    ∃ tr s, Run (pipelineStep ⟨0, 1⟩ exactLibAv)
        (PipelineState.init 500 queueCapacity
          (openedMuxer false true false "flv" 0 0 0)) tr s ∧
      s.nextFrame = 1 ∧
      (muxSubmissions exactLibAv tr).map (·.pkt) = [⟨7, 100, 0, 0, 0, 1⟩] ∧
      ∃ tr' s', Run (pipelineStep ⟨0, 1⟩ exactLibAv)
          (PipelineState.init 0 queueCapacity
            (openedMuxer false true false "flv" 0 0 0)) tr' s' ∧
        tr'.map (·.action) = tr.map (·.action) ∧
        muxSubmissions exactLibAv tr' = muxSubmissions exactLibAv tr ∧
        s'.freedPkts = s.freedPkts ∧ s'.pHandle = s.pHandle ∧
        ∀ q, (s'.queue q).size = (s.queue q).size := by
  obtain ⟨tr, s, run, hframes, hwritten⟩ :=
    Run.exists_of_exec (pipelineStep ⟨0, 1⟩ exactLibAv)
      (PipelineState.init 500 queueCapacity
        (openedMuxer false true false "flv" 0 0 0))
      onePacketActions
      (fun r => r.2.nextFrame = 1 ∧
        (muxSubmissions exactLibAv r.1).map (·.pkt) = [⟨7, 100, 0, 0, 0, 1⟩])
      (by decide +kernel)
  exact ⟨tr, s, run, hframes, hwritten, pool_capacity_unobservable run 0⟩

end Capacity

end KoalaStreamer
