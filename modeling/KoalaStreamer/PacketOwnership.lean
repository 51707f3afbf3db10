import KoalaStreamer.EncodedFrames
import KoalaStreamer.PacketCustody

/-!
# One owner for every AVPacket

What a frame is released by is known from where the frame is: raw frames free the packet
that was read, encoded ones the packet of the encoder.  With the balance of the packets
this says that no packet is freed twice and that no thread reads a freed one.

Main result: `packets_accounted`.
-/

namespace KoalaStreamer

open EventMachine TokenAccounting

/-! ## The release of a frame, by its place -/

section Labels

/-- The release of the frames of a queue. -/
def QueueId.release : QueueId → FrameRelease
  | .pYUVQueue => .releasePkt
  | .pPCMQueue => .releasePkt
  | .pVEQueue => .releasePktBuffer
  | .pAEQueue => .releasePktBuffer

def DevicePc.labels : DevicePc → List (FrameId × FrameRelease)
  | .routing _ pFrame => [(pFrame, .releasePkt)]
  | .enqueueing q pFrame => [(pFrame, q.release)]
  | .enqueueWaiting q pFrame => [(pFrame, q.release)]
  | .releasing pFrame => [(pFrame, .releasePkt)]
  | .cleanReleasing q _ _ pFrame => [(pFrame, q.release)]
  | _ => []

def EncoderPc.labels (e : EncoderId) : EncoderPc → List (FrameId × FrameRelease)
  | .dealing pFrame => [(pFrame, e.input.release)]
  | .inputReleasing pFrame _ => [(pFrame, e.input.release)]
  | .enqueueing pFrame => [(pFrame, e.output.release)]
  | .enqueueWaiting pFrame => [(pFrame, e.output.release)]
  | .enqueued pFrame ret => if ret < 0 then [(pFrame, e.output.release)] else []
  | .releasing pFrame => [(pFrame, e.output.release)]
  | _ => []

def MuxPc.labels (pc : MuxPc) : List (FrameId × FrameRelease) :=
  pc.hand.map fun f => (f, .releasePktBuffer)

/-- The filled frames in the hand of a thread, with the release they are to have. -/
def PipelineState.labels (s : PipelineState) :
    PipelineThread → List (FrameId × FrameRelease)
  | .device => s.device.labels
  | .encoder e => (s.encoder e).labels e
  | .mux => s.mux.labels

/-- Every filled frame has the release of its place. -/
structure Labelled (s : PipelineState) : Prop where
  queue : ∀ q, ∀ f ∈ (s.queue q).contents, (s.heap f).release = q.release
  hand : ∀ t, ∀ x ∈ s.labels t, (s.heap x.1).release = x.2

@[simp] theorem input_release (e : EncoderId) : e.input.release = .releasePkt := by
  cases e <;> rfl

@[simp] theorem output_release (e : EncoderId) : e.output.release = .releasePktBuffer := by
  cases e <;> rfl

@[simp] theorem stream_release
    (stream : StreamType) : stream.queue.release = .releasePktBuffer := by
  cases stream <;> rfl

end Labels

section Steps

variable {cfg : StreamerConfig} {lib : LibAv} {s s' : PipelineState}
  {es : List PipelineEvent} {a : PipelineAction} {t : PipelineThread}

/-- A labelled frame is in the hand of its thread. -/
theorem labels_hand
    {x : FrameId × FrameRelease} (hx : x ∈ s.labels t) : x.1 ∈ s.hand t := by
  cases t with
  | device =>
      show x.1 ∈ s.device.hand
      simp only [PipelineState.labels] at hx
      generalize s.device = pc at hx
      cases pc <;>
        first
          | (rw [List.mem_singleton.mp hx]; exact List.mem_singleton_self _)
          | cases hx
  | encoder e =>
      show x.1 ∈ (s.encoder e).hand
      simp only [PipelineState.labels] at hx
      generalize s.encoder e = pc at hx
      cases pc with
      | enqueued pFrame ret =>
          simp only [EncoderPc.labels] at hx
          simp only [EncoderPc.hand]
          split at hx
          · rename_i hneg
            rw [List.mem_singleton.mp hx, if_pos hneg]
            exact List.mem_singleton_self _
          · cases hx
      | _ =>
          first
            | (rw [List.mem_singleton.mp hx]; exact List.mem_singleton_self _)
            | cases hx
  | mux =>
      obtain ⟨f, hf, rfl⟩ := List.mem_map.mp hx
      exact hf

/-- The threads that take no step have the labels they had, or none. -/
theorem labels_beside
    (h : pipelineStep cfg lib s a = some (s', es)) (ht : a.thread ≠ some t)
    {x : FrameId × FrameRelease} (hx : x ∈ s'.labels t) : x ∈ s.labels t := by
  have hdevice : s'.device = s.device → t = .device → x ∈ s.labels t := by
    rintro hsame rfl
    rwa [PipelineState.labels, hsame] at hx
  have hencoder : ∀ e, s'.encoder e = s.encoder e → t = .encoder e → x ∈ s.labels t := by
    rintro e hsame rfl
    rwa [PipelineState.labels, hsame] at hx
  have hmux : s'.mux = s.mux → t = .mux → x ∈ s.labels t := by
    rintro hsame rfl
    rwa [PipelineState.labels, hsame] at hx
  cases a with
  | device answer =>
      obtain ⟨-, hencoders, hmuxes, -⟩ := deviceStep_others h
      cases t with
      | device => exact absurd rfl ht
      | encoder e => exact hencoder e (congrFun hencoders e) rfl
      | mux => exact hmux hmuxes rfl
  | encoder e answer =>
      obtain ⟨-, -, hencoders, hdevices, hmuxes, -⟩ := encoderStep_others h
      cases t with
      | device => exact hdevice hdevices rfl
      | encoder e' =>
          refine hencoder e' (hencoders e' ?_) rfl
          rintro rfl
          exact ht rfl
      | mux => exact hmux hmuxes rfl
  | mux answer =>
      obtain ⟨-, hencoders, hdevices, -⟩ := muxThreadStep_others h
      cases t with
      | device => exact hdevice hdevices rfl
      | encoder e => exact hencoder e (congrFun hencoders e) rfl
      | mux => exact absurd rfl ht
  | setStop =>
      obtain ⟨rfl, -⟩ := Prod.mk.inj (Option.some.inj h)
      exact hx
  | start e =>
      simp only [pipelineStep] at h
      split at h <;> obtain ⟨rfl, -⟩ := Prod.mk.inj (Option.some.inj h)
      · cases t with
        | encoder e' =>
            have hpc : x ∈ ((s.setEncoder e .runLoop).encoder e').labels e' := hx
            rw [setEncoder_encoder] at hpc
            split at hpc
            · cases hpc
            · exact hpc
        | _ => exact hx
      · exact hx
  | startMux =>
      simp only [pipelineStep] at h
      split at h <;> obtain ⟨rfl, -⟩ := Prod.mk.inj (Option.some.inj h)
      · cases t with
        | mux => cases hx
        | _ => exact hx
      · exact hx
  | _ =>
      simp only [pipelineStep] at h
      split at h <;> obtain ⟨rfl, -⟩ := Prod.mk.inj (Option.some.inj h) <;> exact hx

/-- What the step of a thread leaves in its hand and puts into the queues. -/
structure Relabels (t : PipelineThread) (s s' : PipelineState) : Prop where
  hand : ∀ x ∈ s'.labels t, (s'.heap x.1).release = x.2
  queue : ∀ q, ∀ f ∈ (s'.queue q).contents,
    f ∈ (s.queue q).contents ∨ (s'.heap f).release = q.release

/-- A thread that writes to no frame and leaves the queues alone. -/
theorem Relabels.walks
    (hlabelled : Labelled s) (hqueue : s'.queue = s.queue) (hheap : s'.heap = s.heap)
    (hhand : ∀ x ∈ s'.labels t, x ∈ s.labels t) : Relabels t s s' where
  hand := by
    intro x hx
    rw [hheap]
    exact hlabelled.hand t x (hhand x hx)
  queue := by
    intro q f hf
    rw [hqueue] at hf
    exact Or.inl hf

/-- A thread that takes what it then holds from a queue. -/
theorem Relabels.takes
    {q : QueueId} {contents : FiFo FrameId} {taken : List FrameId}
    (hlabelled : Labelled s) (hqueue : s'.queue = Function.update s.queue q contents)
    (hheap : s'.heap = s.heap)
    (htaken : taken ++ contents.contents = (s.queue q).contents)
    (hhand : ∀ x ∈ s'.labels t, x.1 ∈ taken ∧ x.2 = q.release) : Relabels t s s' where
  hand := by
    intro x hx
    obtain ⟨hmem, hrelease⟩ := hhand x hx
    rw [hheap, hrelease]
    exact hlabelled.queue q x.1 (htaken ▸ List.mem_append_left _ hmem)
  queue := by
    intro q' f hf
    rw [hqueue] at hf
    by_cases hq : q' = q
    · subst hq
      rw [Function.update_self] at hf
      exact Or.inl (htaken ▸ List.mem_append_right _ hf)
    · rw [Function.update_of_ne hq] at hf
      exact Or.inl hf

/-- A thread that offers its frame to a queue. -/
theorem Relabels.offers
    {q : QueueId} {x : EnqueueExit FrameId} {pFrame : FrameId}
    (hlabelled : Labelled s) (hqueue : s'.queue = Function.update s.queue q x.queue)
    (hheap : s'.heap = s.heap)
    (hstored : x.queue.contents = (s.queue q).contents ++ x.stored pFrame)
    (hbefore : (pFrame, q.release) ∈ s.labels t)
    (hhand : ∀ y ∈ s'.labels t, y = (pFrame, q.release)) : Relabels t s s' where
  hand := by
    intro y hy
    rw [hhand y hy, hheap]
    exact hlabelled.hand t _ hbefore
  queue := by
    intro q' f hf
    rw [hqueue] at hf
    by_cases hq : q' = q
    · subst hq
      rw [Function.update_self, hstored] at hf
      rcases List.mem_append.mp hf with hf | hf
      · exact Or.inl hf
      · rw [mem_of_mem_stored hf, hheap]
        exact Or.inr (hlabelled.hand t _ hbefore)
    · rw [Function.update_of_ne hq] at hf
      exact Or.inl hf

theorem labels_device
    {pc : DevicePc} (hpc : s.device = pc) : s.labels .device = pc.labels :=
  congrArg DevicePc.labels hpc

theorem labels_encoder
    {e : EncoderId} {pc : EncoderPc} (hpc : s.encoder e = pc) :
    s.labels (.encoder e) = pc.labels e :=
  congrArg (EncoderPc.labels e) hpc

theorem labels_mux
    {pc : MuxPc} (hpc : s.mux = pc) : s.labels .mux = pc.labels :=
  congrArg MuxPc.labels hpc

theorem labels_setEncoder
    (s : PipelineState) (e : EncoderId) (pc : EncoderPc) :
    (s.setEncoder e pc).labels (.encoder e) = pc.labels e :=
  labels_encoder (Function.update_self _ _ _)

theorem afterSize_labels
    (q : QueueId) : (afterSize q).labels = [] := by
  cases q <;> rfl

theorem routeFrame_labels
    (cfg : StreamerConfig) (streamIndex : Int) (pFrame : FrameId) :
    (routeFrame cfg streamIndex pFrame).labels = [(pFrame, .releasePkt)] := by
  simp only [routeFrame]
  split
  · rfl
  · split <;> rfl

theorem deviceStep_relabels
    {answer : DeviceAnswer} (hlabelled : Labelled s)
    (h : deviceStep cfg s answer = some (s', es)) : Relabels .device s s' := by
  -- the thread walks on with an empty hand
  have hempty : s'.queue = s.queue → s'.heap = s.heap → s'.device.labels = [] →
      Relabels .device s s' := by
    intro hqueue hheap hnone
    refine .walks hlabelled hqueue hheap fun x hx => ?_
    have hx' : x ∈ s'.device.labels := hx
    rw [hnone] at hx'
    cases hx'
  cases deviceStep_case h with
  | loopHead hpc =>
      refine hempty rfl rfl ?_
      cases hstop : s.stop <;> simp [PipelineState.setDevice, DevicePc.labels]
  | reads hpc =>
      exact hempty rfl rfl rfl
  | getsFrame pkt streamIndex hpc =>
      exact ⟨fun _ hx => absurd hx List.not_mem_nil, fun q f hf =>
        Or.inl ((congrFun (getMediaFrame_same s).1.queue q) ▸ hf)⟩
  | fills pkt streamIndex pFrame hpc =>
      refine ⟨fun x hx => ?_, fun q f hf => Or.inl hf⟩
      rw [List.mem_singleton.mp hx]
      show (Function.update s.heap pFrame _ pFrame).release = _
      rw [Function.update_self]
      rfl
  | routes streamIndex pFrame hpc =>
      refine .walks hlabelled rfl rfl fun x hx => ?_
      have hx' : x ∈ (routeFrame cfg streamIndex pFrame).labels := hx
      rw [routeFrame_labels] at hx'
      rw [labels_device hpc]
      exact hx'
  | waits q pFrame hpc hfull =>
      exact .walks hlabelled rfl rfl fun x hx => (labels_device hpc).symm ▸ hx
  | puts q pFrame hpc hroom =>
      refine .offers hlabelled rfl rfl (enqueuePut_contents _ pFrame) ?_
        fun _ hy => absurd hy List.not_mem_nil
      rw [labels_device hpc]
      exact List.mem_singleton_self _
  | wakes q pFrame hpc =>
      refine .offers hlabelled rfl rfl (enqueueWake_contents _ pFrame answer.wait) ?_
        fun _ hy => absurd hy List.not_mem_nil
      rw [labels_device hpc]
      exact List.mem_singleton_self _
  | releases pFrame hpc =>
      exact hempty (mediaFrameRelease_same s pFrame).1.queue
        (mediaFrameRelease_heap s pFrame) rfl
  | selects q hpc hlong =>
      exact hempty rfl rfl rfl
  | skips q hpc hshort =>
      exact hempty rfl rfl (afterSize_labels q)
  | enters q hpc =>
      exact hempty rfl rfl rfl
  | cleanEnds q size hpc hpass =>
      exact hempty rfl rfl (afterSize_labels q)
  | cleans q size p hpc hpass hremoved =>
      have hcontents := (cleanPass_contents hpass).1
      rw [hremoved] at hcontents
      refine .takes hlabelled rfl rfl hcontents fun x hx => ?_
      have hx' : x ∈ DevicePc.labels (if p.stop then _ else _) := hx
      split at hx'
      · rw [afterSize_labels] at hx'
        cases hx'
      · cases hx'
  | removes q size p pFrame hpc hpass hremoved =>
      have hcontents := (cleanPass_contents hpass).1
      rw [hremoved] at hcontents
      refine .takes hlabelled rfl rfl hcontents fun x hx => ?_
      rw [List.mem_singleton.mp hx]
      exact ⟨List.mem_singleton_self _, rfl⟩
  | cleanReleases q size stop pFrame hpc =>
      refine hempty (mediaFrameRelease_same s pFrame).1.queue
        (mediaFrameRelease_heap s pFrame) ?_
      show DevicePc.labels (if stop then _ else _) = []
      split
      · exact afterSize_labels q
      · rfl

theorem encoderDequeued_relabels
    {e : EncoderId} {d : DequeueExit FrameId} (hlabelled : Labelled s)
    (htaken : d.ret.toList ++ d.queue.contents = (s.queue e.input).contents) :
    Relabels (.encoder e) s (encoderDequeued s e d).1 := by
  refine .takes hlabelled rfl rfl htaken fun x hx => ?_
  have hx' := (labels_setEncoder _ e _) ▸ hx
  cases hret : d.ret with
  | none =>
      rw [hret] at hx'
      cases hx'
  | some pFrame =>
      rw [hret] at hx'
      rw [List.mem_singleton.mp hx']
      exact ⟨List.mem_singleton_self _, rfl⟩

theorem encoderEnqueued_relabels
    {e : EncoderId} {x : EnqueueExit FrameId} {pFrame : FrameId}
    (hlabelled : Labelled s)
    (hstored : x.queue.contents = (s.queue e.output).contents ++ x.stored pFrame)
    (hbefore : (pFrame, e.output.release) ∈ s.labels (.encoder e)) :
    Relabels (.encoder e) s (encoderEnqueued s e pFrame x).1 := by
  refine .offers hlabelled rfl rfl hstored hbefore fun y hy => ?_
  have hy' := (labels_setEncoder _ e _) ▸ hy
  simp only [EncoderPc.labels] at hy'
  split at hy'
  · exact List.mem_singleton.mp hy'
  · cases hy'

theorem encoderStep_relabels
    {e : EncoderId} {answer : EncoderAnswer} (hlabelled : Labelled s)
    (h : encoderStep s e answer = some (s', es)) : Relabels (.encoder e) s s' := by
  -- the thread walks on to `pc`, with the labels of the place it comes from
  have hwalks : ∀ {before pc}, s.encoder e = before →
      (∀ x ∈ pc.labels e, x ∈ before.labels e) →
      Relabels (.encoder e) s (s.setEncoder e pc) := by
    intro before pc hpc hlabels
    refine .walks hlabelled rfl rfl fun x hx => ?_
    rw [labels_setEncoder] at hx
    rw [labels_encoder hpc]
    exact hlabels x hx
  -- the thread releases its frame
  have hreleases : ∀ {pFrame pc}, (pc.labels e = []) →
      Relabels (.encoder e) s ((s.mediaFrameRelease pFrame).setEncoder e pc) := by
    intro pFrame pc hnone
    refine .walks hlabelled (mediaFrameRelease_same s pFrame).1.queue
      (mediaFrameRelease_heap s pFrame) fun x hx => ?_
    rw [labels_setEncoder, hnone] at hx
    cases hx
  cases encoderStep_case h with
  | exits hpc hstatus =>
      exact hwalks hpc fun _ hx => absurd hx List.not_mem_nil
  | pauses hpc hstatus =>
      exact .walks hlabelled rfl rfl fun _ hx => hx
  | loops hpc hstatus =>
      exact hwalks hpc fun _ hx => absurd hx List.not_mem_nil
  | dequeueWaits hpc hlocked hempty =>
      exact hwalks hpc fun _ hx => absurd hx List.not_mem_nil
  | gets hpc hlocked hsome =>
      exact encoderDequeued_relabels hlabelled (dequeueGet_contents _)
  | dequeueWakes hpc hlocked =>
      exact encoderDequeued_relabels hlabelled (dequeueWake_contents _ _)
  | deals pFrame hpc =>
      have hdealt : ∀ out, Relabels (.encoder e) s
          (s.setEncoder e (.inputReleasing pFrame out)) :=
        fun out => hwalks hpc fun _ hx => hx
      cases answer.encoded with
      | kept =>
          exact hdealt none
      | nothing =>
          exact ⟨(hdealt none).hand, (hdealt none).queue⟩
      | got out =>
          exact ⟨(hdealt _).hand, (hdealt (some (s.nextPkt, out))).queue⟩
  | releasesEncoded pFrame pkt out hpc =>
      exact hreleases rfl
  | releasesInput pFrame hpc =>
      exact hreleases rfl
  | getsFrame pkt out hpc =>
      refine ⟨fun x hx => ?_, fun q f hf =>
        Or.inl ((congrFun (getMediaFrame_same s).1.queue q) ▸ hf)⟩
      rw [labels_setEncoder] at hx
      cases hx
  | fills pkt out pFrame hpc =>
      refine ⟨fun x hx => ?_, fun q f hf => Or.inl hf⟩
      rw [labels_setEncoder] at hx
      rw [List.mem_singleton.mp hx, output_release]
      show (Function.update s.heap pFrame _ pFrame).release = _
      rw [Function.update_self]
      rfl
  | enqueueWaits pFrame hpc hlocked hfull =>
      exact hwalks hpc fun _ hx => hx
  | puts pFrame hpc hlocked hroom =>
      refine encoderEnqueued_relabels hlabelled (enqueuePut_contents _ pFrame) ?_
      rw [labels_encoder hpc]
      exact List.mem_singleton_self _
  | enqueueWakes pFrame hpc hlocked =>
      refine encoderEnqueued_relabels hlabelled
        (enqueueWake_contents _ pFrame answer.wait) ?_
      rw [labels_encoder hpc]
      exact List.mem_singleton_self _
  | retries pFrame ret hpc hneg hretry =>
      refine hwalks hpc fun x hx => ?_
      simp only [EncoderPc.labels, if_pos hneg]
      exact hx
  | givesUp pFrame ret hpc hneg hretry =>
      refine hwalks hpc fun x hx => ?_
      simp only [EncoderPc.labels, if_pos hneg]
      exact hx
  | hasEnqueued pFrame ret hpc hneg =>
      exact hwalks hpc fun _ hx => absurd hx List.not_mem_nil
  | releases pFrame hpc =>
      exact hreleases rfl

theorem muxDequeued_relabels
    {stream : StreamType} {again : Bool} {d : DequeueExit FrameId} (hlabelled : Labelled s)
    (htaken : d.ret.toList ++ d.queue.contents = (s.queue stream.queue).contents) :
    Relabels .mux s (muxDequeued s stream again d).1 := by
  refine .takes hlabelled rfl rfl htaken fun x hx => ?_
  obtain ⟨f, hf, rfl⟩ := List.mem_map.mp hx
  exact ⟨hf, (stream_release stream).symm⟩

theorem muxThreadStep_relabels
    {answer : MuxAnswer} (hlabelled : Labelled s)
    (h : muxThreadStep lib s answer = some (s', es)) : Relabels .mux s s' := by
  have hsame : ∀ {pc}, s.mux = pc → s'.queue = s.queue → s'.heap = s.heap →
      (∀ x ∈ s'.mux.labels, x ∈ pc.labels) → Relabels .mux s s' := by
    intro pc hpc hqueue hheap hlabels
    refine .walks hlabelled hqueue hheap fun x hx => ?_
    rw [labels_mux hpc]
    exact hlabels x hx
  cases muxThreadStep_case h with
  | gets stream again hpc hlocked hsome =>
      exact muxDequeued_relabels hlabelled (dequeueGet_contents _)
  | dequeueWakes stream again hpc hlocked =>
      exact muxDequeued_relabels hlabelled (dequeueWake_contents _ _)
  | callbackReleases stream pFrame hpc =>
      exact hsame hpc (mediaFrameRelease_same s pFrame).1.queue
        (mediaFrameRelease_heap s pFrame) fun _ hx => absurd hx List.not_mem_nil
  | callbackEnds stream hpc =>
      refine hsame hpc rfl rfl ?_
      show ∀ x ∈ MuxPc.labels (if answer.ended then _ else _), _
      cases answer.ended <;> exact fun _ hx => absurd hx List.not_mem_nil
  | writes stream pFrame hpc =>
      refine ⟨fun x hx => ?_, fun q f hf => Or.inl hf⟩
      have hx' : x = (pFrame, .releasePktBuffer) := List.mem_singleton.mp hx
      rw [hx']
      show (Function.update s.heap pFrame _ pFrame).release = _
      rw [Function.update_self, (writtenFrame_packet _ _ _).2]
      refine hlabelled.hand .mux (pFrame, .releasePktBuffer) ?_
      rw [labels_mux hpc]
      exact List.mem_singleton_self _
  | releases stream pFrame ret hpc =>
      refine hsame hpc (mediaFrameRelease_same s pFrame).1.queue
        (mediaFrameRelease_heap s pFrame) ?_
      show ∀ x ∈ MuxPc.labels (if answer.ended then _ else _), _
      cases answer.ended <;> exact fun _ hx => absurd hx List.not_mem_nil
  | exits hpc hselect =>
      exact hsame hpc rfl rfl fun _ hx => hx
  | selects stream hpc hselect hhave =>
      exact hsame hpc rfl rfl fun _ hx => hx
  | skips stream hpc hselect hhave =>
      exact hsame hpc rfl rfl fun _ hx => hx
  | dequeueWaits stream again hpc hlocked hempty =>
      exact hsame hpc rfl rfl fun _ hx => hx
  | stopsWithFrame stream again pFrame hpc hstop =>
      exact hsame hpc rfl rfl fun _ hx => hx
  | stops stream again hpc hstop =>
      exact hsame hpc rfl rfl fun _ hx => hx
  | obtains stream again pFrame hpc hstop =>
      exact hsame hpc rfl rfl fun _ hx => hx
  | asksAgain stream again hpc hstop =>
      exact hsame hpc rfl rfl fun _ hx => hx

theorem pipelineStep_labelled
    (honce : AtMostOnce s.custody s.nextFrame) (hlabelled : Labelled s)
    (h : pipelineStep cfg lib s a = some (s', es)) : Labelled s' := by
  -- who takes the step, if a thread does, relabels its own frames
  have hstep : ∀ t, a.thread = some t → Relabels t s s' := by
    intro t ht
    cases a <;> cases ht
    · exact deviceStep_relabels hlabelled h
    · exact encoderStep_relabels hlabelled h
    · exact muxThreadStep_relabels hlabelled h
  have hqueue : ∀ q, ∀ f ∈ (s'.queue q).contents,
      f ∈ (s.queue q).contents ∨ (s'.heap f).release = q.release := by
    cases ht : a.thread with
    | some t =>
        exact (hstep t ht).queue
    | none =>
        intro q f hf
        have hsame : s'.queue = s.queue := by
          cases a with
          | setStop =>
              obtain ⟨rfl, -⟩ := Prod.mk.inj (Option.some.inj h)
              rfl
          | device answer => cases ht
          | encoder e answer => cases ht
          | mux answer => cases ht
          | _ =>
              simp only [pipelineStep] at h
              split at h <;> obtain ⟨rfl, -⟩ := Prod.mk.inj (Option.some.inj h) <;> rfl
        rw [hsame] at hf
        exact Or.inl hf
  constructor
  · intro q f hf
    rcases hqueue q f hf with hold | hnew
    · have hplace : f ∈ s.custody (.queue q) := hold
      rw [pipelineStep_heap_of_place honce h hplace (by rintro t - heq; cases heq)]
      exact hlabelled.queue q f hold
    · exact hnew
  · intro t x hx
    by_cases ht : a.thread = some t
    · exact (hstep t ht).hand x hx
    · have hold := labels_beside h ht hx
      have hplace : x.1 ∈ s.custody (.hand t) := labels_hand hold
      rw [pipelineStep_heap_of_place honce h hplace ?_]
      · exact hlabelled.hand t x hold
      · rintro t' ht' heq
        rw [Place.hand.inj heq] at ht
        exact ht ht'

end Steps

/-! ## Every packet is accounted for -/

section Runs

variable {cfg : StreamerConfig} {lib : LibAv} {poolCapacity : ℕ}
  {capacity : QueueId → ℕ} {pHandle : KoalaMuxer}
  {tr : List PipelineTransition} {s : PipelineState}

theorem run_labelled
    (run : Run (pipelineStep cfg lib)
      (PipelineState.init poolCapacity capacity pHandle) tr s) :
    Labelled s := by
  induction run with
  | nil =>
      constructor
      · intro q f hf
        have hempty : (FiFo.init (T := FrameId) (capacity q)).contents = [] :=
          FiFo.contents_init (capacity q)
        exact absurd (hempty ▸ hf) List.not_mem_nil
      · rintro (_ | e | _) x hx <;> cases hx
  | snoc run hstep ih =>
      exact pipelineStep_labelled (pipeline_atMostOnce run) ih hstep

theorem init_packets :
    ExactlyOnce (PipelineState.init poolCapacity capacity pHandle).packets
      (PipelineState.init poolCapacity capacity pHandle).nextPkt := by
  refine exactlyOnce_empty ?_
  rintro (q | (_ | e | _) | _)
  · exact congrArg (List.flatMap _) (FiFo.contents_init (capacity q))
  · rfl
  · rfl
  · rfl
  · rfl

theorem run_packetsAccounted
    (run : Run (pipelineStep cfg lib)
      (PipelineState.init poolCapacity capacity pHandle) tr s) :
    Accounted s.packets s.nextPkt (packetsDropped tr) :=
  run_accounted PipelineState.packets PipelineState.nextPkt droppedPackets
    (I := fun s => AtMostOnce s.custody s.nextFrame ∧ StartInv s)
    (fun run => ⟨pipeline_atMostOnce run, run_startInv run⟩) init_packets
    (fun hI hstep => pipelineStep_packetsBalanced hI.1 hI.2 hstep) run

/-- What a thread carries is not freed. -/
theorem not_freed_of_carried
    (run : Run (pipelineStep cfg lib)
      (PipelineState.init poolCapacity capacity pHandle) tr s)
    {t : PipelineThread} {pkt : PktId} (hpkt : pkt ∈ s.packets (.hand t)) :
    pkt ∉ s.freedPkts := by
  intro hfreed
  have hplace : pkt ∈ s.packets .freed := hfreed
  have hone : held s.packets pkt ≤ 1 := by
    have hall := run_packetsAccounted run pkt
    split at hall <;> omega
  cases place_unique hone hpkt hplace

end Runs

/--
In every run, the packets freed, those carried and those dropped are the packets allocated,
each once; so none is freed twice, and none that a queue or a thread will still use is freed
before.  In particular the packet whose data an encoder is given has not been freed, nor has
the one whose data `write_frame` writes.
-/
theorem packets_accounted
    {cfg : StreamerConfig} {lib : LibAv} {poolCapacity : ℕ}
    {capacity : QueueId → ℕ} {pHandle : KoalaMuxer}
    {tr : List PipelineTransition} {s : PipelineState}
    (run : Run (pipelineStep cfg lib)
      (PipelineState.init poolCapacity capacity pHandle) tr s) :
    (s.packetsCarried ++ s.freedPkts ++ packetsDropped tr).Perm (List.range s.nextPkt) ∧
    (∀ e pFrame, s.encoder e = .dealing pFrame →
      (s.heap pFrame).release = .releasePkt ∧ (s.heap pFrame).pBuffer ∉ s.freedPkts) ∧
    (∀ stream pFrame, s.mux = .writing stream pFrame →
      (s.heap pFrame).release = .releasePktBuffer ∧
      (s.heap pFrame).releaseArg ∉ s.freedPkts) := by
  have hlabelled := run_labelled run
  refine ⟨?_, ?_, ?_⟩
  · have hnodup : (carryingPlaces ++ [PktPlace.freed]).Nodup := by decide
    have hperm := (run_packetsAccounted run).perm hnodup (by decide)
    rwa [List.flatMap_append, List.flatMap_singleton] at hperm
  · intro e pFrame hpc
    have hrelease := hlabelled.hand (.encoder e) (pFrame, e.input.release) (by
      rw [labels_encoder hpc]
      exact List.mem_singleton_self _)
    rw [input_release] at hrelease
    refine ⟨hrelease, not_freed_of_carried run (t := .encoder e) ?_⟩
    rw [packets_encoder hpc]
    simp [EncoderPc.carriedPkts, EncoderPc.hand, MediaFrame.packet, hrelease]
  · intro stream pFrame hpc
    have hrelease := hlabelled.hand .mux (pFrame, .releasePktBuffer) (by
      rw [labels_mux hpc]
      exact List.mem_singleton_self _)
    refine ⟨hrelease, not_freed_of_carried run (t := .mux) ?_⟩
    rw [packets_mux hpc]
    simp [MuxPc.carriedPkts, MuxPc.hand, MediaFrame.packet, hrelease]

/-- The encoder gives nothing out for the first packet: its own packet is dropped. -/
theorem packets_accounted_delay :
    ∃ tr s, Run (pipelineStep ⟨0, 1⟩ exactLibAv)
      (PipelineState.init 500 queueCapacity
        (openedMuxer false true false "flv" 0 0 0)) tr s ∧
      s.nextPkt = 4 ∧ packetsDropped tr = [1] ∧ s.mux = .writing .video 0 ∧
      (s.packetsCarried ++ s.freedPkts ++ packetsDropped tr).Perm
        (List.range s.nextPkt) ∧
      (s.heap 0).release = .releasePktBuffer ∧ (s.heap 0).releaseArg ∉ s.freedPkts := by
  obtain ⟨tr, s, run, hnext, hdropped, hmux⟩ :=
    Run.exists_of_exec (pipelineStep ⟨0, 1⟩ exactLibAv)
      (PipelineState.init 500 queueCapacity
        (openedMuxer false true false "flv" 0 0 0))
      ([.start .mpThreadVE, .startMux] ++
        List.replicate 8 (.device ⟨0, 0⟩) ++
        List.replicate 4 (.encoder .mpThreadVE ⟨.nothing, 0⟩) ++
        List.replicate 9 (.device ⟨0, 0⟩) ++
        List.replicate 8 (.encoder .mpThreadVE ⟨.got ⟨7, 100, 0, 0, 1⟩, 0⟩) ++
        List.replicate 3 (.mux ⟨0, 0, false⟩))
      (fun r => r.2.nextPkt = 4 ∧ packetsDropped r.1 = [1] ∧
        r.2.mux = .writing .video 0)
      (by decide +kernel)
  obtain ⟨hperm, -, hwrites⟩ := packets_accounted run
  exact ⟨tr, s, run, hnext, hdropped, hmux, hperm, hwrites .video 0 hmux⟩

end KoalaStreamer
