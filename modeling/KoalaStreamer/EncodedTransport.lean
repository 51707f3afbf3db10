import KoalaStreamer.DeviceReading
import KoalaStreamer.Library.LossyChannel
import KoalaStreamer.Library.RunRules
import KoalaStreamer.RawQueues

/-!
# From an encoder to the muxer

What an encoder gives out travels in frames that come from the common pool: through
`func`, the output queue, the callback and `write_frame`.  On the way the encoder thread,
the cleanings of the device thread and the mux thread may drop it.  For each encoder this
is a channel that keeps the order and may lose, and the frames, their recycling and the
locks are invisible in it.

Main results:
* `pipeline_refines_channel`: every run of the pipeline is one of the channel;
* `encoded_in_order`: what is written, and then what is on its way, is a sublist of what
  the encoder has given out, unchanged.
-/

namespace KoalaStreamer

open EventMachine TokenAccounting LossyChannel

/-! ## What is on its way -/

section Transit

/-- A packet that an encoder has given out. -/
abbrev SentPkt := PktId × EncodedPkt

/-- What a frame of an encoder carries. -/
def MediaFrame.carried (frame : MediaFrame) : SentPkt :=
  (frame.releaseArg, ⟨frame.pBuffer, frame.size, frame.pts, frame.dts, frame.flag⟩)

/-- What an encoder thread has yet to enqueue. -/
def EncoderPc.carried (heap : FrameId → MediaFrame) : EncoderPc → List SentPkt
  | .inputReleasing _ (some sent) => [sent]
  | .getting pkt out => [(pkt, out)]
  | .filling pkt out _ => [(pkt, out)]
  | .enqueueing pFrame => [(heap pFrame).carried]
  | .enqueueWaiting pFrame => [(heap pFrame).carried]
  | .enqueued pFrame ret => if ret < 0 then [(heap pFrame).carried] else []
  | _ => []

/-- What the mux thread has taken from the queue and has yet to write. -/
def MuxPc.carried (heap : FrameId → MediaFrame) (q : QueueId) : MuxPc → List SentPkt
  | .dequeued stream _ (some pFrame) =>
      if stream.queue = q then [(heap pFrame).carried] else []
  | .writing stream pFrame => if stream.queue = q then [(heap pFrame).carried] else []
  | _ => []

/-- What the output queue of an encoder thread holds. -/
def PipelineState.outputPackets (s : PipelineState) (e : EncoderId) : List SentPkt :=
  (s.queue e.output).contents.map fun f => (s.heap f).carried

/-- Given out by the encoder and not yet written, the oldest first. -/
def PipelineState.inTransit (s : PipelineState) (e : EncoderId) : List SentPkt :=
  s.mux.carried s.heap e.output ++ s.outputPackets e ++ (s.encoder e).carried s.heap

/-- What the encoder gives out in the step. -/
def sentBy (e : EncoderId) (τ : PipelineTransition) : List SentPkt :=
  match τ.action with
  | .encoder e' answer =>
      if e' = e then
        match τ.src.encoder e, answer.encoded with
        | .dealing _, .got out => [(τ.src.nextPkt, out)]
        | _, _ => []
      else []
  | _ => []

/-- What `write_frame` obtains for the stream of the encoder in the step. -/
def writtenBy (e : EncoderId) (τ : PipelineTransition) : List SentPkt :=
  match τ.action, τ.src.mux with
  | .mux _, .writing stream pFrame =>
      if stream.queue = e.output then [(τ.src.heap pFrame).carried] else []
  | _, _ => []

/-- What the two ends of the way see of a step. -/
def endsOf (e : EncoderId) (τ : PipelineTransition) : List (SentPkt ⊕ SentPkt) :=
  (sentBy e τ).map .inl ++ (writtenBy e τ).map .inr

def packetsSent (e : EncoderId) (tr : List PipelineTransition) : List SentPkt :=
  tr.flatMap (sentBy e)

def packetsWritten (e : EncoderId) (tr : List PipelineTransition) : List SentPkt :=
  tr.flatMap (writtenBy e)

/-- How a step changes what is on its way. -/
inductive TransitMove (before : List SentPkt) :
    List SentPkt → List SentPkt → List SentPkt → Prop
  | keeps : TransitMove before before [] []
  | sends (x : SentPkt) : TransitMove before (before ++ [x]) [x] []
  | loses (front rest : List SentPkt) (x : SentPkt) (h : before = front ++ x :: rest) :
      TransitMove before (front ++ rest) [] []
  | writes (x : SentPkt) (rest : List SentPkt) (h : before = x :: rest) :
      TransitMove before rest [] [x]

theorem TransitMove.of_eq
    {before after : List SentPkt} (h : after = before) :
    TransitMove before after [] [] := by
  subst h
  exact .keeps

end Transit

/-! ## The queues that the threads touch -/

section Queues

variable {cfg : StreamerConfig} {lib : LibAv} {s s' : PipelineState}
  {es : List PipelineEvent} {a : PipelineAction} {e : EncoderId}

/-- The device thread enqueues into queues of raw frames and cleans the others. -/
def DevicePc.Placed : DevicePc → Prop
  | .enqueueing q _ => q = .pYUVQueue ∨ q = .pPCMQueue
  | .enqueueWaiting q _ => q = .pYUVQueue ∨ q = .pPCMQueue
  | .sizing q => q = .pVEQueue ∨ q = .pAEQueue
  | .entering q => q = .pVEQueue ∨ q = .pAEQueue
  | .cleaning q _ => q = .pVEQueue ∨ q = .pAEQueue
  | .cleanReleasing q _ _ _ => q = .pVEQueue ∨ q = .pAEQueue
  | _ => True

theorem routeFrame_placed
    (cfg : StreamerConfig) (streamIndex : Int) (pFrame : FrameId) :
    (routeFrame cfg streamIndex pFrame).Placed := by
  simp only [routeFrame]
  split
  · exact Or.inl rfl
  · split
    · exact Or.inr rfl
    · exact trivial

theorem afterSize_placed
    (q : QueueId) : (afterSize q).Placed := by
  cases q <;> first | exact Or.inr rfl | exact trivial

theorem deviceStep_placed
    {answer : DeviceAnswer} (hplaced : s.device.Placed)
    (h : deviceStep cfg s answer = some (s', es)) :
    s'.device.Placed := by
  cases deviceStep_case h with
  | loopHead hpc =>
      simp only [PipelineState.setDevice]
      split <;> exact trivial
  | routes streamIndex pFrame hpc =>
      exact routeFrame_placed cfg streamIndex pFrame
  | waits q pFrame hpc hfull =>
      rw [hpc] at hplaced
      exact hplaced
  | puts q pFrame hpc hroom =>
      exact Or.inl rfl
  | wakes q pFrame hpc =>
      exact Or.inl rfl
  | releases pFrame hpc =>
      exact Or.inl rfl
  | selects q hpc hlong =>
      rw [hpc] at hplaced
      exact hplaced
  | skips q hpc hshort =>
      exact afterSize_placed q
  | enters q hpc =>
      rw [hpc] at hplaced
      exact hplaced
  | cleanEnds q size hpc hpass =>
      exact afterSize_placed q
  | cleans q size p hpc hpass hremoved =>
      rw [hpc] at hplaced
      simp only [PipelineState.setDevice]
      split
      · exact afterSize_placed q
      · exact hplaced
  | removes q size p pFrame hpc hpass hremoved =>
      rw [hpc] at hplaced
      exact hplaced
  | cleanReleases q size stop pFrame hpc =>
      rw [hpc] at hplaced
      simp only [PipelineState.setDevice]
      split
      · exact afterSize_placed q
      · exact hplaced
  | _ =>
      exact trivial

theorem pipelineStep_placed
    (hplaced : s.device.Placed) (h : pipelineStep cfg lib s a = some (s', es)) :
    s'.device.Placed := by
  by_cases hdevice : ∃ answer, a = .device answer
  · obtain ⟨answer, rfl⟩ := hdevice
    exact deviceStep_placed hplaced h
  · rw [pipelineStep_device h fun answer heq => hdevice ⟨answer, heq⟩]
    exact hplaced

theorem run_placed
    {poolCapacity : ℕ} {capacity : QueueId → ℕ} {pHandle : KoalaMuxer}
    {tr : List PipelineTransition}
    (run : Run (pipelineStep cfg lib)
      (PipelineState.init poolCapacity capacity pHandle) tr s) :
    s.device.Placed :=
  Run.invariant (fun _ s => s.device.Placed) trivial
    (fun _ _ _ _ _ hplaced hstep => pipelineStep_placed hplaced hstep) run

theorem output_ne_raw
    {q : QueueId} (h : q = .pYUVQueue ∨ q = .pPCMQueue) : e.output ≠ q := by
  rcases h with rfl | rfl <;> cases e <;> decide

theorem output_injective
    {e e' : EncoderId} (h : e.output = e'.output) : e = e' := by
  cases e <;> cases e' <;> first | rfl | cases h

/-- The device thread takes the head of the queue of encoded frames, or leaves it. -/
theorem deviceStep_output
    {answer : DeviceAnswer} (hplaced : s.device.Placed)
    (h : deviceStep cfg s answer = some (s', es)) (e : EncoderId) :
    (s'.queue e.output).contents = (s.queue e.output).contents ∨
    ∃ f, (s.queue e.output).contents = f :: (s'.queue e.output).contents := by
  cases deviceStep_case h with
  | getsFrame pkt streamIndex hpc =>
      exact Or.inl (congrArg FiFo.contents
        (congrFun (getMediaFrame_same s).1.queue e.output))
  | puts q pFrame hpc hroom =>
      rw [hpc] at hplaced
      exact Or.inl (congrArg FiFo.contents
        (Function.update_of_ne (output_ne_raw hplaced) _ _))
  | wakes q pFrame hpc =>
      rw [hpc] at hplaced
      exact Or.inl (congrArg FiFo.contents
        (Function.update_of_ne (output_ne_raw hplaced) _ _))
  | releases pFrame hpc =>
      exact Or.inl (congrArg FiFo.contents
        (congrFun (mediaFrameRelease_same s pFrame).1.queue e.output))
  | cleanReleases q size stop pFrame hpc =>
      exact Or.inl (congrArg FiFo.contents
        (congrFun (mediaFrameRelease_same s pFrame).1.queue e.output))
  | cleans q size p hpc hpass hremoved =>
      have hcontents := (cleanPass_contents hpass).1
      rw [hremoved] at hcontents
      by_cases hq : e.output = q
      · subst hq
        refine Or.inl ?_
        simpa [PipelineState.setQueue, PipelineState.setDevice] using hcontents
      · exact Or.inl (congrArg FiFo.contents (Function.update_of_ne hq _ _))
  | removes q size p pFrame hpc hpass hremoved =>
      have hcontents := (cleanPass_contents hpass).1
      rw [hremoved] at hcontents
      by_cases hq : e.output = q
      · subst hq
        refine Or.inr ⟨pFrame, ?_⟩
        simpa [PipelineState.setQueue, PipelineState.setDevice] using hcontents.symm
      · exact Or.inl (congrArg FiFo.contents (Function.update_of_ne hq _ _))
  | _ =>
      exact Or.inl rfl

/-- An encoder thread works on its own two queues. -/
theorem encoderStep_queue
    {answer : EncoderAnswer} (h : encoderStep s e answer = some (s', es))
    {q : QueueId} (hinput : q ≠ e.input) (houtput : q ≠ e.output) :
    s'.queue q = s.queue q := by
  cases encoderStep_case h with
  | gets hpc hlocked hsome =>
      exact Function.update_of_ne hinput _ _
  | dequeueWakes hpc hlocked =>
      exact Function.update_of_ne hinput _ _
  | deals pFrame hpc =>
      cases answer.encoded <;> rfl
  | releasesEncoded pFrame pkt out hpc =>
      exact congrFun (mediaFrameRelease_same s pFrame).1.queue q
  | releasesInput pFrame hpc =>
      exact congrFun (mediaFrameRelease_same s pFrame).1.queue q
  | releases pFrame hpc =>
      exact congrFun (mediaFrameRelease_same s pFrame).1.queue q
  | getsFrame pkt out hpc =>
      exact congrFun (getMediaFrame_same s).1.queue q
  | puts pFrame hpc hlocked hroom =>
      exact Function.update_of_ne houtput _ _
  | enqueueWakes pFrame hpc hlocked =>
      exact Function.update_of_ne houtput _ _
  | _ =>
      rfl

end Queues

/-! ## What a step does to the packets on their way -/

section Steps

variable {cfg : StreamerConfig} {lib : LibAv} {s s' : PipelineState}
  {es : List PipelineEvent} {a : PipelineAction} {e : EncoderId}

theorem EncoderPc.carried_congr
    {heap heap' : FrameId → MediaFrame} {pc : EncoderPc}
    (h : ∀ f ∈ pc.hand, heap' f = heap f) :
    pc.carried heap' = pc.carried heap := by
  cases pc with
  | inputReleasing pFrame out =>
      cases out <;> rfl
  | enqueued pFrame ret =>
      simp only [EncoderPc.hand, EncoderPc.carried] at h ⊢
      split
      · rename_i hneg
        rw [if_pos hneg] at h
        rw [h pFrame (List.mem_singleton_self _)]
      · rfl
  | enqueueing pFrame =>
      simp only [EncoderPc.carried, h pFrame (List.mem_singleton_self _)]
  | enqueueWaiting pFrame =>
      simp only [EncoderPc.carried, h pFrame (List.mem_singleton_self _)]
  | _ =>
      rfl

theorem MuxPc.carried_congr
    {heap heap' : FrameId → MediaFrame} {pc : MuxPc} (q : QueueId)
    (h : ∀ f ∈ pc.hand, heap' f = heap f) :
    pc.carried heap' q = pc.carried heap q := by
  cases pc with
  | dequeued stream again pFrame =>
      cases pFrame with
      | none => rfl
      | some pFrame =>
          simp only [MuxPc.carried, h pFrame (List.mem_singleton_self _)]
  | writing stream pFrame =>
      simp only [MuxPc.carried, h pFrame (List.mem_singleton_self _)]
  | _ =>
      rfl

/-- The frames on their way stay what they are, and their places but for the queue. -/
theorem inTransit_beside
    (hmux : s'.mux.carried s'.heap e.output = s.mux.carried s.heap e.output)
    (hencoder : (s'.encoder e).carried s'.heap = (s.encoder e).carried s.heap)
    (hheap : ∀ f ∈ (s.queue e.output).contents, s'.heap f = s.heap f)
    (hqueue : (s'.queue e.output).contents = (s.queue e.output).contents) :
    s'.inTransit e = s.inTransit e := by
  have houtput : s'.outputPackets e = s.outputPackets e := by
    rw [PipelineState.outputPackets, hqueue]
    exact List.map_congr_left fun f hf => congrArg MediaFrame.carried (hheap f hf)
  rw [PipelineState.inTransit, PipelineState.inTransit, hmux, hencoder, houtput]

/-- A step of the device thread drops the head of the queue, or nothing. -/
theorem deviceStep_transit
    {answer : DeviceAnswer}
    (honce : AtMostOnce s.custody s.nextFrame) (hplaced : s.device.Placed)
    (h : deviceStep cfg s answer = some (s', es)) :
    TransitMove (s.inTransit e) (s'.inTransit e) [] [] := by
  obtain ⟨-, hencoder, hmux, -⟩ := deviceStep_others h
  have hstep : pipelineStep cfg exactLibAv s (.device answer) = some (s', es) := h
  have hheap : ∀ p f, f ∈ s.custody p → p ≠ .hand .device → s'.heap f = s.heap f := by
    intro p f hf hp
    refine pipelineStep_heap_of_place honce hstep hf ?_
    rintro t ht rfl
    cases ht
    exact hp rfl
  have hmux' : s'.mux.carried s'.heap e.output = s.mux.carried s.heap e.output := by
    rw [hmux]
    exact MuxPc.carried_congr _ fun f hf => hheap (.hand .mux) f hf (by simp)
  have hencoder' : (s'.encoder e).carried s'.heap = (s.encoder e).carried s.heap := by
    rw [hencoder]
    exact EncoderPc.carried_congr fun f hf => hheap (.hand (.encoder e)) f hf (by simp)
  have hqueue : ∀ f ∈ (s.queue e.output).contents, s'.heap f = s.heap f :=
    fun f hf => hheap (.queue e.output) f hf (by simp)
  rcases deviceStep_output hplaced h e with hsame | ⟨f, hhead⟩
  · exact .of_eq (inTransit_beside hmux' hencoder' hqueue hsame)
  · have hrest : s'.outputPackets e =
        (s'.queue e.output).contents.map fun g => (s.heap g).carried := by
      refine List.map_congr_left fun g hg => ?_
      rw [hqueue g (hhead ▸ List.mem_cons_of_mem f hg)]
    have hbefore : s.inTransit e = s.mux.carried s.heap e.output ++
        (s.heap f).carried :: (s'.outputPackets e ++ (s.encoder e).carried s.heap) := by
      rw [PipelineState.inTransit, PipelineState.outputPackets, hhead, List.map_cons, hrest,
        List.append_assoc, List.cons_append]
    have hafter : s'.inTransit e = s.mux.carried s.heap e.output ++
        (s'.outputPackets e ++ (s.encoder e).carried s.heap) := by
      rw [PipelineState.inTransit, hmux', hencoder', List.append_assoc]
    rw [hafter]
    exact .loses _ _ _ hbefore

/-- A thread of another encoder leaves the packets alone. -/
theorem encoderStep_transit_other
    {e' : EncoderId} {answer : EncoderAnswer}
    (honce : AtMostOnce s.custody s.nextFrame) (hne : e' ≠ e)
    (h : encoderStep s e' answer = some (s', es)) :
    s'.inTransit e = s.inTransit e := by
  obtain ⟨-, -, hencoder, -, hmux, -⟩ := encoderStep_others h
  have hstep : pipelineStep ⟨0, 0⟩ exactLibAv s (.encoder e' answer) = some (s', es) := h
  have hheap : ∀ p f, f ∈ s.custody p → p ≠ .hand (.encoder e') →
      s'.heap f = s.heap f := by
    intro p f hf hp
    refine pipelineStep_heap_of_place honce hstep hf ?_
    rintro t ht rfl
    cases ht
    exact hp rfl
  refine inTransit_beside ?_ ?_ (fun f hf => hheap (.queue e.output) f hf (by simp)) ?_
  · rw [hmux]
    exact MuxPc.carried_congr _ fun f hf => hheap (.hand .mux) f hf (by simp)
  · rw [hencoder e (Ne.symm hne)]
    refine EncoderPc.carried_congr fun f hf => hheap (.hand (.encoder e)) f hf ?_
    intro hplace
    cases hplace
    exact hne rfl
  · refine congrArg FiFo.contents (encoderStep_queue h ?_ ?_)
    · exact (input_ne_output e' e).symm
    · exact fun heq => hne (output_injective heq).symm

/-- An `enqueue` of the encoder thread has returned: the packet is in the queue, or still
in the hand of the thread, or lost. -/
theorem encoderEnqueued_transit
    {pFrame : FrameId} {x : EnqueueExit FrameId}
    (hbefore : (s.encoder e).carried s.heap = [(s.heap pFrame).carried])
    (hstored : x.queue.contents = (s.queue e.output).contents ++ x.stored pFrame)
    (hone : x.stored pFrame ++ (if x.ret < 0 then [pFrame] else []) = [pFrame] ∨
      x.stored pFrame ++ (if x.ret < 0 then [pFrame] else []) = []) :
    TransitMove (s.inTransit e) ((encoderEnqueued s e pFrame x).1.inTransit e) [] [] := by
  have houtput : (encoderEnqueued s e pFrame x).1.outputPackets e =
      s.outputPackets e ++ (x.stored pFrame).map fun f => (s.heap f).carried := by
    have hqueue : (encoderEnqueued s e pFrame x).1.queue e.output = x.queue :=
      Function.update_self _ _ _
    rw [PipelineState.outputPackets, hqueue, hstored, List.map_append]
    rfl
  have hencoder : ((encoderEnqueued s e pFrame x).1.encoder e).carried s.heap =
      (if x.ret < 0 then [pFrame] else []).map fun f => (s.heap f).carried := by
    have hpc : (encoderEnqueued s e pFrame x).1.encoder e = .enqueued pFrame x.ret :=
      Function.update_self _ _ _
    rw [hpc, EncoderPc.carried]
    split <;> rfl
  have hafter : (encoderEnqueued s e pFrame x).1.inTransit e =
      s.mux.carried s.heap e.output ++ s.outputPackets e ++
        (x.stored pFrame ++ if x.ret < 0 then [pFrame] else []).map
          fun f => (s.heap f).carried := by
    rw [List.map_append, ← hencoder, ← List.append_assoc,
      List.append_assoc (s.mux.carried s.heap e.output), ← houtput]
    rfl
  have htransit : s.inTransit e = s.mux.carried s.heap e.output ++ s.outputPackets e ++
      [(s.heap pFrame).carried] := by
    rw [PipelineState.inTransit, hbefore]
  rcases hone with hone | hone
  · refine .of_eq ?_
    rw [hafter, hone, htransit]
    rfl
  · rw [hafter, hone]
    exact .loses _ [] _ htransit

/-- `deal` adds the packet it gives out. -/
theorem encoderDealt_transit
    {pFrame : FrameId} {answer : EncoderAnswer} (hpc : s.encoder e = .dealing pFrame) :
    TransitMove (s.inTransit e) ((encoderDealt s e pFrame answer.encoded).inTransit e)
      (sentBy e ⟨s, .encoder e answer, es, s'⟩) [] := by
  have hbefore : s.inTransit e = s.mux.carried s.heap e.output ++ s.outputPackets e := by
    rw [PipelineState.inTransit, hpc]
    exact List.append_nil _
  have hafter : ∀ (mid : PipelineState) (pc : EncoderPc),
      mid.mux = s.mux → mid.heap = s.heap → mid.queue = s.queue → mid.encoder e = pc →
      mid.inTransit e = s.inTransit e ++ pc.carried s.heap := by
    intro mid pc hmux hheap hqueue hpc'
    rw [hbefore, PipelineState.inTransit, PipelineState.outputPackets, hmux, hheap, hqueue,
      hpc']
    rfl
  cases hencoded : answer.encoded with
  | kept =>
      simp only [sentBy, hpc, hencoded, if_true]
      refine .of_eq ?_
      rw [hafter (encoderDealt s e pFrame .kept) (.inputReleasing pFrame none)
        rfl rfl rfl (Function.update_self _ _ _)]
      exact List.append_nil _
  | nothing =>
      simp only [sentBy, hpc, hencoded, if_true]
      refine .of_eq ?_
      rw [hafter (encoderDealt s e pFrame .nothing) (.inputReleasing pFrame none)
        rfl rfl rfl (Function.update_self _ _ _)]
      exact List.append_nil _
  | got out =>
      simp only [sentBy, hpc, hencoded, if_true]
      rw [hafter (encoderDealt s e pFrame (.got out))
        (.inputReleasing pFrame (some (s.nextPkt, out))) rfl rfl rfl
        (Function.update_self _ _ _)]
      exact .sends _

/-- A step of the thread that does not deal loses a packet, or nothing. -/
theorem encoderStep_transit_of_not_dealing
    {answer : EncoderAnswer}
    (honce : AtMostOnce s.custody s.nextFrame) (hdeal : ∀ f, s.encoder e ≠ .dealing f)
    (h : encoderStep s e answer = some (s', es)) :
    TransitMove (s.inTransit e) (s'.inTransit e) [] [] := by
  obtain ⟨-, -, -, -, hmux, -⟩ := encoderStep_others h
  have hstep : pipelineStep ⟨0, 0⟩ exactLibAv s (.encoder e answer) = some (s', es) := h
  have hheap : ∀ p f, f ∈ s.custody p → p ≠ .hand (.encoder e) →
      s'.heap f = s.heap f := by
    intro p f hf hp
    refine pipelineStep_heap_of_place honce hstep hf ?_
    rintro t ht rfl
    cases ht
    exact hp rfl
  have hmux' : s'.mux.carried s'.heap e.output = s.mux.carried s.heap e.output := by
    rw [hmux]
    exact MuxPc.carried_congr _ fun f hf => hheap (.hand .mux) f hf (by simp)
  have hqueue : ∀ f ∈ (s.queue e.output).contents, s'.heap f = s.heap f :=
    fun f hf => hheap (.queue e.output) f hf (by simp)
  -- the thread goes on with what it carries
  have hwalks : ∀ {pc pc' : EncoderPc}, s.encoder e = pc → s'.encoder e = pc' →
      s'.queue e.output = s.queue e.output → pc'.carried s'.heap = pc.carried s.heap →
      TransitMove (s.inTransit e) (s'.inTransit e) [] [] := by
    intro pc pc' hpc hpc' hsame hcarried
    refine .of_eq (inTransit_beside hmux' ?_ hqueue (congrArg FiFo.contents hsame))
    rw [hpc', hpc, hcarried]
  have hset : ∀ {mid : PipelineState} {pc : EncoderPc},
      (mid.setEncoder e pc).encoder e = pc :=
    fun {mid pc} => Function.update_self _ _ _
  have hinput : e.output ≠ e.input := (input_ne_output e e).symm
  cases encoderStep_case h with
  | exits hpc hstatus =>
      exact hwalks hpc hset rfl rfl
  | pauses hpc hstatus =>
      exact .keeps
  | loops hpc hstatus =>
      exact hwalks hpc hset rfl rfl
  | dequeueWaits hpc hlocked hempty =>
      exact hwalks hpc hset rfl rfl
  | gets hpc hlocked hsome =>
      refine hwalks hpc hset (Function.update_of_ne hinput _ _) ?_
      split <;> rfl
  | dequeueWakes hpc hlocked =>
      refine hwalks hpc hset (Function.update_of_ne hinput _ _) ?_
      split <;> rfl
  | deals pFrame hpc =>
      exact absurd hpc (hdeal pFrame)
  | releasesEncoded pFrame pkt out hpc =>
      exact hwalks hpc hset
        (congrFun (mediaFrameRelease_same s pFrame).1.queue e.output) rfl
  | releasesInput pFrame hpc =>
      exact hwalks hpc hset
        (congrFun (mediaFrameRelease_same s pFrame).1.queue e.output) rfl
  | getsFrame pkt out hpc =>
      exact hwalks hpc hset (congrFun (getMediaFrame_same s).1.queue e.output) rfl
  | fills pkt out pFrame hpc =>
      refine hwalks hpc hset rfl ?_
      simp [EncoderPc.carried, PipelineState.setFrame, PipelineState.setEncoder,
        encodedFrame, mediaFrameSetRelease, MediaFrame.carried]
  | enqueueWaits pFrame hpc hlocked hfull =>
      exact hwalks hpc hset rfl rfl
  | puts pFrame hpc hlocked hroom =>
      refine encoderEnqueued_transit (by rw [hpc]; rfl) (enqueuePut_contents _ _)
        (Or.inl ?_)
      simp [enqueuePut_stored, hroom]
  | enqueueWakes pFrame hpc hlocked =>
      refine encoderEnqueued_transit (by rw [hpc]; rfl) (enqueueWake_contents _ _ _) ?_
      have haccount := enqueueWake_accounts (s.queue e.output) pFrame answer.wait
      by_cases hlost : answer.wait ≠ ETIMEDOUT ∧ (s.queue e.output).isFull = true
      · rw [if_pos hlost] at haccount
        exact Or.inr (List.append_cancel_right (haccount.trans (List.nil_append _).symm))
      · rw [if_neg hlost, List.append_nil] at haccount
        exact Or.inl haccount
  | retries pFrame ret hpc hneg hretry =>
      exact hwalks hpc hset rfl (if_pos hneg).symm
  | givesUp pFrame ret hpc hneg hretry =>
      have hbefore : s.inTransit e = s.mux.carried s.heap e.output ++ s.outputPackets e ++
          [(s.heap pFrame).carried] := by
        rw [PipelineState.inTransit, hpc, EncoderPc.carried, if_pos hneg]
      have hafter : (s.setEncoder e (.releasing pFrame)).inTransit e =
          s.mux.carried s.heap e.output ++ s.outputPackets e ++ [] := by
        rw [PipelineState.inTransit, hset]
        rfl
      rw [hafter]
      exact .loses _ [] _ hbefore
  | hasEnqueued pFrame ret hpc hneg =>
      exact hwalks hpc hset rfl (if_neg hneg).symm
  | releases pFrame hpc =>
      exact hwalks hpc hset
        (congrFun (mediaFrameRelease_same s pFrame).1.queue e.output) rfl

/-- What the thread of the encoder does to the packets on their way. -/
theorem encoderStep_transit
    {answer : EncoderAnswer}
    (honce : AtMostOnce s.custody s.nextFrame)
    (h : encoderStep s e answer = some (s', es)) :
    TransitMove (s.inTransit e) (s'.inTransit e)
      (sentBy e ⟨s, .encoder e answer, es, s'⟩) [] := by
  by_cases hdeal : ∃ pFrame, s.encoder e = .dealing pFrame
  · obtain ⟨pFrame, hpc⟩ := hdeal
    simp only [encoderStep, hpc] at h
    obtain ⟨rfl, rfl⟩ := Prod.mk.inj (Option.some.inj h)
    exact encoderDealt_transit hpc
  · have hnot : ∀ f, s.encoder e ≠ .dealing f := fun f hpc => hdeal ⟨f, hpc⟩
    have hsent : sentBy e ⟨s, .encoder e answer, es, s'⟩ = [] := by
      simp only [sentBy, if_true]
      split
      · rename_i hpc _
        exact absurd hpc (hnot _)
      · rfl
    rw [hsent]
    exact encoderStep_transit_of_not_dealing honce hnot h

/-- A queue of encoded frames belongs to one stream. -/
theorem stream_queue_eq_iff
    {stream stream' : StreamType} :
    stream.queue = stream'.queue ↔ stream = stream' := by
  cases stream <;> cases stream' <;> decide

/-- The mux thread has taken from the queue what it carries. -/
theorem muxDequeued_transit
    {stream : StreamType} {again : Bool} {pc : MuxPc} {d : DequeueExit FrameId}
    (hpc : s.mux = pc) (hnone : pc.carried s.heap e.output = [])
    (htaken : d.ret.toList ++ d.queue.contents = (s.queue stream.queue).contents) :
    (muxDequeued s stream again d).1.inTransit e = s.inTransit e := by
  have hcarried : MuxPc.carried s.heap e.output (.dequeued stream again d.ret) =
      if stream.queue = e.output then d.ret.toList.map fun f => (s.heap f).carried
      else [] := by
    cases hret : d.ret <;> simp [MuxPc.carried]
  have hafter : (muxDequeued s stream again d).1.inTransit e =
      MuxPc.carried s.heap e.output (.dequeued stream again d.ret) ++
        ((muxDequeued s stream again d).1.queue e.output).contents.map
          (fun f => (s.heap f).carried) ++ (s.encoder e).carried s.heap := rfl
  rw [hafter, hcarried, PipelineState.inTransit, hpc, hnone, List.nil_append]
  by_cases hq : stream.queue = e.output
  · have hqueue : (muxDequeued s stream again d).1.queue e.output = d.queue := by
      rw [← hq]
      exact Function.update_self _ _ _
    rw [if_pos hq, hqueue, ← List.map_append, htaken, hq]
    rfl
  · have hqueue : (muxDequeued s stream again d).1.queue e.output = s.queue e.output :=
      Function.update_of_ne (Ne.symm hq) _ _
    rw [if_neg hq, hqueue, List.nil_append]
    rfl

/-- What the mux thread does to the packets on their way. -/
theorem muxThreadStep_transit
    {answer : MuxAnswer}
    (honce : AtMostOnce s.custody s.nextFrame)
    (h : muxThreadStep lib s answer = some (s', es)) :
    TransitMove (s.inTransit e) (s'.inTransit e) []
      (writtenBy e ⟨s, .mux answer, es, s'⟩) := by
  obtain ⟨-, hencoder, -, -⟩ := muxThreadStep_others h
  have hstep : pipelineStep ⟨0, 0⟩ lib s (.mux answer) = some (s', es) := h
  have hheap : ∀ p f, f ∈ s.custody p → p ≠ .hand .mux → s'.heap f = s.heap f := by
    intro p f hf hp
    refine pipelineStep_heap_of_place honce hstep hf ?_
    rintro t ht rfl
    cases ht
    exact hp rfl
  have hencoder' : (s'.encoder e).carried s'.heap = (s.encoder e).carried s.heap := by
    rw [hencoder]
    exact EncoderPc.carried_congr fun f hf => hheap (.hand (.encoder e)) f hf (by simp)
  have hqueue : ∀ f ∈ (s.queue e.output).contents, s'.heap f = s.heap f :=
    fun f hf => hheap (.queue e.output) f hf (by simp)
  -- the mux thread carries the same as before, and the queue holds the same
  have hwalks : s'.queue = s.queue →
      s'.mux.carried s'.heap e.output = s.mux.carried s.heap e.output →
      TransitMove (s.inTransit e) (s'.inTransit e) [] [] := fun hsame hmux =>
    .of_eq (inTransit_beside hmux hencoder' hqueue
      (congrArg FiFo.contents (congrFun hsame e.output)))
  -- the mux thread is done with what it carries
  have hdone : s'.queue = s.queue → s'.mux.carried s'.heap e.output = [] →
      s.inTransit e = s.mux.carried s.heap e.output ++ s'.inTransit e := by
    intro hsame hmux
    have houtput : s'.outputPackets e = s.outputPackets e := by
      rw [PipelineState.outputPackets, hsame]
      exact List.map_congr_left fun f hf => congrArg MediaFrame.carried (hqueue f hf)
    rw [PipelineState.inTransit, PipelineState.inTransit, hmux, hencoder', houtput,
      List.nil_append, List.append_assoc]
  cases muxThreadStep_case h with
  | stopsWithFrame stream again pFrame hpc hstop =>
      simp only [writtenBy, hpc]
      have hsplit := hdone rfl rfl
      rw [hpc, MuxPc.carried] at hsplit
      split at hsplit
      · exact .loses [] _ _ hsplit
      · exact .of_eq hsplit.symm
  | writes stream pFrame hpc =>
      simp only [writtenBy, hpc]
      have hsplit := hdone rfl rfl
      rw [hpc, MuxPc.carried] at hsplit
      split
      · rename_i hq
        rw [if_pos hq] at hsplit
        exact .writes _ _ hsplit
      · rename_i hq
        rw [if_neg hq] at hsplit
        exact .of_eq hsplit.symm
  | gets stream again hpc hlocked hsome =>
      simp only [writtenBy, hpc]
      exact .of_eq (muxDequeued_transit hpc rfl (dequeueGet_contents _))
  | dequeueWakes stream again hpc hlocked =>
      simp only [writtenBy, hpc]
      exact .of_eq (muxDequeued_transit hpc rfl (dequeueWake_contents _ _))
  | callbackReleases stream pFrame hpc =>
      simp only [writtenBy, hpc]
      exact hwalks (mediaFrameRelease_same s pFrame).1.queue (by rw [hpc]; rfl)
  | callbackEnds stream hpc =>
      simp only [writtenBy, hpc]
      refine hwalks rfl ?_
      rw [hpc]
      cases answer.ended <;> rfl
  | releases stream pFrame ret hpc =>
      simp only [writtenBy, hpc]
      refine hwalks (mediaFrameRelease_same s pFrame).1.queue ?_
      rw [hpc]
      cases answer.ended <;> rfl
  | exits hpc hselect =>
      simp only [writtenBy, hpc]
      exact hwalks rfl (by rw [hpc]; rfl)
  | selects stream hpc hselect hhave =>
      simp only [writtenBy, hpc]
      exact hwalks rfl (by rw [hpc]; rfl)
  | skips stream hpc hselect hhave =>
      simp only [writtenBy, hpc]
      exact hwalks rfl (by rw [hpc]; rfl)
  | dequeueWaits stream again hpc hlocked hempty =>
      simp only [writtenBy, hpc]
      exact hwalks rfl (by rw [hpc]; rfl)
  | stops stream again hpc hstop =>
      simp only [writtenBy, hpc]
      exact hwalks rfl (by rw [hpc]; rfl)
  | obtains stream again pFrame hpc hstop =>
      simp only [writtenBy, hpc]
      exact hwalks rfl (by rw [hpc]; rfl)
  | asksAgain stream again hpc hstop =>
      simp only [writtenBy, hpc]
      exact hwalks rfl (by rw [hpc]; rfl)

/-- What a step of the pipeline does to the packets on their way from an encoder. -/
theorem pipelineStep_transit
    (honce : AtMostOnce s.custody s.nextFrame) (hplaced : s.device.Placed)
    (hstart : StartInv s) (h : pipelineStep cfg lib s a = some (s', es)) :
    TransitMove (s.inTransit e) (s'.inTransit e) (sentBy e ⟨s, a, es, s'⟩)
      (writtenBy e ⟨s, a, es, s'⟩) := by
  cases a with
  | device answer =>
      exact deviceStep_transit honce hplaced h
  | encoder e' answer =>
      by_cases he : e' = e
      · subst he
        exact encoderStep_transit honce h
      · have hsent : sentBy e ⟨s, .encoder e' answer, es, s'⟩ = [] := if_neg he
        rw [hsent]
        exact .of_eq (encoderStep_transit_other honce he h)
  | mux answer =>
      exact muxThreadStep_transit honce h
  | setStop =>
      obtain ⟨rfl, rfl⟩ := Prod.mk.inj (Option.some.inj h)
      exact .keeps
  | start e' =>
      simp only [pipelineStep] at h
      split at h
      · rename_i hnull
        obtain ⟨rfl, rfl⟩ := Prod.mk.inj (Option.some.inj h)
        refine .of_eq (inTransit_beside rfl ?_ (fun _ _ => rfl) rfl)
        show ((s.setEncoder e' .runLoop).encoder e).carried s.heap = _
        rw [setEncoder_encoder]
        split
        · rename_i he
          rw [he, hstart e' hnull]
          rfl
        · rfl
      · obtain ⟨rfl, rfl⟩ := Prod.mk.inj (Option.some.inj h)
        exact .keeps
  | startMux =>
      simp only [pipelineStep] at h
      split at h
      · rename_i hpc
        obtain ⟨rfl, rfl⟩ := Prod.mk.inj (Option.some.inj h)
        refine .of_eq (inTransit_beside ?_ rfl (fun _ _ => rfl) rfl)
        rw [hpc]
        rfl
      · obtain ⟨rfl, rfl⟩ := Prod.mk.inj (Option.some.inj h)
        exact .keeps
  | _ =>
      simp only [pipelineStep] at h
      split at h <;> obtain ⟨rfl, rfl⟩ := Prod.mk.inj (Option.some.inj h) <;>
        exact .keeps

/-- A step gives out one packet at most. -/
theorem sentBy_length_le
    (e : EncoderId) (τ : PipelineTransition) :
    (sentBy e τ).length ≤ 1 := by
  simp only [sentBy]
  split
  · split
    · split <;> simp
    · simp
  · simp

/-- Packets are given out under new numbers. -/
theorem pipelineStep_sent
    (h : pipelineStep cfg lib s a = some (s', es)) :
    ∀ x ∈ sentBy e ⟨s, a, es, s'⟩, x.1 = s.nextPkt ∧ s.nextPkt < s'.nextPkt := by
  intro x hx
  cases a with
  | encoder e' answer =>
      simp only [sentBy] at hx
      split at hx
      · rename_i he
        subst he
        split at hx
        · rename_i pFrame out hpc hencoded
          simp only [pipelineStep, encoderStep, hpc] at h
          obtain ⟨rfl, -⟩ := Prod.mk.inj (Option.some.inj h)
          rw [List.mem_singleton.mp hx, hencoded]
          exact ⟨rfl, Nat.lt_succ_self _⟩
        · cases hx
      · cases hx
  | _ =>
      cases hx

end Steps

/-! ## The way is a channel -/

section Runs

variable {cfg : StreamerConfig} {lib : LibAv} {poolCapacity : ℕ}
  {capacity : QueueId → ℕ} {pHandle : KoalaMuxer}
  {tr : List PipelineTransition} {s : PipelineState}

/-- The channel answers a step of the pipeline. -/
theorem TransitMove.run
    {before after sent written : List SentPkt}
    (h : TransitMove before after sent written) :
    ∃ tr, Run channelStep before tr after ∧
      (eventsOf tr).filterMap ChannelEvent.ends =
        sent.map .inl ++ written.map .inr := by
  cases h with
  | keeps =>
      exact ⟨_, Run.nil, rfl⟩
  | sends x =>
      exact ⟨_, run_send before x, rfl⟩
  | loses front rest x hbefore =>
      subst hbefore
      exact ⟨_, run_lose front x rest, rfl⟩
  | writes x rest hbefore =>
      subst hbefore
      exact ⟨_, run_receive x after, rfl⟩

theorem init_inTransit
    (e : EncoderId) :
    (PipelineState.init poolCapacity capacity pHandle).inTransit e = [] := by
  have hempty : (PipelineState.init poolCapacity capacity pHandle).outputPackets e = [] :=
    congrArg (List.map _) (FiFo.contents_init (capacity e.output))
  rw [PipelineState.inTransit, hempty]
  rfl

/-- Every run of the pipeline is a run of the channel, for either encoder: the ends see
the same. -/
theorem pipeline_refines_channel
    (run : Run (pipelineStep cfg lib)
      (PipelineState.init poolCapacity capacity pHandle) tr s) (e : EncoderId) :
    ∃ ctr, Run channelStep [] ctr (s.inTransit e) ∧
      (eventsOf ctr).filterMap ChannelEvent.ends = tr.flatMap (endsOf e) := by
  obtain ⟨ctr, _, crun, rfl, hends⟩ := Run.simulates
    (fun (s : PipelineState) transit => transit = s.inTransit e) (endsOf e)
    ChannelEvent.ends (init_inTransit e).symm (fun {_ _ _ _ _ _} hrun hR hstep => by
      subst hR
      obtain ⟨ctr, crun, hends⟩ := (pipelineStep_transit (e := e) (pipeline_atMostOnce hrun)
        (run_placed hrun) (run_startInv hrun) hstep).run
      exact ⟨ctr, _, crun, rfl, hends⟩) run
  exact ⟨ctr, crun, hends⟩

theorem endsOf_left
    (e : EncoderId) (tr : List PipelineTransition) :
    (tr.flatMap (endsOf e)).filterMap Sum.getLeft? = packetsSent e tr := by
  rw [packetsSent, List.filterMap_flatMap]
  refine congrFun (congrArg List.flatMap (funext fun τ => ?_)) tr
  simp [endsOf, List.filterMap_map, Function.comp_def]

theorem endsOf_right
    (e : EncoderId) (tr : List PipelineTransition) :
    (tr.flatMap (endsOf e)).filterMap Sum.getRight? = packetsWritten e tr := by
  rw [packetsWritten, List.filterMap_flatMap]
  refine congrFun (congrArg List.flatMap (funext fun τ => ?_)) tr
  simp [endsOf, List.filterMap_map, Function.comp_def]

/-- No two packets are given out under one number. -/
theorem run_sentNodup
    (run : Run (pipelineStep cfg lib)
      (PipelineState.init poolCapacity capacity pHandle) tr s) (e : EncoderId) :
    ((packetsSent e tr).map Prod.fst).Nodup ∧ ∀ x ∈ packetsSent e tr, x.1 < s.nextPkt := by
  refine Run.invariant
    (fun tr s => ((packetsSent e tr).map Prod.fst).Nodup ∧
      ∀ x ∈ packetsSent e tr, x.1 < s.nextPkt)
    ⟨List.nodup_nil, fun _ hx => absurd hx List.not_mem_nil⟩ ?_ run
  rintro tr s a es s' ⟨hnodup, hfresh⟩ hstep
  have hnext := pipelineStep_nextPkt hstep
  have hsent := pipelineStep_sent (e := e) hstep
  rw [packetsSent, List.flatMap_append, List.flatMap_singleton, ← packetsSent]
  constructor
  · rw [List.map_append, List.nodup_append]
    refine ⟨hnodup, ?_, ?_⟩
    · match hlist : sentBy e ⟨s, a, es, s'⟩, sentBy_length_le e ⟨s, a, es, s'⟩ with
      | [], _ => exact List.nodup_nil
      | [x], _ => exact List.nodup_singleton _
    · intro p hp p' hp' heq
      obtain ⟨x, hx, rfl⟩ := List.mem_map.mp hp
      obtain ⟨x', hx', rfl⟩ := List.mem_map.mp hp'
      rw [(hsent x' hx').1] at heq
      exact (hfresh x hx).ne heq
  · intro x hx
    rcases List.mem_append.mp hx with hx | hx
    · exact (hfresh x hx).trans_le hnext
    · rw [(hsent x hx).1]
      exact (hsent x hx).2

/-- The run of the channel that the two ends see. -/
theorem run_channel
    (run : Run (pipelineStep cfg lib)
      (PipelineState.init poolCapacity capacity pHandle) tr s) (e : EncoderId) :
    ∃ ctr, Run channelStep [] ctr (s.inTransit e) ∧
      sentItems (eventsOf ctr) = packetsSent e tr ∧
      receivedItems (eventsOf ctr) = packetsWritten e tr := by
  obtain ⟨ctr, crun, hends⟩ := pipeline_refines_channel run e
  refine ⟨ctr, crun, ?_, ?_⟩
  · rw [sentItems_eq_ends, hends, endsOf_left]
  · rw [receivedItems_eq_ends, hends, endsOf_right]

/-- Nothing overtakes on the way from the encoder to the muxer, and nothing is added. -/
theorem run_transit_sublist
    (run : Run (pipelineStep cfg lib)
      (PipelineState.init poolCapacity capacity pHandle) tr s) (e : EncoderId) :
    (packetsWritten e tr ++ s.inTransit e).Sublist (packetsSent e tr) := by
  obtain ⟨ctr, crun, hsent, hreceived⟩ := run_channel run e
  have horder := run_inOrder crun
  rwa [hsent, hreceived] at horder

end Runs

/--
For either encoder, what `write_frame` obtains and then what is on its way is a sublist of
what the encoder has given out, every packet as it was given out; the pool, the queues and
the four threads do nothing else than a channel that may lose.
-/
theorem encoded_in_order
    {cfg : StreamerConfig} {lib : LibAv} {poolCapacity : ℕ}
    {capacity : QueueId → ℕ} {pHandle : KoalaMuxer}
    {tr : List PipelineTransition} {s : PipelineState}
    (run : Run (pipelineStep cfg lib)
      (PipelineState.init poolCapacity capacity pHandle) tr s) (e : EncoderId) :
    (packetsWritten e tr ++ s.inTransit e).Sublist (packetsSent e tr) ∧
    ((packetsSent e tr).map Prod.fst).Nodup ∧
    ∃ ctr, Run channelStep [] ctr (s.inTransit e) ∧
      sentItems (eventsOf ctr) = packetsSent e tr ∧
      receivedItems (eventsOf ctr) = packetsWritten e tr ∧
      (packetsSent e tr).length = (packetsWritten e tr).length +
        (lostItems (eventsOf ctr)).length + (s.inTransit e).length := by
  obtain ⟨ctr, crun, hsent, hreceived⟩ := run_channel run e
  have haccounts := (run_accounts crun).length_eq
  rw [hsent, hreceived] at haccounts
  rw [List.length_append, List.length_append] at haccounts
  exact ⟨run_transit_sublist run e, (run_sentNodup run e).1, ctr, crun, hsent, hreceived,
    haccounts⟩

/-- The one packet of the run is written as it was given out, in a recycled frame. -/
theorem encoded_in_order_recycled :
    ∃ tr s, Run (pipelineStep ⟨0, 1⟩ exactLibAv)
      (PipelineState.init 500 queueCapacity
        (openedMuxer false true false "flv" 0 0 0)) tr s ∧
      packetsSent .mpThreadVE tr = [(1, ⟨7, 100, 0, 0, 1⟩)] ∧
      packetsWritten .mpThreadVE tr = [(1, ⟨7, 100, 0, 0, 1⟩)] ∧
      (packetsWritten .mpThreadVE tr ++ s.inTransit .mpThreadVE).Sublist
        (packetsSent .mpThreadVE tr) := by
  obtain ⟨tr, s, run, hsent, hwritten⟩ :=
    Run.exists_of_exec (pipelineStep ⟨0, 1⟩ exactLibAv)
      (PipelineState.init 500 queueCapacity
        (openedMuxer false true false "flv" 0 0 0))
      onePacketActions
      (fun r => packetsSent .mpThreadVE r.1 = [(1, ⟨7, 100, 0, 0, 1⟩)] ∧
        packetsWritten .mpThreadVE r.1 = [(1, ⟨7, 100, 0, 0, 1⟩)])
      (by decide +kernel)
  exact ⟨tr, s, run, hsent, hwritten, (encoded_in_order run .mpThreadVE).1⟩

end KoalaStreamer
