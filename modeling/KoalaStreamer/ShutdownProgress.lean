import KoalaStreamer.FrameOwnership
import KoalaStreamer.Library.RunRules

/-!
# The threads come to their end

`main` sets `stop` and then waits for its threads.  The device thread ends the pass it is
in.  The mux thread goes on while it obtains frames; its callbacks give up only when they
find a queue empty twice.  The encoder threads go on feeding it from what they have, and
poll for ever: what bounds the mux thread is the number of frames that are on their way.
An encoder thread is stopped on its own, by `mediaThread::stop`.

`stepsLeft` pays for the steps of the device thread and the mux thread in advance: every
frame that may still reach the muxer with the steps of a pass, and every stream that is
still served with those of the pass that ends it.

Main results:
* `shutdown_steps_bounded`: after `stop`, at most `stepsLeft` steps of the two threads
  happen, and they are not kept from taking them;
* `encoder_stop_bounded`: after `mediaThread::stop`, a thread takes at most eleven steps.
-/

namespace KoalaStreamer

open EventMachine

/-! ## What is left to do -/

section Potential

/-- The steps of the mux thread that a frame pays for. -/
def frameCost : ℕ := 10

/-- The steps of the pass of the mux thread that ends a stream. -/
def streamCost : ℕ := 12

/-- The steps of the device thread after it is done with a queue. -/
def stepsAfter : QueueId → ℕ
  | .pVEQueue => 4
  | _ => 1

/-- The steps that the device thread takes once `stop` is set, a frame that it reads or
holds for a queue included. -/
def DevicePc.stepsLeft : DevicePc → ℕ
  | .exited => 0
  | .loopHead => 1
  | .cleaning q _ => stepsAfter q + 1
  | .cleanReleasing q _ _ _ => stepsAfter q + 2
  | .entering q => stepsAfter q + 2
  | .sizing q => stepsAfter q + 3
  | .releasing _ => 8
  | .enqueueWaiting _ _ => frameCost + 8
  | .enqueueing _ _ => frameCost + 9
  | .routing _ _ => frameCost + 10
  | .filling _ _ _ => frameCost + 11
  | .getting _ _ => frameCost + 12
  | .reading => frameCost + 13

/-- The frames that an encoder thread may still hand on from where it is. -/
def EncoderPc.framesLeft : EncoderPc → ℕ
  | .dealing _ => 1
  | .inputReleasing _ out => if out.isSome then 1 else 0
  | .getting _ _ => 1
  | .filling _ _ _ => 1
  | .enqueueing _ => 1
  | .enqueueWaiting _ => 1
  | .enqueued _ ret => if ret < 0 then 1 else 0
  | _ => 0

/-- The steps that the mux thread takes before it obtains a frame, before it is done with
the frame, or before it gives its stream up. -/
def MuxPc.stepsLeft : MuxPc → ℕ
  | .exited => 0
  | .callbackEnd _ => 1
  | .dequeued _ true none => 6
  | .dequeueWaiting _ true => 7
  | .dequeueing _ true => 8
  | .dequeued _ false none => 9
  | .dequeueWaiting _ false => 10
  | .dequeueing _ false => 11
  | .loopHead => 12
  | .releasing _ _ _ => 13
  | .callbackReleasing _ _ => 14
  | .writing _ _ => 14
  | .dequeued _ _ (some _) => 15
  | .notCreated => 36

/-- The frames in the queues. -/
def queuedFrames (queue : QueueId → FiFo FrameId) : ℕ :=
  ([.pYUVQueue, .pPCMQueue, .pVEQueue, .pAEQueue].map
    fun q => (queue q).contents.length).sum

/-- The frames that the encoder threads may still hand on. -/
def encoderFrames (encoder : EncoderId → EncoderPc) : ℕ :=
  ([.mpThreadVE, .mpThreadAE].map fun e => (encoder e).framesLeft).sum

/-- The streams that the mux thread serves. -/
def servedStreams (encode : StreamType → Bool) : ℕ :=
  ([.video, .audio].map fun stream => (encode stream).toNat).sum

/-- A bound on the steps of the device thread and the mux thread after `stop`. -/
def PipelineState.stepsLeft (s : PipelineState) : ℕ :=
  s.device.stepsLeft + s.mux.stepsLeft +
    frameCost * (queuedFrames s.queue + encoderFrames s.encoder) +
    streamCost * servedStreams s.encode

/-- The stream of the pass that the mux thread is in. -/
def MuxPc.stream : MuxPc → Option StreamType
  | .dequeueing stream _ => some stream
  | .dequeueWaiting stream _ => some stream
  | .dequeued stream _ _ => some stream
  | .callbackReleasing stream _ => some stream
  | .callbackEnd stream => some stream
  | .writing stream _ => some stream
  | .releasing stream _ _ => some stream
  | _ => none

/-- `stop` is set, and a pass of the mux thread is for a stream that is served. -/
structure ShuttingDown (s : PipelineState) : Prop where
  stop : s.stop = true
  serves : ∀ stream, s.mux.stream = some stream → s.encode stream = true

end Potential

section Steps

variable {cfg : StreamerConfig} {lib : LibAv} {s s' : PipelineState}
  {es : List PipelineEvent} {a : PipelineAction}

theorem queuedFrames_update
    (queue : QueueId → FiFo FrameId) (q : QueueId) (contents : FiFo FrameId) :
    queuedFrames (Function.update queue q contents) + (queue q).contents.length =
      queuedFrames queue + contents.contents.length := by
  cases q <;> simp [queuedFrames] <;> omega

theorem encoderFrames_update
    (encoder : EncoderId → EncoderPc) (e : EncoderId) (pc : EncoderPc) :
    encoderFrames (Function.update encoder e pc) + (encoder e).framesLeft =
      encoderFrames encoder + pc.framesLeft := by
  cases e <;> simp [encoderFrames] <;> omega

theorem servedStreams_update
    (encode : StreamType → Bool) (stream : StreamType) (b : Bool) :
    servedStreams (Function.update encode stream b) + (encode stream).toNat =
      servedStreams encode + b.toNat := by
  cases stream <;> simp [servedStreams] <;> omega

theorem servedStreams_le
    (encode : StreamType → Bool) : servedStreams encode ≤ 2 := by
  have hvideo := (encode .video).toNat_le
  have haudio := (encode .audio).toNat_le
  simp only [servedStreams, List.map_cons, List.map_nil, List.sum_cons, List.sum_nil]
  omega

theorem afterSize_stepsLeft
    (q : QueueId) : (afterSize q).stepsLeft = stepsAfter q := by
  cases q <;> rfl

theorem routeFrame_stepsLeft
    (cfg : StreamerConfig) (streamIndex : Int) (pFrame : FrameId) :
    (routeFrame cfg streamIndex pFrame).stepsLeft ≤ frameCost + 9 := by
  simp only [routeFrame]
  split
  · exact Nat.le_refl _
  · split
    · exact Nat.le_refl _
    · exact Nat.le_add_left 8 11

/-- The callbacks clean or stop. -/
theorem cleanCallback_progress
    {q : QueueId} {size : Int} {p : CleanPass Int FrameId}
    (hpass : cleanPass (some (cleanCallback s q)) size (s.queue q) = some p)
    (hremoved : p.removed = none) : p.stop = true := by
  cases hcontents : (s.queue q).contents with
  | nil =>
      have hsize : (s.queue q).size = 0 := by
        rw [FiFo.size_eq, hcontents]
        rfl
      simp [cleanPass, hsize] at hpass
  | cons f rest =>
      have hflags : ∃ arg, cleanCallback s q size f = (cleanFlagClean, arg) ∨
          cleanCallback s q size f = (cleanFlagStop, arg) := by
        have hA : ∃ arg, myCleanQueueA size f = (cleanFlagClean, arg) ∨
            myCleanQueueA size f = (cleanFlagStop, arg) := by
          simp only [myCleanQueueA]
          split
          · exact ⟨_, Or.inl rfl⟩
          · exact ⟨_, Or.inr rfl⟩
        cases q with
        | pVEQueue =>
            simp only [cleanCallback, myCleanQueueV]
            split
            · exact ⟨_, Or.inl rfl⟩
            · exact ⟨_, Or.inr rfl⟩
        | _ => exact hA
      obtain ⟨arg, hclean | hstop⟩ := hflags
      · rw [cleanPass_of_clean hcontents hclean] at hpass
        obtain rfl := Option.some.inj hpass
        cases hremoved
      · rw [cleanPass_of_stop hcontents hstop] at hpass
        obtain rfl := Option.some.inj hpass
        rfl

/-- What `enqueue` adds to a queue is its frame at most. -/
theorem stored_length_le
    (x : EnqueueExit FrameId) (pFrame : FrameId) : (x.stored pFrame).length ≤ 1 := by
  simp only [EnqueueExit.stored]
  split <;> simp

theorem deviceStep_stepsLeft
    {answer : DeviceAnswer} (hstop : s.stop = true)
    (h : deviceStep cfg s answer = some (s', es)) :
    s'.encode = s.encode ∧
    s'.device.stepsLeft + frameCost * queuedFrames s'.queue + 1 ≤
      s.device.stepsLeft + frameCost * queuedFrames s.queue := by
  cases deviceStep_case h with
  | loopHead hpc =>
      refine ⟨rfl, ?_⟩
      rw [hpc]
      simp only [PipelineState.setDevice, hstop, if_true, DevicePc.stepsLeft]
      omega
  | reads hpc =>
      refine ⟨rfl, ?_⟩
      rw [hpc]
      simp only [PipelineState.setDevice, DevicePc.stepsLeft]
      omega
  | getsFrame pkt streamIndex hpc =>
      have hsame := (getMediaFrame_same s).1
      refine ⟨?_, ?_⟩
      · show s.getMediaFrame.2.encode = _
        simp only [PipelineState.getMediaFrame]
        split <;> rfl
      · rw [hpc]
        simp only [PipelineState.setDevice, DevicePc.stepsLeft, hsame.queue]
        omega
  | fills pkt streamIndex pFrame hpc =>
      refine ⟨rfl, ?_⟩
      rw [hpc]
      simp only [PipelineState.setDevice, PipelineState.setFrame, DevicePc.stepsLeft]
      omega
  | routes streamIndex pFrame hpc =>
      refine ⟨rfl, ?_⟩
      have hroute := routeFrame_stepsLeft cfg streamIndex pFrame
      rw [hpc]
      show (routeFrame cfg streamIndex pFrame).stepsLeft + frameCost * queuedFrames s.queue +
        1 ≤ frameCost + 10 + _
      omega
  | waits q pFrame hpc hfull =>
      refine ⟨rfl, ?_⟩
      rw [hpc]
      simp only [PipelineState.setDevice, DevicePc.stepsLeft]
      omega
  | puts q pFrame hpc hroom =>
      refine ⟨rfl, ?_⟩
      have hupdate := queuedFrames_update s.queue q (enqueuePut (s.queue q) pFrame).queue
      have hone := stored_length_le (enqueuePut (s.queue q) pFrame) pFrame
      rw [enqueuePut_contents, List.length_append] at hupdate
      rw [hpc]
      simp only [deviceEnqueued, PipelineState.setDevice, PipelineState.setQueue,
        DevicePc.stepsLeft, stepsAfter, frameCost]
      omega
  | wakes q pFrame hpc =>
      refine ⟨rfl, ?_⟩
      have hupdate := queuedFrames_update s.queue q
        (enqueueWake (s.queue q) pFrame answer.wait).queue
      have hone := stored_length_le (enqueueWake (s.queue q) pFrame answer.wait) pFrame
      rw [enqueueWake_contents, List.length_append] at hupdate
      rw [hpc]
      simp only [deviceEnqueued, PipelineState.setDevice, PipelineState.setQueue,
        DevicePc.stepsLeft, stepsAfter, frameCost]
      omega
  | releases pFrame hpc =>
      obtain ⟨_, _, _, hrelease⟩ := mediaFrameRelease_eq s pFrame
      rw [hpc, hrelease]
      refine ⟨rfl, ?_⟩
      simp only [PipelineState.setDevice, DevicePc.stepsLeft, stepsAfter]
      omega
  | selects q hpc hlong =>
      refine ⟨rfl, ?_⟩
      rw [hpc]
      simp only [PipelineState.setDevice, DevicePc.stepsLeft]
      omega
  | skips q hpc hshort =>
      refine ⟨rfl, ?_⟩
      rw [hpc]
      show (afterSize q).stepsLeft + frameCost * queuedFrames s.queue + 1 ≤
        stepsAfter q + 3 + _
      rw [afterSize_stepsLeft]
      omega
  | enters q hpc =>
      refine ⟨rfl, ?_⟩
      rw [hpc]
      simp only [PipelineState.setDevice, DevicePc.stepsLeft]
      omega
  | cleanEnds q size hpc hpass =>
      refine ⟨rfl, ?_⟩
      rw [hpc]
      show (afterSize q).stepsLeft + frameCost * queuedFrames s.queue + 1 ≤
        stepsAfter q + 1 + _
      rw [afterSize_stepsLeft]
      omega
  | cleans q size p hpc hpass hremoved =>
      refine ⟨rfl, ?_⟩
      have hcontents := congrArg List.length (cleanPass_contents hpass).1
      have hupdate := queuedFrames_update s.queue q p.queue
      rw [hremoved, Option.toList_none, List.nil_append] at hcontents
      rw [hpc, cleanCallback_progress hpass hremoved, if_pos rfl]
      show (afterSize q).stepsLeft + frameCost * queuedFrames (Function.update s.queue q _) +
        1 ≤ stepsAfter q + 1 + _
      rw [afterSize_stepsLeft, show queuedFrames (Function.update s.queue q p.queue) =
        queuedFrames s.queue by omega]
      omega
  | removes q size p pFrame hpc hpass hremoved =>
      refine ⟨rfl, ?_⟩
      have hcontents := congrArg List.length (cleanPass_contents hpass).1
      have hupdate := queuedFrames_update s.queue q p.queue
      rw [hremoved, Option.toList_some, List.singleton_append, List.length_cons] at hcontents
      rw [hpc]
      simp only [PipelineState.setDevice, PipelineState.setQueue, DevicePc.stepsLeft,
        frameCost]
      omega
  | cleanReleases q size stop pFrame hpc =>
      obtain ⟨_, _, _, hrelease⟩ := mediaFrameRelease_eq s pFrame
      rw [hpc, hrelease]
      refine ⟨rfl, ?_⟩
      have hafter : DevicePc.stepsLeft (if stop then afterSize q else .cleaning q size) ≤
          stepsAfter q + 1 := by
        split
        · rw [afterSize_stepsLeft]
          exact Nat.le_succ _
        · exact Nat.le_refl _
      show DevicePc.stepsLeft (if stop then afterSize q else .cleaning q size) +
        frameCost * queuedFrames s.queue + 1 ≤ stepsAfter q + 2 + _
      omega

/-- A step of an encoder thread adds no frame: the ones it hands on it has been given. -/
theorem encoderStep_stepsLeft
    {e : EncoderId} {answer : EncoderAnswer}
    (h : encoderStep s e answer = some (s', es)) :
    s'.encode = s.encode ∧
    queuedFrames s'.queue + encoderFrames s'.encoder ≤
      queuedFrames s.queue + encoderFrames s.encoder := by
  -- the thread goes on to `pc`, and the queues stay
  have hwalks : ∀ {before pc mid}, s.encoder e = before → SameThreads s mid →
      mid.encode = s.encode → pc.framesLeft ≤ before.framesLeft →
      (mid.setEncoder e pc).encode = s.encode ∧
      queuedFrames (mid.setEncoder e pc).queue + encoderFrames (mid.setEncoder e pc).encoder ≤
        queuedFrames s.queue + encoderFrames s.encoder := by
    intro before pc mid hpc hsame hencode hle
    refine ⟨hencode, ?_⟩
    have hupdate := encoderFrames_update s.encoder e pc
    rw [hpc] at hupdate
    show queuedFrames mid.queue + encoderFrames (Function.update mid.encoder e pc) ≤ _
    rw [hsame.queue, hsame.encoder]
    omega
  have hrefl : SameThreads s s := ⟨rfl, rfl, rfl, rfl, rfl⟩
  have hrelease : ∀ {before pc pFrame}, s.encoder e = before →
      pc.framesLeft ≤ before.framesLeft →
      ((s.mediaFrameRelease pFrame).setEncoder e pc).encode = s.encode ∧
      queuedFrames ((s.mediaFrameRelease pFrame).setEncoder e pc).queue +
        encoderFrames ((s.mediaFrameRelease pFrame).setEncoder e pc).encoder ≤
        queuedFrames s.queue + encoderFrames s.encoder := by
    intro before pc pFrame hpc hle
    refine hwalks hpc (mediaFrameRelease_same s pFrame).1 ?_ hle
    obtain ⟨_, _, _, heq⟩ := mediaFrameRelease_eq s pFrame
    rw [heq]
  -- `dequeue` returns: what it gives out leaves the queue
  have htakes : ∀ {before} {d : DequeueExit FrameId}, s.encoder e = before →
      before.framesLeft = 0 →
      d.ret.toList ++ d.queue.contents = (s.queue e.input).contents →
      (encoderDequeued s e d).1.encode = s.encode ∧
      queuedFrames (encoderDequeued s e d).1.queue +
        encoderFrames (encoderDequeued s e d).1.encoder ≤
        queuedFrames s.queue + encoderFrames s.encoder := by
    intro before d hpc hzero htaken
    refine ⟨rfl, ?_⟩
    obtain ⟨pc, hd, hone⟩ : ∃ pc,
        (encoderDequeued s e d).1 = (s.setQueue e.input d.queue).setEncoder e pc ∧
        pc.framesLeft = d.ret.toList.length := by
      refine ⟨_, rfl, ?_⟩
      cases d.ret <;> rfl
    have hqueue := queuedFrames_update s.queue e.input d.queue
    have hencoder := encoderFrames_update s.encoder e pc
    have hlength := congrArg List.length htaken
    rw [List.length_append] at hlength
    rw [hpc, hzero] at hencoder
    rw [hd]
    show queuedFrames (Function.update s.queue e.input d.queue) +
      encoderFrames (Function.update s.encoder e pc) ≤ _
    omega
  -- `enqueue` returns: the frame is in the queue, or kept, or lost
  have hoffers : ∀ {before pFrame} {x : EnqueueExit FrameId}, s.encoder e = before →
      before.framesLeft = 1 →
      x.queue.contents = (s.queue e.output).contents ++ x.stored pFrame →
      (x.stored pFrame).length + (EncoderPc.enqueued pFrame x.ret).framesLeft ≤ 1 →
      (encoderEnqueued s e pFrame x).1.encode = s.encode ∧
      queuedFrames (encoderEnqueued s e pFrame x).1.queue +
        encoderFrames (encoderEnqueued s e pFrame x).1.encoder ≤
        queuedFrames s.queue + encoderFrames s.encoder := by
    intro before pFrame x hpc hone hstored hle
    refine ⟨rfl, ?_⟩
    have hqueue := queuedFrames_update s.queue e.output x.queue
    have hencoder := encoderFrames_update s.encoder e (.enqueued pFrame x.ret)
    rw [hstored, List.length_append] at hqueue
    rw [hpc, hone] at hencoder
    show queuedFrames (Function.update s.queue e.output x.queue) +
      encoderFrames (Function.update s.encoder e _) ≤ _
    omega
  cases encoderStep_case h with
  | exits hpc hstatus =>
      exact hwalks hpc hrefl rfl (Nat.le_refl _)
  | pauses hpc hstatus =>
      exact ⟨rfl, Nat.le_refl _⟩
  | loops hpc hstatus =>
      exact hwalks hpc hrefl rfl (Nat.le_refl _)
  | dequeueWaits hpc hlocked hempty =>
      exact hwalks hpc hrefl rfl (Nat.le_refl _)
  | gets hpc hlocked hsome =>
      exact htakes hpc rfl (dequeueGet_contents _)
  | dequeueWakes hpc hlocked =>
      exact htakes hpc rfl (dequeueWake_contents _ _)
  | deals pFrame hpc =>
      cases answer.encoded with
      | kept =>
          exact hwalks hpc hrefl rfl (Nat.zero_le _)
      | nothing =>
          exact @hwalks _ (.inputReleasing pFrame none) s hpc hrefl rfl (Nat.zero_le _)
      | got out =>
          have hwalk := @hwalks _ (.inputReleasing pFrame (some (s.nextPkt, out))) s hpc
            hrefl rfl (Nat.le_refl _)
          exact hwalk
  | releasesEncoded pFrame pkt out hpc =>
      exact hrelease hpc (Nat.le_refl _)
  | releasesInput pFrame hpc =>
      exact hrelease hpc (Nat.le_refl _)
  | getsFrame pkt out hpc =>
      refine hwalks hpc (getMediaFrame_same s).1 ?_ (Nat.le_refl _)
      simp only [PipelineState.getMediaFrame]
      split <;> rfl
  | fills pkt out pFrame hpc =>
      have hwalk := @hwalks _ (.enqueueing pFrame) s hpc hrefl rfl (Nat.le_refl _)
      exact hwalk
  | enqueueWaits pFrame hpc hlocked hfull =>
      exact hwalks hpc hrefl rfl (Nat.le_refl _)
  | puts pFrame hpc hlocked hroom =>
      refine hoffers hpc rfl (enqueuePut_contents _ _) ?_
      rw [enqueuePut_ret, enqueuePut_stored, if_neg (by simp [hroom])]
      exact Nat.le_refl _
  | enqueueWakes pFrame hpc hlocked =>
      refine hoffers hpc rfl (enqueueWake_contents _ _ _) ?_
      have haccounts := congrArg List.length
        (enqueueWake_accounts (s.queue e.output) pFrame answer.wait)
      simp only [List.length_append, List.length_singleton] at haccounts
      simp only [EncoderPc.framesLeft]
      split at haccounts <;> rename_i hneg
      · rw [if_pos hneg]
        simp only [List.length_singleton] at haccounts
        omega
      · rw [if_neg hneg]
        omega
  | retries pFrame ret hpc hneg hretry =>
      refine hwalks hpc hrefl rfl ?_
      simp only [EncoderPc.framesLeft, if_pos hneg]
      exact Nat.le_refl _
  | givesUp pFrame ret hpc hneg hretry =>
      exact hwalks hpc hrefl rfl (Nat.zero_le _)
  | hasEnqueued pFrame ret hpc hneg =>
      exact hwalks hpc hrefl rfl (Nat.zero_le _)
  | releases pFrame hpc =>
      exact hrelease hpc (Nat.le_refl _)

/-- The pass is for a stream that is served, and the step was paid for. -/
structure MuxPaid (s s' : PipelineState) : Prop where
  serves : ∀ stream, s'.mux.stream = some stream → s'.encode stream = true
  paid : s'.mux.stepsLeft + frameCost * queuedFrames s'.queue +
      streamCost * servedStreams s'.encode + 1 ≤
    s.mux.stepsLeft + frameCost * queuedFrames s.queue +
      streamCost * servedStreams s.encode

/-- The pass goes on with the stream it is for. -/
theorem muxPaid_walks
    {mid : PipelineState} {before pc : MuxPc} {stream : StreamType}
    (hdown : ShuttingDown s) (hpc : s.mux = before)
    (hqueue : mid.queue = s.queue) (hencode : mid.encode = s.encode)
    (hbefore : before.stream = some stream) (hafter : pc.stream = some stream)
    (hle : pc.stepsLeft + 1 ≤ before.stepsLeft) :
    MuxPaid s (mid.setMux pc) where
  serves := by
    intro stream' hstream'
    show mid.encode stream' = true
    rw [hencode]
    refine hdown.serves stream' ?_
    rw [hpc, hbefore, ← hafter]
    exact hstream'
  paid := by
    show pc.stepsLeft + frameCost * queuedFrames mid.queue +
      streamCost * servedStreams mid.encode + 1 ≤ _
    rw [hqueue, hencode, hpc]
    omega

/-- `dequeue` returns: a frame that it gives out pays for the rest of the pass. -/
theorem muxPaid_dequeued
    {stream : StreamType} {again : Bool} {d : DequeueExit FrameId}
    (hdown : ShuttingDown s) (hstream : s.mux.stream = some stream)
    (hle : (MuxPc.dequeued stream again none).stepsLeft + 1 ≤ s.mux.stepsLeft)
    (htaken : d.ret.toList ++ d.queue.contents = (s.queue stream.queue).contents) :
    MuxPaid s (muxDequeued s stream again d).1 where
  serves := by
    intro stream' hstream'
    refine hdown.serves stream' ?_
    rw [hstream]
    exact hstream'
  paid := by
    have hqueue := queuedFrames_update s.queue stream.queue d.queue
    have hlength := congrArg List.length htaken
    rw [List.length_append] at hlength
    show (MuxPc.dequeued stream again d.ret).stepsLeft +
      frameCost * queuedFrames (Function.update s.queue stream.queue d.queue) +
      streamCost * servedStreams s.encode + 1 ≤ _
    cases hret : d.ret with
    | none =>
        rw [hret, Option.toList_none, List.length_nil] at hlength
        rw [show queuedFrames (Function.update s.queue stream.queue d.queue) =
          queuedFrames s.queue by omega]
        omega
    | some pFrame =>
        rw [hret, Option.toList_some, List.length_singleton] at hlength
        have hsix : 6 ≤ (MuxPc.dequeued stream again none).stepsLeft := by
          cases again <;> simp [MuxPc.stepsLeft]
        have hfifteen : (MuxPc.dequeued stream again (some pFrame)).stepsLeft = 15 := by
          cases again <;> rfl
        simp only [frameCost]
        omega

/-- `write_frame` returns: the stream is given up, or a frame was written. -/
theorem muxPaid_passEnd
    {mid : PipelineState} {stream : StreamType} {ret : Int} {ended : Bool}
    (hdown : ShuttingDown s) (hqueue : mid.queue = s.queue) (hencode : mid.encode = s.encode)
    (hstream : s.mux.stream = some stream)
    (hzero : ret = 0 → 13 ≤ s.mux.stepsLeft) (hone : 1 ≤ s.mux.stepsLeft) :
    MuxPaid s (muxPassEnd mid stream ret ended) where
  serves := by
    intro stream' hstream'
    have hnone : MuxPc.stream (if ended then .exited else .loopHead) = some stream' :=
      hstream'
    split at hnone <;> cases hnone
  paid := by
    have hmux : MuxPc.stepsLeft (if ended then .exited else .loopHead) ≤ 12 := by
      split <;> simp [MuxPc.stepsLeft]
    have hserved := servedStreams_update s.encode stream (decide (ret = 0))
    rw [hdown.serves stream hstream, Bool.toNat_true] at hserved
    show MuxPc.stepsLeft (if ended then .exited else .loopHead) +
      frameCost * queuedFrames mid.queue +
      streamCost * servedStreams (Function.update mid.encode stream (decide (ret = 0))) +
      1 ≤ _
    rw [hqueue, hencode]
    by_cases hret : ret = 0
    · rw [decide_eq_true hret, Bool.toNat_true] at hserved
      rw [decide_eq_true hret, show servedStreams (Function.update s.encode stream true) =
        servedStreams s.encode by omega]
      have hmore := hzero hret
      omega
    · rw [decide_eq_false hret, Bool.toNat_false] at hserved
      rw [decide_eq_false hret]
      simp only [streamCost]
      omega

/-- A step of the mux thread is paid for by its place, by a frame or by its stream. -/
theorem muxThreadStep_paid
    {answer : MuxAnswer} (hdown : ShuttingDown s)
    (h : muxThreadStep lib s answer = some (s', es)) : MuxPaid s s' := by
  have hstop := hdown.stop
  cases muxThreadStep_case h with
  | exits hpc hselect =>
      refine ⟨fun stream hstream => (by cases hstream), ?_⟩
      rw [hpc]
      show 0 + frameCost * queuedFrames s.queue + streamCost * servedStreams s.encode + 1 ≤
        12 + _ + _
      omega
  | selects stream hpc hselect hhave =>
      refine ⟨fun stream' hstream' => ?_, ?_⟩
      · obtain rfl := Option.some.inj hstream'
        exact selectStream_some hselect
      · rw [hpc]
        show 11 + frameCost * queuedFrames s.queue + streamCost * servedStreams s.encode +
          1 ≤ 12 + _ + _
        omega
  | skips stream hpc hselect hhave =>
      refine ⟨fun stream' hstream' => ?_, ?_⟩
      · obtain rfl := Option.some.inj hstream'
        exact selectStream_some hselect
      · rw [hpc]
        show 1 + frameCost * queuedFrames s.queue + streamCost * servedStreams s.encode +
          1 ≤ 12 + _ + _
        omega
  | dequeueWaits stream again hpc hlocked hempty =>
      exact muxPaid_walks hdown hpc rfl rfl rfl rfl
        (by cases again <;> simp [MuxPc.stepsLeft])
  | gets stream again hpc hlocked hsome =>
      exact muxPaid_dequeued hdown (by rw [hpc]; rfl)
        (by rw [hpc]; cases again <;> simp [MuxPc.stepsLeft]) (dequeueGet_contents _)
  | dequeueWakes stream again hpc hlocked =>
      exact muxPaid_dequeued hdown (by rw [hpc]; rfl)
        (by rw [hpc]; cases again <;> simp [MuxPc.stepsLeft]) (dequeueWake_contents _ _)
  | stopsWithFrame stream again pFrame hpc hagain =>
      exact muxPaid_walks hdown hpc rfl rfl rfl rfl
        (by cases again <;> simp [MuxPc.stepsLeft])
  | stops stream again hpc hagain =>
      exact muxPaid_walks hdown hpc rfl rfl rfl rfl
        (by cases again <;> simp [MuxPc.stepsLeft])
  | obtains stream again pFrame hpc hagain =>
      exact muxPaid_walks hdown hpc rfl rfl rfl rfl
        (by cases again <;> simp [MuxPc.stepsLeft])
  | asksAgain stream again hpc hagain =>
      -- with `stop` set, the callback asks again once
      have hfirst : again = false := by
        cases again
        · rfl
        · exact absurd ⟨rfl, hstop⟩ hagain
      subst hfirst
      exact muxPaid_walks hdown hpc rfl rfl rfl rfl (by simp [MuxPc.stepsLeft])
  | callbackReleases stream pFrame hpc =>
      obtain ⟨_, _, _, heq⟩ := mediaFrameRelease_eq s pFrame
      rw [heq]
      exact muxPaid_walks hdown hpc rfl rfl rfl rfl (by simp [MuxPc.stepsLeft])
  | callbackEnds stream hpc =>
      exact muxPaid_passEnd hdown rfl rfl (by rw [hpc]; rfl) (fun hret => by cases hret)
        (by rw [hpc]; simp [MuxPc.stepsLeft])
  | writes stream pFrame hpc =>
      let w := writeObtained lib s.pHandle stream 0 (s.heap pFrame) answer.written
      let mid : PipelineState :=
        { s.setFrame pFrame (writtenFrame s.pHandle stream (s.heap pFrame)) with
          pHandle := w.pHandle }
      have hwalk : MuxPaid s (mid.setMux (.releasing stream pFrame w.ret)) :=
        muxPaid_walks hdown hpc rfl rfl rfl rfl (by simp [MuxPc.stepsLeft])
      exact hwalk
  | releases stream pFrame ret hpc =>
      obtain ⟨_, _, _, heq⟩ := mediaFrameRelease_eq s pFrame
      rw [heq]
      exact muxPaid_passEnd hdown rfl rfl (by rw [hpc]; rfl)
        (fun _ => by rw [hpc]; simp [MuxPc.stepsLeft]) (by rw [hpc]; simp [MuxPc.stepsLeft])

/-- The steps that the bound is about. -/
def PipelineAction.ofDeviceOrMux : PipelineAction → Bool
  | .device _ => true
  | .mux _ => true
  | _ => false

/-- No step raises the bound, and those of the two threads lower it. -/
theorem pipelineStep_stepsLeft
    (hdown : ShuttingDown s) (hstart : StartInv s)
    (h : pipelineStep cfg lib s a = some (s', es)) :
    ShuttingDown s' ∧
    s'.stepsLeft + (if a.ofDeviceOrMux then 1 else 0) ≤ s.stepsLeft := by
  have hstop := hdown.stop
  cases a with
  | device answer =>
      obtain ⟨-, hencoder, hmux, hstops⟩ := deviceStep_others h
      obtain ⟨hencode, hle⟩ := deviceStep_stepsLeft hstop h
      refine ⟨⟨hstops.trans hstop, ?_⟩, ?_⟩
      · rw [hmux, hencode]
        exact hdown.serves
      · simp only [PipelineState.stepsLeft, PipelineAction.ofDeviceOrMux, hencoder, hmux,
          hencode, if_true, Nat.mul_add]
        omega
  | encoder e answer =>
      obtain ⟨-, -, -, hdevice, hmux, hstops⟩ := encoderStep_others h
      obtain ⟨hencode, hle⟩ := encoderStep_stepsLeft h
      refine ⟨⟨hstops.trans hstop, ?_⟩, ?_⟩
      · rw [hmux, hencode]
        exact hdown.serves
      · have hpaid := Nat.mul_le_mul_left frameCost hle
        simp only [PipelineState.stepsLeft, PipelineAction.ofDeviceOrMux, hdevice, hmux,
          hencode]
        simpa using hpaid
  | mux answer =>
      obtain ⟨-, hencoder, hdevice, hstops⟩ := muxThreadStep_others h
      obtain ⟨hserves, hpaid⟩ := muxThreadStep_paid hdown h
      refine ⟨⟨hstops.trans hstop, hserves⟩, ?_⟩
      simp only [PipelineState.stepsLeft, PipelineAction.ofDeviceOrMux, hencoder, hdevice,
        if_true, Nat.mul_add]
      omega
  | setStop =>
      obtain ⟨rfl, -⟩ := Prod.mk.inj (Option.some.inj h)
      exact ⟨⟨rfl, hdown.serves⟩, Nat.le_refl _⟩
  | start e =>
      simp only [pipelineStep] at h
      split at h
      · rename_i hnull
        obtain ⟨rfl, -⟩ := Prod.mk.inj (Option.some.inj h)
        refine ⟨⟨hstop, hdown.serves⟩, ?_⟩
        have hupdate := encoderFrames_update s.encoder e .runLoop
        rw [hstart e hnull] at hupdate
        have hsame : encoderFrames (Function.update s.encoder e .runLoop) =
            encoderFrames s.encoder := hupdate
        show _ + _ + frameCost * (_ + encoderFrames (Function.update s.encoder e .runLoop)) +
          _ + 0 ≤ _
        rw [hsame]
        exact Nat.le_refl _
      · obtain ⟨rfl, -⟩ := Prod.mk.inj (Option.some.inj h)
        exact ⟨hdown, Nat.le_refl _⟩
  | startMux =>
      simp only [pipelineStep] at h
      split at h
      · rename_i hpc
        obtain ⟨rfl, -⟩ := Prod.mk.inj (Option.some.inj h)
        refine ⟨⟨hstop, fun stream hstream => (by cases hstream)⟩, ?_⟩
        have htwo := servedStreams_le s.pHandle.haveStream
        simp only [PipelineState.stepsLeft, hpc]
        show s.device.stepsLeft + 12 +
          frameCost * (queuedFrames s.queue + encoderFrames s.encoder) +
          streamCost * servedStreams s.pHandle.haveStream + 0 ≤
          s.device.stepsLeft + 36 + _ + _
        simp only [streamCost]
        omega
      · obtain ⟨rfl, -⟩ := Prod.mk.inj (Option.some.inj h)
        exact ⟨hdown, Nat.le_refl _⟩
  | _ =>
      simp only [pipelineStep] at h
      split at h <;> obtain ⟨rfl, -⟩ := Prod.mk.inj (Option.some.inj h) <;>
        exact ⟨⟨hstop, hdown.serves⟩, Nat.le_refl _⟩

/-- Whether or not `stop` is set, a pass is for a stream that is served. -/
theorem pipelineStep_serves
    (hserves : ∀ stream, s.mux.stream = some stream → s.encode stream = true)
    (h : pipelineStep cfg lib s a = some (s', es)) :
    ∀ stream, s'.mux.stream = some stream → s'.encode stream = true := by
  cases a with
  | device answer =>
      have hmux := (deviceStep_others h).2.2.1
      have hencode : s'.encode = s.encode := by
        cases deviceStep_case h with
        | getsFrame pkt streamIndex hpc =>
            show s.getMediaFrame.2.encode = _
            simp only [PipelineState.getMediaFrame]
            split <;> rfl
        | releases pFrame hpc =>
            obtain ⟨_, _, _, heq⟩ := mediaFrameRelease_eq s pFrame
            rw [heq]
            rfl
        | cleanReleases q size stop pFrame hpc =>
            obtain ⟨_, _, _, heq⟩ := mediaFrameRelease_eq s pFrame
            rw [heq]
            rfl
        | _ => rfl
      rw [hmux, hencode]
      exact hserves
  | encoder e answer =>
      rw [(encoderStep_others h).2.2.2.2.1, (encoderStep_stepsLeft h).1]
      exact hserves
  | mux answer =>
      -- a pass keeps its stream, and at its end there is none
      have hkeeps : ∀ {pc}, s.mux = pc → s'.encode = s.encode →
          s'.mux.stream = pc.stream →
          ∀ stream, s'.mux.stream = some stream → s'.encode stream = true := by
        intro pc hpc hencode hsame stream hstream
        rw [hencode]
        refine hserves stream ?_
        rw [hpc, ← hsame]
        exact hstream
      have hnone : s'.mux.stream = none →
          ∀ stream, s'.mux.stream = some stream → s'.encode stream = true := by
        intro hnone stream hstream
        rw [hnone] at hstream
        cases hstream
      cases muxThreadStep_case h with
      | exits hpc hselect =>
          exact hnone rfl
      | selects stream hpc hselect hhave =>
          rintro stream' hstream'
          obtain rfl := Option.some.inj hstream'
          exact selectStream_some hselect
      | skips stream hpc hselect hhave =>
          rintro stream' hstream'
          obtain rfl := Option.some.inj hstream'
          exact selectStream_some hselect
      | callbackEnds stream hpc =>
          refine hnone ?_
          show MuxPc.stream (if answer.ended then _ else _) = none
          split <;> rfl
      | releases stream pFrame ret hpc =>
          refine hnone ?_
          show MuxPc.stream (if answer.ended then _ else _) = none
          split <;> rfl
      | callbackReleases stream pFrame hpc =>
          obtain ⟨_, _, _, heq⟩ := mediaFrameRelease_eq s pFrame
          refine hkeeps hpc ?_ rfl
          rw [heq]
          rfl
      | dequeueWaits stream again hpc hlocked hempty =>
          exact hkeeps hpc rfl rfl
      | gets stream again hpc hlocked hsome =>
          exact hkeeps hpc rfl rfl
      | dequeueWakes stream again hpc hlocked =>
          exact hkeeps hpc rfl rfl
      | stopsWithFrame stream again pFrame hpc hagain =>
          exact hkeeps hpc rfl rfl
      | stops stream again hpc hagain =>
          exact hkeeps hpc rfl rfl
      | obtains stream again pFrame hpc hagain =>
          exact hkeeps hpc rfl rfl
      | asksAgain stream again hpc hagain =>
          exact hkeeps hpc rfl rfl
      | writes stream pFrame hpc =>
          exact hkeeps hpc rfl rfl
  | setStop =>
      obtain ⟨rfl, -⟩ := Prod.mk.inj (Option.some.inj h)
      exact hserves
  | startMux =>
      simp only [pipelineStep] at h
      split at h <;> obtain ⟨rfl, -⟩ := Prod.mk.inj (Option.some.inj h)
      · intro stream hstream
        cases hstream
      · exact hserves
  | _ =>
      simp only [pipelineStep] at h
      split at h <;> obtain ⟨rfl, -⟩ := Prod.mk.inj (Option.some.inj h) <;>
        exact hserves

end Steps

/-! ## No thread is kept from its end -/

section Enabled

variable {cfg : StreamerConfig} {lib : LibAv} {s : PipelineState}

/-- The device thread waits for nobody: it alone holds a queue beyond a step. -/
theorem device_enabled
    (hpc : s.device ≠ .exited) (answer : DeviceAnswer) :
    ∃ r, pipelineStep cfg lib s (.device answer) = some r := by
  show ∃ r, deviceStep cfg s answer = some r
  cases hdevice : s.device with
  | enqueueing q pFrame =>
      simp only [deviceStep, hdevice]
      cases enqueueEnter (s.queue q) pFrame <;> exact ⟨_, rfl⟩
  | sizing q =>
      simp only [deviceStep, hdevice]
      split <;> exact ⟨_, rfl⟩
  | cleaning q size =>
      simp only [deviceStep, hdevice]
      cases cleanPass (some (cleanCallback s q)) size (s.queue q) with
      | none =>
          exact ⟨_, rfl⟩
      | some p =>
          cases hremoved : p.removed <;> simp only [hremoved] <;> exact ⟨_, rfl⟩
  | exited =>
      exact absurd hdevice hpc
  | _ =>
      simp only [deviceStep, hdevice]
      exact ⟨_, rfl⟩

/-- The queue whose mutex an encoder thread takes next. -/
def EncoderPc.wants (e : EncoderId) : EncoderPc → Option QueueId
  | .dequeueing => some e.input
  | .dequeueWaiting => some e.input
  | .enqueueing _ => some e.output
  | .enqueueWaiting _ => some e.output
  | _ => none

/-- The queue whose mutex the mux thread takes next. -/
def MuxPc.wants : MuxPc → Option QueueId
  | .dequeueing stream _ => some stream.queue
  | .dequeueWaiting stream _ => some stream.queue
  | _ => none

/-- The mux thread is kept waiting only by the queue it wants. -/
theorem mux_enabled
    (hfree : ∀ q, s.mux.wants = some q → s.locked q = false) (hcreated : s.mux ≠ .notCreated)
    (hpc : s.mux ≠ .exited) (answer : MuxAnswer) :
    ∃ r, pipelineStep cfg lib s (.mux answer) = some r := by
  show ∃ r, muxThreadStep lib s answer = some r
  cases hmux : s.mux with
  | notCreated =>
      exact absurd hmux hcreated
  | exited =>
      exact absurd hmux hpc
  | loopHead =>
      simp only [muxThreadStep, hmux]
      cases selectStream lib s.pHandle s.encode with
      | none => exact ⟨_, rfl⟩
      | some stream =>
          dsimp only
          split <;> exact ⟨_, rfl⟩
  | dequeueing stream again =>
      simp only [muxThreadStep, hmux, hfree stream.queue (by rw [hmux]; rfl)]
      cases dequeueEnter (s.queue stream.queue) <;> exact ⟨_, rfl⟩
  | dequeueWaiting stream again =>
      simp only [muxThreadStep, hmux, hfree stream.queue (by rw [hmux]; rfl)]
      exact ⟨_, rfl⟩
  | dequeued stream again pFrame =>
      simp only [muxThreadStep, hmux]
      split <;> cases pFrame <;> exact ⟨_, rfl⟩
  | _ =>
      simp only [muxThreadStep, hmux]
      exact ⟨_, rfl⟩

/-- So is an encoder thread. -/
theorem encoder_enabled
    {e : EncoderId} (hfree : ∀ q, (s.encoder e).wants e = some q → s.locked q = false)
    (hcreated : s.encoder e ≠ .notCreated) (hpc : s.encoder e ≠ .exited)
    (answer : EncoderAnswer) :
    ∃ r, pipelineStep cfg lib s (.encoder e answer) = some r := by
  show ∃ r, encoderStep s e answer = some r
  cases hencoder : s.encoder e with
  | notCreated =>
      exact absurd hencoder hcreated
  | exited =>
      exact absurd hencoder hpc
  | runLoop =>
      simp only [encoderStep, hencoder]
      split
      · exact ⟨_, rfl⟩
      · split <;> exact ⟨_, rfl⟩
  | dequeueing =>
      simp only [encoderStep, hencoder, hfree e.input (by rw [hencoder]; rfl)]
      cases dequeueEnter (s.queue e.input) <;> exact ⟨_, rfl⟩
  | dequeueWaiting =>
      simp only [encoderStep, hencoder, hfree e.input (by rw [hencoder]; rfl)]
      exact ⟨_, rfl⟩
  | enqueueing pFrame =>
      simp only [encoderStep, hencoder, hfree e.output (by rw [hencoder]; rfl)]
      cases enqueueEnter (s.queue e.output) pFrame <;> exact ⟨_, rfl⟩
  | enqueueWaiting pFrame =>
      simp only [encoderStep, hencoder, hfree e.output (by rw [hencoder]; rfl)]
      exact ⟨_, rfl⟩
  | enqueued pFrame ret =>
      simp only [encoderStep, hencoder]
      split
      · split <;> exact ⟨_, rfl⟩
      · exact ⟨_, rfl⟩
  | _ =>
      simp only [encoderStep, hencoder]
      exact ⟨_, rfl⟩

theorem not_locked_of_exited
    (hpc : s.device = .exited) (q : QueueId) : s.locked q = false := by
  simp only [PipelineState.locked, hpc]

end Enabled

/-! ## The shutdown -/

section Shutdown

variable {cfg : StreamerConfig} {lib : LibAv} {poolCapacity : ℕ}
  {capacity : QueueId → ℕ} {pHandle : KoalaMuxer}
  {tr more : List PipelineTransition} {s t : PipelineState}

theorem run_shuttingDown
    (run : Run (pipelineStep cfg lib)
      (PipelineState.init poolCapacity capacity pHandle) tr s) (hstop : s.stop = true) :
    ShuttingDown s :=
  ⟨hstop, Run.invariant
    (fun _ s => ∀ stream, s.mux.stream = some stream → s.encode stream = true)
    (fun _ hstream => by cases hstream)
    (fun _ _ _ _ _ hserves hstep => pipelineStep_serves hserves hstep) run⟩

end Shutdown

/--
Once `stop` is set, whatever the other threads and the environment do from there, the device
thread and the mux thread take at most `stepsLeft` steps together.  The device thread is
never kept from its next step, and when it has exited neither is the mux thread: so the one
exits, and then the other.
-/
theorem shutdown_steps_bounded
    {cfg : StreamerConfig} {lib : LibAv} {poolCapacity : ℕ}
    {capacity : QueueId → ℕ} {pHandle : KoalaMuxer}
    {tr more : List PipelineTransition} {s t : PipelineState}
    (run : Run (pipelineStep cfg lib)
      (PipelineState.init poolCapacity capacity pHandle) tr s)
    (hstop : s.stop = true)
    (rest : Run (pipelineStep cfg lib) s more t) :
    t.stepsLeft + more.countP (fun τ => τ.action.ofDeviceOrMux) ≤ s.stepsLeft ∧
    (t.device ≠ .exited → ∀ answer,
      ∃ r, pipelineStep cfg lib t (.device answer) = some r) ∧
    (t.device = .exited → t.mux ≠ .notCreated → t.mux ≠ .exited → ∀ answer,
      ∃ r, pipelineStep cfg lib t (.mux answer) = some r) := by
  obtain ⟨-, hcount⟩ := rest.count_le (fun s => ShuttingDown s ∧ StartInv s)
    PipelineState.stepsLeft (fun τ => τ.action.ofDeviceOrMux)
    (fun {_ _ _ _} hI hstep => by
      obtain ⟨hdown, hle⟩ := pipelineStep_stepsLeft hI.1 hI.2 hstep
      exact ⟨⟨hdown, pipelineStep_startInv hI.2 hstep⟩, hle⟩)
    ⟨run_shuttingDown run hstop, run_startInv run⟩
  refine ⟨hcount, device_enabled, fun hpc hcreated hmux answer => ?_⟩
  exact mux_enabled (fun q _ => not_locked_of_exited hpc q) hcreated hmux answer

/-- `stop` comes while a raw frame waits in its queue: it is still encoded, but the mux
thread obtains it by asking again, and drops it. -/
theorem shutdown_steps_bounded_drops :
    ∃ tr s, Run (pipelineStep ⟨0, 1⟩ exactLibAv)
        (PipelineState.init 500 queueCapacity
          (openedMuxer false true false "flv" 0 0 0)) tr s ∧
      s.stop = true ∧ s.stepsLeft = 33 ∧
      ∃ more t, Run (pipelineStep ⟨0, 1⟩ exactLibAv) s more t ∧
        t.device = .exited ∧ t.mux = .exited ∧
        more.countP (fun τ => τ.action.ofDeviceOrMux) = 8 ∧
        t.stepsLeft + more.countP (fun τ => τ.action.ofDeviceOrMux) ≤ s.stepsLeft := by
  obtain ⟨tr, s, run, hstop, hleft, hrest⟩ :=
    Run.exists_of_exec (pipelineStep ⟨0, 1⟩ exactLibAv)
      (PipelineState.init 500 queueCapacity
        (openedMuxer false true false "flv" 0 0 0))
      ([.start .mpThreadVE, .startMux] ++ List.replicate 8 (.device ⟨0, 0⟩) ++
        List.replicate 2 (.mux ⟨0, 0, false⟩) ++ [.setStop])
      (fun r => r.2.stop = true ∧ r.2.stepsLeft = 33 ∧
        (exec (pipelineStep ⟨0, 1⟩ exactLibAv) r.2
          (.device ⟨0, 0⟩ ::
            List.replicate 8 (.encoder .mpThreadVE ⟨.got ⟨7, 100, 0, 0, 1⟩, 0⟩) ++
            List.replicate 7 (.mux ⟨ETIMEDOUT, 0, false⟩))).any (fun q =>
          decide (q.2.device = .exited ∧ q.2.mux = .exited ∧
            q.1.countP (fun τ => τ.action.ofDeviceOrMux) = 8)) = true)
      (by decide +kernel)
  obtain ⟨more, t, rest, hdevice, hmux, hcount⟩ :=
    Run.exists_of_exec (pipelineStep ⟨0, 1⟩ exactLibAv) s _
      (fun q => q.2.device = .exited ∧ q.2.mux = .exited ∧
        q.1.countP (fun τ => τ.action.ofDeviceOrMux) = 8) hrest
  exact ⟨tr, s, run, hstop, hleft, more, t, rest, hdevice, hmux, hcount,
    (shutdown_steps_bounded run hstop rest).1⟩

/-! ## mediaThread::stop -/

section EncoderStop

variable {cfg : StreamerConfig} {lib : LibAv} {s s' : PipelineState}
  {es : List PipelineEvent} {a : PipelineAction} {e : EncoderId}

/-- The steps of an encoder thread from its place to its end, once it is to stop: it deals
with a frame it waits for, and offers what came out once. -/
def EncoderPc.stepsLeft : EncoderPc → ℕ
  | .notCreated => 0
  | .exited => 0
  | .runLoop => 1
  | .releasing _ => 2
  | .enqueued _ _ => 3
  | .enqueueWaiting _ => 4
  | .enqueueing _ => 5
  | .filling _ _ _ => 6
  | .getting _ _ => 7
  | .inputReleasing _ _ => 8
  | .dealing _ => 9
  | .dequeueWaiting => 10
  | .dequeueing => 11

theorem encoderStep_stops
    {answer : EncoderAnswer} (hstatus : s.mStatus e = .stop)
    (h : encoderStep s e answer = some (s', es)) :
    (s'.encoder e).stepsLeft + 1 ≤ (s.encoder e).stepsLeft := by
  have hset : ∀ {before pc : EncoderPc} {mid : PipelineState}, s.encoder e = before →
      pc.stepsLeft + 1 ≤ before.stepsLeft →
      ((mid.setEncoder e pc).encoder e).stepsLeft + 1 ≤ (s.encoder e).stepsLeft := by
    intro before pc mid hpc hle
    rw [setEncoder_encoder, if_pos rfl, hpc]
    exact hle
  cases encoderStep_case h with
  | exits hpc hstop =>
      exact hset hpc (Nat.le_refl _)
  | pauses hpc hpause =>
      rw [hstatus] at hpause
      cases hpause
  | loops hpc hgoes =>
      exact absurd hstatus hgoes.1
  | dequeueWaits hpc hlocked hempty =>
      exact hset hpc (Nat.le_refl _)
  | gets hpc hlocked hsome =>
      refine hset hpc ?_
      cases (dequeueGet (s.queue e.input)).ret <;> simp [EncoderPc.stepsLeft]
  | dequeueWakes hpc hlocked =>
      refine hset hpc ?_
      cases (dequeueWake (s.queue e.input) answer.wait).ret <;> simp [EncoderPc.stepsLeft]
  | deals pFrame hpc =>
      cases answer.encoded with
      | kept =>
          exact hset hpc (Nat.le_refl _)
      | nothing =>
          exact @hset _ (.inputReleasing pFrame none) s hpc (Nat.le_refl _)
      | got out =>
          exact @hset _ (.inputReleasing pFrame (some (s.nextPkt, out))) s hpc (Nat.le_refl _)
  | releasesEncoded pFrame pkt out hpc =>
      exact hset hpc (Nat.le_refl _)
  | releasesInput pFrame hpc =>
      exact hset hpc (by simp [EncoderPc.stepsLeft])
  | getsFrame pkt out hpc =>
      exact hset hpc (Nat.le_refl _)
  | fills pkt out pFrame hpc =>
      exact @hset _ (.enqueueing pFrame) s hpc (Nat.le_refl _)
  | enqueueWaits pFrame hpc hlocked hfull =>
      exact hset hpc (Nat.le_refl _)
  | puts pFrame hpc hlocked hroom =>
      exact hset hpc (by simp [EncoderPc.stepsLeft])
  | enqueueWakes pFrame hpc hlocked =>
      exact hset hpc (Nat.le_refl _)
  | retries pFrame ret hpc hneg hretry =>
      exact absurd hstatus hretry.2
  | givesUp pFrame ret hpc hneg hretry =>
      exact hset hpc (Nat.le_refl _)
  | hasEnqueued pFrame ret hpc hneg =>
      exact hset hpc (by simp [EncoderPc.stepsLeft])
  | releases pFrame hpc =>
      exact hset hpc (Nat.le_refl _)

/-- The steps that the bound is about. -/
def PipelineAction.ofEncoder (e : EncoderId) : PipelineAction → Bool
  | .encoder e' _ => e' = e
  | _ => false

/-- A thread that is to stop is never told anything else, and only its own steps count. -/
theorem pipelineStep_stops
    (hstatus : s.mStatus e = .stop)
    (h : pipelineStep cfg lib s a = some (s', es)) :
    s'.mStatus e = .stop ∧
    (s'.encoder e).stepsLeft + (if a.ofEncoder e then 1 else 0) ≤
      (s.encoder e).stepsLeft := by
  have hkept : ∀ {status e'}, e' ≠ e →
      Function.update s.mStatus e' status e = .stop := by
    intro status e' hne
    rw [Function.update_of_ne (Ne.symm hne)]
    exact hstatus
  cases a with
  | device answer =>
      obtain ⟨hsame, hencoder, -⟩ := deviceStep_others h
      rw [hsame, hencoder]
      exact ⟨hstatus, Nat.le_refl _⟩
  | mux answer =>
      obtain ⟨hsame, hencoder, -⟩ := muxThreadStep_others h
      rw [hsame, hencoder]
      exact ⟨hstatus, Nat.le_refl _⟩
  | encoder e' answer =>
      obtain ⟨-, hsame, hothers, -⟩ := encoderStep_others h
      rw [hsame]
      refine ⟨hstatus, ?_⟩
      by_cases he : e' = e
      · subst he
        simpa [PipelineAction.ofEncoder] using encoderStep_stops hstatus h
      · rw [hothers e (Ne.symm he)]
        simp [PipelineAction.ofEncoder, he]
  | setStop =>
      obtain ⟨rfl, -⟩ := Prod.mk.inj (Option.some.inj h)
      exact ⟨hstatus, Nat.le_refl _⟩
  | start e' =>
      simp only [pipelineStep] at h
      split at h <;> obtain ⟨rfl, -⟩ := Prod.mk.inj (Option.some.inj h)
      · rename_i hnull
        have hne : e' ≠ e := by
          rintro rfl
          rw [hstatus] at hnull
          cases hnull
        refine ⟨hkept hne, ?_⟩
        show ((s.setEncoder e' .runLoop).encoder e).stepsLeft + 0 ≤ _
        rw [setEncoder_encoder, if_neg (Ne.symm hne)]
        exact Nat.le_refl _
      · exact ⟨hstatus, Nat.le_refl _⟩
  | pause e' =>
      simp only [pipelineStep] at h
      split at h <;> obtain ⟨rfl, -⟩ := Prod.mk.inj (Option.some.inj h)
      · rename_i hruning
        refine ⟨hkept ?_, Nat.le_refl _⟩
        rintro rfl
        rw [hstatus] at hruning
        cases hruning
      · exact ⟨hstatus, Nat.le_refl _⟩
  | stop e' =>
      simp only [pipelineStep] at h
      split at h <;> obtain ⟨rfl, -⟩ := Prod.mk.inj (Option.some.inj h)
      · refine ⟨?_, Nat.le_refl _⟩
        by_cases he : e' = e
        · subst he
          exact Function.update_self _ _ _
        · exact hkept he
      · exact ⟨hstatus, Nat.le_refl _⟩
  | startMux =>
      simp only [pipelineStep] at h
      split at h <;> obtain ⟨rfl, -⟩ := Prod.mk.inj (Option.some.inj h) <;>
        exact ⟨hstatus, Nat.le_refl _⟩

theorem EncoderPc.stepsLeft_le
    (pc : EncoderPc) : pc.stepsLeft ≤ 11 := by
  cases pc <;> simp [EncoderPc.stepsLeft]

end EncoderStop

/--
From the moment `mediaThread::stop` has set the status, whatever the other threads and the
environment do, the thread takes at most eleven steps, however full its output queue stays;
once the device thread has exited it is not kept from taking them, so that it exits and the
`pthread_join` of `stop` returns.
-/
theorem encoder_stop_bounded
    {cfg : StreamerConfig} {lib : LibAv} {s t : PipelineState}
    {more : List PipelineTransition} {e : EncoderId}
    (hstatus : s.mStatus e = .stop)
    (rest : Run (pipelineStep cfg lib) s more t) :
    t.mStatus e = .stop ∧
    (t.encoder e).stepsLeft + more.countP (fun τ => τ.action.ofEncoder e) ≤ 11 ∧
    (t.device = .exited → t.encoder e ≠ .notCreated → t.encoder e ≠ .exited → ∀ answer,
      ∃ r, pipelineStep cfg lib t (.encoder e answer) = some r) := by
  obtain ⟨hstopped, hcount⟩ := rest.count_le (fun s => s.mStatus e = .stop)
    (fun s => (s.encoder e).stepsLeft) (fun τ => τ.action.ofEncoder e)
    (fun {_ _ _ _} hI hstep => pipelineStep_stops hI hstep) hstatus
  refine ⟨hstopped, hcount.trans (EncoderPc.stepsLeft_le _), ?_⟩
  intro hpc hcreated hexited answer
  exact encoder_enabled (fun q _ => not_locked_of_exited hpc q) hcreated hexited answer

/-- A thread that is stopped while it waits for room drops its frame. -/
theorem encoder_stop_bounded_full :
    ∃ (s : PipelineState) (more : List PipelineTransition) (t : PipelineState),
      s.mStatus .mpThreadVE = .stop ∧ s.encoder .mpThreadVE = .enqueueWaiting 0 ∧
      Run (pipelineStep ⟨0, 1⟩ exactLibAv) s more t ∧
      t.encoder .mpThreadVE = .exited ∧
      more.countP (fun τ => τ.action.ofEncoder .mpThreadVE) = 4 ∧
      (t.encoder .mpThreadVE).stepsLeft +
        more.countP (fun τ => τ.action.ofEncoder .mpThreadVE) ≤ 11 := by
  obtain ⟨more, t, rest, hexited, hcount⟩ :=
    Run.exists_of_exec (pipelineStep ⟨0, 1⟩ exactLibAv)
      { (PipelineState.init 500 (fun _ => 0) koalaGetMuxerHandle).setEncoder .mpThreadVE
          (.enqueueWaiting 0) with
        mStatus := fun _ => .stop }
      (List.replicate 4 (.encoder .mpThreadVE ⟨.kept, ETIMEDOUT⟩))
      (fun q => q.2.encoder .mpThreadVE = .exited ∧
        q.1.countP (fun τ => τ.action.ofEncoder .mpThreadVE) = 4)
      (by decide +kernel)
  exact ⟨_, more, t, rfl, rfl, rest, hexited, hcount,
    (encoder_stop_bounded (e := .mpThreadVE) rfl rest).2.1⟩

end KoalaStreamer
