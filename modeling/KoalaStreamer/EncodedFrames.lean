import KoalaStreamer.FrameCustody

/-!
# Frames that an encoder thread will be given back

A frame that an encoder thread has filled in goes back through its thread object
when it is released, whoever releases it.  Such frames come into use by a step of
that thread only: the device thread and the mux thread pass them on, the other
encoder thread marks its frames as its own.

Main results:
* `pipelineStep_keepsFrames`: a step that is not one of the thread brings none of
  its frames into use.
-/

namespace KoalaStreamer

section InUse

/-- The frame was encoded by the thread `e` and goes back through it. -/
def MediaFrame.EncodedBy (frame : MediaFrame) (e : EncoderId) : Prop :=
  frame.release = .releasePktBuffer ∧ frame.pAppending = e.pThis

instance (frame : MediaFrame) (e : EncoderId) : Decidable (frame.EncodedBy e) :=
  inferInstanceAs (Decidable (_ ∧ _))

/-- The frame in the hand of the device thread, once its fields are set. -/
def DevicePc.filled : DevicePc → List FrameId
  | .filling _ _ _ => []
  | pc => pc.hand

/-- The frame in the hand of an encoder thread, once its fields are set. -/
def EncoderPc.filled : EncoderPc → List FrameId
  | .filling _ _ _ => []
  | pc => pc.hand

/-- The frames that are in a queue or in the hand of a thread. -/
def PipelineState.framesInUse (s : PipelineState) : List FrameId :=
  ([.pYUVQueue, .pPCMQueue, .pVEQueue, .pAEQueue].flatMap
    fun q => (s.queue q).contents) ++
  s.device.filled ++
  ([.mpThreadVE, .mpThreadAE].flatMap fun e => (s.encoder e).filled) ++
  s.mux.hand

end InUse

section Frames

variable {cfg : StreamerConfig} {lib : LibAv} {s s' s'' : PipelineState}
  {es : List PipelineEvent} {e : EncoderId}

theorem mem_framesInUse
    {f : FrameId} :
    f ∈ s.framesInUse ↔
      (∃ q, f ∈ (s.queue q).contents) ∨ f ∈ s.device.filled ∨
      (∃ e, f ∈ (s.encoder e).filled) ∨ f ∈ s.mux.hand := by
  have hqueue : (∃ q, f ∈ (s.queue q).contents) ↔
      f ∈ ([.pYUVQueue, .pPCMQueue, .pVEQueue, .pAEQueue] : List QueueId).flatMap
        fun q => (s.queue q).contents := by
    rw [List.mem_flatMap]
    exact exists_congr fun q => by cases q <;> simp
  have hencoder : (∃ e, f ∈ (s.encoder e).filled) ↔
      f ∈ ([.mpThreadVE, .mpThreadAE] : List EncoderId).flatMap
        fun e => (s.encoder e).filled := by
    rw [List.mem_flatMap]
    exact exists_congr fun e => by cases e <;> simp
  rw [hqueue, hencoder]
  simp only [PipelineState.framesInUse, List.mem_append, or_assoc]

/-- A step that brings no frame of the thread `e` into use. -/
structure KeepsFrames (e : EncoderId) (s s' : PipelineState) : Prop where
  encoded : ∀ f, (s'.heap f).EncodedBy e → (s.heap f).EncodedBy e
  inUse : ∀ f ∈ s'.framesInUse, (s'.heap f).EncodedBy e → f ∈ s.framesInUse

theorem KeepsFrames.refl
    (e : EncoderId) (s : PipelineState) : KeepsFrames e s s :=
  ⟨fun _ h => h, fun _ h _ => h⟩

theorem KeepsFrames.trans
    (h : KeepsFrames e s s') (h' : KeepsFrames e s' s'') :
    KeepsFrames e s s'' :=
  ⟨fun f hf => h.encoded f (h'.encoded f hf),
    fun f hf hencoded =>
      h.inUse f (h'.inUse f hf hencoded) (h'.encoded f hencoded)⟩

/-- What looks at neither the queues nor the threads keeps the frames in use. -/
theorem SameThreads.framesInUse
    (h : SameThreads s s') : s'.framesInUse = s.framesInUse := by
  simp only [PipelineState.framesInUse, h.queue, h.device, h.encoder, h.mux]

theorem keepsFrames_release
    (e : EncoderId) (s : PipelineState) (pFrame : FrameId) :
    KeepsFrames e s (s.mediaFrameRelease pFrame) := by
  obtain ⟨_, _, _, h⟩ := mediaFrameRelease_eq s pFrame
  rw [h]
  exact ⟨fun f hf => hf, fun f hf _ => hf⟩

/-- Filling in a frame that does not go back through `e`. -/
theorem keepsFrames_setFrame
    (s : PipelineState) (pFrame : FrameId) {frame : MediaFrame}
    (hframe : frame.EncodedBy e → (s.heap pFrame).EncodedBy e) :
    KeepsFrames e s (s.setFrame pFrame frame) := by
  refine ⟨fun f hf => ?_, fun f hf _ => hf⟩
  by_cases h : f = pFrame
  · subst h
    exact hframe (by simpa [PipelineState.setFrame] using hf)
  · simpa [PipelineState.setFrame, h] using hf

theorem keepsFrames_getMediaFrame
    (e : EncoderId) (s : PipelineState) :
    KeepsFrames e s s.getMediaFrame.2 := by
  refine ⟨fun f hf => ?_, fun f hf _ => ?_⟩
  · simp only [PipelineState.getMediaFrame] at hf
    split at hf
    · exact hf
    · by_cases h : f = s.nextFrame
      · subst h
        simp [PipelineState.createFrame, PipelineState.setPool,
          MediaFrame.EncodedBy, mediaFrameCreate] at hf
      · simpa [PipelineState.createFrame, PipelineState.setPool, h] using hf
  · rwa [(getMediaFrame_same s).1.framesInUse] at hf

/-- A queue is given frames that are in use. -/
theorem keepsFrames_setQueue
    (e : EncoderId) (s : PipelineState) (q : QueueId) {contents : FiFo FrameId}
    (hcontents : ∀ f ∈ contents.contents, f ∈ s.framesInUse) :
    KeepsFrames e s (s.setQueue q contents) := by
  refine ⟨fun f hf => hf, fun f hf _ => ?_⟩
  rcases mem_framesInUse.mp hf with ⟨q', hf⟩ | hf
  · by_cases h : q' = q
    · subst h
      exact hcontents f (by simpa [PipelineState.setQueue] using hf)
    · exact mem_framesInUse.mpr
        (Or.inl ⟨q', by simpa [PipelineState.setQueue, h] using hf⟩)
  · exact mem_framesInUse.mpr (Or.inr hf)

/-- The device thread is given frames that are in use or not encoded by `e`. -/
theorem keepsFrames_setDevice
    (s : PipelineState) {pc : DevicePc}
    (hpc : ∀ f ∈ pc.filled, (s.heap f).EncodedBy e → f ∈ s.framesInUse) :
    KeepsFrames e s (s.setDevice pc) := by
  refine ⟨fun f hf => hf, fun f hf hencoded => ?_⟩
  rcases mem_framesInUse.mp hf with hf | hf | hf
  · exact mem_framesInUse.mpr (Or.inl hf)
  · exact hpc f hf hencoded
  · exact mem_framesInUse.mpr (Or.inr (Or.inr hf))

theorem keepsFrames_setEncoder
    (s : PipelineState) {e' : EncoderId} {pc : EncoderPc}
    (hpc : ∀ f ∈ pc.filled, (s.heap f).EncodedBy e → f ∈ s.framesInUse) :
    KeepsFrames e s (s.setEncoder e' pc) := by
  refine ⟨fun f hf => hf, fun f hf hencoded => ?_⟩
  rcases mem_framesInUse.mp hf with hf | hf | ⟨e'', hf⟩ | hf
  · exact mem_framesInUse.mpr (Or.inl hf)
  · exact mem_framesInUse.mpr (Or.inr (Or.inl hf))
  · rw [setEncoder_encoder] at hf
    split at hf
    · exact hpc f hf hencoded
    · exact mem_framesInUse.mpr (Or.inr (Or.inr (Or.inl ⟨e'', hf⟩)))
  · exact mem_framesInUse.mpr (Or.inr (Or.inr (Or.inr hf)))

theorem keepsFrames_setMux
    (s : PipelineState) {pc : MuxPc}
    (hpc : ∀ f ∈ pc.hand, f ∈ s.framesInUse) :
    KeepsFrames e s (s.setMux pc) := by
  refine ⟨fun f hf => hf, fun f hf hencoded => ?_⟩
  rcases mem_framesInUse.mp hf with hf | hf | hf | hf
  · exact mem_framesInUse.mpr (Or.inl hf)
  · exact mem_framesInUse.mpr (Or.inr (Or.inl hf))
  · exact mem_framesInUse.mpr (Or.inr (Or.inr (Or.inl hf)))
  · exact hpc f hf

/-- A thread goes on without a frame in its hand. -/
theorem keepsFrames_deviceEmpty
    (e : EncoderId) (s : PipelineState) {pc : DevicePc} (hpc : pc.filled = []) :
    KeepsFrames e s (s.setDevice pc) := by
  refine keepsFrames_setDevice s fun f hf _ => ?_
  rw [hpc] at hf
  exact absurd hf List.not_mem_nil

theorem keepsFrames_encoderEmpty
    (e : EncoderId) (s : PipelineState) (e' : EncoderId) {pc : EncoderPc}
    (hpc : pc.filled = []) :
    KeepsFrames e s (s.setEncoder e' pc) := by
  refine keepsFrames_setEncoder s fun f hf _ => ?_
  rw [hpc] at hf
  exact absurd hf List.not_mem_nil

theorem keepsFrames_muxEmpty
    (e : EncoderId) (s : PipelineState) {pc : MuxPc} (hpc : pc.hand = []) :
    KeepsFrames e s (s.setMux pc) := by
  refine keepsFrames_setMux s fun f hf => ?_
  rw [hpc] at hf
  exact absurd hf List.not_mem_nil

theorem afterSize_filled
    (q : QueueId) : (afterSize q).filled = [] := by
  cases q <;> rfl

theorem inUse_queue
    {q : QueueId} {f : FrameId} (hf : f ∈ (s.queue q).contents) :
    f ∈ s.framesInUse :=
  mem_framesInUse.mpr (Or.inl ⟨q, hf⟩)

theorem inUse_device
    {pc : DevicePc} (hpc : s.device = pc) : ∀ f ∈ pc.filled, f ∈ s.framesInUse := by
  intro f hf
  rw [← hpc] at hf
  exact mem_framesInUse.mpr (Or.inr (Or.inl hf))

theorem inUse_encoder
    {e : EncoderId} {pc : EncoderPc} (hpc : s.encoder e = pc) :
    ∀ f ∈ pc.filled, f ∈ s.framesInUse := by
  intro f hf
  rw [← hpc] at hf
  exact mem_framesInUse.mpr (Or.inr (Or.inr (Or.inl ⟨e, hf⟩)))

theorem inUse_mux
    {pc : MuxPc} (hpc : s.mux = pc) : ∀ f ∈ pc.hand, f ∈ s.framesInUse := by
  intro f hf
  rw [← hpc] at hf
  exact mem_framesInUse.mpr (Or.inr (Or.inr (Or.inr hf)))

/-- What is stored is the frame of the caller. -/
theorem mem_of_mem_stored
    {x : EnqueueExit FrameId} {pFrame f : FrameId} (hf : f ∈ x.stored pFrame) :
    f = pFrame := by
  simp only [EnqueueExit.stored] at hf
  split at hf
  · exact List.mem_singleton.mp hf
  · cases hf

/-- An `enqueue` that returns stores a frame in use, or none. -/
theorem keepsFrames_enqueue
    (e : EncoderId) (q : QueueId) {pFrame : FrameId} {x : EnqueueExit FrameId}
    (hframe : pFrame ∈ s.framesInUse)
    (hstored : x.queue.contents = (s.queue q).contents ++ x.stored pFrame) :
    KeepsFrames e s (s.setQueue q x.queue) := by
  refine keepsFrames_setQueue e s q fun f hf => ?_
  rw [hstored] at hf
  rcases List.mem_append.mp hf with hf | hf
  · exact inUse_queue hf
  · rw [mem_of_mem_stored hf]
    exact hframe

/-- Taking out the head of a queue into the hand of the device thread. -/
theorem keepsFrames_clean
    (e : EncoderId) (q : QueueId) {contents : FiFo FrameId} {pc : DevicePc}
    (htaken : pc.filled ++ contents.contents = (s.queue q).contents) :
    KeepsFrames e s ((s.setQueue q contents).setDevice pc) := by
  have hpc : KeepsFrames e s (s.setDevice pc) :=
    keepsFrames_setDevice s fun f hf _ =>
      inUse_queue (htaken ▸ List.mem_append_left _ hf)
  refine hpc.trans (keepsFrames_setQueue e (s.setDevice pc) q fun f hf => ?_)
  exact inUse_queue (s := s.setDevice pc) (htaken ▸ List.mem_append_right _ hf)

theorem keepsFrames_encoderDequeued
    (e e' : EncoderId) {d : DequeueExit FrameId}
    (htaken : d.ret.toList ++ d.queue.contents = (s.queue e'.input).contents) :
    KeepsFrames e s (encoderDequeued s e' d).1 := by
  have hset : ∀ pc : EncoderPc, pc.filled = d.ret.toList →
      KeepsFrames e s ((s.setQueue e'.input d.queue).setEncoder e' pc) := by
    intro pc hhand
    have hpc : KeepsFrames e s (s.setEncoder e' pc) :=
      keepsFrames_setEncoder s fun f hf _ =>
        inUse_queue (htaken ▸ List.mem_append_left _ (hhand ▸ hf))
    refine hpc.trans
      (keepsFrames_setQueue e (s.setEncoder e' pc) e'.input fun f hf => ?_)
    exact inUse_queue (s := s.setEncoder e' pc)
      (htaken ▸ List.mem_append_right _ hf)
  simp only [encoderDequeued]
  cases hret : d.ret with
  | none =>
      exact hset .runLoop (by rw [hret]; rfl)
  | some pFrame =>
      exact hset (.dealing pFrame) (by rw [hret]; rfl)

theorem keepsFrames_muxDequeued
    (e : EncoderId) (stream : StreamType) (again : Bool) {d : DequeueExit FrameId}
    (htaken :
      d.ret.toList ++ d.queue.contents = (s.queue stream.queue).contents) :
    KeepsFrames e s (muxDequeued s stream again d).1 := by
  have hset : KeepsFrames e s (s.setMux (.dequeued stream again d.ret)) :=
    keepsFrames_setMux s fun f hf =>
      inUse_queue (htaken ▸ List.mem_append_left _ hf)
  refine hset.trans (keepsFrames_setQueue e
    (s.setMux (.dequeued stream again d.ret)) stream.queue fun f hf => ?_)
  exact inUse_queue (s := s.setMux (.dequeued stream again d.ret))
    (htaken ▸ List.mem_append_right _ hf)

/-- `enqueue` returns to an encoder thread. -/
theorem keepsFrames_encoderEnqueued
    (e : EncoderId) {e' : EncoderId} {pFrame : FrameId} {pc : EncoderPc}
    {x : EnqueueExit FrameId}
    (hpc : s.encoder e' = pc) (hhand : pc.filled = [pFrame])
    (hstored : x.queue.contents =
      (s.queue e'.output).contents ++ x.stored pFrame) :
    KeepsFrames e s (encoderEnqueued s e' pFrame x).1 := by
  have hmem : pFrame ∈ pc.filled := hhand ▸ List.mem_singleton_self _
  refine (keepsFrames_enqueue e e'.output (inUse_encoder hpc pFrame hmem)
    hstored).trans (keepsFrames_setEncoder _ fun f hf _ => ?_)
  have hframe : f = pFrame := by
    simp only [EncoderPc.filled, EncoderPc.hand] at hf
    split at hf
    · exact List.mem_singleton.mp hf
    · cases hf
  rw [hframe]
  -- the thread still holds the frame when it is in the queue already
  exact inUse_encoder (s := s.setQueue e'.output x.queue) hpc pFrame hmem

theorem keepsFrames_muxPassEnd
    (e : EncoderId) (s : PipelineState) (stream : StreamType) (ret : Int)
    (ended : Bool) :
    KeepsFrames e s (muxPassEnd s stream ret ended) := by
  have hset : KeepsFrames e s (s.setMux (if ended then .exited else .loopHead)) :=
    keepsFrames_muxEmpty e s (by cases ended <;> rfl)
  exact ⟨hset.encoded, hset.inUse⟩

/-- Writing a frame changes its time stamps only. -/
theorem writtenFrame_encodedBy
    (pHandle : KoalaMuxer) (stream : StreamType) (frame : MediaFrame)
    (e : EncoderId) :
    (writtenFrame pHandle stream frame).EncodedBy e ↔ frame.EncodedBy e := by
  simp only [writtenFrame]
  split
  · rfl
  · simp only [rebase]
    split <;> rfl

theorem encodedFrame_not_encodedBy
    {e e' : EncoderId} (hne : e' ≠ e) {pkt : PktId} {out : EncodedPkt}
    {frame : MediaFrame} :
    ¬ (encodedFrame e' pkt out frame).EncodedBy e := by
  rintro ⟨-, hthis⟩
  apply hne
  cases e <;> cases e' <;> first | rfl | cases hthis

/-- The device thread releases its frames itself. -/
theorem deviceStep_keepsFrames
    (e : EncoderId) {answer : DeviceAnswer}
    (h : deviceStep cfg s answer = some (s', es)) :
    KeepsFrames e s s' := by
  cases deviceStep_case h with
  | loopHead hpc =>
      refine keepsFrames_deviceEmpty e s ?_
      split <;> rfl
  | reads hpc =>
      have hset : KeepsFrames e s
          (s.setDevice (.getting s.nextPkt answer.streamIndex)) :=
        keepsFrames_deviceEmpty e s rfl
      exact ⟨hset.encoded, hset.inUse⟩
  | getsFrame pkt streamIndex hpc =>
      exact (keepsFrames_getMediaFrame e s).trans
        (keepsFrames_deviceEmpty e _ rfl)
  | fills pkt streamIndex pFrame hpc =>
      refine (keepsFrames_setFrame s pFrame ?_).trans
        (keepsFrames_setDevice _ fun f hf hencoded => ?_)
      · rintro ⟨hrelease, -⟩
        cases hrelease
      · obtain rfl := List.mem_singleton.mp hf
        simp [PipelineState.setFrame, mediaFrameSetRelease,
          MediaFrame.EncodedBy] at hencoded
  | routes streamIndex pFrame hpc =>
      refine keepsFrames_setDevice s fun f hf _ => inUse_device hpc f ?_
      simp only [routeFrame] at hf
      split at hf
      · exact hf
      · split at hf <;> exact hf
  | waits q pFrame hpc hfull =>
      exact keepsFrames_setDevice s fun f hf _ => inUse_device hpc f hf
  | puts q pFrame hpc hroom =>
      exact (keepsFrames_enqueue e q
        (inUse_device hpc pFrame (List.mem_singleton_self _))
        (enqueuePut_contents _ _)).trans
        (keepsFrames_deviceEmpty e _ rfl)
  | wakes q pFrame hpc =>
      exact (keepsFrames_enqueue e q
        (inUse_device hpc pFrame (List.mem_singleton_self _))
        (enqueueWake_contents _ _ _)).trans
        (keepsFrames_deviceEmpty e _ rfl)
  | releases pFrame hpc =>
      exact (keepsFrames_release e s pFrame).trans
        (keepsFrames_deviceEmpty e _ rfl)
  | selects q hpc hlong =>
      exact keepsFrames_deviceEmpty e s rfl
  | skips q hpc hshort =>
      exact keepsFrames_deviceEmpty e s (afterSize_filled q)
  | enters q hpc =>
      exact keepsFrames_deviceEmpty e s rfl
  | cleanEnds q size hpc hpass =>
      exact keepsFrames_deviceEmpty e s (afterSize_filled q)
  | cleans q size p hpc hpass hremoved =>
      have hcontents := (cleanPass_contents hpass).1
      rw [hremoved] at hcontents
      refine keepsFrames_clean e q ?_
      split
      · cases q <;> exact hcontents
      · exact hcontents
  | removes q size p pFrame hpc hpass hremoved =>
      have hcontents := (cleanPass_contents hpass).1
      rw [hremoved] at hcontents
      exact keepsFrames_clean e q hcontents
  | cleanReleases q size stop pFrame hpc =>
      refine (keepsFrames_release e s pFrame).trans
        (keepsFrames_deviceEmpty e _ ?_)
      split
      · exact afterSize_filled q
      · rfl

/-- The mux thread releases the frames it has taken. -/
theorem muxThreadStep_keepsFrames
    (e : EncoderId) {answer : MuxAnswer}
    (h : muxThreadStep lib s answer = some (s', es)) :
    KeepsFrames e s s' := by
  cases muxThreadStep_case h with
  | exits hpc hselect =>
      exact keepsFrames_muxEmpty e s rfl
  | selects stream hpc hselect hhave =>
      exact keepsFrames_muxEmpty e s rfl
  | skips stream hpc hselect hhave =>
      exact keepsFrames_muxEmpty e s rfl
  | dequeueWaits stream again hpc hlocked hempty =>
      exact keepsFrames_muxEmpty e s rfl
  | gets stream again hpc hlocked hsome =>
      exact keepsFrames_muxDequeued e stream again (dequeueGet_contents _)
  | dequeueWakes stream again hpc hlocked =>
      exact keepsFrames_muxDequeued e stream again (dequeueWake_contents _ _)
  | stopsWithFrame stream again pFrame hpc hstop =>
      exact keepsFrames_setMux s fun f hf => inUse_mux hpc f hf
  | stops stream again hpc hstop =>
      exact keepsFrames_muxEmpty e s rfl
  | obtains stream again pFrame hpc hstop =>
      exact keepsFrames_setMux s fun f hf => inUse_mux hpc f hf
  | asksAgain stream again hpc hstop =>
      exact keepsFrames_muxEmpty e s rfl
  | callbackReleases stream pFrame hpc =>
      exact (keepsFrames_release e s pFrame).trans
        (keepsFrames_muxEmpty e _ rfl)
  | callbackEnds stream hpc =>
      exact keepsFrames_muxPassEnd e s stream 1 answer.ended
  | writes stream pFrame hpc =>
      have hset : KeepsFrames e s
          ((s.setFrame pFrame
            (writtenFrame s.pHandle stream (s.heap pFrame))).setMux
              (.releasing stream pFrame (writeObtained lib s.pHandle stream 0
                (s.heap pFrame) answer.written).ret)) :=
        (keepsFrames_setFrame s pFrame
          (writtenFrame_encodedBy s.pHandle stream _ e).mp).trans
          (keepsFrames_setMux _ fun f hf => inUse_mux hpc f hf)
      exact ⟨hset.encoded, hset.inUse⟩
  | releases stream pFrame ret hpc =>
      exact (keepsFrames_release e s pFrame).trans
        (keepsFrames_muxPassEnd e _ stream ret answer.ended)

/-- An encoder thread marks its frames as its own. -/
theorem encoderStep_keepsFrames
    {e e' : EncoderId} (hne : e' ≠ e) {answer : EncoderAnswer}
    (h : encoderStep s e' answer = some (s', es)) :
    KeepsFrames e s s' := by
  cases encoderStep_case h with
  | exits hpc hstatus =>
      exact keepsFrames_encoderEmpty e s e' rfl
  | pauses hpc hstatus =>
      exact KeepsFrames.refl e s
  | loops hpc hstatus =>
      exact keepsFrames_encoderEmpty e s e' rfl
  | dequeueWaits hpc hlocked hempty =>
      exact keepsFrames_encoderEmpty e s e' rfl
  | gets hpc hlocked hsome =>
      exact keepsFrames_encoderDequeued e e' (dequeueGet_contents _)
  | dequeueWakes hpc hlocked =>
      exact keepsFrames_encoderDequeued e e' (dequeueWake_contents _ _)
  | deals pFrame hpc =>
      have hset : ∀ out, KeepsFrames e s
          (s.setEncoder e' (.inputReleasing pFrame out)) :=
        fun out => keepsFrames_setEncoder s fun f hf _ => inUse_encoder hpc f hf
      cases answer.encoded with
      | kept =>
          exact hset none
      | nothing =>
          exact ⟨(hset none).encoded, (hset none).inUse⟩
      | got out =>
          exact ⟨(hset (some (s.nextPkt, out))).encoded,
            (hset (some (s.nextPkt, out))).inUse⟩
  | releasesEncoded pFrame pkt out hpc =>
      exact (keepsFrames_release e s pFrame).trans
        (keepsFrames_encoderEmpty e _ e' rfl)
  | releasesInput pFrame hpc =>
      exact (keepsFrames_release e s pFrame).trans
        (keepsFrames_encoderEmpty e _ e' rfl)
  | getsFrame pkt out hpc =>
      exact (keepsFrames_getMediaFrame e s).trans
        (keepsFrames_encoderEmpty e _ e' rfl)
  | fills pkt out pFrame hpc =>
      refine (keepsFrames_setFrame s pFrame ?_).trans
        (keepsFrames_setEncoder _ fun f hf hencoded => ?_)
      · exact fun hencoded => absurd hencoded (encodedFrame_not_encodedBy hne)
      · obtain rfl := List.mem_singleton.mp hf
        exact absurd (by simpa [PipelineState.setFrame] using hencoded)
          (encodedFrame_not_encodedBy hne)
  | enqueueWaits pFrame hpc hlocked hfull =>
      exact keepsFrames_setEncoder s fun f hf _ => inUse_encoder hpc f hf
  | puts pFrame hpc hlocked hroom =>
      exact keepsFrames_encoderEnqueued e hpc rfl (enqueuePut_contents _ _)
  | enqueueWakes pFrame hpc hlocked =>
      exact keepsFrames_encoderEnqueued e hpc rfl (enqueueWake_contents _ _ _)
  | retries pFrame ret hpc hneg hretry =>
      exact keepsFrames_setEncoder s fun f hf _ => inUse_encoder hpc f
        (by simpa [EncoderPc.filled, EncoderPc.hand, hneg] using hf)
  | givesUp pFrame ret hpc hneg hretry =>
      exact keepsFrames_setEncoder s fun f hf _ => inUse_encoder hpc f
        (by simpa [EncoderPc.filled, EncoderPc.hand, hneg] using hf)
  | hasEnqueued pFrame ret hpc hneg =>
      exact keepsFrames_encoderEmpty e s e' rfl
  | releases pFrame hpc =>
      exact (keepsFrames_release e s pFrame).trans
        (keepsFrames_encoderEmpty e _ e' rfl)

/-- Only the thread of `e` brings frames of `e` into use. -/
theorem pipelineStep_keepsFrames
    {a : PipelineAction}
    (h : pipelineStep cfg lib s a = some (s', es))
    (hother : ∀ answer, a ≠ .encoder e answer) :
    KeepsFrames e s s' := by
  cases a with
  | setStop =>
      obtain ⟨rfl, -⟩ := Prod.mk.inj (Option.some.inj h)
      exact ⟨fun _ hf => hf, fun _ hf _ => hf⟩
  | start e' =>
      simp only [pipelineStep] at h
      split at h
      · obtain ⟨rfl, -⟩ := Prod.mk.inj (Option.some.inj h)
        have hset : KeepsFrames e s (s.setEncoder e' .runLoop) :=
          keepsFrames_encoderEmpty e s e' rfl
        exact ⟨hset.encoded, hset.inUse⟩
      · obtain ⟨rfl, -⟩ := Prod.mk.inj (Option.some.inj h)
        exact KeepsFrames.refl e s
  | pause e' =>
      simp only [pipelineStep] at h
      split at h <;> obtain ⟨rfl, -⟩ := Prod.mk.inj (Option.some.inj h) <;>
        exact ⟨fun _ hf => hf, fun _ hf _ => hf⟩
  | stop e' =>
      simp only [pipelineStep] at h
      split at h <;> obtain ⟨rfl, -⟩ := Prod.mk.inj (Option.some.inj h) <;>
        exact ⟨fun _ hf => hf, fun _ hf _ => hf⟩
  | startMux =>
      simp only [pipelineStep] at h
      split at h
      · obtain ⟨rfl, -⟩ := Prod.mk.inj (Option.some.inj h)
        have hset : KeepsFrames e s (s.setMux .loopHead) :=
          keepsFrames_muxEmpty e s rfl
        exact ⟨hset.encoded, hset.inUse⟩
      · obtain ⟨rfl, -⟩ := Prod.mk.inj (Option.some.inj h)
        exact KeepsFrames.refl e s
  | device answer =>
      exact deviceStep_keepsFrames e h
  | encoder e' answer =>
      have hne : e' ≠ e := by
        rintro rfl
        exact hother answer rfl
      exact encoderStep_keepsFrames hne h
  | mux answer =>
      exact muxThreadStep_keepsFrames e h

end Frames

end KoalaStreamer
