import KoalaStreamer.DeviceReading

/-!
# The packets in the queues of raw frames

Only the device thread appends to `pYUVQueue` and `pPCMQueue`, and only the
encoder thread of the queue takes from it.  No thread writes to a frame in a
queue, so the packets that come out are those that went in.

Main results:
* `pipelineStep_inputPackets`: what an encoder thread takes and leaves in its queue
  is what the queue held and what the device thread stored.
-/

namespace KoalaStreamer

open EventMachine TokenAccounting

section Input

variable {cfg : StreamerConfig} {lib : LibAv} {s s' : PipelineState}
  {es : List PipelineEvent} {a : PipelineAction} {reads : PktId → ReadResult}
  {e : EncoderId}

/-- The packets of the frames in the input queue of an encoder thread. -/
def PipelineState.inputPackets (s : PipelineState) (e : EncoderId) : List PktId :=
  (s.queue e.input).contents.map fun f => (s.heap f).pBuffer

/-- The packet that the queue takes in the step. -/
def storedBy (q : QueueId) (τ : PipelineTransition) : List PktId :=
  ((handledBy τ).filter fun x => x.2 = .enqueued q true).map Prod.fst

/-- What a step does to the input queue of an encoder thread: the frames that the
thread takes, and those that the device thread stores. -/
structure InputStep (e : EncoderId) (τ : PipelineTransition) : Prop where
  moves : ∃ taken stored : List FrameId,
    taken ++ (τ.dst.queue e.input).contents =
      (τ.src.queue e.input).contents ++ stored ∧
    dealtBy e τ = taken.map (fun f => (τ.dst.heap f).pBuffer) ∧
    storedBy e.input τ = stored.map fun f => (τ.dst.heap f).pBuffer

theorem InputStep.of_same
    {τ : PipelineTransition}
    (hqueue : τ.dst.queue e.input = τ.src.queue e.input)
    (hdealt : dealtBy e τ = []) (hstored : storedBy e.input τ = []) :
    InputStep e τ :=
  ⟨[], [], by rw [hqueue, List.nil_append, List.append_nil], hdealt, hstored⟩

theorem input_ne_output
    (e e' : EncoderId) : e.input ≠ e'.output := by
  cases e <;> cases e' <;> decide

theorem input_ne_stream
    (e : EncoderId) (stream : StreamType) : e.input ≠ stream.queue := by
  cases e <;> cases stream <;> decide

theorem input_injective
    {e e' : EncoderId} (h : e.input = e'.input) : e = e' := by
  cases e <;> cases e' <;> first | rfl | cases h

/-- `enqueue` of the device thread appends its frame to the queue, or does
nothing. -/
theorem inputStep_enqueued
    {q : QueueId} {pFrame : FrameId} {answer : DeviceAnswer}
    {x : EnqueueExit FrameId}
    (hcontents :
      x.queue.contents = (s.queue q).contents ++ x.stored pFrame) :
    InputStep e ⟨s, .device answer, (deviceEnqueued s q pFrame x).2,
      (deviceEnqueued s q pFrame x).1⟩ := by
  have hqueue : ∀ q', (deviceEnqueued s q pFrame x).1.queue q' =
      if q' = q then x.queue else s.queue q' :=
    fun q' => Function.update_apply _ _ _ _
  by_cases hq : e.input = q
  · subst hq
    refine ⟨[], x.stored pFrame, ?_, rfl, ?_⟩
    · rw [hqueue, if_pos rfl, List.nil_append]
      exact hcontents
    · have hstored : (x.queue.contents = (s.queue e.input).contents ++ [pFrame]) ↔
          x.stored pFrame = [pFrame] := by
        rw [hcontents, List.append_cancel_left_eq]
      have hheap : (deviceEnqueued s e.input pFrame x).1.heap = s.heap := rfl
      simp only [storedBy, handledBy, deviceEnqueued, List.filterMap_cons,
        List.filterMap_nil, PipelineState.setQueue, PipelineState.setDevice,
        Function.update_self, hstored]
      simp only [EnqueueExit.stored]
      split <;> simp
  · refine .of_same ?_ rfl ?_
    · exact (hqueue e.input).trans (if_neg hq)
    · simp [storedBy, handledBy, deviceEnqueued, Ne.symm hq]

/-- Only queues of encoded frames are cleaned. -/
theorem input_ne_cleaned
    {q : QueueId} (h : q = .pVEQueue ∨ q = .pAEQueue) : e.input ≠ q := by
  rcases h with rfl | rfl <;> cases e <;> decide

/-- The device thread appends to the queues of raw frames. -/
theorem deviceStep_input
    {answer : DeviceAnswer}
    (hgoes : s.device.GoesBy cfg reads s.heap)
    (h : deviceStep cfg s answer = some (s', es)) :
    InputStep e ⟨s, .device answer, es, s'⟩ := by
  cases deviceStep_case h with
  | puts q pFrame hpc hroom =>
      exact inputStep_enqueued (enqueuePut_contents _ _)
  | wakes q pFrame hpc =>
      exact inputStep_enqueued (enqueueWake_contents _ _ _)
  | getsFrame pkt streamIndex hpc =>
      exact .of_same (congrFun (getMediaFrame_same s).1.queue _) rfl rfl
  | releases pFrame hpc =>
      refine .of_same
        (congrFun (mediaFrameRelease_same s pFrame).1.queue _) rfl ?_
      simp [storedBy, handledBy, hpc]
  | cleanReleases q size stop pFrame hpc =>
      refine .of_same
        (congrFun (mediaFrameRelease_same s pFrame).1.queue _) rfl ?_
      simp [storedBy, handledBy, hpc]
  | cleans q size p hpc hpass hremoved =>
      rw [hpc] at hgoes
      exact .of_same (Function.update_of_ne (input_ne_cleaned hgoes) _ _) rfl rfl
  | removes q size p pFrame hpc hpass hremoved =>
      rw [hpc] at hgoes
      exact .of_same (Function.update_of_ne (input_ne_cleaned hgoes) _ _) rfl rfl
  | _ =>
      exact .of_same rfl rfl rfl

/-- `dequeue` returns to an encoder thread. -/
theorem inputStep_dequeued
    {e' : EncoderId} {answer : EncoderAnswer} {d : DequeueExit FrameId}
    (htaken : d.ret.toList ++ d.queue.contents = (s.queue e'.input).contents) :
    InputStep e ⟨s, .encoder e' answer, [], (encoderDequeued s e' d).1⟩ := by
  by_cases he : e' = e
  · subst he
    refine ⟨d.ret.toList, [], ?_, ?_, rfl⟩
    · have hqueue : (encoderDequeued s e' d).1.queue e'.input = d.queue :=
        Function.update_self _ _ _
      rw [hqueue, List.append_nil]
      exact htaken
    · have hencoder : (encoderDequeued s e' d).1.encoder e' =
          d.ret.elim .runLoop .dealing :=
        (Function.update_self _ _ _).trans (by cases d.ret <;> rfl)
      simp only [dealtBy, if_true, hencoder]
      cases d.ret <;> rfl
  · have hne : e.input ≠ e'.input := fun h => he (input_injective h).symm
    refine .of_same (Function.update_of_ne hne _ _) ?_ rfl
    simp only [dealtBy, if_neg he]

/-- An encoder thread goes on without looking at its input queue. -/
theorem inputStep_walks
    {e' : EncoderId} {answer : EncoderAnswer}
    (hqueue : s'.queue e.input = s.queue e.input)
    (hpc : ∀ f, s'.encoder e' ≠ .dealing f)
    (hhandled : handledBy ⟨s, .encoder e' answer, es, s'⟩ = []) :
    InputStep e ⟨s, .encoder e' answer, es, s'⟩ := by
  refine .of_same hqueue ?_ ?_
  · simp only [dealtBy]
    split
    · rename_i he
      subst he
      split
      · rename_i f hdealing
        exact absurd hdealing (hpc f)
      · rfl
    · rfl
  · rw [storedBy, hhandled]
    rfl

/-- Each encoder thread takes from its own input queue. -/
theorem encoderStep_input
    {e' : EncoderId} {answer : EncoderAnswer}
    (h : encoderStep s e' answer = some (s', es)) :
    InputStep e ⟨s, .encoder e' answer, es, s'⟩ := by
  have hhandled := handledBy_eq_nil (a := .encoder e' answer) (by simp)
    (encoderStep_move h)
  have hset : ∀ (mid : PipelineState) (pc : EncoderPc),
      s' = mid.setEncoder e' pc → mid.queue e.input = s.queue e.input →
      (∀ f, pc ≠ .dealing f) → InputStep e ⟨s, .encoder e' answer, es, s'⟩ := by
    rintro mid pc rfl hqueue hpc
    refine inputStep_walks hqueue (fun f hf => ?_) hhandled
    rw [setEncoder_encoder, if_pos rfl] at hf
    exact hpc f hf
  cases encoderStep_case h with
  | pauses hpc hstatus =>
      exact inputStep_walks rfl (fun f hf => by simp [hpc] at hf) hhandled
  | gets hpc hlocked hsome =>
      exact inputStep_dequeued (dequeueGet_contents _)
  | dequeueWakes hpc hlocked =>
      exact inputStep_dequeued (dequeueWake_contents _ _)
  | deals pFrame hpc =>
      refine inputStep_walks ?_ (fun f hf => ?_) hhandled
      · cases answer.encoded <;> rfl
      · cases hencoded : answer.encoded <;>
          simp [hencoded, encoderDealt, PipelineState.setEncoder] at hf
  | releasesEncoded pFrame pkt out hpc =>
      exact hset _ _ rfl (congrFun (mediaFrameRelease_same s pFrame).1.queue _)
        (fun _ => by simp)
  | releasesInput pFrame hpc =>
      exact hset _ _ rfl (congrFun (mediaFrameRelease_same s pFrame).1.queue _)
        (fun _ => by simp)
  | releases pFrame hpc =>
      exact hset _ _ rfl (congrFun (mediaFrameRelease_same s pFrame).1.queue _)
        (fun _ => by simp)
  | getsFrame pkt out hpc =>
      exact hset _ _ rfl (congrFun (getMediaFrame_same s).1.queue _)
        (fun _ => by simp)
  | fills pkt out pFrame hpc =>
      exact hset (s.setFrame pFrame (encodedFrame e' pkt out (s.heap pFrame))) _ rfl
        rfl (fun _ => by simp)
  | puts pFrame hpc hlocked hroom =>
      exact hset _ _ rfl (Function.update_of_ne (input_ne_output e e') _ _)
        (fun _ => by simp)
  | enqueueWakes pFrame hpc hlocked =>
      exact hset _ _ rfl (Function.update_of_ne (input_ne_output e e') _ _)
        (fun _ => by simp)
  | _ =>
      exact hset s _ rfl rfl (fun _ => by simp)

/-- The mux thread takes from the queues of encoded frames. -/
theorem muxThreadStep_input
    {answer : MuxAnswer}
    (h : muxThreadStep lib s answer = some (s', es)) :
    InputStep e ⟨s, .mux answer, es, s'⟩ := by
  have hhandled := handledBy_eq_nil (a := .mux answer) (by simp)
    (muxThreadStep_move h)
  have hsame : s'.queue e.input = s.queue e.input →
      InputStep e ⟨s, .mux answer, es, s'⟩ := by
    intro hqueue
    refine .of_same hqueue rfl ?_
    rw [storedBy, hhandled]
    rfl
  cases muxThreadStep_case h with
  | gets stream again hpc hlocked hsome =>
      exact hsame (Function.update_of_ne (input_ne_stream e stream) _ _)
  | dequeueWakes stream again hpc hlocked =>
      exact hsame (Function.update_of_ne (input_ne_stream e stream) _ _)
  | callbackReleases stream pFrame hpc =>
      exact hsame (congrFun (mediaFrameRelease_same s pFrame).1.queue _)
  | releases stream pFrame ret hpc =>
      exact hsame (congrFun (mediaFrameRelease_same s pFrame).1.queue _)
  | _ =>
      exact hsame rfl

/-- Inversion of a step of the pipeline, as far as an input queue goes. -/
theorem pipelineStep_input
    (hgoes : s.device.GoesBy cfg reads s.heap)
    (h : pipelineStep cfg lib s a = some (s', es)) :
    InputStep e ⟨s, a, es, s'⟩ := by
  cases a with
  | device answer =>
      exact deviceStep_input hgoes h
  | encoder e' answer =>
      exact encoderStep_input h
  | mux answer =>
      exact muxThreadStep_input h
  | setStop =>
      obtain ⟨rfl, rfl⟩ := Prod.mk.inj (Option.some.inj h)
      exact .of_same rfl rfl rfl
  | _ =>
      simp only [pipelineStep] at h
      split at h <;> obtain ⟨rfl, rfl⟩ := Prod.mk.inj (Option.some.inj h) <;>
        exact .of_same rfl rfl rfl

/-- A frame in a queue is not written to, so what is stored is what is taken. -/
theorem pipelineStep_inputPackets
    (honce : AtMostOnce s.custody s.nextFrame)
    (hgoes : s.device.GoesBy cfg reads s.heap)
    (h : pipelineStep cfg lib s a = some (s', es)) :
    dealtBy e ⟨s, a, es, s'⟩ ++ s'.inputPackets e =
      s.inputPackets e ++ storedBy e.input ⟨s, a, es, s'⟩ := by
  obtain ⟨taken, stored, hmoves, hdealt, hstored⟩ :=
    (pipelineStep_input (e := e) hgoes h).moves
  have hkept : s.inputPackets e =
      (s.queue e.input).contents.map fun f => (s'.heap f).pBuffer := by
    refine List.map_congr_left fun f hf => ?_
    have hplace : f ∈ s.custody (.queue e.input) := hf
    rw [pipelineStep_heap_of_place honce h hplace (by simp)]
  rw [hdealt, hstored, hkept, PipelineState.inputPackets, ← List.map_append,
    ← List.map_append, hmoves]

end Input

end KoalaStreamer
