import KoalaStreamer.FrameCustody

/-!
# One owner for every frame

The balance of the steps, read along the runs of the pipeline before
`destroyMediaThread` is entered.

Main results:
* `frame_in_one_place`: no frame is ever in two places or twice in one, and what
  comes into the pool or is freed was nowhere but in the hand of its thread;
* `no_frame_leaked_iff`: no frame is leaked, and every raw frame that was not
  enqueued is released with its packet, if and only if no `enqueue` of the run
  loses the frame of its caller.
-/

namespace KoalaStreamer

open EventMachine TokenAccounting

section Runs

variable (cfg : StreamerConfig) (lib : LibAv) (poolCapacity : ℕ)
  (capacity : QueueId → ℕ) (pHandle : KoalaMuxer)

/-- Before the first step no frame has been created. -/
theorem init_exactlyOnce :
    ExactlyOnce (PipelineState.init poolCapacity capacity pHandle).custody
      (PipelineState.init poolCapacity capacity pHandle).nextFrame := by
  refine exactlyOnce_empty ?_
  intro p
  rcases p with _ | q | (_ | e | _) | _
  · exact Stack.contents_init poolCapacity
  · exact FiFo.contents_init (capacity q)
  · rfl
  · rfl
  · rfl
  · rfl

variable {cfg lib poolCapacity capacity pHandle}
variable {tr : List PipelineTransition} {s : PipelineState}

/-- A transition of a run moves frames as one thread does. -/
theorem pipeline_move
    (run : Run (pipelineStep cfg lib)
      (PipelineState.init poolCapacity capacity pHandle) tr s) :
    ∀ τ ∈ tr, ∃ t,
      ThreadMove t τ.src τ.dst τ.events (lostFrames τ.src τ.action) := by
  intro τ hτ
  obtain ⟨tr', _, hrun⟩ := run.prefix_of_mem τ hτ
  exact pipelineStep_move (run_startInv hrun) (run.valid τ hτ)

theorem pipelineStep_balanced
    {s' : PipelineState} {a : PipelineAction} {es : List PipelineEvent}
    (hstart : StartInv s)
    (hstep : pipelineStep cfg lib s a = some (s', es)) :
    Balanced s.custody s.nextFrame s'.custody s'.nextFrame (lostFrames s a) := by
  obtain ⟨t, hmove⟩ := pipelineStep_move hstart hstep
  exact hmove.balanced

theorem pipeline_atMostOnce
    (run : Run (pipelineStep cfg lib)
      (PipelineState.init poolCapacity capacity pHandle) tr s) :
    AtMostOnce s.custody s.nextFrame :=
  run_atMostOnce PipelineState.custody PipelineState.nextFrame lostFrames
    run_startInv (init_exactlyOnce _ _ _) pipelineStep_balanced run

end Runs

/--
In every run of the pipeline, no frame is in two places or twice in one.  Who
releases a frame has it in the hand while no other place has it; a frame comes
into the pool or is freed by a release only; and what is freed stays freed.
-/
theorem frame_in_one_place
    {cfg : StreamerConfig} {lib : LibAv} {poolCapacity : ℕ}
    {capacity : QueueId → ℕ} {pHandle : KoalaMuxer}
    {tr : List PipelineTransition} {s : PipelineState}
    (run : Run (pipelineStep cfg lib)
      (PipelineState.init poolCapacity capacity pHandle) tr s) :
    (∀ pFrame p p',
      pFrame ∈ s.custody p → pFrame ∈ s.custody p' → p = p') ∧
    (∀ p, (s.custody p).Nodup) ∧
    ∀ τ ∈ tr,
      (∀ t pFrame, .released t pFrame ∈ τ.events →
        pFrame ∈ τ.src.custody (.hand t) ∧
        ∀ p, pFrame ∈ τ.src.custody p → p = .hand t) ∧
      (∀ p pFrame, p = .pool ∨ p = .freed →
        pFrame ∈ τ.dst.custody p → pFrame ∉ τ.src.custody p →
        ∃ t, .released t pFrame ∈ τ.events) ∧
      τ.src.custody .freed <:+ τ.dst.custody .freed := by
  have honce := pipeline_atMostOnce run
  refine ⟨?_, nodup_of_held honce.le_one, ?_⟩
  · intro pFrame p p' hp hp'
    exact place_unique (honce.le_one pFrame) hp hp'
  · intro τ hτ
    obtain ⟨t, hmove⟩ := pipeline_move run τ hτ
    obtain ⟨tr', _, hrun⟩ := run.prefix_of_mem τ hτ
    refine ⟨?_, ?_, hmove.freed_grows⟩
    · intro t' pFrame hreleased
      have hhand : pFrame ∈ τ.src.custody (.hand t') :=
        hmove.mem_hand_of_released hreleased
      refine ⟨hhand, ?_⟩
      intro p hp
      exact place_unique ((pipeline_atMostOnce hrun).le_one pFrame) hp hhand
    · intro p pFrame hp hmem hnew
      exact ⟨t, hmove.released_of_mem hp hmem hnew⟩

/-- The capacities that `initMediaThread` gives the queues. -/
def queueCapacity : QueueId → ℕ
  | .pYUVQueue => 5
  | .pVEQueue => 100
  | .pPCMQueue => 20
  | .pAEQueue => 400

/-- One video packet is read, encoded to a key frame and written. -/
def onePacketActions : List PipelineAction :=
  [.start .mpThreadVE, .startMux] ++
  List.replicate 8 (.device ⟨0, 0⟩) ++
  List.replicate 8 (.encoder .mpThreadVE ⟨.got ⟨7, 100, 0, 0, 1⟩, 0⟩) ++
  List.replicate 5 (.mux ⟨0, 0, false⟩)

/-- The raw frame comes back from the pool as the encoded one. -/
theorem frame_in_one_place_recycled :
    ∃ tr s, Run (pipelineStep ⟨0, 1⟩ exactLibAv)
      (PipelineState.init 500 queueCapacity
        (openedMuxer false true false "flv" 0 0 0)) tr s ∧
      eventsOf tr =
        [.enqueueReturned .device .pYUVQueue 0 0,
          .released (.encoder .mpThreadVE) 0,
          .enqueueReturned (.encoder .mpThreadVE) .pVEQueue 0 0,
          .released .mux 0] ∧
      (∀ pFrame p p',
        pFrame ∈ s.custody p → pFrame ∈ s.custody p' → p = p') ∧
      (∀ p, (s.custody p).Nodup) ∧
      ∀ τ ∈ tr,
        (∀ t pFrame, .released t pFrame ∈ τ.events →
          pFrame ∈ τ.src.custody (.hand t) ∧
          ∀ p, pFrame ∈ τ.src.custody p → p = .hand t) ∧
        (∀ p pFrame, p = .pool ∨ p = .freed →
          pFrame ∈ τ.dst.custody p → pFrame ∉ τ.src.custody p →
          ∃ t, .released t pFrame ∈ τ.events) ∧
        τ.src.custody .freed <:+ τ.dst.custody .freed := by
  obtain ⟨tr, s, run, hevents⟩ :=
    Run.exists_of_exec (pipelineStep ⟨0, 1⟩ exactLibAv)
      (PipelineState.init 500 queueCapacity
        (openedMuxer false true false "flv" 0 0 0))
      onePacketActions
      (fun r => eventsOf r.1 =
        [.enqueueReturned .device .pYUVQueue 0 0,
          .released (.encoder .mpThreadVE) 0,
          .enqueueReturned (.encoder .mpThreadVE) .pVEQueue 0 0,
          .released .mux 0])
      (by decide +kernel)
  exact ⟨tr, s, run, hevents, frame_in_one_place run⟩

section Leaks

/-- Every frame that was created and not freed is in the pool, in a queue or in
the hand of a thread that will still enqueue or release it. -/
def PipelineState.Kept (s : PipelineState) : Prop :=
  ∀ pFrame, pFrame < s.nextFrame → pFrame ∉ s.freed →
    pFrame ∈ s.pFrameStack.contents ∨
    (∃ q, pFrame ∈ (s.queue q).contents) ∨
    ∃ t, pFrame ∈ s.hand t

/-- A raw frame that `enqueue` did not store is released with its packet later in
the run, or is in the hand of the device thread at its end. -/
def RawReleased (tr : List PipelineTransition) (s : PipelineState) : Prop :=
  ∀ before τ after, tr = before ++ τ :: after →
    ∀ q pFrame ret, .enqueueReturned .device q pFrame ret ∈ τ.events →
      pFrame ∉ (τ.dst.queue q).contents →
      pFrame ∈ s.hand .device ∨
      ∃ τ' ∈ after, .released .device pFrame ∈ τ'.events ∧
        (τ'.src.heap pFrame).pBuffer ∈ τ'.dst.freedPkts

theorem kept_iff
    {s : PipelineState} (honce : AtMostOnce s.custody s.nextFrame) :
    s.Kept ↔ ExactlyOnce s.custody s.nextFrame := by
  rw [honce.exactlyOnce_iff]
  constructor
  · intro hkept pFrame hlt
    by_cases hfreed : pFrame ∈ s.freed
    · exact ⟨.freed, hfreed⟩
    · rcases hkept pFrame hlt hfreed with hpool | ⟨q, hq⟩ | ⟨t, ht⟩
      · exact ⟨.pool, hpool⟩
      · exact ⟨.queue q, hq⟩
      · exact ⟨.hand t, ht⟩
  · intro hall pFrame hlt hfreed
    obtain ⟨p, hp⟩ := hall pFrame hlt
    cases p with
    | pool =>
        exact Or.inl hp
    | queue q =>
        exact Or.inr (Or.inl ⟨q, hp⟩)
    | hand t =>
        exact Or.inr (Or.inr ⟨t, hp⟩)
    | freed =>
        exact absurd hp hfreed

/-- In every run of the pipeline, every frame is kept and every raw frame that
was not enqueued is released with its packet, if and only if no step loses a
frame: no wait of the device thread in `enqueue` times out, and no wait in
`enqueue` that ends otherwise finds the queue full. -/
theorem no_frame_leaked_iff
    {cfg : StreamerConfig} {lib : LibAv} {poolCapacity : ℕ}
    {capacity : QueueId → ℕ} {pHandle : KoalaMuxer}
    {tr : List PipelineTransition} {s : PipelineState}
    (run : Run (pipelineStep cfg lib)
      (PipelineState.init poolCapacity capacity pHandle) tr s) :
    ((∀ τ ∈ tr, τ.dst.Kept) ∧ RawReleased tr s) ↔
      ∀ τ ∈ tr, lostFrames τ.src τ.action = [] := by
  have hkept : (∀ τ ∈ tr, τ.dst.Kept) ↔
      ∀ τ ∈ tr, ExactlyOnce τ.dst.custody τ.dst.nextFrame := by
    refine forall₂_congr ?_
    intro τ hτ
    obtain ⟨tr', _, hrun⟩ := run.prefix_of_mem τ hτ
    exact kept_iff (pipeline_atMostOnce (Run.snoc hrun (run.valid τ hτ)))
  rw [hkept, exactlyOnce_iff PipelineState.custody PipelineState.nextFrame
    lostFrames run_startInv (init_exactlyOnce _ _ _) pipelineStep_balanced run]
  refine ⟨And.left, fun hnone => ⟨hnone, ?_⟩⟩
  rintro before τ after rfl q pFrame ret hreturned hnot
  have hτ : τ ∈ before ++ τ :: after := by simp
  obtain ⟨t, hmove⟩ := pipeline_move run τ hτ
  rw [hnone τ hτ] at hmove
  exact absurd (hmove.mem_queue_of_enqueueReturned hreturned) hnot

/-- The camera goes on while no encoder takes a frame: the sixth frame waits for
room until the wait times out. -/
theorem no_frame_leaked_fails_overload :
    ¬ ∀ (tr : List PipelineTransition) (s : PipelineState),
        Run (pipelineStep ⟨0, 1⟩ exactLibAv)
          (PipelineState.init 500 queueCapacity koalaGetMuxerHandle) tr s →
        (∀ τ ∈ tr, τ.dst.Kept) ∧ RawReleased tr s := by
  intro hclaim
  obtain ⟨tr, s, run, hcreated, hfreed, hpool, hqueue, hhand⟩ :=
    Run.exists_of_exec (pipelineStep ⟨0, 1⟩ exactLibAv)
      (PipelineState.init 500 queueCapacity koalaGetMuxerHandle)
      (List.replicate 47 (.device ⟨0, ETIMEDOUT⟩))
      (fun r => 5 < r.2.nextFrame ∧ 5 ∉ r.2.freed ∧
        5 ∉ r.2.pFrameStack.contents ∧ (∀ q, 5 ∉ (r.2.queue q).contents) ∧
        ∀ t, 5 ∉ r.2.hand t)
      (by decide +kernel)
  have hkept : s.Kept := by
    rcases run.last_eq with ⟨_, rfl⟩ | ⟨τ, hτ, rfl⟩
    · cases hcreated
    · exact (hclaim tr _ run).1 τ hτ
  rcases hkept 5 hcreated hfreed with hin | ⟨q, hin⟩ | ⟨t, hin⟩
  · exact hpool hin
  · exact hqueue q hin
  · exact hhand t hin

/-- The same run, with an encoder thread that takes a frame during the wait. -/
theorem no_frame_leaked_iff_served :
    ∃ tr s, Run (pipelineStep ⟨0, 1⟩ exactLibAv)
      (PipelineState.init 500 queueCapacity koalaGetMuxerHandle) tr s ∧
      .enqueueReturned .device .pYUVQueue 5 0 ∈ eventsOf tr ∧
      (∀ τ ∈ tr, τ.dst.Kept) ∧ RawReleased tr s := by
  obtain ⟨tr, s, run, hevent, hnone⟩ :=
    Run.exists_of_exec (pipelineStep ⟨0, 1⟩ exactLibAv)
      (PipelineState.init 500 queueCapacity koalaGetMuxerHandle)
      (List.replicate 46 (.device ⟨0, 0⟩) ++
        [.start .mpThreadVE, .encoder .mpThreadVE ⟨.kept, 0⟩,
          .encoder .mpThreadVE ⟨.kept, 0⟩, .device ⟨0, 0⟩])
      (fun r => .enqueueReturned .device .pYUVQueue 5 0 ∈ eventsOf r.1 ∧
        ∀ τ ∈ r.1, lostFrames τ.src τ.action = [])
      (by decide +kernel)
  exact ⟨tr, s, run, hevent, (no_frame_leaked_iff run).mpr hnone⟩

end Leaks

end KoalaStreamer
