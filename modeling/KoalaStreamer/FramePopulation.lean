import KoalaStreamer.PacketOwnership
import KoalaStreamer.PoolRefinement

/-!
# How many frames there are

`getMediaFrame` creates a frame only when the pool is empty, that is, when every frame
alive is in a queue or in the hand of a thread.  The queues are bounded, and a thread holds
one frame at most: so much for the number of frames alive, however long the program runs
and whatever the pool can hold.  A pool that can hold that many frames never frees one.

Main result: `frame_population_bounded`.
-/

namespace KoalaStreamer

open EventMachine TokenAccounting

section Population

variable {cfg : StreamerConfig} {lib : LibAv} {s s' : PipelineState}
  {es : List PipelineEvent} {lost : List FrameId} {a : PipelineAction} {t : PipelineThread}

/-- The places of frames that are not freed. -/
def framePlaces : List Place :=
  [.pool, .queue .pYUVQueue, .queue .pPCMQueue, .queue .pVEQueue, .queue .pAEQueue,
    .hand .device, .hand (.encoder .mpThreadVE), .hand (.encoder .mpThreadAE), .hand .mux]

/-- The frames alive that can be reached. -/
def PipelineState.framesAlive (s : PipelineState) : List FrameId :=
  framePlaces.flatMap s.custody

def PipelineState.population (s : PipelineState) : ℕ :=
  s.framesAlive.length

def framesLost (tr : List PipelineTransition) : List FrameId :=
  tr.flatMap fun τ => lostFrames τ.src τ.action

/-- What the queues can hold. -/
def queueRoom (capacity : QueueId → ℕ) : ℕ :=
  ([.pYUVQueue, .pPCMQueue, .pVEQueue, .pAEQueue].map capacity).sum

theorem population_eq_sum
    (s : PipelineState) :
    s.population = (framePlaces.map fun p => (s.custody p).length).sum :=
  List.length_flatMap

theorem hand_length_le
    (s : PipelineState) (t : PipelineThread) : (s.hand t).length ≤ 1 := by
  cases t with
  | device =>
      simp only [PipelineState.hand]
      cases s.device <;> simp [DevicePc.hand]
  | encoder e =>
      simp only [PipelineState.hand]
      cases s.encoder e with
      | enqueued pFrame ret =>
          simp only [EncoderPc.hand]
          split <;> simp
      | _ => simp [EncoderPc.hand]
  | mux =>
      simp only [PipelineState.hand]
      cases s.mux with
      | dequeued stream again pFrame =>
          cases pFrame <;> simp [MuxPc.hand]
      | _ => simp [MuxPc.hand]

/-- With an empty pool, the frames alive are in the queues and in four hands. -/
theorem population_le_of_pool_empty
    {capacity : QueueId → ℕ}
    (hcapacity : ∀ q, (s.queue q).capacity = capacity q)
    (hpool : s.custody .pool = []) :
    s.population ≤ queueRoom capacity + 4 := by
  have hqueue : ∀ q, (s.custody (.queue q)).length ≤ capacity q := by
    intro q
    rw [← hcapacity q]
    exact (s.queue q).length_le
  have hhand : ∀ t, (s.custody (.hand t)).length ≤ 1 := hand_length_le s
  have hYUV := hqueue .pYUVQueue
  have hPCM := hqueue .pPCMQueue
  have hVE := hqueue .pVEQueue
  have hAE := hqueue .pAEQueue
  have hdevice := hhand .device
  have hencoderV := hhand (.encoder .mpThreadVE)
  have hencoderA := hhand (.encoder .mpThreadAE)
  have hmux := hhand .mux
  simp only [population_eq_sum, framePlaces, queueRoom, List.map_cons, List.map_nil,
    List.sum_cons, List.sum_nil, hpool, List.length_nil]
  omega

/-- A frame is created when the pool is empty, and only then. -/
theorem ThreadMove.pool_empty_of_created
    (hmove : ThreadMove t s s' es lost) (hcreated : s'.nextFrame ≠ s.nextFrame) :
    s'.custody .pool = [] := by
  cases hmove with
  | walks hand hset hnext hhand =>
      exact absurd hnext hcreated
  | releases pFrame hset hnext hhand =>
      exact absurd (hnext.trans (mediaFrameRelease_same s pFrame).2) hcreated
  | obtains hset hnext hhand =>
      rw [hset, Function.update_of_ne (by simp)]
      cases hpop : s.pFrameStack.pop.1 with
      | none =>
          have hempty := s.pFrameStack.pop_eq_none_iff.mp hpop
          exact List.prefix_nil.mp (hempty ▸ (getMediaFrame_keeps s).1)
      | some pFrame =>
          rw [getMediaFrame_of_some hpop] at hnext
          exact absurd hnext hcreated
  | takes q contents hand hset hnext hhand htaken =>
      exact absurd hnext hcreated
  | offers q pFrame e hand lost hset hnext hhand hstored haccount hdevice =>
      exact absurd hnext hcreated

end Population

/-! ## Capacities -/

section Capacities

variable {cfg : StreamerConfig} {lib : LibAv} {s s' : PipelineState}
  {es : List PipelineEvent} {a : PipelineAction}

/-- The state has the capacities that it was built with. -/
structure HasCapacity
    (poolCapacity : ℕ) (capacity : QueueId → ℕ) (s : PipelineState) : Prop where
  pool : s.pFrameStack.capacity = poolCapacity
  queue : ∀ q, (s.queue q).capacity = capacity q

variable {poolCapacity : ℕ} {capacity : QueueId → ℕ}

theorem HasCapacity.of_eq
    (h : HasCapacity poolCapacity capacity s)
    (hpool : s'.pFrameStack = s.pFrameStack) (hqueue : s'.queue = s.queue) :
    HasCapacity poolCapacity capacity s' := by
  constructor
  · rw [hpool]
    exact h.pool
  · rw [hqueue]
    exact h.queue

theorem HasCapacity.setQueue
    (h : HasCapacity poolCapacity capacity s) {q : QueueId} {contents : FiFo FrameId}
    (hsame : contents.capacity = (s.queue q).capacity)
    (hpool : s'.pFrameStack = s.pFrameStack)
    (hqueue : s'.queue = Function.update s.queue q contents) :
    HasCapacity poolCapacity capacity s' := by
  constructor
  · rw [hpool]
    exact h.pool
  · intro q'
    rw [hqueue]
    by_cases hq : q' = q
    · subst hq
      rw [Function.update_self, hsame]
      exact h.queue q'
    · rw [Function.update_of_ne hq]
      exact h.queue q'

theorem getMediaFrame_capacity
    (s : PipelineState) :
    s.getMediaFrame.2.pFrameStack.capacity = s.pFrameStack.capacity := by
  have hpop := s.pFrameStack.capacity_pop
  cases hnone : s.pFrameStack.pop.1 with
  | none =>
      rw [getMediaFrame_of_none hnone]
      exact hpop
  | some pFrame =>
      rw [getMediaFrame_of_some hnone]
      exact hpop

theorem mediaFrameRelease_capacity
    (s : PipelineState) (pFrame : FrameId) :
    (s.mediaFrameRelease pFrame).pFrameStack.capacity = s.pFrameStack.capacity := by
  have hput : ∀ (s : PipelineState) pFrame,
      (s.putMediaFrame pFrame).pFrameStack.capacity = s.pFrameStack.capacity := by
    intro s pFrame
    simp only [PipelineState.putMediaFrame]
    split <;> exact s.pFrameStack.capacity_push pFrame
  simp only [PipelineState.mediaFrameRelease]
  cases (s.heap pFrame).release with
  | null => rfl
  | releasePkt => exact hput _ pFrame
  | releasePktBuffer => exact hput _ pFrame

theorem HasCapacity.release
    (h : HasCapacity poolCapacity capacity s) {pFrame : FrameId}
    (hpool : s'.pFrameStack = (s.mediaFrameRelease pFrame).pFrameStack)
    (hqueue : s'.queue = (s.mediaFrameRelease pFrame).queue) :
    HasCapacity poolCapacity capacity s' := by
  constructor
  · rw [hpool, mediaFrameRelease_capacity]
    exact h.pool
  · rw [hqueue, (mediaFrameRelease_same s pFrame).1.queue]
    exact h.queue

theorem HasCapacity.obtain
    (h : HasCapacity poolCapacity capacity s)
    (hpool : s'.pFrameStack = s.getMediaFrame.2.pFrameStack)
    (hqueue : s'.queue = s.getMediaFrame.2.queue) :
    HasCapacity poolCapacity capacity s' := by
  constructor
  · rw [hpool, getMediaFrame_capacity]
    exact h.pool
  · rw [hqueue, (getMediaFrame_same s).1.queue]
    exact h.queue

theorem pipelineStep_hasCapacity
    (h : HasCapacity poolCapacity capacity s)
    (hstep : pipelineStep cfg lib s a = some (s', es)) :
    HasCapacity poolCapacity capacity s' := by
  cases a with
  | device answer =>
      cases deviceStep_case hstep with
      | getsFrame pkt streamIndex hpc =>
          exact h.obtain rfl rfl
      | puts q pFrame hpc hroom =>
          exact h.setQueue (enqueuePut_capacity _ pFrame) rfl rfl
      | wakes q pFrame hpc =>
          exact h.setQueue (enqueueWake_capacity _ pFrame answer.wait) rfl rfl
      | releases pFrame hpc =>
          exact h.release rfl rfl
      | cleans q size p hpc hpass hremoved =>
          exact h.setQueue (cleanPass_contents hpass).2 rfl rfl
      | removes q size p pFrame hpc hpass hremoved =>
          exact h.setQueue (cleanPass_contents hpass).2 rfl rfl
      | cleanReleases q size stop pFrame hpc =>
          exact h.release rfl rfl
      | _ =>
          exact h.of_eq rfl rfl
  | encoder e answer =>
      cases encoderStep_case hstep with
      | gets hpc hlocked hsome =>
          exact h.setQueue (dequeueGet_capacity _) rfl rfl
      | dequeueWakes hpc hlocked =>
          exact h.setQueue (dequeueWake_capacity _ answer.wait) rfl rfl
      | deals pFrame hpc =>
          cases answer.encoded <;> exact h.of_eq rfl rfl
      | releasesEncoded pFrame pkt out hpc =>
          exact h.release rfl rfl
      | releasesInput pFrame hpc =>
          exact h.release rfl rfl
      | releases pFrame hpc =>
          exact h.release rfl rfl
      | getsFrame pkt out hpc =>
          exact h.obtain rfl rfl
      | puts pFrame hpc hlocked hroom =>
          exact h.setQueue (enqueuePut_capacity _ pFrame) rfl rfl
      | enqueueWakes pFrame hpc hlocked =>
          exact h.setQueue (enqueueWake_capacity _ pFrame answer.wait) rfl rfl
      | _ =>
          exact h.of_eq rfl rfl
  | mux answer =>
      cases muxThreadStep_case hstep with
      | gets stream again hpc hlocked hsome =>
          exact h.setQueue (dequeueGet_capacity _) rfl rfl
      | dequeueWakes stream again hpc hlocked =>
          exact h.setQueue (dequeueWake_capacity _ answer.wait) rfl rfl
      | callbackReleases stream pFrame hpc =>
          exact h.release rfl rfl
      | releases stream pFrame ret hpc =>
          exact h.release rfl rfl
      | _ =>
          exact h.of_eq rfl rfl
  | setStop =>
      obtain ⟨rfl, -⟩ := Prod.mk.inj (Option.some.inj hstep)
      exact h.of_eq rfl rfl
  | _ =>
      simp only [pipelineStep] at hstep
      split at hstep <;> obtain ⟨rfl, -⟩ := Prod.mk.inj (Option.some.inj hstep) <;>
        exact h.of_eq rfl rfl

end Capacities

/-! ## The bound -/

section Runs

variable {cfg : StreamerConfig} {lib : LibAv} {poolCapacity : ℕ}
  {capacity : QueueId → ℕ} {pHandle : KoalaMuxer}
  {tr : List PipelineTransition} {s s' : PipelineState} {a : PipelineAction}
  {es : List PipelineEvent} {lost : List FrameId} {t : PipelineThread}

theorem run_hasCapacity
    (run : Run (pipelineStep cfg lib)
      (PipelineState.init poolCapacity capacity pHandle) tr s) :
    HasCapacity poolCapacity capacity s :=
  Run.invariant (fun _ s => HasCapacity poolCapacity capacity s)
    ⟨rfl, fun _ => rfl⟩ (fun _ _ _ _ _ h hstep => pipelineStep_hasCapacity h hstep) run

/-- The frames created are those alive, those freed and those lost. -/
theorem run_framesAlive
    (run : Run (pipelineStep cfg lib)
      (PipelineState.init poolCapacity capacity pHandle) tr s) :
    (s.framesAlive ++ s.freed ++ framesLost tr).Perm (List.range s.nextFrame) := by
  have haccounted := run_accounted PipelineState.custody PipelineState.nextFrame lostFrames
    run_startInv (init_exactlyOnce _ _ _) pipelineStep_balanced run
  have hnodup : (framePlaces ++ [Place.freed]).Nodup := by decide
  have hperm := haccounted.perm hnodup (by decide)
  rwa [List.flatMap_append, List.flatMap_singleton] at hperm

theorem run_population
    (run : Run (pipelineStep cfg lib)
      (PipelineState.init poolCapacity capacity pHandle) tr s) :
    s.population + s.freed.length + (framesLost tr).length = s.nextFrame := by
  have hlength := (run_framesAlive run).length_eq
  rwa [List.length_append, List.length_append, List.length_range] at hlength

theorem run_population_le
    (run : Run (pipelineStep cfg lib)
      (PipelineState.init poolCapacity capacity pHandle) tr s) :
    s.population ≤ queueRoom capacity + 4 := by
  induction run with
  | nil =>
      exact population_le_of_pool_empty (fun _ => rfl) (Stack.contents_init poolCapacity)
  | @snoc tr s t a es run hstep ih =>
      have hrun := run.snoc hstep
      obtain ⟨t', hmove⟩ := pipelineStep_move (run_startInv run) hstep
      by_cases hnext : t.nextFrame = s.nextFrame
      · -- no frame was created, and none comes back from where it was freed or lost
        have hbefore := run_population run
        have hafter := run_population hrun
        have hfreed := hmove.freed_grows.length_le
        have hlost : (framesLost tr).length ≤ (framesLost (tr ++ [⟨s, a, es, t⟩])).length := by
          simp [framesLost]
        have hfreed' : s.freed.length ≤ t.freed.length := hfreed
        rw [hnext] at hafter
        omega
      · exact population_le_of_pool_empty (run_hasCapacity hrun).queue
          (hmove.pool_empty_of_created hnext)

/-- Who releases a frame knows how. -/
theorem release_of_released
    (hlabelled : Labelled s) (h : pipelineStep cfg lib s a = some (s', es))
    {t : PipelineThread} {pFrame : FrameId} (hreleased : .released t pFrame ∈ es) :
    (s.heap pFrame).release ≠ .null := by
  -- the frame is labelled, and no label is `default_release`
  have hlabel : ∀ {t x}, x ∈ s.labels t → x.1 = pFrame → x.2 ≠ .null →
      (s.heap pFrame).release ≠ .null := by
    rintro t x hx rfl hne
    rw [hlabelled.hand t x hx]
    exact hne
  cases a with
  | device answer =>
      cases deviceStep_case h with
      | releases pFrame' hpc =>
          obtain ⟨-, rfl⟩ := PipelineEvent.released.inj (List.mem_singleton.mp hreleased)
          refine hlabel (t := .device) (x := (pFrame, .releasePkt)) ?_ rfl (by simp)
          rw [labels_device hpc]
          exact List.mem_singleton_self _
      | cleanReleases q size stop pFrame' hpc =>
          obtain ⟨-, rfl⟩ := PipelineEvent.released.inj (List.mem_singleton.mp hreleased)
          refine hlabel (t := .device) (x := (pFrame, q.release)) ?_ rfl
            (by cases q <;> simp [QueueId.release])
          rw [labels_device hpc]
          exact List.mem_singleton_self _
      | puts q pFrame' hpc hroom =>
          cases List.mem_singleton.mp hreleased
      | wakes q pFrame' hpc =>
          cases List.mem_singleton.mp hreleased
      | _ =>
          cases hreleased
  | encoder e answer =>
      cases encoderStep_case h with
      | releasesEncoded pFrame' pkt out hpc =>
          obtain ⟨-, rfl⟩ := PipelineEvent.released.inj (List.mem_singleton.mp hreleased)
          refine hlabel (t := .encoder e) (x := (pFrame, e.input.release)) ?_ rfl (by simp)
          rw [labels_encoder hpc]
          exact List.mem_singleton_self _
      | releasesInput pFrame' hpc =>
          obtain ⟨-, rfl⟩ := PipelineEvent.released.inj (List.mem_singleton.mp hreleased)
          refine hlabel (t := .encoder e) (x := (pFrame, e.input.release)) ?_ rfl (by simp)
          rw [labels_encoder hpc]
          exact List.mem_singleton_self _
      | releases pFrame' hpc =>
          obtain ⟨-, rfl⟩ := PipelineEvent.released.inj (List.mem_singleton.mp hreleased)
          refine hlabel (t := .encoder e) (x := (pFrame, e.output.release)) ?_ rfl (by simp)
          rw [labels_encoder hpc]
          exact List.mem_singleton_self _
      | puts pFrame' hpc hlocked hroom =>
          cases List.mem_singleton.mp hreleased
      | enqueueWakes pFrame' hpc hlocked =>
          cases List.mem_singleton.mp hreleased
      | _ =>
          cases hreleased
  | mux answer =>
      cases muxThreadStep_case h with
      | callbackReleases stream pFrame' hpc =>
          obtain ⟨-, rfl⟩ := PipelineEvent.released.inj (List.mem_singleton.mp hreleased)
          refine hlabel (t := .mux) (x := (pFrame, .releasePktBuffer)) ?_ rfl (by simp)
          rw [labels_mux hpc]
          exact List.mem_singleton_self _
      | releases stream pFrame' ret hpc =>
          obtain ⟨-, rfl⟩ := PipelineEvent.released.inj (List.mem_singleton.mp hreleased)
          refine hlabel (t := .mux) (x := (pFrame, .releasePktBuffer)) ?_ rfl (by simp)
          rw [labels_mux hpc]
          exact List.mem_singleton_self _
      | _ =>
          cases hreleased
  | setStop =>
      obtain ⟨-, rfl⟩ := Prod.mk.inj (Option.some.inj h)
      cases hreleased
  | _ =>
      simp only [pipelineStep] at h
      split at h <;> obtain ⟨-, rfl⟩ := Prod.mk.inj (Option.some.inj h) <;> cases hreleased

/-- A frame with a release of its own goes back to a pool with room. -/
theorem mediaFrameRelease_freed
    {pFrame : FrameId} (hrelease : (s.heap pFrame).release ≠ .null)
    (hroom : s.pFrameStack.contents.length ≠ s.pFrameStack.capacity) :
    (s.mediaFrameRelease pFrame).freed = s.freed := by
  have hput : ∀ s : PipelineState, s.pFrameStack.contents.length ≠ s.pFrameStack.capacity →
      (s.putMediaFrame pFrame).freed = s.freed := by
    intro s hroom
    simp only [PipelineState.putMediaFrame]
    rw [if_neg fun hneg => hroom ((s.pFrameStack.push_neg_iff pFrame).mp hneg)]
    rfl
  simp only [PipelineState.mediaFrameRelease]
  cases hkind : (s.heap pFrame).release with
  | null => exact absurd hkind hrelease
  | releasePkt => exact hput _ hroom
  | releasePktBuffer => exact hput _ hroom

/-- A pool for all the frames there can be has room for the one in the hand. -/
theorem ThreadMove.freed_eq
    (hmove : ThreadMove t s s' es lost)
    (hrelease : ∀ {t pFrame}, .released t pFrame ∈ es →
      (s.heap pFrame).release ≠ .null)
    (hcapacity : s.population ≤ s.pFrameStack.capacity) :
    s'.freed = s.freed := by
  show s'.custody .freed = s.custody .freed
  cases hmove with
  | walks hand hset hnext hhand =>
      rw [hset, Function.update_of_ne (by simp)]
  | releases pFrame hset hnext hhand =>
      rw [hset, Function.update_of_ne (by simp)]
      refine mediaFrameRelease_freed (hrelease (List.mem_singleton_self _)) ?_
      -- the frame in the hand is alive, and not in the pool
      have hplace : (s.custody (.hand t)).length = 1 := congrArg List.length hhand
      have hpool : s.pFrameStack.contents.length = (s.custody .pool).length := rfl
      have hsum : (s.custody .pool).length + (s.custody (.hand t)).length ≤ s.population := by
        simp only [population_eq_sum, framePlaces, List.map_cons, List.map_nil,
          List.sum_cons, List.sum_nil]
        rcases t with _ | (_ | _) | _ <;> omega
      omega
  | obtains hset hnext hhand =>
      rw [hset, Function.update_of_ne (by simp), (getMediaFrame_keeps s).2]
  | takes q contents hand hset hnext hhand htaken =>
      rw [hset, Function.update_of_ne (by simp), custody_setQueue,
        Function.update_of_ne (by simp)]
  | offers q pFrame e hand lost hset hnext hhand hstored haccount hdevice =>
      rw [hset, Function.update_of_ne (by simp), custody_setQueue,
        Function.update_of_ne (by simp)]

end Runs

/--
In every run, the frames created are those in the pool, the queues and the hands, those
freed and those lost, each once; at no time are more alive than the queues can hold and four, whatever
the pool can hold; and a pool that can hold that many frees none.
-/
theorem frame_population_bounded
    {cfg : StreamerConfig} {lib : LibAv} {poolCapacity : ℕ}
    {capacity : QueueId → ℕ} {pHandle : KoalaMuxer}
    {tr : List PipelineTransition} {s : PipelineState}
    (run : Run (pipelineStep cfg lib)
      (PipelineState.init poolCapacity capacity pHandle) tr s) :
    (s.framesAlive ++ s.freed ++ framesLost tr).Perm (List.range s.nextFrame) ∧
    s.population ≤ queueRoom capacity + 4 ∧
    (queueRoom capacity + 4 ≤ poolCapacity → s.freed = []) := by
  refine ⟨run_framesAlive run, run_population_le run, fun hlarge => ?_⟩
  induction run with
  | nil =>
      rfl
  | snoc run hstep ih =>
      obtain ⟨t, hmove⟩ := pipelineStep_move (run_startInv run) hstep
      rw [hmove.freed_eq (release_of_released (run_labelled run) hstep) ?_, ih]
      rw [(run_hasCapacity run).pool]
      exact (run_population_le run).trans hlarge

/-- The raw frame goes to the pool and comes back: one frame serves twice. -/
theorem frame_population_bounded_recycled :
    ∃ tr s, Run (pipelineStep ⟨0, 1⟩ exactLibAv)
      (PipelineState.init 529 queueCapacity
        (openedMuxer false true false "flv" 0 0 0)) tr s ∧
      s.nextFrame = 1 ∧ s.framesAlive = [0] ∧ packetsDropped tr = [] ∧
      (s.framesAlive ++ s.freed ++ framesLost tr).Perm (List.range s.nextFrame) ∧
      s.population ≤ queueRoom queueCapacity + 4 ∧ s.freed = [] := by
  obtain ⟨tr, s, run, hnext, halive, hdropped⟩ :=
    Run.exists_of_exec (pipelineStep ⟨0, 1⟩ exactLibAv)
      (PipelineState.init 529 queueCapacity
        (openedMuxer false true false "flv" 0 0 0))
      onePacketActions
      (fun r => r.2.nextFrame = 1 ∧ r.2.framesAlive = [0] ∧ packetsDropped r.1 = [])
      (by decide +kernel)
  obtain ⟨hperm, hle, hfreed⟩ := frame_population_bounded run
  exact ⟨tr, s, run, hnext, halive, hdropped, hperm, hle, hfreed (by decide)⟩

end KoalaStreamer
