import KoalaStreamer.Library.TokenAccounting
import KoalaStreamer.PipelineSteps
import Mathlib.Tactic.DeriveFintype

/-!
# Who holds a frame

The frames of the pipeline are tokens: the pool, the queues, the threads and the
set of freed frames are the places that hold them.  Each step moves a frame from
one place to another, creates one in the hand of a thread, or loses one: the
caller of `enqueue` drops a frame that the queue did not take.

Main results:
* `pipelineStep_move`: every step is one of five moves of a thread;
* `ThreadMove.balanced`: every move is balanced, up to the frames it loses.
-/

namespace KoalaStreamer

open EventMachine TokenAccounting

instance : Fintype QueueId where
  elems := {.pYUVQueue, .pPCMQueue, .pVEQueue, .pAEQueue}
  complete := by
    intro q
    cases q <;> simp

instance : Fintype EncoderId where
  elems := {.mpThreadVE, .mpThreadAE}
  complete := by
    intro e
    cases e <;> simp

deriving instance Fintype for PipelineThread

/-- Where a frame can be. -/
inductive Place
  | pool
  | queue (q : QueueId)
  | hand (t : PipelineThread)
  | freed
deriving DecidableEq, Fintype

/-- The frame that the device thread will still enqueue or release. -/
def DevicePc.hand : DevicePc → List FrameId
  | .filling _ _ pFrame => [pFrame]
  | .routing _ pFrame => [pFrame]
  | .enqueueing _ pFrame => [pFrame]
  | .enqueueWaiting _ pFrame => [pFrame]
  | .releasing pFrame => [pFrame]
  | .cleanReleasing _ _ _ pFrame => [pFrame]
  | _ => []

/-- The frame that an encoder thread will still enqueue or release. -/
def EncoderPc.hand : EncoderPc → List FrameId
  | .dealing pFrame => [pFrame]
  | .inputReleasing pFrame _ => [pFrame]
  | .filling _ _ pFrame => [pFrame]
  | .enqueueing pFrame => [pFrame]
  | .enqueueWaiting pFrame => [pFrame]
  | .enqueued pFrame ret => if ret < 0 then [pFrame] else []
  | .releasing pFrame => [pFrame]
  | _ => []

/-- The frame that the mux thread will still release. -/
def MuxPc.hand : MuxPc → List FrameId
  | .dequeued _ _ pFrame => pFrame.toList
  | .callbackReleasing _ pFrame => [pFrame]
  | .writing _ pFrame => [pFrame]
  | .releasing _ pFrame _ => [pFrame]
  | _ => []

/-- The frame in the hand of a thread. -/
def PipelineState.hand (s : PipelineState) : PipelineThread → List FrameId
  | .device => s.device.hand
  | .encoder e => (s.encoder e).hand
  | .mux => s.mux.hand

/-- Which frames a place holds. -/
def PipelineState.custody (s : PipelineState) : Place → List FrameId
  | .pool => s.pFrameStack.contents
  | .queue q => (s.queue q).contents
  | .hand t => s.hand t
  | .freed => s.freed

/-- The frames that a step loses: an `enqueue` that ends without having stored
the frame, where its caller does not notice or does not care. -/
def lostFrames (s : PipelineState) : PipelineAction → List FrameId
  | .device answer =>
      match s.device with
      | .enqueueWaiting q pFrame =>
          if answer.wait = ETIMEDOUT ∨ (s.queue q).isFull = true then [pFrame]
          else []
      | _ => []
  | .encoder e answer =>
      match s.encoder e with
      | .enqueueWaiting pFrame =>
          if answer.wait ≠ ETIMEDOUT ∧ (s.queue e.output).isFull = true then
            [pFrame]
          else []
      | _ => []
  | _ => []

section Custody

variable {s : PipelineState}

/-! ### Custody after the parts of a step -/

theorem custody_setDevice
    (s : PipelineState) (pc : DevicePc) :
    (s.setDevice pc).custody =
      Function.update s.custody (.hand .device) pc.hand := by
  funext p
  by_cases hp : p = .hand .device
  · subst hp
    rw [Function.update_self]
    rfl
  · rw [Function.update_of_ne hp]
    rcases p with _ | q | (_ | e | _) | _ <;> first | rfl | exact absurd rfl hp

theorem custody_setMux
    (s : PipelineState) (pc : MuxPc) :
    (s.setMux pc).custody = Function.update s.custody (.hand .mux) pc.hand := by
  funext p
  by_cases hp : p = .hand .mux
  · subst hp
    rw [Function.update_self]
    rfl
  · rw [Function.update_of_ne hp]
    rcases p with _ | q | (_ | e | _) | _ <;> first | rfl | exact absurd rfl hp

theorem custody_setEncoder
    (s : PipelineState) (e : EncoderId) (pc : EncoderPc) :
    (s.setEncoder e pc).custody =
      Function.update s.custody (.hand (.encoder e)) pc.hand := by
  funext p
  by_cases hp : p = .hand (.encoder e)
  · subst hp
    rw [Function.update_self]
    simp [PipelineState.custody, PipelineState.hand, PipelineState.setEncoder]
  · rw [Function.update_of_ne hp]
    rcases p with _ | q | (_ | e' | _) | _
    · rfl
    · rfl
    · rfl
    · have hne : e' ≠ e := by
        rintro rfl
        exact hp rfl
      simp [PipelineState.custody, PipelineState.hand, PipelineState.setEncoder,
        hne]
    · rfl
    · rfl

theorem custody_setQueue
    (s : PipelineState) (q : QueueId) (contents : FiFo FrameId) :
    (s.setQueue q contents).custody =
      Function.update s.custody (.queue q) contents.contents := by
  funext p
  by_cases hp : p = .queue q
  · subst hp
    rw [Function.update_self]
    simp [PipelineState.custody, PipelineState.setQueue]
  · rw [Function.update_of_ne hp]
    rcases p with _ | q' | t | _
    · rfl
    · have hne : q' ≠ q := by
        rintro rfl
        exact hp rfl
      simp [PipelineState.custody, PipelineState.setQueue, hne]
    · cases t <;> rfl
    · rfl

theorem custody_setPool
    (s : PipelineState) (stack : Stack FrameId) :
    (s.setPool stack).custody =
      Function.update s.custody .pool stack.contents := by
  funext p
  rcases p with _ | q | t | _
  · rw [Function.update_self]
    rfl
  · rfl
  · cases t <;> rfl
  · rfl

theorem custody_free
    (s : PipelineState) (pFrame : FrameId) :
    (s.free pFrame).custody =
      Function.update s.custody .freed (pFrame :: s.freed) := by
  funext p
  rcases p with _ | q | t | _
  · rfl
  · rfl
  · cases t <;> rfl
  · rw [Function.update_self]
    rfl

/-! ### How often a frame is held after the parts of a step -/

theorem held_setQueue
    (s : PipelineState) (q : QueueId) (contents : FiFo FrameId) (a : FrameId) :
    held (s.setQueue q contents).custody a + (s.queue q).contents.count a =
      held s.custody a + contents.contents.count a := by
  rw [custody_setQueue]
  exact held_update s.custody (.queue q) contents.contents a

theorem held_setPool
    (s : PipelineState) (stack : Stack FrameId) (a : FrameId) :
    held (s.setPool stack).custody a + s.pFrameStack.contents.count a =
      held s.custody a + stack.contents.count a := by
  rw [custody_setPool]
  exact held_update s.custody .pool stack.contents a

theorem held_free
    (s : PipelineState) (pFrame a : FrameId) :
    held (s.free pFrame).custody a =
      held s.custody a + [pFrame].count a := by
  have h := held_update s.custody .freed (pFrame :: s.freed) a
  rw [← custody_free] at h
  have hfreed : s.custody .freed = s.freed := rfl
  rw [hfreed, List.count_cons] at h
  rw [List.count_singleton]
  omega

/-- A put frame is in the pool or freed. -/
theorem held_putMediaFrame
    (s : PipelineState) (pFrame a : FrameId) :
    held (s.putMediaFrame pFrame).custody a =
      held s.custody a + [pFrame].count a := by
  have hpool := held_setPool s (s.pFrameStack.push pFrame).2 a
  simp only [PipelineState.putMediaFrame]
  rcases s.pFrameStack.push_spec pFrame with ⟨hret, hsame⟩ | ⟨hret, hpush⟩
  · rw [if_pos (by rw [hret]; decide)]
    have hfree := held_free (s.setPool (s.pFrameStack.push pFrame).2) pFrame a
    rw [hsame] at hpool
    omega
  · rw [if_neg (by rw [hret]; decide)]
    rw [hpush, List.count_append] at hpool
    omega

/-- A released frame is in the pool or freed. -/
theorem held_mediaFrameRelease
    (s : PipelineState) (pFrame a : FrameId) :
    held (s.mediaFrameRelease pFrame).custody a =
      held s.custody a + [pFrame].count a := by
  simp only [PipelineState.mediaFrameRelease]
  cases (s.heap pFrame).release with
  | null =>
      exact held_free s pFrame a
  | releasePkt =>
      exact held_putMediaFrame _ pFrame a
  | releasePktBuffer =>
      exact held_putMediaFrame _ pFrame a

/-- A put frame is on top of the pool, or it is freed. -/
theorem putMediaFrame_returns
    (s : PipelineState) (pFrame : FrameId) :
    ((s.putMediaFrame pFrame).custody .pool = s.custody .pool ++ [pFrame] ∧
      (s.putMediaFrame pFrame).custody .freed = s.custody .freed) ∨
    ((s.putMediaFrame pFrame).custody .pool = s.custody .pool ∧
      (s.putMediaFrame pFrame).custody .freed = pFrame :: s.custody .freed) := by
  simp only [PipelineState.putMediaFrame]
  rcases s.pFrameStack.push_spec pFrame with ⟨hret, hsame⟩ | ⟨hret, hpush⟩
  · rw [if_pos (by rw [hret]; decide)]
    exact Or.inr ⟨hsame, rfl⟩
  · rw [if_neg (by rw [hret]; decide)]
    exact Or.inl ⟨hpush, rfl⟩

/-- A released frame is on top of the pool, or it is freed. -/
theorem mediaFrameRelease_returns
    (s : PipelineState) (pFrame : FrameId) :
    ((s.mediaFrameRelease pFrame).custody .pool = s.custody .pool ++ [pFrame] ∧
      (s.mediaFrameRelease pFrame).custody .freed = s.custody .freed) ∨
    ((s.mediaFrameRelease pFrame).custody .pool = s.custody .pool ∧
      (s.mediaFrameRelease pFrame).custody .freed =
        pFrame :: s.custody .freed) := by
  simp only [PipelineState.mediaFrameRelease]
  cases (s.heap pFrame).release with
  | null =>
      exact Or.inr ⟨rfl, rfl⟩
  | releasePkt =>
      exact putMediaFrame_returns _ pFrame
  | releasePktBuffer =>
      exact putMediaFrame_returns _ pFrame

theorem getMediaFrame_of_none
    (h : s.pFrameStack.pop.1 = none) :
    s.getMediaFrame =
      (s.nextFrame, (s.setPool s.pFrameStack.pop.2).createFrame) := by
  simp only [PipelineState.getMediaFrame]
  split
  · rename_i hpop
    rw [hpop] at h
    cases h
  · rename_i hpop
    rw [hpop]

theorem getMediaFrame_of_some
    {pFrame : FrameId} (h : s.pFrameStack.pop.1 = some pFrame) :
    s.getMediaFrame = (pFrame, s.setPool s.pFrameStack.pop.2) := by
  simp only [PipelineState.getMediaFrame]
  split
  · rename_i hpop
    rw [hpop] at h
    rw [hpop, Option.some.inj h]
  · rename_i hpop
    rw [hpop] at h
    cases h

/-- `getMediaFrame` leaves the rest of the pool and what is freed. -/
theorem getMediaFrame_keeps
    (s : PipelineState) :
    s.getMediaFrame.2.custody .pool <+: s.custody .pool ∧
    s.getMediaFrame.2.custody .freed = s.custody .freed := by
  rcases s.pFrameStack.pop_spec with ⟨hnone, hsame⟩ | ⟨pFrame, hsome, hpop⟩
  · rw [getMediaFrame_of_none hnone]
    have hpool : (s.setPool s.pFrameStack.pop.2).createFrame.custody .pool =
        s.custody .pool := hsame
    refine ⟨?_, rfl⟩
    rw [hpool]
  · rw [getMediaFrame_of_some hsome]
    exact ⟨⟨[pFrame], hpop.symm⟩, rfl⟩

/-- `getMediaFrame` takes a frame from the pool or creates one; either way the
frame is in no place until the caller holds it. -/
theorem held_getMediaFrame
    (s : PipelineState) (a : FrameId) :
    held s.getMediaFrame.2.custody a + [s.getMediaFrame.1].count a =
      held s.custody a + issued s.nextFrame s.getMediaFrame.2.nextFrame a := by
  have hpool := held_setPool s s.pFrameStack.pop.2 a
  rcases s.pFrameStack.pop_spec with ⟨hnone, hsame⟩ | ⟨pFrame, hsome, hpop⟩
  · rw [getMediaFrame_of_none hnone]
    rw [hsame] at hpool
    show held (s.setPool s.pFrameStack.pop.2).custody a + [s.nextFrame].count a =
      held s.custody a + issued s.nextFrame (s.nextFrame + 1) a
    rw [issued_succ]
    omega
  · rw [getMediaFrame_of_some hsome]
    rw [hpop, List.count_append] at hpool
    show held (s.setPool s.pFrameStack.pop.2).custody a + [pFrame].count a =
      held s.custody a + issued s.nextFrame s.nextFrame a
    rw [issued_self]
    omega

/-! ### What the parts of a step leave alone -/

theorem SameThreads.hand
    {s' : PipelineState} (h : SameThreads s s') (t : PipelineThread) :
    s'.hand t = s.hand t := by
  cases t with
  | device =>
      exact congrArg DevicePc.hand h.device
  | encoder e =>
      exact congrArg EncoderPc.hand (congrFun h.encoder e)
  | mux =>
      exact congrArg MuxPc.hand h.mux

end Custody

/-! ## What a step does to the places -/

section Moves

variable {cfg : StreamerConfig} {lib : LibAv} {s s' : PipelineState}
  {es : List PipelineEvent}

/--
The ways a step of the thread `t` can move frames, with its events and the
frames it loses.  `hand` is what the thread holds after the step.
-/
inductive ThreadMove (t : PipelineThread) (s s' : PipelineState) :
    List PipelineEvent → List FrameId → Prop
  /-- The thread goes on with what it holds. -/
  | walks (hand : List FrameId)
      (hset : s'.custody = Function.update s.custody (.hand t) hand)
      (hnext : s'.nextFrame = s.nextFrame)
      (hhand : s.hand t = hand) :
      ThreadMove t s s' [] []
  | releases (pFrame : FrameId)
      (hset : s'.custody =
        Function.update (s.mediaFrameRelease pFrame).custody (.hand t) [])
      (hnext : s'.nextFrame = (s.mediaFrameRelease pFrame).nextFrame)
      (hhand : s.hand t = [pFrame]) :
      ThreadMove t s s' [.released t pFrame] []
  /-- `getMediaFrame`. -/
  | obtains
      (hset : s'.custody =
        Function.update s.getMediaFrame.2.custody (.hand t) [s.getMediaFrame.1])
      (hnext : s'.nextFrame = s.getMediaFrame.2.nextFrame)
      (hhand : s.hand t = []) :
      ThreadMove t s s' [] []
  /-- The thread takes the head of a queue, or nothing. -/
  | takes (q : QueueId) (contents : FiFo FrameId) (hand : List FrameId)
      (hset : s'.custody =
        Function.update (s.setQueue q contents).custody (.hand t) hand)
      (hnext : s'.nextFrame = s.nextFrame)
      (hhand : s.hand t = [])
      (htaken : hand ++ contents.contents = (s.queue q).contents) :
      ThreadMove t s s' [] []
  /-- `enqueue` returns: the frame is stored, kept or lost. -/
  | offers (q : QueueId) (pFrame : FrameId) (e : EnqueueExit FrameId)
      (hand lost : List FrameId)
      (hset : s'.custody =
        Function.update (s.setQueue q e.queue).custody (.hand t) hand)
      (hnext : s'.nextFrame = s.nextFrame)
      (hhand : s.hand t = [pFrame])
      (hstored : e.queue.contents =
        (s.queue q).contents ++ e.stored pFrame)
      (haccount : e.stored pFrame ++ hand ++ lost = [pFrame])
      (hdevice : t = .device → hand = []) :
      ThreadMove t s s' [.enqueueReturned t q pFrame e.ret] lost

/-- A step that moves no frame and reports nothing. -/
theorem ThreadMove.refl
    (t : PipelineThread)
    (hcustody : s'.custody = s.custody) (hnext : s'.nextFrame = s.nextFrame) :
    ThreadMove t s s' [] [] :=
  .walks (s.hand t) (hcustody.trans (Function.update_eq_self _ _).symm) hnext rfl

/-- What a put stores is the frame, if there is room. -/
theorem enqueuePut_stored
    (q : FiFo FrameId) (pFrame : FrameId) :
    (enqueuePut q pFrame).stored pFrame =
      if q.isFull = true then [] else [pFrame] := by
  cases hfull : q.isFull with
  | true =>
      simp [EnqueueExit.stored, (enqueuePut_full pFrame hfull).1]
  | false =>
      simp [EnqueueExit.stored, (enqueuePut_room pFrame hfull).1]

/-- After a wait, `enqueue` has stored its frame, or says that it has not, or the
frame is lost. -/
theorem enqueueWake_accounts
    (q : FiFo FrameId) (pFrame : FrameId) (wait : Int) :
    (enqueueWake q pFrame wait).stored pFrame ++
      (if (enqueueWake q pFrame wait).ret < 0 then [pFrame] else []) ++
      (if wait ≠ ETIMEDOUT ∧ q.isFull = true then [pFrame] else []) =
      [pFrame] := by
  by_cases hwait : wait = ETIMEDOUT
  · subst hwait
    rw [enqueueWake_timeout]
    simp [EnqueueExit.stored, ETIMEDOUT]
  · rw [enqueueWake_of_ne _ _ hwait, enqueuePut_stored, enqueuePut_ret]
    by_cases hfull : q.isFull = true
    · simp [hfull, hwait]
    · simp [hfull]

/-- For a caller that does not look at the result, what is not stored is lost. -/
theorem enqueueWake_accounts_ignored
    (q : FiFo FrameId) (pFrame : FrameId) (wait : Int) :
    (enqueueWake q pFrame wait).stored pFrame ++ [] ++
      (if wait = ETIMEDOUT ∨ q.isFull = true then [pFrame] else []) =
      [pFrame] := by
  by_cases hwait : wait = ETIMEDOUT
  · subst hwait
    rw [enqueueWake_timeout]
    simp [EnqueueExit.stored]
  · rw [enqueueWake_of_ne _ _ hwait, enqueuePut_stored]
    by_cases hfull : q.isFull = true
    · simp [hfull]
    · simp [hfull, hwait]

theorem routeFrame_hand
    (cfg : StreamerConfig) (streamIndex : Int) (pFrame : FrameId) :
    (routeFrame cfg streamIndex pFrame).hand = [pFrame] := by
  simp only [routeFrame]
  split
  · rfl
  · split <;> rfl

theorem afterSize_hand
    (q : QueueId) :
    (afterSize q).hand = [] := by
  cases q <;> rfl

theorem hand_device
    {pc : DevicePc} (hpc : s.device = pc) : s.hand .device = pc.hand :=
  congrArg DevicePc.hand hpc

theorem hand_encoder
    {e : EncoderId} {pc : EncoderPc} (hpc : s.encoder e = pc) :
    s.hand (.encoder e) = pc.hand :=
  congrArg EncoderPc.hand hpc

theorem hand_mux
    {pc : MuxPc} (hpc : s.mux = pc) : s.hand .mux = pc.hand :=
  congrArg MuxPc.hand hpc

/-- How a step of the device thread moves frames. -/
theorem deviceStep_move
    {answer : DeviceAnswer}
    (h : deviceStep cfg s answer = some (s', es)) :
    ThreadMove .device s s' es (lostFrames s (.device answer)) := by
  cases deviceStep_case h with
  | loopHead hpc =>
      simp only [lostFrames, hpc]
      refine .walks _ (custody_setDevice _ _) rfl ?_
      rw [hand_device hpc]
      split <;> rfl
  | reads hpc =>
      simp only [lostFrames, hpc]
      exact .walks [] (custody_setDevice s _) rfl (hand_device hpc)
  | getsFrame pkt streamIndex hpc =>
      simp only [lostFrames, hpc]
      exact .obtains (custody_setDevice _ _) rfl (hand_device hpc)
  | fills pkt streamIndex pFrame hpc =>
      simp only [lostFrames, hpc]
      exact .walks [pFrame] (custody_setDevice s _) rfl (hand_device hpc)
  | routes streamIndex pFrame hpc =>
      simp only [lostFrames, hpc]
      refine .walks _ (custody_setDevice _ _) rfl ?_
      rw [routeFrame_hand]
      exact hand_device hpc
  | waits q pFrame hpc hfull =>
      simp only [lostFrames, hpc]
      exact .walks [pFrame] (custody_setDevice _ _) rfl (hand_device hpc)
  | puts q pFrame hpc hroom =>
      simp only [lostFrames, hpc]
      refine .offers q pFrame _ _ _ (custody_setDevice _ _) rfl
        (hand_device hpc) (enqueuePut_contents _ _) ?_ (fun _ => rfl)
      simp [enqueuePut_stored, hroom, DevicePc.hand]
  | wakes q pFrame hpc =>
      simp only [lostFrames, hpc]
      exact .offers q pFrame _ _ _ (custody_setDevice _ _) rfl
        (hand_device hpc) (enqueueWake_contents _ _ _)
        (enqueueWake_accounts_ignored _ _ _) (fun _ => rfl)
  | releases pFrame hpc =>
      simp only [lostFrames, hpc]
      exact .releases pFrame (custody_setDevice _ _) rfl (hand_device hpc)
  | selects q hpc hlong =>
      simp only [lostFrames, hpc]
      exact .walks [] (custody_setDevice _ _) rfl (hand_device hpc)
  | skips q hpc hshort =>
      simp only [lostFrames, hpc]
      refine .walks _ (custody_setDevice _ _) rfl ?_
      rw [afterSize_hand]
      exact hand_device hpc
  | enters q hpc =>
      simp only [lostFrames, hpc]
      exact .walks [] (custody_setDevice _ _) rfl (hand_device hpc)
  | cleanEnds q size hpc hpass =>
      simp only [lostFrames, hpc]
      refine .walks _ (custody_setDevice _ _) rfl ?_
      rw [afterSize_hand]
      exact hand_device hpc
  | cleans q size p hpc hpass hremoved =>
      have hcontents := (cleanPass_contents hpass).1
      rw [hremoved] at hcontents
      simp only [lostFrames, hpc]
      refine .takes q _ _ (custody_setDevice _ _) rfl (hand_device hpc) ?_
      split
      · rw [afterSize_hand]
        exact hcontents
      · exact hcontents
  | removes q size p pFrame hpc hpass hremoved =>
      have hcontents := (cleanPass_contents hpass).1
      rw [hremoved] at hcontents
      simp only [lostFrames, hpc]
      exact .takes q _ _ (custody_setDevice _ _) rfl (hand_device hpc) hcontents
  | cleanReleases q size stop pFrame hpc =>
      simp only [lostFrames, hpc]
      refine .releases pFrame ?_ rfl (hand_device hpc)
      rw [custody_setDevice]
      split
      · rw [afterSize_hand]
      · rfl

/-- `dequeue` returns to an encoder thread. -/
theorem encoderDequeued_move
    {e : EncoderId} {d : DequeueExit FrameId}
    (hhand : s.hand (.encoder e) = [])
    (htaken : d.ret.toList ++ d.queue.contents = (s.queue e.input).contents) :
    ThreadMove (.encoder e) s (encoderDequeued s e d).1 [] [] := by
  refine .takes e.input d.queue d.ret.toList ?_ rfl hhand htaken
  simp only [encoderDequeued]
  rw [custody_setEncoder]
  cases d.ret <;> rfl

/-- How a step of an encoder thread moves frames. -/
theorem encoderStep_move
    {e : EncoderId} {answer : EncoderAnswer}
    (h : encoderStep s e answer = some (s', es)) :
    ThreadMove (.encoder e) s s' es (lostFrames s (.encoder e answer)) := by
  cases encoderStep_case h with
  | exits hpc hstatus =>
      simp only [lostFrames, hpc]
      exact .walks [] (custody_setEncoder _ e _) rfl (hand_encoder hpc)
  | pauses hpc hstatus =>
      simp only [lostFrames, hpc]
      exact .refl _ rfl rfl
  | loops hpc hstatus =>
      simp only [lostFrames, hpc]
      exact .walks [] (custody_setEncoder _ e _) rfl (hand_encoder hpc)
  | dequeueWaits hpc hlocked hempty =>
      simp only [lostFrames, hpc]
      exact .walks [] (custody_setEncoder _ e _) rfl (hand_encoder hpc)
  | gets hpc hlocked hsome =>
      simp only [lostFrames, hpc]
      exact encoderDequeued_move (hand_encoder hpc) (dequeueGet_contents _)
  | dequeueWakes hpc hlocked =>
      simp only [lostFrames, hpc]
      exact encoderDequeued_move (hand_encoder hpc) (dequeueWake_contents _ _)
  | deals pFrame hpc =>
      simp only [lostFrames, hpc]
      cases hencoded : answer.encoded with
      | kept =>
          exact .walks [pFrame] (custody_setEncoder s e _) rfl (hand_encoder hpc)
      | nothing =>
          exact .walks [pFrame] (custody_setEncoder s e _) rfl (hand_encoder hpc)
      | got out =>
          exact .walks [pFrame] (custody_setEncoder s e _) rfl (hand_encoder hpc)
  | releasesEncoded pFrame pkt out hpc =>
      simp only [lostFrames, hpc]
      exact .releases pFrame (custody_setEncoder _ e _) rfl (hand_encoder hpc)
  | releasesInput pFrame hpc =>
      simp only [lostFrames, hpc]
      exact .releases pFrame (custody_setEncoder _ e _) rfl (hand_encoder hpc)
  | getsFrame pkt out hpc =>
      simp only [lostFrames, hpc]
      exact .obtains (custody_setEncoder _ e _) rfl (hand_encoder hpc)
  | fills pkt out pFrame hpc =>
      simp only [lostFrames, hpc]
      exact .walks [pFrame] (custody_setEncoder s e _) rfl (hand_encoder hpc)
  | enqueueWaits pFrame hpc hlocked hfull =>
      simp only [lostFrames, hpc]
      exact .walks [pFrame] (custody_setEncoder _ e _) rfl (hand_encoder hpc)
  | puts pFrame hpc hlocked hroom =>
      simp only [lostFrames, hpc]
      refine .offers e.output pFrame _ _ _ (custody_setEncoder _ e _) rfl
        (hand_encoder hpc) (enqueuePut_contents _ _) ?_ (by simp)
      simp [enqueuePut_stored, hroom, EncoderPc.hand]
  | enqueueWakes pFrame hpc hlocked =>
      simp only [lostFrames, hpc]
      exact .offers e.output pFrame _ _ _ (custody_setEncoder _ e _) rfl
        (hand_encoder hpc) (enqueueWake_contents _ _ _)
        (enqueueWake_accounts _ _ _) (by simp)
  | retries pFrame ret hpc hneg hretry =>
      simp only [lostFrames, hpc]
      exact .walks _ (custody_setEncoder _ e _) rfl
        ((hand_encoder hpc).trans (if_pos hneg))
  | givesUp pFrame ret hpc hneg hretry =>
      simp only [lostFrames, hpc]
      exact .walks _ (custody_setEncoder _ e _) rfl
        ((hand_encoder hpc).trans (if_pos hneg))
  | hasEnqueued pFrame ret hpc hneg =>
      simp only [lostFrames, hpc]
      exact .walks _ (custody_setEncoder _ e _) rfl
        ((hand_encoder hpc).trans (if_neg hneg))
  | releases pFrame hpc =>
      simp only [lostFrames, hpc]
      exact .releases pFrame (custody_setEncoder _ e _) rfl (hand_encoder hpc)

/-- The end of a pass of `mux_thread` leaves an empty hand. -/
theorem custody_muxPassEnd
    (s : PipelineState) (stream : StreamType) (ret : Int) (ended : Bool) :
    (muxPassEnd s stream ret ended).custody =
      Function.update s.custody (.hand .mux) [] := by
  rw [show (muxPassEnd s stream ret ended).custody =
    (s.setMux (if ended then .exited else .loopHead)).custody from rfl,
    custody_setMux]
  cases ended <;> rfl

/-- How a step of the mux thread moves frames. -/
theorem muxThreadStep_move
    {answer : MuxAnswer}
    (h : muxThreadStep lib s answer = some (s', es)) :
    ThreadMove .mux s s' es [] := by
  cases muxThreadStep_case h with
  | exits hpc hselect =>
      exact .walks [] (custody_setMux _ _) rfl (hand_mux hpc)
  | selects stream hpc hselect hhave =>
      exact .walks [] (custody_setMux _ _) rfl (hand_mux hpc)
  | skips stream hpc hselect hhave =>
      exact .walks [] (custody_setMux _ _) rfl (hand_mux hpc)
  | dequeueWaits stream again hpc hlocked hempty =>
      exact .walks [] (custody_setMux _ _) rfl (hand_mux hpc)
  | gets stream again hpc hlocked hsome =>
      exact .takes stream.queue _ _ (custody_setMux _ _) rfl (hand_mux hpc)
        (dequeueGet_contents _)
  | dequeueWakes stream again hpc hlocked =>
      exact .takes stream.queue _ _ (custody_setMux _ _) rfl (hand_mux hpc)
        (dequeueWake_contents _ _)
  | stopsWithFrame stream again pFrame hpc hstop =>
      exact .walks [pFrame] (custody_setMux _ _) rfl (hand_mux hpc)
  | stops stream again hpc hstop =>
      exact .walks [] (custody_setMux _ _) rfl (hand_mux hpc)
  | obtains stream again pFrame hpc hstop =>
      exact .walks [pFrame] (custody_setMux _ _) rfl (hand_mux hpc)
  | asksAgain stream again hpc hstop =>
      exact .walks [] (custody_setMux _ _) rfl (hand_mux hpc)
  | callbackReleases stream pFrame hpc =>
      exact .releases pFrame (custody_setMux _ _) rfl (hand_mux hpc)
  | callbackEnds stream hpc =>
      exact .walks [] (custody_muxPassEnd _ _ _ _) rfl (hand_mux hpc)
  | writes stream pFrame hpc =>
      exact .walks [pFrame] (custody_setMux s _) rfl (hand_mux hpc)
  | releases stream pFrame ret hpc =>
      exact .releases pFrame (custody_muxPassEnd _ _ _ _) rfl (hand_mux hpc)

/-- In a step of the pipeline some thread moves frames. -/
theorem pipelineStep_move
    {a : PipelineAction}
    (hstart : StartInv s)
    (h : pipelineStep cfg lib s a = some (s', es)) :
    ∃ t, ThreadMove t s s' es (lostFrames s a) := by
  cases a with
  | setStop =>
      obtain ⟨rfl, rfl⟩ := Prod.mk.inj (Option.some.inj h)
      exact ⟨.device, .refl _ rfl rfl⟩
  | start e =>
      simp only [pipelineStep] at h
      split at h
      · rename_i hnull
        obtain ⟨rfl, rfl⟩ := Prod.mk.inj (Option.some.inj h)
        exact ⟨.encoder e, .walks [] (custody_setEncoder s e _) rfl
          (hand_encoder (hstart e hnull))⟩
      · obtain ⟨rfl, rfl⟩ := Prod.mk.inj (Option.some.inj h)
        exact ⟨.encoder e, .refl _ rfl rfl⟩
  | pause e =>
      simp only [pipelineStep] at h
      split at h <;> obtain ⟨rfl, rfl⟩ := Prod.mk.inj (Option.some.inj h) <;>
        exact ⟨.encoder e, .refl _ rfl rfl⟩
  | stop e =>
      simp only [pipelineStep] at h
      split at h <;> obtain ⟨rfl, rfl⟩ := Prod.mk.inj (Option.some.inj h) <;>
        exact ⟨.encoder e, .refl _ rfl rfl⟩
  | startMux =>
      simp only [pipelineStep] at h
      split at h
      · rename_i hpc
        obtain ⟨rfl, rfl⟩ := Prod.mk.inj (Option.some.inj h)
        exact ⟨.mux, .walks [] (custody_setMux s _) rfl (hand_mux hpc)⟩
      · obtain ⟨rfl, rfl⟩ := Prod.mk.inj (Option.some.inj h)
        exact ⟨.mux, .refl _ rfl rfl⟩
  | device answer =>
      exact ⟨.device, deviceStep_move h⟩
  | encoder e answer =>
      exact ⟨.encoder e, encoderStep_move h⟩
  | mux answer =>
      exact ⟨.mux, muxThreadStep_move h⟩

end Moves

/-! ## Every move is balanced -/

section Balance

variable {s s' : PipelineState} {es : List PipelineEvent} {lost : List FrameId}
  {t : PipelineThread}

/-- What the step of a thread does to its hand makes up for what it does to the
other places; `mid` is the state with the hand not changed yet. -/
theorem balanced_hand
    (mid : PipelineState) {hand : List FrameId}
    (hset : s'.custody = Function.update mid.custody (.hand t) hand)
    (hnext : s'.nextFrame = mid.nextFrame)
    (hhand : mid.hand t = s.hand t)
    (hsupply : s.nextFrame ≤ mid.nextFrame)
    (hbalance : ∀ a, held mid.custody a + hand.count a + lost.count a =
      held s.custody a + (s.hand t).count a + issued s.nextFrame mid.nextFrame a) :
    Balanced s.custody s.nextFrame s'.custody s'.nextFrame lost where
  supply := by
    rw [hnext]
    exact hsupply
  balance := by
    intro a
    have hheld := held_update mid.custody (.hand t) hand a
    have hmid : mid.custody (.hand t) = s.hand t := hhand
    have hbal := hbalance a
    rw [← hset, hmid] at hheld
    rw [hnext]
    omega

/-- A step that changes a queue: what the queue and the hand held before is what
they hold after it and what is lost. -/
theorem balanced_queue
    (q : QueueId) {contents : FiFo FrameId} {hand : List FrameId}
    (hset : s'.custody =
      Function.update (s.setQueue q contents).custody (.hand t) hand)
    (hnext : s'.nextFrame = s.nextFrame)
    (hmove : ∀ a, contents.contents.count a + hand.count a + lost.count a =
      (s.queue q).contents.count a + (s.hand t).count a) :
    Balanced s.custody s.nextFrame s'.custody s'.nextFrame lost := by
  have hhand : (s.setQueue q contents).hand t = s.hand t := by
    cases t <;> rfl
  refine balanced_hand (s.setQueue q contents) hset hnext hhand (Nat.le_refl _) ?_
  intro a
  have hqueue := held_setQueue s q contents a
  have hcount := hmove a
  show _ = _ + _ + issued s.nextFrame s.nextFrame a
  rw [issued_self]
  omega

/-- Every move creates, moves and loses frames as its balance says. -/
theorem ThreadMove.balanced
    (hmove : ThreadMove t s s' es lost) :
    Balanced s.custody s.nextFrame s'.custody s'.nextFrame lost := by
  cases hmove with
  | walks hand hset hnext hhand =>
      refine balanced_hand s hset hnext rfl (Nat.le_refl _) ?_
      intro a
      rw [hhand, issued_self, List.count_nil]
  | releases pFrame hset hnext hhand =>
      obtain ⟨hsame, hfresh⟩ := mediaFrameRelease_same s pFrame
      refine balanced_hand (s.mediaFrameRelease pFrame) hset hnext
        (hsame.hand t) hfresh.ge ?_
      intro a
      rw [hfresh, issued_self, held_mediaFrameRelease, hhand, List.count_nil]
  | obtains hset hnext hhand =>
      obtain ⟨hsame, hsupply⟩ := getMediaFrame_same s
      refine balanced_hand s.getMediaFrame.2 hset hnext (hsame.hand t) hsupply ?_
      intro a
      rw [held_getMediaFrame, hhand, List.count_nil]
      omega
  | takes q contents hand hset hnext hhand htaken =>
      refine balanced_queue q hset hnext ?_
      intro a
      rw [← htaken, hhand, List.count_append, List.count_nil]
      omega
  | offers q pFrame e hand lost hset hnext hhand hstored haccount hdevice =>
      refine balanced_queue q hset hnext ?_
      intro a
      have hcount := congrArg (List.count a) haccount
      simp only [List.count_append] at hcount
      rw [hstored, hhand, List.count_append]
      omega

/-- Who releases a frame has it in the hand. -/
theorem ThreadMove.mem_hand_of_released
    {t' : PipelineThread} {pFrame : FrameId}
    (hmove : ThreadMove t s s' es lost)
    (hreleased : .released t' pFrame ∈ es) :
    pFrame ∈ s.hand t' := by
  cases hmove with
  | releases pFrame' hset hnext hhand =>
      obtain ⟨rfl, rfl⟩ :=
        PipelineEvent.released.inj (List.mem_singleton.mp hreleased)
      rw [hhand]
      exact List.mem_singleton_self _
  | offers q pFrame' e hand lost hset hnext hhand hstored haccount hdevice =>
      cases List.mem_singleton.mp hreleased
  | _ =>
      cases hreleased

/-- A frame comes into the pool or is freed by a release only. -/
theorem ThreadMove.released_of_mem
    {pFrame : FrameId} {p : Place}
    (hmove : ThreadMove t s s' es lost)
    (hp : p = .pool ∨ p = .freed)
    (hmem : pFrame ∈ s'.custody p) (hnew : pFrame ∉ s.custody p) :
    .released t pFrame ∈ es := by
  have hhand : p ≠ .hand t := by
    rcases hp with rfl | rfl <;> simp
  have hqueue : ∀ q contents,
      (s.setQueue q contents).custody p = s.custody p := by
    intro q contents
    rw [custody_setQueue]
    exact Function.update_of_ne (by rcases hp with rfl | rfl <;> simp) _ _
  cases hmove with
  | walks hand hset hnext hsame =>
      rw [hset, Function.update_of_ne hhand] at hmem
      exact absurd hmem hnew
  | releases pFrame' hset hnext hheld =>
      rw [hset, Function.update_of_ne hhand] at hmem
      have hone : pFrame = pFrame' := by
        rcases hp with rfl | rfl <;>
          rcases mediaFrameRelease_returns s pFrame' with ⟨hpool, hfreed⟩ |
            ⟨hpool, hfreed⟩ <;>
          simp_all
      rw [hone]
      exact List.mem_singleton_self _
  | obtains hset hnext hheld =>
      rw [hset, Function.update_of_ne hhand] at hmem
      obtain ⟨hpool, hfreed⟩ := getMediaFrame_keeps s
      rcases hp with rfl | rfl
      · exact absurd (hpool.subset hmem) hnew
      · rw [hfreed] at hmem
        exact absurd hmem hnew
  | takes q contents hand hset hnext hheld htaken =>
      rw [hset, Function.update_of_ne hhand, hqueue] at hmem
      exact absurd hmem hnew
  | offers q pFrame' e hand lost hset hnext hheld hstored haccount hdevice =>
      rw [hset, Function.update_of_ne hhand, hqueue] at hmem
      exact absurd hmem hnew

/-- What is freed stays freed. -/
theorem ThreadMove.freed_grows
    (hmove : ThreadMove t s s' es lost) :
    s.custody .freed <:+ s'.custody .freed := by
  cases hmove with
  | walks hand hset hnext hsame =>
      rw [hset, Function.update_of_ne (by simp)]
  | releases pFrame hset hnext hheld =>
      rw [hset, Function.update_of_ne (by simp)]
      rcases mediaFrameRelease_returns s pFrame with ⟨_, hfreed⟩ | ⟨_, hfreed⟩
      · rw [hfreed]
      · rw [hfreed]
        exact List.suffix_cons _ _
  | obtains hset hnext hheld =>
      rw [hset, Function.update_of_ne (by simp), (getMediaFrame_keeps s).2]
  | takes q contents hand hset hnext hheld htaken =>
      rw [hset, Function.update_of_ne (by simp), custody_setQueue,
        Function.update_of_ne (by simp)]
  | offers q pFrame e hand lost hset hnext hheld hstored haccount hdevice =>
      rw [hset, Function.update_of_ne (by simp), custody_setQueue,
        Function.update_of_ne (by simp)]

/-- An `enqueue` of the device thread that loses nothing stores its frame. -/
theorem ThreadMove.mem_queue_of_enqueueReturned
    {q : QueueId} {pFrame : FrameId} {ret : Int}
    (hmove : ThreadMove t s s' es [])
    (hreturned : .enqueueReturned .device q pFrame ret ∈ es) :
    pFrame ∈ (s'.queue q).contents := by
  cases hmove with
  | offers q' pFrame' e hand _ hset hnext hhand hstored haccount hdevice =>
      obtain ⟨rfl, rfl, rfl, -⟩ :=
        PipelineEvent.enqueueReturned.inj (List.mem_singleton.mp hreturned)
      have hqueue : (s'.queue q).contents = e.queue.contents := by
        show s'.custody (.queue q) = _
        rw [hset, Function.update_of_ne (by simp), custody_setQueue,
          Function.update_self]
      rw [hdevice rfl, List.append_nil, List.append_nil] at haccount
      rw [hqueue, hstored, haccount]
      exact List.mem_append_right _ (List.mem_singleton_self _)
  | releases pFrame' hset hnext hhand =>
      cases List.mem_singleton.mp hreturned
  | _ =>
      cases hreturned

end Balance

end KoalaStreamer
