import KoalaStreamer.CleanQueue
import KoalaStreamer.QueueInterleaving
import Mathlib.Data.List.Chain

/-!
# MacRTMPStreamer.cpp: dropping encoded video

The encoder enqueues into `pVEQueue`, the mux thread dequeues, and the device
thread cleans the queue when a size it has read before was above 80.

Main result:
* `video_gap_free_iff`: no dequeued frame that is not a key frame follows a
  discarded one, in a run and in whatever step may follow a part of it, if and
  only if every frame put into a queue emptied by a cleaning is a key frame.
-/

namespace KoalaStreamer

open EventMachine

/-! ## The queue between encoder and muxer -/

/-- The threads that work on the queue of encoded video. -/
inductive EgressThread
  | encoder
  | mux
  | device
deriving DecidableEq

/-- The queue, and the size the device thread has read and not yet acted on. -/
structure EgressState where
  pVEQueue : QueueState EgressThread MediaFrame
  size : Option Int
  /-- The last frame taken out of the queue was dropped by a cleaning; no step
  looks at this. -/
  lastCleaned : Bool

inductive EgressAction
  | enqueue (pFrame : MediaFrame)
  | enqueueWake (ret : Int)
  | dequeue
  | dequeueWake (ret : Int)
  /-- `size = pHandle->pVEQueue->getSize()`. -/
  | getSize
  /-- `cleanIf(myCleanQueueV, &size)` with `size = 0`. -/
  | cleanIf (passes : ℕ)

/-- How a frame left the queue. -/
inductive Removal
  | dequeued (pFrame : MediaFrame)
  | cleaned (pFrame : MediaFrame)
deriving DecidableEq

def Removal.frame : Removal → MediaFrame
  | .dequeued pFrame => pFrame
  | .cleaned pFrame => pFrame

def Removal.isCleaned : Removal → Bool
  | .dequeued _ => false
  | .cleaned _ => true

section Egress

def EgressState.init (capacity : ℕ) : EgressState where
  pVEQueue := QueueState.init capacity
  size := none
  lastCleaned := false

/-- The frames that left the queue, in order, and how. -/
def removals (es : List (QueueEvent MediaFrame)) : List Removal :=
  es.filterMap fun
    | .dequeueReturned (some pFrame) => some (.dequeued pFrame)
    | .cleaned pFrame => some (.cleaned pFrame)
    | _ => none

/-- Whether the last frame that left was cleaned, after these events. -/
def lastCleanedAfter
    (lastCleaned : Bool) (es : List (QueueEvent MediaFrame)) : Bool :=
  match (removals es).getLast? with
  | none => lastCleaned
  | some r => r.isCleaned

/-- A section of a thread on the queue. -/
def egressQueue
    (s : EgressState) (a : QueueAction EgressThread Int MediaFrame) :
    Option (EgressState × List (QueueEvent MediaFrame)) :=
  match queueStep s.pVEQueue a with
  | none => none
  | some (q, es) =>
      some ({ s with
        pVEQueue := q
        lastCleaned := lastCleanedAfter s.lastCleaned es }, es)

/-- One step of the encoder, the mux thread or the device thread. -/
def egressStep : Machine EgressState EgressAction (QueueEvent MediaFrame)
  | s, .enqueue pFrame => egressQueue s (.enqueue .encoder pFrame)
  | s, .enqueueWake ret => egressQueue s (.enqueueWake .encoder ret)
  | s, .dequeue => egressQueue s (.dequeue .mux)
  | s, .dequeueWake ret => egressQueue s (.dequeueWake .mux ret)
  | s, .getSize => some ({ s with size := some s.pVEQueue.queue.size }, [])
  | s, .cleanIf passes =>
      match s.size with
      | none => none
      | some size =>
          if size > 80 then
            egressQueue { s with size := none }
              (.cleanIf .device (some (myCleanQueueV (·.flag))) 0 passes)
          else
            none

/-- A step on the queue in a run. -/
abbrev EgressTransition :=
  Transition EgressState EgressAction (QueueEvent MediaFrame)

/--
A frame that was dequeued right after one that a cleaning dropped is a key
frame.  Frames leave in the order in which they were accepted, so the frame
before it in this list is the one before it in the order of enqueueing.
-/
def GapFree (es : List (QueueEvent MediaFrame)) : Prop :=
  (removals es).IsChain fun r r' =>
    ∀ f g, r = .cleaned f → r' = .dequeued g → g.flag ≠ 0

/-- A frame put into a queue that a cleaning has emptied is a key frame. -/
def RestartsWithKey (τ : EgressTransition) : Prop :=
  τ.src.lastCleaned = true → τ.src.pVEQueue.queue.contents = [] →
    ∀ f ∈ (acceptedFrames τ.events).head?, f.flag ≠ 0

instance (τ : EgressTransition) : Decidable (RestartsWithKey τ) := by
  unfold RestartsWithKey
  infer_instance

/-! ### What a step does to the queue -/

/-- Nothing leaves, the head leaves, or a cleaning takes frames from the head
and leaves a key frame there or nothing. -/
inductive EgressEffect (s s' : EgressState) (es : List (QueueEvent MediaFrame)) :
    Prop
  | accepts
      (hremovals : removals es = [])
      (hcontents : s'.pVEQueue.queue.contents =
        s.pVEQueue.queue.contents ++ acceptedFrames es)
  | dequeues (f : MediaFrame)
      (hremovals : removals es = [.dequeued f])
      (hcontents : s.pVEQueue.queue.contents =
        f :: s'.pVEQueue.queue.contents)
  | cleans (f : MediaFrame) (rs : List MediaFrame)
      (hremovals : removals es = (f :: rs).map .cleaned)
      (haccepted : acceptedFrames es = [])
      (hhead : ∀ x ∈ s'.pVEQueue.queue.contents.head?, x.flag ≠ 0)

theorem removals_finishEnqueue
    (q : QueueState EgressThread MediaFrame) (t : EgressThread)
    (call nextCall : ℕ) (pFrame : MediaFrame) (e : EnqueueExit MediaFrame) :
    removals (finishEnqueue q t call nextCall pFrame e).2 = [] := by
  simp only [finishEnqueue, EnqueueExit.stored]
  split <;> simp [removals]

theorem removals_finishDequeue
    (q : QueueState EgressThread MediaFrame) (t : EgressThread)
    (e : DequeueExit MediaFrame) :
    removals (finishDequeue q t e).2 = e.ret.toList.map .dequeued := by
  cases hret : e.ret <;> simp [finishDequeue, removals, hret]

theorem removals_cleaned
    (rs : List MediaFrame) :
    removals (rs.map .cleaned) = rs.map .cleaned := by
  simp [removals, List.filterMap_map]

@[simp] theorem removals_append
    (es es' : List (QueueEvent MediaFrame)) :
    removals (es ++ es') = removals es ++ removals es' := by
  simp [removals]

theorem map_frame_removals
    (es : List (QueueEvent MediaFrame)) :
    (removals es).map Removal.frame = removedFrames es := by
  simp only [removals, removedFrames]
  rw [List.map_filterMap]
  congr 1
  funext e
  cases e with
  | dequeueReturned ret =>
      cases ret <;> rfl
  | _ =>
      rfl

/-- A section of `dequeue` takes the head or nothing. -/
theorem egressEffect_of_dequeue
    {s s' : EgressState} {q : QueueState EgressThread MediaFrame}
    {t : EgressThread} {e : DequeueExit MediaFrame}
    (hq : s.pVEQueue = q)
    (hs' : s'.pVEQueue = (finishDequeue q t e).1)
    (hcontents : e.ret.toList ++ e.queue.contents = q.queue.contents) :
    EgressEffect s s' (finishDequeue q t e).2 := by
  have hqueue : s'.pVEQueue.queue = e.queue := by
    rw [hs']
    rfl
  cases hret : e.ret with
  | none =>
      rw [hret] at hcontents
      refine .accepts (by simp [removals_finishDequeue, hret]) ?_
      rw [hqueue, hq, ← hcontents]
      simp [finishDequeue, acceptedFrames]
  | some f =>
      rw [hret] at hcontents
      refine .dequeues f (by simp [removals_finishDequeue, hret]) ?_
      rw [hqueue, hq, ← hcontents]
      rfl

/-- What a section on the queue does. -/
theorem egressQueue_effect
    {s s' : EgressState} {a : QueueAction EgressThread Int MediaFrame}
    {es : List (QueueEvent MediaFrame)}
    (hclean : ∀ t func arg passes, a = .cleanIf t func arg passes →
      func = some (myCleanQueueV (·.flag)) ∧ arg = 0)
    (h : egressQueue s a = some (s', es)) :
    EgressEffect s s' es ∧
    s'.lastCleaned = lastCleanedAfter s.lastCleaned es ∧
    (removals es).map Removal.frame ++ s'.pVEQueue.queue.contents =
      s.pVEQueue.queue.contents ++ acceptedFrames es := by
  simp only [egressQueue] at h
  cases hq : queueStep s.pVEQueue a with
  | none =>
      simp [hq] at h
  | some r =>
      obtain ⟨q, es₁⟩ := r
      simp only [hq, Option.some.injEq, Prod.mk.injEq] at h
      obtain ⟨rfl, rfl⟩ := h
      obtain ⟨hcons, _⟩ := queueStep_conserves hq
      refine ⟨?_, rfl, by rw [map_frame_removals]; exact hcons⟩
      cases queueStep_move hq with
      | enqueueWaits t pFrame hidle hfull =>
          exact .accepts rfl (by simp [acceptedFrames])
      | enqueueDone t pFrame hidle hroom =>
          rw [removedFrames_finishEnqueue] at hcons
          exact .accepts (removals_finishEnqueue _ _ _ _ _ _) hcons
      | enqueueWoken t ret call pFrame sig hwait =>
          rw [removedFrames_finishEnqueue] at hcons
          exact .accepts (removals_finishEnqueue _ _ _ _ _ _) hcons
      | dequeueWaits t hidle hempty =>
          exact .accepts rfl (by simp [acceptedFrames])
      | dequeueDone t hidle hne =>
          exact egressEffect_of_dequeue rfl rfl (dequeueGet_contents _)
      | dequeueWoken t ret sig hwait =>
          exact egressEffect_of_dequeue rfl rfl (dequeueWake_contents _ _)
      | cleaned t func arg arg' passes rs q' hidle hloop =>
          obtain ⟨rfl, rfl⟩ := hclean t func arg passes rfl
          have hhead := cleanLoop_myCleanQueueV hloop
          cases rs with
          | nil =>
              exact .accepts rfl (by simpa [removedFrames] using hcons)
          | cons f rs =>
              exact .cleans f rs (removals_cleaned _) (acceptedFrames_cleaned _) hhead

/-- What a step does. -/
theorem egressStep_effect
    {s s' : EgressState} {a : EgressAction} {es : List (QueueEvent MediaFrame)}
    (h : egressStep s a = some (s', es)) :
    EgressEffect s s' es ∧
    s'.lastCleaned = lastCleanedAfter s.lastCleaned es ∧
    (removals es).map Removal.frame ++ s'.pVEQueue.queue.contents =
      s.pVEQueue.queue.contents ++ acceptedFrames es := by
  cases a with
  | enqueue pFrame =>
      exact egressQueue_effect (by simp) h
  | enqueueWake ret =>
      exact egressQueue_effect (by simp) h
  | dequeue =>
      exact egressQueue_effect (by simp) h
  | dequeueWake ret =>
      exact egressQueue_effect (by simp) h
  | getSize =>
      simp only [egressStep, Option.some.injEq, Prod.mk.injEq] at h
      obtain ⟨rfl, rfl⟩ := h
      exact ⟨.accepts rfl (by simp [acceptedFrames]), rfl,
        by simp [removals, acceptedFrames]⟩
  | cleanIf passes =>
      simp only [egressStep] at h
      split at h
      · cases h
      · split at h
        · obtain ⟨heffect, hlast, hcons⟩ := egressQueue_effect
            (by rintro _ _ _ _ ⟨⟩; exact ⟨rfl, rfl⟩) h
          refine ⟨?_, hlast, hcons⟩
          cases heffect with
          | accepts hremovals hcontents =>
              exact .accepts hremovals hcontents
          | dequeues f hremovals hcontents =>
              exact .dequeues f hremovals hcontents
          | cleans f rs hremovals haccepted hhead =>
              exact .cleans f rs hremovals haccepted hhead
        · cases h

/-! ### Gaps -/

/-- What is known after the events `es`: so far there is no gap, and if the last
frame was cleaned away, a key frame is at the head. -/
structure EgressInv
    (es : List (QueueEvent MediaFrame)) (s : EgressState) : Prop where
  gapFree : GapFree es
  last : s.lastCleaned = lastCleanedAfter false es
  head : s.lastCleaned = true →
    ∀ x ∈ s.pVEQueue.queue.contents.head?, x.flag ≠ 0

theorem lastCleanedAfter_append
    (b : Bool) (es es' : List (QueueEvent MediaFrame)) :
    lastCleanedAfter b (es ++ es') =
      lastCleanedAfter (lastCleanedAfter b es) es' := by
  simp only [lastCleanedAfter]
  rw [removals_append, List.getLast?_append]
  cases (removals es').getLast? <;> rfl

/-- After a cleaning, the last removal is that of a cleaned frame. -/
theorem getLast_of_lastCleanedAfter
    {es : List (QueueEvent MediaFrame)}
    (h : lastCleanedAfter false es = true) :
    ∃ f, (removals es).getLast? = some (.cleaned f) := by
  simp only [lastCleanedAfter] at h
  cases hlast : (removals es).getLast? with
  | none =>
      rw [hlast] at h
      cases h
  | some r =>
      rw [hlast] at h
      cases r with
      | dequeued f =>
          cases h
      | cleaned f =>
          exact ⟨f, rfl⟩

/-- Whatever step follows, it leaves no gap: the frame it may take out comes
after a cleaned one only if it is a key frame. -/
theorem EgressInv.gapFree_snoc
    {es es' : List (QueueEvent MediaFrame)} {s s' : EgressState}
    {a : EgressAction}
    (hinv : EgressInv es s)
    (hstep : egressStep s a = some (s', es')) :
    GapFree (es ++ es') := by
  simp only [GapFree]
  rw [removals_append]
  refine hinv.gapFree.append ?_ ?_
  · cases (egressStep_effect hstep).1 with
    | accepts hremovals hcontents =>
        rw [hremovals]
        exact List.isChain_nil
    | dequeues f hremovals hcontents =>
        rw [hremovals]
        exact List.isChain_singleton _
    | cleans f rs hremovals haccepted hhead =>
        rw [hremovals, List.isChain_map]
        exact (List.pairwise_of_forall fun _ _ _ _ _ h => by cases h).isChain
  · rintro r hr r' hr' f g rfl rfl
    have hlast : s.lastCleaned = true := by
      rw [hinv.last]
      simp only [lastCleanedAfter]
      rw [hr]
      rfl
    cases (egressStep_effect hstep).1 with
    | accepts hremovals hcontents =>
        rw [hremovals] at hr'
        cases hr'
    | dequeues f' hremovals hcontents =>
        rw [hremovals] at hr'
        cases hr'
        exact hinv.head hlast g (by rw [hcontents]; rfl)
    | cleans f' rs hremovals haccepted hhead =>
        rw [hremovals] at hr'
        cases hr'

/-- A step that restarts with a key frame keeps the invariant. -/
theorem EgressInv.snoc
    {es es' : List (QueueEvent MediaFrame)} {s s' : EgressState}
    {a : EgressAction}
    (hinv : EgressInv es s)
    (hstep : egressStep s a = some (s', es'))
    (hkey : RestartsWithKey ⟨s, a, es', s'⟩) :
    EgressInv (es ++ es') s' := by
  obtain ⟨heffect, hlast, _⟩ := egressStep_effect hstep
  refine ⟨hinv.gapFree_snoc hstep, ?_, ?_⟩
  · rw [lastCleanedAfter_append, ← hinv.last]
    exact hlast
  · intro hcleaned
    cases heffect with
    | accepts hremovals hcontents =>
        have hbefore : s.lastCleaned = true := by
          rw [hlast, lastCleanedAfter, hremovals] at hcleaned
          exact hcleaned
        intro x hx
        cases hq : s.pVEQueue.queue.contents with
        | nil =>
            -- the cleaning had emptied the queue: the head was just accepted
            rw [hcontents, hq, List.nil_append] at hx
            exact hkey hbefore hq x hx
        | cons y ys =>
            rw [hcontents, hq] at hx
            exact hinv.head hbefore x (by rw [hq]; exact hx)
    | dequeues f hremovals hcontents =>
        rw [hlast, lastCleanedAfter, hremovals] at hcleaned
        cases hcleaned
    | cleans f rs hremovals haccepted hhead =>
        exact hhead

/-- The invariant along every run whose steps restart with a key frame. -/
theorem run_egressInv
    {capacity : ℕ} {s : EgressState} {tr : List EgressTransition}
    (run : Run egressStep (EgressState.init capacity) tr s)
    (hkey : ∀ τ ∈ tr, RestartsWithKey τ) :
    EgressInv (eventsOf tr) s := by
  refine Run.invariant_of RestartsWithKey
    (fun tr s => EgressInv (eventsOf tr) s) ?_ ?_ run hkey
  · exact ⟨List.isChain_nil, rfl, fun h => Bool.noConfusion h⟩
  · intro tr s a es s' hinv hstep hτ
    rw [eventsOf_snoc]
    exact hinv.snoc hstep hτ

/-- The ghost bit tells how the last frame left, in every run. -/
theorem run_lastCleaned
    {capacity : ℕ} {s : EgressState} {tr : List EgressTransition}
    (run : Run egressStep (EgressState.init capacity) tr s) :
    s.lastCleaned = lastCleanedAfter false (eventsOf tr) := by
  refine Run.invariant
    (fun tr s => s.lastCleaned = lastCleanedAfter false (eventsOf tr))
    rfl ?_ run
  intro tr s a es s' hlast hstep
  rw [eventsOf_snoc, lastCleanedAfter_append, ← hlast]
  exact (egressStep_effect hstep).2.1

/-- Frames leave in the order of their enqueueing, in every run. -/
theorem run_order
    {capacity : ℕ} {s : EgressState} {tr : List EgressTransition}
    (run : Run egressStep (EgressState.init capacity) tr s) :
    (removals (eventsOf tr)).map Removal.frame ++ s.pVEQueue.queue.contents =
      acceptedFrames (eventsOf tr) := by
  refine Run.invariant
    (fun tr s => (removals (eventsOf tr)).map Removal.frame ++
      s.pVEQueue.queue.contents = acceptedFrames (eventsOf tr)) ?_ ?_ run
  · exact FiFo.contents_init capacity
  · intro tr s a es s' horder hstep
    rw [eventsOf_snoc, removals_append, List.map_append, acceptedFrames_append,
      List.append_assoc, (egressStep_effect hstep).2.2, ← List.append_assoc,
      horder]

/-- The mux thread never waits in `enqueue`. -/
theorem run_mux_pc
    {capacity : ℕ} {s : EgressState} {tr : List EgressTransition}
    (run : Run egressStep (EgressState.init capacity) tr s) :
    ∀ call x b, s.pVEQueue.pc .mux ≠ .enqueueWait call x b := by
  refine Run.invariant
    (fun _ s => ∀ call x b, s.pVEQueue.pc .mux ≠ .enqueueWait call x b)
    (by simp [EgressState.init, QueueState.init]) ?_ run
  intro tr s a es s' hmux hstep call x b hwait
  have hqueue : ∀ (s₁ : EgressState) (qa : QueueAction EgressThread Int MediaFrame),
      s₁.pVEQueue = s.pVEQueue → (∀ pFrame, qa ≠ .enqueue .mux pFrame) →
      egressQueue s₁ qa = some (s', es) → False := by
    intro s₁ qa hsame hqa hq
    simp only [egressQueue] at hq
    cases hstep' : queueStep s₁.pVEQueue qa with
    | none =>
        simp [hstep'] at hq
    | some r =>
        obtain ⟨q, es₁⟩ := r
        simp only [hstep', Option.some.injEq, Prod.mk.injEq] at hq
        obtain ⟨rfl, rfl⟩ := hq
        rcases queueStep_enqueueWait hstep' hwait with ⟨p, hp⟩ | ⟨b', hb⟩
        · exact hqa p hp
        · rw [hsame] at hb
          exact hmux call x b' hb
  cases a with
  | enqueue pFrame =>
      exact hqueue s _ rfl (by simp) hstep
  | enqueueWake ret =>
      exact hqueue s _ rfl (by simp) hstep
  | dequeue =>
      exact hqueue s _ rfl (by simp) hstep
  | dequeueWake ret =>
      exact hqueue s _ rfl (by simp) hstep
  | getSize =>
      simp only [egressStep, Option.some.injEq, Prod.mk.injEq] at hstep
      obtain ⟨rfl, rfl⟩ := hstep
      exact hmux call x b hwait
  | cleanIf passes =>
      simp only [egressStep] at hstep
      split at hstep
      · cases hstep
      · split at hstep
        · exact hqueue { s with size := none } _ rfl (by simp) hstep
        · cases hstep

/-- The mux thread can take the head of a queue that is not empty. -/
theorem egress_dequeue_head
    {s : EgressState} {f : MediaFrame} {fs : List MediaFrame}
    (hmux : ∀ call x b, s.pVEQueue.pc .mux ≠ .enqueueWait call x b)
    (hcontents : s.pVEQueue.queue.contents = f :: fs) :
    ∃ a s', egressStep s a = some (s', [.dequeueReturned (some f)]) := by
  have hget : (dequeueGet s.pVEQueue.queue).ret = some f := by
    simp [dequeueGet, hcontents]
  cases hpc : s.pVEQueue.pc .mux with
  | idle =>
      have henter : dequeueEnter s.pVEQueue.queue =
          some (dequeueGet s.pVEQueue.queue) := by
        cases he : dequeueEnter s.pVEQueue.queue with
        | none =>
            rw [dequeueEnter_eq_none_iff, hcontents] at he
            cases he
        | some e =>
            rw [(dequeueEnter_eq_some he).2]
      refine ⟨.dequeue, ?_⟩
      simp only [egressStep, egressQueue, queueStep, hpc, henter, finishDequeue,
        hget]
      exact ⟨_, rfl⟩
  | enqueueWait call x b =>
      exact absurd hpc (hmux call x b)
  | dequeueWait b =>
      refine ⟨.dequeueWake 0, ?_⟩
      have hwake : dequeueWake s.pVEQueue.queue 0 =
          dequeueGet s.pVEQueue.queue := by
        simp [dequeueWake, show (0 : Int) ≠ ETIMEDOUT by decide]
      simp only [egressStep, egressQueue, queueStep, hpc, hwake, finishDequeue,
        hget]
      exact ⟨_, rfl⟩

/-- A step that does not restart with a key frame can be followed by a gap. -/
theorem gap_of_restart_without_key
    {capacity : ℕ} {tr : List EgressTransition} {τ : EgressTransition}
    (run : Run egressStep (EgressState.init capacity) tr τ.src)
    (hvalid : τ.Valid egressStep)
    (hbad : ¬ RestartsWithKey τ) :
    ∃ τ' s', Run egressStep (EgressState.init capacity) (tr ++ [τ] ++ [τ']) s' ∧
      ¬ GapFree (eventsOf (tr ++ [τ] ++ [τ'])) := by
  obtain ⟨s₁, a₁, es₁, s₂⟩ := τ
  have run₂ := run.snoc hvalid
  simp only [RestartsWithKey, not_forall] at hbad
  obtain ⟨hcleaned, hempty, f, hf, hflag⟩ := hbad
  obtain ⟨heffect, hlast, _⟩ := egressStep_effect hvalid
  cases heffect with
  | accepts hremovals hcontents =>
      rw [hempty, List.nil_append] at hcontents
      obtain ⟨fs, hfs⟩ := List.head?_eq_some_iff.mp hf
      obtain ⟨a, s', hstep⟩ := egress_dequeue_head (run_mux_pc run₂)
        (hcontents.trans hfs)
      refine ⟨_, s', run₂.snoc hstep, ?_⟩
      -- the last frame to leave was cleaned, and now `f` is dequeued
      have hghost : lastCleanedAfter false
          (eventsOf (tr ++ [⟨s₁, a₁, es₁, s₂⟩])) = true := by
        rw [← run_lastCleaned run₂, hlast, lastCleanedAfter, hremovals]
        exact hcleaned
      obtain ⟨g, hg⟩ := getLast_of_lastCleanedAfter hghost
      intro hgap
      rw [eventsOf_snoc, GapFree, removals_append] at hgap
      have hrel := (List.isChain_append.mp hgap).2.2 _ hg
        (.dequeued f) (by simp [removals]) g f rfl rfl
      exact hflag hrel
  | dequeues f' hremovals hcontents =>
      rw [hempty] at hcontents
      cases hcontents
  | cleans f' rs hremovals haccepted hhead =>
      simp only [haccepted] at hf
      cases hf

/--
In every run, these two are equivalent: each frame that is put into a queue
emptied by a cleaning is a key frame; and neither the run, nor a step that may
follow some part of it, hands on a frame that is not a key frame right after one
that was discarded.  Frames leave in the order of their enqueueing.
-/
theorem video_gap_free_iff
    {capacity : ℕ} {s : EgressState} {tr : List EgressTransition}
    (run : Run egressStep (EgressState.init capacity) tr s) :
    ((∀ τ ∈ tr, RestartsWithKey τ) ↔
      GapFree (eventsOf tr) ∧
      ∀ tr' τ' s', tr' <+: tr →
        Run egressStep (EgressState.init capacity) (tr' ++ [τ']) s' →
        GapFree (eventsOf (tr' ++ [τ']))) ∧
    (removals (eventsOf tr)).map Removal.frame ++ s.pVEQueue.queue.contents =
      acceptedFrames (eventsOf tr) := by
  refine ⟨⟨?_, ?_⟩, run_order run⟩
  · intro hkey
    refine ⟨(run_egressInv run hkey).gapFree, ?_⟩
    intro tr' τ' s' hpre hrun'
    obtain ⟨hrun, hvalid, _⟩ := hrun'.snoc_inv
    have hinv := run_egressInv hrun fun τ hτ => hkey τ (hpre.subset hτ)
    rw [eventsOf_snoc]
    exact hinv.gapFree_snoc hvalid
  · rintro ⟨_, hnext⟩ τ hτ
    by_contra hbad
    obtain ⟨tr', hpre, hrun⟩ := run.prefix_of_mem τ hτ
    obtain ⟨τ', s', hrun', hgap⟩ :=
      gap_of_restart_without_key hrun (run.valid τ hτ) hbad
    exact hgap (hnext _ τ' s' hpre hrun')

end Egress

/-- A frame of the encoder, by its number. -/
def numberedFrame (n : ℕ) (flag : Int) : MediaFrame :=
  { mediaFrameSetRelease mediaFrameCreate .releasePktBuffer 1 with
    pBuffer := n, size := 100, pts := n, dts := n, flag := flag }

/-- The device thread sees 81 frames, of which only the first is a key frame,
and cleans them all away. -/
def drainActions : List EgressAction :=
  .enqueue (numberedFrame 0 1) ::
    ((List.range 80).map fun n => .enqueue (numberedFrame (n + 1) 0)) ++
      [.getSize, .cleanIf 82]

/-- The encoder goes on with a key frame. -/
theorem video_gap_free_iff_key :
    ∃ (tr : List EgressTransition) (s : EgressState),
      Run egressStep (EgressState.init 100) tr s ∧
      (∀ τ ∈ tr, RestartsWithKey τ) ∧
      (removals (eventsOf tr)).getLast? = some (.dequeued (numberedFrame 81 1)) ∧
      (((∀ τ ∈ tr, RestartsWithKey τ) ↔
        GapFree (eventsOf tr) ∧
        ∀ tr' τ' s', tr' <+: tr →
          Run egressStep (EgressState.init 100) (tr' ++ [τ']) s' →
          GapFree (eventsOf (tr' ++ [τ']))) ∧
      (removals (eventsOf tr)).map Removal.frame ++ s.pVEQueue.queue.contents =
        acceptedFrames (eventsOf tr)) := by
  obtain ⟨tr, s, run, hkey, hlast⟩ :=
    Run.exists_of_exec egressStep (EgressState.init 100)
      (drainActions ++ [.enqueue (numberedFrame 81 1), .dequeue])
      (fun r => (∀ τ ∈ r.1, RestartsWithKey τ) ∧
        (removals (eventsOf r.1)).getLast? =
          some (.dequeued (numberedFrame 81 1)))
      (by decide +kernel)
  exact ⟨tr, s, run, hkey, hlast, video_gap_free_iff run⟩

/-- The encoder goes on with a frame that is not a key frame. -/
theorem video_gap_free_fails_drained :
    ¬ ∀ (tr : List EgressTransition) (s : EgressState),
        Run egressStep (EgressState.init 100) tr s → GapFree (eventsOf tr) := by
  intro hfree
  obtain ⟨tr, s, run, hremovals⟩ :=
    Run.exists_of_exec egressStep (EgressState.init 100)
      (drainActions ++ [.enqueue (numberedFrame 81 0), .dequeue])
      (fun r => (removals (eventsOf r.1)).drop 80 =
        [.cleaned (numberedFrame 80 0), .dequeued (numberedFrame 81 0)])
      (by decide +kernel)
  have hgap := (hfree tr s run).drop 80
  rw [hremovals, List.isChain_cons_cons] at hgap
  exact hgap.1 _ _ rfl rfl rfl

end KoalaStreamer
