import KoalaStreamer.CleanQueue
import KoalaStreamer.QueueInterleaving

/-!
# utils/mediaThread.cpp: an encoder stage between two queues

`mediaThread::run` calls `func` until the status is `threadStatusStop`: take a
frame from the input queue, hand it to `deal`, and offer the result to the
output queue until it is accepted or the thread is stopped.  The thread is
`none` in both queues; `some e` are the other threads, which work on the queues
as they please.  `start`, `pause` and `stop` come from a controlling thread at
any moment.

`deal` is an arbitrary stateful function from a frame to NULL or a frame.

Main result: `stage_transducer`, under the assumptions collected in
`StageAssumptions`; `stageAssumptions_of_cleanCallback` says that the cleaning
callbacks of the program meet the one on cleaners.
-/

namespace KoalaStreamer

open EventMachine

/-- `threadStatus`. -/
inductive ThreadStatus
  | null
  | runing
  | pause
  | stop
deriving DecidableEq, Repr

/-- Where the thread is in `run` and `func`. -/
inductive StagePc (T : Type)
  | notCreated
  /-- About to evaluate the loop condition of `run`. -/
  | runLoop
  /-- About to call `mFrameInputQueue->dequeue()`. -/
  | calling
  | dequeueing
  | dealing (pFrame : T)
  /-- About to call `mFrameOutPutQueue->enqueue(pFrame)`. -/
  | enqueueing (pFrame : T)
  | enqueueWaiting (pFrame : T)
  /-- `enqueue` has returned. -/
  | enqueued (pFrame : T) (ret : Int)
  | exited
deriving DecidableEq

structure StageState (Env δ T : Type) where
  input : QueueState (Option Env) T
  output : QueueState (Option Env) T
  mStatus : ThreadStatus
  pc : StagePc T
  /-- The state of `deal`. -/
  dealState : δ

inductive StageAction (Env σ T : Type)
  | start
  | pause
  | stop
  | inputOther (a : QueueAction (Option Env) σ T)
  | outputOther (a : QueueAction (Option Env) σ T)
  | loopHead
  | dequeue
  | dequeueWake (ret : Int)
  | deal
  | enqueue
  | enqueueWake (ret : Int)
  /-- `func` looks at the value that `enqueue` returned. -/
  | checkRet

inductive StageEvent (T : Type)
  | input (e : QueueEvent T)
  | output (e : QueueEvent T)
  /-- The thread took this frame from its input queue. -/
  | taken (pFrame : T)
  | released (pFrame : T)

/-- The thread that takes a step on a queue. -/
def QueueAction.thread {Tid σ T : Type} : QueueAction Tid σ T → Tid
  | .enqueue t _ => t
  | .enqueueWake t _ => t
  | .dequeue t => t
  | .dequeueWake t _ => t
  | .cleanIf t _ _ _ => t

section Stage

variable {Env δ σ T : Type} [DecidableEq Env]

def StageState.init (inCapacity outCapacity : ℕ) (dealState : δ) :
    StageState Env δ T where
  input := QueueState.init inCapacity
  output := QueueState.init outCapacity
  mStatus := .null
  pc := .notCreated
  dealState := dealState

/-- What the thread holds after a section of `dequeue`. -/
def afterDequeue (es : List (QueueEvent T)) : StagePc T × List T :=
  match es with
  | [.dequeueReturned (some pFrame)] => (.dealing pFrame, [pFrame])
  | [.dequeueReturned none] => (.runLoop, [])
  | _ => (.dequeueing, [])

/-- The value `enqueue` returned in a section, if it returned. -/
def enqueueRet (es : List (QueueEvent T)) : Option Int :=
  es.findSome? fun
    | .enqueueReturned _ _ ret => some ret
    | _ => none

/-- Where the thread is after a section of `enqueue`. -/
def afterEnqueue (pFrame : T) (es : List (QueueEvent T)) : StagePc T :=
  match enqueueRet es with
  | some ret => .enqueued pFrame ret
  | none => .enqueueWaiting pFrame

/-- A section of the thread's `dequeue` on the input queue. -/
def stageDequeue
    (s : StageState Env δ T)
    (r : Option (QueueState (Option Env) T × List (QueueEvent T))) :
    Option (StageState Env δ T × List (StageEvent T)) :=
  match r with
  | none => none
  | some (q, es) =>
      some ({ s with input := q, pc := (afterDequeue es).1 },
        es.map .input ++ (afterDequeue es).2.map .taken)

/-- A section of the thread's `enqueue` on the output queue. -/
def stageEnqueue
    (s : StageState Env δ T) (pFrame : T)
    (r : Option (QueueState (Option Env) T × List (QueueEvent T))) :
    Option (StageState Env δ T × List (StageEvent T)) :=
  match r with
  | none => none
  | some (q, es) =>
      some ({ s with output := q, pc := afterEnqueue pFrame es }, es.map .output)

/-- One step of the stage or of its environment. -/
def stageStep (dealFn : δ → T → Option T × δ) :
    Machine (StageState Env δ T) (StageAction Env σ T) (StageEvent T)
  | s, .start =>
      if s.mStatus = .null then
        some ({ s with mStatus := .runing, pc := .runLoop }, [])
      else
        some (s, [])
  | s, .pause =>
      if s.mStatus = .runing then
        some ({ s with mStatus := .pause }, [])
      else
        some (s, [])
  | s, .stop =>
      if s.mStatus = .pause ∨ s.mStatus = .runing then
        some ({ s with mStatus := .stop }, [])
      else
        some (s, [])
  | s, .inputOther a =>
      if a.thread = none then none
      else
        match queueStep s.input a with
        | none => none
        | some (q, es) => some ({ s with input := q }, es.map .input)
  | s, .outputOther a =>
      if a.thread = none then none
      else
        match queueStep s.output a with
        | none => none
        | some (q, es) => some ({ s with output := q }, es.map .output)
  | s, .loopHead =>
      match s.pc with
      | .runLoop =>
          if s.mStatus = .stop then some ({ s with pc := .exited }, [])
          else if s.mStatus = .pause then some (s, [])
          else some ({ s with pc := .calling }, [])
      | _ => none
  | s, .dequeue =>
      match s.pc with
      | .calling =>
          stageDequeue s (queueStep (σ := σ) s.input (.dequeue none))
      | _ => none
  | s, .dequeueWake ret =>
      match s.pc with
      | .dequeueing =>
          stageDequeue s (queueStep (σ := σ) s.input (.dequeueWake none ret))
      | _ => none
  | s, .deal =>
      match s.pc with
      | .dealing pFrame =>
          match dealFn s.dealState pFrame with
          | (none, st) => some ({ s with pc := .runLoop, dealState := st }, [])
          | (some y, st) =>
              some ({ s with pc := .enqueueing y, dealState := st }, [])
      | _ => none
  | s, .enqueue =>
      match s.pc with
      | .enqueueing pFrame =>
          stageEnqueue s pFrame
            (queueStep (σ := σ) s.output (.enqueue none pFrame))
      | _ => none
  | s, .enqueueWake ret =>
      match s.pc with
      | .enqueueWaiting pFrame =>
          stageEnqueue s pFrame
            (queueStep (σ := σ) s.output (.enqueueWake none ret))
      | _ => none
  | s, .checkRet =>
      match s.pc with
      | .enqueued pFrame ret =>
          if ret < 0 then
            if ret = -ETIMEDOUT ∧ s.mStatus ≠ .stop then
              some ({ s with pc := .enqueueing pFrame }, [])
            else
              some ({ s with pc := .runLoop }, [.released pFrame])
          else
            some ({ s with pc := .runLoop }, [])
      | _ => none

/-! ### Observations -/

/-- Frames the thread took from its input queue, in order. -/
def takenFrames (es : List (StageEvent T)) : List T :=
  es.filterMap fun
    | .taken pFrame => some pFrame
    | _ => none

/-- Frames the thread released after `deal` had returned them. -/
def releasedFrames (es : List (StageEvent T)) : List T :=
  es.filterMap fun
    | .released pFrame => some pFrame
    | _ => none

/-- Frames accepted into the output queue, in order. -/
def outputFrames (es : List (StageEvent T)) : List T :=
  acceptedFrames (es.filterMap fun
    | .output e => some e
    | _ => none)

@[simp] theorem takenFrames_append
    (es es' : List (StageEvent T)) :
    takenFrames (es ++ es') = takenFrames es ++ takenFrames es' := by
  simp [takenFrames]

@[simp] theorem releasedFrames_append
    (es es' : List (StageEvent T)) :
    releasedFrames (es ++ es') = releasedFrames es ++ releasedFrames es' := by
  simp [releasedFrames]

@[simp] theorem outputFrames_append
    (es es' : List (StageEvent T)) :
    outputFrames (es ++ es') = outputFrames es ++ outputFrames es' := by
  simp [outputFrames]

@[simp] theorem takenFrames_input
    (es : List (QueueEvent T)) :
    takenFrames (es.map StageEvent.input) = [] := by
  simp [takenFrames]

@[simp] theorem takenFrames_output
    (es : List (QueueEvent T)) :
    takenFrames (es.map StageEvent.output) = [] := by
  simp [takenFrames]

@[simp] theorem takenFrames_taken
    (xs : List T) :
    takenFrames (xs.map StageEvent.taken) = xs := by
  simp [takenFrames, List.filterMap_map]

@[simp] theorem releasedFrames_input
    (es : List (QueueEvent T)) :
    releasedFrames (es.map StageEvent.input) = [] := by
  simp [releasedFrames]

@[simp] theorem releasedFrames_output
    (es : List (QueueEvent T)) :
    releasedFrames (es.map StageEvent.output) = [] := by
  simp [releasedFrames]

@[simp] theorem releasedFrames_taken
    (xs : List T) :
    releasedFrames (xs.map StageEvent.taken) = [] := by
  simp [releasedFrames]

@[simp] theorem outputFrames_input
    (es : List (QueueEvent T)) :
    outputFrames (es.map StageEvent.input) = [] := by
  simp [outputFrames, acceptedFrames]

@[simp] theorem outputFrames_output
    (es : List (QueueEvent T)) :
    outputFrames (es.map StageEvent.output) = acceptedFrames es := by
  simp [outputFrames, List.filterMap_map]

@[simp] theorem outputFrames_taken
    (xs : List T) :
    outputFrames (xs.map StageEvent.taken) = [] := by
  simp [outputFrames, acceptedFrames]

/-- `deal` over a sequence of frames: its non-NULL results and its last state. -/
def dealRun (dealFn : δ → T → Option T × δ) : δ → List T → List T × δ
  | st, [] => ([], st)
  | st, x :: xs =>
      ((dealFn st x).1.toList ++ (dealRun dealFn (dealFn st x).2 xs).1,
        (dealRun dealFn (dealFn st x).2 xs).2)

theorem dealRun_append
    (dealFn : δ → T → Option T × δ) (xs ys : List T) :
    ∀ st, dealRun dealFn st (xs ++ ys) =
      ((dealRun dealFn st xs).1 ++
          (dealRun dealFn (dealRun dealFn st xs).2 ys).1,
        (dealRun dealFn (dealRun dealFn st xs).2 ys).2) := by
  induction xs with
  | nil =>
      intro st
      simp [dealRun]
  | cons x xs ih =>
      intro st
      simp [dealRun, ih]

/-- The results for a prefix of the input are a prefix of the results. -/
theorem dealRun_isPrefix
    (dealFn : δ → T → Option T × δ) (st : δ) (xs ys : List T) :
    (dealRun dealFn st xs).1 <+: (dealRun dealFn st (xs ++ ys)).1 := by
  rw [dealRun_append]
  exact List.prefix_append _ _

/-! ### Assumptions -/

/-- The thread waits in `enqueue` and was signalled since. -/
def QueuePc.signalledEnqueue : QueuePc T → Bool
  | .enqueueWait _ _ signalled => signalled
  | _ => false

/-- A step of the stage. -/
abbrev StageTransition (Env δ σ T : Type) :=
  Transition (StageState Env δ T) (StageAction Env σ T) (StageEvent T)

/--
What the environment of the stage owes it, step by step:
* the wait in `enqueue` ends with a time-out, or with 0 after `push_cond` was
  signalled during the wait;
* no other thread enqueues into the output queue;
* a cleaner of the output queue removes a frame when there is one.
-/
def StageAssumptions (τ : StageTransition Env δ σ T) : Prop :=
  match τ.action with
  | .enqueueWake ret =>
      ret = ETIMEDOUT ∨
        (ret = 0 ∧ (τ.src.output.pc none).signalledEnqueue = true)
  | .outputOther (.enqueue _ _) => False
  | .outputOther (.cleanIf _ _ _ _) =>
      τ.src.output.queue.contents ≠ [] →
        τ.dst.output.queue.contents.length <
          τ.src.output.queue.contents.length
  | _ => True

instance (τ : StageTransition Env δ σ T) [DecidableEq T] :
    Decidable (StageAssumptions τ) := by
  unfold StageAssumptions
  split <;> infer_instance

/-- The cleaners of the device thread owe nothing more: called with count 0, both
callbacks meet the assumption on cleaners. -/
theorem stageAssumptions_of_cleanCallback
    {dealFn : δ → T → Option T × δ} {τ : StageTransition Env δ Int T}
    {flag : T → Int} {func : CleanIt Int T} {t : Option Env} {passes : ℕ}
    (hτ : τ.Valid (stageStep dealFn))
    (haction : τ.action = .outputOther (.cleanIf t (some func) 0 passes))
    (hfunc : func = myCleanQueueV flag ∨ func = myCleanQueueA) :
    StageAssumptions τ := by
  obtain ⟨s, a, es, s'⟩ := τ
  obtain rfl : a = .outputOther (.cleanIf t (some func) 0 passes) := haction
  intro hne
  have hstep : stageStep dealFn s
      (.outputOther (.cleanIf t (some func) 0 passes)) = some (s', es) := hτ
  simp only [stageStep] at hstep
  split at hstep
  · cases hstep
  · cases hq : queueStep s.output (.cleanIf t (some func) 0 passes) with
    | none =>
        simp [hq] at hstep
    | some r =>
        obtain ⟨q, qes⟩ := r
        simp only [hq, Option.some.injEq, Prod.mk.injEq] at hstep
        obtain ⟨rfl, rfl⟩ := hstep
        cases queueStep_move hq with
        | cleaned _ _ _ arg' _ rs q' hidle hloop =>
            exact cleanLoop_cleaned_shrinks hfunc hloop hne

/-! ### A queue with one producer -/

/-- Only the thread `none` waits in `enqueue`, and if it was signalled there
is room for its frame. -/
structure SingleProducer (q : QueueState (Option Env) T) : Prop where
  others : ∀ e call y b, q.pc (some e) ≠ .enqueueWait call y b
  room : ∀ call y, q.pc none = .enqueueWait call y true →
    q.queue.contents.length < q.queue.capacity

/-- After a `get` there is room. -/
theorem dequeueGet_room
    (q : FiFo T) (hcap : 1 ≤ q.capacity) :
    (dequeueGet q).queue.contents.length < (dequeueGet q).queue.capacity := by
  have hle := q.length_le
  simp only [dequeueGet, FiFo.contents_get, FiFo.capacity_get, List.length_tail]
  omega

/-- A section of `dequeue` by another thread. -/
theorem SingleProducer.finishDequeue
    {q : QueueState (Option Env) T} {e : Env} {d : DequeueExit T}
    (hq : SingleProducer q)
    (hroom : d.signal = some .pushCond →
      d.queue.contents.length < d.queue.capacity)
    (hquiet : d.signal ≠ some .pushCond → d.queue = q.queue) :
    SingleProducer (finishDequeue q (some e) d).1 ∧
    ∀ call y b, (KoalaStreamer.finishDequeue q (some e) d).1.pc none =
        .enqueueWait call y b → ∃ b', q.pc none = .enqueueWait call y b' := by
  have hback : ∀ t call y b,
      (KoalaStreamer.finishDequeue q (some e) d).1.pc t = .enqueueWait call y b →
      ∃ b', q.pc t = .enqueueWait call y b' ∧
        (d.signal ≠ some .pushCond → b' = b) := by
    intro t call y b h
    obtain ⟨b', hb, hsig⟩ := signalThreads_enqueueWait h
    by_cases ht : t = some e
    · subst ht
      simp at hb
    · rw [Function.update_of_ne ht] at hb
      exact ⟨b', hb, hsig⟩
  refine ⟨⟨?_, ?_⟩, ?_⟩
  · intro e' call y b h
    obtain ⟨b', hb, _⟩ := hback _ _ _ _ h
    exact hq.others e' call y b' hb
  · intro call y h
    obtain ⟨b', hb, hsig⟩ := hback _ _ _ _ h
    by_cases hs : d.signal = some .pushCond
    · exact hroom hs
    · rw [hsig hs] at hb
      have := hq.room call y hb
      rw [← hquiet hs] at this
      exact this
  · intro call y b h
    obtain ⟨b', hb, _⟩ := hback _ _ _ _ h
    exact ⟨b', hb⟩

/-- A `dequeue` that signals after its wait has left room. -/
theorem dequeueWake_room
    {q : FiFo T} {ret : Int} (hcap : 1 ≤ q.capacity)
    (h : (dequeueWake q ret).signal = some .pushCond) :
    (dequeueWake q ret).queue.contents.length <
      (dequeueWake q ret).queue.capacity := by
  simp only [dequeueWake] at h ⊢
  split at h
  · cases h
  · rename_i hret
    rw [if_neg hret]
    exact dequeueGet_room q hcap

/-- A `dequeue` that does not signal after its wait has timed out. -/
theorem dequeueWake_quiet
    {q : FiFo T} {ret : Int}
    (h : (dequeueWake q ret).signal ≠ some .pushCond) :
    (dequeueWake q ret).queue = q := by
  simp only [dequeueWake] at h ⊢
  split
  · rfl
  · rename_i hret
    rw [if_neg hret] at h
    exact absurd rfl h

/-- A step of another thread that does not enqueue: nothing is accepted, the
producer stays where it is, and a signal leaves room. -/
theorem singleProducer_other
    {q q' : QueueState (Option Env) T} {a : QueueAction (Option Env) σ T}
    {es : List (QueueEvent T)}
    (hq : SingleProducer q)
    (hcap : 1 ≤ q.queue.capacity)
    (hstep : queueStep q a = some (q', es))
    (hthread : a.thread ≠ none)
    (hproducer : ∀ t y, a ≠ .enqueue t y)
    (hcleaner : ∀ t func arg passes, a = .cleanIf t func arg passes →
      q.queue.contents ≠ [] →
      q'.queue.contents.length < q.queue.contents.length) :
    SingleProducer q' ∧ acceptedFrames es = [] ∧
    ∀ call y b, q'.pc none = .enqueueWait call y b →
      ∃ b', q.pc none = .enqueueWait call y b' := by
  cases queueStep_move hstep with
  | enqueueWaits t pFrame hidle hfull =>
      exact absurd rfl (hproducer t pFrame)
  | enqueueDone t pFrame hidle hroom =>
      exact absurd rfl (hproducer t pFrame)
  | enqueueWoken t ret call pFrame sig hwait =>
      obtain ⟨e, rfl⟩ := Option.ne_none_iff_exists'.mp hthread
      exact absurd hwait (hq.others e call pFrame sig)
  | dequeueWaits t hidle hempty =>
      obtain ⟨e, rfl⟩ := Option.ne_none_iff_exists'.mp hthread
      refine ⟨⟨?_, ?_⟩, by simp [acceptedFrames], ?_⟩
      · intro e' call y b h
        by_cases he : e' = e
        · subst he
          simp at h
        · exact hq.others e' call y b
            (by simpa [Function.update_of_ne, he] using h)
      · intro call y h
        exact hq.room call y (by simpa [Function.update_of_ne] using h)
      · intro call y b h
        exact ⟨b, by simpa [Function.update_of_ne] using h⟩
  | dequeueDone t hidle hne =>
      obtain ⟨e, rfl⟩ := Option.ne_none_iff_exists'.mp hthread
      obtain ⟨hsp, hpc⟩ := hq.finishDequeue (e := e) (d := dequeueGet q.queue)
        (fun _ => dequeueGet_room q.queue hcap)
        (fun h => absurd rfl h)
      exact ⟨hsp, by simp [finishDequeue, acceptedFrames], hpc⟩
  | dequeueWoken t ret sig hwait =>
      obtain ⟨e, rfl⟩ := Option.ne_none_iff_exists'.mp hthread
      obtain ⟨hsp, hpc⟩ := hq.finishDequeue (e := e)
        (d := dequeueWake q.queue ret)
        (dequeueWake_room hcap) dequeueWake_quiet
      exact ⟨hsp, by simp [finishDequeue, acceptedFrames], hpc⟩
  | cleaned t func arg arg' passes rs q₁ hidle hloop =>
      obtain ⟨hc, hcapq⟩ := cleanLoop_contents hloop
      have hroom : q₁.contents.length < q₁.capacity := by
        rw [hcapq]
        by_cases hne : q.queue.contents = []
        · rw [hne, List.append_eq_nil_iff] at hc
          rw [hc.2]
          exact hcap
        · have hlt := hcleaner t func arg passes rfl hne
          exact lt_of_lt_of_le hlt q.queue.length_le
      refine ⟨⟨?_, ?_⟩, by simp, ?_⟩
      · intro e call y b h
        obtain ⟨b', hb, _⟩ := signalThreads_enqueueWait h
        exact hq.others e call y b' hb
      · intro call y _
        exact hroom
      · intro call y b h
        obtain ⟨b', hb, _⟩ := signalThreads_enqueueWait h
        exact ⟨b', hb⟩

theorem enqueueRet_finishEnqueue
    (q : QueueState (Option Env) T) (t : Option Env) (call next : ℕ) (y : T)
    (e : EnqueueExit T) :
    enqueueRet (finishEnqueue q t call next y e).2 = some e.ret := by
  simp only [finishEnqueue, EnqueueExit.stored, enqueueRet]
  split <;> simp

/-- A section of the producer's `enqueue` that returns. -/
theorem SingleProducer.finishEnqueue
    {q : QueueState (Option Env) T} {call next : ℕ} {y : T} {e : EnqueueExit T}
    (hq : SingleProducer q) :
    SingleProducer (finishEnqueue q none call next y e).1 := by
  constructor
  · intro e' c z b h
    obtain ⟨b', hb, _⟩ := signalThreads_enqueueWait h
    rw [Function.update_of_ne (by simp)] at hb
    exact hq.others e' c z b' hb
  · intro c z h
    obtain ⟨b', hb, _⟩ := signalThreads_enqueueWait h
    simp at hb

/-- The producer enters `enqueue`: it waits, or its frame is accepted. -/
theorem singleProducer_enqueue
    {q q' : QueueState (Option Env) T} {y : T} {es : List (QueueEvent T)}
    (hq : SingleProducer q)
    (hstep : queueStep (σ := σ) q (.enqueue none y) = some (q', es)) :
    SingleProducer q' ∧
    ((enqueueRet es = none ∧ acceptedFrames es = [] ∧
        ∀ c z b, q'.pc none = .enqueueWait c z b → z = y) ∨
      (enqueueRet es = some 0 ∧ acceptedFrames es = [y])) := by
  cases queueStep_move hstep with
  | enqueueWaits _ _ hidle hfull =>
      refine ⟨⟨?_, ?_⟩, Or.inl ⟨rfl, rfl, ?_⟩⟩
      · intro e c z b h
        exact hq.others e c z b (by simpa [Function.update_of_ne] using h)
      · intro c z h
        simp at h
      · intro c z b h
        simp only [Function.update_self, QueuePc.enqueueWait.injEq] at h
        exact h.2.1.symm
  | enqueueDone _ _ hidle hroom =>
      refine ⟨hq.finishEnqueue, Or.inr ⟨enqueueRet_finishEnqueue _ _ _ _ _ _, ?_⟩⟩
      rw [acceptedFrames_finishEnqueue]
      simp [EnqueueExit.stored, (enqueuePut_room y hroom).1]

/-- The producer comes back from its wait: a time-out, or its frame is
accepted because a signal left room and nobody else has used it. -/
theorem singleProducer_wake
    {q q' : QueueState (Option Env) T} {y : T} {ret : Int}
    {es : List (QueueEvent T)}
    (hq : SingleProducer q)
    (hmine : ∀ c z b, q.pc none = .enqueueWait c z b → z = y)
    (hwait : ret = ETIMEDOUT ∨
      (ret = 0 ∧ (q.pc none).signalledEnqueue = true))
    (hstep : queueStep (σ := σ) q (.enqueueWake none ret) = some (q', es)) :
    SingleProducer q' ∧
    ((enqueueRet es = some (-ETIMEDOUT) ∧ acceptedFrames es = []) ∨
      (enqueueRet es = some 0 ∧ acceptedFrames es = [y])) := by
  cases queueStep_move hstep with
  | enqueueWoken _ _ call z sig hpc =>
      obtain rfl := hmine call z sig hpc
      refine ⟨hq.finishEnqueue, ?_⟩
      rw [enqueueRet_finishEnqueue, acceptedFrames_finishEnqueue]
      rcases hwait with rfl | ⟨rfl, hsig⟩
      · exact Or.inl (by simp [EnqueueExit.stored])
      · rw [hpc] at hsig
        obtain rfl : sig = true := hsig
        have hroom : q.queue.isFull = false :=
          (FiFo.isFull_eq_false_iff _).mpr (hq.room call z hpc)
        rw [enqueueWake_of_ne q.queue z (by decide)]
        simp [EnqueueExit.stored, (enqueuePut_room z hroom).1]

/-! ### The invariant of the stage -/

/-- The frame taken from the input queue that `deal` has not seen yet. -/
def StagePc.toDeal : StagePc T → List T
  | .dealing x => [x]
  | _ => []

/-- The result of `deal` that is still to be enqueued or released. -/
def StagePc.inHand : StagePc T → List T
  | .enqueueing y => [y]
  | .enqueueWaiting y => [y]
  | .enqueued y ret => if ret = 0 then [] else [y]
  | _ => []

/-- What holds in every state of a run of the stage. -/
structure StageInv
    (dealFn : δ → T → Option T × δ) (st₀ : δ) (capacity : ℕ)
    (es : List (StageEvent T)) (s : StageState Env δ T) : Prop where
  /-- Results are accepted, released or in hand, in this order. -/
  ledger : ∃ dealt, takenFrames es = dealt ++ s.pc.toDeal ∧
    dealRun dealFn st₀ dealt =
      (outputFrames es ++ releasedFrames es ++ s.pc.inHand, s.dealState)
  producer : SingleProducer s.output
  capacity : s.output.queue.capacity = capacity
  mine : ∀ y, s.pc = .enqueueWaiting y →
    ∀ c z b, s.output.pc none = .enqueueWait c z b → z = y
  ret : ∀ y ret, s.pc = .enqueued y ret → ret = 0 ∨ ret = -ETIMEDOUT
  fresh : s.mStatus = .null → s.pc = .notCreated
  exited : s.pc = .exited → s.mStatus = .stop
  released : releasedFrames es = [] ∨
    ((∃ y, releasedFrames es = [y]) ∧ s.mStatus = .stop ∧
      (s.pc = .runLoop ∨ s.pc = .exited))

section Steps

variable {dealFn : δ → T → Option T × δ} {st₀ : δ} {capacity : ℕ}
  {es : List (StageEvent T)} {s : StageState Env δ T}

omit [DecidableEq Env] in
/-- Nothing was released while the thread is inside `func`. -/
theorem StageInv.released_nil
    (h : StageInv dealFn st₀ capacity es s)
    (hloop : s.pc ≠ .runLoop) (hexit : s.pc ≠ .exited) :
    releasedFrames es = [] := by
  rcases h.released with hr | ⟨_, _, hpc | hpc⟩
  · exact hr
  · exact absurd hpc hloop
  · exact absurd hpc hexit

omit [DecidableEq Env] in
/-- A thread that was created has a status. -/
theorem StageInv.not_null
    (h : StageInv dealFn st₀ capacity es s) (hpc : s.pc ≠ .notCreated) :
    s.mStatus ≠ .null :=
  fun hnull => hpc (h.fresh hnull)

omit [DecidableEq Env] in
/-- A step of the thread itself that only moves the program counter. -/
theorem StageInv.move
    {pc : StagePc T}
    (h : StageInv dealFn st₀ capacity es s)
    (hdeal : pc.toDeal = s.pc.toDeal)
    (hhand : pc.inHand = s.pc.inHand)
    (hmine : ∀ y, pc ≠ .enqueueWaiting y)
    (hret : ∀ y ret, pc ≠ .enqueued y ret)
    (hnull : s.mStatus ≠ .null)
    (hexited : pc = .exited → s.mStatus = .stop)
    (hreleased : releasedFrames es = [] ∨ pc = .exited) :
    StageInv dealFn st₀ capacity es { s with pc := pc } where
  ledger := by
    rw [hdeal, hhand]
    exact h.ledger
  producer := h.producer
  capacity := h.capacity
  mine := fun y hy => absurd hy (hmine y)
  ret := fun y ret hy => absurd hy (hret y ret)
  fresh := fun hn => absurd hn hnull
  exited := hexited
  released := by
    rcases h.released with hr | ⟨hr, hst, _⟩
    · exact Or.inl hr
    · rcases hreleased with hr' | hpc
      · exact Or.inl hr'
      · exact Or.inr ⟨hr, hst, Or.inr hpc⟩

omit [DecidableEq Env] in
/-- `start`, `pause` and `stop`. -/
theorem StageInv.status
    {a : StageAction Env σ T} {s' : StageState Env δ T}
    {es' : List (StageEvent T)} [DecidableEq Env]
    (h : StageInv dealFn st₀ capacity es s)
    (ha : a = .start ∨ a = .pause ∨ a = .stop)
    (hstep : stageStep dealFn s a = some (s', es')) :
    StageInv dealFn st₀ capacity (es ++ es') s' := by
  rcases ha with rfl | rfl | rfl
  · simp only [stageStep] at hstep
    split at hstep <;> cases hstep <;> rw [List.append_nil]
    · rename_i hnull
      have hpc := h.fresh hnull
      have hr := h.released_nil (by simp [hpc]) (by simp [hpc])
      have hledger := h.ledger
      rw [hpc] at hledger
      exact ⟨hledger, h.producer, h.capacity, by simp, by simp, by simp,
        by simp, Or.inl hr⟩
    · exact h
  · simp only [stageStep] at hstep
    split at hstep <;> cases hstep <;> rw [List.append_nil]
    · rename_i hrun
      refine ⟨h.ledger, h.producer, h.capacity, h.mine, h.ret, by simp, ?_, ?_⟩
      · intro hpc
        have := h.exited hpc
        simp [hrun] at this
      · rcases h.released with hr | ⟨_, hst, _⟩
        · exact Or.inl hr
        · simp [hrun] at hst
    · exact h
  · simp only [stageStep] at hstep
    split at hstep <;> cases hstep <;> rw [List.append_nil]
    · refine ⟨h.ledger, h.producer, h.capacity, h.mine, h.ret, by simp,
        fun _ => rfl, ?_⟩
      rcases h.released with hr | ⟨hr, _, hpc⟩
      · exact Or.inl hr
      · exact Or.inr ⟨hr, rfl, hpc⟩
    · exact h

/-- A step of another thread on the input queue. -/
theorem StageInv.inputOther
    {a : QueueAction (Option Env) σ T} {s' : StageState Env δ T}
    {es' : List (StageEvent T)}
    (h : StageInv dealFn st₀ capacity es s)
    (hstep : stageStep dealFn s (.inputOther a) = some (s', es')) :
    StageInv dealFn st₀ capacity (es ++ es') s' := by
  simp only [stageStep] at hstep
  split at hstep
  · cases hstep
  · split at hstep
    · cases hstep
    · cases hstep
      obtain ⟨dealt, htaken, hrun⟩ := h.ledger
      refine ⟨⟨dealt, by simpa using htaken, by simpa using hrun⟩, h.producer,
        h.capacity, h.mine, h.ret, h.fresh, h.exited, ?_⟩
      simpa using h.released

/-- A step of another thread on the output queue. -/
theorem StageInv.outputOther
    {a : QueueAction (Option Env) σ T} {s' : StageState Env δ T}
    {es' : List (StageEvent T)}
    (h : StageInv dealFn st₀ capacity es s)
    (hcap : 1 ≤ capacity)
    (hstep : stageStep dealFn s (.outputOther a) = some (s', es'))
    (hass : StageAssumptions ⟨s, .outputOther a, es', s'⟩) :
    StageInv dealFn st₀ capacity (es ++ es') s' := by
  simp only [stageStep] at hstep
  split at hstep
  · cases hstep
  · rename_i hthread
    cases hq : queueStep s.output a with
    | none =>
        simp [hq] at hstep
    | some r =>
        obtain ⟨q', qes⟩ := r
        simp only [hq, Option.some.injEq, Prod.mk.injEq] at hstep
        obtain ⟨rfl, rfl⟩ := hstep
        obtain ⟨hsp, hacc, hpc⟩ := singleProducer_other h.producer
          (by rw [h.capacity]; exact hcap) hq hthread
          (by rintro t y rfl; exact hass)
          (by rintro t func arg passes rfl; exact hass)
        obtain ⟨dealt, htaken, hrun⟩ := h.ledger
        refine ⟨⟨dealt, by simpa using htaken, by simpa [hacc] using hrun⟩, hsp,
          ?_, ?_, h.ret, h.fresh, h.exited, by simpa using h.released⟩
        · exact (queueStep_conserves hq).2.trans h.capacity
        · intro y hy c z b hz
          obtain ⟨b', hb⟩ := hpc c z b hz
          exact h.mine y hy c z b' hb

omit [DecidableEq Env] in
/-- A section of the thread's `dequeue`. -/
theorem StageInv.stageDequeue
    {r : Option (QueueState (Option Env) T × List (QueueEvent T))}
    {s' : StageState Env δ T} {es' : List (StageEvent T)}
    (h : StageInv dealFn st₀ capacity es s)
    (hpc : s.pc = .calling ∨ s.pc = .dequeueing)
    (hstep : stageDequeue s r = some (s', es')) :
    StageInv dealFn st₀ capacity (es ++ es') s' := by
  have hdeal : s.pc.toDeal = [] := by
    rcases hpc with hpc | hpc <;> simp [hpc, StagePc.toDeal]
  have hhand : s.pc.inHand = [] := by
    rcases hpc with hpc | hpc <;> simp [hpc, StagePc.inHand]
  have hr : releasedFrames es = [] := by
    rcases hpc with hpc | hpc <;>
      exact h.released_nil (by simp [hpc]) (by simp [hpc])
  have hnull : s.mStatus ≠ .null := by
    rcases hpc with hpc | hpc <;> exact h.not_null (by simp [hpc])
  cases r with
  | none =>
      simp [KoalaStreamer.stageDequeue] at hstep
  | some r =>
      obtain ⟨q, qes⟩ := r
      simp only [KoalaStreamer.stageDequeue, Option.some.injEq,
        Prod.mk.injEq] at hstep
      obtain ⟨rfl, rfl⟩ := hstep
      have hafter : (afterDequeue qes).1.toDeal = (afterDequeue qes).2 ∧
          (afterDequeue qes).1.inHand = [] ∧
          (∀ y, (afterDequeue qes).1 ≠ .enqueueWaiting y) ∧
          (∀ y ret, (afterDequeue qes).1 ≠ .enqueued y ret) ∧
          (afterDequeue qes).1 ≠ .exited := by
        simp only [afterDequeue]
        split <;> simp [StagePc.toDeal, StagePc.inHand]
      obtain ⟨h₁, h₂, h₃, h₄, h₅⟩ := hafter
      obtain ⟨dealt, htaken, hrun⟩ := h.ledger
      rw [hdeal, List.append_nil] at htaken
      rw [hhand] at hrun
      refine ⟨⟨dealt, ?_, ?_⟩, h.producer, h.capacity,
        fun y hy => absurd hy (h₃ y), fun y ret hy => absurd hy (h₄ y ret),
        fun hn => absurd hn hnull, fun hx => absurd hx h₅, Or.inl ?_⟩
      · simp [htaken, h₁]
      · simpa [h₂] using hrun
      · simpa using hr

omit [DecidableEq Env] in
/-- `deal` turns the frame it is given into its result. -/
theorem StageInv.dealt
    {x : T} (pc : StagePc T)
    (h : StageInv dealFn st₀ capacity es s)
    (hpc : s.pc = .dealing x)
    (hdeal : pc.toDeal = [])
    (hhand : pc.inHand = (dealFn s.dealState x).1.toList)
    (hmine : ∀ y, pc ≠ .enqueueWaiting y)
    (hret : ∀ y ret, pc ≠ .enqueued y ret)
    (hexited : pc ≠ .exited) :
    StageInv dealFn st₀ capacity es
      { s with pc := pc, dealState := (dealFn s.dealState x).2 } where
  ledger := by
    obtain ⟨dealt, htaken, hrun⟩ := h.ledger
    simp only [hpc, StagePc.toDeal, StagePc.inHand] at htaken hrun
    refine ⟨dealt ++ [x], by rw [htaken, hdeal, List.append_nil], ?_⟩
    rw [dealRun_append, hrun]
    simp [dealRun, hhand]
  producer := h.producer
  capacity := h.capacity
  mine := fun y hy => absurd hy (hmine y)
  ret := fun y ret hy => absurd hy (hret y ret)
  fresh := fun hnull => absurd hnull (h.not_null (by simp [hpc]))
  exited := fun hx => absurd hx hexited
  released := Or.inl (h.released_nil (by simp [hpc]) (by simp [hpc]))

omit [DecidableEq Env] in
/-- A section of the thread's `enqueue`: still waiting, timed out, or the
frame went into the output queue. -/
theorem StageInv.enqueueSection
    {y : T} {q : QueueState (Option Env) T} {qes : List (QueueEvent T)}
    (h : StageInv dealFn st₀ capacity es s)
    (hpc : s.pc = .enqueueing y ∨ s.pc = .enqueueWaiting y)
    (hsp : SingleProducer q)
    (hcapq : q.queue.capacity = s.output.queue.capacity)
    (hout : (enqueueRet qes = none ∧ acceptedFrames qes = [] ∧
        ∀ c z b, q.pc none = .enqueueWait c z b → z = y) ∨
      (enqueueRet qes = some (-ETIMEDOUT) ∧ acceptedFrames qes = []) ∨
      (enqueueRet qes = some 0 ∧ acceptedFrames qes = [y])) :
    StageInv dealFn st₀ capacity (es ++ qes.map .output)
      { s with output := q, pc := afterEnqueue y qes } := by
  have hdeal : s.pc.toDeal = [] := by
    rcases hpc with hpc | hpc <;> simp [hpc, StagePc.toDeal]
  have hhand : s.pc.inHand = [y] := by
    rcases hpc with hpc | hpc <;> simp [hpc, StagePc.inHand]
  have hr : releasedFrames es = [] := by
    rcases hpc with hpc | hpc <;>
      exact h.released_nil (by simp [hpc]) (by simp [hpc])
  have hnull : s.mStatus ≠ .null := by
    rcases hpc with hpc | hpc <;> exact h.not_null (by simp [hpc])
  obtain ⟨dealt, htaken, hrun⟩ := h.ledger
  rw [hdeal] at htaken
  rw [hhand, hr, List.append_nil] at hrun
  have hafter : ∀ ret, enqueueRet qes = some ret →
      afterEnqueue y qes = .enqueued y ret := by
    intro ret hret
    simp [afterEnqueue, hret]
  have hcap' := hcapq.trans h.capacity
  rcases hout with ⟨hret, hacc, hz⟩ | ⟨hret, hacc⟩ | ⟨hret, hacc⟩
  · have hwait : afterEnqueue y qes = .enqueueWaiting y := by
      simp [afterEnqueue, hret]
    rw [hwait]
    refine ⟨⟨dealt, by simpa [StagePc.toDeal] using htaken, ?_⟩, hsp, hcap', ?_, by simp,
      fun hn => absurd hn hnull, by simp, Or.inl (by simpa using hr)⟩
    · simpa [hacc, hr, StagePc.inHand] using hrun
    · intro y' hy'
      cases hy'
      exact hz
  · rw [hafter _ hret]
    refine ⟨⟨dealt, by simpa [StagePc.toDeal] using htaken, ?_⟩, hsp, hcap', by simp, ?_,
      fun hn => absurd hn hnull, by simp, Or.inl (by simpa using hr)⟩
    · simpa [hacc, hr, StagePc.inHand, show ETIMEDOUT ≠ 0 by decide]
        using hrun
    · intro y' ret' hy'
      cases hy'
      exact Or.inr rfl
  · rw [hafter _ hret]
    refine ⟨⟨dealt, by simpa [StagePc.toDeal] using htaken, ?_⟩, hsp, hcap', by simp, ?_,
      fun hn => absurd hn hnull, by simp, Or.inl (by simpa using hr)⟩
    · simpa [hacc, hr, StagePc.inHand] using hrun
    · intro y' ret' hy'
      cases hy'
      exact Or.inl rfl

/-- `func` looks at the value `enqueue` returned: done, retry, or release. -/
theorem StageInv.checkRet
    {s' : StageState Env δ T} {es' : List (StageEvent T)}
    (h : StageInv dealFn st₀ capacity es s)
    (hstep : stageStep (σ := σ) dealFn s .checkRet = some (s', es')) :
    StageInv dealFn st₀ capacity (es ++ es') s' := by
  cases hpc : s.pc with
  | enqueued y ret =>
      simp only [stageStep, hpc] at hstep
      have hr : releasedFrames es = [] :=
        h.released_nil (by simp [hpc]) (by simp [hpc])
      have hnull : s.mStatus ≠ .null := h.not_null (by simp [hpc])
      rcases h.ret y ret hpc with rfl | rfl
      · simp only [lt_irrefl, if_false, Option.some.injEq, Prod.mk.injEq] at hstep
        obtain ⟨rfl, rfl⟩ := hstep
        rw [List.append_nil]
        exact h.move (by simp [hpc, StagePc.toDeal])
          (by simp [hpc, StagePc.inHand]) (by simp) (by simp) hnull (by simp)
          (Or.inl hr)
      · rw [if_pos (by decide)] at hstep
        by_cases hst : s.mStatus = .stop
        · simp only [hst, ne_eq, not_true_eq_false, and_false, if_false,
            Option.some.injEq, Prod.mk.injEq] at hstep
          obtain ⟨rfl, rfl⟩ := hstep
          obtain ⟨dealt, htaken, hrun⟩ := h.ledger
          simp only [hpc, StagePc.toDeal, StagePc.inHand, hr,
            List.append_nil] at htaken hrun
          refine ⟨⟨dealt, ?_, ?_⟩, h.producer, h.capacity, by simp, by simp,
            by simp, by simp, Or.inr ⟨⟨y, ?_⟩, rfl, Or.inl rfl⟩⟩
          · simpa [takenFrames, StagePc.toDeal] using htaken
          · rw [hrun, outputFrames_append, releasedFrames_append, hr]
            simp [outputFrames, releasedFrames, acceptedFrames, StagePc.inHand,
              show ETIMEDOUT ≠ 0 by decide]
          · rw [releasedFrames_append, hr]
            rfl
        · simp only [hst, ne_eq, not_false_eq_true, and_self, if_true,
            Option.some.injEq, Prod.mk.injEq] at hstep
          obtain ⟨rfl, rfl⟩ := hstep
          rw [List.append_nil]
          exact h.move (by simp [hpc, StagePc.toDeal])
            (by simp [hpc, StagePc.inHand, show ETIMEDOUT ≠ 0 by decide])
            (by simp) (by simp) hnull (by simp) (Or.inl hr)
  | _ =>
      simp [stageStep, hpc] at hstep

/-- Every step that meets the assumptions keeps the invariant. -/
theorem stageStep_inv
    {a : StageAction Env σ T} {s' : StageState Env δ T}
    {es' : List (StageEvent T)}
    (hcap : 1 ≤ capacity)
    (h : StageInv dealFn st₀ capacity es s)
    (hstep : stageStep dealFn s a = some (s', es'))
    (hass : StageAssumptions ⟨s, a, es', s'⟩) :
    StageInv dealFn st₀ capacity (es ++ es') s' := by
  cases a with
  | start =>
      exact h.status (Or.inl rfl) hstep
  | pause =>
      exact h.status (Or.inr (Or.inl rfl)) hstep
  | stop =>
      exact h.status (Or.inr (Or.inr rfl)) hstep
  | inputOther a =>
      exact h.inputOther hstep
  | outputOther a =>
      exact h.outputOther hcap hstep hass
  | loopHead =>
      simp only [stageStep] at hstep
      split at hstep
      · rename_i hpc
        have hnull : s.mStatus ≠ .null := h.not_null (by simp [hpc])
        split at hstep
        · rename_i hst
          cases hstep
          rw [List.append_nil]
          exact h.move (by simp [hpc, StagePc.toDeal])
            (by simp [hpc, StagePc.inHand]) (by simp) (by simp) hnull
            (fun _ => hst) (Or.inr rfl)
        · rename_i hst
          split at hstep
          · cases hstep
            rw [List.append_nil]
            exact h
          · cases hstep
            rw [List.append_nil]
            refine h.move (by simp [hpc, StagePc.toDeal])
              (by simp [hpc, StagePc.inHand]) (by simp) (by simp) hnull
              (by simp) (Or.inl ?_)
            rcases h.released with hr | ⟨_, hst', _⟩
            · exact hr
            · exact absurd hst' hst
      · cases hstep
  | dequeue =>
      simp only [stageStep] at hstep
      split at hstep
      · rename_i hpc
        exact h.stageDequeue (Or.inl hpc) hstep
      · cases hstep
  | dequeueWake ret =>
      simp only [stageStep] at hstep
      split at hstep
      · rename_i hpc
        exact h.stageDequeue (Or.inr hpc) hstep
      · cases hstep
  | deal =>
      simp only [stageStep] at hstep
      split at hstep
      · rename_i x hpc
        split at hstep <;> rename_i hd <;> cases hstep <;> rw [List.append_nil]
        · have := h.dealt .runLoop hpc rfl (by simp [hd, StagePc.inHand])
            (by simp) (by simp) (by simp)
          rw [hd] at this
          exact this
        · have := h.dealt (.enqueueing _) hpc rfl
            (by simp [hd, StagePc.inHand]; rfl) (by simp) (by simp) (by simp)
          rw [hd] at this
          exact this
      · cases hstep
  | enqueue =>
      simp only [stageStep] at hstep
      split at hstep
      · rename_i y hpc
        cases hq : queueStep (σ := σ) s.output (.enqueue none y) with
        | none =>
            simp [hq, stageEnqueue] at hstep
        | some r =>
            obtain ⟨q, qes⟩ := r
            simp only [hq, stageEnqueue, Option.some.injEq,
              Prod.mk.injEq] at hstep
            obtain ⟨rfl, rfl⟩ := hstep
            obtain ⟨hsp, hout⟩ := singleProducer_enqueue h.producer hq
            refine h.enqueueSection (Or.inl hpc) hsp (queueStep_conserves hq).2 ?_
            rcases hout with hout | hout
            · exact Or.inl hout
            · exact Or.inr (Or.inr hout)
      · cases hstep
  | enqueueWake ret =>
      simp only [stageStep] at hstep
      split at hstep
      · rename_i y hpc
        cases hq : queueStep (σ := σ) s.output (.enqueueWake none ret) with
        | none =>
            simp [hq, stageEnqueue] at hstep
        | some r =>
            obtain ⟨q, qes⟩ := r
            simp only [hq, stageEnqueue, Option.some.injEq,
              Prod.mk.injEq] at hstep
            obtain ⟨rfl, rfl⟩ := hstep
            obtain ⟨hsp, hout⟩ :=
              singleProducer_wake h.producer (h.mine y hpc) hass hq
            exact h.enqueueSection (Or.inr hpc) hsp (queueStep_conserves hq).2
              (Or.inr hout)
      · cases hstep
  | checkRet =>
      exact h.checkRet hstep

omit [DecidableEq Env] in
/-- The invariant holds at the start. -/
theorem stageInv_init
    (inCapacity : ℕ) :
    StageInv dealFn st₀ capacity []
      (StageState.init inCapacity capacity st₀ : StageState Env δ T) where
  ledger := ⟨[], rfl, rfl⟩
  producer := ⟨by simp [StageState.init, QueueState.init],
    by simp [StageState.init, QueueState.init]⟩
  capacity := rfl
  mine := by simp [StageState.init]
  ret := by simp [StageState.init]
  fresh := fun _ => rfl
  exited := by simp [StageState.init]
  released := Or.inl rfl

/-- The invariant holds along every run that meets the assumptions. -/
theorem run_stageInv
    {inCapacity : ℕ} {tr : List (StageTransition Env δ σ T)}
    (hcap : 1 ≤ capacity)
    (run : Run (stageStep dealFn) (StageState.init inCapacity capacity st₀) tr s)
    (hass : ∀ τ ∈ tr, StageAssumptions τ) :
    StageInv dealFn st₀ capacity (eventsOf tr) s := by
  refine Run.invariant_of StageAssumptions
    (fun tr s => StageInv dealFn st₀ capacity (eventsOf tr) s)
    (stageInv_init inCapacity) ?_ run hass
  intro tr s a es t h hstep hτ
  rw [eventsOf_snoc]
  exact stageStep_inv hcap h hstep hτ

/--
For every run of the stage among its producers, consumers and cleaners: the
frames accepted into the output queue are a prefix of the non-NULL results of
`deal` over the frames taken from the input queue.  When the thread has exited
it had been stopped, and the results are the accepted frames followed by the
frames the thread released, at most one.
-/
theorem stage_transducer
    {inCapacity : ℕ} {tr : List (StageTransition Env δ σ T)}
    (hcap : 1 ≤ capacity)
    (run : Run (stageStep dealFn) (StageState.init inCapacity capacity st₀) tr s)
    (hass : ∀ τ ∈ tr, StageAssumptions τ) :
    outputFrames (eventsOf tr) <+:
        (dealRun dealFn st₀ (takenFrames (eventsOf tr))).1 ∧
    (s.pc = .exited →
      s.mStatus = .stop ∧
      (dealRun dealFn st₀ (takenFrames (eventsOf tr))).1 =
        outputFrames (eventsOf tr) ++ releasedFrames (eventsOf tr) ∧
      (releasedFrames (eventsOf tr)).length ≤ 1) := by
  have h := run_stageInv hcap run hass
  obtain ⟨dealt, htaken, hrun⟩ := h.ledger
  constructor
  · rw [htaken]
    refine List.IsPrefix.trans ?_ (dealRun_isPrefix dealFn st₀ dealt s.pc.toDeal)
    rw [hrun, List.append_assoc]
    exact List.prefix_append _ _
  · intro hpc
    refine ⟨h.exited hpc, ?_, ?_⟩
    · rw [hpc] at htaken hrun
      simp only [StagePc.toDeal, StagePc.inHand, List.append_nil] at htaken hrun
      rw [htaken, hrun]
    · rcases h.released with hr | ⟨⟨y, hr⟩, _, _⟩ <;> simp [hr]

end Steps

end Stage

/-- A stage that doubles even frames and drops odd ones, with one slot behind
it: the second result waits for a signal, the third one is in hand when the
thread is stopped. -/
def stoppedStageActions : List (StageAction Unit Unit ℕ) :=
  [.start, .inputOther (.enqueue (some ()) 2), .inputOther (.enqueue (some ()) 3),
    .inputOther (.enqueue (some ()) 4), .inputOther (.enqueue (some ()) 6),
    .loopHead, .dequeue, .deal, .enqueue, .checkRet,
    .loopHead, .dequeue, .deal,
    .loopHead, .dequeue, .deal, .enqueue, .outputOther (.dequeue (some ())),
    .enqueueWake 0, .checkRet,
    .loopHead, .dequeue, .deal, .enqueue, .stop, .enqueueWake ETIMEDOUT,
    .checkRet, .loopHead]

def doubleEven (st x : ℕ) : Option ℕ × ℕ :=
  (if x % 2 = 0 then some (2 * x) else none, st + 1)

theorem stage_transducer_stopped :
    ∃ (tr : List (StageTransition Unit ℕ Unit ℕ)) (s : StageState Unit ℕ ℕ),
      Run (stageStep doubleEven) (StageState.init 5 1 0) tr s ∧
      (∀ τ ∈ tr, StageAssumptions τ) ∧ s.pc = .exited ∧
      outputFrames (eventsOf tr) = [4, 8] ∧
      releasedFrames (eventsOf tr) = [12] ∧
      outputFrames (eventsOf tr) <+:
        (dealRun doubleEven 0 (takenFrames (eventsOf tr))).1 ∧
      (dealRun doubleEven 0 (takenFrames (eventsOf tr))).1 =
        outputFrames (eventsOf tr) ++ releasedFrames (eventsOf tr) := by
  obtain ⟨tr, s, run, hass, hpc, hout, hrel⟩ :=
    Run.exists_of_exec (stageStep doubleEven) (StageState.init 5 1 0)
      stoppedStageActions
      (fun r => (∀ τ ∈ r.1, StageAssumptions τ) ∧ r.2.pc = .exited ∧
        outputFrames (eventsOf r.1) = [4, 8] ∧
        releasedFrames (eventsOf r.1) = [12])
      (by decide +kernel)
  obtain ⟨hpre, hexit⟩ := stage_transducer (by decide) run hass
  exact ⟨tr, s, run, hass, hpc, hout, hrel, hpre, (hexit hpc).2.1⟩

end KoalaStreamer
