import KoalaStreamer.Library.EventMachine
import KoalaStreamer.MediaFrameQueue
import Mathlib.Logic.Function.Basic

/-!
# mediaFrameQueue under every interleaving

Any number of threads call `enqueue`, `dequeue` and `cleanIf` on one queue.
Each mutex-held section is one step.  A thread that waits has given the mutex
up; its second section runs with whatever value the wait returned, which is
part of the action and so arbitrary.  A waiting thread also remembers whether
its condition was signalled since it began to wait, for developments that
exclude spurious wake-ups.

Main results:
* `mediaFrameQueue_fifo`: removed frames, then the content, are the accepted
  frames in order, for every run;
* `enqueue_law_iff`: `enqueue` tells the truth about its frame along a run
  exactly when no wake-up of it that is not a time-out finds the queue full.
-/

namespace KoalaStreamer

open EventMachine

/-- What a thread is doing with the queue between its sections. -/
inductive QueuePc (T : Type)
  | idle
  | enqueueWait (call : ℕ) (pFrame : T) (signalled : Bool)
  | dequeueWait (signalled : Bool)
deriving DecidableEq

/-- The queue and its threads.  Calls of `enqueue` are numbered. -/
structure QueueState (Tid T : Type) where
  queue : FiFo T
  pc : Tid → QueuePc T
  nextCall : ℕ

/-- A thread entering an operation, or coming back from a wait. -/
inductive QueueAction (Tid σ T : Type)
  | enqueue (t : Tid) (pFrame : T)
  | enqueueWake (t : Tid) (ret : Int)
  | dequeue (t : Tid)
  | dequeueWake (t : Tid) (ret : Int)
  | cleanIf (t : Tid) (func : Option (CleanIt σ T)) (arg : σ) (passes : ℕ)

/-- What a section does that can be observed. -/
inductive QueueEvent (T : Type)
  /-- `put` returned 0 for this frame, in this call of `enqueue`. -/
  | accepted (call : ℕ) (pFrame : T)
  | enqueueReturned (call : ℕ) (pFrame : T) (ret : Int)
  | dequeueReturned (ret : Option T)
  /-- Taken out and released by `cleanIf`. -/
  | cleaned (pFrame : T)
deriving DecidableEq

/-- A step of the queue in a run. -/
abbrev QueueTransition (Tid σ T : Type) :=
  Transition (QueueState Tid T) (QueueAction Tid σ T) (QueueEvent T)

section Machine

variable {Tid σ T : Type} [DecidableEq Tid]

/-- All threads idle, nothing queued. -/
def QueueState.init (capacity : ℕ) : QueueState Tid T where
  queue := FiFo.init capacity
  pc := fun _ => .idle
  nextCall := 0

/-- A signal is remembered by every thread that waits on the condition. -/
def signalThreads
    (signal : Option QueueCond) (pc : Tid → QueuePc T) : Tid → QueuePc T :=
  fun t =>
    match signal, pc t with
    | some .pushCond, .enqueueWait call pFrame _ => .enqueueWait call pFrame true
    | some .popCond, .dequeueWait _ => .dequeueWait true
    | _, p => p

/-- A section of `enqueue` that returns. -/
def finishEnqueue
    (s : QueueState Tid T) (t : Tid) (call nextCall : ℕ) (pFrame : T)
    (e : EnqueueExit T) : QueueState Tid T × List (QueueEvent T) :=
  ({ queue := e.queue
     pc := signalThreads e.signal (Function.update s.pc t .idle)
     nextCall := nextCall },
    (e.stored pFrame).map (.accepted call) ++
      [.enqueueReturned call pFrame e.ret])

/-- A section of `dequeue` that returns. -/
def finishDequeue
    (s : QueueState Tid T) (t : Tid) (e : DequeueExit T) :
    QueueState Tid T × List (QueueEvent T) :=
  ({ s with
     queue := e.queue
     pc := signalThreads e.signal (Function.update s.pc t .idle) },
    [.dequeueReturned e.ret])

/-- One mutex-held section of one thread. -/
def queueStep :
    Machine (QueueState Tid T) (QueueAction Tid σ T) (QueueEvent T)
  | s, .enqueue t pFrame =>
      match s.pc t with
      | .idle =>
          match enqueueEnter s.queue pFrame with
          | none =>
              some ({ s with
                pc := Function.update s.pc t (.enqueueWait s.nextCall pFrame false)
                nextCall := s.nextCall + 1 }, [])
          | some e => some (finishEnqueue s t s.nextCall (s.nextCall + 1) pFrame e)
      | _ => none
  | s, .enqueueWake t ret =>
      match s.pc t with
      | .enqueueWait call pFrame _ =>
          some (finishEnqueue s t call s.nextCall pFrame
            (enqueueWake s.queue pFrame ret))
      | _ => none
  | s, .dequeue t =>
      match s.pc t with
      | .idle =>
          match dequeueEnter s.queue with
          | none =>
              some ({ s with pc := Function.update s.pc t (.dequeueWait false) }, [])
          | some e => some (finishDequeue s t e)
      | _ => none
  | s, .dequeueWake t ret =>
      match s.pc t with
      | .dequeueWait _ => some (finishDequeue s t (dequeueWake s.queue ret))
      | _ => none
  | s, .cleanIf t func arg passes =>
      match s.pc t with
      | .idle =>
          match cleanLoop func passes arg s.queue with
          | none => none
          | some (rs, q', _) =>
              some ({ s with
                queue := q'
                pc := signalThreads (some .pushCond) s.pc }, rs.map .cleaned)
      | _ => none

/-! ### Observations of a run -/

/-- Frames accepted by `put`, in order. -/
def acceptedFrames (es : List (QueueEvent T)) : List T :=
  es.filterMap fun
    | .accepted _ pFrame => some pFrame
    | _ => none

/-- Frames removed, in order: returned by `dequeue` or cleaned. -/
def removedFrames (es : List (QueueEvent T)) : List T :=
  es.filterMap fun
    | .dequeueReturned ret => ret
    | .cleaned pFrame => some pFrame
    | _ => none

@[simp] theorem acceptedFrames_append
    (es es' : List (QueueEvent T)) :
    acceptedFrames (es ++ es') = acceptedFrames es ++ acceptedFrames es' := by
  simp [acceptedFrames]

@[simp] theorem removedFrames_append
    (es es' : List (QueueEvent T)) :
    removedFrames (es ++ es') = removedFrames es ++ removedFrames es' := by
  simp [removedFrames]

@[simp] theorem acceptedFrames_cleaned
    (rs : List T) :
    acceptedFrames (rs.map QueueEvent.cleaned) = [] := by
  simp [acceptedFrames]

@[simp] theorem removedFrames_cleaned
    (rs : List T) :
    removedFrames (rs.map QueueEvent.cleaned) = rs := by
  simp [removedFrames, List.filterMap_map]

/-! ### What a step can do -/

/-- The ways a section can end, with the state it leaves. -/
inductive QueueMove (s : QueueState Tid T) :
    QueueAction Tid σ T → QueueState Tid T → List (QueueEvent T) → Prop
  | enqueueWaits (t : Tid) (pFrame : T)
      (hidle : s.pc t = .idle)
      (hfull : s.queue.isFull = true) :
      QueueMove s (.enqueue t pFrame)
        { s with
          pc := Function.update s.pc t (.enqueueWait s.nextCall pFrame false)
          nextCall := s.nextCall + 1 } []
  | enqueueDone (t : Tid) (pFrame : T)
      (hidle : s.pc t = .idle)
      (hroom : s.queue.isFull = false) :
      QueueMove s (.enqueue t pFrame)
        (finishEnqueue s t s.nextCall (s.nextCall + 1) pFrame
          (enqueuePut s.queue pFrame)).1
        (finishEnqueue s t s.nextCall (s.nextCall + 1) pFrame
          (enqueuePut s.queue pFrame)).2
  | enqueueWoken (t : Tid) (ret : Int) (call : ℕ) (pFrame : T) (sig : Bool)
      (hwait : s.pc t = .enqueueWait call pFrame sig) :
      QueueMove s (.enqueueWake t ret)
        (finishEnqueue s t call s.nextCall pFrame
          (enqueueWake s.queue pFrame ret)).1
        (finishEnqueue s t call s.nextCall pFrame
          (enqueueWake s.queue pFrame ret)).2
  | dequeueWaits (t : Tid)
      (hidle : s.pc t = .idle)
      (hempty : s.queue.contents = []) :
      QueueMove s (.dequeue t)
        { s with pc := Function.update s.pc t (.dequeueWait false) } []
  | dequeueDone (t : Tid)
      (hidle : s.pc t = .idle)
      (hne : s.queue.contents ≠ []) :
      QueueMove s (.dequeue t)
        (finishDequeue s t (dequeueGet s.queue)).1
        (finishDequeue s t (dequeueGet s.queue)).2
  | dequeueWoken (t : Tid) (ret : Int) (sig : Bool)
      (hwait : s.pc t = .dequeueWait sig) :
      QueueMove s (.dequeueWake t ret)
        (finishDequeue s t (dequeueWake s.queue ret)).1
        (finishDequeue s t (dequeueWake s.queue ret)).2
  | cleaned (t : Tid) (func : Option (CleanIt σ T)) (arg arg' : σ) (passes : ℕ)
      (rs : List T) (q' : FiFo T)
      (hidle : s.pc t = .idle)
      (hloop : cleanLoop func passes arg s.queue = some (rs, q', arg')) :
      QueueMove s (.cleanIf t func arg passes)
        { s with queue := q', pc := signalThreads (some .pushCond) s.pc }
        (rs.map .cleaned)

/-- Inversion of a step: one of the seven moves. -/
theorem queueStep_move
    {s s' : QueueState Tid T} {a : QueueAction Tid σ T}
    {es : List (QueueEvent T)}
    (h : queueStep s a = some (s', es)) :
    QueueMove s a s' es := by
  cases a with
  | enqueue t pFrame =>
      cases hpc : s.pc t with
      | idle =>
          simp only [queueStep, hpc] at h
          cases he : enqueueEnter s.queue pFrame with
          | none =>
              simp only [he, Option.some.injEq, Prod.mk.injEq] at h
              obtain ⟨rfl, rfl⟩ := h
              exact .enqueueWaits t pFrame hpc (enqueueEnter_eq_none_iff.mp he)
          | some e =>
              obtain ⟨hroom, rfl⟩ := enqueueEnter_eq_some he
              simp only [he, Option.some.injEq, Prod.ext_iff] at h
              obtain ⟨rfl, rfl⟩ := h
              exact .enqueueDone t pFrame hpc hroom
      | enqueueWait call x sig =>
          simp [queueStep, hpc] at h
      | dequeueWait sig =>
          simp [queueStep, hpc] at h
  | enqueueWake t ret =>
      cases hpc : s.pc t with
      | enqueueWait call pFrame sig =>
          simp only [queueStep, hpc, Option.some.injEq, Prod.ext_iff] at h
          obtain ⟨rfl, rfl⟩ := h
          exact .enqueueWoken t ret call pFrame sig hpc
      | idle =>
          simp [queueStep, hpc] at h
      | dequeueWait sig =>
          simp [queueStep, hpc] at h
  | dequeue t =>
      cases hpc : s.pc t with
      | idle =>
          simp only [queueStep, hpc] at h
          cases he : dequeueEnter s.queue with
          | none =>
              simp only [he, Option.some.injEq, Prod.mk.injEq] at h
              obtain ⟨rfl, rfl⟩ := h
              exact .dequeueWaits t hpc (dequeueEnter_eq_none_iff.mp he)
          | some e =>
              obtain ⟨hne, rfl⟩ := dequeueEnter_eq_some he
              simp only [he, Option.some.injEq, Prod.ext_iff] at h
              obtain ⟨rfl, rfl⟩ := h
              exact .dequeueDone t hpc hne
      | enqueueWait call x sig =>
          simp [queueStep, hpc] at h
      | dequeueWait sig =>
          simp [queueStep, hpc] at h
  | dequeueWake t ret =>
      cases hpc : s.pc t with
      | dequeueWait sig =>
          simp only [queueStep, hpc, Option.some.injEq, Prod.ext_iff] at h
          obtain ⟨rfl, rfl⟩ := h
          exact .dequeueWoken t ret sig hpc
      | idle =>
          simp [queueStep, hpc] at h
      | enqueueWait call x sig =>
          simp [queueStep, hpc] at h
  | cleanIf t func arg passes =>
      cases hpc : s.pc t with
      | idle =>
          simp only [queueStep, hpc] at h
          cases hl : cleanLoop func passes arg s.queue with
          | none =>
              simp [hl] at h
          | some r =>
              obtain ⟨rs, q', arg'⟩ := r
              simp only [hl, Option.some.injEq, Prod.mk.injEq] at h
              obtain ⟨rfl, rfl⟩ := h
              exact .cleaned t func arg arg' passes rs q' hpc hl
      | enqueueWait call x sig =>
          simp [queueStep, hpc] at h
      | dequeueWait sig =>
          simp [queueStep, hpc] at h

theorem acceptedFrames_finishEnqueue
    (s : QueueState Tid T) (t : Tid) (call nextCall : ℕ) (pFrame : T)
    (e : EnqueueExit T) :
    acceptedFrames (finishEnqueue s t call nextCall pFrame e).2 =
      e.stored pFrame := by
  simp only [finishEnqueue, EnqueueExit.stored]
  split <;> simp [acceptedFrames]

theorem removedFrames_finishEnqueue
    (s : QueueState Tid T) (t : Tid) (call nextCall : ℕ) (pFrame : T)
    (e : EnqueueExit T) :
    removedFrames (finishEnqueue s t call nextCall pFrame e).2 = [] := by
  simp only [finishEnqueue, EnqueueExit.stored]
  split <;> simp [removedFrames]

theorem removedFrames_finishDequeue
    (s : QueueState Tid T) (t : Tid) (e : DequeueExit T) :
    removedFrames (finishDequeue s t e).2 = e.ret.toList := by
  simp only [finishDequeue]
  cases e.ret <;> simp [removedFrames]

/-- A step removes from the head what it reports removed, and appends what it
reports accepted. -/
theorem queueStep_conserves
    {s s' : QueueState Tid T} {a : QueueAction Tid σ T}
    {es : List (QueueEvent T)}
    (h : queueStep s a = some (s', es)) :
    removedFrames es ++ s'.queue.contents =
      s.queue.contents ++ acceptedFrames es ∧
    s'.queue.capacity = s.queue.capacity := by
  cases queueStep_move h with
  | enqueueWaits t pFrame hidle hfull =>
      simp [removedFrames, acceptedFrames]
  | enqueueDone t pFrame hidle hroom =>
      rw [removedFrames_finishEnqueue, acceptedFrames_finishEnqueue]
      exact ⟨enqueuePut_contents _ _, enqueuePut_capacity _ _⟩
  | enqueueWoken t ret call pFrame sig hwait =>
      rw [removedFrames_finishEnqueue, acceptedFrames_finishEnqueue]
      exact ⟨enqueueWake_contents _ _ _, enqueueWake_capacity _ _ _⟩
  | dequeueWaits t hidle hempty =>
      simp [removedFrames, acceptedFrames]
  | dequeueDone t hidle hne =>
      rw [removedFrames_finishDequeue]
      refine ⟨?_, dequeueGet_capacity _⟩
      simpa [finishDequeue, acceptedFrames] using dequeueGet_contents s.queue
  | dequeueWoken t ret sig hwait =>
      rw [removedFrames_finishDequeue]
      refine ⟨?_, dequeueWake_capacity _ _⟩
      simpa [finishDequeue, acceptedFrames] using dequeueWake_contents s.queue ret
  | cleaned t func arg arg' passes rs q' hidle hloop =>
      obtain ⟨hc, hcap⟩ := cleanLoop_contents hloop
      simpa using And.intro hc hcap

/-- Along a run, removed frames and the content are the accepted frames. -/
theorem run_conserves
    {s₀ s : QueueState Tid T}
    {tr : List (QueueTransition Tid σ T)}
    (hempty : s₀.queue.contents = [])
    (run : Run queueStep s₀ tr s) :
    removedFrames (eventsOf tr) ++ s.queue.contents =
      acceptedFrames (eventsOf tr) ∧
    s.queue.capacity = s₀.queue.capacity := by
  refine Run.invariant
    (fun tr s => removedFrames (eventsOf tr) ++ s.queue.contents =
      acceptedFrames (eventsOf tr) ∧ s.queue.capacity = s₀.queue.capacity)
    ?_ ?_ run
  · simp [hempty, removedFrames, acceptedFrames]
  · rintro tr s a es t ⟨hc, hcap⟩ hstep
    obtain ⟨hstepc, hstepcap⟩ := queueStep_conserves hstep
    refine ⟨?_, hstepcap.trans hcap⟩
    rw [eventsOf_snoc, removedFrames_append, acceptedFrames_append,
      List.append_assoc, hstepc, ← List.append_assoc, hc]

omit [DecidableEq Tid] in
theorem signalThreads_enqueueWait
    {signal : Option QueueCond} {pc : Tid → QueuePc T} {t : Tid}
    {call : ℕ} {y : T} {b : Bool}
    (h : signalThreads signal pc t = .enqueueWait call y b) :
    ∃ b', pc t = .enqueueWait call y b' ∧ (signal ≠ some .pushCond → b' = b) := by
  simp only [signalThreads] at h
  split at h
  · rename_i heq
    cases h
    exact ⟨_, heq, fun hne => absurd rfl hne⟩
  · cases h
  · exact ⟨b, h, fun _ => rfl⟩

/-- A thread waits in `enqueue` only after it has called it. -/
theorem queueStep_enqueueWait
    {s s' : QueueState Tid T} {a : QueueAction Tid σ T}
    {es : List (QueueEvent T)} {t : Tid} {call : ℕ} {x : T} {b : Bool}
    (h : queueStep s a = some (s', es))
    (hwait : s'.pc t = .enqueueWait call x b) :
    (∃ pFrame, a = .enqueue t pFrame) ∨ ∃ b', s.pc t = .enqueueWait call x b' := by
  have hupdate : ∀ {u : Tid} {signal : Option QueueCond},
      signalThreads signal (Function.update s.pc u .idle) t =
        .enqueueWait call x b → ∃ b', s.pc t = .enqueueWait call x b' := by
    intro u signal hpc
    obtain ⟨b', hb, _⟩ := signalThreads_enqueueWait hpc
    by_cases htu : t = u
    · subst htu
      simp at hb
    · rw [Function.update_of_ne htu] at hb
      exact ⟨b', hb⟩
  cases queueStep_move h with
  | enqueueWaits u pFrame hidle hfull =>
      by_cases htu : t = u
      · subst htu
        exact Or.inl ⟨pFrame, rfl⟩
      · simp only [Function.update_of_ne htu] at hwait
        exact Or.inr ⟨b, hwait⟩
  | enqueueDone u pFrame hidle hroom =>
      exact Or.inr (hupdate hwait)
  | enqueueWoken u ret c pFrame sig hpc =>
      exact Or.inr (hupdate hwait)
  | dequeueWaits u hidle hempty =>
      by_cases htu : t = u
      · subst htu
        simp at hwait
      · simp only [Function.update_of_ne htu] at hwait
        exact Or.inr ⟨b, hwait⟩
  | dequeueDone u hidle hne =>
      exact Or.inr (hupdate hwait)
  | dequeueWoken u ret sig hpc =>
      exact Or.inr (hupdate hwait)
  | cleaned u func arg arg' passes rs q' hidle hloop =>
      obtain ⟨b', hb, _⟩ := signalThreads_enqueueWait hwait
      exact Or.inr ⟨b', hb⟩

/-! ### Calls of enqueue -/

/-- The call of `enqueue` that a thread is waiting in. -/
def QueuePc.call : QueuePc T → Option ℕ
  | .enqueueWait call _ _ => some call
  | _ => none

omit [DecidableEq Tid] in
@[simp] theorem signalThreads_call
    (signal : Option QueueCond) (pc : Tid → QueuePc T) (t : Tid) :
    (signalThreads signal pc t).call = (pc t).call := by
  simp only [signalThreads]
  cases signal with
  | none =>
      rfl
  | some c =>
      cases c <;> cases pc t <;> rfl

theorem update_call
    (pc : Tid → QueuePc T) (t t' : Tid) (p : QueuePc T) :
    (Function.update pc t p t').call =
      if t' = t then p.call else (pc t').call := by
  by_cases ht : t' = t
  · subst ht
    simp
  · simp [ht]

theorem accepted_mem_finishEnqueue
    {s : QueueState Tid T} {t : Tid} {call nextCall c : ℕ} {pFrame y : T}
    {e : EnqueueExit T} :
    QueueEvent.accepted c y ∈ (finishEnqueue s t call nextCall pFrame e).2 ↔
      c = call ∧ y ∈ e.stored pFrame := by
  simp only [finishEnqueue, List.mem_append, List.mem_map, List.mem_singleton,
    QueueEvent.accepted.injEq, reduceCtorEq, or_false]
  constructor
  · rintro ⟨x, hx, rfl, rfl⟩
    exact ⟨rfl, hx⟩
  · rintro ⟨rfl, hy⟩
    exact ⟨y, hy, rfl, rfl⟩

theorem returned_mem_finishEnqueue
    {s : QueueState Tid T} {t : Tid} {call nextCall c : ℕ} {pFrame y : T}
    {e : EnqueueExit T} {ret : Int} :
    QueueEvent.enqueueReturned c y ret ∈
        (finishEnqueue s t call nextCall pFrame e).2 ↔
      c = call ∧ y = pFrame ∧ ret = e.ret := by
  simp [finishEnqueue]

/-- A time-out stores nothing. -/
theorem stored_of_timeout
    (q : FiFo T) (pFrame : T) (ret : Int)
    (h : (enqueueWake q pFrame ret).ret = -ETIMEDOUT) :
    (enqueueWake q pFrame ret).stored pFrame = [] := by
  by_cases hret : ret = ETIMEDOUT
  · subst hret
    simp [EnqueueExit.stored]
  · rw [enqueueWake_of_ne q pFrame hret, enqueuePut_ret] at h
    exact absurd h (by decide)

/-- Book-keeping of calls: a call that waits or has timed out was not
accepted, and call numbers are not reused. -/
structure CallsOk (es : List (QueueEvent T)) (s : QueueState Tid T) : Prop where
  waiting : ∀ t c, (s.pc t).call = some c →
    c < s.nextCall ∧ (∀ y, .accepted c y ∉ es) ∧
      ∀ x ret, .enqueueReturned c x ret ∉ es
  distinct : ∀ t t' c, (s.pc t).call = some c → (s.pc t').call = some c → t = t'
  bounded : ∀ c y, .accepted c y ∈ es → c < s.nextCall
  returned : ∀ c x ret, .enqueueReturned c x ret ∈ es → c < s.nextCall
  timedOut : ∀ c x, .enqueueReturned c x (-ETIMEDOUT) ∈ es →
    ∀ y, .accepted c y ∉ es

/-- A call that returns keeps the book-keeping, if no other thread waits in it
and nothing was recorded for it before. -/
theorem callsOk_finishEnqueue
    {es : List (QueueEvent T)} {s : QueueState Tid T} {t : Tid} {c n : ℕ}
    {x : T} {e : EnqueueExit T}
    (hok : CallsOk es s)
    (hlt : c < n) (hle : s.nextCall ≤ n)
    (hothers : ∀ t', t' ≠ t → (s.pc t').call ≠ some c)
    (haccepted : ∀ y, .accepted c y ∉ es)
    (hreturned : ∀ y ret, .enqueueReturned c y ret ∉ es)
    (htimeout : e.ret = -ETIMEDOUT → e.stored x = []) :
    CallsOk (es ++ (finishEnqueue s t c n x e).2) (finishEnqueue s t c n x e).1 := by
  have hpc : ∀ t', ((finishEnqueue s t c n x e).1.pc t').call =
      if t' = t then none else (s.pc t').call := by
    intro t'
    show (signalThreads e.signal (Function.update s.pc t .idle) t').call = _
    rw [signalThreads_call, update_call]
    rfl
  have hwaits : ∀ t' d, ((finishEnqueue s t c n x e).1.pc t').call = some d →
      (s.pc t').call = some d ∧ d ≠ c := by
    intro t' d hd
    rw [hpc] at hd
    split at hd
    · cases hd
    · rename_i ht
      refine ⟨hd, ?_⟩
      rintro rfl
      exact hothers t' ht hd
  constructor
  · intro t' d hd
    obtain ⟨hd, hne⟩ := hwaits t' d hd
    obtain ⟨hlt', hacc, hret⟩ := hok.waiting t' d hd
    refine ⟨lt_of_lt_of_le hlt' hle, ?_, ?_⟩
    · intro y hy
      rcases List.mem_append.mp hy with hy | hy
      · exact hacc y hy
      · exact hne (accepted_mem_finishEnqueue.mp hy).1
    · intro y ret hy
      rcases List.mem_append.mp hy with hy | hy
      · exact hret y ret hy
      · exact hne (returned_mem_finishEnqueue.mp hy).1
  · intro t₁ t₂ d h₁ h₂
    exact hok.distinct t₁ t₂ d (hwaits t₁ d h₁).1 (hwaits t₂ d h₂).1
  · intro d y hy
    rcases List.mem_append.mp hy with hy | hy
    · exact lt_of_lt_of_le (hok.bounded d y hy) hle
    · rw [(accepted_mem_finishEnqueue.mp hy).1]
      exact hlt
  · intro d y ret hy
    rcases List.mem_append.mp hy with hy | hy
    · exact lt_of_lt_of_le (hok.returned d y ret hy) hle
    · rw [(returned_mem_finishEnqueue.mp hy).1]
      exact hlt
  · intro d z hz y hy
    rcases List.mem_append.mp hz with hz | hz
    · rcases List.mem_append.mp hy with hy | hy
      · exact hok.timedOut d z hz y hy
      · rw [(accepted_mem_finishEnqueue.mp hy).1] at hz
        exact hreturned z _ hz
    · obtain ⟨rfl, rfl, hret⟩ := returned_mem_finishEnqueue.mp hz
      rcases List.mem_append.mp hy with hy | hy
      · exact haccepted y hy
      · have hstored := (accepted_mem_finishEnqueue.mp hy).2
        rw [htimeout hret.symm] at hstored
        cases hstored

omit [DecidableEq Tid] in
/-- A step without call events that at most lets calls end keeps the
book-keeping. -/
theorem callsOk_of_quiet
    {es es' : List (QueueEvent T)} {s s' : QueueState Tid T}
    (hok : CallsOk es s)
    (hnext : s'.nextCall = s.nextCall)
    (hpc : ∀ t c, (s'.pc t).call = some c → (s.pc t).call = some c)
    (haccepted : ∀ c y, .accepted c y ∉ es')
    (hreturned : ∀ c y ret, .enqueueReturned c y ret ∉ es') :
    CallsOk (es ++ es') s' := by
  have hacc : ∀ c y, .accepted c y ∈ es ++ es' → .accepted c y ∈ es := by
    intro c y hy
    exact (List.mem_append.mp hy).resolve_right (haccepted c y)
  have hret : ∀ c y ret, .enqueueReturned c y ret ∈ es ++ es' →
      .enqueueReturned c y ret ∈ es := by
    intro c y ret hy
    exact (List.mem_append.mp hy).resolve_right (hreturned c y ret)
  constructor
  · intro t c hc
    obtain ⟨hlt, h₁, h₂⟩ := hok.waiting t c (hpc t c hc)
    rw [hnext]
    exact ⟨hlt, fun y hy => h₁ y (hacc c y hy), fun y r hy => h₂ y r (hret c y r hy)⟩
  · intro t t' c h₁ h₂
    exact hok.distinct t t' c (hpc t c h₁) (hpc t' c h₂)
  · intro c y hy
    rw [hnext]
    exact hok.bounded c y (hacc c y hy)
  · intro c y r hy
    rw [hnext]
    exact hok.returned c y r (hret c y r hy)
  · intro c x hx y hy
    exact hok.timedOut c x (hret c x _ hx) y (hacc c y hy)

/-- Every step keeps the book-keeping of calls. -/
theorem queueStep_callsOk
    {s s' : QueueState Tid T} {a : QueueAction Tid σ T}
    {es es' : List (QueueEvent T)}
    (hok : CallsOk es s)
    (h : queueStep s a = some (s', es')) :
    CallsOk (es ++ es') s' := by
  cases queueStep_move h with
  | enqueueWaits t pFrame hidle hfull =>
      have hpc : ∀ t', (Function.update s.pc t
          (.enqueueWait s.nextCall pFrame false) t').call =
            if t' = t then some s.nextCall else (s.pc t').call :=
        fun t' => update_call s.pc t t' _
      have hold : ∀ t' c, (s.pc t').call = some c → c < s.nextCall :=
        fun t' c hc => (hok.waiting t' c hc).1
      rw [List.append_nil]
      constructor
      · intro t' c hc
        simp only [hpc] at hc
        split at hc
        · obtain rfl := Option.some.inj hc
          refine ⟨Nat.lt_succ_self _, ?_, ?_⟩
          · intro y hy
            exact absurd (hok.bounded _ y hy) (lt_irrefl _)
          · intro y r hy
            exact absurd (hok.returned _ y r hy) (lt_irrefl _)
        · obtain ⟨hlt, h₁, h₂⟩ := hok.waiting t' c hc
          exact ⟨Nat.lt_succ_of_lt hlt, h₁, h₂⟩
      · intro t₁ t₂ c h₁ h₂
        simp only [hpc] at h₁ h₂
        split at h₁ <;> split at h₂
        · simp_all
        · obtain rfl := Option.some.inj h₁
          exact absurd (hold _ _ h₂) (lt_irrefl _)
        · obtain rfl := Option.some.inj h₂
          exact absurd (hold _ _ h₁) (lt_irrefl _)
        · exact hok.distinct t₁ t₂ c h₁ h₂
      · intro c y hy
        exact Nat.lt_succ_of_lt (hok.bounded c y hy)
      · intro c y r hy
        exact Nat.lt_succ_of_lt (hok.returned c y r hy)
      · exact hok.timedOut
  | enqueueDone t pFrame hidle hroom =>
      refine callsOk_finishEnqueue hok (Nat.lt_succ_self _) (Nat.le_succ _)
        ?_ ?_ ?_ ?_
      · intro t' _ hc
        exact absurd (hok.waiting t' _ hc).1 (lt_irrefl _)
      · intro y hy
        exact absurd (hok.bounded _ y hy) (lt_irrefl _)
      · intro y r hy
        exact absurd (hok.returned _ y r hy) (lt_irrefl _)
      · intro hret
        rw [enqueuePut_ret] at hret
        exact absurd hret (by decide)
  | enqueueWoken t ret call pFrame sig hwait =>
      have hcall : (s.pc t).call = some call := by simp [hwait, QueuePc.call]
      obtain ⟨hlt, hacc, hret⟩ := hok.waiting t call hcall
      refine callsOk_finishEnqueue hok hlt (le_refl _) ?_ hacc hret
        (stored_of_timeout _ _ _)
      intro t' ht' hc
      exact ht' (hok.distinct t' t call hc hcall)
  | dequeueWaits t hidle hempty =>
      refine callsOk_of_quiet hok rfl ?_ (by simp) (by simp)
      intro t' c hc
      simp only [update_call] at hc
      split at hc
      · cases hc
      · exact hc
  | dequeueDone t hidle hne =>
      refine callsOk_of_quiet hok rfl ?_ (by simp [finishDequeue])
        (by simp [finishDequeue])
      intro t' c hc
      simp only [finishDequeue, signalThreads_call, update_call] at hc
      split at hc
      · cases hc
      · exact hc
  | dequeueWoken t ret sig hwait =>
      refine callsOk_of_quiet hok rfl ?_ (by simp [finishDequeue])
        (by simp [finishDequeue])
      intro t' c hc
      simp only [finishDequeue, signalThreads_call, update_call] at hc
      split at hc
      · cases hc
      · exact hc
  | cleaned t func arg arg' passes rs q' hidle hloop =>
      refine callsOk_of_quiet hok rfl ?_ (by simp) (by simp)
      intro t' c hc
      simpa using hc

/-- The book-keeping of calls holds along every run from an idle queue. -/
theorem run_callsOk
    {capacity : ℕ} {s : QueueState Tid T}
    {tr : List (QueueTransition Tid σ T)}
    (run : Run queueStep (QueueState.init capacity) tr s) :
    CallsOk (eventsOf tr) s := by
  refine Run.invariant (fun tr s => CallsOk (eventsOf tr) s) ?_ ?_ run
  · constructor <;> simp [QueueState.init, QueuePc.call]
  · intro tr s a es t hok hstep
    rw [eventsOf_snoc]
    exact queueStep_callsOk hok hstep

/-! ### FIFO order -/

/--
For every run: the frames removed so far followed by the content are the
frames that `put` accepted, in order; the content fits the capacity; and a
call that returned `-ETIMEDOUT` put nothing into the queue.
-/
theorem mediaFrameQueue_fifo
    {capacity : ℕ} {s : QueueState Tid T}
    {tr : List (QueueTransition Tid σ T)}
    (run : Run queueStep (QueueState.init capacity) tr s) :
    removedFrames (eventsOf tr) ++ s.queue.contents =
      acceptedFrames (eventsOf tr) ∧
    s.queue.contents.length ≤ capacity ∧
    ∀ call x, .enqueueReturned call x (-ETIMEDOUT) ∈ eventsOf tr →
      ∀ y, .accepted call y ∉ eventsOf tr := by
  obtain ⟨hfifo, hcap⟩ := run_conserves (FiFo.contents_init capacity) run
  refine ⟨hfifo, ?_, (run_callsOk run).timedOut⟩
  have hle := s.queue.length_le
  rw [hcap] at hle
  exact hle

/-! ### What enqueue tells its caller -/

/-- What `enqueue` promises about the frame of a call that returns. -/
def EnqueueLaw
    (τ : QueueTransition Tid σ T) : Prop :=
  ∀ call x ret, .enqueueReturned call x ret ∈ τ.events →
    (ret = 0 → τ.dst.queue.contents = τ.src.queue.contents ++ [x]) ∧
    (ret ≠ 0 → τ.dst.queue = τ.src.queue)

/-- A wake-up of `enqueue` that is not a time-out finds the queue not full. -/
def WakesWithRoom
    (τ : QueueTransition Tid σ T) : Prop :=
  ∀ t ret, τ.action = .enqueueWake t ret → ret ≠ ETIMEDOUT →
    τ.src.queue.isFull = false

/-- The law for one section that returns from `enqueue`. -/
theorem law_finishEnqueue_iff
    {s : QueueState Tid T} {t : Tid} {c n : ℕ} {x : T} {e : EnqueueExit T} :
    (∀ call y ret, .enqueueReturned call y ret ∈ (finishEnqueue s t c n x e).2 →
      (ret = 0 → (finishEnqueue s t c n x e).1.queue.contents =
        s.queue.contents ++ [y]) ∧
      (ret ≠ 0 → (finishEnqueue s t c n x e).1.queue = s.queue)) ↔
    (e.ret = 0 → e.queue.contents = s.queue.contents ++ [x]) ∧
      (e.ret ≠ 0 → e.queue = s.queue) := by
  constructor
  · intro h
    exact h c x e.ret (returned_mem_finishEnqueue.mpr ⟨rfl, rfl, rfl⟩)
  · rintro h call y ret hmem
    obtain ⟨rfl, rfl, rfl⟩ := returned_mem_finishEnqueue.mp hmem
    exact h

/-- One step meets the law exactly when it does not wake into a full queue. -/
theorem enqueueLaw_iff_of_valid
    {τ : QueueTransition Tid σ T}
    (hτ : τ.Valid queueStep) :
    EnqueueLaw τ ↔ WakesWithRoom τ := by
  obtain ⟨s, a, es, s'⟩ := τ
  have hmove : QueueMove s a s' es := queueStep_move hτ
  cases hmove with
  | enqueueWaits t pFrame hidle hfull =>
      simp [EnqueueLaw, WakesWithRoom]
  | enqueueDone t pFrame hidle hroom =>
      have hput := (enqueuePut_room pFrame hroom).2
      have hlaw := law_finishEnqueue_iff (s := s) (t := t) (c := s.nextCall)
        (n := s.nextCall + 1) (x := pFrame) (e := enqueuePut s.queue pFrame)
      refine hlaw.trans ?_
      simp [WakesWithRoom, hput]
  | enqueueWoken t ret call pFrame sig hwait =>
      have hlaw := law_finishEnqueue_iff (s := s) (t := t) (c := call)
        (n := s.nextCall) (x := pFrame) (e := enqueueWake s.queue pFrame ret)
      refine hlaw.trans ?_
      by_cases hret : ret = ETIMEDOUT
      · subst hret
        simp [WakesWithRoom, show ETIMEDOUT ≠ 0 by decide]
      · rw [enqueueWake_of_ne _ _ hret]
        cases hfull : s.queue.isFull with
        | true =>
            have hq := (enqueuePut_full pFrame hfull).2
            simp [WakesWithRoom, hq, hret, hfull]
        | false =>
            have hput := (enqueuePut_room pFrame hfull).2
            simp [WakesWithRoom, hput, hfull]
  | dequeueWaits t hidle hempty =>
      simp [EnqueueLaw, WakesWithRoom]
  | dequeueDone t hidle hne =>
      simp [EnqueueLaw, WakesWithRoom, finishDequeue]
  | dequeueWoken t ret sig hwait =>
      simp [EnqueueLaw, WakesWithRoom, finishDequeue]
  | cleaned t func arg arg' passes rs q' hidle hloop =>
      simp [EnqueueLaw, WakesWithRoom]

/--
Along a run, every call of `enqueue` tells the truth about its frame if and
only if no wake-up of `enqueue` that is not a time-out finds the queue full.
-/
theorem enqueue_law_iff
    {capacity : ℕ} {s : QueueState Tid T}
    {tr : List (QueueTransition Tid σ T)}
    (run : Run queueStep (QueueState.init capacity) tr s) :
    (∀ τ ∈ tr, EnqueueLaw τ) ↔ ∀ τ ∈ tr, WakesWithRoom τ := by
  constructor
  · intro h τ hτ
    exact (enqueueLaw_iff_of_valid (run.valid τ hτ)).mp (h τ hτ)
  · intro h τ hτ
    exact (enqueueLaw_iff_of_valid (run.valid τ hτ)).mpr (h τ hτ)

end Machine

/-! ### A queue of one slot -/

/-- Two producers on a queue of capacity 1: the second one waits, times out,
comes again after the slot was freed and is then followed by a cleaning. -/
def contendedActions : List (QueueAction Bool Unit ℕ) :=
  [.enqueue false 10, .enqueue true 20, .enqueueWake true ETIMEDOUT,
    .dequeue false, .enqueue true 30, .cleanIf false none () 2]

theorem mediaFrameQueue_fifo_contended :
    ∃ (tr : List (QueueTransition Bool Unit ℕ)) (s : QueueState Bool ℕ),
      Run queueStep (QueueState.init 1) tr s ∧
      acceptedFrames (eventsOf tr) = [10, 30] ∧
      (removedFrames (eventsOf tr) ++ s.queue.contents =
        acceptedFrames (eventsOf tr) ∧
      s.queue.contents.length ≤ 1 ∧
      ∀ call x, .enqueueReturned call x (-ETIMEDOUT) ∈ eventsOf tr →
        ∀ y, .accepted call y ∉ eventsOf tr) := by
  obtain ⟨tr, s, run, hacc⟩ :=
    Run.exists_of_exec queueStep (QueueState.init 1)
      contendedActions (fun r => acceptedFrames (eventsOf r.1) = [10, 30])
      (by decide +kernel)
  exact ⟨tr, s, run, hacc, mediaFrameQueue_fifo run⟩

/-- The second producer waits for the only slot and is woken although the
queue is still full: a spurious wake-up. -/
def spuriousActions : List (QueueAction Bool Unit ℕ) :=
  [.enqueue false 10, .enqueue true 20, .enqueueWake true 0]

/-- Two producers, one slot: the frame 20 is reported as enqueued and lost. -/
theorem enqueue_law_fails_spurious :
    ¬ ∀ (tr : List (QueueTransition Bool Unit ℕ)) (s : QueueState Bool ℕ),
        Run queueStep (QueueState.init 1) tr s → ∀ τ ∈ tr, EnqueueLaw τ := by
  intro hlaw
  obtain ⟨tr, s, run, τ, hτ, hret, hcontents⟩ :=
    Run.exists_of_exec queueStep (QueueState.init 1)
      spuriousActions
      (fun r => ∃ τ ∈ r.1, .enqueueReturned 1 20 0 ∈ τ.events ∧
        τ.dst.queue.contents ≠ τ.src.queue.contents ++ [20])
      (by decide +kernel)
  exact hcontents ((hlaw tr s run τ hτ 1 20 0 hret).1 rfl)

theorem enqueue_law_iff_contended :
    ∃ (tr : List (QueueTransition Bool Unit ℕ)) (s : QueueState Bool ℕ),
      Run queueStep (QueueState.init 1) tr s ∧ tr.length = 6 ∧
      ((∀ τ ∈ tr, EnqueueLaw τ) ↔ ∀ τ ∈ tr, WakesWithRoom τ) := by
  obtain ⟨tr, s, run, hlen⟩ :=
    Run.exists_of_exec queueStep (QueueState.init 1)
      contendedActions (fun r => r.1.length = 6) (by decide +kernel)
  exact ⟨tr, s, run, hlen, enqueue_law_iff run⟩

end KoalaStreamer
