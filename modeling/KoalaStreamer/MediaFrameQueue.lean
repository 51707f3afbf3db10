import KoalaStreamer.MediaFrame
import KoalaStreamer.StreamerStack

/-!
# utils/mediaThread.cpp: the sections of mediaFrameQueue

Each operation of `mediaFrameQueue` is cut at the points where it gives up the
mutex.  `enqueue` and `dequeue` have a section that runs when the mutex is first
taken and a section that runs when `pthread_cond_timedwait` has taken it again;
the value the wait returned is an argument of the second one.  `cleanIf` keeps
the mutex from begin to end, so its loop is one section; `cleanPass` is one pass
of that loop.

Frames are of an arbitrary type `T`.
-/

namespace KoalaStreamer

/-- The two condition variables of a queue. -/
inductive QueueCond
  | pushCond
  | popCond
deriving DecidableEq, Repr

/-- How a section of `enqueue` ends that returns to the caller. -/
structure EnqueueExit (T : Type) where
  /-- What `enqueue` returns. -/
  ret : Int
  queue : FiFo T
  /-- What `put` returned, if it was called; `enqueue` does not look at it. -/
  put : Option Int
  /-- The condition signalled before the mutex is released. -/
  signal : Option QueueCond

/-- How a section of `dequeue` ends that returns to the caller. -/
structure DequeueExit (T : Type) where
  /-- What `dequeue` returns, `none` for NULL. -/
  ret : Option T
  queue : FiFo T
  signal : Option QueueCond

section Sections

variable {T : Type}

/-- `mQueue.put(pFrame)`, signal, unlock, `return 0`. -/
def enqueuePut (q : FiFo T) (pFrame : T) : EnqueueExit T where
  ret := 0
  queue := (q.put pFrame).2
  put := some (q.put pFrame).1
  signal := some .popCond

/-- `enqueue` up to the wait; `none` when it waits on `push_cond`. -/
def enqueueEnter (q : FiFo T) (pFrame : T) : Option (EnqueueExit T) :=
  if q.isFull then none else some (enqueuePut q pFrame)

/-- `enqueue` after its wait returned `ret`. -/
def enqueueWake (q : FiFo T) (pFrame : T) (ret : Int) : EnqueueExit T :=
  if ret = ETIMEDOUT then
    { ret := -ETIMEDOUT, queue := q, put := none, signal := none }
  else
    enqueuePut q pFrame

/-- `mQueue.get()`, signal, unlock, return the frame. -/
def dequeueGet (q : FiFo T) : DequeueExit T where
  ret := q.get.1
  queue := q.get.2
  signal := some .pushCond

/-- `dequeue` up to the wait; `none` when it waits on `pop_cond`. -/
def dequeueEnter (q : FiFo T) : Option (DequeueExit T) :=
  if q.isEmpty then none else some (dequeueGet q)

/-- `dequeue` after its wait returned `ret`. -/
def dequeueWake (q : FiFo T) (ret : Int) : DequeueExit T :=
  if ret = ETIMEDOUT then
    { ret := none, queue := q, signal := none }
  else
    dequeueGet q

/-- Frames that the section of `enqueue` stored. -/
def EnqueueExit.stored (e : EnqueueExit T) (pFrame : T) : List T :=
  if e.put = some 0 then [pFrame] else []

/-! ### What the sections do -/

theorem enqueueEnter_eq_none_iff
    {q : FiFo T} {pFrame : T} :
    enqueueEnter q pFrame = none ↔ q.isFull = true := by
  simp only [enqueueEnter]
  split <;> simp_all

theorem enqueueEnter_eq_some
    {q : FiFo T} {pFrame : T} {e : EnqueueExit T}
    (h : enqueueEnter q pFrame = some e) :
    q.isFull = false ∧ e = enqueuePut q pFrame := by
  simp only [enqueueEnter] at h
  split at h
  · cases h
  · rename_i hfull
    exact ⟨by simpa using hfull, (Option.some.inj h).symm⟩

@[simp] theorem enqueuePut_ret
    (q : FiFo T) (pFrame : T) :
    (enqueuePut q pFrame).ret = 0 := by
  rfl

/-- With room, `enqueue` appends its frame. -/
theorem enqueuePut_room
    {q : FiFo T} (pFrame : T) (hroom : q.isFull = false) :
    (enqueuePut q pFrame).put = some 0 ∧
    (enqueuePut q pFrame).queue.contents = q.contents ++ [pFrame] := by
  obtain ⟨hr, hc⟩ := FiFo.put_room pFrame hroom
  exact ⟨congrArg some hr, hc⟩

/-- Without room, the put fails and the queue is unchanged. -/
theorem enqueuePut_full
    {q : FiFo T} (pFrame : T) (hfull : q.isFull = true) :
    (enqueuePut q pFrame).put = some (-1) ∧
    (enqueuePut q pFrame).queue = q := by
  obtain ⟨hr, hq⟩ := FiFo.put_full pFrame hfull
  exact ⟨congrArg some hr, hq⟩

@[simp] theorem enqueueWake_timeout
    (q : FiFo T) (pFrame : T) :
    enqueueWake q pFrame ETIMEDOUT =
      { ret := -ETIMEDOUT, queue := q, put := none, signal := none } := by
  simp [enqueueWake]

theorem enqueueWake_of_ne
    (q : FiFo T) (pFrame : T) {ret : Int} (hret : ret ≠ ETIMEDOUT) :
    enqueueWake q pFrame ret = enqueuePut q pFrame := by
  simp [enqueueWake, hret]

/-- A put appends exactly the frames it stored. -/
theorem enqueuePut_contents
    (q : FiFo T) (pFrame : T) :
    (enqueuePut q pFrame).queue.contents =
      q.contents ++ (enqueuePut q pFrame).stored pFrame := by
  cases hfull : q.isFull with
  | true =>
      obtain ⟨hp, hq⟩ := enqueuePut_full pFrame hfull
      simp [EnqueueExit.stored, hp, hq]
  | false =>
      obtain ⟨hp, hc⟩ := enqueuePut_room pFrame hfull
      simp [EnqueueExit.stored, hp, hc]

/-- Every exit after a wait appends exactly the frames it stored. -/
theorem enqueueWake_contents
    (q : FiFo T) (pFrame : T) (ret : Int) :
    (enqueueWake q pFrame ret).queue.contents =
      q.contents ++ (enqueueWake q pFrame ret).stored pFrame := by
  by_cases hret : ret = ETIMEDOUT
  · subst hret
    simp [EnqueueExit.stored]
  · rw [enqueueWake_of_ne q pFrame hret]
    exact enqueuePut_contents q pFrame

@[simp] theorem enqueuePut_capacity
    (q : FiFo T) (pFrame : T) :
    (enqueuePut q pFrame).queue.capacity = q.capacity :=
  FiFo.capacity_put q pFrame

@[simp] theorem enqueueWake_capacity
    (q : FiFo T) (pFrame : T) (ret : Int) :
    (enqueueWake q pFrame ret).queue.capacity = q.capacity := by
  simp only [enqueueWake]
  split
  · rfl
  · exact enqueuePut_capacity q pFrame

theorem dequeueEnter_eq_none_iff
    {q : FiFo T} :
    dequeueEnter q = none ↔ q.contents = [] := by
  rw [← FiFo.isEmpty_iff]
  simp only [dequeueEnter]
  split <;> simp_all

theorem dequeueEnter_eq_some
    {q : FiFo T} {e : DequeueExit T}
    (h : dequeueEnter q = some e) :
    q.contents ≠ [] ∧ e = dequeueGet q := by
  simp only [dequeueEnter] at h
  split at h
  · cases h
  · rename_i hempty
    rw [FiFo.isEmpty_iff] at hempty
    exact ⟨hempty, (Option.some.inj h).symm⟩

/-- A get removes exactly the frame it returns, from the head. -/
theorem dequeueGet_contents
    (q : FiFo T) :
    (dequeueGet q).ret.toList ++ (dequeueGet q).queue.contents =
      q.contents := by
  simp only [dequeueGet]
  simp only [FiFo.get_fst, FiFo.contents_get]
  cases q.contents <;> rfl

@[simp] theorem dequeueGet_capacity
    (q : FiFo T) :
    (dequeueGet q).queue.capacity = q.capacity :=
  FiFo.capacity_get q

/-- Every exit of `dequeue` after a wait removes exactly what it returns. -/
theorem dequeueWake_contents
    (q : FiFo T) (ret : Int) :
    (dequeueWake q ret).ret.toList ++ (dequeueWake q ret).queue.contents =
      q.contents := by
  simp only [dequeueWake]
  split
  · rfl
  · exact dequeueGet_contents q

@[simp] theorem dequeueWake_capacity
    (q : FiFo T) (ret : Int) :
    (dequeueWake q ret).queue.capacity = q.capacity := by
  simp only [dequeueWake]
  split
  · rfl
  · exact dequeueGet_capacity q

end Sections

/-! ## cleanIf -/

/-- `CLEAN_FLAG_CLEAN`. -/
def cleanFlagClean : BitVec 32 := 1 <<< 0

/-- `CLEAN_FLAG_STOP`. -/
def cleanFlagStop : BitVec 32 := 1 <<< 1

/-- A cleaning callback: from `*arg` and the head frame to flags and `*arg`. -/
abbrev CleanIt (σ T : Type) := σ → T → BitVec 32 × σ

/-- What one pass of the loop of `cleanIf` did. -/
structure CleanPass (σ T : Type) where
  /-- The frame that was taken out and released. -/
  removed : Option T
  queue : FiFo T
  arg : σ
  /-- The pass ended in `break`. -/
  stop : Bool

section CleanIf

variable {σ T : Type}

/-- The flags of a pass; without a callback they stay `CLEAN_FLAG_CLEAN`. -/
def cleanFlags
    (func : Option (CleanIt σ T)) (arg : σ) (pFrame : T) : BitVec 32 × σ :=
  match func with
  | none => (cleanFlagClean, arg)
  | some f => f arg pFrame

/-- One pass of the loop; `none` when the loop condition fails. -/
def cleanPass
    (func : Option (CleanIt σ T)) (arg : σ) (q : FiFo T) :
    Option (CleanPass σ T) :=
  if q.size > 0 then
    match q.peak with
    | none => none
    | some pFrame =>
        let flag := (cleanFlags func arg pFrame).1
        let arg' := (cleanFlags func arg pFrame).2
        if flag &&& cleanFlagClean ≠ 0 then
          some
            { removed := some pFrame
              queue := q.get.2
              arg := arg'
              stop := flag &&& cleanFlagStop ≠ 0 }
        else
          some
            { removed := none
              queue := q
              arg := arg'
              stop := flag &&& cleanFlagStop ≠ 0 }
  else
    none

/--
The loop of `cleanIf`, at most `passes` evaluations of its condition.  The
result is the released frames in order, the queue and the final `*arg`; `none`
means that the loop is still running.
-/
def cleanLoop
    (func : Option (CleanIt σ T)) :
    ℕ → σ → FiFo T → Option (List T × FiFo T × σ)
  | 0, _, _ => none
  | passes + 1, arg, q =>
      match cleanPass func arg q with
      | none => some ([], q, arg)
      | some p =>
          if p.stop then
            some (p.removed.toList, p.queue, p.arg)
          else
            match cleanLoop func passes p.arg p.queue with
            | none => none
            | some (rs, q', arg') => some (p.removed.toList ++ rs, q', arg')

/-- A pass removes exactly the frame it reports, from the head. -/
theorem cleanPass_contents
    {func : Option (CleanIt σ T)} {arg : σ} {q : FiFo T} {p : CleanPass σ T}
    (h : cleanPass func arg q = some p) :
    p.removed.toList ++ p.queue.contents = q.contents ∧
    p.queue.capacity = q.capacity := by
  simp only [cleanPass] at h
  split at h
  · rw [FiFo.peak_eq] at h
    cases hc : q.contents with
    | nil =>
        simp [hc] at h
    | cons x xs =>
        simp only [hc, List.head?_cons] at h
        split at h
        · cases h
          exact ⟨by simp [hc], FiFo.capacity_get q⟩
        · cases h
          exact ⟨hc, rfl⟩
  · cases h

/-- `cleanIf` releases a prefix of the content and keeps the rest. -/
theorem cleanLoop_contents
    {func : Option (CleanIt σ T)} {passes : ℕ} {arg arg' : σ} {q q' : FiFo T}
    {rs : List T}
    (h : cleanLoop func passes arg q = some (rs, q', arg')) :
    rs ++ q'.contents = q.contents ∧ q'.capacity = q.capacity := by
  induction passes generalizing arg q rs with
  | zero =>
      cases h
  | succ passes ih =>
      simp only [cleanLoop] at h
      cases hp : cleanPass func arg q with
      | none =>
          simp only [hp, Option.some.injEq, Prod.mk.injEq] at h
          obtain ⟨rfl, rfl, rfl⟩ := h
          exact ⟨rfl, rfl⟩
      | some p =>
          obtain ⟨hpass, hcap⟩ := cleanPass_contents hp
          simp only [hp] at h
          split at h
          · simp only [Option.some.injEq, Prod.mk.injEq] at h
            obtain ⟨rfl, rfl, rfl⟩ := h
            exact ⟨hpass, hcap⟩
          · cases hrest : cleanLoop func passes p.arg p.queue with
            | none =>
                simp [hrest] at h
            | some r =>
                obtain ⟨rs', q₁, a₁⟩ := r
                simp only [hrest, Option.some.injEq, Prod.mk.injEq] at h
                obtain ⟨rfl, rfl, rfl⟩ := h
                obtain ⟨hkept, hkeptcap⟩ := ih hrest
                refine ⟨?_, hkeptcap.trans hcap⟩
                rw [List.append_assoc, hkept, hpass]

end CleanIf

end KoalaStreamer
