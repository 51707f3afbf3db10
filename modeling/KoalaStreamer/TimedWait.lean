import KoalaStreamer.QueueInterleaving

/-!
# utils/mediaThread.cpp: the deadline of a timed wait

`enqueue` and `dequeue` wait for at most 10 ms.  `pthread_cond_timedwait` takes
an absolute time, which `make_abstime_latems` computes from the wall clock; it
refuses a number of nanoseconds that is not below one second.

Main result:
* `timed_wait_deadline_iff`: when the deadline is valid, and when an `enqueue` on
  a full queue that nobody touches times out.
-/

namespace KoalaStreamer

open EventMachine

/-- `errno.h`: invalid argument. -/
def EINVAL : Int := 22

/-- `struct timeval`. -/
structure Timeval where
  tvSec : Int
  tvUsec : Int
deriving DecidableEq, Repr

/-- `struct timespec`. -/
structure Timespec where
  tvSec : Int
  tvNsec : Int
deriving DecidableEq, Repr

/-- What `gettimeofday` promises of its microseconds. -/
def Timeval.Valid (now : Timeval) : Prop :=
  0 ≤ now.tvUsec ∧ now.tvUsec < 1000000

def Timeval.toNanos (now : Timeval) : Int :=
  now.tvSec * 1000000000 + now.tvUsec * 1000

def Timespec.toNanos (abstime : Timespec) : Int :=
  abstime.tvSec * 1000000000 + abstime.tvNsec

/-- `make_abstime_latems`, for the wall clock `delta`.  `tv_usec` has 32 bits and
`ms` is unsigned, so the nanoseconds are computed in 32 bits. -/
def makeAbstimeLatems (delta : Timeval) (ms : BitVec 32) : Timespec :=
  let tvSec := delta.tvSec + (ms / 1000).toNat
  let tvNsec : Int :=
    ((BitVec.ofInt 32 delta.tvUsec + (ms % 1000) * 1000) * 1000).toNat
  if tvNsec > 1000000000 then
    { tvSec := tvSec + 1, tvNsec := tvNsec - 1000000000 }
  else
    { tvSec := tvSec, tvNsec := tvNsec }

/-- `enqueue` on a queue that no other thread touches, when its wait returns
`wait abstime`. -/
def enqueueAlone
    {T : Type} (wait : Timespec → Int) (now : Timeval) (q : FiFo T) (pFrame : T) :
    EnqueueExit T :=
  match enqueueEnter q pFrame with
  | some e => e
  | none => enqueueWake q pFrame (wait (makeAbstimeLatems now 10))

/-- What `pthread_cond_timedwait` returns when nobody signals. -/
structure UnsignalledWait (wait : Timespec → Int) : Prop where
  invalid : ∀ abstime, ¬ (0 ≤ abstime.tvNsec ∧ abstime.tvNsec < 1000000000) →
    wait abstime = EINVAL
  timedOut : ∀ abstime, 0 ≤ abstime.tvNsec → abstime.tvNsec < 1000000000 →
    wait abstime = ETIMEDOUT

/-- The deadline is `ms` milliseconds ahead, with its nanoseconds in range. -/
def ValidDeadline (now : Timeval) (ms : BitVec 32) : Prop :=
  (makeAbstimeLatems now ms).toNanos = now.toNanos + ms.toNat * 1000000 ∧
  0 ≤ (makeAbstimeLatems now ms).tvNsec ∧
  (makeAbstimeLatems now ms).tvNsec < 1000000000

/-- The call says that it timed out, and has left the queue alone. -/
def EnqueueExit.TimedOut {T : Type} (e : EnqueueExit T) (q : FiFo T) : Prop :=
  e.ret = -ETIMEDOUT ∧ e.ret ≠ 0 ∧ e.queue = q

section Deadline

variable {now : Timeval}

/-- The sum does not leave the 32 bits. -/
theorem abstime_nanos
    (hnow : now.Valid) (ms : BitVec 32) :
    (((BitVec.ofInt 32 now.tvUsec + (ms % 1000) * 1000) * 1000).toNat : Int) =
      (now.tvUsec + (ms.toNat % 1000 : ℕ) * 1000) * 1000 := by
  obtain ⟨hlow, hup⟩ := hnow
  obtain ⟨usec, husec⟩ := Int.eq_ofNat_of_zero_le hlow
  rw [husec] at hup ⊢
  have hms : ms.toNat % 1000 < 1000 := Nat.mod_lt _ (by decide)
  have hthousand : (1000 : BitVec 32).toNat = 1000 := rfl
  rw [BitVec.ofInt_natCast]
  simp only [BitVec.toNat_mul, BitVec.toNat_add, BitVec.toNat_umod,
    BitVec.toNat_ofNat, hthousand]
  omega

/-- The deadline is `ms` milliseconds ahead, with or without the carry. -/
theorem toNanos_makeAbstimeLatems
    (hnow : now.Valid) (ms : BitVec 32) :
    (makeAbstimeLatems now ms).toNanos = now.toNanos + ms.toNat * 1000000 := by
  have hnanos := abstime_nanos hnow ms
  have hdiv : (ms / 1000).toNat = ms.toNat / 1000 := by
    simp [BitVec.toNat_udiv]
  simp only [makeAbstimeLatems, hnanos, hdiv]
  split <;> simp only [Timespec.toNanos, Timeval.toNanos] <;> omega

/-- The nanoseconds are out of range only if they are exactly one second. -/
theorem nsec_makeAbstimeLatems
    (hnow : now.Valid) (ms : BitVec 32) :
    0 ≤ (makeAbstimeLatems now ms).tvNsec ∧
    ((makeAbstimeLatems now ms).tvNsec < 1000000000 ↔
      now.tvUsec + (ms.toNat % 1000 : ℕ) * 1000 ≠ 1000000) := by
  have hnanos := abstime_nanos hnow ms
  obtain ⟨hlow, hup⟩ := hnow
  have hms : ms.toNat % 1000 < 1000 := Nat.mod_lt _ (by decide)
  simp only [makeAbstimeLatems, hnanos]
  split
  · dsimp only
    omega
  · dsimp only
    omega

theorem validDeadline_iff
    (hnow : now.Valid) (ms : BitVec 32) :
    ValidDeadline now ms ↔
      now.tvUsec + (ms.toNat % 1000 : ℕ) * 1000 ≠ 1000000 := by
  obtain ⟨hnonneg, hlt⟩ := nsec_makeAbstimeLatems hnow ms
  rw [← hlt]
  constructor
  · exact fun h => h.2.2
  · exact fun h => ⟨toNanos_makeAbstimeLatems hnow ms, hnonneg, h⟩

end Deadline

section Enqueue

variable {T : Type} {wait : Timespec → Int} {now : Timeval} {q : FiFo T}

/-- Whatever the wait returns on a full queue, only a time-out is noticed. -/
theorem enqueueWake_timedOut_iff
    (pFrame : T) (ret : Int) :
    (enqueueWake q pFrame ret).TimedOut q ↔ ret = ETIMEDOUT := by
  constructor
  · rintro ⟨hret, -, -⟩
    by_contra hne
    rw [enqueueWake_of_ne q pFrame hne, enqueuePut_ret] at hret
    exact absurd hret (by decide)
  · rintro rfl
    rw [enqueueWake_timeout]
    exact ⟨rfl, show -ETIMEDOUT ≠ 0 by decide, rfl⟩

/-- On a full queue that nobody touches, `enqueue` times out if its wait does. -/
theorem enqueueAlone_timedOut_iff
    (hwait : UnsignalledWait wait) (hnow : now.Valid)
    (pFrame : T) (hfull : q.isFull = true) :
    (enqueueAlone wait now q pFrame).TimedOut q ↔ ValidDeadline now 10 := by
  have henter : enqueueEnter q pFrame = none := enqueueEnter_eq_none_iff.mpr hfull
  simp only [enqueueAlone, henter]
  rw [enqueueWake_timedOut_iff]
  constructor
  · intro hret
    by_contra hinvalid
    rw [hwait.invalid] at hret
    · exact absurd hret (by decide)
    · intro hrange
      exact hinvalid ⟨toNanos_makeAbstimeLatems hnow 10, hrange⟩
  · rintro ⟨-, hnonneg, hlt⟩
    exact hwait.timedOut _ hnonneg hlt

/-- The two sections of a thread that calls `enqueue` on a full queue, one right
after the other, are the call on a queue that nobody touches. -/
theorem enqueueAlone_run
    {Tid σ : Type} [DecidableEq Tid] {s : QueueState Tid T} {t : Tid}
    (hidle : s.pc t = .idle) (hfull : s.queue.isFull = true)
    (wait : Timespec → Int) (now : Timeval) (pFrame : T) :
    ∃ tr s', Run (queueStep (σ := σ)) s tr s' ∧
      tr.map (·.action) =
        [.enqueue t pFrame, .enqueueWake t (wait (makeAbstimeLatems now 10))] ∧
      s'.queue = (enqueueAlone wait now s.queue pFrame).queue ∧
      .enqueueReturned s.nextCall pFrame
        (enqueueAlone wait now s.queue pFrame).ret ∈ eventsOf tr := by
  have henter : enqueueEnter s.queue pFrame = none :=
    enqueueEnter_eq_none_iff.mpr hfull
  let waiting : QueueState Tid T :=
    { s with
      pc := Function.update s.pc t (.enqueueWait s.nextCall pFrame false)
      nextCall := s.nextCall + 1 }
  have hcalls : queueStep (σ := σ) s (.enqueue t pFrame) = some (waiting, []) := by
    simp only [queueStep, hidle, henter]
    rfl
  have hwakes :
      queueStep (σ := σ) waiting
        (.enqueueWake t (wait (makeAbstimeLatems now 10))) =
      some (finishEnqueue waiting t s.nextCall waiting.nextCall pFrame
        (enqueueWake s.queue pFrame (wait (makeAbstimeLatems now 10)))) := by
    simp only [queueStep, waiting, Function.update_self]
  refine ⟨_, _, (Run.single hcalls).snoc hwakes, rfl, ?_, ?_⟩
  · simp only [enqueueAlone, henter]
  · simp [enqueueAlone, henter, eventsOf]

end Enqueue

/--
For every reading of the wall clock: the deadline `ms` milliseconds ahead is
valid unless the microseconds add up to exactly one second; and so `enqueue`,
which waits 10 ms, times out on a full queue that nobody touches unless the clock
shows 990000 microseconds.
-/
theorem timed_wait_deadline_iff
    {wait : Timespec → Int} {now : Timeval}
    (hwait : UnsignalledWait wait) (hnow : now.Valid) :
    (∀ ms, ValidDeadline now ms ↔
      now.tvUsec + (ms.toNat % 1000 : ℕ) * 1000 ≠ 1000000) ∧
    ∀ {T : Type} (q : FiFo T) (pFrame : T), q.isFull = true →
      ((enqueueAlone wait now q pFrame).TimedOut q ↔ now.tvUsec ≠ 990000) := by
  refine ⟨validDeadline_iff hnow, ?_⟩
  intro T q pFrame hfull
  rw [enqueueAlone_timedOut_iff hwait hnow pFrame hfull, validDeadline_iff hnow]
  have hten : (10 : BitVec 32).toNat % 1000 = 10 := by decide
  rw [hten]
  omega

/-- `pthread_cond_timedwait` when nobody signals. -/
def condTimedwaitUnsignalled (abstime : Timespec) : Int :=
  if 0 ≤ abstime.tvNsec ∧ abstime.tvNsec < 1000000000 then ETIMEDOUT else EINVAL

/-- A queue of one frame, which is full. -/
def fullQueue : FiFo ℕ :=
  ((FiFo.init 1).put 7).2

/-- A wait that ends in the next second. -/
theorem timed_wait_deadline_iff_carry :
    ValidDeadline ⟨1503300000, 995000⟩ 10 ∧
    (enqueueAlone condTimedwaitUnsignalled ⟨1503300000, 995000⟩ fullQueue 8).TimedOut
      fullQueue := by
  have hwait : UnsignalledWait condTimedwaitUnsignalled :=
    ⟨fun _ h => if_neg h, fun _ hnonneg hlt => if_pos ⟨hnonneg, hlt⟩⟩
  have hnow : Timeval.Valid ⟨1503300000, 995000⟩ := ⟨by decide, by decide⟩
  obtain ⟨hvalid, htimesOut⟩ := timed_wait_deadline_iff hwait hnow
  exact ⟨(hvalid 10).mpr (by decide),
    (htimesOut fullQueue 8 (by decide)).mpr (by decide)⟩

/-- At 990000 microseconds the deadline has a whole second of nanoseconds, and
`enqueue` returns 0 without having stored the frame. -/
theorem timed_wait_deadline_fails_whole_second :
    (makeAbstimeLatems ⟨1503300000, 990000⟩ 10).tvNsec = 1000000000 ∧
    (enqueueAlone condTimedwaitUnsignalled ⟨1503300000, 990000⟩ fullQueue 8).ret =
      0 ∧
    (enqueueAlone condTimedwaitUnsignalled ⟨1503300000, 990000⟩ fullQueue 8).queue.contents =
      [7] := by
  decide +kernel

end KoalaStreamer
