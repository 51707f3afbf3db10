import KoalaStreamer.CleanQueue
import KoalaStreamer.Library.HeadDrain

/-!
# utils/mediaThread.cpp: when cleanIf ends and what it does

The loop of `cleanIf` is a drain of the queue from its head: `CLEAN_FLAG_CLEAN`
removes the head and `CLEAN_FLAG_STOP` stops.  Without one of the bits the
callback is asked again about the same frame.

Main results:
* `exists_cleanIfResult_iff`: the loop returns exactly what the drain does;
* `cleanIf_exact`: when `cleanIf` ends and what it releases and leaves, for
  every callback, for none, for `myCleanQueueA` and for `myCleanQueueV`.
-/

namespace KoalaStreamer

open HeadDrain

section CleanIf

variable {σ T : Type}

/-- What the two bits of a flag word order. -/
def cleanVerdict (flag : BitVec 32) : Verdict where
  remove := flag &&& cleanFlagClean ≠ 0
  stop := flag &&& cleanFlagStop ≠ 0

/-- The question that a pass of `cleanIf` asks about the head. -/
def cleanAsk (func : Option (CleanIt σ T)) : Ask σ T :=
  fun arg pFrame =>
    (cleanVerdict (cleanFlags func arg pFrame).1, (cleanFlags func arg pFrame).2)

/-- `cleanIf` returns: the frames released, the queue and `*arg`. -/
def CleanIfResult
    (func : Option (CleanIt σ T)) (arg : σ) (q : FiFo T)
    (released : List T) (q' : FiFo T) (arg' : σ) : Prop :=
  ∃ passes, cleanLoop func passes arg q = some (released, q', arg')

/-- `cleanIf` returns. -/
def CleanIfEnds (func : Option (CleanIt σ T)) (arg : σ) (q : FiFo T) : Prop :=
  ∃ released q' arg', CleanIfResult func arg q released q' arg'

/-- `*arg` after `k` successive calls of the callback on one frame. -/
def argAfter (func : Option (CleanIt σ T)) (pFrame : T) (k : ℕ) (arg : σ) : σ :=
  (fun arg => (cleanFlags func arg pFrame).2)^[k] arg

/-- Every one of infinitely many successive calls on the frame answers with
neither bit. -/
def NeverAnswers (func : Option (CleanIt σ T)) (arg : σ) (pFrame : T) : Prop :=
  ∀ k,
    (cleanFlags func (argAfter func pFrame k arg) pFrame).1 &&& cleanFlagClean = 0 ∧
    (cleanFlags func (argAfter func pFrame k arg) pFrame).1 &&& cleanFlagStop = 0

theorem waitsForever_iff
    {func : Option (CleanIt σ T)} {arg : σ} {pFrame : T} :
    WaitsForever (cleanAsk func) arg pFrame ↔ NeverAnswers func arg pFrame := by
  simp [WaitsForever, NeverAnswers, cleanAsk, cleanVerdict, stateAfter, argAfter]

section Pass

variable {func : Option (CleanIt σ T)} {arg arg' : σ} {q : FiFo T} {x : T}
  {xs : List T}

/-- On an empty queue the loop condition fails. -/
theorem cleanPass_nil
    (hq : q.contents = []) :
    cleanPass func arg q = none := by
  simp [cleanPass, FiFo.size_eq, hq]

/-- One pass on a queue with a head does what the verdict says. -/
theorem cleanPass_cons
    (hq : q.contents = x :: xs) :
    cleanPass func arg q =
      some
        { removed := if (cleanAsk func arg x).1.remove then some x else none
          queue := if (cleanAsk func arg x).1.remove then q.get.2 else q
          arg := (cleanAsk func arg x).2
          stop := (cleanAsk func arg x).1.stop } := by
  have hsize : q.size > 0 := by
    rw [FiFo.size_eq, hq]
    simp
  simp only [cleanPass, hsize, if_true, FiFo.peak_eq, hq, List.head?_cons,
    cleanAsk, cleanVerdict, decide_eq_true_eq]
  split <;> simp_all

end Pass

/-- What the loop does, the drain of its content does. -/
theorem cleanLoop_drains
    {func : Option (CleanIt σ T)} {passes : ℕ} {arg arg' : σ} {q q' : FiFo T}
    {rs : List T}
    (h : cleanLoop func passes arg q = some (rs, q', arg')) :
    Drains (cleanAsk func) arg q.contents rs q'.contents arg' := by
  induction passes generalizing arg q rs with
  | zero =>
      cases h
  | succ passes ih =>
      cases hq : q.contents with
      | nil =>
          simp only [cleanLoop, cleanPass_nil hq, Option.some.injEq,
            Prod.mk.injEq] at h
          obtain ⟨rfl, rfl, rfl⟩ := h
          rw [hq]
          exact Drains.empty _
      | cons x xs =>
          have hget : q.get.2.contents = xs := by
            rw [FiFo.contents_get, hq, List.tail_cons]
          have hpass : cleanPass func arg q = _ := cleanPass_cons hq
          rcases hask : cleanAsk func arg x with ⟨⟨remove, stop⟩, b⟩
          rw [hask] at hpass
          simp only [cleanLoop, hpass] at h
          cases stop with
          | true =>
              simp only [if_true, Option.some.injEq, Prod.mk.injEq] at h
              obtain ⟨rfl, rfl, rfl⟩ := h
              cases remove with
              | true =>
                  simp only [if_true, Option.toList_some, hget]
                  exact Drains.removeStop hask
              | false =>
                  simp only [Bool.false_eq_true, if_false, Option.toList_none, hq]
                  exact Drains.stop hask
          | false =>
              simp only [Bool.false_eq_true, if_false] at h
              split at h
              · cases h
              · rename_i rs' q₁ a₁ hrest
                simp only [Option.some.injEq, Prod.mk.injEq] at h
                obtain ⟨rfl, rfl, rfl⟩ := h
                have hdrain := ih hrest
                cases remove with
                | true =>
                    simp only [if_true, hget] at hdrain
                    exact Drains.remove hask hdrain
                | false =>
                    simp only [Bool.false_eq_true, if_false, hq] at hdrain
                    exact Drains.wait hask hdrain

/-- What the drain of the content does, the loop does in enough passes. -/
theorem cleanLoop_of_drains
    {func : Option (CleanIt σ T)} {arg arg' : σ} {xs rs ys : List T}
    (h : Drains (cleanAsk func) arg xs rs ys arg')
    {q : FiFo T} (hq : q.contents = xs) :
    ∃ passes q', cleanLoop func passes arg q = some (rs, q', arg') ∧
      q'.contents = ys := by
  induction h generalizing q with
  | empty a =>
      exact ⟨1, q, by simp [cleanLoop, cleanPass_nil hq], hq⟩
  | stop hask =>
      refine ⟨1, q, ?_, hq⟩
      simp [cleanLoop, cleanPass_cons hq, hask]
  | removeStop hask =>
      refine ⟨1, q.get.2, ?_, ?_⟩
      · simp [cleanLoop, cleanPass_cons hq, hask]
      · rw [FiFo.contents_get, hq, List.tail_cons]
  | remove hask rest ih =>
      obtain ⟨passes, q', hloop, hq'⟩ := ih (q := q.get.2) (by
        rw [FiFo.contents_get, hq, List.tail_cons])
      refine ⟨passes + 1, q', ?_, hq'⟩
      simp [cleanLoop, cleanPass_cons hq, hask, hloop]
  | wait hask rest ih =>
      obtain ⟨passes, q', hloop, hq'⟩ := ih hq
      refine ⟨passes + 1, q', ?_, hq'⟩
      simp [cleanLoop, cleanPass_cons hq, hask, hloop]

/-- `cleanIf` returns exactly the outcome of the drain. -/
theorem exists_cleanIfResult_iff
    {func : Option (CleanIt σ T)} {arg arg' : σ} {q : FiFo T} {rs ys : List T} :
    (∃ q', CleanIfResult func arg q rs q' arg' ∧ q'.contents = ys) ↔
      Drains (cleanAsk func) arg q.contents rs ys arg' := by
  constructor
  · rintro ⟨q', ⟨passes, hloop⟩, rfl⟩
    exact cleanLoop_drains hloop
  · intro h
    obtain ⟨passes, q', hloop, hq'⟩ := cleanLoop_of_drains h rfl
    exact ⟨q', ⟨passes, hloop⟩, hq'⟩

/-- `cleanIf` ends unless some head is never answered for. -/
theorem cleanIfEnds_iff
    {func : Option (CleanIt σ T)} {arg : σ} {q : FiFo T} :
    CleanIfEnds func arg q ↔
      ¬ ∃ arg' pFrame, Asks (cleanAsk func) arg q.contents arg' pFrame ∧
        NeverAnswers func arg' pFrame := by
  simp only [← waitsForever_iff]
  rw [← drains_iff]
  constructor
  · rintro ⟨rs, q', arg', h⟩
    exact ⟨rs, _, arg', exists_cleanIfResult_iff.mp ⟨q', h, rfl⟩⟩
  · rintro ⟨rs, ys, arg', h⟩
    obtain ⟨q', hres, _⟩ := exists_cleanIfResult_iff.mpr h
    exact ⟨rs, q', arg', hres⟩

/-! ### The callbacks of the program -/

theorem cleanVerdict_clean :
    cleanVerdict cleanFlagClean = ⟨true, false⟩ := by
  decide

theorem cleanVerdict_stop :
    cleanVerdict cleanFlagStop = ⟨false, true⟩ := by
  decide

/-- Without a callback every frame is removed. -/
theorem drains_null
    (arg : σ) (xs : List T) :
    Drains (cleanAsk none) arg xs xs [] arg := by
  refine drains_all ?_ xs
  intro x
  simp only [cleanAsk, cleanFlags, cleanVerdict_clean]

/-- `myCleanQueueA` removes frames until it has counted 100. -/
theorem drains_myCleanQueueA
    (n : ℕ) (hn : n ≤ 100) (xs : List T) :
    ∃ count, Drains (cleanAsk (some myCleanQueueA)) (n : Int) xs
      (xs.take (100 - n)) (xs.drop (100 - n)) count := by
  induction xs generalizing n with
  | nil =>
      simp only [List.take_nil, List.drop_nil]
      exact ⟨n, Drains.empty _⟩
  | cons x xs ih =>
      rcases Nat.lt_or_ge n 100 with hlt | hge
      · obtain ⟨count, hrest⟩ := ih (n + 1) (by omega)
        obtain ⟨k, hk⟩ : ∃ k, 100 - n = k + 1 := ⟨100 - n - 1, by omega⟩
        have hk' : 100 - (n + 1) = k := by omega
        rw [hk'] at hrest
        rw [hk, List.take_succ_cons, List.drop_succ_cons]
        have hsize : (n : Int) < 100 := by omega
        refine ⟨count, Drains.remove ?_ hrest⟩
        simp only [cleanAsk, cleanFlags, myCleanQueueA, hsize, if_true,
          cleanVerdict_clean]
        push_cast
        rfl
      · have hsize : ¬ (n : Int) < 100 := by omega
        have hzero : 100 - n = 0 := by omega
        rw [hzero, List.take_zero, List.drop_zero]
        refine ⟨n, Drains.stop ?_⟩
        simp only [cleanAsk, cleanFlags, myCleanQueueA, hsize, if_false,
          cleanVerdict_stop]

/-- Once it has counted a frame, `myCleanQueueV` removes the frames of flag 0
in front and counts them. -/
theorem drains_myCleanQueueV
    (flag : T → Int) (n : ℕ) (hn : n ≠ 0) (xs : List T) :
    Drains (cleanAsk (some (myCleanQueueV flag))) (n : Int) xs
      (xs.takeWhile (flag · = 0)) (xs.dropWhile (flag · = 0))
      ((n + (xs.takeWhile (flag · = 0)).length : ℕ) : Int) := by
  induction xs generalizing n with
  | nil =>
      exact Drains.empty _
  | cons x xs ih =>
      have hsize : (n : Int) ≠ 0 := by omega
      by_cases hx : flag x = 0
      · have hrest := ih (n + 1) (by omega)
        simp only [List.takeWhile_cons, List.dropWhile_cons, hx, decide_true,
          if_true, List.length_cons]
        rw [Nat.add_right_comm, ← Nat.add_assoc] at *
        refine Drains.remove ?_ hrest
        simp only [cleanAsk, cleanFlags, myCleanQueueV, hx, true_or, if_true,
          cleanVerdict_clean]
        push_cast
        rfl
      · simp only [List.takeWhile_cons, List.dropWhile_cons, hx, decide_false,
          Bool.false_eq_true, if_false, List.length_nil, Nat.add_zero]
        refine Drains.stop ?_
        simp only [cleanAsk, cleanFlags, myCleanQueueV, hx, hsize, or_self,
          if_false, cleanVerdict_stop]

/-- With count 0, `myCleanQueueV` removes the head whatever its flag is. -/
theorem drains_myCleanQueueV_zero
    (flag : T → Int) (x : T) (xs : List T) :
    Drains (cleanAsk (some (myCleanQueueV flag))) 0 (x :: xs)
      (x :: xs.takeWhile (flag · = 0)) (xs.dropWhile (flag · = 0))
      ((x :: xs.takeWhile (flag · = 0)).length : Int) := by
  have hrest := drains_myCleanQueueV flag 1 (by omega) xs
  rw [Nat.add_comm] at hrest
  refine Drains.remove ?_ hrest
  simp [cleanAsk, cleanFlags, myCleanQueueV, cleanVerdict_clean]

/-- What `dropWhile` leaves begins with an element that it does not drop. -/
theorem head?_dropWhile_flag
    (flag : T → Int) (xs : List T) :
    ∀ x ∈ (xs.dropWhile (flag · = 0)).head?, flag x ≠ 0 := by
  intro x hx
  have hnot := List.head?_dropWhile_not (fun y => decide (flag y = 0)) xs
  rw [Option.mem_def.mp hx] at hnot
  simpa using hnot

end CleanIf

/--
`cleanIf` ends unless it calls the callback on a head that every further call
answers with neither bit.  Whatever it releases is a prefix of the queue, and it
leaves the rest.  Without a callback it releases everything; `myCleanQueueA`
releases the first 100 frames; `myCleanQueueV` releases the head and the frames
of flag 0 behind it, and counts what it released.
-/
theorem cleanIf_exact
    {σ T : Type} :
    (∀ (func : Option (CleanIt σ T)) (arg : σ) (q : FiFo T),
      (CleanIfEnds func arg q ↔
        ¬ ∃ arg' pFrame, Asks (cleanAsk func) arg q.contents arg' pFrame ∧
          NeverAnswers func arg' pFrame) ∧
      ∀ released q' arg', CleanIfResult func arg q released q' arg' →
        released ++ q'.contents = q.contents) ∧
    (∀ (arg : σ) (q : FiFo T), ∃ q',
      CleanIfResult none arg q q.contents q' arg ∧ q'.contents = []) ∧
    (∀ q : FiFo T, ∃ q' count,
      CleanIfResult (some myCleanQueueA) 0 q
        (q.contents.take (min 100 q.contents.length)) q' count ∧
      q'.contents = q.contents.drop (min 100 q.contents.length)) ∧
    ∀ (flag : T → Int) (q : FiFo T), q.contents ≠ [] → ∃ released q',
      CleanIfResult (some (myCleanQueueV flag)) 0 q released q' released.length ∧
      q'.contents = q.contents.tail.dropWhile (flag · = 0) ∧
      ∀ x ∈ q'.contents.head?, flag x ≠ 0 := by
  refine ⟨?_, ?_, ?_, ?_⟩
  · intro func arg q
    refine ⟨cleanIfEnds_iff, ?_⟩
    intro released q' arg' hres
    exact (exists_cleanIfResult_iff.mp ⟨q', hres, rfl⟩).split
  · intro arg q
    exact exists_cleanIfResult_iff.mpr (drains_null arg q.contents)
  · intro q
    obtain ⟨count, hdrain⟩ := drains_myCleanQueueA 0 (by omega) q.contents
    rw [Nat.sub_zero, List.take_eq_take_min, List.drop_eq_drop_min] at hdrain
    obtain ⟨q', hres, hq'⟩ := exists_cleanIfResult_iff.mpr hdrain
    exact ⟨q', count, hres, hq'⟩
  · intro flag q hne
    obtain ⟨x, xs, hq⟩ := List.exists_cons_of_ne_nil hne
    have hdrain := drains_myCleanQueueV_zero flag x xs
    rw [← hq] at hdrain
    obtain ⟨q', hres, hq'⟩ := exists_cleanIfResult_iff.mpr hdrain
    refine ⟨_, q', hres, ?_, ?_⟩
    · rw [hq', hq, List.tail_cons]
    · rw [hq']
      exact head?_dropWhile_flag flag xs

/-- A key frame, two frames that depend on it, the next key frame and one more:
cleaning stops at the second key frame. -/
theorem cleanIf_exact_second_key_frame :
    ∃ q : FiFo Int, q.contents = [1, 0, 0, 1, 0] ∧ ∃ released q',
      CleanIfResult (some (myCleanQueueV id)) 0 q released q' released.length ∧
      q'.contents = [1, 0] := by
  have hq : (([1, 0, 0, 1, 0] : List Int).foldl (fun q x => (q.put x).2)
      (FiFo.init 5)).contents = [1, 0, 0, 1, 0] := by
    decide +kernel
  refine ⟨_, hq, ?_⟩
  obtain ⟨released, q', hres, hq', -⟩ :=
    (cleanIf_exact (σ := Unit)).2.2.2 id _ (by rw [hq]; simp)
  refine ⟨released, q', hres, ?_⟩
  rw [hq', hq]
  rfl

end KoalaStreamer
