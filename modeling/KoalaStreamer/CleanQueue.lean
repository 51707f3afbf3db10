import KoalaStreamer.MediaFrameQueue

/-!
# MacRTMPStreamer.cpp: the cleaning callbacks

The device thread cleans an output queue when it has become too long:
`myCleanQueueV` drops video frames up to the next key frame, `myCleanQueueA`
drops a number of audio frames.

Main results:
* `cleanLoop_cleaned_shrinks`: called with count 0, both remove a frame when
  there is one;
* `cleanLoop_myCleanQueueV`: a frame that `myCleanQueueV` leaves at the head is
  a key frame.
-/

namespace KoalaStreamer

section CleanCallbacks

variable {T : Type}

/-- `myCleanQueueV`; the argument counts the frames dropped. -/
def myCleanQueueV (flag : T → Int) : CleanIt Int T :=
  fun size pFrame =>
    if flag pFrame = 0 ∨ size = 0 then
      (cleanFlagClean, size + 1)
    else
      (cleanFlagStop, size)

/-- `myCleanQueueA`; the argument counts the frames dropped. -/
def myCleanQueueA : CleanIt Int T :=
  fun size _ =>
    if size < 100 then
      (cleanFlagClean, size + 1)
    else
      (cleanFlagStop, size)

/-- A pass whose callback answers `CLEAN_FLAG_CLEAN` drops the head. -/
theorem cleanPass_of_clean
    {σ : Type} {func : CleanIt σ T} {arg arg' : σ} {q : FiFo T} {x : T} {xs : List T}
    (hq : q.contents = x :: xs)
    (hfunc : func arg x = (cleanFlagClean, arg')) :
    cleanPass (some func) arg q =
      some { removed := some x, queue := q.get.2, arg := arg', stop := false } := by
  have hsize : q.size > 0 := by
    rw [FiFo.size_eq, hq]
    simp
  simp [cleanPass, hsize, hq, cleanFlags, hfunc, cleanFlagClean, cleanFlagStop]

/-- A pass whose callback answers `CLEAN_FLAG_STOP` leaves the queue alone. -/
theorem cleanPass_of_stop
    {σ : Type} {func : CleanIt σ T} {arg arg' : σ} {q : FiFo T} {x : T} {xs : List T}
    (hq : q.contents = x :: xs)
    (hfunc : func arg x = (cleanFlagStop, arg')) :
    cleanPass (some func) arg q =
      some { removed := none, queue := q, arg := arg', stop := true } := by
  have hsize : q.size > 0 := by
    rw [FiFo.size_eq, hq]
    simp
  simp [cleanPass, hsize, hq, cleanFlags, hfunc, cleanFlagClean, cleanFlagStop]

/-- A cleaning whose callback drops the head releases the head first. -/
theorem cleanLoop_of_clean
    {σ : Type} {func : CleanIt σ T} {passes : ℕ} {arg arg' arg'' : σ}
    {q q' : FiFo T} {x : T} {xs rs : List T}
    (hq : q.contents = x :: xs)
    (hfunc : func arg x = (cleanFlagClean, arg'))
    (hloop : cleanLoop (some func) passes arg q = some (rs, q', arg'')) :
    ∃ rs', rs = x :: rs' ∧ q'.contents.length ≤ xs.length := by
  cases passes with
  | zero =>
      cases hloop
  | succ passes =>
      have hpass := cleanPass_of_clean hq hfunc
      simp only [cleanLoop, hpass, Bool.false_eq_true, if_false] at hloop
      cases hrest : cleanLoop (some func) passes arg' q.get.2 with
      | none =>
          simp [hrest] at hloop
      | some r =>
          obtain ⟨rs', q₁, a₁⟩ := r
          simp only [hrest, Option.some.injEq, Prod.mk.injEq] at hloop
          obtain ⟨rfl, rfl, rfl⟩ := hloop
          obtain ⟨hkeep, _⟩ := cleanLoop_contents hrest
          refine ⟨rs', rfl, ?_⟩
          have hlen := congrArg List.length hkeep
          rw [FiFo.contents_get, hq, List.tail_cons, List.length_append] at hlen
          omega

/-- Called with count 0, both callbacks drop a frame when there is one. -/
theorem cleanLoop_cleaned_shrinks
    {flag : T → Int} {func : CleanIt Int T} {passes : ℕ} {count : Int}
    {q q' : FiFo T} {rs : List T}
    (hfunc : func = myCleanQueueV flag ∨ func = myCleanQueueA)
    (hloop : cleanLoop (some func) passes 0 q = some (rs, q', count))
    (hne : q.contents ≠ []) :
    q'.contents.length < q.contents.length := by
  obtain ⟨x, xs, hq⟩ := List.exists_cons_of_ne_nil hne
  have hclean : func 0 x = (cleanFlagClean, 1) := by
    rcases hfunc with rfl | rfl
    · simp [myCleanQueueV]
    · simp [myCleanQueueA]
  obtain ⟨_, _, hle⟩ := cleanLoop_of_clean hq hclean hloop
  rw [hq]
  exact Nat.lt_succ_of_le hle

/-- What `myCleanQueueV` leaves at the head is a key frame. -/
theorem cleanLoop_myCleanQueueV
    {flag : T → Int} {passes : ℕ} {size size' : Int} {q q' : FiFo T}
    {rs : List T}
    (h : cleanLoop (some (myCleanQueueV flag)) passes size q =
      some (rs, q', size')) :
    ∀ x ∈ q'.contents.head?, flag x ≠ 0 := by
  induction passes generalizing size q rs with
  | zero =>
      cases h
  | succ passes ih =>
      cases hq : q.contents with
      | nil =>
          have hnone : cleanPass (some (myCleanQueueV flag)) size q = none := by
            simp [cleanPass, FiFo.size_eq, hq]
          simp only [cleanLoop, hnone, Option.some.injEq, Prod.mk.injEq] at h
          obtain ⟨rfl, rfl, rfl⟩ := h
          simp [hq]
      | cons y ys =>
          by_cases hdrop : flag y = 0 ∨ size = 0
          · have hfunc : myCleanQueueV flag size y =
                (cleanFlagClean, size + 1) := by
              simp [myCleanQueueV, hdrop]
            have hpass := cleanPass_of_clean hq hfunc
            simp only [cleanLoop, hpass, Bool.false_eq_true, if_false] at h
            cases hrest : cleanLoop (some (myCleanQueueV flag)) passes (size + 1)
                q.get.2 with
            | none =>
                simp [hrest] at h
            | some r =>
                obtain ⟨rs', q₁, a₁⟩ := r
                simp only [hrest, Option.some.injEq, Prod.mk.injEq] at h
                obtain ⟨_, rfl, rfl⟩ := h
                exact ih hrest
          · have hfunc : myCleanQueueV flag size y = (cleanFlagStop, size) := by
              simp [myCleanQueueV, hdrop]
            have hpass := cleanPass_of_stop hq hfunc
            simp only [cleanLoop, hpass, if_true, Option.some.injEq,
              Prod.mk.injEq] at h
            obtain ⟨rfl, rfl, rfl⟩ := h
            rw [hq]
            intro x hx
            cases hx
            exact fun hzero => hdrop (Or.inl hzero)

end CleanCallbacks

end KoalaStreamer
