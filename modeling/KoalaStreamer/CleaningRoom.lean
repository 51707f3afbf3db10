import KoalaStreamer.EncodedTransport
import KoalaStreamer.FramePopulation
import KoalaStreamer.ShutdownProgress

/-!
# A cleaned queue has room for the encoder

An encoder thread that finds its output queue full tries again and again.  What ends this
is the device thread: in every pass it looks at the queue and cleans it when it is long.
`getSize` takes no mutex, so the queue may change between the look and the cleaning; but
the first frame that a cleaning looks at is always dropped, and the mutex is held from then
on to the end of the cleaning.

Main result: `cleaning_leaves_room`: from the end of every visit to a queue of encoded
frames on, `enqueue` succeeds until it has succeeded.
-/

namespace KoalaStreamer

open EventMachine TokenAccounting

section Visits

/-- The queue that the device thread looks at or cleans. -/
def DevicePc.visits : DevicePc → Option QueueId
  | .sizing q => some q
  | .entering q => some q
  | .cleaning q _ => some q
  | .cleanReleasing q _ _ _ => some q
  | _ => none

/-- The step ends a visit to the queue. -/
def EndsVisit (q : QueueId) (τ : PipelineTransition) : Prop :=
  τ.src.device.visits = some q ∧ τ.dst.device.visits ≠ some q

instance (q : QueueId) (τ : PipelineTransition) : Decidable (EndsVisit q τ) :=
  inferInstanceAs (Decidable (_ ∧ _))

/-- Once a cleaning has looked at a frame, the queue is not full; the count of the frames
dropped says whether it has. -/
def VisitRoom (s : PipelineState) : Prop :=
  match s.device with
  | .cleaning q size => 0 ≤ size ∧ (0 < size → (s.queue q).isFull = false)
  | .cleanReleasing q size _ _ => 0 < size ∧ (s.queue q).isFull = false
  | _ => True

end Visits

section Steps

variable {cfg : StreamerConfig} {lib : LibAv} {s s' : PipelineState}
  {es : List PipelineEvent} {a : PipelineAction} {e : EncoderId}

theorem pipelineStep_queueCapacity
    (h : pipelineStep cfg lib s a = some (s', es)) (q : QueueId) :
    (s'.queue q).capacity = (s.queue q).capacity := by
  have hcapacity : HasCapacity s.pFrameStack.capacity (fun q => (s.queue q).capacity) s :=
    ⟨rfl, fun _ => rfl⟩
  exact (pipelineStep_hasCapacity hcapacity h).queue q

/-- A queue that has not grown has the room it had. -/
theorem isFull_of_length_le
    (h : pipelineStep cfg lib s a = some (s', es)) {q : QueueId}
    (hle : (s'.queue q).contents.length ≤ (s.queue q).contents.length)
    (hroom : (s.queue q).isFull = false) : (s'.queue q).isFull = false := by
  rw [FiFo.isFull_eq_false_iff] at hroom ⊢
  rw [pipelineStep_queueCapacity h q]
  omega

/-- Only its encoder thread makes a queue of encoded frames longer, by an `enqueue` that
returns 0. -/
theorem pipelineStep_output_length
    (hplaced : s.device.Placed) (h : pipelineStep cfg lib s a = some (s', es))
    (e : EncoderId) :
    (s'.queue e.output).contents.length ≤ (s.queue e.output).contents.length ∨
    ∃ pFrame, .enqueueReturned (.encoder e) e.output pFrame 0 ∈ es := by
  have hsame : s'.queue e.output = s.queue e.output →
      (s'.queue e.output).contents.length ≤ (s.queue e.output).contents.length :=
    fun heq => (congrArg (fun q => q.contents.length) heq).le
  have htaken : ∀ {q : QueueId} {contents : FiFo FrameId} {taken : List FrameId},
      s'.queue = Function.update s.queue q contents →
      taken ++ contents.contents = (s.queue q).contents →
      (s'.queue e.output).contents.length ≤ (s.queue e.output).contents.length := by
    intro q contents taken hqueue htaken
    rw [hqueue]
    by_cases hq : e.output = q
    · subst hq
      rw [Function.update_self, ← htaken, List.length_append]
      exact Nat.le_add_left _ _
    · rw [Function.update_of_ne hq]
  cases a with
  | device answer =>
      rcases deviceStep_output hplaced h e with hcontents | ⟨f, hcontents⟩
      · exact Or.inl (congrArg List.length hcontents).le
      · refine Or.inl ?_
        rw [hcontents, List.length_cons]
        exact Nat.le_succ _
  | encoder e' answer =>
      by_cases he : e' = e
      · subst he
        cases encoderStep_case h with
        | gets hpc hlocked hsome =>
            exact Or.inl (htaken rfl (dequeueGet_contents _))
        | dequeueWakes hpc hlocked =>
            exact Or.inl (htaken rfl (dequeueWake_contents _ _))
        | deals pFrame hpc =>
            refine Or.inl (hsame ?_)
            cases answer.encoded <;> rfl
        | releasesEncoded pFrame pkt out hpc =>
            exact Or.inl (hsame (congrFun (mediaFrameRelease_same s pFrame).1.queue _))
        | releasesInput pFrame hpc =>
            exact Or.inl (hsame (congrFun (mediaFrameRelease_same s pFrame).1.queue _))
        | releases pFrame hpc =>
            exact Or.inl (hsame (congrFun (mediaFrameRelease_same s pFrame).1.queue _))
        | getsFrame pkt out hpc =>
            exact Or.inl (hsame (congrFun (getMediaFrame_same s).1.queue _))
        | puts pFrame hpc hlocked hroom =>
            exact Or.inr ⟨pFrame, List.mem_singleton_self _⟩
        | enqueueWakes pFrame hpc hlocked =>
            by_cases hwait : answer.wait = ETIMEDOUT
            · refine Or.inl (htaken rfl (?_ : [] ++ _ = _))
              rw [hwait, enqueueWake_timeout]
              rfl
            · refine Or.inr ⟨pFrame, ?_⟩
              rw [enqueueWake_of_ne _ _ hwait]
              exact List.mem_singleton_self _
        | _ =>
            exact Or.inl (hsame rfl)
      · exact Or.inl (hsame (encoderStep_queue h (input_ne_output e' e).symm
          fun heq => he (output_injective heq).symm))
  | mux answer =>
      cases muxThreadStep_case h with
      | gets stream again hpc hlocked hsome =>
          exact Or.inl (htaken rfl (dequeueGet_contents _))
      | dequeueWakes stream again hpc hlocked =>
          exact Or.inl (htaken rfl (dequeueWake_contents _ _))
      | callbackReleases stream pFrame hpc =>
          exact Or.inl (hsame (congrFun (mediaFrameRelease_same s pFrame).1.queue _))
      | releases stream pFrame ret hpc =>
          exact Or.inl (hsame (congrFun (mediaFrameRelease_same s pFrame).1.queue _))
      | _ =>
          exact Or.inl (hsame rfl)
  | setStop =>
      obtain ⟨rfl, -⟩ := Prod.mk.inj (Option.some.inj h)
      exact Or.inl (hsame rfl)
  | _ =>
      simp only [pipelineStep] at h
      split at h <;> obtain ⟨rfl, -⟩ := Prod.mk.inj (Option.some.inj h) <;>
        exact Or.inl (hsame rfl)

/-- The queue that the device thread holds is not touched by the others. -/
theorem locked_queue_kept
    (h : pipelineStep cfg lib s a = some (s', es)) {q : QueueId}
    (hlocked : s.locked q = true) (hdevice : ∀ answer, a ≠ .device answer) :
    s'.queue q = s.queue q := by
  have hother : ∀ {q'} {contents : FiFo FrameId}, s.locked q' = false →
      s'.queue = Function.update s.queue q' contents → s'.queue q = s.queue q := by
    intro q' contents hfree hqueue
    rw [hqueue]
    refine Function.update_of_ne ?_ _ _
    rintro rfl
    rw [hlocked] at hfree
    cases hfree
  cases a with
  | device answer =>
      exact absurd rfl (hdevice answer)
  | encoder e answer =>
      cases encoderStep_case h with
      | gets hpc hfree hsome =>
          exact hother hfree rfl
      | dequeueWakes hpc hfree =>
          exact hother hfree rfl
      | puts pFrame hpc hfree hroom =>
          exact hother hfree rfl
      | enqueueWakes pFrame hpc hfree =>
          exact hother hfree rfl
      | deals pFrame hpc =>
          cases answer.encoded <;> rfl
      | releasesEncoded pFrame pkt out hpc =>
          exact congrFun (mediaFrameRelease_same s pFrame).1.queue q
      | releasesInput pFrame hpc =>
          exact congrFun (mediaFrameRelease_same s pFrame).1.queue q
      | releases pFrame hpc =>
          exact congrFun (mediaFrameRelease_same s pFrame).1.queue q
      | getsFrame pkt out hpc =>
          exact congrFun (getMediaFrame_same s).1.queue q
      | _ =>
          rfl
  | mux answer =>
      cases muxThreadStep_case h with
      | gets stream again hpc hfree hsome =>
          exact hother hfree rfl
      | dequeueWakes stream again hpc hfree =>
          exact hother hfree rfl
      | callbackReleases stream pFrame hpc =>
          exact congrFun (mediaFrameRelease_same s pFrame).1.queue q
      | releases stream pFrame ret hpc =>
          exact congrFun (mediaFrameRelease_same s pFrame).1.queue q
      | _ =>
          rfl
  | setStop =>
      obtain ⟨rfl, -⟩ := Prod.mk.inj (Option.some.inj h)
      rfl
  | _ =>
      simp only [pipelineStep] at h
      split at h <;> obtain ⟨rfl, -⟩ := Prod.mk.inj (Option.some.inj h) <;> rfl

/-! ### Inside a visit -/

/-- The callbacks count the frames they drop, and drop the first frame they see. -/
theorem cleanCallback_pass
    {q : QueueId} {size : Int} {p : CleanPass Int FrameId}
    (hpass : cleanPass (some (cleanCallback s q)) size (s.queue q) = some p) :
    (∀ pFrame, p.removed = some pFrame → p.arg = size + 1) ∧
    (p.removed = none → size ≠ 0) := by
  cases hcontents : (s.queue q).contents with
  | nil =>
      have hsize : (s.queue q).size = 0 := by
        rw [FiFo.size_eq, hcontents]
        rfl
      simp [cleanPass, hsize] at hpass
  | cons f rest =>
      have hflags : cleanCallback s q size f = (cleanFlagClean, size + 1) ∨
          (cleanCallback s q size f = (cleanFlagStop, size) ∧ size ≠ 0) := by
        have hA : myCleanQueueA size f = (cleanFlagClean, size + 1) ∨
            (myCleanQueueA size f = (cleanFlagStop, size) ∧ size ≠ 0) := by
          simp only [myCleanQueueA]
          split
          · exact Or.inl rfl
          · exact Or.inr ⟨rfl, by omega⟩
        cases q with
        | pVEQueue =>
            simp only [cleanCallback, myCleanQueueV]
            split
            · exact Or.inl rfl
            · rename_i hkey
              exact Or.inr ⟨rfl, fun hzero => hkey (Or.inr hzero)⟩
        | _ => exact hA
      rcases hflags with hclean | ⟨hstop, hne⟩
      · rw [cleanPass_of_clean hcontents hclean] at hpass
        obtain rfl := Option.some.inj hpass
        exact ⟨fun _ _ => rfl, fun hnone => by cases hnone⟩
      · rw [cleanPass_of_stop hcontents hstop] at hpass
        obtain rfl := Option.some.inj hpass
        exact ⟨fun _ hsome => (by cases hsome), fun _ => hne⟩

/-- A pass that drops a frame makes room. -/
theorem cleanPass_room
    {q : QueueId} {size : Int} {p : CleanPass Int FrameId} {pFrame : FrameId}
    (hpass : cleanPass (some (cleanCallback s q)) size (s.queue q) = some p)
    (hremoved : p.removed = some pFrame) : p.queue.isFull = false := by
  obtain ⟨hcontents, hcapacity⟩ := cleanPass_contents hpass
  have hlength := congrArg List.length hcontents
  have hle := (s.queue q).length_le
  rw [hremoved, Option.toList_some, List.singleton_append, List.length_cons] at hlength
  rw [FiFo.isFull_eq_false_iff, hcapacity]
  omega

theorem afterSize_visitRoom
    {q : QueueId} (hpc : s.device = afterSize q) : VisitRoom s := by
  cases q <;> simp only [VisitRoom, hpc, afterSize]

theorem pipelineStep_visitRoom
    (hroom : VisitRoom s) (h : pipelineStep cfg lib s a = some (s', es)) :
    VisitRoom s' := by
  by_cases hdevice : ∃ answer, a = .device answer
  · obtain ⟨answer, rfl⟩ := hdevice
    cases deviceStep_case h with
    | loopHead hpc =>
        cases hstop : s.stop <;> simp [VisitRoom, PipelineState.setDevice]
    | routes streamIndex pFrame hpc =>
        simp only [VisitRoom, PipelineState.setDevice, routeFrame]
        split_ifs <;> exact trivial
    | skips q hpc hshort =>
        exact afterSize_visitRoom rfl
    | enters q hpc =>
        exact ⟨Int.le_refl 0, fun hpos => absurd hpos (Int.lt_irrefl 0)⟩
    | cleanEnds q size hpc hpass =>
        exact afterSize_visitRoom rfl
    | cleans q size p hpc hpass hremoved =>
        refine afterSize_visitRoom (q := q) ?_
        show (if p.stop then _ else _) = _
        rw [cleanCallback_progress hpass hremoved, if_pos rfl]
    | removes q size p pFrame hpc hpass hremoved =>
        simp only [VisitRoom, hpc] at hroom
        refine ⟨?_, ?_⟩
        · have harg := (cleanCallback_pass hpass).1 pFrame hremoved
          have hnonneg := hroom.1
          omega
        · have hqueue : (Function.update s.queue q p.queue q) = p.queue :=
            Function.update_self _ _ _
          show (Function.update s.queue q p.queue q).isFull = false
          rw [hqueue]
          exact cleanPass_room hpass hremoved
    | cleanReleases q size stop pFrame hpc =>
        simp only [VisitRoom, hpc] at hroom
        have hqueue : ((s.mediaFrameRelease pFrame).setDevice
            (if stop then afterSize q else .cleaning q size)).queue q = s.queue q :=
          congrFun (mediaFrameRelease_same s pFrame).1.queue q
        cases stop with
        | true =>
            exact afterSize_visitRoom rfl
        | false =>
            exact ⟨hroom.1.le, fun _ => (congrArg FiFo.isFull hqueue).trans hroom.2⟩
    | _ =>
        exact trivial
  · have hne : ∀ answer, a ≠ .device answer := fun answer heq => hdevice ⟨answer, heq⟩
    have hsame := pipelineStep_device h hne
    simp only [VisitRoom] at hroom ⊢
    rw [hsame]
    split at hroom
    · rename_i q size hpc
      have hkept := locked_queue_kept h (q := q)
        (by simp [PipelineState.locked, hpc]) hne
      rw [hkept]
      exact hroom
    · rename_i q size stop pFrame hpc
      have hkept := locked_queue_kept h (q := q)
        (by simp [PipelineState.locked, hpc]) hne
      rw [hkept]
      exact hroom
    · exact trivial

/-- When a visit ends, the queue is short, or a frame was dropped. -/
theorem visit_ends_with_room
    {q : QueueId} (hhas : cfg.hasQueue q = true)
    (hlimit : cleanLimit q < (s.queue q).capacity)
    (hroom : VisitRoom s) (h : pipelineStep cfg lib s a = some (s', es))
    (hends : EndsVisit q ⟨s, a, es, s'⟩) : (s'.queue q).isFull = false := by
  obtain ⟨hvisits, hleft⟩ := hends
  dsimp only at hvisits hleft
  by_cases hdevice : ∃ answer, a = .device answer
  · obtain ⟨answer, rfl⟩ := hdevice
    have hvisit : ∀ {pc q'}, s.device = pc → pc.visits = some q' → q' = q := by
      intro pc q' hpc hq'
      rw [hpc, hq'] at hvisits
      exact Option.some.inj hvisits
    cases deviceStep_case h with
    | selects q' hpc hlong =>
        obtain rfl := hvisit hpc rfl
        exact absurd rfl hleft
    | skips q' hpc hshort =>
        obtain rfl := hvisit hpc rfl
        have hsize : ¬ (s.queue q').size > cleanLimit q' := fun hlong => hshort ⟨hhas, hlong⟩
        show (s.queue q').isFull = false
        rw [FiFo.isFull_eq_false_iff, ← FiFo.size_eq]
        omega
    | enters q' hpc =>
        obtain rfl := hvisit hpc rfl
        exact absurd rfl hleft
    | cleanEnds q' size hpc hpass =>
        obtain rfl := hvisit hpc rfl
        show (s.queue q').isFull = false
        have hempty : (s.queue q').contents = [] := by
          cases hcontents : (s.queue q').contents with
          | nil => rfl
          | cons f rest =>
              have hsize : (s.queue q').size > 0 := by
                rw [FiFo.size_eq, hcontents]
                exact Nat.succ_pos _
              simp only [cleanPass, hsize, if_true, FiFo.peak_eq, hcontents,
                List.head?_cons] at hpass
              split at hpass <;> cases hpass
        rw [FiFo.isFull_eq_false_iff, hempty, List.length_nil]
        omega
    | cleans q' size p hpc hpass hremoved =>
        obtain rfl := hvisit hpc rfl
        simp only [VisitRoom, hpc] at hroom
        have hpos : 0 < size := by
          have hne := (cleanCallback_pass hpass).2 hremoved
          have hnonneg := hroom.1
          omega
        have hcontents := (cleanPass_contents hpass).1
        rw [hremoved, Option.toList_none, List.nil_append] at hcontents
        refine isFull_of_length_le h (le_of_eq ?_) (hroom.2 hpos)
        show (Function.update s.queue q' p.queue q').contents.length = _
        rw [Function.update_self, hcontents]
    | removes q' size p pFrame hpc hpass hremoved =>
        obtain rfl := hvisit hpc rfl
        exact absurd rfl hleft
    | cleanReleases q' size stop pFrame hpc =>
        obtain rfl := hvisit hpc rfl
        simp only [VisitRoom, hpc] at hroom
        have hqueue : ((s.mediaFrameRelease pFrame).setDevice
            (if stop then afterSize q' else .cleaning q' size)).queue q' = s.queue q' :=
          congrFun (mediaFrameRelease_same s pFrame).1.queue q'
        rw [hqueue]
        exact hroom.2
    | loopHead hpc => cases (hpc ▸ hvisits : DevicePc.visits .loopHead = some q)
    | reads hpc => cases (hpc ▸ hvisits : DevicePc.visits .reading = some q)
    | getsFrame pkt streamIndex hpc =>
        rw [hpc] at hvisits
        cases hvisits
    | fills pkt streamIndex pFrame hpc =>
        rw [hpc] at hvisits
        cases hvisits
    | routes streamIndex pFrame hpc =>
        rw [hpc] at hvisits
        cases hvisits
    | waits q' pFrame hpc hfull =>
        rw [hpc] at hvisits
        cases hvisits
    | puts q' pFrame hpc hfree =>
        rw [hpc] at hvisits
        cases hvisits
    | wakes q' pFrame hpc =>
        rw [hpc] at hvisits
        cases hvisits
    | releases pFrame hpc =>
        rw [hpc] at hvisits
        cases hvisits
  · rw [pipelineStep_device h fun answer heq => hdevice ⟨answer, heq⟩] at hleft
    exact absurd hvisits hleft

end Steps

section Runs

variable {cfg : StreamerConfig} {lib : LibAv} {poolCapacity : ℕ}
  {capacity : QueueId → ℕ} {pHandle : KoalaMuxer}
  {tr : List PipelineTransition} {s : PipelineState}

theorem run_visitRoom
    (run : Run (pipelineStep cfg lib)
      (PipelineState.init poolCapacity capacity pHandle) tr s) :
    VisitRoom s :=
  Run.invariant (fun _ s => VisitRoom s) (by simp [VisitRoom, PipelineState.init])
    (fun _ _ _ _ _ hroom hstep => pipelineStep_visitRoom hroom hstep) run

/-- Room stays until an `enqueue` of the encoder thread returns 0. -/
theorem run_keeps_room
    (run : Run (pipelineStep cfg lib)
      (PipelineState.init poolCapacity capacity pHandle) tr s)
    {e : EncoderId} (hhas : cfg.hasQueue e.output = true)
    (hlimit : cleanLimit e.output < capacity e.output)
    {before after : List PipelineTransition} {τ : PipelineTransition}
    (htr : tr = before ++ τ :: after) (hends : EndsVisit e.output τ)
    (hnone : ∀ τ' ∈ after, ∀ pFrame,
      .enqueueReturned (.encoder e) e.output pFrame 0 ∉ τ'.events) :
    (s.queue e.output).isFull = false := by
  induction run generalizing after with
  | nil =>
      exact absurd htr (by simp)
  | @snoc tr s s' a es run hstep ih =>
      rcases List.eq_nil_or_concat after with rfl | ⟨rest, last, rfl⟩
      · -- the visit has just ended
        obtain ⟨-, hlast⟩ := List.append_inj' htr rfl
        obtain rfl := (List.cons.inj hlast).1
        have hlimit' : cleanLimit e.output < (s.queue e.output).capacity := by
          rw [(run_hasCapacity run).queue e.output]
          exact hlimit
        exact visit_ends_with_room hhas hlimit' (run_visitRoom run) hstep hends
      · rw [List.concat_eq_append] at htr hnone
        have hsplit : tr ++ [⟨s, a, es, s'⟩] = (before ++ τ :: rest) ++ [last] := by
          rw [htr]
          simp
        obtain ⟨hfront, hlast⟩ := List.append_inj' hsplit rfl
        obtain rfl := List.singleton_inj.mp hlast
        have hroom := ih hfront fun τ' hτ' => hnone τ' (List.mem_append_left _ hτ')
        rcases pipelineStep_output_length (run_placed run) hstep e with hle | ⟨pFrame, hput⟩
        · exact isFull_of_length_le hstep hle hroom
        · exact absurd hput (hnone ⟨s, a, es, s'⟩ (by simp) pFrame)

end Runs

/--
In every run, from the step on that ends a visit of the device thread to the output queue
of an encoder thread, the queue is not full until an `enqueue` of this thread has returned
0; so the next `enqueue` of the thread, once it gets the mutex, stores its frame and
returns 0 without a wait.
-/
theorem cleaning_leaves_room
    {cfg : StreamerConfig} {lib : LibAv} {poolCapacity : ℕ}
    {capacity : QueueId → ℕ} {pHandle : KoalaMuxer}
    {tr : List PipelineTransition} {s : PipelineState}
    (run : Run (pipelineStep cfg lib)
      (PipelineState.init poolCapacity capacity pHandle) tr s)
    {e : EncoderId} (hhas : cfg.hasQueue e.output = true)
    (hlimit : cleanLimit e.output < capacity e.output)
    {before after : List PipelineTransition} {τ : PipelineTransition}
    (htr : tr = before ++ τ :: after) (hends : EndsVisit e.output τ)
    (hnone : ∀ τ' ∈ after, ∀ pFrame,
      .enqueueReturned (.encoder e) e.output pFrame 0 ∉ τ'.events) :
    (s.queue e.output).isFull = false ∧
    ∀ pFrame answer, s.encoder e = .enqueueing pFrame → s.locked e.output = false →
      ∃ s', pipelineStep cfg lib s (.encoder e answer) =
          some (s', [.enqueueReturned (.encoder e) e.output pFrame 0]) ∧
        (s'.queue e.output).contents = (s.queue e.output).contents ++ [pFrame] := by
  have hroom := run_keeps_room run hhas hlimit htr hends hnone
  refine ⟨hroom, fun pFrame answer hpc hlocked => ?_⟩
  have henter : enqueueEnter (s.queue e.output) pFrame =
      some (enqueuePut (s.queue e.output) pFrame) := by
    simp only [enqueueEnter, hroom]
    rfl
  refine ⟨(encoderEnqueued s e pFrame (enqueuePut (s.queue e.output) pFrame)).1, ?_, ?_⟩
  · show encoderStep s e answer = _
    simp only [encoderStep, hpc, hlocked, henter]
    rfl
  · show (Function.update s.queue e.output _ e.output).contents = _
    rw [Function.update_self, enqueuePut_contents, enqueuePut_stored,
      if_neg (by simp [hroom])]

/-- The device thread reads a packet and the encoder thread stores a key frame, 81 times; then
the device thread reads one more, the encoder thread has its frame to enqueue, and the
device thread enters the queue to clean it.  The mux thread has only come to its first
`dequeue`. -/
def fillQueue : List PipelineAction :=
  [.startMux, .mux ⟨0, 0, false⟩, .start .mpThreadVE] ++
    (List.replicate 81 (List.replicate 8 (.device ⟨0, 0⟩) ++
      List.replicate 8 (.encoder .mpThreadVE ⟨.got ⟨7, 100, 0, 0, 1⟩, 0⟩))).flatten ++
    List.replicate 6 (.device ⟨0, 0⟩) ++
    List.replicate 6 (.encoder .mpThreadVE ⟨.got ⟨7, 100, 0, 0, 1⟩, 0⟩) ++
    List.replicate 2 (.device ⟨0, 0⟩)

/-- What a cleaning of a queue of 81 frames leaves, when it has ended. -/
def CleanedLong (r : List PipelineTransition × PipelineState) : Prop :=
  r.1.getLast?.any (fun τ => decide (EndsVisit .pVEQueue τ)) = true ∧
  (∃ τ ∈ r.1, τ.src.device = .cleaning .pVEQueue 0 ∧
    (τ.src.queue .pVEQueue).contents.length = 81) ∧
  (r.2.queue .pVEQueue).contents.length = 80 ∧
  r.2.encoder .mpThreadVE = .enqueueing 81 ∧ r.2.locked .pVEQueue = false

instance : DecidablePred CleanedLong :=
  fun _ => inferInstanceAs (Decidable (_ ∧ _))

/-- The cleaning of a queue of 81 frames begins, and ends three steps later. -/
theorem exists_longQueue :
    ∃ tr s, Run (pipelineStep ⟨0, 1⟩ exactLibAv)
      (PipelineState.init 500 queueCapacity
        (openedMuxer false true false "flv" 0 0 0)) tr s ∧
      s.device = .cleaning .pVEQueue 0 ∧ (s.queue .pVEQueue).contents.length = 81 ∧
      s.mux = .dequeueing .video false ∧
      (exec (pipelineStep ⟨0, 1⟩ exactLibAv) s
        (List.replicate 3 (.device ⟨0, 0⟩))).any (fun r => decide (CleanedLong r)) = true :=
  Run.exists_of_exec (pipelineStep ⟨0, 1⟩ exactLibAv)
    (PipelineState.init 500 queueCapacity
      (openedMuxer false true false "flv" 0 0 0))
    fillQueue
    (fun r => r.2.device = .cleaning .pVEQueue 0 ∧
      (r.2.queue .pVEQueue).contents.length = 81 ∧ r.2.mux = .dequeueing .video false ∧
      (exec (pipelineStep ⟨0, 1⟩ exactLibAv) r.2
        (List.replicate 3 (.device ⟨0, 0⟩))).any (fun r => decide (CleanedLong r)) = true)
    (by decide +kernel)

/-- The queue of encoded video has been cleaned; the next frame is stored behind the 80
that are left. -/
theorem cleaning_leaves_room_cleaned :
    ∃ tr s, Run (pipelineStep ⟨0, 1⟩ exactLibAv)
      (PipelineState.init 500 queueCapacity
        (openedMuxer false true false "flv" 0 0 0)) tr s ∧
      (∃ τ ∈ tr, τ.src.device = .cleaning .pVEQueue 0 ∧
        (τ.src.queue .pVEQueue).contents.length = 81) ∧
      (s.queue .pVEQueue).contents.length = 80 ∧
      (s.queue .pVEQueue).isFull = false ∧
      ∃ s', pipelineStep ⟨0, 1⟩ exactLibAv s (.encoder .mpThreadVE ⟨.kept, 0⟩) =
          some (s', [.enqueueReturned (.encoder .mpThreadVE) .pVEQueue 81 0]) ∧
        (s'.queue .pVEQueue).contents = (s.queue .pVEQueue).contents ++ [81] := by
  obtain ⟨filled, long, run, -, -, -, hclean⟩ := exists_longQueue
  obtain ⟨tr, s, rest, hlast, ⟨τ, hτ, hlong⟩, hlength, hpc, hlocked⟩ :=
    Run.exists_of_exec (pipelineStep ⟨0, 1⟩ exactLibAv) long _ CleanedLong hclean
  cases hsome : tr.getLast? with
  | none =>
      rw [hsome] at hlast
      cases hlast
  | some last =>
      rw [hsome] at hlast
      obtain ⟨before, rfl⟩ := List.getLast?_eq_some_iff.mp hsome
      obtain ⟨hroom, hputs⟩ := cleaning_leaves_room (run.append rest) (e := .mpThreadVE)
        (by decide) (by decide) (List.append_assoc _ _ _).symm (of_decide_eq_true hlast)
        (fun _ hmem => by cases hmem)
      exact ⟨_, s, run.append rest, ⟨τ, List.mem_append_right _ hτ, hlong⟩, hlength, hroom,
        hputs 81 ⟨.kept, 0⟩ hpc hlocked⟩

end KoalaStreamer
