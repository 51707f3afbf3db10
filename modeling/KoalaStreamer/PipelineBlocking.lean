import KoalaStreamer.CleaningRoom
import KoalaStreamer.MuxRefinement

/-!
# What a thread of the running pipeline waits for

The mutex of a queue is held beyond a step only while the device thread cleans the queue,
and a cleaning is short.  What can last is the wait for a frame: `write_frame` asks the
callback of the stream that is behind, and the callback does not return without a frame.

Main results:
* `blocked_by_cleaning`: a thread that cannot go on waits for a cleaning, which takes a
  bounded number of steps of the device thread;
* `merge_waits_for_stream`: while the stream asked for brings no frame, nothing is written,
  of the other stream neither.
-/

namespace KoalaStreamer

open EventMachine

/-! ## Waiting for a mutex -/

section Blocked

/-- The thread has been created and has not exited. -/
def PipelineState.Alive (s : PipelineState) : PipelineThread → Prop
  | .device => s.device ≠ .exited
  | .encoder e => s.encoder e ≠ .notCreated ∧ s.encoder e ≠ .exited
  | .mux => s.mux ≠ .notCreated ∧ s.mux ≠ .exited

/-- The queue whose mutex the thread takes next, if it can be kept waiting. -/
def PipelineState.wants (s : PipelineState) : PipelineThread → Option QueueId
  | .device => none
  | .encoder e => (s.encoder e).wants e
  | .mux => s.mux.wants

/-- The thread can take its next step, whatever it is answered. -/
def PipelineState.CanStep
    (cfg : StreamerConfig) (lib : LibAv) (s : PipelineState) (t : PipelineThread) : Prop :=
  ∀ a : PipelineAction, a.thread = some t → ∃ r, pipelineStep cfg lib s a = some r

/-- How many steps of the device thread the cleaning that goes on can still take. -/
def PipelineState.cleaningLeft (s : PipelineState) : ℕ :=
  match s.device with
  | .cleaning q _ => 2 * (s.queue q).contents.length + 1
  | .cleanReleasing q _ _ _ => 2 * (s.queue q).contents.length + 2
  | _ => 0

def PipelineAction.isDevice : PipelineAction → Bool
  | .device _ => true
  | _ => false

variable {cfg : StreamerConfig} {lib : LibAv} {s s' : PipelineState}
  {es : List PipelineEvent} {a : PipelineAction} {t : PipelineThread}

theorem canStep_device
    (hpc : s.device ≠ .exited) : s.CanStep cfg lib .device := by
  intro a ha
  cases a with
  | device answer =>
      exact device_enabled hpc answer
  | _ =>
      cases ha

/-- A thread is kept waiting only by the queue it wants. -/
theorem canStep_of_free
    (halive : s.Alive t) (hfree : ∀ q, s.wants t = some q → s.locked q = false) :
    s.CanStep cfg lib t := by
  intro a ha
  cases a with
  | device answer =>
      obtain rfl := Option.some.inj ha
      exact device_enabled halive answer
  | encoder e answer =>
      obtain rfl := Option.some.inj ha
      exact encoder_enabled hfree halive.1 halive.2 answer
  | mux answer =>
      obtain rfl := Option.some.inj ha
      exact mux_enabled hfree halive.1 halive.2 answer
  | _ =>
      cases ha

theorem locked_device
    {q : QueueId} (hlocked : s.locked q = true) :
    (∃ size, s.device = .cleaning q size) ∨
      ∃ size stop pFrame, s.device = .cleanReleasing q size stop pFrame := by
  simp only [PipelineState.locked] at hlocked
  split at hlocked
  · rename_i hpc
    rw [of_decide_eq_true hlocked] at hpc
    exact Or.inl ⟨_, hpc⟩
  · rename_i hpc
    rw [of_decide_eq_true hlocked] at hpc
    exact Or.inr ⟨_, _, _, hpc⟩
  · cases hlocked

theorem cleaningLeft_le
    {q : QueueId} (hlocked : s.locked q = true) :
    0 < s.cleaningLeft ∧ s.cleaningLeft ≤ 2 * (s.queue q).contents.length + 2 := by
  rcases locked_device hlocked with ⟨size, hpc⟩ | ⟨size, stop, pFrame, hpc⟩ <;>
    simp [PipelineState.cleaningLeft, hpc]

theorem not_locked_afterSize
    {q q' : QueueId} (hpc : s.device = afterSize q) : s.locked q' = false := by
  cases q <;> simp only [PipelineState.locked, hpc, afterSize]

/-- A step of the device thread in a cleaning ends it or brings its end nearer. -/
theorem deviceStep_cleaningLeft
    {answer : DeviceAnswer} {q : QueueId} (hlocked : s.locked q = true)
    (hlocked' : s'.locked q = true) (h : deviceStep cfg s answer = some (s', es)) :
    s'.cleaningLeft + 1 ≤ s.cleaningLeft := by
  have hends : ∀ {q'}, s'.device ≠ afterSize q' := by
    intro q' hpc
    rw [not_locked_afterSize hpc] at hlocked'
    cases hlocked'
  rcases locked_device hlocked with ⟨size, hpc⟩ | ⟨size, stop, pFrame, hpc⟩
  · simp only [deviceStep, hpc] at h
    cases hpass : cleanPass (some (cleanCallback s q)) size (s.queue q) with
    | none =>
        simp only [hpass] at h
        obtain ⟨rfl, -⟩ := Prod.mk.inj (Option.some.inj h)
        exact absurd rfl hends
    | some p =>
        cases hremoved : p.removed with
        | none =>
            simp only [hpass, hremoved, cleanCallback_progress hpass hremoved] at h
            obtain ⟨rfl, -⟩ := Prod.mk.inj (Option.some.inj h)
            exact absurd rfl hends
        | some pFrame =>
            simp only [hpass, hremoved] at h
            obtain ⟨rfl, -⟩ := Prod.mk.inj (Option.some.inj h)
            have hlength := congrArg List.length (cleanPass_contents hpass).1
            rw [hremoved, Option.toList_some, List.singleton_append, List.length_cons]
              at hlength
            simp only [PipelineState.cleaningLeft, hpc, PipelineState.setDevice,
              PipelineState.setQueue, Function.update_self]
            omega
  · simp only [deviceStep, hpc] at h
    obtain ⟨rfl, -⟩ := Prod.mk.inj (Option.some.inj h)
    cases stop with
    | true =>
        exact absurd rfl hends
    | false =>
        have hqueue := congrFun (mediaFrameRelease_same s pFrame).1.queue q
        simp only [PipelineState.cleaningLeft, hpc, PipelineState.setDevice,
          Bool.false_eq_true, if_false, hqueue]
        omega

/-- While the device thread cleans, the others do not touch the queue. -/
theorem pipelineStep_cleaningLeft
    {q : QueueId} (hlocked : s.locked q = true) (hlocked' : s'.locked q = true)
    (h : pipelineStep cfg lib s a = some (s', es)) :
    s'.cleaningLeft + (if a.isDevice then 1 else 0) ≤ s.cleaningLeft := by
  have hbeside : (∀ answer, a ≠ .device answer) → s'.device = s.device →
      s'.cleaningLeft ≤ s.cleaningLeft := by
    intro hne hdevice
    have hqueue := locked_queue_kept h hlocked hne
    rcases locked_device hlocked with ⟨size, hpc⟩ | ⟨size, stop, pFrame, hpc⟩ <;>
      simp only [PipelineState.cleaningLeft, hdevice, hpc, hqueue] <;> exact Nat.le_refl _
  cases a with
  | device answer =>
      exact deviceStep_cleaningLeft hlocked hlocked' h
  | encoder e answer =>
      exact hbeside (by simp) (encoderStep_others h).2.2.2.1
  | mux answer =>
      exact hbeside (by simp) (muxThreadStep_others h).2.2.1
  | setStop =>
      obtain ⟨rfl, -⟩ := Prod.mk.inj (Option.some.inj h)
      exact Nat.le_refl _
  | _ =>
      simp only [pipelineStep] at h
      split at h <;> obtain ⟨rfl, -⟩ := Prod.mk.inj (Option.some.inj h) <;>
        exact Nat.le_refl _

/-- As long as the mutex is held, the steps of the device thread are counted. -/
theorem run_cleaningLeft
    {q : QueueId} {tr : List PipelineTransition}
    (rest : Run (pipelineStep cfg lib) s tr s') (hlocked : s.locked q = true)
    (hheld : ∀ τ ∈ tr, τ.dst.locked q = true) :
    s'.locked q = true ∧
      s'.cleaningLeft + tr.countP (fun τ => τ.action.isDevice) ≤ s.cleaningLeft := by
  refine Run.invariant_of (fun τ => τ.dst.locked q = true)
    (fun tr s' => s'.locked q = true ∧
      s'.cleaningLeft + tr.countP (fun τ => τ.action.isDevice) ≤ s.cleaningLeft)
    ⟨hlocked, Nat.le_refl _⟩ ?_ rest hheld
  rintro tr mid a es next ⟨hmid, hle⟩ hstep hnext
  refine ⟨hnext, ?_⟩
  have hstep' : next.cleaningLeft + (if a.isDevice then 1 else 0) ≤ mid.cleaningLeft :=
    pipelineStep_cleaningLeft hmid hnext hstep
  rw [List.countP_append, List.countP_singleton]
  dsimp only
  omega

end Blocked

/--
A thread that has been created and has not exited can go on, unless the queue whose mutex
it takes next is being cleaned.  Then the device thread can go on, and if it is still at
this cleaning later, it has taken at most twice as many steps as there were frames, and
one more.
-/
theorem blocked_by_cleaning
    (cfg : StreamerConfig) (lib : LibAv) (s : PipelineState) (t : PipelineThread)
    (halive : s.Alive t) :
    s.CanStep cfg lib t ∨
      ∃ q, s.wants t = some q ∧ s.locked q = true ∧ s.CanStep cfg lib .device ∧
        ∀ (tr : List PipelineTransition) s', Run (pipelineStep cfg lib) s tr s' →
          (∀ τ ∈ tr, τ.dst.locked q = true) →
          tr.countP (fun τ => τ.action.isDevice) ≤ 2 * (s.queue q).contents.length + 1 := by
  by_cases hfree : ∀ q, s.wants t = some q → s.locked q = false
  · exact Or.inl (canStep_of_free halive hfree)
  · obtain ⟨q, hq⟩ := not_forall.mp hfree
    obtain ⟨hwants, hlocked⟩ := Classical.not_imp.mp hq
    rw [Bool.not_eq_false] at hlocked
    refine Or.inr ⟨q, hwants, hlocked, canStep_device ?_, ?_⟩
    · intro hexited
      rw [not_locked_of_exited hexited] at hlocked
      cases hlocked
    · intro tr s' rest hheld
      obtain ⟨hlocked', hcount⟩ := run_cleaningLeft rest hlocked hheld
      have hpos := (cleaningLeft_le hlocked').1
      have hle := (cleaningLeft_le hlocked).2
      omega

/-- The mux thread wants a frame of the queue of 81 frames that is being cleaned. -/
theorem blocked_by_cleaning_mux :
    ∃ tr s, Run (pipelineStep ⟨0, 1⟩ exactLibAv)
        (PipelineState.init 500 queueCapacity
          (openedMuxer false true false "flv" 0 0 0)) tr s ∧
      ¬ s.CanStep ⟨0, 1⟩ exactLibAv .mux ∧
      s.wants .mux = some .pVEQueue ∧ s.locked .pVEQueue = true ∧
      s.CanStep ⟨0, 1⟩ exactLibAv .device ∧
      ∀ (more : List PipelineTransition) s', Run (pipelineStep ⟨0, 1⟩ exactLibAv) s more s' →
        (∀ τ ∈ more, τ.dst.locked .pVEQueue = true) →
        more.countP (fun τ => τ.action.isDevice) ≤ 163 := by
  obtain ⟨tr, s, run, hdevice, hlength, hmux, -⟩ := exists_longQueue
  have hblocked : ¬ s.CanStep ⟨0, 1⟩ exactLibAv .mux := by
    intro hstep
    obtain ⟨r, hr⟩ := hstep (.mux ⟨0, 0, false⟩) rfl
    simp [pipelineStep, muxThreadStep, hmux, PipelineState.locked, hdevice,
      StreamType.queue] at hr
  rcases blocked_by_cleaning ⟨0, 1⟩ exactLibAv s .mux
    ⟨by simp [hmux], by simp [hmux]⟩ with hstep | ⟨q, hwants, hlocked, hgoes, hcount⟩
  · exact absurd hstep hblocked
  · obtain rfl : q = .pVEQueue := by
      rw [PipelineState.wants, hmux] at hwants
      exact (Option.some.inj hwants).symm
    refine ⟨tr, s, run, hblocked, hwants, hlocked, hgoes, fun more s' rest hheld => ?_⟩
    exact (hcount more s' rest hheld).trans (by rw [hlength])

/-! ## Waiting for a frame -/

section Waits

/-- `write_frame` waits for the callback of the stream, which has no frame yet. -/
def MuxPc.awaits (stream : StreamType) : MuxPc → Prop
  | .dequeueing stream' _ => stream' = stream
  | .dequeueWaiting stream' _ => stream' = stream
  | .dequeued stream' _ pFrame => stream' = stream ∧ pFrame = none
  | _ => False

/-- The mux thread waits for a frame of the stream, and there is none. -/
structure AwaitsFrame (stream : StreamType) (s : PipelineState) : Prop where
  asking : s.mux.awaits stream
  empty : (s.queue stream.queue).contents = []
  running : s.stop = false

/-- An `enqueue` into the queue has returned. -/
def PipelineEvent.offers (q : QueueId) : PipelineEvent → Bool
  | .enqueueReturned _ q' _ _ => q' = q
  | _ => false

/-- The step brings no frame to the stream and does not set `stop`. -/
def BringsNothing (stream : StreamType) (τ : PipelineTransition) : Prop :=
  τ.dst.stop = false ∧ ∀ e ∈ τ.events, e.offers stream.queue = false

instance (stream : StreamType) (τ : PipelineTransition) : Decidable (BringsNothing stream τ) :=
  inferInstanceAs (Decidable (_ ∧ _))

variable {cfg : StreamerConfig} {lib : LibAv} {s s' : PipelineState}
  {es : List PipelineEvent} {a : PipelineAction} {stream : StreamType}

/-- Only `enqueue` brings a frame to a queue. -/
theorem ThreadMove.empty_queue
    {t : PipelineThread} {lost : List FrameId} {q : QueueId}
    (h : ThreadMove t s s' es lost) (hempty : (s.queue q).contents = [])
    (hnone : ∀ e ∈ es, e.offers q = false) :
    (s'.queue q).contents = [] := by
  have hqueue : ∀ {mid : PipelineState} {hand}, s'.custody =
      Function.update mid.custody (.hand t) hand →
      (s'.queue q).contents = (mid.queue q).contents := by
    intro mid hand hset
    exact congrFun hset (.queue q)
  cases h with
  | walks hand hset hnext hhand =>
      rw [hqueue hset, hempty]
  | releases pFrame hset hnext hhand =>
      rw [hqueue hset, (mediaFrameRelease_same s pFrame).1.queue, hempty]
  | obtains hset hnext hhand =>
      rw [hqueue hset, (getMediaFrame_same s).1.queue, hempty]
  | takes q' contents hand hset hnext hhand htaken =>
      rw [hqueue hset]
      by_cases hq : q = q'
      · subst hq
        rw [hempty] at htaken
        have hnil := (List.append_eq_nil_iff.mp htaken).2
        simpa [PipelineState.setQueue] using hnil
      · simpa [PipelineState.setQueue, hq] using hempty
  | offers q' pFrame e hand lost hset hnext hhand hstored haccount hdevice =>
      have hq : q ≠ q' := by
        rintro rfl
        have hoffers := hnone _ (List.mem_singleton_self _)
        simp [PipelineEvent.offers] at hoffers
      rw [hqueue hset]
      simpa [PipelineState.setQueue, hq] using hempty

/-- The mux thread goes round in the loop of the callback. -/
theorem muxThreadStep_awaits
    {answer : MuxAnswer} (hwaits : AwaitsFrame stream s)
    (h : muxThreadStep lib s answer = some (s', es)) :
    s'.mux.awaits stream ∧ s'.pHandle = s.pHandle := by
  have hasking := hwaits.asking
  have hnoStop : ∀ {again : Bool}, ¬ (again = true ∧ s.stop = true) := by
    rintro _ ⟨-, hstop⟩
    rw [hwaits.running] at hstop
    cases hstop
  cases muxThreadStep_case h with
  | dequeueWaits stream' again hpc hlocked hempty =>
      rw [hpc] at hasking
      exact ⟨hasking, rfl⟩
  | gets stream' again hpc hlocked hsome =>
      rw [hpc] at hasking
      obtain rfl : stream' = stream := hasking
      exact absurd hwaits.empty hsome
  | dequeueWakes stream' again hpc hlocked =>
      rw [hpc] at hasking
      obtain rfl : stream' = stream := hasking
      refine ⟨⟨rfl, ?_⟩, rfl⟩
      have htaken := dequeueWake_contents (s.queue stream'.queue) answer.wait
      rw [hwaits.empty] at htaken
      exact Option.toList_eq_nil_iff.mp (List.append_eq_nil_iff.mp htaken).1
  | asksAgain stream' again hpc hstop =>
      rw [hpc] at hasking
      exact ⟨hasking.1, rfl⟩
  | stopsWithFrame stream' again pFrame hpc hstop =>
      exact absurd hstop hnoStop
  | stops stream' again hpc hstop =>
      exact absurd hstop hnoStop
  | obtains stream' again pFrame hpc hstop =>
      rw [hpc] at hasking
      cases hasking.2
  | exits hpc hselect =>
      rw [hpc] at hasking
      exact hasking.elim
  | selects stream' hpc hselect hhave =>
      rw [hpc] at hasking
      exact hasking.elim
  | skips stream' hpc hselect hhave =>
      rw [hpc] at hasking
      exact hasking.elim
  | callbackReleases stream' pFrame hpc =>
      rw [hpc] at hasking
      exact hasking.elim
  | callbackEnds stream' hpc =>
      rw [hpc] at hasking
      exact hasking.elim
  | writes stream' pFrame hpc =>
      rw [hpc] at hasking
      exact hasking.elim
  | releases stream' pFrame ret hpc =>
      rw [hpc] at hasking
      exact hasking.elim

theorem pipelineStep_awaits
    (hstart : StartInv s) (hwaits : AwaitsFrame stream s)
    (h : pipelineStep cfg lib s a = some (s', es))
    (hnothing : BringsNothing stream ⟨s, a, es, s'⟩) :
    AwaitsFrame stream s' ∧ s'.pHandle = s.pHandle ∧
      submittedIn lib ⟨s, a, es, s'⟩ = [] := by
  obtain ⟨hrunning, hoffers⟩ := hnothing
  obtain ⟨t, hmove⟩ := pipelineStep_move hstart h
  have hempty := hmove.empty_queue hwaits.empty hoffers
  have hbeside : SameLoop s s' →
      AwaitsFrame stream s' ∧ s'.pHandle = s.pHandle := by
    intro hsame
    refine ⟨⟨?_, hempty, hrunning⟩, hsame.pHandle⟩
    rw [hsame.mux]
    exact hwaits.asking
  cases a with
  | device answer =>
      obtain ⟨hwaits', hpHandle⟩ := hbeside (deviceStep_loop h)
      exact ⟨hwaits', hpHandle, rfl⟩
  | encoder e answer =>
      obtain ⟨hwaits', hpHandle⟩ := hbeside (encoderStep_loop h)
      exact ⟨hwaits', hpHandle, rfl⟩
  | mux answer =>
      obtain ⟨hasking, hpHandle⟩ := muxThreadStep_awaits hwaits h
      refine ⟨⟨hasking, hempty, hrunning⟩, hpHandle, ?_⟩
      have hbefore := hwaits.asking
      simp only [submittedIn]
      split
      · rename_i hpc
        have hpc' : s.mux = _ := hpc
        rw [hpc'] at hbefore
        exact hbefore.elim
      · rfl
  | startMux =>
      have hcreated : s.mux ≠ .notCreated := by
        intro hpc
        have hasking := hwaits.asking
        rw [hpc] at hasking
        exact hasking
      simp only [pipelineStep, if_neg hcreated] at h
      obtain ⟨rfl, rfl⟩ := Prod.mk.inj (Option.some.inj h)
      exact ⟨hwaits, rfl, rfl⟩
  | setStop =>
      obtain ⟨rfl, rfl⟩ := Prod.mk.inj (Option.some.inj h)
      cases hrunning
  | _ =>
      simp only [pipelineStep] at h
      split at h <;> obtain ⟨rfl, rfl⟩ := Prod.mk.inj (Option.some.inj h) <;>
        exact ⟨⟨hwaits.asking, hempty, hrunning⟩, rfl, rfl⟩

end Waits

/--
While the mux thread waits for a frame of one stream and none is enqueued for it, it goes
on waiting: nothing is given to `av_interleaved_write_frame`, however many frames of the
other stream there are.
-/
theorem merge_waits_for_stream
    {cfg : StreamerConfig} {lib : LibAv} {poolCapacity : ℕ}
    {capacity : QueueId → ℕ} {pHandle : KoalaMuxer} {stream : StreamType}
    {tr more : List PipelineTransition} {s t : PipelineState}
    (run : Run (pipelineStep cfg lib)
      (PipelineState.init poolCapacity capacity pHandle) tr s)
    (rest : Run (pipelineStep cfg lib) s more t)
    (hwaits : AwaitsFrame stream s)
    (hnothing : ∀ τ ∈ more, BringsNothing stream τ) :
    AwaitsFrame stream t ∧ t.pHandle = s.pHandle ∧ muxSubmissions lib more = [] := by
  obtain ⟨-, hlaw⟩ := Run.invariant_of (BringsNothing stream)
    (fun more t => StartInv t ∧ AwaitsFrame stream t ∧ t.pHandle = s.pHandle ∧
      muxSubmissions lib more = [])
    ⟨run_startInv run, hwaits, rfl, rfl⟩
    (by
      rintro more mid a es next ⟨hstart, hmid, hpHandle, hsubmitted⟩ hstep hbrings
      obtain ⟨hnext, hsame, hnone⟩ := pipelineStep_awaits hstart hmid hstep hbrings
      refine ⟨pipelineStep_startInv hstart hstep, hnext, hsame.trans hpHandle, ?_⟩
      rw [muxSubmissions, List.flatMap_append, List.flatMap_singleton, hnone,
        List.append_nil]
      exact hsubmitted)
    rest hnothing
  exact hlaw

/-- The camera is silent; an encoded audio frame stays in its queue. -/
theorem merge_waits_for_stream_audio :
    ∃ tr s, Run (pipelineStep ⟨0, 1⟩ exactLibAv)
        (PipelineState.init 500 queueCapacity
          (openedMuxer true true false "flv" 0 1 44100)) tr s ∧
      ∃ more t, Run (pipelineStep ⟨0, 1⟩ exactLibAv) s more t ∧
        (t.queue .pAEQueue).contents = [0] ∧
        AwaitsFrame .video t ∧ t.pHandle = s.pHandle ∧ muxSubmissions exactLibAv more = [] := by
  obtain ⟨tr, s, run, hmux, hempty, hstop, hrest⟩ :=
    Run.exists_of_exec (pipelineStep ⟨0, 1⟩ exactLibAv)
      (PipelineState.init 500 queueCapacity
        (openedMuxer true true false "flv" 0 1 44100))
      [.start .mpThreadAE, .startMux, .mux ⟨0, 0, false⟩]
      (fun r => r.2.mux = .dequeueing .video false ∧
        (r.2.queue .pVEQueue).contents = [] ∧ r.2.stop = false ∧
        (exec (pipelineStep ⟨0, 1⟩ exactLibAv) r.2
          (List.replicate 8 (.device ⟨1, 0⟩) ++
            List.replicate 8 (.encoder .mpThreadAE ⟨.got ⟨7, 100, 0, 0, 1⟩, 0⟩) ++
            List.replicate 5 (.mux ⟨ETIMEDOUT, 0, false⟩))).any (fun q =>
          decide ((q.2.queue .pAEQueue).contents = [0] ∧
            ∀ τ ∈ q.1, BringsNothing .video τ)) = true)
      (by decide +kernel)
  obtain ⟨more, t, rest, hqueued, hnothing⟩ :=
    Run.exists_of_exec (pipelineStep ⟨0, 1⟩ exactLibAv) s _
      (fun q => (q.2.queue .pAEQueue).contents = [0] ∧ ∀ τ ∈ q.1, BringsNothing .video τ)
      hrest
  have hwaits : AwaitsFrame .video s := by
    refine ⟨?_, hempty, hstop⟩
    rw [hmux]
    exact rfl
  exact ⟨tr, s, run, more, t, rest, hqueued,
    merge_waits_for_stream run rest hwaits hnothing⟩

end KoalaStreamer
