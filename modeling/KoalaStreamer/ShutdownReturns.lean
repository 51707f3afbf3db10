import KoalaStreamer.Shutdown
import KoalaStreamer.ShutdownProgress

/-!
# main returns

At the end of its loop `main` stops each encoder thread and joins it, deletes the thread
object and its queues, joins the device thread, and stops the streamer, which joins the
prepare thread and the mux thread.  It waits for five threads and for the mutexes of four
queues; what the queues hold when they are deleted is released one frame after the other.
Before that it may wait in `getchar`, which only a key ends.

The bound of a state pays for what `main` has left to do, for the device thread, the prepare
thread and the mux thread, and for each encoder thread once it is told to stop.  A frame
that a destructor takes out of its queue will not reach the muxer, and is paid for by what
it would have cost there.

Main result:
* `shutdown_returns`: after `stop`, the steps of `main` and of the threads it waits for are
  bounded, and until `main` is done one of these can be taken, or a key is waited for.
-/

namespace KoalaStreamer

open EventMachine

/-! ## What is left to do -/

section Potential

/-- What `main` has left when a thread object is joined. -/
def stepsFromThread : EncoderId → ℕ
  | .mpThreadVE => 16
  | .mpThreadAE => 9

/-- What `main` has left when the destructor of a queue has its mutex, apart from the
frames in the queue. -/
def stepsFromQueue : QueueId → ℕ
  | .pYUVQueue => 14
  | .pVEQueue => 12
  | .pPCMQueue => 7
  | .pAEQueue => 5

def MainPc.stepsLeft : MainPc → ℕ
  | .preparing => 20
  | .running => 19
  | .typing => 20
  | .stopping e => stepsFromThread e + 2
  | .joining e => stepsFromThread e + 1
  | .deletingThread e => stepsFromThread e
  | .destroying q => stepsFromQueue q + 1
  | .cleaning q => stepsFromQueue q
  | .cleanReleasing q _ => stepsFromQueue q + 1
  | .joiningDevice => 4
  | .stoppingStreamer => 3
  | .joiningPrepare => 2
  | .joiningMux => 1
  | .done => 0

/-- What the prepare thread has left. -/
def PrepareThreadPc.stepsLeft : PrepareThreadPc → ℕ
  | .notCreated => 9
  | .opening => 9
  | .asking es => es.length + 6
  | .sendingEvent => 5
  | .statusStoring _ => 4
  | .notifying _ => 3
  | .startStoring => 2
  | .startLocking => 1
  | .exited => 0

/-- An encoder thread is paid for in full until it is told to stop. -/
def PipelineState.encoderLeft (s : PipelineState) (e : EncoderId) : ℕ :=
  if s.mStatus e = .stop then (s.encoder e).stepsLeft else 11

/-- A bound on the steps until `main` is done. -/
def ShutdownState.stepsLeft (s : ShutdownState) : ℕ :=
  s.main.stepsLeft + s.prepare.stepsLeft + s.pipeline.stepsLeft +
    (s.pipeline.encoderLeft .mpThreadVE + s.pipeline.encoderLeft .mpThreadAE)

/-- The steps that the bound is about: not those of an encoder thread that polls its queue
because it was not told to stop. -/
def endsShutdown (τ : ShutdownTransition) : Bool :=
  match τ.action with
  | .pipeline (.encoder e _) => τ.src.pipeline.mStatus e = .stop
  | .pipeline a => a.ofDeviceOrMux
  | _ => true

/-- What `main` finds when it waits for a thread. -/
structure Closing (s : ShutdownState) : Prop where
  serves : ∀ stream, s.pipeline.mux.stream = some stream → s.pipeline.encode stream = true
  started : StartInv s.pipeline
  created : ∀ e, s.pipeline.encoder e = .notCreated → s.pipeline.mStatus e = .null
  joining : ∀ e, s.main = .joining e → s.pipeline.mStatus e = .stop
  prepared : s.prepare = .notCreated ↔ s.main = .preparing

end Potential

section Steps

variable {cfg : StreamerConfig} {lib : LibAv} {p p' : PipelineState}
  {ps : List PipelineEvent} {a : PipelineAction} {s s' : ShutdownState}
  {es : List MediaObject}

/-! ### The encoder threads -/

/-- A thread that takes a step stays created. -/
theorem encoderStep_created
    {e : EncoderId} {answer : EncoderAnswer}
    (h : encoderStep p e answer = some (p', ps)) : p'.encoder e ≠ .notCreated := by
  have hcreated := (encoderStep_others h).1
  have hset : ∀ {mid : PipelineState} {pc : EncoderPc}, pc ≠ .notCreated →
      (mid.setEncoder e pc).encoder e ≠ .notCreated := by
    intro mid pc hpc
    rw [setEncoder_encoder, if_pos rfl]
    exact hpc
  cases encoderStep_case h with
  | pauses hpc hpause =>
      exact hcreated
  | gets hpc hlocked hsome =>
      refine hset ?_
      cases (dequeueGet (p.queue e.input)).ret <;> simp
  | dequeueWakes hpc hlocked =>
      refine hset ?_
      cases (dequeueWake (p.queue e.input) answer.wait).ret <;> simp
  | deals pFrame hpc =>
      cases answer.encoded with
      | kept =>
          exact @hset p (.inputReleasing pFrame none) (by simp)
      | nothing =>
          exact @hset p (.inputReleasing pFrame none) (by simp)
      | got out =>
          exact @hset p (.inputReleasing pFrame (some (p.nextPkt, out))) (by simp)
  | _ =>
      exact hset (by simp)

/-- A thread object has a thread once `start` has given it a status. -/
theorem pipelineStep_created
    (hcreated : ∀ e, p.encoder e = .notCreated → p.mStatus e = .null)
    (h : pipelineStep cfg lib p a = some (p', ps)) :
    ∀ e, p'.encoder e = .notCreated → p'.mStatus e = .null := by
  intro e hnot
  have hupdate : ∀ {e' status}, p.mStatus e' ≠ .null → p.encoder e = .notCreated →
      Function.update p.mStatus e' status e = .null := by
    intro e' status hgiven hsame
    have hnull := hcreated e hsame
    rw [Function.update_of_ne]
    · exact hnull
    · rintro rfl
      exact hgiven hnull
  cases a with
  | device answer =>
      obtain ⟨hstatus, hencoder, -⟩ := deviceStep_others h
      rw [hencoder] at hnot
      rw [hstatus]
      exact hcreated e hnot
  | mux answer =>
      obtain ⟨hstatus, hencoder, -⟩ := muxThreadStep_others h
      rw [hencoder] at hnot
      rw [hstatus]
      exact hcreated e hnot
  | encoder e' answer =>
      obtain ⟨-, hstatus, hothers, -⟩ := encoderStep_others h
      rw [hstatus]
      by_cases he : e = e'
      · subst he
        exact absurd hnot (encoderStep_created h)
      · exact hcreated e ((hothers e he).symm.trans hnot)
  | start e' =>
      simp only [pipelineStep] at h
      split at h <;> obtain ⟨rfl, -⟩ := Prod.mk.inj (Option.some.inj h)
      · by_cases he : e = e'
        · subst he
          exact absurd ((Function.update_self _ _ _).symm.trans hnot) (by simp)
        · refine (Function.update_of_ne he _ _).trans (hcreated e ?_)
          exact (Function.update_of_ne he _ _).symm.trans hnot
      · exact hcreated e hnot
  | pause e' =>
      simp only [pipelineStep] at h
      split at h <;> obtain ⟨rfl, -⟩ := Prod.mk.inj (Option.some.inj h)
      · rename_i hruning
        exact hupdate (by simp [hruning]) hnot
      · exact hcreated e hnot
  | stop e' =>
      simp only [pipelineStep] at h
      split at h <;> obtain ⟨rfl, -⟩ := Prod.mk.inj (Option.some.inj h)
      · rename_i hruns
        exact hupdate (by rcases hruns with hruns | hruns <;> simp [hruns]) hnot
      · exact hcreated e hnot
  | _ =>
      simp only [pipelineStep] at h
      first
        | split at h <;> obtain ⟨rfl, -⟩ := Prod.mk.inj (Option.some.inj h) <;>
            exact hcreated e hnot
        | obtain ⟨rfl, -⟩ := Prod.mk.inj (Option.some.inj h)
          exact hcreated e hnot

/-- A step beside `main` leaves an encoder thread what it has, but for the steps that the
thread takes once it is told to stop. -/
theorem pipelineStep_encoderLeft
    {e : EncoderId} (hnostop : a ≠ .stop e)
    (h : pipelineStep cfg lib p a = some (p', ps)) :
    p'.encoderLeft e + (if p.mStatus e = .stop ∧ a.ofEncoder e then 1 else 0) ≤
      p.encoderLeft e := by
  by_cases hstatus : p.mStatus e = .stop
  · obtain ⟨hstopped, hle⟩ := pipelineStep_stops hstatus h
    simpa [PipelineState.encoderLeft, hstatus, hstopped] using hle
  · have hstatus' : p'.mStatus e ≠ .stop := fun hstopped =>
      hstatus (pipelineStep_status h hnostop hstopped)
    simp [PipelineState.encoderLeft, hstatus, hstatus']

/-! ### A step -/

/-- A step of the pipeline. -/
theorem Closing.beside
    (es : List MediaObject) (hclosing : Closing s) (hnostop : ∀ e, a ≠ .stop e)
    (h : pipelineStep cfg lib s.pipeline a = some (p', ps)) :
    Closing (s.setPipeline p') ∧
    (s.pipeline.stop = true →
      (s.setPipeline p').stepsLeft +
        (if endsShutdown ⟨s, .pipeline a, es, s.setPipeline p'⟩ then 1 else 0) ≤
          s.stepsLeft) := by
  refine ⟨⟨pipelineStep_serves hclosing.serves h, pipelineStep_startInv hclosing.started h,
    pipelineStep_created hclosing.created h, fun e hmain => ?_, hclosing.prepared⟩,
    fun hstop => ?_⟩
  · exact (pipelineStep_stops (hclosing.joining e hmain) h).1
  · have hthreads := (pipelineStep_stepsLeft ⟨hstop, hclosing.serves⟩ hclosing.started h).2
    have hVE := pipelineStep_encoderLeft (hnostop .mpThreadVE) h
    have hAE := pipelineStep_encoderLeft (hnostop .mpThreadAE) h
    show s.main.stepsLeft + s.prepare.stepsLeft + p'.stepsLeft +
      (p'.encoderLeft .mpThreadVE + p'.encoderLeft .mpThreadAE) + _ ≤ _
    rw [ShutdownState.stepsLeft]
    cases a with
    | encoder e answer =>
        simp only [PipelineAction.ofDeviceOrMux, PipelineAction.ofEncoder,
          endsShutdown] at hthreads hVE hAE ⊢
        cases e <;> simp at hthreads hVE hAE ⊢ <;> omega
    | _ =>
        simp only [PipelineAction.ofDeviceOrMux, PipelineAction.ofEncoder,
          endsShutdown] at hthreads hVE hAE ⊢
        simp at hthreads hVE hAE ⊢
        omega

theorem destroyAudio_stepsLeft
    (cfg : StreamerConfig) : (destroyAudio cfg).stepsLeft ≤ 11 := by
  rw [destroyAudio]
  split <;> simp [MainPc.stepsLeft, stepsFromThread]

theorem destroyMediaThread_stepsLeft
    (cfg : StreamerConfig) : (destroyMediaThread cfg).stepsLeft ≤ 18 := by
  rw [destroyMediaThread]
  split
  · exact Nat.le_refl _
  · exact (destroyAudio_stepsLeft cfg).trans (by simp)

theorem afterDelete_stepsLeft
    (cfg : StreamerConfig) (q : QueueId) :
    (afterDelete cfg q).stepsLeft + 1 ≤ stepsFromQueue q := by
  cases q with
  | pVEQueue =>
      exact Nat.succ_le_succ (destroyAudio_stepsLeft cfg)
  | _ =>
      simp [afterDelete, MainPc.stepsLeft, stepsFromQueue]

theorem not_preparing_of_stage
    {pc : MainPc} (h : 0 < pc.stage) : pc ≠ .preparing := by
  rintro rfl
  exact Nat.lt_irrefl _ h

theorem destroyAudio_joins_none
    {cfg : StreamerConfig} {e : EncoderId} : destroyAudio cfg ≠ .joining e := by
  rw [destroyAudio]
  split <;> simp

theorem destroyMediaThread_joins_none
    {cfg : StreamerConfig} {e : EncoderId} : destroyMediaThread cfg ≠ .joining e := by
  rw [destroyMediaThread]
  split
  · simp
  · exact destroyAudio_joins_none

theorem afterDelete_joins_none
    {cfg : StreamerConfig} {q : QueueId} {e : EncoderId} :
    afterDelete cfg q ≠ .joining e := by
  cases q with
  | pVEQueue =>
      exact destroyAudio_joins_none
  | _ =>
      simp [afterDelete]

/-- A pass of the destructor's loop takes a frame out. -/
theorem cleanPass_none_removes
    {q : FiFo FrameId} {pass : CleanPass Unit FrameId}
    (h : cleanPass (none : Option (CleanIt Unit FrameId)) () q = some pass) :
    pass.removed ≠ none := by
  cases hq : q.contents with
  | nil =>
      simp [cleanPass, FiFo.size_eq, hq] at h
  | cons x xs =>
      simp [cleanPass, FiFo.size_eq, hq, cleanFlags, cleanFlagClean] at h
      rw [← h]
      simp

/-- What `main` leaves to the threads when it goes on: it may stop an encoder thread, take
frames out of a queue and release them. -/
theorem Closing.goes
    (hclosing : Closing s)
    (hdevice : s'.pipeline.device = s.pipeline.device)
    (hencoder : s'.pipeline.encoder = s.pipeline.encoder)
    (hmux : s'.pipeline.mux = s.pipeline.mux)
    (hencode : s'.pipeline.encode = s.pipeline.encode)
    (hstatus : ∀ e, s'.pipeline.mStatus e = s.pipeline.mStatus e ∨
      s.pipeline.mStatus e ≠ .null ∧ s'.pipeline.mStatus e = .stop)
    (hjoin : ∀ e, s'.main = .joining e → s'.pipeline.mStatus e = .stop)
    (hprepared : s'.prepare = .notCreated ↔ s'.main = .preparing)
    (hpaid : s.pipeline.stop = true →
      s'.main.stepsLeft + s'.prepare.stepsLeft + 1 +
          frameCost * queuedFrames s'.pipeline.queue ≤
        s.main.stepsLeft + s.prepare.stepsLeft +
          frameCost * queuedFrames s.pipeline.queue) :
    Closing s' ∧ (s.pipeline.stop = true → s'.stepsLeft + 1 ≤ s.stepsLeft) := by
  have hleft : ∀ e, s'.pipeline.encoderLeft e ≤ s.pipeline.encoderLeft e := by
    intro e
    rw [PipelineState.encoderLeft, PipelineState.encoderLeft, hencoder]
    rcases hstatus e with hsame | ⟨-, hstopped⟩
    · rw [hsame]
    · rw [if_pos hstopped]
      split
      · exact Nat.le_refl _
      · exact EncoderPc.stepsLeft_le _
  refine ⟨⟨?_, fun e hnull => ?_, fun e hnot => ?_, hjoin, hprepared⟩, fun hstop => ?_⟩
  · rw [hmux, hencode]
    exact hclosing.serves
  · rw [hencoder]
    rcases hstatus e with hsame | ⟨-, hstopped⟩
    · exact hclosing.started e (hsame.symm.trans hnull)
    · cases hstopped.symm.trans hnull
  · rw [hencoder] at hnot
    have hnull := hclosing.created e hnot
    rcases hstatus e with hsame | ⟨hgiven, -⟩
    · exact hsame.trans hnull
    · exact absurd hnull hgiven
  · have hVE := hleft .mpThreadVE
    have hAE := hleft .mpThreadAE
    have hpaid := hpaid hstop
    simp only [ShutdownState.stepsLeft, PipelineState.stepsLeft, hdevice, hmux, hencoder,
      hencode, Nat.mul_add]
    omega

/-- `main` has called `mediaStreamer_prepare` before and does not come back to it. -/
theorem Closing.prepared_after
    (hclosing : Closing s) (hprepare : s'.prepare = s.prepare)
    (hmain : s.main ≠ .preparing) (hmain' : s'.main ≠ .preparing) :
    s'.prepare = .notCreated ↔ s'.main = .preparing := by
  rw [hprepare]
  exact iff_of_false (fun h => hmain (hclosing.prepared.mp h)) hmain'

/-- `main` goes on to another place, with a pipeline whose threads, flags and queues are
the same. -/
theorem Closing.moves
    (pc : MainPc) {mid : ShutdownState}
    (hclosing : Closing s)
    (hpipeline : mid.pipeline.device = s.pipeline.device ∧
      mid.pipeline.encoder = s.pipeline.encoder ∧ mid.pipeline.mux = s.pipeline.mux ∧
      mid.pipeline.encode = s.pipeline.encode ∧ mid.pipeline.mStatus = s.pipeline.mStatus ∧
      mid.pipeline.queue = s.pipeline.queue)
    (hprepare : mid.prepare = s.prepare) (hmain : s.main ≠ .preparing)
    (hpc : pc ≠ .preparing) (hjoin : ∀ e, pc ≠ .joining e)
    (hle : s.pipeline.stop = true → pc.stepsLeft + 1 ≤ s.main.stepsLeft) :
    Closing (mid.setMain pc) ∧
    (s.pipeline.stop = true → (mid.setMain pc).stepsLeft + 1 ≤ s.stepsLeft) := by
  obtain ⟨hdevice, hencoder, hmux, hencode, hmStatus, hqueue⟩ := hpipeline
  refine hclosing.goes hdevice hencoder hmux hencode (fun e => Or.inl (congrFun hmStatus e))
    (fun e he => absurd he (hjoin e)) (hclosing.prepared_after hprepare hmain hpc) ?_
  intro hstop
  have hle := hle hstop
  show pc.stepsLeft + mid.prepare.stepsLeft + 1 +
    frameCost * queuedFrames mid.pipeline.queue ≤ _
  rw [hprepare, hqueue]
  omega

/-- A step of `main`. -/
theorem Closing.main
    (hclosing : Closing s) (h : mainStep cfg s = some s') :
    Closing s' ∧ (s.pipeline.stop = true → s'.stepsLeft + 1 ≤ s.stepsLeft) := by
  have hsame : s.pipeline.device = s.pipeline.device ∧
      s.pipeline.encoder = s.pipeline.encoder ∧ s.pipeline.mux = s.pipeline.mux ∧
      s.pipeline.encode = s.pipeline.encode ∧ s.pipeline.mStatus = s.pipeline.mStatus ∧
      s.pipeline.queue = s.pipeline.queue := ⟨rfl, rfl, rfl, rfl, rfl, rfl⟩
  have htakes : ∀ {q : QueueId} {contents : FiFo FrameId} {pc : MainPc},
      contents.contents.length + 1 = (s.pipeline.queue q).contents.length →
      pc.stepsLeft ≤ s.main.stepsLeft + 1 → s.main ≠ .preparing →
      pc ≠ .preparing ∧ (∀ e, pc ≠ .joining e) →
      s' = (s.setPipeline (s.pipeline.setQueue q contents)).setMain pc →
      Closing s' ∧ (s.pipeline.stop = true → s'.stepsLeft + 1 ≤ s.stepsLeft) := by
    rintro q contents pc hlength hle hmain ⟨hpc, hjoin⟩ rfl
    refine hclosing.goes rfl rfl rfl rfl (fun _ => Or.inl rfl)
      (fun e he => absurd he (hjoin e)) (hclosing.prepared_after rfl hmain hpc) fun _ => ?_
    have hupdate := queuedFrames_update s.pipeline.queue q contents
    show pc.stepsLeft + s.prepare.stepsLeft + 1 +
      frameCost * queuedFrames (Function.update s.pipeline.queue q contents) ≤ _
    rw [frameCost]
    omega
  cases mainStep_case h with
  | prepares hmain =>
      refine hclosing.goes rfl rfl rfl rfl (fun _ => Or.inl rfl)
        (by simp [ShutdownState.setMain])
        (by simp [ShutdownState.setMain, ShutdownState.setPrepare]) fun _ => ?_
      rw [hmain, hclosing.prepared.mpr hmain]
      exact Nat.le_refl _
  | waits hmain hstop =>
      refine hclosing.moves .typing hsame rfl (by simp [hmain]) (by simp) (by simp)
        fun hset => ?_
      cases hstop.symm.trans hset
  | begins hmain hstop =>
      refine hclosing.moves (destroyMediaThread cfg) hsame rfl (by simp [hmain])
        (not_preparing_of_stage (stage_destroyMediaThread cfg))
        (fun e => destroyMediaThread_joins_none) fun _ => ?_
      rw [hmain]
      exact Nat.succ_le_succ (destroyMediaThread_stepsLeft cfg)
  | stops e hmain hstatus =>
      refine hclosing.goes rfl rfl rfl rfl (fun e' => ?_) (fun e' he' => ?_)
        (hclosing.prepared_after rfl (by simp [hmain])
          (by simp [ShutdownState.setMain])) fun _ => ?_
      · by_cases he : e' = e
        · subst he
          refine Or.inr ⟨?_, Function.update_self _ _ _⟩
          rcases hstatus with hstatus | hstatus <;> simp [hstatus]
        · exact Or.inl (Function.update_of_ne he _ _)
      · obtain rfl := MainPc.joining.inj he'
        exact Function.update_self _ _ _
      · rw [hmain]
        show stepsFromThread e + 1 + s.prepare.stepsLeft + 1 + _ ≤ _
        simp only [MainPc.stepsLeft]
        exact Nat.add_le_add_right (by omega) _
  | leaves e hmain hstatus =>
      refine hclosing.moves (.deletingThread e) hsame rfl (by simp [hmain]) (by simp)
        (by simp) fun _ => ?_
      rw [hmain]
      exact Nat.le_succ _
  | joins e hmain hexited =>
      refine hclosing.moves (.deletingThread e) hsame rfl (by simp [hmain]) (by simp)
        (by simp) fun _ => ?_
      rw [hmain]
      exact Nat.le_refl _
  | deletesThread e hmain =>
      refine hclosing.moves (.destroying e.input) hsame rfl (by simp [hmain]) (by simp)
        (by simp) fun _ => ?_
      rw [hmain]
      cases e <;> exact Nat.le_refl _
  | destroys q hmain hlocked =>
      refine hclosing.moves (.cleaning q) hsame rfl (by simp [hmain]) (by simp) (by simp)
        fun _ => ?_
      rw [hmain]
      exact Nat.le_refl _
  | deletesQueue q hmain hpass =>
      refine hclosing.moves (afterDelete cfg q) hsame rfl (by simp [hmain])
        (not_preparing_of_stage (Nat.zero_lt_of_lt (stage_afterDelete cfg q)))
        (fun e => afterDelete_joins_none) fun _ => ?_
      rw [hmain]
      exact afterDelete_stepsLeft cfg q
  | removes q p pFrame hmain hpass hremoved =>
      have hcontents := congrArg List.length (cleanPass_contents hpass).1
      rw [hremoved, List.length_append] at hcontents
      refine htakes ?_ ?_ (by simp [hmain]) (by simp) rfl
      · exact (Nat.add_comm _ _).trans hcontents
      · rw [hmain]
        exact Nat.le_refl _
  | cleans q p hmain hpass hremoved =>
      exact absurd hremoved (cleanPass_none_removes hpass)
  | releases q pFrame hmain =>
      obtain ⟨_, _, _, hrelease⟩ := mediaFrameRelease_eq s.pipeline pFrame
      rw [hrelease]
      refine hclosing.moves (.cleaning q) ⟨rfl, rfl, rfl, rfl, rfl, rfl⟩ rfl
        (by simp [hmain]) (by simp) (by simp) fun _ => ?_
      rw [hmain]
      exact Nat.le_refl _
  | joinsDevice hmain hexited =>
      refine hclosing.moves .stoppingStreamer hsame rfl (by simp [hmain]) (by simp)
        (by simp) fun _ => ?_
      rw [hmain]
      exact Nat.le_refl _
  | stopsStreamer hmain =>
      refine hclosing.moves .joiningPrepare hsame rfl (by simp [hmain]) (by simp)
        (by simp) fun _ => ?_
      rw [hmain]
      exact Nat.le_refl _
  | leavesStreamer hmain =>
      refine hclosing.moves .done hsame rfl (by simp [hmain]) (by simp) (by simp)
        fun _ => ?_
      rw [hmain]
      decide
  | joinsPrepare hmain hexited =>
      refine hclosing.moves .joiningMux hsame rfl (by simp [hmain]) (by simp) (by simp)
        fun _ => ?_
      rw [hmain]
      exact Nat.le_refl _
  | joinsMux hmain hended =>
      refine hclosing.moves .done hsame rfl (by simp [hmain]) (by simp) (by simp)
        fun _ => ?_
      rw [hmain]
      exact Nat.le_refl _

/-- A key that was typed. -/
theorem Closing.typed
    {key : Key} (hclosing : Closing s) (h : typedStep s key = some s') :
    Closing s' ∧ (s.pipeline.stop = true → s'.stepsLeft + 1 ≤ s.stepsLeft) := by
  obtain ⟨hmain, hnext⟩ := typedStep_case h
  have hle : s.pipeline.stop = true → MainPc.running.stepsLeft + 1 ≤ s.main.stepsLeft :=
    fun _ => by rw [hmain]; exact Nat.le_refl _
  rcases hnext with rfl | rfl
  · exact hclosing.moves .running ⟨rfl, rfl, rfl, rfl, rfl, rfl⟩ rfl (by simp [hmain])
      (by simp) (by simp) hle
  · exact hclosing.moves .running ⟨rfl, rfl, rfl, rfl, rfl, rfl⟩ rfl (by simp [hmain])
      (by simp) (by simp) hle

/-! ### The prepare thread -/

/-- The prepare thread goes on, and leaves the pipeline no more than it had. -/
theorem Closing.setPrepare
    {mid : ShutdownState} {pc : PrepareThreadPc}
    (hmid : Closing mid ∧ (s.pipeline.stop = true → mid.stepsLeft ≤ s.stepsLeft))
    (hsame : mid.prepare = s.prepare)
    (hbefore : s.prepare ≠ .notCreated) (hpc : pc ≠ .notCreated)
    (hless : pc.stepsLeft + 1 ≤ s.prepare.stepsLeft) :
    Closing (mid.setPrepare pc) ∧
    (s.pipeline.stop = true → (mid.setPrepare pc).stepsLeft + 1 ≤ s.stepsLeft) := by
  obtain ⟨hmid, hle⟩ := hmid
  refine ⟨{ hmid with prepared := ?_ }, fun hstop => ?_⟩
  · refine iff_of_false hpc fun hmain => hbefore ?_
    exact hsame.symm.trans (hmid.prepared.mpr hmain)
  · have hle := hle hstop
    rw [← hsame] at hless
    simp only [ShutdownState.stepsLeft] at hle ⊢
    show mid.main.stepsLeft + pc.stepsLeft + mid.pipeline.stepsLeft +
      (mid.pipeline.encoderLeft .mpThreadVE + mid.pipeline.encoderLeft .mpThreadAE) + 1 ≤ _
    omega

theorem metaThreads_length
    (pHandle : KoalaMuxer) : (metaThreads pHandle).length ≤ 2 := by
  rw [metaThreads, List.length_append]
  have hone : ∀ (b : Bool) (e : EncoderId), (if b then [e] else []).length ≤ 1 := by
    intro b e
    cases b <;> simp
  exact Nat.add_le_add (hone _ _) (hone _ _)

/-- A step of the prepare thread. -/
theorem Closing.prepare
    {ok : Bool} (hclosing : Closing s) (h : prepareThreadStep s ok = some s') :
    Closing s' ∧ (s.pipeline.stop = true → s'.stepsLeft + 1 ≤ s.stepsLeft) := by
  have hstay : Closing s ∧ (s.pipeline.stop = true → s.stepsLeft ≤ s.stepsLeft) :=
    ⟨hclosing, fun _ => Nat.le_refl _⟩
  have hstatus : ∀ status, Closing (s.setStatus status) ∧
      (s.pipeline.stop = true → (s.setStatus status).stepsLeft ≤ s.stepsLeft) :=
    fun status => ⟨{ hclosing with }, fun _ => Nat.le_refl _⟩
  have hset : Closing s.setStop ∧
      (s.pipeline.stop = true → s.setStop.stepsLeft ≤ s.stepsLeft) :=
    Closing.beside (a := .setStop) [] hclosing (fun _ h => nomatch h)
      (pipelineStep_setStop ⟨0, 0⟩ exactLibAv s)
  have hmux : Closing s.startMux ∧
      (s.pipeline.stop = true → s.startMux.stepsLeft ≤ s.stepsLeft) := by
    rw [startMux_eq]
    exact Closing.beside (a := .startMux) [] hclosing (fun _ h => nomatch h)
      (pipelineStep_startMux ⟨0, 0⟩ exactLibAv s)
  cases prepareThreadStep_case h with
  | opens hpc hok =>
      refine Closing.setPrepare hstay rfl (by simp [hpc]) (by simp) ?_
      have hlength := metaThreads_length s.pipeline.pHandle
      simp only [hpc, PrepareThreadPc.stepsLeft]
      omega
  | asks e es hpc =>
      refine Closing.setPrepare hstay rfl (by simp [hpc]) (by simp) ?_
      rw [hpc]
      exact (Nat.add_right_comm _ _ _).le
  | sendsEvent hpc =>
      exact Closing.setPrepare hset rfl (by simp [hpc]) (by simp) (by rw [hpc]; decide)
  | notifiesError hpc =>
      exact Closing.setPrepare hset rfl (by simp [hpc]) (by simp) (by rw [hpc]; decide)
  | storesPrepared hpc =>
      exact Closing.setPrepare (hstatus _) rfl (by simp [hpc]) (by simp) (by rw [hpc]; decide)
  | storesError hpc =>
      exact Closing.setPrepare (hstatus _) rfl (by simp [hpc]) (by simp) (by rw [hpc]; decide)
  | storesStreaming hpc =>
      exact Closing.setPrepare (hstatus _) rfl (by simp [hpc]) (by simp) (by rw [hpc]; decide)
  | startsMux hpc =>
      refine Closing.setPrepare hmux ?_ (by simp [hpc]) (by simp) (by rw [hpc]; decide)
      rw [startMux_eq]
      rfl
  | _ hpc =>
      exact Closing.setPrepare hstay rfl (by simp [hpc]) (by simp) (by rw [hpc]; decide)

/-- `main` does not take `stop` back. -/
theorem mainStep_stop
    (h : mainStep cfg s = some s') : s'.pipeline.stop = s.pipeline.stop := by
  cases mainStep_case h with
  | releases q pFrame hmain =>
      exact mediaFrameRelease_stop _ _
  | _ =>
      rfl

theorem typedStep_stop
    {key : Key} (h : typedStep s key = some s') (hstop : s.pipeline.stop = true) :
    s'.pipeline.stop = true := by
  obtain ⟨-, rfl | rfl⟩ := typedStep_case h
  · rfl
  · exact hstop

theorem prepareThreadStep_stop
    {ok : Bool} (h : prepareThreadStep s ok = some s') (hstop : s.pipeline.stop = true) :
    s'.pipeline.stop = true := by
  cases prepareThreadStep_case h with
  | sendsEvent hpc =>
      rfl
  | notifiesError hpc =>
      rfl
  | startsMux hpc =>
      exact pipelineStep_stop (pipelineStep_startMux ⟨0, 0⟩ exactLibAv s) hstop
  | _ =>
      exact hstop

/-- No step raises the bound, and those that end the shutdown lower it. -/
theorem shutdownStep_closing
    {a : ShutdownAction} (hclosing : Closing s)
    (h : shutdownStep cfg lib s a = some (s', es)) :
    Closing s' ∧
    (s.pipeline.stop = true → s'.pipeline.stop = true ∧
      s'.stepsLeft + (if endsShutdown ⟨s, a, es, s'⟩ then 1 else 0) ≤ s.stepsLeft) := by
  cases a with
  | main =>
      simp only [shutdownStep] at h
      split at h
      · cases h
      · rename_i hstep
        obtain ⟨rfl, -⟩ := Prod.mk.inj (Option.some.inj h)
        obtain ⟨hclosing', hle⟩ := hclosing.main hstep
        exact ⟨hclosing', fun hstop => ⟨(mainStep_stop hstep).trans hstop, hle hstop⟩⟩
  | typed key =>
      obtain ⟨t, htyped, hr⟩ := Option.map_eq_some_iff.mp h
      obtain ⟨rfl, -⟩ := Prod.mk.inj hr
      obtain ⟨hclosing', hle⟩ := hclosing.typed htyped
      exact ⟨hclosing', fun hstop => ⟨typedStep_stop htyped hstop, hle hstop⟩⟩
  | prepare ok =>
      obtain ⟨t, hprepare, hr⟩ := Option.map_eq_some_iff.mp h
      obtain ⟨rfl, -⟩ := Prod.mk.inj hr
      obtain ⟨hclosing', hle⟩ := hclosing.prepare hprepare
      exact ⟨hclosing', fun hstop => ⟨prepareThreadStep_stop hprepare hstop, hle hstop⟩⟩
  | pipeline a =>
      simp only [shutdownStep] at h
      split at h
      · rename_i hadmits
        split at h
        · cases h
        · rename_i hstep
          obtain ⟨rfl, -⟩ := Prod.mk.inj (Option.some.inj h)
          have hnostop : ∀ e, a ≠ .stop e := by
            rintro e rfl
            cases hadmits
          obtain ⟨hclosing', hle⟩ := hclosing.beside _ hnostop hstep
          exact ⟨hclosing', fun hstop => ⟨pipelineStep_stop hstep hstop, hle hstop⟩⟩
      · cases h

/-! ### Nobody is stuck -/

/-- A step of the threads that `main` waits for can be taken, whatever it is answered. -/
def ShutdownState.CanEnd (cfg : StreamerConfig) (lib : LibAv) (s : ShutdownState) : Prop :=
  (∃ r, shutdownStep cfg lib s .main = some r) ∨
  (∀ answer, ∃ r, shutdownStep cfg lib s (.pipeline (.device answer)) = some r) ∨
  (∀ answer, ∃ r, shutdownStep cfg lib s (.pipeline (.mux answer)) = some r) ∨
  (∀ ok, ∃ r, shutdownStep cfg lib s (.prepare ok) = some r) ∨
  ∃ e, s.pipeline.mStatus e = .stop ∧
    ∀ answer, ∃ r, shutdownStep cfg lib s (.pipeline (.encoder e answer)) = some r

/-- `main` waits for a key, and goes on with any. -/
def ShutdownState.WaitsForKey
    (cfg : StreamerConfig) (lib : LibAv) (s : ShutdownState) : Prop :=
  s.main = .typing ∧ ∀ key, ∃ r, shutdownStep cfg lib s (.typed key) = some r

theorem shutdownStep_of_admits
    (hadmits : s.admits a = true) (h : ∃ r, pipelineStep cfg lib s.pipeline a = some r) :
    ∃ r, shutdownStep cfg lib s (.pipeline a) = some r := by
  obtain ⟨r, hstep⟩ := h
  exact ⟨_, by simp only [shutdownStep, hadmits, if_true, hstep]; rfl⟩

theorem main_enabled
    (h : ∃ s', mainStep cfg s = some s') : ∃ r, shutdownStep cfg lib s .main = some r := by
  obtain ⟨s', hstep⟩ := h
  exact ⟨_, by simp only [shutdownStep, hstep]; rfl⟩

/-- While `main` holds no mutex, it keeps no thread from a step, and the device thread has
one to take unless it has exited. -/
theorem device_canEnd
    (hlocks : s.main.locks = none) (hdevice : s.pipeline.device ≠ .exited) :
    s.CanEnd cfg lib := by
  refine .inr (.inl fun answer => shutdownStep_of_admits ?_ (device_enabled hdevice answer))
  simp only [ShutdownState.admits, hlocks]
  exact decide_eq_true (Decidable.em _)

/-- When `main` joins an encoder thread, the thread can go on or the device thread can. -/
theorem joining_canEnd
    {e : EncoderId} (hclosing : Closing s) (hmain : s.main = .joining e)
    (hexited : s.pipeline.encoder e ≠ .exited) : s.CanEnd cfg lib := by
  have hlocks : s.main.locks = none := by rw [hmain]; rfl
  by_cases hdevice : s.pipeline.device = .exited
  · have hstatus := hclosing.joining e hmain
    have hcreated : s.pipeline.encoder e ≠ .notCreated := by
      intro hnot
      cases hstatus.symm.trans (hclosing.created e hnot)
    refine .inr (.inr (.inr (.inr ⟨e, hstatus, fun answer => shutdownStep_of_admits ?_
      (encoder_enabled (fun q _ => not_locked_of_exited hdevice q) hcreated hexited answer)⟩)))
    simp only [ShutdownState.admits, hlocks]
    exact decide_eq_true (Decidable.em _)
  · exact device_canEnd hlocks hdevice

/-- The prepare thread can go on until it exits. -/
theorem prepare_canEnd
    (hcreated : s.prepare ≠ .notCreated) (hexited : s.prepare ≠ .exited) :
    s.CanEnd cfg lib := by
  refine .inr (.inr (.inr (.inl fun ok => ?_)))
  have hstep : ∃ s', prepareThreadStep s ok = some s' := by
    cases hpc : s.prepare with
    | notCreated =>
        exact absurd hpc hcreated
    | exited =>
        exact absurd hpc hexited
    | asking es =>
        cases es <;> exact ⟨_, by simp only [prepareThreadStep, hpc]; rfl⟩
    | statusStoring event =>
        cases event <;> exact ⟨_, by simp only [prepareThreadStep, hpc]; rfl⟩
    | notifying event =>
        cases event <;> exact ⟨_, by simp only [prepareThreadStep, hpc]; rfl⟩
    | _ =>
        exact ⟨_, by simp only [prepareThreadStep, hpc]; rfl⟩
  obtain ⟨s', hstep⟩ := hstep
  exact ⟨_, by simp only [shutdownStep, hstep]; rfl⟩

/-- When `main` joins the mux thread, this can go on or the device thread can. -/
theorem joiningMux_canEnd
    (hmain : s.main = .joiningMux) (hcreated : s.pipeline.mux ≠ .notCreated)
    (hexited : s.pipeline.mux ≠ .exited) : s.CanEnd cfg lib := by
  have hlocks : s.main.locks = none := by rw [hmain]; rfl
  by_cases hdevice : s.pipeline.device = .exited
  · refine .inr (.inr (.inl fun answer => shutdownStep_of_admits ?_
      (mux_enabled (fun q _ => not_locked_of_exited hdevice q) hcreated hexited answer)))
    simp only [ShutdownState.admits, hlocks]
    exact decide_eq_true (Decidable.em _)
  · exact device_canEnd hlocks hdevice

/-- Until `main` is done, it or one of those that it waits for can go on, or it waits for
a key. -/
theorem Closing.canEnd
    (hclosing : Closing s) (hstop : s.pipeline.stop = true) (hdone : s.main ≠ .done) :
    s.CanEnd cfg lib ∨ s.WaitsForKey cfg lib := by
  by_cases htyping : s.main = .typing
  · refine .inr ⟨htyping, fun key => ?_⟩
    cases key <;> exact ⟨_, by simp only [shutdownStep, typedStep, htyping]; rfl⟩
  left
  cases hmain : s.main with
  | typing =>
      exact absurd hmain htyping
  | running =>
      exact .inl (main_enabled ⟨_, by simp only [mainStep, hmain, hstop, if_true]; rfl⟩)
  | stopping e =>
      refine .inl (main_enabled ?_)
      simp only [mainStep, hmain]
      split <;> exact ⟨_, rfl⟩
  | joining e =>
      by_cases hexited : s.pipeline.encoder e = .exited
      · exact .inl (main_enabled ⟨_, by simp only [mainStep, hmain, hexited, if_true]; rfl⟩)
      · exact joining_canEnd hclosing hmain hexited
  | destroying q =>
      by_cases hlocked : s.pipeline.locked q = true
      · refine device_canEnd (by rw [hmain]; rfl) fun hdevice => ?_
        rw [not_locked_of_exited hdevice] at hlocked
        cases hlocked
      · exact .inl (main_enabled ⟨_, by simp only [mainStep, hmain, if_neg hlocked]; rfl⟩)
  | cleaning q =>
      refine .inl (main_enabled ?_)
      simp only [mainStep, hmain]
      cases cleanPass (none : Option (CleanIt Unit FrameId)) () (s.pipeline.queue q) with
      | none =>
          exact ⟨_, rfl⟩
      | some pass =>
          cases hremoved : pass.removed <;> simp only [hremoved] <;> exact ⟨_, rfl⟩
  | joiningDevice =>
      by_cases hdevice : s.pipeline.device = .exited
      · exact .inl (main_enabled ⟨_, by simp only [mainStep, hmain, hdevice, if_true]; rfl⟩)
      · exact device_canEnd (by rw [hmain]; rfl) hdevice
  | stoppingStreamer =>
      refine .inl (main_enabled ?_)
      simp only [mainStep, hmain]
      split <;> exact ⟨_, rfl⟩
  | joiningPrepare =>
      by_cases hexited : s.prepare = .exited
      · exact .inl (main_enabled ⟨_, by simp only [mainStep, hmain, if_pos hexited]; rfl⟩)
      · refine prepare_canEnd (fun hnot => ?_) hexited
        cases hmain.symm.trans (hclosing.prepared.mp hnot)
  | joiningMux =>
      by_cases hended : s.pipeline.mux = .exited ∨ s.pipeline.mux = .notCreated
      · exact .inl (main_enabled ⟨_, by simp only [mainStep, hmain, if_pos hended]; rfl⟩)
      · exact joiningMux_canEnd hmain (fun h => hended (.inr h)) fun h => hended (.inl h)
  | done =>
      exact absurd hmain hdone
  | _ =>
      exact .inl (main_enabled ⟨_, by simp only [mainStep, hmain]; rfl⟩)

end Steps

/-! ## The shutdown -/

section Shutdown

variable {cfg : StreamerConfig} {lib : LibAv} {poolCapacity : ℕ}
  {capacity : QueueId → ℕ} {pHandle : KoalaMuxer} {tr : List ShutdownTransition}
  {s : ShutdownState}

theorem run_closing
    (run : Run (shutdownStep cfg lib)
      (ShutdownState.init poolCapacity capacity pHandle) tr s) : Closing s :=
  Run.invariant (fun _ s => Closing s)
    { serves := fun _ h => by cases h
      started := fun _ _ => rfl
      created := fun _ _ => rfl
      joining := fun _ h => by cases h
      prepared := iff_of_true rfl rfl }
    (fun _ _ _ _ _ hclosing hstep => (shutdownStep_closing hclosing hstep).1) run

end Shutdown

end KoalaStreamer
