import KoalaStreamer.PipelineSteps

/-!
# What a thread of the pipeline has yet to do

Once `stop` is set, the device thread only ends the pass it is in, and the mux
thread ends its callback.  The queues they operate on until then depend on where
they are; a step takes from them, and adds one only when a packet is read or a
stream is selected.  A thread of an encoder that has ended does nothing more.

Main results:
* `deviceStep_queuesAhead`, `muxThreadStep_queuesAhead`: how a step changes the
  queues ahead;
* `pipelineStep_ended`: an encoder thread that has ended stays so.
-/

namespace KoalaStreamer

section QueuesAhead

/-- The queue of raw frames for packets of a stream. -/
def routeQueue (cfg : StreamerConfig) (streamIndex : Int) : List QueueId :=
  if streamIndex = cfg.videoIndex then [.pYUVQueue]
  else if streamIndex = cfg.audioIndex then [.pPCMQueue]
  else []

/-- The queues that `ff_read_devices` looks at from `q` on. -/
def sizedFrom (cfg : StreamerConfig) (q : QueueId) : List QueueId :=
  match q with
  | .pVEQueue => [.pVEQueue, .pAEQueue].filter fun q => cfg.hasQueue q
  | q => [q].filter fun q => cfg.hasQueue q

/-- The queues that `ff_read_devices` looks at after `q`. -/
def sizedAfter (cfg : StreamerConfig) (q : QueueId) : List QueueId :=
  match q with
  | .pVEQueue => sizedFrom cfg .pAEQueue
  | _ => []

/-- The queues that the device thread operates on before it reads `stop` or a
packet again. -/
def DevicePc.queuesAhead (cfg : StreamerConfig) : DevicePc → List QueueId
  | .loopHead => []
  | .reading => sizedFrom cfg .pVEQueue
  | .getting _ streamIndex =>
      routeQueue cfg streamIndex ++ sizedFrom cfg .pVEQueue
  | .filling _ streamIndex _ =>
      routeQueue cfg streamIndex ++ sizedFrom cfg .pVEQueue
  | .routing streamIndex _ =>
      routeQueue cfg streamIndex ++ sizedFrom cfg .pVEQueue
  | .enqueueing q _ => q :: sizedFrom cfg .pVEQueue
  | .enqueueWaiting q _ => q :: sizedFrom cfg .pVEQueue
  | .releasing _ => sizedFrom cfg .pVEQueue
  | .sizing q => sizedFrom cfg q
  | .entering q => q :: sizedAfter cfg q
  | .cleaning q _ => q :: sizedAfter cfg q
  | .cleanReleasing q _ _ _ => q :: sizedAfter cfg q
  | .exited => []

/-- The queue that the mux thread operates on before it selects a stream again. -/
def MuxPc.queuesAhead : MuxPc → List QueueId
  | .dequeueing stream _ => [stream.queue]
  | .dequeueWaiting stream _ => [stream.queue]
  | .dequeued stream false none => [stream.queue]
  | _ => []

end QueuesAhead

section Ahead

variable {cfg : StreamerConfig} {lib : LibAv} {s s' : PipelineState}
  {es : List PipelineEvent}

theorem queuesAhead_afterSize
    (cfg : StreamerConfig) (q : QueueId) :
    (afterSize q).queuesAhead cfg = sizedAfter cfg q := by
  cases q <;> rfl

theorem sizedAfter_subset
    (cfg : StreamerConfig) (q : QueueId) : sizedAfter cfg q ⊆ sizedFrom cfg q := by
  intro q' hq'
  cases q with
  | pVEQueue =>
      simp only [sizedAfter, sizedFrom, List.mem_filter, List.mem_singleton] at hq'
      simp only [sizedFrom, List.mem_filter, List.mem_cons]
      exact ⟨Or.inr (Or.inl hq'.1), hq'.2⟩
  | _ =>
      cases hq'

theorem mem_sizedFrom_self
    {q : QueueId} (h : cfg.hasQueue q = true) : q ∈ sizedFrom cfg q := by
  cases q <;> simp [sizedFrom, h]

theorem routeFrame_queuesAhead
    (cfg : StreamerConfig) (streamIndex : Int) (pFrame : FrameId) :
    (routeFrame cfg streamIndex pFrame).queuesAhead cfg =
      routeQueue cfg streamIndex ++ sizedFrom cfg .pVEQueue := by
  simp only [routeFrame, routeQueue]
  split
  · rfl
  · split <;> rfl

/-- What lies ahead after a cleaning lay ahead of it. -/
theorem afterSize_subset
    (cfg : StreamerConfig) (q : QueueId) :
    (afterSize q).queuesAhead cfg ⊆ q :: sizedAfter cfg q := by
  rw [queuesAhead_afterSize]
  exact List.subset_cons_self q _

theorem queuesAhead_dequeued
    {stream : StreamType} {again : Bool} {pFrame : Option FrameId} {q : QueueId}
    (h : q ∈ (MuxPc.dequeued stream again pFrame).queuesAhead) :
    q ∈ [stream.queue] := by
  cases again <;> cases pFrame <;> first | exact h | cases h

theorem not_mem_queuesAhead_muxPassEnd
    (s : PipelineState) (stream : StreamType) (ret : Int) (ended : Bool)
    (q : QueueId) : q ∉ (muxPassEnd s stream ret ended).mux.queuesAhead := by
  cases ended <;> exact List.not_mem_nil

/-- Once `stop` is set, the device thread turns to a queue only by reading a
packet for it. -/
theorem deviceStep_queuesAhead
    {answer : DeviceAnswer}
    (hstop : s.stop = true)
    (h : deviceStep cfg s answer = some (s', es)) :
    ∀ q ∈ s'.device.queuesAhead cfg, q ∈ s.device.queuesAhead cfg ∨
      (s.device = .reading ∧ q ∈ routeQueue cfg answer.streamIndex) := by
  intro q' hq'
  cases deviceStep_case h with
  | loopHead hpc =>
      simp only [hstop, if_true] at hq'
      cases hq'
  | reads hpc =>
      rcases List.mem_append.mp hq' with hq' | hq'
      · exact Or.inr ⟨hpc, hq'⟩
      · exact Or.inl (hpc ▸ hq')
  | getsFrame pkt streamIndex hpc =>
      exact Or.inl (hpc ▸ hq')
  | fills pkt streamIndex pFrame hpc =>
      exact Or.inl (hpc ▸ hq')
  | routes streamIndex pFrame hpc =>
      simp only [PipelineState.setDevice, routeFrame_queuesAhead] at hq'
      exact Or.inl (hpc ▸ hq')
  | waits q pFrame hpc hfull =>
      exact Or.inl (hpc ▸ hq')
  | puts q pFrame hpc hroom =>
      exact Or.inl (hpc ▸ List.mem_cons_of_mem q hq')
  | wakes q pFrame hpc =>
      exact Or.inl (hpc ▸ List.mem_cons_of_mem q hq')
  | releases pFrame hpc =>
      exact Or.inl (hpc ▸ hq')
  | selects q hpc hlong =>
      rw [hpc]
      rcases List.mem_cons.mp hq' with rfl | hq'
      · exact Or.inl (mem_sizedFrom_self hlong.1)
      · exact Or.inl (sizedAfter_subset cfg q hq')
  | skips q hpc hshort =>
      rw [hpc]
      exact Or.inl (sizedAfter_subset cfg q (queuesAhead_afterSize cfg q ▸ hq'))
  | enters q hpc =>
      exact Or.inl (hpc ▸ hq')
  | cleanEnds q size hpc hpass =>
      exact Or.inl (hpc ▸ afterSize_subset cfg q hq')
  | cleans q size p hpc hpass hremoved =>
      simp only [PipelineState.setDevice] at hq'
      rw [hpc]
      split at hq'
      · exact Or.inl (afterSize_subset cfg q hq')
      · exact Or.inl hq'
  | removes q size p pFrame hpc hpass hremoved =>
      exact Or.inl (hpc ▸ hq')
  | cleanReleases q size stop pFrame hpc =>
      simp only [PipelineState.setDevice] at hq'
      rw [hpc]
      split at hq'
      · exact Or.inl (afterSize_subset cfg q hq')
      · exact Or.inl hq'

/-- Once `stop` is set, the mux thread turns to a queue only by selecting its
stream. -/
theorem muxThreadStep_queuesAhead
    {answer : MuxAnswer}
    (hstop : s.stop = true)
    (h : muxThreadStep lib s answer = some (s', es)) :
    ∀ q ∈ s'.mux.queuesAhead, q ∈ s.mux.queuesAhead ∨
      (s.mux = .loopHead ∧ ∃ stream, selectStream lib s.pHandle s.encode = some stream ∧
        s.pHandle.haveStream stream = true ∧ q = stream.queue) := by
  intro q' hq'
  cases muxThreadStep_case h with
  | exits hpc hselect =>
      cases hq'
  | selects stream hpc hselect hhave =>
      exact Or.inr ⟨hpc, stream, hselect, hhave, List.mem_singleton.mp hq'⟩
  | skips stream hpc hselect hhave =>
      cases hq'
  | dequeueWaits stream again hpc hlocked hempty =>
      exact Or.inl (hpc ▸ hq')
  | gets stream again hpc hlocked hsome =>
      exact Or.inl (hpc ▸ queuesAhead_dequeued hq')
  | dequeueWakes stream again hpc hlocked =>
      exact Or.inl (hpc ▸ queuesAhead_dequeued hq')
  | stopsWithFrame stream again pFrame hpc hagain =>
      cases hq'
  | stops stream again hpc hagain =>
      cases hq'
  | obtains stream again pFrame hpc hagain =>
      cases hq'
  | asksAgain stream again hpc hagain =>
      rw [hpc]
      cases again with
      | false =>
          exact Or.inl hq'
      | true =>
          exact absurd ⟨rfl, hstop⟩ hagain
  | callbackReleases stream pFrame hpc =>
      cases hq'
  | callbackEnds stream hpc =>
      exact absurd hq' (not_mem_queuesAhead_muxPassEnd _ _ _ _ _)
  | writes stream pFrame hpc =>
      cases hq'
  | releases stream pFrame ret hpc =>
      exact absurd hq' (not_mem_queuesAhead_muxPassEnd _ _ _ _ _)

end Ahead

/-! ## What the steps leave alone -/

section Beside

variable {cfg : StreamerConfig} {lib : LibAv} {s s' : PipelineState}
  {es : List PipelineEvent} {a : PipelineAction}

/-- The thread of the encoder has ended or was not created. -/
def PipelineState.Ended (s : PipelineState) (e : EncoderId) : Prop :=
  s.encoder e = .exited ∨ s.encoder e = .notCreated

theorem PipelineState.Ended.of_eq
    {e : EncoderId} (h : s.Ended e) (heq : s'.encoder e = s.encoder e) :
    s'.Ended e := by
  simpa only [PipelineState.Ended, heq] using h

/-- A thread that has ended takes no step. -/
theorem PipelineState.Ended.not_step
    {e : EncoderId} {answer : EncoderAnswer} (h : s.Ended e) :
    encoderStep s e answer = none := by
  rcases h with h | h <;> simp [encoderStep, h]

theorem pipelineStep_stop
    (h : pipelineStep cfg lib s a = some (s', es)) (hstop : s.stop = true) :
    s'.stop = true := by
  cases a with
  | device answer =>
      obtain ⟨-, -, -, hsame⟩ := deviceStep_others h
      exact hsame.trans hstop
  | encoder e answer =>
      obtain ⟨-, -, -, -, -, hsame⟩ := encoderStep_others h
      exact hsame.trans hstop
  | mux answer =>
      obtain ⟨-, -, -, hsame⟩ := muxThreadStep_others h
      exact hsame.trans hstop
  | _ =>
      simp only [pipelineStep] at h
      grind [PipelineState.setEncoder, PipelineState.setMux]

/-- Only `stop` gives a thread object the status `threadStatusStop`. -/
theorem pipelineStep_status
    {e : EncoderId}
    (h : pipelineStep cfg lib s a = some (s', es)) (hne : a ≠ .stop e)
    (hstatus : s'.mStatus e = .stop) : s.mStatus e = .stop := by
  have hupdate : ∀ (e' : EncoderId) (status : ThreadStatus),
      (e = e' → status ≠ .stop) →
      Function.update s.mStatus e' status e = .stop → s.mStatus e = .stop := by
    intro e' status hother hset
    rw [Function.update_apply] at hset
    split at hset
    · exact absurd hset (hother ‹_›)
    · exact hset
  cases a with
  | setStop =>
      obtain ⟨rfl, -⟩ := Prod.mk.inj (Option.some.inj h)
      exact hstatus
  | start e' =>
      simp only [pipelineStep] at h
      split at h <;> obtain ⟨rfl, -⟩ := Prod.mk.inj (Option.some.inj h)
      · exact hupdate e' .runing (by simp) hstatus
      · exact hstatus
  | pause e' =>
      simp only [pipelineStep] at h
      split at h <;> obtain ⟨rfl, -⟩ := Prod.mk.inj (Option.some.inj h)
      · exact hupdate e' .pause (by simp) hstatus
      · exact hstatus
  | stop e' =>
      simp only [pipelineStep] at h
      split at h <;> obtain ⟨rfl, -⟩ := Prod.mk.inj (Option.some.inj h)
      · exact hupdate e' .stop (fun he => absurd (he ▸ rfl) hne) hstatus
      · exact hstatus
  | startMux =>
      simp only [pipelineStep] at h
      split at h <;> obtain ⟨rfl, -⟩ := Prod.mk.inj (Option.some.inj h) <;>
        exact hstatus
  | device answer =>
      rwa [(deviceStep_others h).1] at hstatus
  | encoder e' answer =>
      rwa [(encoderStep_others h).2.1] at hstatus
  | mux answer =>
      rwa [(muxThreadStep_others h).1] at hstatus

/-- A thread that has ended is not started again. -/
theorem pipelineStep_ended
    {e : EncoderId}
    (h : pipelineStep cfg lib s a = some (s', es)) (hended : s.Ended e)
    (hstart : a = .start e → s.mStatus e ≠ .null) : s'.Ended e := by
  cases a with
  | setStop =>
      obtain ⟨rfl, -⟩ := Prod.mk.inj (Option.some.inj h)
      exact hended
  | start e' =>
      simp only [pipelineStep] at h
      split at h
      · rename_i hnull
        have hne : e ≠ e' := by
          rintro rfl
          exact hstart rfl hnull
        obtain ⟨rfl, -⟩ := Prod.mk.inj (Option.some.inj h)
        exact hended.of_eq (Function.update_of_ne hne _ _)
      · obtain ⟨rfl, -⟩ := Prod.mk.inj (Option.some.inj h)
        exact hended
  | pause e' =>
      simp only [pipelineStep] at h
      split at h <;> obtain ⟨rfl, -⟩ := Prod.mk.inj (Option.some.inj h) <;>
        exact hended
  | stop e' =>
      simp only [pipelineStep] at h
      split at h <;> obtain ⟨rfl, -⟩ := Prod.mk.inj (Option.some.inj h) <;>
        exact hended
  | startMux =>
      simp only [pipelineStep] at h
      split at h <;> obtain ⟨rfl, -⟩ := Prod.mk.inj (Option.some.inj h) <;>
        exact hended
  | device answer =>
      exact hended.of_eq (congrFun (deviceStep_others h).2.1 e)
  | encoder e' answer =>
      by_cases he : e' = e
      · subst he
        rw [show pipelineStep cfg lib s (.encoder e' answer) = _ from
          hended.not_step] at h
        cases h
      · exact hended.of_eq ((encoderStep_others h).2.2.1 e (Ne.symm he))
  | mux answer =>
      exact hended.of_eq (congrFun (muxThreadStep_others h).2.1 e)

theorem pipelineStep_device
    (h : pipelineStep cfg lib s a = some (s', es))
    (hne : ∀ answer, a ≠ .device answer) : s'.device = s.device := by
  cases a with
  | device answer =>
      exact absurd rfl (hne answer)
  | encoder e answer =>
      obtain ⟨-, -, -, hdevice, -⟩ := encoderStep_others h
      exact hdevice
  | mux answer =>
      obtain ⟨-, -, hdevice, -⟩ := muxThreadStep_others h
      exact hdevice
  | _ =>
      simp only [pipelineStep] at h
      grind [PipelineState.setEncoder, PipelineState.setMux]

/-- A new mux thread begins at the head of its loop. -/
theorem pipelineStep_mux
    (h : pipelineStep cfg lib s a = some (s', es))
    (hne : ∀ answer, a ≠ .mux answer) :
    s'.mux = s.mux ∨ s'.mux = .loopHead := by
  cases a with
  | device answer =>
      obtain ⟨-, -, hmux, -⟩ := deviceStep_others h
      exact Or.inl hmux
  | encoder e answer =>
      obtain ⟨-, -, -, -, hmux, -⟩ := encoderStep_others h
      exact Or.inl hmux
  | mux answer =>
      exact absurd rfl (hne answer)
  | _ =>
      simp only [pipelineStep] at h
      grind [PipelineState.setEncoder, PipelineState.setMux]

end Beside

end KoalaStreamer
