import KoalaStreamer.RawQueues

/-!
# MacRTMPStreamer.cpp: which packets are routed

The packets that `ff_read_devices` is done with, and the one in hand, are the
packets given to `av_read_frame`.  Each went where its stream index says; that of
a blank packet says stream 0.

Main results:
* `run_readInv`: the packets along a run;
* `reads_routed_iff`: when exactly the packets that were read are routed.
-/

namespace KoalaStreamer

open EventMachine TokenAccounting

section Runs

variable {cfg : StreamerConfig} {lib : LibAv} {poolCapacity : ℕ}
  {capacity : QueueId → ℕ} {pHandle : KoalaMuxer} {reads : PktId → ReadResult}
  {tr : List PipelineTransition} {s s' : PipelineState} {es : List PipelineEvent}
  {a : PipelineAction}

/-- What holds of the packets along a run. -/
structure ReadInv
    (cfg : StreamerConfig) (reads : PktId → ReadResult)
    (tr : List PipelineTransition) (s : PipelineState) : Prop where
  handled : (packetsHandled tr).map Prod.fst ++ s.packetInHand = packetsRead tr
  targets : ∀ x ∈ packetsHandled tr,
    x.2.target = routeQueue cfg (reads x.1).streamIndex
  fresh : ∀ p ∈ packetsRead tr, p < s.nextPkt
  nodup : (packetsRead tr).Nodup
  goesBy : s.device.GoesBy cfg reads s.heap
  dealt : ∀ e, packetsDealt tr e ++ s.inputPackets e = packetsStored tr e.input

@[simp] theorem packetsRead_snoc
    (tr : List PipelineTransition) (τ : PipelineTransition) :
    packetsRead (tr ++ [τ]) = packetsRead tr ++ readBy τ := by
  simp [packetsRead]

@[simp] theorem packetsHandled_snoc
    (tr : List PipelineTransition) (τ : PipelineTransition) :
    packetsHandled (tr ++ [τ]) = packetsHandled tr ++ handledBy τ := by
  simp [packetsHandled]

@[simp] theorem packetsDealt_snoc
    (tr : List PipelineTransition) (τ : PipelineTransition) (e : EncoderId) :
    packetsDealt (tr ++ [τ]) e = packetsDealt tr e ++ dealtBy e τ := by
  simp [packetsDealt]

@[simp] theorem packetsStored_snoc
    (tr : List PipelineTransition) (τ : PipelineTransition) (q : QueueId) :
    packetsStored (tr ++ [τ]) q = packetsStored tr q ++ storedBy q τ := by
  simp [packetsStored, storedBy]

theorem init_readInv :
    ReadInv cfg reads [] (PipelineState.init poolCapacity capacity pHandle) where
  handled := rfl
  targets := by simp [packetsHandled]
  fresh := by simp [packetsRead]
  nodup := List.nodup_nil
  goesBy := trivial
  dealt := by
    intro e
    have hempty : (PipelineState.init poolCapacity capacity pHandle).inputPackets e =
        [] :=
      congrArg (List.map _) (FiFo.contents_init (capacity e.input))
    rw [hempty]
    rfl

/-- One more step: a packet is read, or the one in hand is done with. -/
theorem ReadInv.snoc
    (h : ReadInv cfg reads tr s)
    (honce : AtMostOnce s.custody s.nextFrame)
    (hread : ∀ answer, a = .device answer → s.device = .reading →
      answer.streamIndex = (reads s.nextPkt).streamIndex)
    (hstep : pipelineStep cfg lib s a = some (s', es)) :
    ReadInv cfg reads (tr ++ [⟨s, a, es, s'⟩]) s' := by
  obtain ⟨hpacket, hgoes⟩ := pipelineStep_packet honce h.goesBy hread hstep
  have hnext := pipelineStep_nextPkt hstep
  have hdealt : ∀ e, packetsDealt (tr ++ [⟨s, a, es, s'⟩]) e ++ s'.inputPackets e =
      packetsStored (tr ++ [⟨s, a, es, s'⟩]) e.input := by
    intro e
    rw [packetsDealt_snoc, packetsStored_snoc, List.append_assoc,
      pipelineStep_inputPackets honce h.goesBy hstep, ← List.append_assoc, h.dealt]
  have hhandled := h.handled
  generalize hreadBy : readBy ⟨s, a, es, s'⟩ = read at hpacket
  generalize hhandledBy : handledBy ⟨s, a, es, s'⟩ = done at hpacket
  cases hpacket with
  | keeps hsame =>
      refine ⟨?_, ?_, ?_, ?_, hgoes, hdealt⟩
      · rw [packetsHandled_snoc, packetsRead_snoc, hreadBy, hhandledBy, hsame,
          List.append_nil, List.append_nil]
        exact hhandled
      · rw [packetsHandled_snoc, hhandledBy, List.append_nil]
        exact h.targets
      · rw [packetsRead_snoc, hreadBy, List.append_nil]
        exact fun p hp => (h.fresh p hp).trans_le hnext
      · rw [packetsRead_snoc, hreadBy, List.append_nil]
        exact h.nodup
  | reads hbefore hafter hlt =>
      rw [hbefore, List.append_nil] at hhandled
      refine ⟨?_, ?_, ?_, ?_, hgoes, hdealt⟩
      · rw [packetsHandled_snoc, packetsRead_snoc, hreadBy, hhandledBy, hafter,
          List.append_nil, hhandled]
      · rw [packetsHandled_snoc, hhandledBy, List.append_nil]
        exact h.targets
      · rw [packetsRead_snoc, hreadBy]
        intro p hp
        rcases List.mem_append.mp hp with hp | hp
        · exact (h.fresh p hp).trans_le hnext
        · rw [List.mem_singleton.mp hp]
          exact hlt
      · rw [packetsRead_snoc, hreadBy, List.nodup_append]
        refine ⟨h.nodup, List.nodup_singleton _, ?_⟩
        intro p hp p' hp' heq
        rw [List.mem_singleton.mp hp'] at heq
        exact (h.fresh p hp).ne heq
  | handles pkt handling hbefore hafter htarget =>
      rw [hbefore] at hhandled
      refine ⟨?_, ?_, ?_, ?_, hgoes, hdealt⟩
      · rw [packetsHandled_snoc, packetsRead_snoc, hreadBy, hhandledBy, hafter,
          List.map_append, List.append_nil, List.append_nil]
        exact hhandled
      · rw [packetsHandled_snoc, hhandledBy]
        intro x hx
        rcases List.mem_append.mp hx with hx | hx
        · exact h.targets x hx
        · rw [List.mem_singleton.mp hx]
          exact htarget
      · rw [packetsRead_snoc, hreadBy, List.append_nil]
        exact fun p hp => (h.fresh p hp).trans_le hnext
      · rw [packetsRead_snoc, hreadBy, List.append_nil]
        exact h.nodup

theorem run_readInv
    (run : Run (pipelineStep cfg lib)
      (PipelineState.init poolCapacity capacity pHandle) tr s)
    (hreads : ReadsAre tr reads) :
    ReadInv cfg reads tr s := by
  induction run with
  | nil =>
      exact init_readInv
  | snoc run hstep ih =>
      have hprev := ih fun τ hτ => hreads τ (List.mem_append_left _ hτ)
      refine hprev.snoc (pipeline_atMostOnce run) ?_ hstep
      rintro answer rfl hpc
      have hseen := hreads _ (List.mem_append_right _ (List.mem_singleton_self _))
      simpa [indexSeen, readBy, hpc] using hseen

/-! ## What is routed -/

/--
`into` are the packets of successful reads of the video stream and of the audio
stream, in the order they were read; all others were released; and an encoder
thread deals with packets of its stream only, in this order.
-/
structure RoutedAsRead
    (cfg : StreamerConfig) (reads : PktId → ReadResult)
    (into : QueueId → List PktId) (tr : List PipelineTransition) : Prop where
  video : into .pYUVQueue =
    (packetsRead tr).filter fun p => (reads p).isOf cfg.videoIndex
  audio : into .pPCMQueue =
    (packetsRead tr).filter fun p => (reads p).isOf cfg.audioIndex
  others : packetsReleased tr =
    (packetsRead tr).filter fun p =>
      !(reads p).isOf cfg.videoIndex && !(reads p).isOf cfg.audioIndex
  encoders : ∀ e, (packetsDealt tr e).Sublist
    ((packetsRead tr).filter fun p => (reads p).isOf (cfg.streamOf e.input))

/-- No call of `av_read_frame` fails while 0 is the video or the audio stream. -/
def NoBlankRouted
    (cfg : StreamerConfig) (reads : PktId → ReadResult)
    (tr : List PipelineTransition) : Prop :=
  ∀ p ∈ packetsRead tr, reads p = .failed →
    cfg.videoIndex ≠ 0 ∧ cfg.audioIndex ≠ 0

/-- An `enqueue` of the device thread does not end its wait for room with a full
queue or with a timeout. -/
def FindsRoom (τ : PipelineTransition) : Prop :=
  ∀ answer, τ.action = .device answer → lostFrames τ.src τ.action = []

theorem routeQueue_eq_nil_iff
    {streamIndex : Int} :
    routeQueue cfg streamIndex = [] ↔
      streamIndex ≠ cfg.videoIndex ∧ streamIndex ≠ cfg.audioIndex := by
  simp only [routeQueue]
  split
  · simp [*]
  · split <;> simp [*]

/-- Where a packet goes, if a blank packet does not look like one of its stream. -/
theorem routeQueue_read
    (hdistinct : cfg.videoIndex = cfg.audioIndex → cfg.videoIndex < 0)
    {r : ReadResult}
    (hblank : r = .failed → cfg.videoIndex ≠ 0 ∧ cfg.audioIndex ≠ 0) :
    (routeQueue cfg r.streamIndex = [.pYUVQueue] ↔ r.isOf cfg.videoIndex = true) ∧
    (routeQueue cfg r.streamIndex = [.pPCMQueue] ↔ r.isOf cfg.audioIndex = true) ∧
    (routeQueue cfg r.streamIndex = [] ↔
      (!r.isOf cfg.videoIndex && !r.isOf cfg.audioIndex) = true) := by
  cases r with
  | read i =>
      simp only [ReadResult.streamIndex, ReadResult.isOf, routeQueue]
      by_cases hvideo : (i : Int) = cfg.videoIndex
      · have haudio : (i : Int) ≠ cfg.audioIndex := by
          intro haudio
          have hneg := hdistinct (hvideo.symm.trans haudio)
          omega
        simp [hvideo, hvideo ▸ haudio]
      · by_cases haudio : (i : Int) = cfg.audioIndex
        · simp [haudio, haudio ▸ hvideo]
        · simp [hvideo, haudio]
  | failed =>
      obtain ⟨hvideo, haudio⟩ := hblank rfl
      simp [ReadResult.streamIndex, ReadResult.isOf, routeQueue, hvideo.symm,
        haudio.symm]

theorem filter_packetsRead
    (hread : (packetsHandled tr).map Prod.fst = packetsRead tr)
    (P : PktId → Bool) :
    (packetsRead tr).filter P =
      ((packetsHandled tr).filter fun x => P x.1).map Prod.fst := by
  rw [← hread, List.filter_map]
  rfl

theorem map_filter_handled
    {P Q : PktId × Handling → Bool}
    (h : ∀ x ∈ packetsHandled tr, P x = Q x) :
    ((packetsHandled tr).filter P).map Prod.fst =
      ((packetsHandled tr).filter Q).map Prod.fst := by
  rw [List.filter_congr h]

theorem offered_sublist
    (tr : List PipelineTransition) (q : QueueId) :
    (packetsStored tr q).Sublist (packetsOffered tr q) := by
  refine List.Sublist.map _ (List.monotone_filter_right _ ?_)
  intro x hx
  have hstored : x.2 = .enqueued q true := by simpa using hx
  simp [hstored, Handling.target]

/-- With room for every frame, what is offered is stored. -/
theorem stored_eq_offered
    (hroom : ∀ x ∈ packetsHandled tr, ∀ q, x.2 ≠ .enqueued q false) (q : QueueId) :
    packetsStored tr q = packetsOffered tr q := by
  refine map_filter_handled fun x hx => ?_
  have hstored := hroom x hx
  cases hhandling : x.2 with
  | enqueued q' stored =>
      cases stored with
      | true =>
          simp [Handling.target]
      | false =>
          exact absurd hhandling (hstored q')
  | released =>
      simp [Handling.target]

/-- The device thread is done with a packet that was not stored in a step that
loses a frame. -/
theorem findsRoom_iff
    {τ : PipelineTransition} (hvalid : τ.Valid (pipelineStep cfg lib)) :
    FindsRoom τ ↔ ∀ x ∈ handledBy τ, ∀ q, x.2 ≠ .enqueued q false := by
  obtain ⟨s, a, es, s'⟩ := τ
  by_cases hdevice : ∃ answer, a = .device answer
  · obtain ⟨answer, rfl⟩ := hdevice
    have hmove : ThreadMove .device s s' es (lostFrames s (.device answer)) :=
      deviceStep_move hvalid
    have hroom : FindsRoom ⟨s, .device answer, es, s'⟩ ↔
        lostFrames s (.device answer) = [] :=
      ⟨fun h => h answer rfl, fun h _ _ => h⟩
    rw [hroom]
    generalize lostFrames s (.device answer) = lost at hmove
    cases hmove with
    | offers q pFrame e hand _ hset hnext hhand hstored haccount hempty =>
        have hqueue : (s'.queue q).contents = e.queue.contents := by
          show s'.custody (.queue q) = _
          rw [hset, Function.update_of_ne (by simp), custody_setQueue,
            Function.update_self]
        rw [hempty rfl, List.append_nil] at haccount
        have hiff : lost = [] ↔
            (s'.queue q).contents = (s.queue q).contents ++ [pFrame] := by
          rw [hqueue, hstored, List.append_cancel_left_eq, ← haccount]
          simp
        rw [hiff]
        simp [handledBy]
    | releases pFrame hset hnext hhand =>
        refine iff_of_true rfl ?_
        intro x hx q
        simp only [handledBy, List.filterMap_cons, List.filterMap_nil] at hx
        split at hx
        · cases hx
        · rename_i y hy
          rw [List.mem_singleton.mp hx]
          split at hy
          · cases Option.some.inj hy
            simp
          · cases hy
    | _ =>
        exact iff_of_true rfl (by simp [handledBy])
  · have hne : ∀ answer, a ≠ .device answer :=
      fun answer heq => hdevice ⟨answer, heq⟩
    rw [(pipelineStep_logs hvalid hne).2]
    exact iff_of_true (fun answer heq => absurd heq (hne answer)) (by simp)

theorem all_findRoom_iff
    (run : Run (pipelineStep cfg lib)
      (PipelineState.init poolCapacity capacity pHandle) tr s) :
    (∀ τ ∈ tr, FindsRoom τ) ↔
      ∀ x ∈ packetsHandled tr, ∀ q, x.2 ≠ .enqueued q false := by
  constructor
  · intro h x hx
    obtain ⟨τ, hτ, hx⟩ := List.mem_flatMap.mp hx
    exact (findsRoom_iff (run.valid τ hτ)).mp (h τ hτ) x hx
  · intro h τ hτ
    refine (findsRoom_iff (run.valid τ hτ)).mpr fun x hx => ?_
    exact h x (List.mem_flatMap.mpr ⟨τ, hτ, hx⟩)

/-- The packets of a run whose device thread has none in hand, and is done with
each as `open_input` says. -/
structure Settled
    (cfg : StreamerConfig) (reads : PktId → ReadResult)
    (tr : List PipelineTransition) : Prop where
  distinct : cfg.videoIndex = cfg.audioIndex → cfg.videoIndex < 0
  handled : (packetsHandled tr).map Prod.fst = packetsRead tr
  targets : ∀ x ∈ packetsHandled tr,
    x.2.target = routeQueue cfg (reads x.1).streamIndex
  nodup : (packetsRead tr).Nodup
  dealt : ∀ e, packetsDealt tr e <+: packetsStored tr e.input

section Settled

variable (h : Settled cfg reads tr)
include h

theorem Settled.mem_read
    {x : PktId × Handling} (hx : x ∈ packetsHandled tr) : x.1 ∈ packetsRead tr :=
  h.handled ▸ List.mem_map_of_mem hx

/-- A blank packet that is released is not of stream 0. -/
theorem Settled.noBlank
    (hothers : packetsReleased tr =
      (packetsRead tr).filter fun p =>
        !(reads p).isOf cfg.videoIndex && !(reads p).isOf cfg.audioIndex) :
    NoBlankRouted cfg reads tr := by
  intro p hp hfailed
  have hmem : p ∈ packetsReleased tr := by
    rw [hothers]
    exact List.mem_filter.mpr ⟨hp, by simp [hfailed, ReadResult.isOf]⟩
  obtain ⟨x, hx, rfl⟩ := List.mem_map.mp hmem
  obtain ⟨hx, hreleased⟩ := List.mem_filter.mp hx
  have htarget := h.targets x hx
  rw [of_decide_eq_true hreleased, hfailed] at htarget
  obtain ⟨hvideo, haudio⟩ := routeQueue_eq_nil_iff.mp htarget.symm
  exact ⟨hvideo.symm, haudio.symm⟩

/-- Without such blank packets, every packet goes where its stream says. -/
theorem Settled.target_iff
    (hblank : NoBlankRouted cfg reads tr)
    {x : PktId × Handling} (hx : x ∈ packetsHandled tr) :
    (x.2.target = [.pYUVQueue] ↔ (reads x.1).isOf cfg.videoIndex = true) ∧
    (x.2.target = [.pPCMQueue] ↔ (reads x.1).isOf cfg.audioIndex = true) ∧
    (x.2.target = [] ↔
      (!(reads x.1).isOf cfg.videoIndex && !(reads x.1).isOf cfg.audioIndex) =
        true) := by
  rw [h.targets x hx]
  exact routeQueue_read h.distinct (hblank x.1 (h.mem_read hx))

theorem Settled.offered
    (hblank : NoBlankRouted cfg reads tr) (e : EncoderId) :
    packetsOffered tr e.input =
      (packetsRead tr).filter fun p => (reads p).isOf (cfg.streamOf e.input) := by
  rw [filter_packetsRead h.handled]
  refine map_filter_handled fun x hx => ?_
  obtain ⟨hvideo, haudio, -⟩ := h.target_iff hblank hx
  cases e with
  | mpThreadVE =>
      exact Bool.eq_iff_iff.mpr (decide_eq_true_iff.trans hvideo)
  | mpThreadAE =>
      exact Bool.eq_iff_iff.mpr (decide_eq_true_iff.trans haudio)

theorem Settled.released
    (hblank : NoBlankRouted cfg reads tr) :
    packetsReleased tr =
      (packetsRead tr).filter fun p =>
        !(reads p).isOf cfg.videoIndex && !(reads p).isOf cfg.audioIndex := by
  rw [filter_packetsRead h.handled]
  refine map_filter_handled fun x hx => ?_
  have hreleased : x.2 = .released ↔ x.2.target = [] := by
    cases x.2 <;> simp [Handling.target]
  obtain ⟨-, -, hothers⟩ := h.target_iff hblank hx
  exact Bool.eq_iff_iff.mpr
    (decide_eq_true_iff.trans (hreleased.trans hothers))

/-- What an encoder thread deals with is offered to its queue first. -/
theorem Settled.encoders
    (hblank : NoBlankRouted cfg reads tr) (e : EncoderId) :
    (packetsDealt tr e).Sublist
      ((packetsRead tr).filter fun p => (reads p).isOf (cfg.streamOf e.input)) := by
  rw [← h.offered hblank e]
  exact (h.dealt e).sublist.trans (offered_sublist tr e.input)

theorem Settled.routed_offered_iff :
    RoutedAsRead cfg reads (packetsOffered tr) tr ↔ NoBlankRouted cfg reads tr := by
  constructor
  · exact fun hrouted => h.noBlank hrouted.others
  · intro hblank
    exact ⟨h.offered hblank .mpThreadVE, h.offered hblank .mpThreadAE,
      h.released hblank, h.encoders hblank⟩

/-- If the packets stored are those of the streams, every packet offered is
stored. -/
theorem Settled.room
    (hrouted : RoutedAsRead cfg reads (packetsStored tr) tr) :
    ∀ x ∈ packetsHandled tr, ∀ q, x.2 ≠ .enqueued q false := by
  intro x hx q hlost
  have hblank := h.noBlank hrouted.others
  obtain ⟨hvideo, haudio, -⟩ := h.target_iff hblank hx
  have htarget : x.2.target = [q] := by rw [hlost]; rfl
  -- the packet is of the stream of `q`, so that `q` has stored it
  have hmem : x.1 ∈ packetsStored tr q := by
    have hroute := h.targets x hx
    rw [htarget, routeQueue] at hroute
    split at hroute
    · obtain rfl := List.singleton_inj.mp hroute
      rw [hrouted.video]
      exact List.mem_filter.mpr ⟨h.mem_read hx, hvideo.mp htarget⟩
    · split at hroute
      · obtain rfl := List.singleton_inj.mp hroute
        rw [hrouted.audio]
        exact List.mem_filter.mpr ⟨h.mem_read hx, haudio.mp htarget⟩
      · cases hroute
  obtain ⟨y, hy, hyx⟩ := List.mem_map.mp hmem
  obtain ⟨hy, hstored⟩ := List.mem_filter.mp hy
  have hnodup : ((packetsHandled tr).map Prod.fst).Nodup := h.handled ▸ h.nodup
  obtain rfl := List.inj_on_of_nodup_map hnodup hy hx hyx
  rw [hlost] at hstored
  cases of_decide_eq_true hstored

theorem Settled.routed_stored_iff :
    RoutedAsRead cfg reads (packetsStored tr) tr ↔
      NoBlankRouted cfg reads tr ∧
      ∀ x ∈ packetsHandled tr, ∀ q, x.2 ≠ .enqueued q false := by
  constructor
  · exact fun hrouted => ⟨h.noBlank hrouted.others, h.room hrouted⟩
  · rintro ⟨hblank, hroom⟩
    refine ⟨?_, ?_, h.released hblank, h.encoders hblank⟩
    · rw [stored_eq_offered hroom]
      exact h.offered hblank .mpThreadVE
    · rw [stored_eq_offered hroom]
      exact h.offered hblank .mpThreadAE

end Settled

end Runs

/--
In every run of the pipeline with the streams of `open_input`, whenever the device
thread has no packet in hand: the packets with whose frames `enqueue` was called
are those of the successful reads, each in the queue of its stream and in the
order they were read, while all others were released and reach no encoder thread,
if and only if no call of `av_read_frame` has failed while 0 is the video or the
audio stream.  The same holds of the packets whose frames the queues have taken
if and only if, besides, every frame has found room.
-/
theorem reads_routed_iff
    {codecTypes : List AVMediaType} {lib : LibAv} {poolCapacity : ℕ}
    {capacity : QueueId → ℕ} {pHandle : KoalaMuxer} {reads : PktId → ReadResult}
    {tr : List PipelineTransition} {s : PipelineState}
    (run : Run (pipelineStep (openInput codecTypes) lib)
      (PipelineState.init poolCapacity capacity pHandle) tr s)
    (hreads : ReadsAre tr reads) (hrest : s.packetInHand = []) :
    (RoutedAsRead (openInput codecTypes) reads (packetsOffered tr) tr ↔
      NoBlankRouted (openInput codecTypes) reads tr) ∧
    (RoutedAsRead (openInput codecTypes) reads (packetsStored tr) tr ↔
      NoBlankRouted (openInput codecTypes) reads tr ∧ ∀ τ ∈ tr, FindsRoom τ) := by
  have hinv := run_readInv run hreads
  have hhandled := hinv.handled
  rw [hrest, List.append_nil] at hhandled
  have hsettled : Settled (openInput codecTypes) reads tr :=
    ⟨openInput_distinct codecTypes, hhandled, hinv.targets, hinv.nodup,
      fun e => ⟨_, hinv.dealt e⟩⟩
  rw [all_findRoom_iff run]
  exact ⟨hsettled.routed_offered_iff, hsettled.routed_stored_iff⟩

/-- A device with a stream of subtitles, a camera and a microphone. -/
def deviceStreams : List AVMediaType := [.other, .video, .audio]

/-- A picture is read, then a call fails, then samples are read. -/
def failsSecond : PktId → ReadResult
  | 0 => .read 1
  | 1 => .failed
  | _ => .read 2

/-- Before `main` starts the threads. -/
def pipelineStart : PipelineState :=
  PipelineState.init 500 queueCapacity (openedMuxer false true false "flv" 0 0 0)

/-- One pass of `ff_read_devices`. -/
def devicePass (streamIndex : Int) : List PipelineAction :=
  List.replicate 8 (.device ⟨streamIndex, 0⟩)

/-- The encoder thread takes its first frame. -/
def encoderTakes : List PipelineAction :=
  [.start .mpThreadVE, .encoder .mpThreadVE ⟨.kept, 0⟩,
    .encoder .mpThreadVE ⟨.kept, 0⟩]

/-- Stream 0 is neither of the two, so a failed call does no harm. -/
theorem reads_routed_iff_harmless :
    ∃ tr s, Run (pipelineStep (openInput deviceStreams) exactLibAv)
        pipelineStart tr s ∧
      packetsRead tr = [0, 1, 2] ∧ packetsDealt tr .mpThreadVE = [0] ∧
      RoutedAsRead (openInput deviceStreams) failsSecond (packetsStored tr) tr := by
  obtain ⟨tr, s, run, hread, hdealt, hreads, hrest, hroom⟩ :=
    Run.exists_of_exec (pipelineStep (openInput deviceStreams) exactLibAv)
      pipelineStart
      (devicePass 1 ++ devicePass 0 ++ devicePass 2 ++ encoderTakes)
      (fun r => packetsRead r.1 = [0, 1, 2] ∧ packetsDealt r.1 .mpThreadVE = [0] ∧
        (∀ τ ∈ r.1, indexSeen τ =
          (readBy τ).map fun pkt => (failsSecond pkt).streamIndex) ∧
        r.2.packetInHand = [] ∧ ∀ τ ∈ r.1, lostFrames τ.src τ.action = [])
      (by decide +kernel)
  refine ⟨tr, s, run, hread, hdealt,
    (reads_routed_iff run hreads hrest).2.mpr ⟨?_, ?_⟩⟩
  · exact fun _ _ _ => by decide
  · exact fun τ hτ _ _ => hroom τ hτ

/-- Stream 0 is the video: the blank packet of a failed call reaches the encoder. -/
theorem reads_routed_fails_blank :
    ∃ tr s, Run (pipelineStep (openInput [.video, .audio]) exactLibAv)
        pipelineStart tr s ∧
      ReadsAre tr (fun _ => .failed) ∧ s.packetInHand = [] ∧
      packetsDealt tr .mpThreadVE = [0] ∧
      ¬ RoutedAsRead (openInput [.video, .audio]) (fun _ => .failed)
        (packetsOffered tr) tr ∧
      ¬ RoutedAsRead (openInput [.video, .audio]) (fun _ => .failed)
        (packetsStored tr) tr := by
  obtain ⟨tr, s, run, hreads, hrest, hdealt, hoffered, hstored⟩ :=
    Run.exists_of_exec (pipelineStep (openInput [.video, .audio]) exactLibAv)
      pipelineStart (devicePass 0 ++ encoderTakes)
      (fun r => (∀ τ ∈ r.1, indexSeen τ =
          (readBy τ).map fun _ => ReadResult.failed.streamIndex) ∧
        r.2.packetInHand = [] ∧ packetsDealt r.1 .mpThreadVE = [0] ∧
        packetsOffered r.1 .pYUVQueue = [0] ∧ packetsStored r.1 .pYUVQueue = [0])
      (by decide +kernel)
  refine ⟨tr, s, run, hreads, hrest, hdealt, fun h => ?_, fun h => ?_⟩
  · exact absurd (hoffered.symm.trans h.video) (by simp [ReadResult.isOf])
  · exact absurd (hstored.symm.trans h.video) (by simp [ReadResult.isOf])

end KoalaStreamer
