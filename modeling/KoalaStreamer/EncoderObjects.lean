import KoalaStreamer.PacketOwnership
import KoalaStreamer.PcmBlocks
import KoalaStreamer.PipelineOrder

/-!
# The encoder objects in the pipeline

The pipeline leaves open what `deal` makes of its input.  Here every encoder thread has its
`FFEncoderThread` and every packet its data, and the answer comes from `deal`.  The threads
then run as threads of the pipeline, and each object runs as it does alone.

Main results:
* `objectRun_threads`: the threads seen alone take a run of the pipeline;
* `object_runs_alone`: an object seen alone takes a run of `dealStep`, on the packets that
  its queue has stored;
* `audio_carried`: what the audio encoder is given, with what is on the way to it, is what
  was read of the stream and stored, byte for byte.
-/

namespace KoalaStreamer

open EventMachine TokenAccounting BlockStream

/-! ## Threads with their objects -/

section Model

variable {β : Type}

/-- The threads, and the objects whose `deal` the encoder threads call. -/
structure ObjectState (β : Type) where
  threads : PipelineState
  object : EncoderId → FFEncoderThread β

inductive ObjectAction
  /-- A step outside of `deal`. -/
  | walk (a : PipelineAction)
  /-- `deal`, as far as to the end of the encode call. -/
  | deal (e : EncoderId) (answer : EncodeAnswer)

inductive ObjectEvent (β : Type)
  | walked (event : PipelineEvent)
  | dealt (e : EncoderId) (event : DealEvent β)

abbrev ObjectTransition (β : Type) :=
  Transition (ObjectState β) ObjectAction (ObjectEvent β)

def ObjectState.init
    (poolCapacity : ℕ) (capacity : QueueId → ℕ) (pHandle : KoalaMuxer)
    (object : EncoderId → FFEncoderThread β) : ObjectState β where
  threads := PipelineState.init poolCapacity capacity pHandle
  object := object

/-- The step is one inside of `deal`. -/
def PipelineAction.inDeal (s : PipelineState) : PipelineAction → Bool
  | .encoder e _ =>
      match s.encoder e with
      | .dealing _ => true
      | _ => false
  | _ => false

section Deal

variable (bytesPerSample : Int → Int) (content : PktId → RawPacket β) (s : ObjectState β)
  (e : EncoderId) (pFrame : FrameId) (answer : EncodeAnswer)

/-- What the `pBuffer` of the frame points to. -/
def ObjectState.pkt : RawPacket β :=
  content (s.threads.heap pFrame).pBuffer

/-- `deal` of the object of `e`. -/
def ObjectState.dealExit : DealExit β :=
  deal bytesPerSample (s.object e) s.threads.nextPkt (s.threads.heap pFrame)
    (s.pkt content pFrame) answer

/-- The thread is told what its object has made of the frame. -/
def ObjectState.afterDeal : ObjectState β where
  threads :=
    encoderDealt s.threads e pFrame (dealEncoded (s.object e) (s.pkt content pFrame) answer)
  object :=
    Function.update s.object e (s.dealExit bytesPerSample content e pFrame answer).thread

end Deal

/-- `content` is what `av_read_frame` has left in a packet. -/
def objectStep
    (cfg : StreamerConfig) (lib : LibAv) (bytesPerSample : Int → Int)
    (content : PktId → RawPacket β) :
    Machine (ObjectState β) ObjectAction (ObjectEvent β)
  | s, .walk a =>
      if a.inDeal s.threads then none
      else
        (pipelineStep cfg lib s.threads a).map fun r =>
          ({ s with threads := r.1 }, r.2.map .walked)
  | s, .deal e answer =>
      match s.threads.encoder e with
      | .dealing pFrame =>
          some (s.afterDeal bytesPerSample content e pFrame answer,
            (s.dealExit bytesPerSample content e pFrame answer).events.map (.dealt e))
      | _ => none

end Model

/-! ## What is seen of a run -/

section Observations

variable {β : Type}

def ObjectEvent.walked? : ObjectEvent β → Option PipelineEvent
  | .walked event => some event
  | .dealt _ _ => none

def ObjectEvent.dealt? (e : EncoderId) : ObjectEvent β → Option (DealEvent β)
  | .walked _ => none
  | .dealt e' event => if e' = e then some event else none

/-- What the thread is told in the step. -/
def ObjectState.encoded
    (content : PktId → RawPacket β) (s : ObjectState β) (e : EncoderId)
    (answer : EncodeAnswer) : Encoded :=
  match s.threads.encoder e with
  | .dealing pFrame => dealEncoded (s.object e) (s.pkt content pFrame) answer
  | _ => .kept

/-- The step as one of the pipeline. -/
def threadsSeen
    (content : PktId → RawPacket β) (τ : ObjectTransition β) : PipelineTransition where
  src := τ.src.threads
  action :=
    match τ.action with
    | .walk a => a
    | .deal e answer => .encoder e ⟨τ.src.encoded content e answer, 0⟩
  events := τ.events.filterMap ObjectEvent.walked?
  dst := τ.dst.threads

/-- The packet that the object of `e` is given in the step. -/
def givenBy (e : EncoderId) (τ : ObjectTransition β) : List PktId :=
  match τ.action with
  | .walk _ => []
  | .deal e' _ => if e' = e then τ.src.threads.dealing e else []

/-- The packets that the object of `e` was given, in order. -/
def packetsGiven (e : EncoderId) (tr : List (ObjectTransition β)) : List PktId :=
  tr.flatMap (givenBy e)

/-- What the object of `e` has done. -/
def dealEvents (e : EncoderId) (tr : List (ObjectTransition β)) : List (DealEvent β) :=
  (eventsOf tr).filterMap (ObjectEvent.dealt? e)

/-- The packets that were read and not yet given to the object: the one that its thread is
about to deal with, and those in its queue. -/
def PipelineState.waiting (s : PipelineState) (e : EncoderId) : List PktId :=
  s.dealing e ++ s.inputPackets e

/-- Everything but the name of a packet that is allocated. -/
def DealEvent.shown : DealEvent β → Bool
  | .packetAlloc _ => false
  | _ => true

/-- The calls and copies, without the names of the packets that are allocated. -/
def shownEvents (es : List (DealEvent β)) : List (DealEvent β) :=
  es.filter DealEvent.shown

@[simp] theorem shownEvents_append
    (es es' : List (DealEvent β)) :
    shownEvents (es ++ es') = shownEvents es ++ shownEvents es' :=
  List.filter_append ..

@[simp] theorem filterMap_walked
    (es : List PipelineEvent) :
    (es.map (ObjectEvent.walked (β := β))).filterMap ObjectEvent.walked? = es := by
  simp [List.filterMap_map, ObjectEvent.walked?, Function.comp_def]

@[simp] theorem filterMap_walked_dealt
    (e : EncoderId) (es : List PipelineEvent) :
    (es.map (ObjectEvent.walked (β := β))).filterMap (ObjectEvent.dealt? e) = [] := by
  simp [ObjectEvent.dealt?]

@[simp] theorem filterMap_dealt_walked
    (e : EncoderId) (es : List (DealEvent β)) :
    (es.map (ObjectEvent.dealt e)).filterMap ObjectEvent.walked? = [] := by
  simp [ObjectEvent.walked?]

@[simp] theorem filterMap_dealt
    (e e' : EncoderId) (es : List (DealEvent β)) :
    (es.map (ObjectEvent.dealt e')).filterMap (ObjectEvent.dealt? e) =
      if e' = e then es else [] := by
  split
  · simp_all [List.filterMap_map, ObjectEvent.dealt?, Function.comp_def]
  · simp_all [List.filterMap_map, ObjectEvent.dealt?, Function.comp_def]

@[simp] theorem packetsGiven_snoc
    (e : EncoderId) (tr : List (ObjectTransition β)) (τ : ObjectTransition β) :
    packetsGiven e (tr ++ [τ]) = packetsGiven e tr ++ givenBy e τ := by
  simp [packetsGiven]

@[simp] theorem dealEvents_snoc
    (e : EncoderId) (tr : List (ObjectTransition β)) (τ : ObjectTransition β) :
    dealEvents e (tr ++ [τ]) =
      dealEvents e tr ++ τ.events.filterMap (ObjectEvent.dealt? e) := by
  simp [dealEvents]

end Observations

/-! ## Steps -/

section Steps

variable {β : Type} {cfg : StreamerConfig} {lib : LibAv} {bytesPerSample : Int → Int}
  {content : PktId → RawPacket β} {s t : ObjectState β} {a : ObjectAction}
  {es : List (ObjectEvent β)} {e : EncoderId}

/-- Inversion of `objectStep`. -/
inductive ObjectStepCase
    (cfg : StreamerConfig) (lib : LibAv) (bytesPerSample : Int → Int)
    (content : PktId → RawPacket β) (s : ObjectState β) :
    ObjectAction → ObjectState β → List (ObjectEvent β) → Prop
  | walks (a : PipelineAction) (threads : PipelineState) (ps : List PipelineEvent)
      (hout : a.inDeal s.threads = false)
      (hstep : pipelineStep cfg lib s.threads a = some (threads, ps)) :
      ObjectStepCase cfg lib bytesPerSample content s (.walk a)
        { s with threads := threads } (ps.map .walked)
  | deals (e : EncoderId) (answer : EncodeAnswer) (pFrame : FrameId)
      (hpc : s.threads.encoder e = .dealing pFrame) :
      ObjectStepCase cfg lib bytesPerSample content s (.deal e answer)
        (s.afterDeal bytesPerSample content e pFrame answer)
        ((s.dealExit bytesPerSample content e pFrame answer).events.map (.dealt e))

theorem objectStep_case
    (h : objectStep cfg lib bytesPerSample content s a = some (t, es)) :
    ObjectStepCase cfg lib bytesPerSample content s a t es := by
  cases a with
  | walk a =>
      simp only [objectStep] at h
      split at h
      · cases h
      · rename_i hout
        obtain ⟨⟨threads, ps⟩, hstep, heq⟩ := Option.map_eq_some_iff.mp h
        obtain ⟨rfl, rfl⟩ := Prod.mk.inj heq
        exact .walks a threads ps (Bool.eq_false_iff.mpr hout) hstep
  | deal e answer =>
      simp only [objectStep] at h
      split at h
      · rename_i pFrame hpc
        obtain ⟨rfl, rfl⟩ := Prod.mk.inj (Option.some.inj h)
        exact .deals e answer pFrame hpc
      · cases h

/-- A thread calls `deal` as the pipeline has it. -/
theorem pipelineStep_deal
    (cfg : StreamerConfig) (lib : LibAv) (content : PktId → RawPacket β)
    (answer : EncodeAnswer) {pFrame : FrameId}
    (hpc : s.threads.encoder e = .dealing pFrame) :
    pipelineStep cfg lib s.threads (.encoder e ⟨s.encoded content e answer, 0⟩) =
      some (encoderDealt s.threads e pFrame
        (dealEncoded (s.object e) (s.pkt content pFrame) answer), []) := by
  simp only [pipelineStep, encoderStep, hpc, ObjectState.encoded]

theorem threadsSeen_valid
    {τ : ObjectTransition β} (h : τ.Valid (objectStep cfg lib bytesPerSample content)) :
    (threadsSeen content τ).Valid (pipelineStep cfg lib) := by
  obtain ⟨s, a, es, t⟩ := τ
  have htaken : objectStep cfg lib bytesPerSample content s a = some (t, es) := h
  cases objectStep_case htaken with
  | walks a threads ps hout hstep =>
      simp only [Transition.Valid, threadsSeen, filterMap_walked]
      exact hstep
  | deals e answer pFrame hpc =>
      simp only [Transition.Valid, threadsSeen, filterMap_dealt_walked]
      exact pipelineStep_deal cfg lib content answer hpc

/-- The thread of `e` outside of `deal` has no packet to deal with. -/
theorem dealing_of_not_inDeal
    {p : PipelineState} {answer : EncoderAnswer}
    (hout : (PipelineAction.encoder e answer).inDeal p = false) : p.dealing e = [] := by
  simp only [PipelineAction.inDeal] at hout
  simp only [PipelineState.dealing]
  split
  · rename_i pFrame hpc
    rw [hpc] at hout
    cases hout
  · rfl

/-- What an object is given was waiting for it, and its thread takes the next packet from
the queue. -/
theorem objectStep_given
    (honce : AtMostOnce s.threads.custody s.threads.nextFrame)
    (hstart : StartInv s.threads)
    (h : objectStep cfg lib bytesPerSample content s a = some (t, es)) :
    givenBy e ⟨s, a, es, t⟩ ++ t.threads.dealing e =
      s.threads.dealing e ++ dealtBy e (threadsSeen content ⟨s, a, es, t⟩) := by
  have hvalid := threadsSeen_valid (τ := ⟨s, a, es, t⟩) h
  -- a step of another thread, or of main
  have hbeside : (threadsSeen content ⟨s, a, es, t⟩).action.thread ≠ some (.encoder e) →
      givenBy e ⟨s, a, es, t⟩ = [] →
      givenBy e ⟨s, a, es, t⟩ ++ t.threads.dealing e =
        s.threads.dealing e ++ dealtBy e (threadsSeen content ⟨s, a, es, t⟩) := by
    intro hne hgiven
    have hdealt : dealtBy e (threadsSeen content ⟨s, a, es, t⟩) = [] := by
      generalize threadsSeen content ⟨s, a, es, t⟩ = τ at hne
      obtain ⟨src, action, events, dst⟩ := τ
      cases action with
      | encoder e' answer =>
          refine if_neg ?_
          rintro rfl
          exact hne rfl
      | _ =>
          rfl
    rw [hgiven, hdealt, List.nil_append, List.append_nil]
    exact dealing_of_beside honce hstart hvalid hne
  cases objectStep_case h with
  | walks a threads ps hout hstep =>
      by_cases hthread : a.thread = some (.encoder e)
      · cases a with
        | encoder e' answer =>
            obtain rfl := PipelineThread.encoder.inj (Option.some.inj hthread)
            rw [dealing_of_not_inDeal hout]
            exact (dealtBy_encoder ..).symm
        | _ =>
            cases hthread
      · exact hbeside hthread rfl
  | deals e' answer pFrame hpc =>
      by_cases he : e' = e
      · subst he
        exact congrArg₂ (· ++ ·) (if_pos rfl) (dealtBy_encoder ..).symm
      · refine hbeside ?_ (if_neg he)
        rintro heq
        exact he (PipelineThread.encoder.inj (Option.some.inj heq))

end Steps

/-! ## The call of an object -/

section Calls

variable {β : Type}

/-- What `deal` does with its object and its packet does not depend on the name of the
packet that it allocates. -/
theorem deal_shown
    (bytesPerSample : Int → Int) (t : FFEncoderThread β) (nextPkt nextPkt' : PktId)
    (pFrame : MediaFrame) (pkt : RawPacket β) (answer : EncodeAnswer) :
    (deal bytesPerSample t nextPkt pFrame pkt answer).thread =
      (deal bytesPerSample t nextPkt' pFrame pkt answer).thread ∧
    shownEvents (deal bytesPerSample t nextPkt pFrame pkt answer).events =
      shownEvents (deal bytesPerSample t nextPkt' pFrame pkt answer).events := by
  cases htype : t.type with
  | video =>
      simp only [deal, htype]
      exact ⟨rfl, rfl⟩
  | audio =>
      simp only [deal, htype, encoderAudio]
      split <;> exact ⟨rfl, rfl⟩
  | other =>
      simp only [deal, htype, and_self]

/-- The allocation of a packet is no submission. -/
theorem submittedAudio_shown
    (es : List (DealEvent β)) : submittedAudio (shownEvents es) = submittedAudio es := by
  rw [submittedAudio, shownEvents, List.filterMap_filter]
  refine List.filterMap_congr fun event _ => ?_
  cases event <;> rfl

theorem copied_mem_shown
    {es : List (DealEvent β)} {offset size : ℕ} :
    .copied offset size ∈ shownEvents es ↔ .copied offset size ∈ es := by
  simp [shownEvents, DealEvent.shown]

end Calls

/-! ## Runs -/

section Runs

variable {β : Type} {cfg : StreamerConfig} {lib : LibAv} {bytesPerSample : Int → Int}
  {content : PktId → RawPacket β} {poolCapacity : ℕ} {capacity : QueueId → ℕ}
  {pHandle : KoalaMuxer} {object : EncoderId → FFEncoderThread β}
  {reads : PktId → ReadResult} {tr : List (ObjectTransition β)} {s : ObjectState β}

/-- Without their objects the threads take a run of the pipeline. -/
theorem objectRun_threads
    (run : Run (objectStep cfg lib bytesPerSample content)
      (ObjectState.init poolCapacity capacity pHandle object) tr s) :
    Run (pipelineStep cfg lib) (PipelineState.init poolCapacity capacity pHandle)
      (tr.map (threadsSeen content)) s.threads :=
  Run.projected ObjectState.threads (threadsSeen content)
    (fun _ _ _ hvalid => ⟨threadsSeen_valid hvalid, rfl, rfl⟩) run

/-- What was given to an object and what its thread deals with was taken from the queue. -/
theorem objectRun_dealt
    (run : Run (objectStep cfg lib bytesPerSample content)
      (ObjectState.init poolCapacity capacity pHandle object) tr s) (e : EncoderId) :
    packetsGiven e tr ++ s.threads.dealing e =
      packetsDealt (tr.map (threadsSeen content)) e := by
  induction run with
  | nil =>
      rfl
  | @snoc tr s t a es run hstep ih =>
      have hthreads := objectRun_threads run
      have hgiven := objectStep_given (e := e) (pipeline_atMostOnce hthreads)
        (run_startInv hthreads) hstep
      rw [packetsGiven_snoc, List.append_assoc, hgiven, ← List.append_assoc, ih,
        List.map_append, List.map_singleton, packetsDealt_snoc]

/-- The packets that a queue has stored were given to the object or wait for it. -/
theorem objectRun_stored
    (run : Run (objectStep cfg lib bytesPerSample content)
      (ObjectState.init poolCapacity capacity pHandle object) tr s)
    (hreads : ReadsAre (tr.map (threadsSeen content)) reads) (e : EncoderId) :
    packetsGiven e tr ++ s.threads.waiting e =
      packetsStored (tr.map (threadsSeen content)) e.input := by
  have hinv := run_readInv (objectRun_threads run) hreads
  rw [← hinv.dealt e, ← objectRun_dealt run e, PipelineState.waiting, List.append_assoc]

/-- The frame that a thread deals with was filled by `ff_read_devices`. -/
theorem dealing_raw
    {p : PipelineState} (hlabelled : Labelled p) {e : EncoderId} {pFrame : FrameId}
    (hpc : p.encoder e = .dealing pFrame) : (p.heap pFrame).release = .releasePkt := by
  have hrelease := hlabelled.hand (.encoder e) (pFrame, e.input.release) (by
    rw [labels_encoder hpc]
    exact List.mem_singleton_self _)
  rwa [input_release] at hrelease

/-- An object takes a run of its own, in which it is given the same packets. -/
theorem objectRun_deal
    (run : Run (objectStep cfg lib bytesPerSample content)
      (ObjectState.init poolCapacity capacity pHandle object) tr s) (e : EncoderId) :
    ∃ dtr d, Run (dealStep bytesPerSample) (DealState.init (object e)) dtr d ∧
      d.thread = s.object e ∧
      dealtPackets dtr = (packetsGiven e tr).map content ∧
      shownEvents (eventsOf dtr) = shownEvents (dealEvents e tr) := by
  induction run with
  | nil =>
      exact ⟨[], _, Run.nil, rfl, rfl, rfl⟩
  | @snoc tr s t a es run hstep ih =>
      obtain ⟨dtr, d, drun, hthread, hpackets, hevents⟩ := ih
      cases objectStep_case hstep with
      | walks a threads ps hout hstep =>
          refine ⟨dtr, d, drun, hthread, ?_, ?_⟩
          · rw [packetsGiven_snoc, hpackets]
            exact congrArg (List.map content) (List.append_nil _).symm
          · rw [dealEvents_snoc, hevents, filterMap_walked_dealt, List.append_nil]
      | deals e' answer pFrame hpc =>
          by_cases he : e' = e
          · subst he
            have hraw := dealing_raw (run_labelled (objectRun_threads run)) hpc
            have hshown := deal_shown bytesPerSample (s.object e') d.nextPkt
              s.threads.nextPkt (s.threads.heap pFrame) (s.pkt content pFrame) answer
            have hobject : (s.afterDeal bytesPerSample content e' pFrame answer).object e' =
                (s.dealExit bytesPerSample content e' pFrame answer).thread :=
              Function.update_self ..
            have hgiven : givenBy e' ⟨s, .deal e' answer,
                (s.dealExit bytesPerSample content e' pFrame answer).events.map
                  (.dealt e'),
                s.afterDeal bytesPerSample content e' pFrame answer⟩ =
                [(s.threads.heap pFrame).pBuffer] := by
              simp only [givenBy, if_true, PipelineState.dealing, hpc]
            refine ⟨_, _, drun.snoc (a := .deal ⟨s.threads.heap pFrame, hraw⟩
              (s.pkt content pFrame) answer) rfl, ?_, ?_, ?_⟩
            · rw [hobject, hthread]
              exact hshown.1
            · rw [dealtPackets_deal, packetsGiven_snoc, hgiven, List.map_append, hpackets]
              rfl
            · rw [eventsOf_snoc, dealEvents_snoc, filterMap_dealt, if_pos rfl,
                shownEvents_append, shownEvents_append, hevents, hthread]
              exact congrArg _ hshown.2
          · refine ⟨dtr, d, drun, ?_, ?_, ?_⟩
            · rw [hthread]
              exact (Function.update_of_ne (Ne.symm he) _ _).symm
            · rw [packetsGiven_snoc, hpackets]
              have hgiven : givenBy e ⟨s, .deal e' answer,
                  (s.dealExit bytesPerSample content e' pFrame answer).events.map
                    (.dealt e'),
                  s.afterDeal bytesPerSample content e' pFrame answer⟩ = [] := if_neg he
              rw [hgiven, List.append_nil]
            · rw [dealEvents_snoc, filterMap_dealt, if_neg he, List.append_nil, hevents]

end Runs

/--
The threads run as those of the pipeline, and each object runs as it does alone: there is a
run of `dealStep` in which it is given the same packets, makes the same calls with the same
samples and pictures, and ends up the same.  The packets it was given, and those that wait
for it, are the ones that its queue has stored, in this order.
-/
theorem object_runs_alone
    {β : Type} {cfg : StreamerConfig} {lib : LibAv} {bytesPerSample : Int → Int}
    {content : PktId → RawPacket β} {poolCapacity : ℕ} {capacity : QueueId → ℕ}
    {pHandle : KoalaMuxer} {object : EncoderId → FFEncoderThread β}
    {reads : PktId → ReadResult} {tr : List (ObjectTransition β)} {s : ObjectState β}
    (run : Run (objectStep cfg lib bytesPerSample content)
      (ObjectState.init poolCapacity capacity pHandle object) tr s)
    (hreads : ReadsAre (tr.map (threadsSeen content)) reads) (e : EncoderId) :
    Run (pipelineStep cfg lib) (PipelineState.init poolCapacity capacity pHandle)
      (tr.map (threadsSeen content)) s.threads ∧
    (∃ dtr d, Run (dealStep bytesPerSample) (DealState.init (object e)) dtr d ∧
      d.thread = s.object e ∧
      dealtPackets dtr = (packetsGiven e tr).map content ∧
      shownEvents (eventsOf dtr) = shownEvents (dealEvents e tr)) ∧
    packetsGiven e tr ++ s.threads.waiting e =
      packetsStored (tr.map (threadsSeen content)) e.input :=
  ⟨objectRun_threads run, objectRun_deal run e, objectRun_stored run hreads e⟩

/-! ## The audio on its way -/

section Audio

variable {β : Type} {cfg : StreamerConfig} {lib : LibAv} {reads : PktId → ReadResult}

/-- The packet is one for the queue. -/
def RoutedTo (cfg : StreamerConfig) (reads : PktId → ReadResult) (q : QueueId) (pkt : PktId) :
    Prop :=
  routeQueue cfg (reads pkt).streamIndex = [q]

instance (q : QueueId) : DecidablePred (RoutedTo cfg reads q) :=
  fun pkt => inferInstanceAs (Decidable (routeQueue cfg (reads pkt).streamIndex = [q]))

/-- `enqueue` was called for every packet read that is one for the queue, but for the one in
hand. -/
theorem offered_eq_read
    {tr : List PipelineTransition} {s : PipelineState}
    (hinv : ReadInv cfg reads tr s) (q : QueueId) :
    packetsOffered tr q ++ s.packetInHand.filter (RoutedTo cfg reads q) =
      (packetsRead tr).filter (RoutedTo cfg reads q) := by
  rw [← hinv.handled, List.filter_append, List.filter_map]
  refine congrArg (· ++ _) (congrArg _ (List.filter_congr fun x hx => ?_))
  refine decide_eq_decide.mpr ?_
  rw [hinv.targets x hx]
  exact Iff.rfl

/-- The blocks and the residue are the payloads. -/
theorem PcmInv.stream
    {bytesPerSample : Int → Int} {mCodecCtx : AVCodecContext}
    {dtr : List (DealTransition β)} {d : DealState β}
    (h : PcmInv bytesPerSample mCodecCtx dtr d) :
    (submittedAudio (eventsOf dtr)).flatMap (·.data0) ++ d.thread.pcm =
      payload (dealtPackets dtr) := by
  rw [h.submitted, List.flatMap_map, h.gathers.pcm]
  exact gather_stream (dealtPackets dtr)

end Audio

/--
The audio from `av_read_frame` to `avcodec_encode_audio2`, as long as the copies stay inside
`mPCMBuffer`: the blocks given to the encoder, what is gathered for the next one, and the
data of the packets on the way are the data of the packets that the queue has stored, each
block being full.  These are packets that were read, in the order of reading; all of them,
if every `enqueue` finds room.
-/
theorem audio_carried
    {β : Type} {cfg : StreamerConfig} {lib : LibAv} {bytesPerSample : Int → Int}
    {content : PktId → RawPacket β} {poolCapacity : ℕ} {capacity : QueueId → ℕ}
    {pHandle : KoalaMuxer} {object : EncoderId → FFEncoderThread β}
    {reads : PktId → ReadResult} {tr : List (ObjectTransition β)} {s : ObjectState β}
    {e : EncoderId} {mCodecCtx : AVCodecContext} {memory : PcmMemory β}
    (run : Run (objectStep cfg lib bytesPerSample content)
      (ObjectState.init poolCapacity capacity pHandle object) tr s)
    (hreads : ReadsAre (tr.map (threadsSeen content)) reads)
    (hobject : object e = initAudioThread e mCodecCtx memory)
    (hfits : ∀ offset size, .copied offset size ∈ dealEvents e tr →
      offset + size ≤ 1024 * 8) :
    (submittedAudio (dealEvents e tr)).flatMap (·.data0) ++
        (s.object e).mPCMBuffer.take (s.object e).mPcmSize ++
        (s.threads.waiting e).flatMap (fun pkt => (content pkt).data) =
      (packetsStored (tr.map (threadsSeen content)) e.input).flatMap
        (fun pkt => (content pkt).data) ∧
    (∀ frame ∈ submittedAudio (dealEvents e tr), frame.data0.length = 1024 * 8) ∧
    (packetsStored (tr.map (threadsSeen content)) e.input).Sublist
      ((packetsRead (tr.map (threadsSeen content))).filter (RoutedTo cfg reads e.input)) ∧
    ((∀ τ ∈ tr.map (threadsSeen content), FindsRoom τ) →
      packetsStored (tr.map (threadsSeen content)) e.input ++
          s.threads.packetInHand.filter (RoutedTo cfg reads e.input) =
        (packetsRead (tr.map (threadsSeen content))).filter
          (RoutedTo cfg reads e.input)) := by
  have hthreads := objectRun_threads run
  have hoffered := offered_eq_read (run_readInv hthreads hreads) e.input
  obtain ⟨dtr, d, drun, hthread, hpackets, hevents⟩ := objectRun_deal run e
  rw [hobject] at drun
  have hinv := run_pcmInv drun
  have hsubmitted : submittedAudio (eventsOf dtr) = submittedAudio (dealEvents e tr) := by
    rw [← submittedAudio_shown, hevents, submittedAudio_shown]
  refine ⟨?_, ?_, ?_, ?_⟩
  · have hstream := hinv.stream
    rw [hsubmitted, hthread, hpackets, payload, stream, List.flatMap_map] at hstream
    rw [← objectRun_stored run hreads e, List.flatMap_append, ← hstream]
    rfl
  · have hcopies : ∀ offset size, .copied offset size ∈ eventsOf dtr →
        offset + size ≤ 1024 * 8 := by
      intro offset size hmem
      rw [← copied_mem_shown, hevents, copied_mem_shown] at hmem
      exact hfits offset size hmem
    have hfit := hinv.copies.mp (inBuffer_iff.mp hcopies)
    intro frame hframe
    rw [← hsubmitted, hinv.submitted] at hframe
    obtain ⟨b, hb, rfl⟩ := List.mem_map.mp hframe
    exact hfit.block_length b hb
  · rw [← hoffered]
    exact (offered_sublist _ e.input).trans (List.sublist_append_left _ _)
  · intro hroom
    rw [← hoffered, stored_eq_offered ((all_findRoom_iff hthreads).mp hroom) e.input]

/-! ## Packets from a microphone -/

section Microphone

/-- The packet 0 has three bytes, every other one two. -/
def micContent : PktId → RawPacket ℕ
  | 0 => ⟨[1, 2, 3], 100⟩
  | _ => ⟨[4, 5], 200⟩

def micObjects : EncoderId → FFEncoderThread ℕ
  | .mpThreadVE => ⟨.mpThreadVE, .video, stereoCtx, [], 0⟩
  | .mpThreadAE => initAudioThread .mpThreadAE stereoCtx freshPcm

/-- Two packets are read; the second is still in the queue when the first is dealt with. -/
def micActions : List ObjectAction :=
  [.walk (.start .mpThreadAE)] ++
  (List.replicate 16 (.device ⟨1, 0⟩)).map .walk ++
  (List.replicate 2 (.encoder .mpThreadAE ⟨.kept, 0⟩)).map .walk ++
  [.deal .mpThreadAE encoderDelays]

theorem object_runs_alone_mic :
    ∃ tr s, Run (objectStep ⟨0, 1⟩ exactLibAv (fun _ => 2) micContent)
        (ObjectState.init 500 queueCapacity (openedMuxer false true false "flv" 0 0 0)
          micObjects) tr s ∧
      packetsGiven .mpThreadAE tr = [0] ∧ s.threads.waiting .mpThreadAE = [1] ∧
      Run (pipelineStep ⟨0, 1⟩ exactLibAv)
        (PipelineState.init 500 queueCapacity (openedMuxer false true false "flv" 0 0 0))
        (tr.map (threadsSeen micContent)) s.threads ∧
      (∃ dtr d, Run (dealStep fun _ => 2) (DealState.init (micObjects .mpThreadAE)) dtr d ∧
        d.thread = s.object .mpThreadAE ∧
        dealtPackets dtr = (packetsGiven .mpThreadAE tr).map micContent ∧
        shownEvents (eventsOf dtr) = shownEvents (dealEvents .mpThreadAE tr)) ∧
      packetsGiven .mpThreadAE tr ++ s.threads.waiting .mpThreadAE =
        packetsStored (tr.map (threadsSeen micContent)) .pPCMQueue := by
  obtain ⟨tr, s, run, hreads, hgiven, hwaiting⟩ :=
    Run.exists_of_exec (objectStep ⟨0, 1⟩ exactLibAv (fun _ => 2) micContent)
      (ObjectState.init 500 queueCapacity (openedMuxer false true false "flv" 0 0 0)
        micObjects)
      micActions
      (fun r => (∀ τ ∈ r.1.map (threadsSeen micContent),
          indexSeen τ = (readBy τ).map fun _ => 1) ∧
        packetsGiven .mpThreadAE r.1 = [0] ∧ r.2.threads.waiting .mpThreadAE = [1])
      (by decide +kernel)
  have hreadsAre : ReadsAre (tr.map (threadsSeen micContent)) fun _ => .read 1 := hreads
  exact ⟨tr, s, run, hgiven, hwaiting, object_runs_alone run hreadsAre .mpThreadAE⟩

/-- Packets of half a block each. -/
def halfBlock (pkt : PktId) : RawPacket ℕ := micPacket 4096 (100 * pkt)

/-- Three packets are read, and two of them are dealt with. -/
def halvesActions : List ObjectAction :=
  [.walk (.start .mpThreadAE)] ++
  (List.replicate 24 (.device ⟨1, 0⟩)).map .walk ++
  (List.replicate 2 (.encoder .mpThreadAE ⟨.kept, 0⟩)).map .walk ++
  [.deal .mpThreadAE encoderDelays] ++
  (List.replicate 3 (.encoder .mpThreadAE ⟨.kept, 0⟩)).map .walk ++
  [.deal .mpThreadAE encoderDelays]

/-- A block of two packets is submitted; the third packet waits. -/
theorem audio_carried_halves :
    ∃ tr s, Run (objectStep ⟨0, 1⟩ exactLibAv (fun _ => 2) halfBlock)
        (ObjectState.init 500 queueCapacity (openedMuxer false true false "flv" 0 0 0)
          micObjects) tr s ∧
      (submittedAudio (dealEvents .mpThreadAE tr)).length = 1 ∧
      s.threads.waiting .mpThreadAE = [2] ∧
      (submittedAudio (dealEvents .mpThreadAE tr)).flatMap (·.data0) ++
          (s.object .mpThreadAE).mPCMBuffer.take (s.object .mpThreadAE).mPcmSize ++
          (s.threads.waiting .mpThreadAE).flatMap (fun pkt => (halfBlock pkt).data) =
        [0, 1, 2].flatMap (fun pkt => (halfBlock pkt).data) ∧
      (∀ frame ∈ submittedAudio (dealEvents .mpThreadAE tr),
        frame.data0.length = 1024 * 8) ∧
      (packetsRead (tr.map (threadsSeen halfBlock))).filter
        (RoutedTo ⟨0, 1⟩ (fun _ => .read 1) .pPCMQueue) = [0, 1, 2] := by
  obtain ⟨tr, s, run, hreads, hcopies, hlost, hstored, hhand, hsubmitted, hwaiting⟩ :=
    Run.exists_of_exec (objectStep ⟨0, 1⟩ exactLibAv (fun _ => 2) halfBlock)
      (ObjectState.init 500 queueCapacity (openedMuxer false true false "flv" 0 0 0)
        micObjects)
      halvesActions
      (fun r => (∀ τ ∈ r.1.map (threadsSeen halfBlock),
          indexSeen τ = (readBy τ).map fun _ => 1) ∧
        (∀ event ∈ dealEvents .mpThreadAE r.1, event.InBuffer) ∧
        (∀ τ ∈ r.1.map (threadsSeen halfBlock), lostFrames τ.src τ.action = []) ∧
        packetsStored (r.1.map (threadsSeen halfBlock)) .pPCMQueue = [0, 1, 2] ∧
        r.2.threads.packetInHand = [] ∧
        (submittedAudio (dealEvents .mpThreadAE r.1)).length = 1 ∧
        r.2.threads.waiting .mpThreadAE = [2])
      (by decide +kernel)
  have hreadsAre : ReadsAre (tr.map (threadsSeen halfBlock)) fun _ => .read 1 := hreads
  obtain ⟨hstream, hblocks, -, hall⟩ := audio_carried run hreadsAre rfl
    (fun offset size hmem => hcopies _ hmem)
  rw [show EncoderId.mpThreadAE.input = .pPCMQueue from rfl, hstored] at hstream hall
  refine ⟨tr, s, run, hsubmitted, hwaiting, hstream, hblocks, ?_⟩
  rw [← hall fun τ hτ _ _ => hlost τ hτ, hhand]
  rfl

end Microphone

end KoalaStreamer
