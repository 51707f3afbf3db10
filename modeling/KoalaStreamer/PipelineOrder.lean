import KoalaStreamer.EncodedTransport
import KoalaStreamer.ReadRouting

/-!
# From av_read_frame to av_interleaved_write_frame

The two queues of a stream and its encoder in between, taken together: an encoder thread
gives out at most one packet for each that it deals with, and deals with those of its
stream in the order they were read.

Main result: `written_in_read_order`: what is written of a stream comes from packets of
the stream that were read, each from its own, in the order of reading.
-/

namespace KoalaStreamer

open EventMachine TokenAccounting LossyChannel

/-! ## What an encoder makes of what it is given -/

section Encoding

/-- The packet that the encoder thread deals with and has not given to its encoder. -/
def PipelineState.dealing (s : PipelineState) (e : EncoderId) : List PktId :=
  match s.encoder e with
  | .dealing pFrame => [(s.heap pFrame).pBuffer]
  | _ => []

/-- What the encoder gives out in the step, with the packet that it was given. -/
def encodedBy (e : EncoderId) (τ : PipelineTransition) : List (PktId × SentPkt) :=
  (τ.src.dealing e).flatMap fun pkt => (sentBy e τ).map fun sent => (pkt, sent)

def packetsEncoded (e : EncoderId) (tr : List PipelineTransition) :
    List (PktId × SentPkt) :=
  tr.flatMap (encodedBy e)

end Encoding

section Steps

variable {cfg : StreamerConfig} {lib : LibAv} {s s' : PipelineState}
  {es : List PipelineEvent} {a : PipelineAction} {e : EncoderId}

/-- Every packet that is given out was made of one that the thread deals with. -/
theorem map_snd_encodedBy
    (e : EncoderId) (τ : PipelineTransition) :
    (encodedBy e τ).map Prod.snd = sentBy e τ := by
  have hnone : (∀ pFrame, τ.src.encoder e ≠ .dealing pFrame) → sentBy e τ = [] := by
    intro hpc
    simp only [sentBy]
    split
    · split
      · split
        · rename_i hdealing _
          exact absurd hdealing (hpc _)
        · rfl
      · rfl
    · rfl
  simp only [encodedBy, PipelineState.dealing]
  split
  · simp [Function.comp_def]
  · rename_i hpc
    rw [hnone hpc]
    rfl

theorem encodedBy_sublist
    (e : EncoderId) (τ : PipelineTransition) :
    ((encodedBy e τ).map Prod.fst).Sublist (τ.src.dealing e) := by
  have hone := sentBy_length_le e τ
  simp only [encodedBy, PipelineState.dealing]
  split
  · match sentBy e τ, hone with
    | [], _ => exact List.nil_sublist _
    | [sent], _ => exact List.Sublist.refl _
  · exact List.Sublist.refl _

/-- A thread that takes no step goes on with what it deals with, if anything. -/
theorem dealing_of_beside
    (honce : AtMostOnce s.custody s.nextFrame) (hstart : StartInv s)
    (h : pipelineStep cfg lib s a = some (s', es)) (hne : a.thread ≠ some (.encoder e)) :
    s'.dealing e = s.dealing e := by
  have hkept : s'.encoder e = s.encoder e ∨
      (s'.encoder e = .runLoop ∧ s.encoder e = .notCreated) := by
    cases a with
    | device answer =>
        exact Or.inl (congrFun (deviceStep_others h).2.1 e)
    | encoder e' answer =>
        have he : e ≠ e' := by
          rintro rfl
          exact hne rfl
        exact Or.inl ((encoderStep_others h).2.2.1 e he)
    | mux answer =>
        exact Or.inl (congrFun (muxThreadStep_others h).2.1 e)
    | start e' =>
        simp only [pipelineStep] at h
        split at h
        · rename_i hnull
          obtain ⟨rfl, -⟩ := Prod.mk.inj (Option.some.inj h)
          show (s.setEncoder e' .runLoop).encoder e = _ ∨ _
          rw [setEncoder_encoder]
          split
          · rename_i he
            subst he
            exact Or.inr ⟨rfl, hstart e hnull⟩
          · exact Or.inl rfl
        · obtain ⟨rfl, -⟩ := Prod.mk.inj (Option.some.inj h)
          exact Or.inl rfl
    | setStop =>
        obtain ⟨rfl, -⟩ := Prod.mk.inj (Option.some.inj h)
        exact Or.inl rfl
    | _ =>
        simp only [pipelineStep] at h
        split at h <;> obtain ⟨rfl, -⟩ := Prod.mk.inj (Option.some.inj h) <;>
          exact Or.inl rfl
  rcases hkept with hsame | ⟨hloop, hnot⟩
  · simp only [PipelineState.dealing, hsame]
    split
    · rename_i pFrame hpc
      have hhand : pFrame ∈ s.custody (.hand (.encoder e)) := by
        show pFrame ∈ (s.encoder e).hand
        rw [hpc]
        exact List.mem_singleton_self _
      rw [pipelineStep_heap_of_place honce h hhand]
      rintro t ht heq
      exact hne (by rw [ht, Place.hand.inj heq])
    · rfl
  · simp only [PipelineState.dealing, hloop, hnot]

/-- In its own steps a thread begins to deal with what it deals with after them. -/
theorem dealtBy_encoder
    (s s' : PipelineState) (e : EncoderId) (answer : EncoderAnswer)
    (es : List PipelineEvent) :
    dealtBy e ⟨s, .encoder e answer, es, s'⟩ = s'.dealing e :=
  if_pos rfl

/-- What is given out in a step was made of what the thread dealt with before, and what
it deals with after the step is what it dealt with before or begins to. -/
theorem pipelineStep_dealing
    (honce : AtMostOnce s.custody s.nextFrame) (hstart : StartInv s)
    (h : pipelineStep cfg lib s a = some (s', es)) :
    ((encodedBy e ⟨s, a, es, s'⟩).map Prod.fst ++ s'.dealing e).Sublist
      (s.dealing e ++ dealtBy e ⟨s, a, es, s'⟩) := by
  by_cases hthread : a.thread = some (.encoder e)
  · have hdealt : dealtBy e ⟨s, a, es, s'⟩ = s'.dealing e := by
      cases a with
      | encoder e' answer =>
          obtain rfl := PipelineThread.encoder.inj (Option.some.inj hthread)
          exact dealtBy_encoder ..
      | _ =>
          cases hthread
    rw [hdealt]
    exact (encodedBy_sublist e _).append (List.Sublist.refl _)
  · have hsent : sentBy e ⟨s, a, es, s'⟩ = [] := by
      cases a with
      | encoder e' answer =>
          refine if_neg ?_
          rintro rfl
          exact hthread rfl
      | _ =>
          rfl
    have hencoded : encodedBy e ⟨s, a, es, s'⟩ = [] := by
      have hmap := map_snd_encodedBy e ⟨s, a, es, s'⟩
      rw [hsent] at hmap
      exact List.map_eq_nil_iff.mp hmap
    rw [hencoded, List.map_nil, List.nil_append, dealing_of_beside honce hstart h hthread]
    exact List.sublist_append_left _ _

end Steps

/-! ## The whole way -/

section Runs

variable {cfg : StreamerConfig} {lib : LibAv} {poolCapacity : ℕ}
  {capacity : QueueId → ℕ} {pHandle : KoalaMuxer} {reads : PktId → ReadResult}
  {tr : List PipelineTransition} {s : PipelineState}

theorem map_snd_packetsEncoded
    (e : EncoderId) (tr : List PipelineTransition) :
    (packetsEncoded e tr).map Prod.snd = packetsSent e tr := by
  simp only [packetsEncoded, packetsSent, List.map_flatMap, map_snd_encodedBy]

/-- The encoder is given its packets in the order in which the thread takes them. -/
theorem run_dealing
    (run : Run (pipelineStep cfg lib)
      (PipelineState.init poolCapacity capacity pHandle) tr s) (e : EncoderId) :
    ((packetsEncoded e tr).map Prod.fst ++ s.dealing e).Sublist (packetsDealt tr e) := by
  induction run with
  | nil =>
      exact List.Sublist.refl _
  | @snoc tr s t a es run hstep ih =>
      have hone := pipelineStep_dealing (e := e) (pipeline_atMostOnce run)
        (run_startInv run) hstep
      rw [packetsDealt_snoc, packetsEncoded, List.flatMap_append, List.flatMap_singleton,
        List.map_append, List.append_assoc, ← packetsEncoded]
      refine (hone.append_left _).trans ?_
      rw [← List.append_assoc]
      exact ih.append (List.Sublist.refl _)

/-- What goes into the input queue of an encoder thread are packets of its stream, in the
order they were read. -/
theorem stored_sublist_read
    (hinv : ReadInv cfg reads tr s) (e : EncoderId) :
    (packetsStored tr e.input).Sublist
      ((packetsRead tr).filter fun p => (reads p).streamIndex = cfg.streamOf e.input) := by
  have hroute : ∀ streamIndex, routeQueue cfg streamIndex = [e.input] →
      streamIndex = cfg.streamOf e.input := by
    intro streamIndex hqueue
    simp only [routeQueue] at hqueue
    split at hqueue
    · cases e <;> first | assumption | cases hqueue
    · split at hqueue
      · cases e <;> first | assumption | cases hqueue
      · cases hqueue
  have hhandled : ((packetsHandled tr).map Prod.fst).Sublist (packetsRead tr) := by
    rw [← hinv.handled]
    exact List.sublist_append_left _ _
  have hstored : packetsStored tr e.input =
      (((packetsHandled tr).filter fun x => x.2 = .enqueued e.input true).map
        Prod.fst).filter fun p => (reads p).streamIndex = cfg.streamOf e.input := by
    symm
    rw [packetsStored, List.filter_eq_self]
    intro p hp
    obtain ⟨x, hx, rfl⟩ := List.mem_map.mp hp
    obtain ⟨hmem, hqueue⟩ := List.mem_filter.mp hx
    have htarget := hinv.targets x hmem
    rw [of_decide_eq_true hqueue] at htarget
    exact decide_eq_true (hroute _ htarget.symm)
  rw [hstored]
  exact (((List.filter_sublist (l := packetsHandled tr)).map Prod.fst).trans hhandled).filter _

end Runs

/--
What is written of a stream was made of packets of the stream that `av_read_frame` was
given, each of its own, and in the order in which these were read; `ways` pairs the packet
that was read with the one that was written.
-/
theorem written_in_read_order
    {cfg : StreamerConfig} {lib : LibAv} {poolCapacity : ℕ}
    {capacity : QueueId → ℕ} {pHandle : KoalaMuxer} {reads : PktId → ReadResult}
    {tr : List PipelineTransition} {s : PipelineState}
    (run : Run (pipelineStep cfg lib)
      (PipelineState.init poolCapacity capacity pHandle) tr s)
    (hreads : ReadsAre tr reads) (e : EncoderId) :
    ∃ ways : List (PktId × SentPkt),
      ways.map Prod.snd = packetsWritten e tr ∧
      ways.Sublist (packetsEncoded e tr) ∧
      (ways.map Prod.fst).Sublist
        ((packetsRead tr).filter fun p => (reads p).streamIndex = cfg.streamOf e.input) ∧
      (ways.map Prod.fst).Nodup := by
  have hinv := run_readInv run hreads
  have hwritten : (packetsWritten e tr).Sublist ((packetsEncoded e tr).map Prod.snd) := by
    rw [map_snd_packetsEncoded]
    exact (List.sublist_append_left _ _).trans (run_transit_sublist run e)
  obtain ⟨ways, hways, hsnd⟩ := List.sublist_map_iff.mp hwritten
  have hdealt : ((packetsEncoded e tr).map Prod.fst).Sublist (packetsDealt tr e) :=
    (List.sublist_append_left _ _).trans (run_dealing run e)
  have hstored : (packetsDealt tr e).Sublist (packetsStored tr e.input) := by
    rw [← hinv.dealt e]
    exact List.sublist_append_left _ _
  have hread := ((hways.map Prod.fst).trans hdealt).trans
    (hstored.trans (stored_sublist_read hinv e))
  exact ⟨ways, hsnd.symm, hways, hread,
    (hread.trans (List.filter_sublist)).nodup hinv.nodup⟩

/-- Two packets are read; the encoder gives out one for the second. -/
def twoPacketActions : List PipelineAction :=
  [.start .mpThreadVE, .startMux] ++
  List.replicate 8 (.device ⟨0, 0⟩) ++
  List.replicate 3 (.encoder .mpThreadVE ⟨.nothing, 0⟩) ++
  [.encoder .mpThreadVE ⟨.nothing, 0⟩] ++
  List.replicate 9 (.device ⟨0, 0⟩) ++
  List.replicate 8 (.encoder .mpThreadVE ⟨.got ⟨7, 100, 0, 0, 1⟩, 0⟩) ++
  List.replicate 5 (.mux ⟨0, 0, false⟩)

theorem written_in_read_order_second :
    ∃ tr s, Run (pipelineStep ⟨0, 1⟩ exactLibAv)
      (PipelineState.init 500 queueCapacity
        (openedMuxer false true false "flv" 0 0 0)) tr s ∧
      packetsRead tr = [0, 2] ∧
      packetsWritten .mpThreadVE tr = [(3, ⟨7, 100, 0, 0, 1⟩)] ∧
      ∃ ways : List (PktId × SentPkt),
        ways.map Prod.snd = packetsWritten .mpThreadVE tr ∧
        ways.Sublist (packetsEncoded .mpThreadVE tr) ∧
        (ways.map Prod.fst).Sublist ((packetsRead tr).filter fun _ => true) ∧
        (ways.map Prod.fst).Nodup := by
  obtain ⟨tr, s, run, hreads, hread, hwritten⟩ :=
    Run.exists_of_exec (pipelineStep ⟨0, 1⟩ exactLibAv)
      (PipelineState.init 500 queueCapacity
        (openedMuxer false true false "flv" 0 0 0))
      twoPacketActions
      (fun r => (∀ τ ∈ r.1, indexSeen τ = (readBy τ).map fun _ => 0) ∧
        packetsRead r.1 = [0, 2] ∧
        packetsWritten .mpThreadVE r.1 = [(3, ⟨7, 100, 0, 0, 1⟩)])
      (by decide +kernel)
  have hreadsAre : ReadsAre tr fun _ => .read 0 := hreads
  exact ⟨tr, s, run, hread, hwritten, written_in_read_order run hreadsAre .mpThreadVE⟩

end KoalaStreamer
